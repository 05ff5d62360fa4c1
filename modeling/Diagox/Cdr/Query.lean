import Diagox.Cdr.Filters
import Diagox.Lib.LastValues

/-!
# The query of the history

`GET /api/v1/history` of `http.go` reads the options of `CDRRead` from the query of a request: a period, and filters
`key:value` with bars between them. A later filter of a key replaces an earlier one, what is no filter is passed
over, and a query without any filter is looked for in the caller.
-/

namespace Cdr

open LastValues

/-- The parameters of the request, each the empty text when it is missing. -/
structure HistoryQuery where
  dateFrom : String := ""
  dateTo : String := ""
  query : String := ""
  deriving DecidableEq, Repr

/-- `time.Parse` with the layout `2006-01-02T15:04`, and `strconv.ParseFloat`. -/
structure Parsers where
  time : String → Option Time
  float : String → Option ℚ

inductive QueryError where
  | dateFrom
  | dateTo
  | mes
  deriving DecidableEq, Repr

variable (p : Parsers)

/-- The options, and whether there was a filter. -/
abbrev FilterState := CDRReadOptions × Bool

def setFilter (state : FilterState) (key value : String) : Except QueryError FilterState :=
  let (opts, hasFilter) := state
  if key = "from" then .ok ({ opts with from_ := value }, true)
  else if key = "to" then .ok ({ opts with to_ := value }, true)
  else if key = "call_id" then .ok ({ opts with callID := value }, true)
  else if key = "orig_call_id" then .ok ({ opts with originatorCallID := value }, true)
  else if key = "mes" then match p.float value with
    | none => .error .mes
    | some mes => .ok ({ opts with mes := mes }, true)
  else .ok (opts, hasFilter)

/-- One part of the query between two bars. -/
def filterStep (state : FilterState) (kv : String) : Except QueryError FilterState :=
  let f := Strings.trimSpace kv
  if f = "" then .ok state
  else match Strings.cut f ':' with
    | none => .ok state
    | some (key, value) => setFilter p state (Strings.trimSpace key) (Strings.trimSpace value)

/-- The options with the filters, and the filters as the page shows them. -/
def readFilters (opts : CDRReadOptions) (filters : String) : Except QueryError (CDRReadOptions × String) :=
  if filters = "" then .ok (opts, filters)
  else do
    let state ← (Strings.split filters '|').foldlM (filterStep p) (opts, false)
    if state.2 then return (state.1, filters)
    else return ({ state.1 with from_ := filters }, "from: " ++ filters)

def readDates (q : HistoryQuery) : Except QueryError CDRReadOptions :=
  if q.dateFrom ≠ "" ∧ q.dateTo ≠ "" then match p.time q.dateFrom with
    | none => .error .dateFrom
    | some fromTime => match p.time q.dateTo with
      | none => .error .dateTo
      | some toTime => .ok { fromTime := fromTime, toTime := toTime }
  else .ok {}

/-- How `pageHistory` reads the options. -/
def historyOptions (q : HistoryQuery) : Except QueryError (CDRReadOptions × String) := do
  let opts ← readDates p q
  readFilters p opts q.query

/-! ### What a query says -/

inductive FilterKey where
  | from_
  | to_
  | callID
  | originatorCallID
  | mes
  deriving DecidableEq, Repr

namespace FilterKey

def name : FilterKey → String
  | from_ => "from"
  | to_ => "to"
  | callID => "call_id"
  | originatorCallID => "orig_call_id"
  | mes => "mes"

def all : List FilterKey := [from_, to_, callID, originatorCallID, mes]

def named (text : String) : Option FilterKey := all.find? (·.name = text)

theorem named_name (k : FilterKey) : named k.name = some k := by cases k <;> decide

theorem name_of_named {text : String} {k : FilterKey} (h : named text = some k) : k.name = text := by
  simpa using List.find?_some h

end FilterKey

/-- A filter: a key that there is, and the text behind the first colon. -/
def filterOf (kv : String) : Option (FilterKey × String) := do
  let (key, value) ← Strings.cut (Strings.trimSpace kv) ':'
  let k ← FilterKey.named (Strings.trimSpace key)
  return (k, Strings.trimSpace value)

/-- The filters of a query, in their order. -/
def filters (text : String) : List (FilterKey × String) := (Strings.split text '|').filterMap filterOf

/-- Some score of the query is no number. -/
def BadScore (fs : List (FilterKey × String)) : Prop := ∃ f ∈ fs, f.1 = .mes ∧ p.float f.2 = none

instance (fs : List (FilterKey × String)) : Decidable (BadScore p fs) :=
  inferInstanceAs (Decidable (∃ f ∈ fs, _))

/-- The options with the last value of each key. -/
def withFilters (opts : CDRReadOptions) (fs : List (FilterKey × String)) : CDRReadOptions :=
  { opts with
    from_ := (lastOf .from_ fs).getD opts.from_
    to_ := (lastOf .to_ fs).getD opts.to_
    callID := (lastOf .callID fs).getD opts.callID
    originatorCallID := (lastOf .originatorCallID fs).getD opts.originatorCallID
    mes := ((lastOf .mes fs).bind p.float).getD opts.mes }

section Filters

variable {p} {opts : CDRReadOptions} {fs : List (FilterKey × String)} {parts : List String}

theorem filterStep_eq (hasFilter : Bool) (kv : String) :
    filterStep p (opts, hasFilter) kv = match filterOf kv with
      | none => .ok (opts, hasFilter)
      | some f => setFilter p (opts, hasFilter) f.1.name f.2 := by
  unfold filterStep filterOf
  by_cases hblank : Strings.trimSpace kv = ""
  · simp [hblank, Strings.cut]
  · simp only [if_neg hblank]
    cases hcut : Strings.cut (Strings.trimSpace kv) ':' with
    | none => rfl
    | some kv =>
        cases hnamed : FilterKey.named (Strings.trimSpace kv.1) with
        | none =>
            have hother : ∀ k ∈ FilterKey.all, k.name ≠ Strings.trimSpace kv.1 := by
              simpa [FilterKey.named, List.find?_eq_none] using hnamed
            simp only [FilterKey.all, List.mem_cons, List.not_mem_nil, or_false, forall_eq_or_imp, forall_eq,
              FilterKey.name] at hother
            obtain ⟨h₁, h₂, h₃, h₄, h₅⟩ := hother
            simp [hnamed, setFilter, h₁.symm, h₂.symm, h₃.symm, h₄.symm, h₅.symm]
        | some k => simp [hnamed, FilterKey.name_of_named hnamed]

theorem setFilter_withFilters (hasFilter : Bool) (f : FilterKey × String) :
    setFilter p (withFilters p opts fs, hasFilter) f.1.name f.2 =
      if f.1 = .mes ∧ p.float f.2 = none then .error .mes else .ok (withFilters p opts (fs ++ [f]), true) := by
  obtain ⟨k, value⟩ := f
  cases k with
  | mes =>
      cases hfloat : p.float value with
      | none => simp [setFilter, FilterKey.name, hfloat]
      | some mes => simp [setFilter, FilterKey.name, hfloat, withFilters, lastOf_concat]
  | _ => simp [setFilter, FilterKey.name, withFilters, lastOf_concat]

theorem foldlM_filterStep (parts : List String) (opts : CDRReadOptions) :
    parts.foldlM (filterStep p) (opts, false) =
      if BadScore p (parts.filterMap filterOf) then .error .mes
      else .ok (withFilters p opts (parts.filterMap filterOf), decide (parts.filterMap filterOf ≠ [])) := by
  induction parts using List.reverseRecOn with
  | nil => simp [BadScore, withFilters, lastOf, pure, Except.pure]
  | append_singleton parts kv ih =>
      rw [List.foldlM_append, ih, List.filterMap_append]
      have hone : ∀ state, [kv].foldlM (filterStep p) state = filterStep p state kv := fun state => by
        simp [List.foldlM_cons, bind, Except.bind, pure, Except.pure]
        cases filterStep p state kv <;> rfl
      by_cases hbad : BadScore p (parts.filterMap filterOf)
      · have hbad' : BadScore p (parts.filterMap filterOf ++ [kv].filterMap filterOf) := by
          obtain ⟨f, hf, hmes⟩ := hbad
          exact ⟨f, List.mem_append_left _ hf, hmes⟩
        rw [if_pos hbad, if_pos hbad']
        rfl
      · rw [if_neg hbad]
        show [kv].foldlM (filterStep p) _ = _
        rw [hone, filterStep_eq]
        cases hkv : filterOf kv with
        | none => simp [hkv, hbad]
        | some f =>
            simp only
            rw [setFilter_withFilters]
            have hiff : BadScore p (parts.filterMap filterOf ++ [f]) ↔ f.1 = .mes ∧ p.float f.2 = none := by
              constructor
              · rintro ⟨g, hg, hmes⟩
                obtain hg | hg := List.mem_append.mp hg
                · exact absurd ⟨g, hg, hmes⟩ hbad
                · rwa [← List.mem_singleton.mp hg]
              · exact fun hmes => ⟨f, by simp, hmes⟩
            simp [hkv, hiff]

theorem withFilters_nil : withFilters p opts [] = opts := rfl

theorem filters_nil : filters "" = [] := by decide

/-- A query is read as its filters, of which the last of each key counts, or as a text for the caller. -/
theorem readFilters_eq (opts : CDRReadOptions) (text : String) :
    readFilters p opts text =
      if BadScore p (filters text) then .error .mes
      else if text ≠ "" ∧ filters text = [] then .ok ({ opts with from_ := text }, "from: " ++ text)
      else .ok (withFilters p opts (filters text), text) := by
  unfold readFilters
  by_cases htext : text = ""
  · have hgood : ¬ BadScore p (filters "") := by
      rw [filters_nil]
      rintro ⟨f, hf, -⟩
      cases hf
    rw [htext, if_pos rfl, if_neg hgood, if_neg (by simp), filters_nil, withFilters_nil]
  · have hfold : (Strings.split text '|').foldlM (filterStep p) (opts, false) =
        if BadScore p (filters text) then .error .mes
        else .ok (withFilters p opts (filters text), decide (filters text ≠ [])) := foldlM_filterStep _ opts
    rw [if_neg htext, hfold]
    by_cases hbad : BadScore p (filters text)
    · rw [if_pos hbad, if_pos hbad]
      rfl
    · rw [if_neg hbad, if_neg hbad]
      by_cases hnone : filters text = []
      · rw [if_pos ⟨htext, hnone⟩, hnone, withFilters_nil]
        rfl
      · rw [if_neg fun h => hnone h.2]
        simp [bind, Except.bind, pure, Except.pure, hnone]

end Filters

/-! ### Which records are asked for -/

/-- What `CDRRead` makes of a filter, which is not all that the page promises: `orig_call_id` is looked for in the
record's own Call-ID, like `call_id`, and the score of a record is not compared with `mes`. -/
def FilterKey.Passes (value : String) (d : CDR) : FilterKey → Prop
  | from_ => Strings.contains d.callerID value = true
  | to_ => Strings.contains d.calleeID value = true
  | callID | originatorCallID => Strings.contains d.callID value = true
  | mes => True

instance (value : String) (d : CDR) : DecidablePred (FilterKey.Passes value d)
  | .from_ => inferInstanceAs (Decidable (_ = true))
  | .to_ => inferInstanceAs (Decidable (_ = true))
  | .callID => inferInstanceAs (Decidable (_ = true))
  | .originatorCallID => inferInstanceAs (Decidable (_ = true))
  | .mes => .isTrue trivial

/-- The record passes each filter that no later one of its key replaces, or has the whole text in its caller. -/
def Wanted (text : String) (d : CDR) : Prop :=
  (filters text = [] → Strings.contains d.callerID text = true) ∧
    ∀ f ∈ filters text, lastOf f.1 (filters text) = some f.2 → f.1.Passes f.2 d

instance (text : String) : DecidablePred (Wanted text) := fun _ => inferInstanceAs (Decidable (_ ∧ _))

/-- The record is in the period, if both ends of it are given. -/
def InPeriod (q : HistoryQuery) (d : CDR) : Prop :=
  q.dateFrom ≠ "" → q.dateTo ≠ "" → ∀ a ∈ p.time q.dateFrom, ∀ b ∈ p.time q.dateTo, a ≠ 0 → b ≠ 0 →
    a ≤ d.startTime ∧ d.startTime ≤ b

instance (q : HistoryQuery) : DecidablePred (InPeriod p q) := fun d =>
  inferInstanceAs (Decidable (_ → _ → ∀ a ∈ p.time q.dateFrom, ∀ b ∈ p.time q.dateTo, a ≠ 0 → b ≠ 0 →
    a ≤ d.startTime ∧ d.startTime ≤ b))

/-- An end of the period, or a score, cannot be read. -/
def Malformed (q : HistoryQuery) : Prop :=
  (q.dateFrom ≠ "" ∧ q.dateTo ≠ "" ∧ (p.time q.dateFrom = none ∨ p.time q.dateTo = none)) ∨
    BadScore p (filters q.query)

instance : DecidablePred (Malformed p) := fun _ => inferInstanceAs (Decidable (_ ∨ _))

section Asked

variable {p} {q : HistoryQuery} {opts : CDRReadOptions} {fs : List (FilterKey × String)}

theorem readDates_eq (q : HistoryQuery) :
    (∃ e, readDates p q = .error e) ∧
        (q.dateFrom ≠ "" ∧ q.dateTo ≠ "" ∧ (p.time q.dateFrom = none ∨ p.time q.dateTo = none)) ∨
      ∃ a b, readDates p q = .ok { fromTime := a, toTime := b } ∧
        ¬ (q.dateFrom ≠ "" ∧ q.dateTo ≠ "" ∧ (p.time q.dateFrom = none ∨ p.time q.dateTo = none)) ∧
        ∀ d : CDR, InPeriod p q d ↔ (a ≠ 0 → b ≠ 0 → a ≤ d.startTime ∧ d.startTime ≤ b) := by
  unfold readDates InPeriod
  split_ifs with hdates
  · cases hfrom : p.time q.dateFrom with
    | none => exact .inl ⟨⟨_, rfl⟩, hdates.1, hdates.2, .inl rfl⟩
    | some a =>
        cases hto : p.time q.dateTo with
        | none => exact .inl ⟨⟨_, rfl⟩, hdates.1, hdates.2, .inr rfl⟩
        | some b =>
            refine .inr ⟨a, b, rfl, by simp, fun d => ?_⟩
            simp [hdates.1, hdates.2]
  · refine .inr ⟨0, 0, rfl, fun h => hdates ⟨h.1, h.2.1⟩, fun d => ?_⟩
    exact iff_of_true (fun hfrom hto => absurd ⟨hfrom, hto⟩ hdates) fun h => absurd rfl h

theorem matchesOptions_withFilters (a b : Time) (d : CDR) :
    matchesOptions (withFilters p { fromTime := a, toTime := b } fs) d = true ↔
      (a ≠ 0 → b ≠ 0 → a ≤ d.startTime ∧ d.startTime ≤ b) ∧ ∀ k value, lastOf k fs = some value → k.Passes value d := by
  have hunset : ∀ (text : String) (value : Option String),
      (value.getD "" ≠ "" → Strings.contains text (value.getD "") = true) ↔
        ∀ v, value = some v → Strings.contains text v = true := by
    intro text value
    have hempty : Strings.contains text "" = true := by simp [Strings.contains]
    cases value with
    | none => simp
    | some v =>
        rw [Option.getD_some]
        by_cases hv : v = ""
        · simp [hv, hempty]
        · simp [hv]
  rw [matchesOptions_iff, SatisfiesOthers]
  simp only [withFilters, hunset, and_assoc]
  refine and_congr_right fun _ => ?_
  constructor
  · rintro ⟨hfrom, hto, hcallID, horiginator⟩ k value hk
    cases k with
    | from_ => exact hfrom value hk
    | to_ => exact hto value hk
    | callID => exact hcallID value hk
    | originatorCallID => exact horiginator value hk
    | mes => trivial
  · intro h
    exact ⟨h .from_, h .to_, h .callID, h .originatorCallID⟩

theorem mem_of_lastOf {k : FilterKey} {value : String} (h : lastOf k fs = some value) : (k, value) ∈ fs := by
  obtain ⟨f, hf, rfl⟩ := Option.map_eq_some_iff.mp h
  have hmem := List.mem_of_getLast? hf
  rw [List.mem_filter] at hmem
  rw [← of_decide_eq_true hmem.2]
  exact hmem.1

/-- A request is refused exactly when it is malformed. Otherwise a record matches the options exactly when it is in
the period and wanted. -/
theorem historyOptions_cases (q : HistoryQuery) :
    (∃ e, historyOptions p q = .error e) ∧ Malformed p q ∨
      ∃ opts shown, historyOptions p q = .ok (opts, shown) ∧ ¬ Malformed p q ∧
        ∀ d, matchesOptions opts d = true ↔ InPeriod p q d ∧ Wanted q.query d := by
  unfold historyOptions Malformed
  obtain ⟨⟨e, he⟩, hdates⟩ | ⟨a, b, hok, hdates, hperiod⟩ := readDates_eq (p := p) q
  · exact .inl ⟨⟨e, by rw [he]; rfl⟩, .inl hdates⟩
  · rw [hok]
    show (∃ e, readFilters p _ q.query = .error e) ∧ _ ∨ ∃ opts shown, readFilters p _ q.query = _ ∧ _
    rw [readFilters_eq, or_iff_right hdates]
    by_cases hbad : BadScore p (filters q.query)
    · exact .inl ⟨⟨.mes, if_pos hbad⟩, hbad⟩
    · right
      rw [if_neg hbad]
      have hlast : ∀ d, (∀ f ∈ filters q.query, lastOf f.1 (filters q.query) = some f.2 → f.1.Passes f.2 d) ↔
          ∀ k value, lastOf k (filters q.query) = some value → k.Passes value d :=
        fun d => ⟨fun h k value hk => h (k, value) (mem_of_lastOf hk) hk, fun h f _ hf => h f.1 f.2 hf⟩
      by_cases hnone : q.query ≠ "" ∧ filters q.query = []
      · refine ⟨_, _, if_pos hnone, hbad, fun d => ?_⟩
        -- the text stands in for a filter of the caller
        have hfrom := @matchesOptions_withFilters p [(.from_, q.query)] a b d
        rw [hperiod, Wanted, hnone.2]
        refine hfrom.trans (and_congr_right fun _ => ?_)
        constructor
        · intro h
          exact ⟨fun _ => h .from_ q.query rfl, fun f hf => absurd hf List.not_mem_nil⟩
        · rintro ⟨h, -⟩ k value hk
          obtain ⟨rfl, rfl⟩ : k = .from_ ∧ value = q.query := by simpa using mem_of_lastOf hk
          exact h rfl
      · refine ⟨_, _, if_neg hnone, hbad, fun d => ?_⟩
        rw [matchesOptions_withFilters, hperiod, Wanted, hlast]
        refine and_congr_right fun _ => ⟨fun h => ⟨fun hnil => ?_, h⟩, And.right⟩
        have hblank : q.query = "" := by
          by_contra hne
          exact hnone ⟨hne, hnil⟩
        simp [hblank, Strings.contains]

end Asked

/-! ### Writing a query -/

def filterText (f : FilterKey × String) : String := f.1.name ++ ":" ++ f.2

def queryText (fs : List (FilterKey × String)) : String := "|".intercalate (fs.map filterText)

/-- The values have no white space at their ends, and no bar. -/
structure Writable (fs : List (FilterKey × String)) : Prop where
  trimmed : ∀ f ∈ fs, Strings.trimSpace f.2 = f.2
  bar : ∀ f ∈ fs, '|' ∉ f.2.toList

/-- The filters that say what the options say. -/
def filtersOf (formatFloat : ℚ → String) (opts : CDRReadOptions) : List (FilterKey × String) :=
  [(.from_, opts.from_), (.to_, opts.to_), (.callID, opts.callID), (.originatorCallID, opts.originatorCallID),
    (.mes, if opts.mes = 0 then "" else formatFloat opts.mes)].filter (·.2 ≠ "")

section Written

variable {p} {fs : List (FilterKey × String)} {opts : CDRReadOptions}

theorem filterText_toList (f : FilterKey × String) : (filterText f).toList = f.1.name.toList ++ ':' :: f.2.toList := by
  simp [filterText]

theorem FilterKey.name_plain (k : FilterKey) :
    ':' ∉ k.name.toList ∧ '|' ∉ k.name.toList ∧ Strings.trimSpace k.name = k.name ∧
      ∃ c, k.name.toList.head? = some c ∧ Strings.isSpace c = false := by
  cases k <;> exact ⟨by decide, by decide, by decide, _, rfl, by decide⟩

/-- A filter is read as it is written, -/
theorem filterOf_filterText {f : FilterKey × String} (h : Strings.trimSpace f.2 = f.2) :
    filterOf (filterText f) = some f := by
  obtain ⟨hcolon, -, hname, c, hc, hspace⟩ := f.1.name_plain
  have htrim : Strings.trimSpace (filterText f) = filterText f := by
    rw [Strings.trimSpace_eq_self_iff, filterText_toList]
    constructor
    · intro c' hc'
      rw [List.head?_append_of_ne_nil _ (List.ne_nil_of_mem (List.mem_of_head? hc)), hc] at hc'
      rwa [← Option.some.inj hc']
    · intro c' hc'
      rw [List.getLast?_append_of_ne_nil _ (List.cons_ne_nil _ _)] at hc'
      cases hvalue : f.2.toList with
      | nil =>
          rw [hvalue] at hc'
          obtain rfl : ':' = c' := by simpa using hc'
          decide
      | cons a l =>
          rw [hvalue, List.getLast?_cons_cons, ← hvalue] at hc'
          exact (Strings.trimSpace_eq_self_iff.mp h).2 c' hc'
  have hcut : Strings.cut (filterText f) ':' = some (f.1.name, f.2) := by
    have hwhile : ∀ x ∈ f.1.name.toList, (x != ':') = true := by
      intro x hx
      simpa using fun heq : x = ':' => hcolon (heq ▸ hx)
    rw [Strings.cut, filterText_toList, if_pos (by simp), List.takeWhile_append_of_pos hwhile,
      List.dropWhile_append_of_pos hwhile]
    simp
  rw [filterOf, htrim, hcut]
  show (do let k ← FilterKey.named (Strings.trimSpace f.1.name); _) = _
  rw [hname, FilterKey.named_name]
  show some (f.1, Strings.trimSpace f.2) = some f
  rw [h]

/-- and so are any filters with bars between them. -/
theorem filters_queryText (h : Writable fs) : filters (queryText fs) = fs := by
  cases fs with
  | nil => exact filters_nil
  | cons f rest =>
      have hbar : ∀ l ∈ ((f :: rest).map filterText).map String.toList, '|' ∉ l := by
        intro l hl
        obtain ⟨text, htext, rfl⟩ := List.mem_map.mp hl
        obtain ⟨g, hg, rfl⟩ := List.mem_map.mp htext
        rw [filterText_toList]
        simpa using ⟨g.1.name_plain.2.1, h.bar g hg⟩
      have hsplit : Strings.split (queryText (f :: rest)) '|' = (f :: rest).map filterText := by
        rw [Strings.split, queryText, String.toList_intercalate, show ("|".toList : List Char) = ['|'] from rfl,
          List.splitOn_intercalate '|' hbar (by simp), List.map_map]
        simp
      rw [filters, hsplit, List.filterMap_map]
      exact (List.filterMap_congr fun g hg => filterOf_filterText (h.trimmed g hg)).trans List.filterMap_some

theorem lastOf_filtersOf {formatFloat : ℚ → String} {k : FilterKey} {value : String}
    (h : ([(.from_, opts.from_), (.to_, opts.to_), (.callID, opts.callID), (.originatorCallID, opts.originatorCallID),
      (.mes, if opts.mes = 0 then "" else formatFloat opts.mes)] : List (FilterKey × String)).filter
        (fun f => f.1 = k) = [(k, value)]) :
    lastOf k (filtersOf formatFloat opts) = if value = "" then none else some value := by
  rw [lastOf, filtersOf, List.filter_comm, h]
  by_cases hvalue : value = ""
  · simp [hvalue]
  · simp [hvalue]

/-- The options of a query are those it was written for. -/
theorem readFilters_queryText {formatFloat : ℚ → String} (hwritable : Writable (filtersOf formatFloat opts))
    (hfloat : opts.mes ≠ 0 → formatFloat opts.mes ≠ "" ∧ p.float (formatFloat opts.mes) = some opts.mes) :
    readFilters p { offset := opts.offset, fromTime := opts.fromTime, toTime := opts.toTime }
        (queryText (filtersOf formatFloat opts)) =
      .ok (opts, queryText (filtersOf formatFloat opts)) := by
  have hmes : lastOf .mes (filtersOf formatFloat opts) =
      if opts.mes = 0 then none else some (formatFloat opts.mes) := by
    rw [lastOf_filtersOf rfl]
    by_cases hzero : opts.mes = 0
    · simp [hzero]
    · simp [hzero, (hfloat hzero).1]
  have htext : ∀ value : String, (if value = "" then none else some value).getD "" = value := by
    intro value
    by_cases hvalue : value = ""
    · simp [hvalue]
    · simp [hvalue]
  have hscore : ((if opts.mes = 0 then none else some (formatFloat opts.mes)).bind p.float).getD 0 = opts.mes := by
    by_cases hzero : opts.mes = 0
    · simp [hzero]
    · simp [hzero, (hfloat hzero).2]
  have hoptions : withFilters p { offset := opts.offset, fromTime := opts.fromTime, toTime := opts.toTime }
      (filtersOf formatFloat opts) = opts := by
    unfold withFilters
    rw [lastOf_filtersOf (k := .from_) rfl, lastOf_filtersOf (k := .to_) rfl, lastOf_filtersOf (k := .callID) rfl,
      lastOf_filtersOf (k := .originatorCallID) rfl, hmes, htext, htext, htext, htext, hscore]
  have hgood : ¬ BadScore p (filtersOf formatFloat opts) := by
    rintro ⟨⟨k, value⟩, hf, rfl, hnone⟩
    obtain ⟨hmem, hvalue⟩ := List.mem_filter.mp hf
    obtain rfl : value = if opts.mes = 0 then "" else formatFloat opts.mes := by simpa using hmem
    by_cases hzero : opts.mes = 0
    · simp [hzero] at hvalue
    · simp [hzero, (hfloat hzero).2] at hnone
  have hread := filters_queryText hwritable
  rw [readFilters_eq, hread, if_neg hgood, hoptions, if_neg]
  rintro ⟨hne, hnil⟩
  rw [hnil] at hne
  exact hne rfl

end Written

/-- A search for the calls of somebody, with a colon in a value. -/
def callsOfAlice : CDRReadOptions := { from_ := "alice", callID := "a:b", mes := 1 / 2 }

def halfParser : Parsers where
  time _ := none
  float text := if text = "0.5" then some (1 / 2) else none

theorem readFilters_queryText_alice :
    readFilters halfParser {} (queryText (filtersOf (fun _ => "0.5") callsOfAlice)) =
      .ok (callsOfAlice, queryText (filtersOf (fun _ => "0.5") callsOfAlice)) :=
  readFilters_queryText ⟨by decide +kernel, by decide +kernel⟩ fun _ => ⟨by decide, rfl⟩

end Cdr
