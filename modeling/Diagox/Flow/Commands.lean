import Diagox.Flow.ReadLoop

/-!
# Commands in the style of a command line

An agent that has connected as a command line sends an operation and its flags as words with blanks in between. The
words after the first are read twice: as flags, and the first two of them also as the ID and the dialog of the
request. So a command with flags has neither of its own, and a value ends at its first equals sign.
-/

namespace Flow.ReadLoop

open Configuration

def flagText (flag : String × String) : String := "--" ++ flag.1 ++ "=" ++ flag.2

/-- The message for an operation with flags. -/
def command (op : String) (flags : List (String × String)) : String := " ".intercalate (op :: flags.map flagText)

/-- Flags that can be told apart, and without blanks in them. -/
structure WellFormed (flags : List (String × String)) : Prop where
  nodup : (flags.map Prod.fst).Nodup
  key_ne : ∀ flag ∈ flags, flag.1 ≠ ""
  key_equals : ∀ flag ∈ flags, '=' ∉ flag.1.toList
  key_blank : ∀ flag ∈ flags, ' ' ∉ flag.1.toList
  key_dash : ∀ flag ∈ flags, flag.1.toList.head? ≠ some '-'
  value_space : ∀ flag ∈ flags, ∀ c ∈ flag.2.toList, Strings.isSpace c = false

/-- The command is decoded to what was typed: the operation, the alias of the last dialog, an ID of its own, and the
values under their keys. -/
def DecodesTo (cx : ReadContext) (m : Message) (op : String) (flags : List (String × String)) : Prop :=
  ∃ data : StringMap String, (∀ key, data.lookup key = flags.lookup key) ∧
    parse cx m = some ({ id := "cli." ++ m.uuid, did := "last", op := op, data := cx.marshal data }, {})

/-- A value up to its first equals sign. -/
def valueHead (value : String) : String := (Strings.split value '=').headD ""

theorem valueHead_isPrefix (value : String) : (valueHead value).toList <+: value.toList := by
  obtain ⟨first, rest, hvalue⟩ := List.exists_cons_of_ne_nil (List.splitOn_ne_nil '=' value.toList)
  have hjoin : ['='].intercalate (value.toList.splitOn '=') = value.toList := List.intercalate_splitOn '='
  rw [hvalue] at hjoin
  rw [valueHead, Strings.split, hvalue, List.map_cons, List.headD_cons, String.toList_ofList, ← hjoin]
  cases rest with
  | nil => simp
  | cons second rest => simp [List.intercalate_cons_cons]

section Words

variable {op : String} {flags : List (String × String)}

theorem flagText_toList (flag : String × String) :
    (flagText flag).toList = ('-' :: '-' :: flag.1.toList) ++ '=' :: flag.2.toList := by
  simp [flagText]

theorem isSpace_blank : Strings.isSpace ' ' = true := by decide

theorem blank_notMem_flagText (h : WellFormed flags) {flag : String × String} (hflag : flag ∈ flags) :
    ' ' ∉ (flagText flag).toList := by
  rw [flagText_toList]
  have hvalue : ' ' ∉ flag.2.toList := fun hmem => by
    have hspace := h.value_space flag hflag _ hmem
    rw [isSpace_blank] at hspace
    cases hspace
  simpa using ⟨h.key_blank flag hflag, hvalue⟩

theorem split_command (hop : ' ' ∉ op.toList) (h : WellFormed flags) :
    Strings.split (command op flags) ' ' = op :: flags.map flagText := by
  have hwords : ∀ w ∈ (op :: flags.map flagText).map String.toList, ' ' ∉ w := by
    intro w hw
    obtain ⟨word, hword, rfl⟩ := List.mem_map.mp hw
    obtain rfl | hword := List.mem_cons.mp hword
    · exact hop
    · obtain ⟨flag, hflag, rfl⟩ := List.mem_map.mp hword
      exact blank_notMem_flagText h hflag
  rw [Strings.split, command, String.toList_intercalate,
    show (" ".toList : List Char) = [' '] from rfl, List.splitOn_intercalate ' ' hwords (by simp), List.map_map]
  simp

theorem trimSpace_eq {s : String} (h : ∀ c ∈ s.toList, Strings.isSpace c = false) : Strings.trimSpace s = s := by
  have hdrop : ∀ l : List Char, (∀ c ∈ l, Strings.isSpace c = false) → l.dropWhile Strings.isSpace = l := by
    intro l hl
    cases l with
    | nil => rfl
    | cons c l => rw [List.dropWhile_cons_of_neg (by simp [hl c List.mem_cons_self])]
  rw [Strings.trimSpace, hdrop _ h, hdrop _ fun c hc => h c (List.mem_reverse.mp hc), List.reverse_reverse,
    String.ofList_toList]

theorem exists_split_flagText (h : WellFormed flags) {flag : String × String} (hflag : flag ∈ flags) :
    ∃ rest, Strings.split (flagText flag) '=' = ("--" ++ flag.1) :: valueHead flag.2 :: rest := by
  have hkey : '=' ∉ '-' :: '-' :: flag.1.toList := by
    simpa using h.key_equals flag hflag
  obtain ⟨first, rest, hvalue⟩ := List.exists_cons_of_ne_nil (List.splitOn_ne_nil '=' flag.2.toList)
  refine ⟨rest.map .ofList, ?_⟩
  rw [valueHead, Strings.split, Strings.split, flagText_toList, List.splitOn_append_cons_self_of_not_mem hkey, hvalue,
    List.map_cons, List.map_cons, List.headD_cons]
  congr 1
  rw [← String.toList_inj]
  simp

theorem cliData_concat (texts : List String) {text key value : String} {rest : List String}
    (h : Strings.split text '=' = key :: value :: rest) :
    cliData (texts ++ [text]) =
      (cliData texts).insert (.ofList (key.toList.dropWhile (· = '-'))) (Strings.trimSpace value) := by
  simp [cliData, List.foldl_append, h]

theorem valueHead_space (h : WellFormed flags) {flag : String × String} (hflag : flag ∈ flags) :
    ∀ c ∈ (valueHead flag.2).toList, Strings.isSpace c = false := fun c hc =>
  h.value_space flag hflag c ((valueHead_isPrefix flag.2).subset hc)

theorem dropWhile_key (h : WellFormed flags) {flag : String × String} (hflag : flag ∈ flags) :
    String.ofList (("--" ++ flag.1).toList.dropWhile (· = '-')) = flag.1 := by
  have hdash := h.key_dash flag hflag
  rw [← String.toList_inj, String.toList_ofList, String.toList_append]
  cases hkey : flag.1.toList with
  | nil => rfl
  | cons c cs =>
      have hc : c ≠ '-' := by
        rw [hkey] at hdash
        simpa using hdash
      simp [List.dropWhile_cons_of_pos, List.dropWhile_cons_of_neg, hc]

theorem WellFormed.init {flag : String × String} (h : WellFormed (flags ++ [flag])) :
    WellFormed flags ∧ flag.1 ∉ flags.map Prod.fst := by
  have hleft : ∀ f ∈ flags, f ∈ flags ++ [flag] := fun f hf => List.mem_append_left _ hf
  have hnodup := h.nodup
  rw [List.map_append, List.nodup_append] at hnodup
  refine ⟨⟨hnodup.1, fun f hf => h.key_ne f (hleft f hf), fun f hf => h.key_equals f (hleft f hf),
    fun f hf => h.key_blank f (hleft f hf), fun f hf => h.key_dash f (hleft f hf),
    fun f hf => h.value_space f (hleft f hf)⟩, fun hmem => ?_⟩
  exact hnodup.2.2 _ hmem flag.1 (by simp) rfl

theorem lookup_cliData (h : WellFormed flags) (key : String) :
    (cliData (flags.map flagText)).lookup key = (flags.lookup key).map valueHead := by
  induction flags using List.reverseRecOn with
  | nil => rfl
  | append_singleton flags flag ih =>
      obtain ⟨hinit, hnew⟩ := h.init
      have hmem : flag ∈ flags ++ [flag] := by simp
      obtain ⟨rest, hsplit⟩ := exists_split_flagText h hmem
      rw [List.map_append, List.map_singleton, cliData_concat _ hsplit, dropWhile_key h hmem,
        trimSpace_eq (valueHead_space h hmem), List.lookup_append]
      by_cases hkey : key = flag.1
      · have hnone : flags.lookup flag.1 = none := List.lookup_eq_none_iff.mpr fun f hf => by
          have hne : flag.1 ≠ f.1 := fun heq => hnew (heq ▸ List.mem_map_of_mem hf)
          simpa using hne
        have hsome : [flag].lookup flag.1 = some flag.2 := List.lookup_cons_self
        rw [hkey, AList.lookup_insert, hnone, hsome]
        rfl
      · have hnone : [flag].lookup key = none := by simpa [List.lookup_eq_none_iff] using hkey
        rw [AList.lookup_insert_ne hkey, ih hinit, hnone, Option.or_none]

variable {cx : ReadContext} {m : Message}

theorem parse_command (hcli : cx.cliContentType = true) (hop : ' ' ∉ op.toList) (hatoi : Strings.atoi op = none)
    (h : WellFormed flags) (hm : m.buf = command op flags) :
    parse cx m = some
      ({ id := (flags.map flagText).getD 0 ("cli." ++ m.uuid), did := (flags.map flagText).getD 1 "last", op := op,
         data := cx.marshal (cliData (flags.map flagText)) }, {}) := by
  rw [parse, if_pos hcli, parseCli, hm, split_command hop h]
  simp [hatoi]

theorem flagText_ne_cli (flag : String × String) (uuid : String) : flagText flag ≠ "cli." ++ uuid := by
  intro heq
  have hhead := congrArg (fun s => s.toList.head?) heq
  simp [flagText_toList] at hhead

end Words

/-- A command is decoded to what was typed if and only if it has no flags. -/
theorem decodesTo_iff {cx : ReadContext} (hcli : cx.cliContentType = true) {m : Message} {op : String}
    (hop : ' ' ∉ op.toList) (hatoi : Strings.atoi op = none) {flags : List (String × String)} (h : WellFormed flags)
    (hm : m.buf = command op flags) : DecodesTo cx m op flags ↔ flags = [] := by
  rw [DecodesTo, parse_command hcli hop hatoi h hm]
  cases flags with
  | nil => exact iff_of_true ⟨cliData [], fun key => lookup_cliData h key, rfl⟩ rfl
  | cons flag flags =>
      refine iff_of_false ?_ (List.cons_ne_nil _ _)
      rintro ⟨data, -, hparse⟩
      have hid := congrArg (fun result => result.1.id) (Option.some.inj hparse)
      exact flagText_ne_cli flag m.uuid hid

theorem playFlags_wellFormed : WellFormed [("uri", "a=b")] where
  nodup := by decide
  key_ne := by decide
  key_equals := by decide
  key_blank := by decide
  key_dash := by decide
  value_space flag hflag := by
    obtain rfl := List.mem_singleton.mp hflag
    simp [Strings.isSpace]

/-- Of the two commands only the one without flags is decoded to what was typed. -/
theorem decodesTo_hangup_play :
    DecodesTo cliContext { buf := "hangup", uuid := "7" } "hangup" [] ∧
    ¬ DecodesTo cliContext { buf := "play --uri=a=b", uuid := "7" } "play" [("uri", "a=b")] := by
  constructor
  · exact (decodesTo_iff rfl (by decide) (by decide) ⟨by simp, by simp, by simp, by simp, by simp, by simp⟩ rfl).mpr rfl
  · rw [decodesTo_iff rfl (by decide) (by decide) playFlags_wellFormed (by decide)]
    exact List.cons_ne_nil _ _

/-- `play --uri=a=b` is taken for a request with the ID `--uri=a=b`. -/
theorem not_decodesTo_play :
    ¬ ∀ (cx : ReadContext) (m : Message) (op : String) (flags : List (String × String)), cx.cliContentType = true →
      ' ' ∉ op.toList → Strings.atoi op = none → WellFormed flags → m.buf = command op flags →
      DecodesTo cx m op flags := by
  intro h
  obtain ⟨data, -, hparse⟩ := h cliContext { buf := "play --uri=a=b", uuid := "7" } "play" [("uri", "a=b")] rfl
    (by decide) (by decide) playFlags_wellFormed (by decide)
  have hid : (parse cliContext { buf := "play --uri=a=b", uuid := "7" }).map (·.1.id) = some "cli.7" := by
    rw [hparse]
    rfl
  exact absurd hid (by decide)

end Flow.ReadLoop
