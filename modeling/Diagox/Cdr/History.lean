import Diagox.Cdr.Query

/-!
# The history of calls

`pageHistory` of `http.go`, which serves `GET /api/v1/history` and the page of the same name: the options are read
from the query, a buffer of 100 records is filled, and the records are the answer.
-/

namespace Cdr

structure HistoryRequest where
  path : String
  /-- The header `Content-Type`. -/
  contentType : String := ""
  query : HistoryQuery
  deriving DecidableEq, Repr

/-- What the template of the page is given. -/
structure HistoryData where
  dateFrom : String
  dateTo : String
  query : String
  cdrs : List CDR
  deriving DecidableEq, Repr

inductive HistoryAnswer where
  | error (code : Nat) (body : String)
  | json (cdrs : List CDR)
  | page (data : HistoryData)
  deriving DecidableEq, Repr

def isJsonRequest (r : HistoryRequest) : Bool :=
  r.contentType = "application/json" || Strings.hasPrefix r.path "/api"

/-- `httpAPIError`: the message as JSON, or a line of text. -/
def httpAPIError (r : HistoryRequest) (msg : String) (code : Nat) : HistoryAnswer :=
  if isJsonRequest r then .error code ("\x7b\"error\":\"" ++ msg ++ "\"\x7d") else .error code (msg ++ "\n")

/-- `CDRStorage.CDRRead`, which may fail, or panic with `none`. -/
abbrev CDRRead := Nat → CDRReadOptions → Option (Except String (List CDR))

/-- The store in memory never fails. -/
def memoryRead (s : CDRMemoryStorage) : CDRRead := fun size opts => (cdrRead s size opts).map .ok

/-- The beginning and the end of the day, as the page fills them in. -/
structure Today where
  start : String
  stop : String

def pageHistory (p : Parsers) (today : Today) (read : CDRRead) (r : HistoryRequest) : Option HistoryAnswer :=
  match historyOptions p r.query with
  | .error _ => some (httpAPIError r "Bad query parameters" 400)
  | .ok (opts, filters) => (read 100 opts).map fun
    | .error _ => httpAPIError r "Failed to load cdrs" 500
    | .ok cdrs =>
        if isJsonRequest r then .json cdrs
        else .page {
          dateFrom := if r.query.dateFrom = "" then today.start else r.query.dateFrom
          dateTo := if r.query.dateTo = "" then today.stop else r.query.dateTo
          query := filters
          cdrs := cdrs }

/-- The records of an answer. -/
def HistoryAnswer.cdrs : HistoryAnswer → Option (List CDR)
  | .error _ _ => none
  | .json cdrs => some cdrs
  | .page data => some data.cdrs

/-! ### What is answered -/

section Answer

variable (p : Parsers) (formatRFC3339 : Time → String) {N : Nat} {cdrs : List CDR} {s : CDRMemoryStorage}

/-- The records that a request gets after the writes `cdrs`: of those since the ring has started over, newest first and
down to the last one without a start time, the first 100 that are in the period and wanted. -/
def asked (N : Nat) (cdrs : List CDR) (q : HistoryQuery) : List CDR :=
  ((((cdrs.map (fillStartTime formatRFC3339)).reverse.take (sinceWrap N cdrs.length)).takeWhile fun d =>
    !d.startTime.isZero).filter fun d => InPeriod p q d ∧ Wanted q.query d).take 100

theorem cdrRead_written (hN : 0 < N)
    (hs : cdrWriteAll formatRFC3339 (newCDRMemoryStorage N) cdrs = some s) (size : Nat) (opts : CDRReadOptions) :
    cdrRead s size opts = some (((((cdrs.map (fillStartTime formatRFC3339)).reverse.take
      (sinceWrap N cdrs.length)).takeWhile fun d => !d.startTime.isZero).filter (matchesOptions opts)).take size) := by
  obtain ⟨s', hwrite, hholds⟩ := RingStore.writeAll_new hN ({} : CDR) (cdrs.map (fillStartTime formatRFC3339))
  obtain rfl : s' = s := by
    rw [cdrWriteAll_eq, newCDRMemoryStorage, hwrite] at hs
    exact Option.some.inj hs
  have hlt : s'.last < N := hholds.newest ▸ Nat.mod_lt _ hN
  rw [cdrRead, cdrReadLoop_eq _ _ (by rw [hholds.size]; exact hlt), setBelow_written formatRFC3339 hN hholds]

/-- A request is refused, or it is answered with what it asks for. -/
theorem pageHistory_cases (hN : 0 < N)
    (hs : cdrWriteAll formatRFC3339 (newCDRMemoryStorage N) cdrs = some s) (today : Today) (r : HistoryRequest) :
    Malformed p r.query ∧
        pageHistory p today (memoryRead s) r = some (httpAPIError r "Bad query parameters" 400) ∨
      ¬ Malformed p r.query ∧ ∃ answer, pageHistory p today (memoryRead s) r = some answer ∧
        answer.cdrs = some (asked p formatRFC3339 N cdrs r.query) ∧
        (answer = .json (asked p formatRFC3339 N cdrs r.query) ↔ isJsonRequest r = true) := by
  unfold pageHistory
  obtain ⟨⟨e, he⟩, hmalformed⟩ | ⟨opts, shown, hok, hgood, hmatches⟩ := historyOptions_cases (p := p) r.query
  · rw [he]
    exact .inl ⟨hmalformed, rfl⟩
  · have hread : memoryRead s 100 opts = some (.ok (asked p formatRFC3339 N cdrs r.query)) := by
      have hsame : matchesOptions opts = fun d => decide (InPeriod p r.query d ∧ Wanted r.query.query d) :=
        funext fun d => by rw [Bool.eq_iff_iff, hmatches, decide_eq_true_iff]
      rw [memoryRead, cdrRead_written formatRFC3339 hN hs, hsame]
      rfl
    rw [hok]
    simp only [hread, Option.map_some]
    refine .inr ⟨hgood, _, rfl, ?_⟩
    cases hjson : isJsonRequest r with
    | true => exact ⟨rfl, iff_of_true rfl rfl⟩
    | false => exact ⟨rfl, iff_of_false nofun nofun⟩

end Answer

/-- A record without a start time, three others, and below a query for one caller in a period that is not complete. -/
def calls : List CDR := [{ callerID := "alice" }, { callerID := "alice", startTime := 1 },
  { callerID := "bob", startTime := 2 }, { callerID := "alice", startTime := 3 }]

def aliceRequest : HistoryRequest where
  path := "/api/v1/history"
  query := { dateFrom := "today", query := "from: alice" }

example : (asked halfParser (fun _ => "t") 4 calls aliceRequest.query).map (·.startTime) = [3, 1] := by
  decide +kernel

end Cdr
