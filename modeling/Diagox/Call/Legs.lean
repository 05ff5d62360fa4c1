import Diagox.Call.Records
import Diagox.Cdr.History

/-!
# The legs of a call in the history

Calls that overlap write their records into one store, from which a request for the history reads. Both legs of a call
name the Call-ID of its inbound one, but the filter `orig_call_id` is looked for in the Call-ID of the leg itself, like
`call_id`. So neither filter finds the outbound leg of a call.
-/

namespace Call

open Defer Defer.Body Cdr Sip

/-- A dialog for the handler, and how the calls of other code end for it. -/
structure Incoming where
  rx : RouteExternals
  ext : Externals
  req : Request
  id : String
  callID : String
  fromUser : String
  toUser : String

/-- It is admitted, and the store takes its records. -/
structure Incoming.Recorded (pbx : PBX) (c : Incoming) : Prop where
  admitted : Admitted pbx c.rx c.req c.callID c.fromUser c.toUser
  stored : ∀ cdr, c.ext.cdrWrite cdr = .returned true

section Legs

variable (deps : Deps) (pbx : PBX)

/-- What the handler writes for a call, in this order. -/
def Incoming.records (c : Incoming) : List CDR :=
  (run (interp c.ext (pbx.callContext c.id c.callID)) (handler deps pbx c.rx c.ext c.id c.req) {}).2.cdrs

variable {deps pbx} {c : Incoming}

variable (deps) in
theorem Incoming.records_eq (hcdr : pbx.cdrEnable = true) (hc : c.Recorded pbx) :
    ∃ outs inbound, c.records deps pbx = outs ++ [inbound] ∧
      (∀ o ∈ outs, o.direction = directionOut ∧ o.originatorCallID = c.callID) ∧
      inbound.direction = directionIn ∧ inbound.callID = c.callID ∧ inbound.originatorCallID = c.callID := by
  unfold Incoming.records
  obtain ⟨s, hs, hcdrs, -⟩ := @handler_settles deps pbx c.rx c.ext c.req c.fromUser c.toUser c.id c.callID hc.admitted
    hcdr hc.stored
  exact ⟨s.cdrs, _, hcdrs, hs.outbound, rfl, rfl, rfl⟩

theorem filters_filterText {k : FilterKey} {value : String} (htrim : Strings.trimSpace value = value)
    (hbar : '|' ∉ value.toList) : filters (filterText (k, value)) = [(k, value)] := by
  have hone : queryText [(k, value)] = filterText (k, value) := rfl
  rw [← hone]
  exact filters_queryText ⟨by simpa using htrim, by simpa using hbar⟩

theorem wanted_filterText {k : FilterKey} (hk : k = .callID ∨ k = .originatorCallID) {value : String}
    (htrim : Strings.trimSpace value = value) (hbar : '|' ∉ value.toList) (d : CDR) :
    Wanted (filterText (k, value)) d ↔ Strings.contains d.callID value = true := by
  have hlast : LastValues.lastOf k [(k, value)] = some value := by simp [LastValues.lastOf]
  unfold Wanted
  rw [filters_filterText htrim hbar]
  constructor
  · rintro ⟨-, h⟩
    have hholds := h (k, value) List.mem_cons_self hlast
    obtain rfl | rfl := hk
    · exact hholds
    · exact hholds
  · intro h
    refine ⟨fun hnil => absurd hnil (List.cons_ne_nil _ _), fun f hf _ => ?_⟩
    rw [List.mem_singleton.mp hf]
    obtain rfl | rfl := hk
    · exact h
    · exact h

section Asked

variable (p : Parsers) (formatRFC3339 : Time → String) {N : Nat} {writes : List CDR}

theorem fillStartTime_callID (d : CDR) : (fillStartTime formatRFC3339 d).callID = d.callID := by
  unfold fillStartTime
  split_ifs
  · rfl
  · rfl

theorem fillStartTime_direction (d : CDR) : (fillStartTime formatRFC3339 d).direction = d.direction := by
  unfold fillStartTime
  split_ifs
  · rfl
  · rfl

theorem not_malformed_filterText {k : FilterKey} (hk : k = .callID ∨ k = .originatorCallID) {value : String}
    (htrim : Strings.trimSpace value = value) (hbar : '|' ∉ value.toList) :
    ¬ Malformed p { query := filterText (k, value) } := by
  rintro (⟨h, -⟩ | ⟨f, hf, hmes, -⟩)
  · exact h rfl
  · rw [filters_filterText htrim hbar, List.mem_singleton] at hf
    obtain rfl | rfl := hk
    · rw [hf] at hmes
      cases hmes
    · rw [hf] at hmes
      cases hmes

theorem asked_filterText (hN : 0 < N) (hset : ∀ d ∈ writes, d.startTime ≠ 0) (hlength : writes.length ≤ N)
    {k : FilterKey} (hk : k = .callID ∨ k = .originatorCallID) {value : String}
    (htrim : Strings.trimSpace value = value) (hbar : '|' ∉ value.toList) :
    asked p formatRFC3339 N writes { query := filterText (k, value) } =
      ((writes.filter fun d => Strings.contains d.callID value).map
        (fillStartTime formatRFC3339)).reverse.take 100 := by
  have hsince : sinceWrap N writes.length = writes.length := by
    refine Nat.le_antisymm ((sinceWrap_le hN _).trans (Nat.min_le_left _ _)) ?_
    have hle := (min_le_sinceWrap hN writes.length).mpr (.inl hlength)
    rwa [Nat.min_eq_left hlength] at hle
  have hall : (writes.map (fillStartTime formatRFC3339)).reverse.take writes.length =
      (writes.map (fillStartTime formatRFC3339)).reverse := List.take_of_length_le (by simp)
  have hsame : (fun d => decide (InPeriod p { query := filterText (k, value) } d ∧ Wanted (filterText (k, value)) d)) =
      fun d => Strings.contains d.callID value := by
    funext d
    have hperiod : InPeriod p { query := filterText (k, value) } d := fun h => absurd rfl h
    rw [Bool.eq_iff_iff, decide_eq_true_iff, wanted_filterText hk htrim hbar]
    exact and_iff_right hperiod
  have hcallID : ((fun d : CDR => Strings.contains d.callID value) ∘ fillStartTime formatRFC3339) =
      fun d => Strings.contains d.callID value := funext fun d => by
    rw [Function.comp_apply, fillStartTime_callID]
  rw [asked, hsince, takeWhile_of_set formatRFC3339 hset, hall, hsame, List.filter_reverse, List.filter_map, hcallID]

end Asked

theorem Incoming.filter_records (hcdr : pbx.cdrEnable = true) (hc : c.Recorded pbx)
    (hout : ∀ d ∈ c.records deps pbx, d.direction = directionOut → Strings.contains d.callID c.callID = false) :
    ∃ inbound, (c.records deps pbx).filter (fun d => Strings.contains d.callID c.callID) = [inbound] ∧
      inbound.direction = directionIn ∧ inbound.callID = c.callID := by
  obtain ⟨outs, inbound, hrecords, houts, hin, hid, -⟩ := Incoming.records_eq deps hcdr hc
  have hself : Strings.contains inbound.callID c.callID = true := by
    rw [hid]
    exact decide_eq_true List.infix_rfl
  have hnone : outs.filter (fun d => Strings.contains d.callID c.callID) = [] := by
    rw [List.filter_eq_nil_iff]
    intro o ho
    rw [hout o (hrecords ▸ List.mem_append_left _ ho) (houts o ho).1]
    exact Bool.false_ne_true
  refine ⟨inbound, ?_, hin, hid⟩
  rw [hrecords, List.filter_append, hnone, List.filter_singleton, hself]
  rfl

theorem Incoming.filter_records_other (hcdr : pbx.cdrEnable = true) (hc : c.Recorded pbx) {value : String}
    (hother : Strings.contains c.callID value = false)
    (hout : ∀ d ∈ c.records deps pbx, d.direction = directionOut → Strings.contains d.callID value = false) :
    (c.records deps pbx).filter (fun d => Strings.contains d.callID value) = [] := by
  obtain ⟨outs, inbound, hrecords, houts, -, hid, -⟩ := Incoming.records_eq deps hcdr hc
  rw [List.filter_eq_nil_iff]
  intro d hd
  have hd' := hd
  rw [hrecords] at hd'
  obtain ho | hi := List.mem_append.mp hd'
  · rw [hout d hd (houts d ho).1]
    exact Bool.false_ne_true
  · rw [List.mem_singleton.mp hi, hid, hother]
    exact Bool.false_ne_true

/-- Of the records of all calls, in whatever order they are written, only the inbound one of the call is. -/
theorem filter_writes (hcdr : pbx.cdrEnable = true) {before after : List Incoming} {writes : List CDR}
    (hcalls : ∀ c' ∈ before ++ c :: after, c'.Recorded pbx)
    (hwrites : writes.Perm ((before ++ c :: after).flatMap (Incoming.records deps pbx)))
    (hothers : ∀ c' ∈ before ++ after, Strings.contains c'.callID c.callID = false)
    (hout : ∀ d ∈ writes, d.direction = directionOut → Strings.contains d.callID c.callID = false) :
    ∃ inbound, writes.filter (fun d => Strings.contains d.callID c.callID) = [inbound] ∧
      inbound.direction = directionIn ∧ inbound.callID = c.callID := by
  have hout' : ∀ c' ∈ before ++ c :: after, ∀ d ∈ c'.records deps pbx, d.direction = directionOut →
      Strings.contains d.callID c.callID = false := fun c' hc' d hd =>
    hout d (hwrites.mem_iff.mpr (List.mem_flatMap.mpr ⟨c', hc', hd⟩))
  have hself : c ∈ before ++ c :: after := by simp
  obtain ⟨inbound, hinbound, hfields⟩ := Incoming.filter_records hcdr (hcalls c hself) (hout' c hself)
  have hnone : ∀ cs : List Incoming, (∀ c' ∈ cs, c' ∈ before ++ after) →
      cs.flatMap (fun c' => (c'.records deps pbx).filter fun d => Strings.contains d.callID c.callID) = [] := by
    intro cs hcs
    rw [List.flatMap_eq_nil_iff]
    intro c' hc'
    have hmem : c' ∈ before ++ c :: after := by
      have := hcs c' hc'
      simp only [List.mem_append, List.mem_cons] at this ⊢
      tauto
    exact Incoming.filter_records_other hcdr (hcalls c' hmem) (hothers c' (hcs c' hc')) (hout' c' hmem)
  refine ⟨inbound, ?_, hfields⟩
  rw [← List.perm_singleton]
  refine (hwrites.filter _).trans ?_
  rw [List.filter_flatMap, List.flatMap_append, List.flatMap_cons, hnone before fun _ => List.mem_append_left _,
    hnone after fun _ => List.mem_append_right _, hinbound]
  rfl

theorem Incoming.originatorCallID_of_mem (hcdr : pbx.cdrEnable = true) (hc : c.Recorded pbx) {d : CDR}
    (hd : d ∈ c.records deps pbx) : d.originatorCallID = c.callID := by
  obtain ⟨outs, inbound, hrecords, houts, -, -, horiginator⟩ := Incoming.records_eq deps hcdr hc
  rw [hrecords] at hd
  obtain ho | hi := List.mem_append.mp hd
  · exact (houts d ho).2
  · rw [List.mem_singleton.mp hi, horiginator]

/-- However the records of the calls are written between each other, a search for the Call-ID of a call, as a Call-ID
or as that of the originator, finds the record of its inbound leg and no other, though every record of the call names
this Call-ID as that of its originator. -/
theorem pageHistory_inboundOnly {before after : List Incoming} {writes : List CDR} {N : Nat} {s : CDRMemoryStorage}
    {p : Parsers} {formatRFC3339 : Time → String} (hcdr : pbx.cdrEnable = true)
    (hcalls : ∀ c' ∈ before ++ c :: after, c'.Recorded pbx)
    (hwrites : writes.Perm ((before ++ c :: after).flatMap (Incoming.records deps pbx)))
    (hset : ∀ d ∈ writes, d.startTime ≠ 0) (hlength : writes.length ≤ N)
    (hs : cdrWriteAll formatRFC3339 (newCDRMemoryStorage N) writes = some s)
    (hothers : ∀ c' ∈ before ++ after, Strings.contains c'.callID c.callID = false)
    (hout : ∀ d ∈ writes, d.direction = directionOut → Strings.contains d.callID c.callID = false)
    (htrim : Strings.trimSpace c.callID = c.callID) (hbar : '|' ∉ c.callID.toList) {k : FilterKey}
    (hk : k = .callID ∨ k = .originatorCallID) (today : Today) (path contentType : String) :
    (∀ d ∈ c.records deps pbx, d.originatorCallID = c.callID) ∧
      ∃ answer inbound, pageHistory p today (memoryRead s)
          { path := path, contentType := contentType, query := { query := filterText (k, c.callID) } } = some answer ∧
        answer.cdrs = some [inbound] ∧ inbound.direction = directionIn ∧ inbound.callID = c.callID := by
  obtain ⟨inbound, hfound, hdirection, hid⟩ := filter_writes hcdr hcalls hwrites hothers hout
  have hN : 0 < N := by
    have hpos : 0 < writes.length := List.length_pos_of_mem
      (List.mem_of_mem_filter (hfound ▸ List.mem_singleton_self inbound))
    exact hpos.trans_le hlength
  have hasked := asked_filterText p formatRFC3339 hN hset hlength hk htrim hbar
  rw [hfound] at hasked
  refine ⟨fun d hd => Incoming.originatorCallID_of_mem hcdr (hcalls c (by simp)) hd, ?_⟩
  obtain ⟨hmalformed, -⟩ | ⟨-, answer, hanswer, hcdrs, -⟩ := pageHistory_cases p formatRFC3339 hN hs today
    { path := path, contentType := contentType, query := { query := filterText (k, c.callID) } }
  · exact absurd hmalformed (not_malformed_filterText p hk htrim hbar)
  · refine ⟨answer, fillStartTime formatRFC3339 inbound, hanswer, ?_, ?_, ?_⟩
    · rw [hcdrs, hasked]
      rfl
    · rw [fillStartTime_direction, hdirection]
    · rw [fillStartTime_callID, hid]

end Legs

/-- Both legs of every call are there, at some time. -/
def answeredExternals (outID : String) : Externals where
  __ := plainExternals fun _ => .returned .answered
  callID _ := some outID
  inFacts := { startTime := 1 }
  outFacts _ := { startTime := 2 }

/-- Two calls of alice to bob. -/
def aliceCall (callID outID : String) : Incoming where
  rx := plainRouteExternals
  ext := answeredExternals outID
  req := { aliceRequest with callID := some callID }
  id := "d"
  callID := callID
  fromUser := "alice"
  toUser := "bob"

theorem aliceCall_recorded (callID outID : String) : (aliceCall callID outID).Recorded busyPBX where
  admitted := { admitted_alice with callID := rfl }
  stored _ := rfl

def callWrites : List CDR :=
  ((aliceCall "b" "y").records plainDeps busyPBX).take 1 ++ (aliceCall "a" "x").records plainDeps busyPBX ++
    ((aliceCall "b" "y").records plainDeps busyPBX).drop 1

theorem callWrites_fields : callWrites.map (fun d => (d.direction, d.callID, d.startTime)) =
    [("OUT", "y", 2), ("OUT", "x", 2), ("IN", "a", 1), ("IN", "b", 1)] := rfl

theorem pageHistory_inboundOnly_alice :
    ∃ s answer inbound, cdrWriteAll (fun _ => "t") (newCDRMemoryStorage 10) callWrites = some s ∧
      pageHistory halfParser ⟨"", ""⟩ (memoryRead s)
          { path := "/api/v1/history", contentType := "", query := { query := "orig_call_id:a" } } = some answer ∧
        answer.cdrs = some [inbound] ∧ inbound.direction = directionIn ∧ inbound.callID = "a" := by
  obtain ⟨s, hs⟩ : ∃ s, cdrWriteAll (fun _ => "t") (newCDRMemoryStorage 10) callWrites = some s := by
    obtain ⟨s, hwrite, -⟩ := RingStore.writeAll_new (N := 10) (by decide) ({} : CDR)
      (callWrites.map (fillStartTime fun _ => "t"))
    exact ⟨s, (cdrWriteAll_eq _ _ _).trans hwrite⟩
  have hfields : ∀ d ∈ callWrites, (d.direction, d.callID, d.startTime) ∈
      [("OUT", "y", (2 : Time)), ("OUT", "x", 2), ("IN", "a", 1), ("IN", "b", 1)] := fun d hd =>
    callWrites_fields ▸ List.mem_map_of_mem hd
  have hset : ∀ d ∈ callWrites, d.startTime ≠ 0 := by
    intro d hd
    have hfound := hfields d hd
    simp only [List.mem_cons, Prod.mk.injEq, List.not_mem_nil, or_false] at hfound
    obtain ⟨-, -, h⟩ | ⟨-, -, h⟩ | ⟨-, -, h⟩ | ⟨-, -, h⟩ := hfound <;> rw [h] <;> decide
  have hout : ∀ d ∈ callWrites, d.direction = directionOut → Strings.contains d.callID "a" = false := by
    intro d hd hdirection
    have hfound := hfields d hd
    simp only [List.mem_cons, Prod.mk.injEq, List.not_mem_nil, or_false] at hfound
    obtain ⟨-, hid, -⟩ | ⟨-, hid, -⟩ | ⟨h, -⟩ | ⟨h, -⟩ := hfound
    · rw [hid]
      decide
    · rw [hid]
      decide
    · rw [hdirection] at h
      exact absurd h (by decide)
    · rw [hdirection] at h
      exact absurd h (by decide)
  have hwrites : callWrites.Perm (([] ++ aliceCall "a" "x" :: [aliceCall "b" "y"]).flatMap
      (Incoming.records plainDeps busyPBX)) := by
    rw [callWrites, List.nil_append, List.flatMap_cons, List.flatMap_singleton]
    refine (List.perm_append_comm.append_right _).trans ?_
    rw [List.append_assoc, List.take_append_drop]
  have hlength : callWrites.length ≤ 10 := by
    have hfour := congrArg List.length callWrites_fields
    rw [List.length_map] at hfour
    exact hfour.trans_le (by decide)
  have hcalls : ∀ c' ∈ [] ++ aliceCall "a" "x" :: [aliceCall "b" "y"], c'.Recorded busyPBX := by
    intro c' hc'
    simp only [List.nil_append, List.mem_cons, List.not_mem_nil, or_false] at hc'
    obtain rfl | rfl := hc'
    · exact aliceCall_recorded "a" "x"
    · exact aliceCall_recorded "b" "y"
  obtain ⟨-, answer, inbound, h⟩ := pageHistory_inboundOnly (k := .originatorCallID) (p := halfParser) rfl hcalls
    hwrites hset hlength hs (by decide) hout (by decide) (by decide) (.inr rfl) ⟨"", ""⟩ "/api/v1/history" ""
  exact ⟨s, answer, inbound, hs, h⟩

end Call
