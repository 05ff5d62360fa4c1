import Diagox.Flow.ReadLoop

/-!
# Requests to the agent and their responses

The calls of `doRequest` of all dialogs of a `FlowConnection`, each with its transaction, and the read loop, which
hands responses to the callbacks of the transactions. Every operation on the map of the transactions, on the channel
of a call and on the connection is a step of its own. A callback that has been loaded runs on whatever becomes of its
call, into a channel that nobody else reads: that is why an answer cannot go astray.
-/

namespace Flow.ReadLoop

open Run

/-- A response that has been received, as the one after `index` others. -/
structure Reception where
  index : Nat
  res : FlowResponse
  deriving DecidableEq, Repr

inductive Reader where
  | reading
  /-- The callback of the call that made a channel is loaded for a response. -/
  | calling (resChan : Nat) (r : Reception)
  deriving DecidableEq, Repr

structure Requests.Shared where
  /-- The callback of a transaction is told by the channel that it sends to. -/
  clientTransactions : String → Option Nat := fun _ => none
  /-- The channels, which have room for one response. -/
  resChans : Nat → Option Reception := fun _ => none
  done : Nat → Bool := fun _ => false
  received : List FlowResponse := []
  reader : Reader := .reading

/-- Where a call of `doRequest` stands. An error is `none`. -/
inductive RequestPhase where
  | entered
  | registered
  /-- In the `select` that waits for the response. -/
  | written
  /-- The deferred deletion of the transaction is left. -/
  | leaving (result : Option Reception)
  | returned (result : Option Reception)
  deriving DecidableEq, Repr

def RequestPhase.response : RequestPhase → Option Reception
  | .leaving result | .returned result => result
  | .entered | .registered | .written => none

structure RequestCall where
  req : FlowRequest
  /-- A channel is the number of the call that makes it. -/
  resChan : Nat
  phase : RequestPhase := .entered
  /-- How many responses had been received when it was registered. -/
  since : Option Nat := none
  deriving DecidableEq, Repr

/-- One step of a call. The one that `fails` is a `Marshal` or a write that reports an error, or the `select` taking
the case of its context, which is done by then or times out. -/
def requestStep (fails : Bool) (s : Requests.Shared) (c : RequestCall) : Requests.Shared × RequestCall :=
  match c.phase with
  | .entered =>
      if fails then (s, { c with phase := .returned none })
      else
        ({ s with clientTransactions := Function.update s.clientTransactions c.req.id (some c.resChan) },
          { c with phase := .registered, since := some s.received.length })
  | .registered => (s, { c with phase := if fails then .leaving none else .written })
  | .written =>
      if fails then (s, { c with phase := .leaving none })
      else
        match s.resChans c.resChan with
        | none => (s, c)
        | some r =>
            ({ s with resChans := Function.update s.resChans c.resChan none }, { c with phase := .leaving (some r) })
  | .leaving result =>
      ({ s with clientTransactions := Function.update s.clientTransactions c.req.id none },
        { c with phase := .returned result })
  | .returned _ => (s, c)

/-- The callback, in the read loop. Its `select` blocks while the channel is full and the context is not done. -/
def callback (s : Requests.Shared) (resChan : Nat) (r : Reception) (givesUp : Bool) : Requests.Shared :=
  if r.res.code < 200 then { s with reader := .reading }
  else if givesUp = true ∧ s.done resChan = true then { s with reader := .reading }
  else
    match s.resChans resChan with
    | none => { s with resChans := Function.update s.resChans resChan (some r), reader := .reading }
    | some _ => s

abbrev Requests := Pool Requests.Shared RequestCall

def Requests.none : Requests := ⟨{}, []⟩

inductive RequestEvent where
  | call (req : FlowRequest)
  | step (i : Nat) (fails : Bool)
  | done (i : Nat)
  /-- The read loop reads a message, and loads the callback of a response. -/
  | receive (m : Message)
  | callback (givesUp : Bool)
  deriving DecidableEq, Repr

variable (cx : ReadContext)

def receiveResponse (s : Requests.Shared) (m : Message) : Requests.Shared :=
  match s.reader, receive cx m with
  | .reading, .response res =>
      { s with
        received := s.received ++ [res]
        reader :=
          match s.clientTransactions res.id with
          | none => .reading
          | some resChan => .calling resChan ⟨s.received.length, res⟩ }
  | _, _ => s

def requestsStep (p : Requests) : RequestEvent → Requests
  | .call req => p.spawn { req := req, resChan := p.threads.length }
  | .step i fails => p.advance (requestStep fails) i
  | .done i => { p with shared := { p.shared with done := Function.update p.shared.done i true } }
  | .receive m => { p with shared := receiveResponse cx p.shared m }
  | .callback givesUp =>
      match p.shared.reader with
      | .reading => p
      | .calling resChan r => { p with shared := callback p.shared resChan r givesUp }

/-- `uuid.NewString` gives every request an ID of its own. -/
def FreshRequest (p : Requests) : RequestEvent → Prop
  | .call req => ∀ c ∈ p.threads, c.req.id ≠ req.id
  | _ => True

instance (p : Requests) : ∀ e, Decidable (FreshRequest p e)
  | .call req => inferInstanceAs (Decidable (∀ c ∈ p.threads, c.req.id ≠ req.id))
  | .step _ _ | .done _ | .receive _ | .callback _ => .isTrue trivial

/-- A response is one to a call: it has been received, has its ID and came after it was registered. -/
def Answers (p : Requests) (i : Nat) (r : Reception) : Prop :=
  p.shared.received[r.index]? = some r.res ∧
    ∃ c : RequestCall, p.threads[i]? = some c ∧ r.res.id = c.req.id ∧ ∃ k ∈ c.since, k ≤ r.index

/-- What the calls that return without an error return. -/
structure Correlated (p : Requests) : Prop where
  answered : ∀ (i : Nat) (c : RequestCall) r, p.threads[i]? = some c → c.phase = .returned (some r) →
    Answers p i r ∧ 200 ≤ r.res.code
  once : ∀ (i j : Nat) (c c' : RequestCall) r r', p.threads[i]? = some c → p.threads[j]? = some c' →
    c.phase = .returned (some r) → c'.phase = .returned (some r') → r.index = r'.index → i = j

/-- Wherever a response is on its way to a call, it is one to this call. -/
structure RequestsInv (p : Requests) : Prop where
  chan : ∀ (i : Nat) (c : RequestCall), p.threads[i]? = some c → c.resChan = i
  entered : ∀ (i : Nat) (c : RequestCall), p.threads[i]? = some c → c.phase = .entered → c.since = none
  registered : ∀ id i, p.shared.clientTransactions id = some i →
    ∃ c : RequestCall, p.threads[i]? = some c ∧ c.req.id = id ∧ ∃ k ∈ c.since, k ≤ p.shared.received.length
  called : ∀ i r, p.shared.reader = .calling i r → Answers p i r
  buffered : ∀ i r, p.shared.resChans i = some r → Answers p i r ∧ 200 ≤ r.res.code
  result : ∀ (i : Nat) (c : RequestCall) r, p.threads[i]? = some c → c.phase.response = some r →
    Answers p i r ∧ 200 ≤ r.res.code

/-- A later state: the calls keep their requests and the times of their registration. -/
structure Later (p p' : Requests) : Prop where
  received : p.shared.received <+: p'.shared.received
  threads : ∀ (i : Nat) (c : RequestCall), p.threads[i]? = some c →
    ∃ c' : RequestCall, p'.threads[i]? = some c' ∧ c'.req = c.req ∧ ∀ k ∈ c.since, k ∈ c'.since

section Correlation

variable {cx} {p p' : Requests} {i : Nat} {c : RequestCall}

theorem Answers.mono {r : Reception} (h : Answers p i r) (hlater : Later p p') : Answers p' i r := by
  obtain ⟨hreceived, c, hc, hid, k, hk, hle⟩ := h
  obtain ⟨c', hc', hreq, hsince⟩ := hlater.threads i c hc
  refine ⟨getElem?_mono_of_append hlater.received hreceived, c', hc', by rw [hid, hreq], k, hsince k hk, hle⟩

theorem requestsInv_none : RequestsInv Requests.none := by
  constructor <;> simp [Requests.none]

theorem requestsInv_shared (h : RequestsInv p) {s : Requests.Shared} (hreceived : p.shared.received <+: s.received)
    (hregistered : s.clientTransactions = p.shared.clientTransactions)
    (hcalled : ∀ i r, s.reader = .calling i r → Answers ⟨s, p.threads⟩ i r)
    (hbuffered : ∀ i r, s.resChans i = some r →
      p.shared.resChans i = some r ∨ p.shared.reader = .calling i r ∧ 200 ≤ r.res.code) :
    RequestsInv ⟨s, p.threads⟩ := by
  have hlater : Later p ⟨s, p.threads⟩ := ⟨hreceived, fun i c hc => ⟨c, hc, rfl, fun _ hk => hk⟩⟩
  refine ⟨h.chan, h.entered, fun id i hid => ?_, hcalled, fun i r hr => ?_, fun i c r hc hr => ?_⟩
  · obtain ⟨c, hc, hid', k, hk, hle⟩ := h.registered id i (hregistered ▸ hid)
    exact ⟨c, hc, hid', k, hk, hle.trans hreceived.length_le⟩
  · obtain hr | ⟨hr, hcode⟩ := hbuffered i r hr
    · exact ⟨(h.buffered i r hr).1.mono hlater, (h.buffered i r hr).2⟩
    · exact ⟨(h.called i r hr).mono hlater, hcode⟩
  · exact ⟨(h.result i c r hc hr).1.mono hlater, (h.result i c r hc hr).2⟩

theorem requestsInv_receive (h : RequestsInv p) (m : Message) : RequestsInv (requestsStep cx p (.receive m)) := by
  simp only [requestsStep, receiveResponse]
  split
  · rename_i res _ _
    refine requestsInv_shared h (List.prefix_append _ _) rfl (fun i r hr => ?_) (fun i r hr => .inl hr)
    cases hid : p.shared.clientTransactions res.id with
    | none =>
        simp only [hid] at hr
        cases hr
    | some resChan =>
        simp only [hid] at hr
        obtain ⟨rfl, rfl⟩ := Reader.calling.inj hr
        obtain ⟨c, hc, hid', k, hk, hle⟩ := h.registered res.id _ hid
        exact ⟨List.getElem?_concat_length, c, hc, hid'.symm, k, hk, hle⟩
  · exact h

theorem requestsInv_callback (h : RequestsInv p) (givesUp : Bool) :
    RequestsInv (requestsStep cx p (.callback givesUp)) := by
  simp only [requestsStep]
  split
  · exact h
  · rename_i resChan r hreader
    unfold callback
    split_ifs with hcode
    · exact requestsInv_shared h (List.prefix_refl _) rfl (fun _ _ hr => nomatch hr) (fun i r hr => .inl hr)
    · exact requestsInv_shared h (List.prefix_refl _) rfl (fun _ _ hr => nomatch hr) (fun i r hr => .inl hr)
    · split
      · refine requestsInv_shared h (List.prefix_refl _) rfl (fun _ _ hr => nomatch hr) (fun i r' hr => ?_)
        obtain ⟨rfl, hnew⟩ | hold := of_update_eq_some hr
        · obtain rfl := Option.some.inj hnew
          exact .inr ⟨hreader, not_lt.mp hcode⟩
        · exact .inl hold
      · exact h

theorem requestsInv_call (h : RequestsInv p) (req : FlowRequest) : RequestsInv (requestsStep cx p (.call req)) := by
  let new : RequestCall := { req := req, resChan := p.threads.length }
  have hold : ∀ (i : Nat) (c : RequestCall), p.threads[i]? = some c → (p.threads ++ [new])[i]? = some c :=
    fun i c hc => getElem?_mono_of_append (List.prefix_append _ _) hc
  have hcases : ∀ (i : Nat) (c : RequestCall), (p.threads ++ [new])[i]? = some c →
      p.threads[i]? = some c ∨ i = p.threads.length ∧ c = new := by
    intro i c hc
    obtain hlt | hge := Nat.lt_or_ge i p.threads.length
    · rw [List.getElem?_append_left hlt] at hc
      exact .inl hc
    · rw [List.getElem?_append_right hge, List.getElem?_singleton] at hc
      split_ifs at hc with hi
      exact .inr ⟨by omega, (Option.some.inj hc).symm⟩
  have hlater : Later p ⟨p.shared, p.threads ++ [new]⟩ :=
    ⟨List.prefix_refl _, fun i c hc => ⟨c, hold i c hc, rfl, fun _ hk => hk⟩⟩
  change RequestsInv ⟨p.shared, p.threads ++ [new]⟩
  refine ⟨fun i c hc => ?_, fun i c hc hphase => ?_, fun id i hid => ?_, fun i r hr => (h.called i r hr).mono hlater,
    fun i r hr => ⟨(h.buffered i r hr).1.mono hlater, (h.buffered i r hr).2⟩, fun i c r hc hr => ?_⟩
  · obtain hc | ⟨rfl, rfl⟩ := hcases i c hc
    · exact h.chan i c hc
    · rfl
  · obtain hc | ⟨rfl, rfl⟩ := hcases i c hc
    · exact h.entered i c hc hphase
    · rfl
  · obtain ⟨c, hc, hrest⟩ := h.registered id i hid
    exact ⟨c, hold i c hc, hrest⟩
  · obtain hc | ⟨rfl, rfl⟩ := hcases i c hc
    · exact ⟨(h.result i c r hc hr).1.mono hlater, (h.result i c r hc hr).2⟩
    · cases hr

/-- A step of a call hands on no response to another one. -/
theorem requestsInv_set (h : RequestsInv p) (hi : p.threads[i]? = some c) {s : Requests.Shared} {c' : RequestCall}
    (hreq : c'.req = c.req) (hchan : c'.resChan = c.resChan) (hsince : ∀ k ∈ c.since, k ∈ c'.since)
    (hentered : c'.phase ≠ .entered) (hreceived : s.received = p.shared.received)
    (hregistered : ∀ id j, s.clientTransactions id = some j → p.shared.clientTransactions id = some j ∨
      id = c.req.id ∧ j = i ∧ p.shared.received.length ∈ c'.since)
    (hreader : s.reader = p.shared.reader)
    (hbuffered : ∀ j r, s.resChans j = some r → p.shared.resChans j = some r)
    (hresult : ∀ r, c'.phase.response = some r → c.phase.response = some r ∨ p.shared.resChans i = some r) :
    RequestsInv ⟨s, p.threads.set i c'⟩ := by
  obtain ⟨hlt, hget⟩ := List.getElem?_eq_some_iff.mp hi
  have hself : (p.threads.set i c')[i]? = some c' := List.getElem?_set_self hlt
  have hcases : ∀ (j : Nat) (d : RequestCall), (p.threads.set i c')[j]? = some d →
      j = i ∧ d = c' ∨ p.threads[j]? = some d := by
    intro j d hd
    by_cases hj : j = i
    · rw [hj, hself] at hd
      exact .inl ⟨hj, (Option.some.inj hd).symm⟩
    · rw [List.getElem?_set_ne (Ne.symm hj)] at hd
      exact .inr hd
  have hlater : Later p ⟨s, p.threads.set i c'⟩ := by
    refine ⟨by rw [hreceived], fun j d hd => ?_⟩
    by_cases hj : j = i
    · rw [hj, hi] at hd
      exact ⟨c', hj ▸ hself, by rw [hreq, Option.some.inj hd], by rwa [← Option.some.inj hd]⟩
    · exact ⟨d, by rw [← hd]; exact List.getElem?_set_ne (Ne.symm hj), rfl, fun _ hk => hk⟩
  refine ⟨fun j d hd => ?_, fun j d hd hphase => ?_, fun id j hid => ?_, fun j r hr => ?_, fun j r hr => ?_,
    fun j d r hd hr => ?_⟩
  · obtain ⟨rfl, rfl⟩ | hd := hcases j d hd
    · exact hchan.trans (h.chan _ c hi)
    · exact h.chan j d hd
  · obtain ⟨rfl, rfl⟩ | hd := hcases j d hd
    · exact absurd hphase hentered
    · exact h.entered j d hd hphase
  · obtain hid | ⟨rfl, rfl, hk⟩ := hregistered id j hid
    · obtain ⟨d, hd, hid', k, hk, hle⟩ := h.registered id j hid
      obtain ⟨d', hd', hreq', hsince'⟩ := hlater.threads j d hd
      exact ⟨d', hd', by rw [hreq', hid'], k, hsince' k hk, by rwa [hreceived]⟩
    · exact ⟨c', hself, by rw [hreq], _, hk, by rw [hreceived]⟩
  · exact (h.called j r (hreader ▸ hr)).mono hlater
  · exact ⟨(h.buffered j r (hbuffered j r hr)).1.mono hlater, (h.buffered j r (hbuffered j r hr)).2⟩
  · obtain ⟨rfl, rfl⟩ | hd := hcases j d hd
    · obtain hr | hr := hresult r hr
      · exact ⟨(h.result _ c r hi hr).1.mono hlater, (h.result _ c r hi hr).2⟩
      · exact ⟨(h.buffered _ r hr).1.mono hlater, (h.buffered _ r hr).2⟩
    · exact ⟨(h.result j d r hd hr).1.mono hlater, (h.result j d r hd hr).2⟩

theorem requestsInv_advance (h : RequestsInv p) (hi : p.threads[i]? = some c) (fails : Bool) :
    RequestsInv ⟨(requestStep fails p.shared c).1, p.threads.set i (requestStep fails p.shared c).2⟩ := by
  have hself : RequestsInv ⟨p.shared, p.threads.set i c⟩ := by
    obtain ⟨hlt, hget⟩ := List.getElem?_eq_some_iff.mp hi
    rw [← hget, List.set_getElem_self]
    exact h
  have hchan : c.resChan = i := h.chan i c hi
  have hsince : c.phase = .entered → c.since = none := h.entered i c hi
  obtain ⟨req, resChan, phase, since⟩ := c
  subst hchan
  cases phase with
  | entered =>
      obtain rfl : since = none := hsince rfl
      unfold requestStep
      cases fails with
      | true =>
          exact requestsInv_set h hi rfl rfl (fun _ hk => hk) (by simp) rfl (fun _ _ hid => .inl hid) rfl
            (fun _ _ hr => hr) (fun _ hr => by cases hr)
      | false =>
          refine requestsInv_set h hi rfl rfl (fun _ hk => by cases hk) (by simp) rfl (fun id j hid => ?_) rfl
            (fun _ _ hr => hr) (fun _ hr => by cases hr)
          obtain ⟨hsame, hnew⟩ | hold := of_update_eq_some hid
          · exact .inr ⟨hsame, (Option.some.inj hnew).symm, rfl⟩
          · exact .inl hold
  | registered =>
      unfold requestStep
      refine requestsInv_set h hi rfl rfl (fun _ hk => hk) ?_ rfl (fun _ _ hid => .inl hid) rfl (fun _ _ hr => hr)
        (fun _ hr => ?_)
      · cases fails <;> simp
      · cases fails <;> cases hr
  | written =>
      unfold requestStep
      cases fails with
      | true =>
          exact requestsInv_set h hi rfl rfl (fun _ hk => hk) (by simp) rfl (fun _ _ hid => .inl hid) rfl
            (fun _ _ hr => hr) (fun _ hr => by cases hr)
      | false =>
          cases hchan : p.shared.resChans resChan with
          | none => simpa only [Bool.false_eq_true, if_false, hchan] using hself
          | some r =>
              simp only [Bool.false_eq_true, if_false]
              refine requestsInv_set h hi rfl rfl (fun _ hk => hk) (by simp) rfl (fun _ _ hid => .inl hid) rfl
                (fun j r' hr => ?_) (fun r' hr => .inr (hchan.trans hr))
              obtain ⟨-, hnew⟩ | hold := of_update_eq_some hr
              · cases hnew
              · exact hold
  | leaving result =>
      refine requestsInv_set h hi rfl rfl (fun _ hk => hk) (by simp [requestStep]) rfl (fun id j hid => ?_) rfl
        (fun _ _ hr => hr) (fun _ hr => .inl hr)
      obtain ⟨-, hnew⟩ | hold := of_update_eq_some hid
      · cases hnew
      · exact .inl hold
  | returned result => exact hself

theorem requestsInv_step (p : Requests) (e : RequestEvent) (h : RequestsInv p) : RequestsInv (requestsStep cx p e) := by
  cases e with
  | call req => exact requestsInv_call h req
  | step i fails => exact Pool.advance_induction i h fun c hi => requestsInv_advance h hi fails
  | done i => exact requestsInv_shared h (List.prefix_refl _) rfl h.called fun _ _ hr => .inl hr
  | receive m => exact requestsInv_receive h m
  | callback givesUp => exact requestsInv_callback h givesUp

def DistinctRequests (p : Requests) : Prop := (p.threads.map fun c => c.req.id).Nodup

theorem requestStep_req (fails : Bool) (s : Requests.Shared) (c : RequestCall) :
    (requestStep fails s c).2.req = c.req := by
  unfold requestStep
  split
  · split_ifs <;> rfl
  · rfl
  · split_ifs
    · rfl
    · split <;> rfl
  · rfl
  · rfl

theorem distinctRequests_step (p : Requests) (e : RequestEvent) (h : DistinctRequests p) (hfresh : FreshRequest p e) :
    DistinctRequests (requestsStep cx p e) := by
  cases e with
  | call req =>
      show ((p.threads ++ [_]).map _).Nodup
      rw [List.map_append, List.map_singleton]
      refine h.append (List.nodup_singleton _) (List.disjoint_singleton.mpr fun hid => ?_)
      obtain ⟨c, hc, hid⟩ := List.mem_map.mp hid
      exact hfresh c hc hid
  | step i fails =>
      refine Pool.advance_induction i h fun c hi => ?_
      have hmap : (p.threads.map fun c => c.req.id)[i]? = some c.req.id := by rw [List.getElem?_map, hi, Option.map_some]
      obtain ⟨hlt, hget⟩ := List.getElem?_eq_some_iff.mp hmap
      show ((p.threads.set i _).map _).Nodup
      rw [List.map_set, requestStep_req, ← hget, List.set_getElem_self]
      exact h
  | done i => exact h
  | receive m => exact h
  | callback givesUp =>
      simp only [requestsStep]
      split <;> exact h

theorem correlated_of_inv (h : RequestsInv p) (hdistinct : DistinctRequests p) : Correlated p := by
  refine ⟨fun i c r hc hphase => h.result i c r hc (by rw [hphase]; rfl), fun i j c c' r r' hi hj hr hr' hindex => ?_⟩
  obtain ⟨hreceived, d, hd, hid, -⟩ := (h.result i c r hi (by rw [hr]; rfl)).1
  obtain ⟨hreceived', d', hd', hid', -⟩ := (h.result j c' r' hj (by rw [hr']; rfl)).1
  have hres : r.res = r'.res := by
    rw [hindex, hreceived'] at hreceived
    exact (Option.some.inj hreceived).symm
  have hi' : (p.threads.map fun c => c.req.id)[i]? = some d.req.id := by rw [List.getElem?_map, hd, Option.map_some]
  have hj' : (p.threads.map fun c => c.req.id)[j]? = some d'.req.id := by rw [List.getElem?_map, hd', Option.map_some]
  have hsame : d.req.id = d'.req.id := by rw [← hid, ← hid', hres]
  exact (List.getElem?_inj (List.getElem?_eq_some_iff.mp hi').1 hdistinct).mp (hi'.trans (hsame ▸ hj'.symm))

end Correlation

/-- A call returns a final response to its own request that was received after it was registered, and no response is
returned by two calls. -/
theorem doRequest_correlated {events : List RequestEvent}
    (hfresh : Permitted (requestsStep cx) FreshRequest Requests.none events) :
    Correlated (run (requestsStep cx) Requests.none events) :=
  correlated_of_inv (invariant (requestsStep cx) requestsInv_step requestsInv_none events)
    (invariant_of_permitted (requestsStep cx) distinctRequests_step List.nodup_nil hfresh)

/-- Two calls that wait at once, one of which is answered twice. -/
def twoRequests : List RequestEvent :=
  [.call { id := "a", did := "d", op := "invite" }, .call { id := "b", did := "e", op := "invite" }, .step 0 false,
    .step 1 false, .step 0 false, .step 1 false, .receive { buf := "180 a" }, .callback false,
    .receive { buf := "200 b" }, .callback false, .receive { buf := "200 c" }, .receive { buf := "200 a" },
    .callback false, .step 0 false, .receive { buf := "486 a" }, .callback false, .step 0 false, .step 1 false,
    .step 1 false]

theorem doRequest_correlated_two :
    Correlated (run (requestsStep cliContext) Requests.none twoRequests) ∧
      (run (requestsStep cliContext) Requests.none twoRequests).threads.map (fun c => c.phase) =
        [.returned (some ⟨3, { id := "a", code := 200 }⟩), .returned (some ⟨1, { id := "b", code := 200 }⟩)] :=
  ⟨doRequest_correlated cliContext (by decide), by decide⟩

end Flow.ReadLoop
