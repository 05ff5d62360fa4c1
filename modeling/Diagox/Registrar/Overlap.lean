import Diagox.Lib.Linear
import Diagox.Registrar.Resolve

/-!
# Registrations that overlap

`registerHandler` runs for many requests at once, each in a goroutine of its own, and calls are resolved meanwhile. What
a handler does up to its one call of the registry, which holds the lock, depends on its request alone, and so does what
it sends afterwards. So the requests take effect one after the other in the order of these calls, and a call is resolved
by the last one that was answered 200 in this order.
-/

namespace Registrar

open Sip Registry Configuration Run

section Overlap

variable (deps : Deps) (hostname : String)

/-- A request that comes as far as the registry, with what it asks for. -/
structure Passed (a : Arrival) where
  checked : Checked
  credential : Credential
  update : Update
  admitted : Admitted deps a.1 hostname a.2 checked credential update

def Rejection.responses : Rejection → List Response
  | .responds res => [res]
  | .panics => []

/-- What `registerHandler` comes to before it calls the registry: a call, or the responses it ends with. -/
def decision (a : Arrival) : Passed deps hostname a ⊕ List Response :=
  match hcheck : checkRegister deps hostname a.2 with
  | .error rejection => .inr rejection.responses
  | .ok checked => match hauth : authorizeRegister a.1 a.2 checked.fromAddress.user checked.expiry with
    | .panicked => .inr []
    | .refused res => .inr [res]
    | .accepted credential => match hupdate : contactUpdate deps a.2 checked with
      | .error rejection => .inr rejection.responses
      | .ok update => .inl ⟨checked, credential, update, hcheck, hauth, hupdate⟩

/-- Where a handler stands. -/
inductive Stage (a : Arrival) where
  | deciding
  /-- Next is its call of the registry. -/
  | calling (x : Passed deps hostname a)
  | answering (responses : List Response)
  | returned (responses : List Response)

structure Handler where
  arrival : Arrival
  stage : Stage deps hostname arrival

variable {deps hostname}

/-- One step of a handler. With the lock held its call does not return. -/
def handlerStep (r : RegistryMemory) (t : Handler deps hostname) : RegistryMemory × Handler deps hostname :=
  match t.stage with
  | .deciding => match decision deps hostname t.arrival with
    | .inl x => (r, { t with stage := .calling x })
    | .inr responses => (r, { t with stage := .answering responses })
  | .calling x =>
      let out := applyUpdate memoryStore r x.credential (createRegId x.checked.aor.user hostname) x.update
      match out.ended with
      | .blocked => (r, t)
      | .returned | .panicked => (out.registry, { t with stage := .answering out.responses })
  | .answering responses => (r, { t with stage := .returned responses })
  | .returned _ => (r, t)

inductive Event where
  | arrive (a : Arrival)
  | step (i : Nat)

abbrev Handlers (deps : Deps) (hostname : String) := Pool RegistryMemory (Handler deps hostname)

def overlapStep (p : Handlers deps hostname) : Event → Handlers deps hostname
  | .arrive a => p.spawn ⟨a, .deciding⟩
  | .step i => p.advance handlerStep i

/-! ### One request after the other -/

variable (deps hostname) in
/-- A whole request at once. -/
def sequential (r : RegistryMemory) (a : Arrival) : RegistryMemory × List Response :=
  ((registerHandler deps a.1 memoryStore hostname r a.2).registry,
    (registerHandler deps a.1 memoryStore hostname r a.2).responses)

def Stage.phase {a : Arrival} : Stage deps hostname a → Linear.Phase (List Response)
  | .deciding | .calling _ => .pending
  | .answering responses => .done responses
  | .returned responses => .returned responses

def Handler.thread (t : Handler deps hostname) : Linear.Thread Arrival (List Response) := ⟨t.arrival, t.stage.phase⟩

/-- The handlers, as operations that overlap. -/
def operations (p : Handlers deps hostname) : Linear.System RegistryMemory Arrival (List Response) :=
  p.map id Handler.thread

theorem sequential_of_decision {a : Arrival} {responses : List Response}
    (h : decision deps hostname a = .inr responses) (r : RegistryMemory) :
    sequential deps hostname r a = (r, responses) := by
  unfold decision at h
  unfold sequential registerHandler
  split at h
  · next rejection hcheck =>
    obtain rfl := Sum.inr.inj h
    rw [hcheck]
    cases rejection <;> rfl
  · next checked hcheck =>
    rw [hcheck]
    split at h
    · next hauth =>
      obtain rfl := Sum.inr.inj h
      simp only [hauth]
    · next res hauth =>
      obtain rfl := Sum.inr.inj h
      simp only [hauth]
    · next credential hauth =>
      split at h
      · next rejection hupdate =>
        obtain rfl := Sum.inr.inj h
        simp only [hauth, hupdate]
        cases rejection <;> rfl
      · cases h

theorem sequential_of_passed {a : Arrival} (x : Passed deps hostname a) (r : RegistryMemory) :
    sequential deps hostname r a =
      ((applyUpdate memoryStore r x.credential (createRegId x.checked.aor.user hostname) x.update).registry,
        (applyUpdate memoryStore r x.credential (createRegId x.checked.aor.user hostname) x.update).responses) := by
  rw [sequential, registerHandler_of_admitted x.admitted]

theorem handlerStep_deciding_responses {a : Arrival} {responses : List Response}
    (h : decision deps hostname a = .inr responses) (r : RegistryMemory) :
    handlerStep r (⟨a, .deciding⟩ : Handler deps hostname) = (r, ⟨a, .answering responses⟩) := by
  simp only [handlerStep, h]

theorem handlerStep_deciding_passed {a : Arrival} {x : Passed deps hostname a}
    (h : decision deps hostname a = .inl x) (r : RegistryMemory) :
    handlerStep r ⟨a, .deciding⟩ = (r, ⟨a, .calling x⟩) := by
  simp only [handlerStep, h]

theorem handlerStep_calling {a : Arrival} (x : Passed deps hostname a) (r : RegistryMemory) :
    handlerStep r ⟨a, .calling x⟩ = (r, ⟨a, .calling x⟩) ∨
      handlerStep r ⟨a, .calling x⟩ =
        ((sequential deps hostname r a).1, ⟨a, .answering (sequential deps hostname r a).2⟩) := by
  rw [sequential_of_passed x]
  cases hended : (applyUpdate memoryStore r x.credential (createRegId x.checked.aor.user hostname) x.update).ended with
  | blocked => exact .inl (by simp only [handlerStep, hended])
  | returned | panicked => exact .inr (by simp only [handlerStep, hended])

theorem handlerStep_thread (r : RegistryMemory) (t : Handler deps hostname) :
    ((handlerStep r t).1, (handlerStep r t).2.thread) = (r, t.thread) ∨
      ((handlerStep r t).1, (handlerStep r t).2.thread) = Linear.act (sequential deps hostname) r t.thread ∨
      ((handlerStep r t).1, (handlerStep r t).2.thread) = Linear.finish r t.thread := by
  obtain ⟨a, stage⟩ := t
  cases stage with
  | deciding =>
      cases hdecision : decision deps hostname a with
      | inl x => exact .inl (by rw [handlerStep_deciding_passed hdecision]; rfl)
      | inr responses =>
          have hseq := sequential_of_decision hdecision r
          refine .inr (.inl ?_)
          rw [handlerStep_deciding_responses hdecision, Linear.act]
          simp only [Handler.thread, Stage.phase, hseq]
  | calling x =>
      obtain hblocked | hcalled := handlerStep_calling x r
      · exact .inl (by rw [hblocked])
      · exact .inr (.inl (by rw [hcalled]; rfl))
  | answering responses => exact .inr (.inr rfl)
  | returned responses => exact .inl rfl

theorem operations_step (p : Handlers deps hostname) (e : Event) :
    ∃ es, operations (overlapStep p e) = run (Linear.step (sequential deps hostname)) (operations p) es := by
  cases e with
  | arrive a => exact ⟨[.arrive a], Pool.map_spawn _ _ p _⟩
  | step i =>
      cases ht : p.threads[i]? with
      | none => exact ⟨[], by rw [overlapStep, Pool.advance_of_none ht]; rfl⟩
      | some t =>
          obtain heq | heq | heq := handlerStep_thread p.shared t
          · exact ⟨[], Pool.map_advance_eq_self ht heq⟩
          · exact ⟨[.act i], Pool.map_advance ht heq⟩
          · exact ⟨[.finish i], Pool.map_advance ht heq⟩

/-! ### Calls meanwhile -/

/-- The requests of some handlers, each with its responses, the last one in front. -/
def handledIn (p : Handlers deps hostname) (order : List Nat) : List (Request × List Response) :=
  (((Linear.args (operations p) order).map Prod.snd).zip (Linear.answers (operations p) order)).reverse

variable (deps hostname) in
/-- The registry and the answers of requests one after the other. -/
theorem run_tracedStep (arrivals : List Arrival) :
    (run (tracedStep deps hostname) {} arrivals).registry =
        run (Linear.next (sequential deps hostname)) RegistryMemory.new arrivals ∧
      (run (tracedStep deps hostname) {} arrivals).handled =
        ((arrivals.map Prod.snd).zip
          (Refine.results (sequential deps hostname) RegistryMemory.new arrivals)).reverse := by
  induction arrivals using List.reverseRecOn with
  | nil => exact ⟨rfl, rfl⟩
  | append_singleton arrivals a ih =>
      obtain ⟨hregistry, hhandled⟩ := ih
      have hlength : (arrivals.map Prod.snd).length =
          (Refine.results (sequential deps hostname) RegistryMemory.new arrivals).length := by
        rw [List.length_map, Linear.length_results]
      rw [run_append, run_append, Linear.results_concat, List.map_append, List.zip_append hlength, List.reverse_append,
        ← hregistry, ← hhandled]
      exact ⟨rfl, rfl⟩

theorem handlerStep_arrival (r : RegistryMemory) (t : Handler deps hostname) :
    (handlerStep r t).2.arrival = t.arrival := by
  obtain ⟨a, stage⟩ := t
  cases stage with
  | deciding =>
      cases hdecision : decision deps hostname a with
      | inl x => rw [handlerStep_deciding_passed hdecision]
      | inr responses => rw [handlerStep_deciding_responses hdecision]
  | calling x =>
      obtain hblocked | hcalled := handlerStep_calling x r
      · rw [hblocked]
      · rw [hcalled]
  | answering responses | returned responses => rfl

/-- The digest server gives no 200 along with an error to a request that arrives. -/
def Event.ErrorsRefuse : Event → Prop
  | .arrive a => a.1.ErrorsRefuse
  | .step _ => True

def ErrorsRefuse (p : Handlers deps hostname) : Prop := ∀ t ∈ p.threads, t.arrival.1.ErrorsRefuse

theorem errorsRefuse_step (p : Handlers deps hostname) (e : Event) (hp : ErrorsRefuse p) (he : e.ErrorsRefuse) :
    ErrorsRefuse (overlapStep p e) := by
  cases e with
  | arrive a =>
      intro t ht
      obtain ht | ht := List.mem_append.mp ht
      · exact hp t ht
      · rw [List.mem_singleton.mp ht]
        exact he
  | step i =>
      refine Pool.advance_induction i hp fun t ht u hu => ?_
      obtain hu | rfl := List.mem_or_eq_of_mem_set hu
      · exact hp u hu
      · rw [handlerStep_arrival]
        exact hp t (List.mem_of_getElem? ht)

/-- Whenever a call is resolved, by the last request for its user that was answered 200. -/
theorem resolve_of_linearizes (huri : ∀ u, deps.uriString u ≠ "") {p : Handlers deps hostname} {order : List Nat}
    (h : Linear.Linearizes (sequential deps hostname) RegistryMemory.new (operations p) order)
    (hauth : ErrorsRefuse p) (toEndpoint : ConfigEndpoint) :
    endpointResolveRegisteredURI deps memoryStore hostname p.shared toEndpoint =
      some (p.shared, (lastAnswered toEndpoint.name (handledIn p order)).elim ""
        (registeredURI deps toEndpoint.media.type)) := by
  have hpermitted : ∀ a ∈ Linear.args (operations p) order, a.1.ErrorsRefuse := by
    intro a ha
    obtain ⟨i, -, hi⟩ := List.mem_filterMap.mp ha
    obtain ⟨t, ht, rfl⟩ := Option.map_eq_some_iff.mp hi
    obtain ⟨t', ht', rfl⟩ := List.mem_map.mp (List.mem_of_getElem? ht)
    exact hauth t' ht'
  obtain ⟨hregistry, hhandled⟩ := run_tracedStep deps hostname (Linear.args (operations p) order)
  have hcurrent : Current deps hostname (run (tracedStep deps hostname) {} (Linear.args (operations p) order)) :=
    invariant_of_permitted _ current_step current_initial (permitted_of_forall _ hpermitted)
  have hresolve := resolve_of_current huri hcurrent toEndpoint
  rw [hregistry, hhandled, ← h.shared_eq, ← h.answers_eq] at hresolve
  exact hresolve

/-- However the handlers overlap, there is an order of those that are past their call of the registry in which the
requests, handled one after the other, lead to the same registry and are answered the same; it only grows at its end as
time goes on, and a call is resolved at any time by the last request in it that was for its user and answered 200. -/
theorem resolve_overlapping (huri : ∀ u, deps.uriString u ≠ "") {schedule more : List Event}
    (hauth : ∀ e ∈ schedule ++ more, e.ErrorsRefuse) :
    let p : Handlers deps hostname := run overlapStep ⟨RegistryMemory.new, []⟩ schedule
    let p' := run overlapStep p more
    ∃ order rest, Linear.Linearizes (sequential deps hostname) RegistryMemory.new (operations p) order ∧
      Linear.Linearizes (sequential deps hostname) RegistryMemory.new (operations p') (order ++ rest) ∧
      ∀ toEndpoint : ConfigEndpoint, endpointResolveRegisteredURI deps memoryStore hostname p'.shared toEndpoint =
        some (p'.shared, (lastAnswered toEndpoint.name (handledIn p' (order ++ rest))).elim ""
          (registeredURI deps toEndpoint.media.type)) := by
  intro p p'
  obtain ⟨es, hes⟩ := Refine.exists_run_of_steps operations_step ⟨RegistryMemory.new, []⟩ schedule
  obtain ⟨es', hes'⟩ := Refine.exists_run_of_steps operations_step p more
  obtain ⟨order, horder⟩ := Linear.linearizes_run (Linear.linearizes_initial (s := RegistryMemory.new)) es
  rw [List.nil_append] at horder
  have hp : Linear.Linearizes (sequential deps hostname) RegistryMemory.new (operations p) order := hes ▸ horder
  obtain ⟨rest, hrest⟩ := Linear.linearizes_run hp es'
  have hp' : Linear.Linearizes (sequential deps hostname) RegistryMemory.new (operations p') (order ++ rest) :=
    hes' ▸ hrest
  have harrivals : ErrorsRefuse p' := by
    have hall := invariant_of_permitted overlapStep errorsRefuse_step
      (s := (⟨RegistryMemory.new, []⟩ : Handlers deps hostname)) (fun t ht => by cases ht)
      (permitted_of_forall overlapStep hauth)
    rwa [run_append] at hall
  exact ⟨order, rest, hp, hp', resolve_of_linearizes huri hp' harrivals⟩

/-- Two registrations of alice, of which the one that arrives first calls the registry last. -/
theorem resolve_overlapping_alice :
    let a : Arrival := (trusting, bindRequest "pbx" "alice")
    let p : Handlers plainDeps "pbx" := run overlapStep ⟨RegistryMemory.new, []⟩
      [.arrive a, .arrive a, .step 0, .step 1, .step 1]
    let p' := run overlapStep p [.step 0, .step 1, .step 0]
    ∃ order rest, Linear.Linearizes (sequential plainDeps "pbx") RegistryMemory.new (operations p) order ∧
      Linear.Linearizes (sequential plainDeps "pbx") RegistryMemory.new (operations p') (order ++ rest) ∧
      ∀ toEndpoint : ConfigEndpoint, endpointResolveRegisteredURI plainDeps memoryStore "pbx" p'.shared toEndpoint =
        some (p'.shared, (lastAnswered toEndpoint.name (handledIn p' (order ++ rest))).elim ""
          (registeredURI plainDeps toEndpoint.media.type)) :=
  resolve_overlapping plainUriString_ne_empty fun e he => by
    simp only [List.cons_append, List.nil_append, List.mem_cons, List.not_mem_nil, or_false] at he
    obtain rfl | rfl | rfl | rfl | rfl | rfl | rfl | rfl := he
    · exact trusting_errorsRefuse
    · exact trusting_errorsRefuse
    all_goals exact trivial

end Overlap

end Registrar
