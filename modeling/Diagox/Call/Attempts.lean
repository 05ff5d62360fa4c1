import Diagox.Call.Fallback

/-!
# The attempts of a fallback

`inviteFallback` with endpoints that exist and have a URI: which of them it dials and in which order, what it
returns, and which of the dialogs that it has created are closed when it is left. The dialogs are closed by
deferred calls, each of which looks at the flag of its own turn.
-/

namespace Call

open Defer Defer.Body Configuration

section Outcome

variable (ext : Externals) (routeConf : ConfigRoute)

/-- `Invite` of turn `i` fails with an error for which the next endpoint is dialed. -/
def GoesOn (i : Nat) : Prop :=
  ext.newDialog (.fallback i) = .returned true ∧ ∃ media, Refused ext routeConf i media

/-- Turn `i` ends the loop, with a dialog of its own or before it has one. -/
inductive Concludes (i : Nat) : (dialog : Bool) → Exit FallbackResult → Prop where
  | noDialog (h : ext.newDialog (.fallback i) = .returned false) : Concludes i false (.returned (.error .newDialog))
  | dialogPanicked (h : ext.newDialog (.fallback i) = .panicked) : Concludes i false .panicked
  | answered (h : ext.newDialog (.fallback i) = .returned true)
      (hresult : ext.invite (.fallback i) = .returned .answered) :
      Concludes i true (.returned (.ok (.fallback i, some (.media (.fallback i)))))
  | givenUp (media : Bool) (e : Exit FallbackResult) (h : ext.newDialog (.fallback i) = .returned true)
      (hgivenUp : GivenUp ext routeConf i media e) : Concludes i true e

/-- The loop over `n` endpoints from turn `i` on: `refused` of them are refused, `created` dialogs are created,
and it ends with `e`. -/
structure Outcome (i n refused created : Nat) (e : Exit FallbackResult) : Prop where
  goesOn : ∀ j, i ≤ j → j < i + refused → GoesOn ext routeConf j
  ends : refused = n ∧ created = n ∧ e = .returned (.error .noneFound) ∨
    refused < n ∧ ¬ GoesOn ext routeConf (i + refused) ∧
      ∃ dialog, Concludes ext routeConf (i + refused) dialog e ∧ created = refused + dialog.toNat

/-- The dialog that is returned. -/
def handedOver : Exit FallbackResult → Option Dialog
  | .returned (.ok (d, _)) => some d
  | _ => none

def Event.openedDialog : Event → Option Dialog
  | .opened (.dialog d) => some d
  | _ => none

/-- `inviteFallback` has dialed endpoints in their order, and has closed the dialogs but the one that it returns. -/
structure Attempts (endpoints : List ConfigEndpoint) (refused created : Nat) (s s' : Vars) (e : Exit FallbackResult)
    (t : List Event) : Prop where
  outcome : Outcome ext routeConf 0 endpoints.length refused created e
  dialed : s'.dialed = s.dialed ++ endpoints.take created
  events : s'.events = s.events ++ t
  opened : t.filterMap Event.openedDialog = (List.range created).map .fallback
  closed : ∀ d, t.count (.closed (.dialog d)) =
    if d ∈ (List.range created).map .fallback ∧ handedOver e ≠ some d then 1 else 0

end Outcome

section Loop

variable {ext : Externals} {cx : CallContext} {routeConf : ConfigRoute} {i n refused created : Nat}
  {e : Exit FallbackResult} {dialog media : Bool}

theorem GivenUp.not_refused {media' : Bool} (h : GivenUp ext routeConf i media e) :
    ¬ Refused ext routeConf i media' := by
  rintro ⟨err, hresult, herr⟩
  cases h with
  | failed err' _ h herr' =>
      cases h.symm.trans hresult
      exact herr' herr
  | earlyMedia h => cases h.symm.trans hresult
  | panicked h => cases h.symm.trans hresult

theorem GivenUp.handedOver_eq (h : GivenUp ext routeConf i media e) : handedOver e = none := by
  cases h <;> rfl

theorem Concludes.not_goesOn (h : Concludes ext routeConf i dialog e) : ¬ GoesOn ext routeConf i := by
  rintro ⟨hdialog, media, hrefused⟩
  cases h with
  | noDialog h => cases h.symm.trans hdialog
  | dialogPanicked h => cases h.symm.trans hdialog
  | answered h hresult =>
      obtain ⟨err, hfailed, -⟩ := hrefused
      cases hresult.symm.trans hfailed
  | givenUp media' e h hgivenUp => exact hgivenUp.not_refused hrefused

theorem Concludes.eq_of_handedOver {d : Dialog} (h : Concludes ext routeConf i dialog e)
    (hd : handedOver e = some d) : d = .fallback i := by
  cases h with
  | noDialog h => cases hd
  | dialogPanicked h => cases hd
  | answered h hresult => exact (Option.some.inj hd).symm
  | givenUp media e h hgivenUp =>
      rw [hgivenUp.handedOver_eq] at hd
      cases hd

theorem Outcome.le_of_handedOver {j : Nat} (h : Outcome ext routeConf i n refused created e)
    (hj : handedOver e = some (.fallback j)) : i ≤ j := by
  obtain ⟨-, -, rfl⟩ | ⟨-, -, dialog, hconcludes, -⟩ := h.ends
  · cases hj
  · cases hconcludes.eq_of_handedOver hj
    exact Nat.le_add_right i refused

theorem Outcome.exhausted : Outcome ext routeConf i 0 0 0 (.returned (.error .noneFound)) where
  goesOn j hle hlt := absurd hlt (by omega)
  ends := .inl ⟨rfl, rfl, rfl⟩

theorem Outcome.concluded (h : Concludes ext routeConf i dialog e) :
    Outcome ext routeConf i (n + 1) 0 dialog.toNat e where
  goesOn j hle hlt := absurd hlt (by omega)
  ends := .inr ⟨Nat.succ_pos n, h.not_goesOn, dialog, h, (Nat.zero_add _).symm⟩

theorem Outcome.cons (hgoes : GoesOn ext routeConf i) (h : Outcome ext routeConf (i + 1) n refused created e) :
    Outcome ext routeConf i (n + 1) (refused + 1) (created + 1) e where
  goesOn j hle hlt := by
    obtain rfl | hlt' := Nat.eq_or_lt_of_le hle
    · exact hgoes
    · exact h.goesOn j hlt' (by omega)
  ends := by
    have hturn : i + (refused + 1) = i + 1 + refused := by omega
    rw [hturn]
    obtain ⟨hn, hcreated, he⟩ | ⟨hn, hnot, dialog, hconcludes, hcreated⟩ := h.ends
    · exact .inl ⟨by omega, by omega, he⟩
    · exact .inr ⟨by omega, hnot, dialog, hconcludes, by omega⟩

/-- The loop from turn `i` on has gone from a frame to another, and what it leaves to the deferred calls. -/
structure Looped (ext : Externals) (routeConf : ConfigRoute) (i : Nat) (endpoints : List ConfigEndpoint)
    (refused created : Nat) (f f' : Frame Vars Deferred) (e : Exit FallbackResult) (t : List Event) : Prop where
  outcome : Outcome ext routeConf i endpoints.length refused created e
  dialed : f'.vars.dialed = f.vars.dialed ++ endpoints.take created
  events : f'.vars.events = f.vars.events ++ t
  opened : t.filterMap Event.openedDialog = (List.range' i created).map .fallback
  notClosed : ∀ l, .closed l ∉ t
  deferred : f'.deferred = (List.range' i created).reverse.flatMap (fun j => [.cancel, .closeOwned j]) ++ f.deferred
  owned : ∀ j, i ≤ j → j < i + created → f'.vars.owned j = decide (handedOver e ≠ some (.fallback j))
  owned_of_lt : ∀ j, j < i → f'.vars.owned j = f.vars.owned j

variable {f f' : Frame Vars Deferred} {endpoint : ConfigEndpoint} {endpoints : List ConfigEndpoint} {t : List Event}

theorem Looped.refl (h : Outcome ext routeConf i endpoints.length refused 0 e) :
    Looped ext routeConf i endpoints refused 0 f f e [] where
  outcome := h
  dialed := by simp
  events := by simp
  opened := rfl
  notClosed l hl := by cases hl
  deferred := rfl
  owned j hle hlt := absurd hlt (by omega)
  owned_of_lt j _ := rfl

theorem openedDialog_turnEvents : (turnEvents i media).filterMap Event.openedDialog = [.fallback i] := by
  cases media with
  | true => rfl
  | false => rfl

theorem closed_notMem_turnEvents {l : Leg} : .closed l ∉ turnEvents i media := by
  intro h
  obtain h | ⟨-, h⟩ := mem_turnEvents.mp h
  · cases h
  · cases h

theorem Looped.last (h : Concludes ext routeConf i true e)
    (hdeferred : f'.deferred = .cancel :: .closeOwned i :: f.deferred)
    (hvars : f'.vars =
      (turnFrame ext f i endpoint media).vars.setOwned i (decide (handedOver e ≠ some (.fallback i)))) :
    Looped ext routeConf i (endpoint :: endpoints) 0 1 f f' e (turnEvents i media) where
  outcome := .concluded h
  dialed := by simp [hvars, Vars.setOwned, turnFrame_vars]
  events := by simp [hvars, Vars.setOwned, turnFrame_vars]
  opened := openedDialog_turnEvents
  notClosed l := closed_notMem_turnEvents
  deferred := hdeferred
  owned j hle hlt := by
    obtain rfl : j = i := by omega
    simp [hvars, Vars.setOwned]
  owned_of_lt j hj := by
    have hne : j ≠ i := by omega
    simp [hvars, Vars.setOwned, turnFrame_vars, hne]

theorem Looped.cons (hgoes : GoesOn ext routeConf i)
    (h : Looped ext routeConf (i + 1) endpoints refused created (turnFrame ext f i endpoint media) f' e t) :
    Looped ext routeConf i (endpoint :: endpoints) (refused + 1) (created + 1) f f' e (turnEvents i media ++ t) where
  outcome := h.outcome.cons hgoes
  dialed := by
    rw [h.dialed, turnFrame_vars]
    simp
  events := by
    rw [h.events, turnFrame_vars]
    simp
  opened := by
    rw [List.filterMap_append, openedDialog_turnEvents, h.opened, List.range'_succ]
    rfl
  notClosed l hl := (List.mem_append.mp hl).elim closed_notMem_turnEvents (h.notClosed l)
  deferred := by
    rw [h.deferred, List.range'_succ]
    simp [turnFrame]
  owned j hle hlt := by
    obtain rfl | hlt' := Nat.eq_or_lt_of_le hle
    · -- the turns that follow do not return dialog `i`
      have hne : handedOver e ≠ some (.fallback i) := fun hi => by
        have := h.outcome.le_of_handedOver hi
        omega
      rw [h.owned_of_lt i (Nat.lt_succ_self i), turnFrame_vars]
      simp [hne]
    · exact h.owned j hlt' (by omega)
  owned_of_lt j hj := by
    have hne : j ≠ i := by omega
    rw [h.owned_of_lt j (by omega), turnFrame_vars]
    simp [hne]

theorem inviteFallbackLoop_looped (endNames : List String) (i : Nat) (f : Frame Vars Deferred)
    (hexists : endNames.map cx.endpoints.lookup = endpoints.map some)
    (hparse : ∀ endpoint ∈ endpoints, ext.parseUri endpoint.uri = .returned true)
    {P : Exit FallbackResult → Frame Vars Deferred → Prop}
    (hP : ∀ refused created e f' t, Looped ext routeConf i endpoints refused created f f' e t → P e f') :
    (inviteFallbackLoop ext cx routeConf i endNames).Meets f (fun r => P (.returned r)) P := by
  induction endpoints generalizing endNames i f with
  | nil =>
      obtain rfl : endNames = [] := by simpa using hexists
      exact hP 0 0 _ _ [] (.refl .exhausted)
  | cons endpoint endpoints ih =>
      obtain _ | ⟨endName, endNames⟩ := endNames
      · simp at hexists
      obtain ⟨hlookup, hrest⟩ := List.cons.inj hexists
      obtain ⟨huri, hparse⟩ := List.forall_mem_cons.mp hparse
      have heq : ∀ endpoint', cx.endpoints.lookup endName = some endpoint' → endpoint = endpoint' :=
        fun endpoint' h => Option.some.inj (hlookup.symm.trans h)
      apply meets_inviteFallbackLoop_cons
      case hundialed =>
        intro e hundialed
        cases hundialed with
        | missing h => cases hlookup.symm.trans h
        | badUri endpoint' h hbad =>
            obtain rfl := heq endpoint' h
            cases huri.symm.trans hbad
        | uriPanicked endpoint' h hbad =>
            obtain rfl := heq endpoint' h
            cases huri.symm.trans hbad
        | noDialog _ _ _ hdialog => exact hP 0 0 _ _ [] (.refl (.concluded (.noDialog hdialog)))
        | dialogPanicked _ _ _ hdialog => exact hP 0 0 _ _ [] (.refl (.concluded (.dialogPanicked hdialog)))
      case hended =>
        intro endpoint' media e hdials hgivenUp
        obtain rfl := heq endpoint' hdials.lookup
        apply hP 0 1 e _ (turnEvents i media)
        apply Looped.last (.givenUp media e hdials.newDialog hgivenUp) rfl
        simp [hgivenUp.handedOver_eq, Vars.setOwned, turnFrame_vars]
      case hanswered =>
        intro endpoint' hdials hresult
        obtain rfl := heq endpoint' hdials.lookup
        apply hP 0 1 _ _ (turnEvents i true)
        apply Looped.last (.answered hdials.newDialog hresult) rfl
        simp [handedOver]
      case hrefused =>
        intro endpoint' media hdials hrefused
        obtain rfl := heq endpoint' hdials.lookup
        apply ih endNames (i + 1) _ hrest hparse
        intro refused created e f' t hlooped
        exact hP _ _ e f' _ (hlooped.cons ⟨hdials.newDialog, media, hrefused⟩)

end Loop

/-! ### The call -/

section Call

variable {ext : Externals} {cx : CallContext} {routeConf : ConfigRoute} {endpoints : List ConfigEndpoint}
  {refused created : Nat} {e : Exit FallbackResult} {s : Vars} {f' : Frame Vars Deferred} {t : List Event}

theorem flatMap_closings (owned : Nat → Bool) (turns : List Nat) :
    (turns.flatMap fun j => [.cancel, .closeOwned j]).flatMap (closings owned) =
      (turns.filter owned).map fun j => .closed (.dialog (.fallback j)) := by
  induction turns with
  | nil => rfl
  | cons j turns ih =>
      rw [List.flatMap_cons, List.flatMap_append, ih]
      cases hj : owned j with
      | true => simp [closings, hj]
      | false => simp [closings, hj]

theorem Looped.attempts (h : Looped ext routeConf 0 endpoints refused created ⟨[], s⟩ f' e t) :
    Attempts ext routeConf endpoints refused created s
      { f'.vars with events := f'.vars.events ++ f'.deferred.flatMap (closings f'.vars.owned) } e
      (t ++ f'.deferred.flatMap (closings f'.vars.owned)) := by
  have hclosings : f'.deferred.flatMap (closings f'.vars.owned) =
      ((List.range created).reverse.filter f'.vars.owned).map fun j => .closed (.dialog (.fallback j)) := by
    rw [h.deferred, List.append_nil, flatMap_closings, List.range_eq_range']
  rw [hclosings]
  constructor
  case outcome => exact h.outcome
  case dialed => exact h.dialed
  case events =>
    rw [h.events]
    exact List.append_assoc _ _ _
  case opened =>
    rw [List.filterMap_append, h.opened, List.range_eq_range']
    simp [Event.openedDialog]
  case closed =>
    intro d
    rw [List.count_append, List.count_eq_zero_of_not_mem (h.notClosed _), Nat.zero_add]
    cases d with
    | primary => simp [List.count_eq_zero]
    | fallback j =>
        have hinj : Function.Injective fun j => Event.closed (.dialog (.fallback j)) := by
          intro j j' hj
          cases hj
          rfl
        have hnodup : ((List.range created).reverse.filter f'.vars.owned).Nodup :=
          (List.nodup_reverse.mpr List.nodup_range).filter _
        have hmem : j ∈ (List.range created).reverse.filter f'.vars.owned ↔
            .fallback j ∈ (List.range created).map Dialog.fallback ∧ handedOver e ≠ some (.fallback j) := by
          simp only [List.mem_filter, List.mem_reverse, List.mem_range, List.mem_map, Dialog.fallback.injEq,
            exists_eq_right]
          refine and_congr_right fun hj => ?_
          rw [h.owned j (Nat.zero_le j) (by omega), decide_eq_true_eq]
        rw [List.count_map_of_injective _ _ hinj, hnodup.count]
        exact if_congr hmem rfl rfl

/-- The endpoints are dialed in their order, one after the other as long as the error of `Invite` asks for it, and
the first that is answered is returned. Every dialog is closed once, but the one that is returned is not closed. -/
theorem inviteFallback_attempts (ext : Externals) (cx : CallContext) (routeConf : ConfigRoute) (s : Vars)
    (endpoints : List ConfigEndpoint)
    (hexists : routeConf.fallback.endpoints.map cx.endpoints.lookup = endpoints.map some)
    (hparse : ∀ endpoint ∈ endpoints, ext.parseUri endpoint.uri = .returned true) :
    ∃ refused created e s' t, run (interp ext cx) (inviteFallback ext cx routeConf) s = (e, s') ∧
      Attempts ext routeConf endpoints refused created s s' e t := by
  let P : Exit FallbackResult → Frame Vars Deferred → Prop := fun e f' => ∃ refused created t,
    Looped ext routeConf 0 endpoints refused created ⟨[], s⟩ f' e t
  have hloop : (inviteFallback ext cx routeConf).Meets ⟨[], s⟩ (fun r => P (.returned r)) P :=
    inviteFallbackLoop_looped _ 0 ⟨[], s⟩ hexists hparse fun refused created e f' t h => ⟨refused, created, t, h⟩
  obtain ⟨e, f', ⟨refused, created, t, hlooped⟩, hrun⟩ := run_of_meets hloop
  have hquiet : ∀ d ∈ f'.deferred, d.Quiet := by
    intro d hd
    simp only [hlooped.deferred, List.append_nil, List.mem_flatMap, List.mem_cons, List.not_mem_nil, or_false] at hd
    obtain ⟨j, -, rfl | rfl⟩ := hd
    · trivial
    · trivial
  rw [unwind_quiet hquiet, Exit.after_isPanic] at hrun
  exact ⟨refused, created, e, _, _, hrun, hlooped.attempts⟩

/-- The first endpoint of the fallback is busy, the second one answers. -/
def secondAnswers : Dialog → Exit InviteResult
  | .fallback 1 => .returned .answered
  | _ => .returned (.failed { status := some 486 } false)

theorem inviteFallback_second :
    ∃ refused created e s' t,
      run (interp (plainExternals secondAnswers)
        { endpoints := (AList.singleton "first" { uri := "sip:first" }).insert "second" { uri := "sip:second" } })
        (inviteFallback (plainExternals secondAnswers)
          { endpoints := (AList.singleton "first" { uri := "sip:first" }).insert "second" { uri := "sip:second" } }
          (busyRoute ["first", "second"])) {} = (e, s') ∧
      Attempts (plainExternals secondAnswers) (busyRoute ["first", "second"])
        [{ uri := "sip:first" }, { uri := "sip:second" }] refused created {} s' e t :=
  inviteFallback_attempts _ _ _ {} _ (by decide) fun _ _ => rfl

end Call

end Call
