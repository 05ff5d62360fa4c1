import Diagox.Call.Fallback

/-!
# Dialing

What the closure `invited` comes to and what it leaves in the variables, case by case over the way `Invite`,
the early media and the fallback end.
-/

namespace Call

open Defer Defer.Body Configuration Cdr

section Outcomes

variable (ext : Externals) (cx : CallContext) (routeConf : ConfigRoute) (toEndpoint : ConfigEndpoint)

/-- The fallback is dialed after this error. -/
def Falls (err : InviteError) : Prop :=
  (routeConf.fallback.enabled && isInviteErrFallback err routeConf.fallback) = true

instance (err : InviteError) : Decidable (Falls routeConf err) := inferInstanceAs (Decidable (_ = true))

/-- The early media is bridged. -/
def Progresses : Prop :=
  ext.progressMedia = .returned true ∧ ext.earlyBridgeAddIn = .returned true ∧ ext.earlyBridgeAddOut = .returned true

/-- The variables when `Invite` of the first dialog has returned. -/
def Vars.handed (s : Vars) (media : Bool) : Vars :=
  if media then
    { (s.sent ext .primary).log (.opened (.media .primary)) with outMedia := some (.media .primary) }
  else { s.sent ext .primary with outMedia := none }

/-- The variables when `ProgressMedia` has returned. -/
def Vars.progressed (s : Vars) : Vars := { s.log (.opened .early) with earlyMedia := some .early }

/-- How a dialog falls back, and the variables it leaves. -/
inductive FellBack (s : Vars) : Exit Bool → Vars → Prop where
  | answered (j : Nat) (s' : Vars) (t : List Event)
      (hout : fallbackOutcome ext cx routeConf 0 routeConf.fallback.endpoints = .returned (some j))
      (hfell : Fell ext (.returned (some j)) (LeavesMedia ext cx routeConf 0 routeConf.fallback.endpoints)
        { s with outMedia := none } s' t) :
      FellBack s (.returned true)
        { s' with
          outDialog := some (.fallback j)
          outMedia := some (.media (.fallback j))
          events := s'.events ++ .closed (.dialog (.fallback j)) :: (s.outMedia.map Event.closed).toList }
  | failed (s' : Vars) (t : List Event)
      (hout : fallbackOutcome ext cx routeConf 0 routeConf.fallback.endpoints = .returned none)
      (hfell : Fell ext (.returned none) (LeavesMedia ext cx routeConf 0 routeConf.fallback.endpoints)
        { s with outMedia := none } s' t) :
      FellBack s (.returned false)
        { s' with outDialog := none, outMedia := none, events := s'.events ++ (s.outMedia.map Event.closed).toList }
  | panicked (s' : Vars) (t : List Event)
      (hout : fallbackOutcome ext cx routeConf 0 routeConf.fallback.endpoints = .panicked)
      (hfell : Fell ext .panicked (LeavesMedia ext cx routeConf 0 routeConf.fallback.endpoints)
        { s with outMedia := none } s' t) :
      FellBack s .panicked { s' with events := s'.events ++ (s.outMedia.map Event.closed).toList }

/-- How the closure `invited` ends, and the variables it leaves. -/
inductive Invited (s : Vars) : Exit Bool → Vars → Prop where
  | webrtc (hto : toEndpoint.media.type = "webrtc") (h : ext.inviteWebrtc = .returned true) :
      Invited s (.returned true)
        { (s.sent ext .primary).log (.opened .webrtcOut) with outWebrtc := some .webrtcOut }
  | noWebrtc (hto : toEndpoint.media.type = "webrtc") (h : ext.inviteWebrtc ≠ .returned true) (e : Exit Bool)
      (he : e ≠ .returned true) : Invited s e (s.sent ext .primary)
  | panicked (hto : toEndpoint.media.type ≠ "webrtc") (h : ext.invite .primary = .panicked) :
      Invited s .panicked (s.sent ext .primary)
  | answered (hto : toEndpoint.media.type ≠ "webrtc") (h : ext.invite .primary = .returned .answered) :
      Invited s (.returned true) (s.handed ext true)
  | refused (hto : toEndpoint.media.type ≠ "webrtc") (err : InviteError) (media : Bool)
      (h : ext.invite .primary = .returned (.failed err media)) (herr : ¬ Falls routeConf err) :
      Invited s (.returned false) (s.handed ext media)
  | fellBack (hto : toEndpoint.media.type ≠ "webrtc") (err : InviteError) (media : Bool)
      (h : ext.invite .primary = .returned (.failed err media)) (herr : Falls routeConf err) (e : Exit Bool)
      (s' : Vars) (hfell : FellBack ext cx routeConf (s.handed ext media) e s') : Invited s e s'
  | earlyStopped (hto : toEndpoint.media.type ≠ "webrtc") (h : ext.invite .primary = .returned .earlyMedia)
      (hstop : ¬ Progresses ext) (e : Exit Bool) (he : e ≠ .returned true) (s' : Vars)
      (hs' : s' = s.handed ext true ∨ s' = (s.handed ext true).progressed) : Invited s e s'
  | earlyPanicked (hto : toEndpoint.media.type ≠ "webrtc") (h : ext.invite .primary = .returned .earlyMedia)
      (hprog : Progresses ext) (hwait : ext.waitAnswer = .panicked) :
      Invited s .panicked (s.handed ext true).progressed
  | earlyAnswered (hto : toEndpoint.media.type ≠ "webrtc") (h : ext.invite .primary = .returned .earlyMedia)
      (hprog : Progresses ext) (hwait : ext.waitAnswer = .returned none) :
      Invited s (.returned true) (s.handed ext true).progressed
  | earlyRefused (hto : toEndpoint.media.type ≠ "webrtc") (h : ext.invite .primary = .returned .earlyMedia)
      (hprog : Progresses ext) (err : InviteError) (hwait : ext.waitAnswer = .returned (some err))
      (herr : ¬ Falls routeConf err) : Invited s (.returned false) (s.handed ext true).progressed
  | earlyFellBack (hto : toEndpoint.media.type ≠ "webrtc") (h : ext.invite .primary = .returned .earlyMedia)
      (hprog : Progresses ext) (err : InviteError) (hwait : ext.waitAnswer = .returned (some err))
      (herr : Falls routeConf err) (e : Exit Bool) (s' : Vars)
      (hfell : FellBack ext cx routeConf (s.handed ext true).progressed e s') : Invited s e s'

end Outcomes

section Dial

variable {ext : Externals} {cx : CallContext} {routeConf : ConfigRoute} {toEndpoint : ConfigEndpoint}
  {ds : List Deferred} {s s₁ : Vars} {Q : Bool → Frame Vars Deferred → Prop}
  {E : Exit Unit → Frame Vars Deferred → Prop}

theorem meets_dialFallback (hQ : ∀ r s', FellBack ext cx routeConf s (.returned r) s' → Q r ⟨ds, s'⟩)
    (hE : ∀ s', FellBack ext cx routeConf s .panicked s' → E .panicked ⟨ds, s'⟩) :
    (dialFallback ext cx routeConf).Meets ⟨[], s⟩ (fun r => Resumes (interp ext cx) ⟨ds, s₁⟩ Q E (.returned r))
      (Resumes (interp ext cx) ⟨ds, s₁⟩ Q E) := by
  unfold dialFallback
  rw [meets_bind, meets_read, meets_bind, meets_deferClose, meets_bind, meets_update, meets_bind]
  have hquiet : ∀ d ∈ (s.outMedia.map Deferred.closeLeg).toList ++ [], d.Quiet := by
    intro d hd
    cases hmedia : s.outMedia with
    | none => simp [hmedia] at hd
    | some l =>
        obtain rfl : d = .closeLeg l := by simpa [hmedia] using hd
        trivial
  have hclosings : ∀ owned, ((s.outMedia.map Deferred.closeLeg).toList ++ []).flatMap (closings owned) =
      (s.outMedia.map Event.closed).toList := by
    intro owned
    cases s.outMedia with
    | none => rfl
    | some l => rfl
  apply meets_inviteFallback
  · intro j s' t hout hfell
    show (do
      .update fun s => { s with outDialog := some (.fallback j), outMedia := some (.media (.fallback j)) }
      .defer_ (.closeLeg (.dialog (.fallback j)))
      pure true : Body Vars Deferred Bool Bool).Meets _ _ _
    rw [meets_bind, meets_update, meets_bind, meets_defer, meets_pure, resumes_quiet]
    · rw [List.flatMap_cons, hclosings]
      exact hQ true _ (.answered j s' t hout hfell)
    · intro d hd
      obtain rfl | hd := List.mem_cons.mp hd
      · trivial
      · exact hquiet d hd
  · intro err s' t hout hfell
    show (do
      .update fun s => { s with outDialog := none, outMedia := none }
      pure false : Body Vars Deferred Bool Bool).Meets _ _ _
    rw [meets_bind, meets_update, meets_pure, resumes_quiet hquiet, hclosings]
    exact hQ false _ (.failed s' t hout hfell)
  · intro s' t hout hfell
    rw [resumes_quiet hquiet, hclosings]
    exact hE _ (.panicked s' t hout hfell)

/-- The result of `dialOut` when it is not left, and the variables then. -/
inductive DialedOut (ext : Externals) (s : Vars) : Option InviteError → Vars → Prop where
  | answered (h : ext.invite .primary = .returned .answered) : DialedOut ext s none (s.handed ext true)
  | refused (err : InviteError) (media : Bool) (h : ext.invite .primary = .returned (.failed err media)) :
      DialedOut ext s (some err) (s.handed ext media)
  | early (h : ext.invite .primary = .returned .earlyMedia) (hprog : Progresses ext) (err : Option InviteError)
      (hwait : ext.waitAnswer = .returned err) : DialedOut ext s err (s.handed ext true).progressed

theorem meets_dialOut {Q : Option InviteError → Frame Vars Deferred → Prop}
    {E : Exit Bool → Frame Vars Deferred → Prop} (hQ : ∀ err s', DialedOut ext s err s' → Q err ⟨[], s'⟩)
    (hstop : ext.invite .primary = .returned .earlyMedia → ¬ Progresses ext → ∀ s',
      s' = s.handed ext true ∨ s' = (s.handed ext true).progressed →
      E (.returned false) ⟨[], s'⟩ ∧ E .panicked ⟨[], s'⟩)
    (hwait : ext.invite .primary = .returned .earlyMedia → Progresses ext → ext.waitAnswer = .panicked →
      E .panicked ⟨[], (s.handed ext true).progressed⟩)
    (hpanic : ext.invite .primary = .panicked → E .panicked ⟨[], s.sent ext .primary⟩) :
    (dialOut ext).Meets ⟨[], s⟩ Q E := by
  unfold dialOut
  rw [meets_bind]
  apply meets_invite
  · intro result h hmedia
    cases result with
    | answered => cases hmedia
    | earlyMedia => cases hmedia
    | failed err media =>
        obtain rfl : media = false := hmedia
        exact hQ (some err) _ (.refused err false h)
  · intro result h hmedia
    cases result with
    | answered => exact hQ none _ (.answered h)
    | earlyMedia =>
        rw [meets_bind, meets_update]
        dsimp only
        rw [meets_bind]
        apply meets_attempt
        case herr => exact fun herr => (hstop h (fun hp => by simp [hp.1] at herr) _ (.inl rfl)).1
        case hpanic => exact fun herr => (hstop h (fun hp => by simp [hp.1] at herr) _ (.inl rfl)).2
        intro hmedia
        rw [meets_bind, meets_event, meets_bind, meets_update, meets_bind]
        apply meets_attempt
        case herr => exact fun herr => (hstop h (fun hp => by simp [hp.2.1] at herr) _ (.inr rfl)).1
        case hpanic => exact fun herr => (hstop h (fun hp => by simp [hp.2.1] at herr) _ (.inr rfl)).2
        intro hin
        rw [meets_bind]
        apply meets_attempt
        case herr => exact fun herr => (hstop h (fun hp => by simp [hp.2.2] at herr) _ (.inr rfl)).1
        case hpanic => exact fun herr => (hstop h (fun hp => by simp [hp.2.2] at herr) _ (.inr rfl)).2
        intro hout
        apply meets_await
        · exact fun err hwait => hQ err _ (.early h ⟨hmedia, hin, hout⟩ err hwait)
        · exact hwait h ⟨hmedia, hin, hout⟩
    | failed err media =>
        obtain rfl : media = true := hmedia
        exact hQ (some err) _ (.refused err true h)
  · exact hpanic

theorem meets_invited (hQ : ∀ r s', Invited ext cx routeConf toEndpoint s (.returned r) s' → Q r ⟨ds, s'⟩)
    (hE : ∀ s', Invited ext cx routeConf toEndpoint s .panicked s' → E .panicked ⟨ds, s'⟩) :
    (call (interp ext cx) (invited ext cx routeConf toEndpoint) : Stmt Bool).Meets ⟨ds, s⟩ Q E := by
  rw [meets_call]
  unfold invited
  apply meets_ite
  · intro hto
    unfold dialWebrtc
    rw [meets_bind, meets_update, meets_bind]
    apply meets_attempt
    · intro h
      rw [meets_bind, meets_event, meets_bind, meets_update, meets_pure]
      exact hQ true _ (.webrtc hto h)
    · intro h
      exact hQ false _ (.noWebrtc hto (by simp [h]) _ (by simp))
    · intro h
      exact hE _ (.noWebrtc hto (by simp [h]) _ (by simp))
  · intro hto
    -- an error of the first dialog, with the ways in which it is left
    have hfailed : ∀ err s', (¬ Falls routeConf err → Q false ⟨ds, s'⟩) →
        (Falls routeConf err → ∀ e s'', FellBack ext cx routeConf s' e s'' →
          Invited ext cx routeConf toEndpoint s e s'') →
        (if routeConf.fallback.enabled && isInviteErrFallback err routeConf.fallback then
            dialFallback ext cx routeConf
          else pure false : Body Vars Deferred Bool Bool).Meets ⟨[], s'⟩
          (fun r => Resumes (interp ext cx) ⟨ds, s⟩ Q E (.returned r)) (Resumes (interp ext cx) ⟨ds, s⟩ Q E) := by
      intro err s' hrefused hfell
      apply meets_ite
      · intro herr
        apply meets_dialFallback
        · exact fun r s'' h => hQ r s'' (hfell herr _ s'' h)
        · exact fun s'' h => hE s'' (hfell herr _ s'' h)
      · exact hrefused
    rw [meets_bind]
    apply meets_dialOut
    case hstop =>
      intro h hprog s' hs'
      exact ⟨hQ false _ (.earlyStopped hto h hprog _ (by simp) _ hs'),
        hE _ (.earlyStopped hto h hprog _ (by simp) _ hs')⟩
    case hwait => exact fun h hprog hwait => hE _ (.earlyPanicked hto h hprog hwait)
    case hpanic => exact fun h => hE _ (.panicked hto h)
    intro err s' hdialed
    cases hdialed with
    | answered h => exact hQ true _ (.answered hto h)
    | refused err media h =>
        apply hfailed
        · exact fun herr => hQ false _ (.refused hto err media h herr)
        · exact fun herr e s' hfell => .fellBack hto err media h herr e s' hfell
    | early h hprog err hwait =>
        cases err with
        | none => exact hQ true _ (.earlyAnswered hto h hprog hwait)
        | some err =>
            apply hfailed
            · exact fun herr => hQ false _ (.earlyRefused hto h hprog err hwait herr)
            · exact fun herr e s' hfell => .earlyFellBack hto h hprog err hwait herr e s' hfell

/-! ### `bridgeAnswer` -/

/-- What `bridgeAnswer` has deferred when it dials. -/
def dialDeferred : List Deferred := [.writeOutCDR, .hangupOut, .closeLeg (.dialog .primary), .cancel, .deleteBridge]

/-- The variables when dialing begins. -/
def dialVars : Vars := { (({} : Vars).log (.opened (.dialog .primary))) with outDialog := some .primary }

theorem meets_dial {fromEndpoint : ConfigEndpoint} {Q : Unit → Frame Vars Deferred → Prop}
    (hidle : ext.newDialog .primary ≠ .returned true → ∀ e, E e ⟨[.cancel, .deleteBridge], {}⟩)
    (hdialed : ext.newDialog .primary = .returned true → ∀ s,
      Invited ext cx routeConf toEndpoint dialVars (.returned true) s →
      (bridgeDialed ext cx routeConf fromEndpoint).Meets ⟨dialDeferred, s⟩ Q E)
    (hstopped : ext.newDialog .primary = .returned true → ∀ e s, e ≠ .returned true →
      Invited ext cx routeConf toEndpoint dialVars e s → Q () ⟨dialDeferred, s⟩ ∧ E .panicked ⟨dialDeferred, s⟩) :
    (bridgeAnswer ext cx routeConf fromEndpoint toEndpoint).Meets ⟨[], {}⟩ Q E := by
  unfold bridgeAnswer
  rw [meets_bind, meets_defer, meets_bind, meets_defer, meets_bind]
  apply meets_newDialog
  case herr => exact fun herr => hidle (by simp [herr]) _
  case hpanic => exact fun herr => hidle (by simp [herr]) _
  intro hdialog
  rw [meets_bind, meets_update, meets_bind, meets_defer, meets_bind, meets_defer, meets_bind, meets_defer, meets_bind]
  show (call (interp ext cx) (invited ext cx routeConf toEndpoint) : Stmt Bool).Meets ⟨dialDeferred, dialVars⟩ _ _
  apply meets_invited
  · intro r s hinvited
    cases r with
    | true => exact hdialed hdialog s hinvited
    | false => exact (hstopped hdialog _ s (by simp) hinvited).1
  · intro s hinvited
    exact (hstopped hdialog _ s (by simp) hinvited).2

end Dial

end Call
