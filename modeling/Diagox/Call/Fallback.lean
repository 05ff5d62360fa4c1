import Diagox.Call.Bridge

/-!
# The fallback loop

What the turns of `inviteFallback` come to, read off the way the calls of the SIP stack end, and what the
loop has opened and closed when it is left. A dialog of a turn is closed unless it is the one that is handed
on; a media session is never closed here.
-/

namespace Call

open Defer Defer.Body Configuration Cdr

section Turns

variable (ext : Externals) (cx : CallContext) (routeConf : ConfigRoute)

/-- What one turn comes to. `left` says that a failing `Invite` has handed back a media session. -/
inductive Turn where
  | answered
  /-- The next endpoint is tried. -/
  | refused (left : Bool)
  /-- The loop is given up. -/
  | stopped (left : Bool)
  | panicked
  deriving DecidableEq, Repr

def inviteTurn : Exit InviteResult → Turn
  | .panicked => .panicked
  | .returned .answered => .answered
  | .returned .earlyMedia => .stopped true
  | .returned (.failed err media) =>
      if isInviteErrFallback err routeConf.fallback then .refused media else .stopped media

def turn (i : Nat) (endName : String) : Turn :=
  match cx.endpoints.lookup endName with
  | none => .stopped false
  | some endpoint => match ext.parseUri endpoint.uri with
    | .panicked => .panicked
    | .returned false => .stopped false
    | .returned true => match ext.newDialog (.fallback i) with
      | .panicked => .panicked
      | .returned false => .stopped false
      | .returned true => inviteTurn routeConf (ext.invite (.fallback i))

/-- What the loop comes to after turn `i`, by what the turns after it would come to. -/
def Turn.outcome (i : Nat) (rest : Exit (Option Nat)) : Turn → Exit (Option Nat)
  | .answered => .returned (some i)
  | .refused _ => rest
  | .stopped _ => .returned none
  | .panicked => .panicked

/-- A media session is left over by a turn or by the turns after it. -/
def Turn.Leaves (rest : Prop) : Turn → Prop
  | .refused left => left = true ∨ rest
  | .stopped left => left = true
  | _ => False

/-- What the turns from `i` on come to: the one that is answered, none, or a panic. -/
def fallbackOutcome : (i : Nat) → List String → Exit (Option Nat)
  | _, [] => .returned none
  | i, endName :: endNames => (turn ext cx routeConf i endName).outcome i (fallbackOutcome (i + 1) endNames)

/-- A turn that is not answered is handed a media session. -/
def LeavesMedia : (i : Nat) → List String → Prop
  | _, [] => False
  | i, endName :: endNames => (turn ext cx routeConf i endName).Leaves (LeavesMedia (i + 1) endNames)

end Turns

/-! ### The loop -/

/-- The loop has gone from a frame to another in turns from `i` on, with the events `t` and the deferred
calls `ds`. -/
structure Tried (ext : Externals) (i : Nat) (outcome : Exit (Option Nat)) (left : Prop) (f f' : Frame Vars Deferred)
    (t : List Event) (ds : List Deferred) : Prop where
  vars : f'.vars =
    { f.vars with
      events := f.vars.events ++ t
      owned := f'.vars.owned
      callID := f'.vars.callID
      dialed := f'.vars.dialed }
  deferred : f'.deferred = ds ++ f.deferred
  opened : ∀ e ∈ t, ∃ j, i ≤ j ∧ (e = .opened (.dialog (.fallback j)) ∨ e = .opened (.media (.fallback j)))
  closers : ∀ d ∈ ds, d = .cancel ∨
    ∃ j, i ≤ j ∧ d = .closeOwned j ∧ f'.vars.owned j = decide (outcome ≠ .returned (some j))
  pending : ∀ j, .opened (.dialog (.fallback j)) ∈ t → .closeOwned j ∈ ds
  media : left ↔ ∃ j, .opened (.media (.fallback j)) ∈ t ∧ outcome ≠ .returned (some j)
  owned_of_lt : ∀ j, j < i → f'.vars.owned j = f.vars.owned j
  callID_of_ne : ∀ d, (∀ j, i ≤ j → d ≠ .fallback j) → f'.vars.callID d = f.vars.callID d
  answered : ∀ j, outcome = .returned (some j) → i ≤ j ∧ f'.vars.callID (.fallback j) = ext.callID (.fallback j)

section Loop

variable {ext : Externals} {cx : CallContext} {routeConf : ConfigRoute} {f f' : Frame Vars Deferred} {i : Nat}
  {outcome : Exit (Option Nat)} {left : Prop} {t : List Event} {ds : List Deferred}

theorem Tried.refl (h : ∀ j, outcome ≠ .returned (some j)) (hleft : ¬ left) : Tried ext i outcome left f f [] [] where
  vars := by simp
  deferred := rfl
  opened e he := by cases he
  closers d hd := by cases hd
  pending j hj := by cases hj
  media := by simp [hleft]
  owned_of_lt j _ := rfl
  callID_of_ne d _ := rfl
  answered j hj := absurd hj (h j)

/-- The events of turn `i` up to the result of `Invite`. -/
def turnEvents (i : Nat) (media : Bool) : List Event :=
  .opened (.dialog (.fallback i)) :: if media then [.opened (.media (.fallback i))] else []

/-- The frame of turn `i` when the result of `Invite` is there. -/
def turnFrame (ext : Externals) (f : Frame Vars Deferred) (i : Nat) (endpoint : ConfigEndpoint) (media : Bool) :
    Frame Vars Deferred where
  deferred := .cancel :: .closeOwned i :: f.deferred
  vars :=
    let s := (((f.vars.log (.opened (.dialog (.fallback i)))).setOwned i true).dial endpoint).sent ext (.fallback i)
    if media then s.log (.opened (.media (.fallback i))) else s

theorem turnFrame_vars (ext : Externals) (f : Frame Vars Deferred) (i : Nat) (endpoint : ConfigEndpoint)
    (media : Bool) :
    (turnFrame ext f i endpoint media).vars =
      { f.vars with
        events := f.vars.events ++ turnEvents i media
        owned := Function.update f.vars.owned i true
        callID := Function.update f.vars.callID (.fallback i) (ext.callID (.fallback i))
        dialed := f.vars.dialed ++ [endpoint] } := by
  cases media with
  | true => simp [turnFrame, turnEvents, Vars.log, Vars.setOwned, Vars.dial, Vars.sent]
  | false => rfl

theorem mem_turnEvents {e : Event} {media : Bool} : e ∈ turnEvents i media ↔
    e = .opened (.dialog (.fallback i)) ∨ media = true ∧ e = .opened (.media (.fallback i)) := by
  unfold turnEvents
  cases media with
  | true => simp
  | false => simp

theorem Tried.cons {endpoint : ConfigEndpoint} {media : Bool}
    (h : Tried ext (i + 1) outcome left (turnFrame ext f i endpoint media) f' t ds) :
    Tried ext i outcome (media = true ∨ left) f f' (turnEvents i media ++ t) (ds ++ [.cancel, .closeOwned i]) := by
  -- the turns that follow cannot hand on dialog `i`
  have hne : outcome ≠ .returned (some i) := by
    intro hi
    have := (h.answered i hi).1
    omega
  constructor
  case vars =>
    rw [h.vars]
    simp [turnFrame_vars]
  case deferred =>
    rw [h.deferred]
    simp [turnFrame]
  case opened =>
    intro e he
    obtain he | he := List.mem_append.mp he
    · obtain rfl | ⟨-, rfl⟩ := mem_turnEvents.mp he
      · exact ⟨i, le_refl i, .inl rfl⟩
      · exact ⟨i, le_refl i, .inr rfl⟩
    · obtain ⟨j, hj, heq⟩ := h.opened e he
      exact ⟨j, by omega, heq⟩
  case closers =>
    intro d hd
    obtain hd | hd := List.mem_append.mp hd
    · obtain hd | ⟨j, hj, hd, howned⟩ := h.closers d hd
      · exact .inl hd
      · exact .inr ⟨j, by omega, hd, howned⟩
    · simp only [List.mem_cons, List.not_mem_nil, or_false] at hd
      obtain rfl | rfl := hd
      · exact .inl rfl
      · refine .inr ⟨i, le_refl i, rfl, ?_⟩
        rw [h.owned_of_lt i (Nat.lt_succ_self i), turnFrame_vars]
        simp [hne]
  case pending =>
    intro j hj
    obtain hj | hj := List.mem_append.mp hj
    · obtain hj | ⟨-, hj⟩ := mem_turnEvents.mp hj
      · cases hj
        simp
      · cases hj
    · exact List.mem_append_left _ (h.pending j hj)
  case media =>
    rw [h.media]
    constructor
    · rintro (hmedia | ⟨j, hj, hout⟩)
      · exact ⟨i, List.mem_append_left _ (mem_turnEvents.mpr (.inr ⟨hmedia, rfl⟩)), hne⟩
      · exact ⟨j, List.mem_append_right _ hj, hout⟩
    · rintro ⟨j, hj, hout⟩
      obtain hj | hj := List.mem_append.mp hj
      · obtain hj | ⟨hmedia, -⟩ := mem_turnEvents.mp hj
        · cases hj
        · exact .inl hmedia
      · exact .inr ⟨j, hj, hout⟩
  case owned_of_lt =>
    intro j hj
    rw [h.owned_of_lt j (by omega), turnFrame_vars]
    exact Function.update_of_ne (by omega) _ _
  case callID_of_ne =>
    intro d hd
    rw [h.callID_of_ne d fun j hj => hd j (by omega), turnFrame_vars]
    exact Function.update_of_ne (hd i (le_refl i)) _ _
  case answered =>
    intro j hj
    obtain ⟨hle, hid⟩ := h.answered j hj
    exact ⟨by omega, hid⟩

/-! ### One turn -/

/-- Turn `i` gets as far as its `Invite`. -/
structure Dials (ext : Externals) (cx : CallContext) (i : Nat) (endName : String) (endpoint : ConfigEndpoint) :
    Prop where
  lookup : cx.endpoints.lookup endName = some endpoint
  parseUri : ext.parseUri endpoint.uri = .returned true
  newDialog : ext.newDialog (.fallback i) = .returned true

/-- Turn `i` ends the loop before it has a dialog. -/
inductive Undialed (ext : Externals) (cx : CallContext) (i : Nat) (endName : String) : Exit FallbackResult → Prop where
  | missing (h : cx.endpoints.lookup endName = none) :
      Undialed ext cx i endName (.returned (.error (.endpointMissing ({} : ConfigEndpoint).name)))
  | badUri (endpoint : ConfigEndpoint) (h : cx.endpoints.lookup endName = some endpoint)
      (huri : ext.parseUri endpoint.uri = .returned false) : Undialed ext cx i endName (.returned (.error .parseUri))
  | uriPanicked (endpoint : ConfigEndpoint) (h : cx.endpoints.lookup endName = some endpoint)
      (huri : ext.parseUri endpoint.uri = .panicked) : Undialed ext cx i endName .panicked
  | noDialog (endpoint : ConfigEndpoint) (h : cx.endpoints.lookup endName = some endpoint)
      (huri : ext.parseUri endpoint.uri = .returned true) (hdialog : ext.newDialog (.fallback i) = .returned false) :
      Undialed ext cx i endName (.returned (.error .newDialog))
  | dialogPanicked (endpoint : ConfigEndpoint) (h : cx.endpoints.lookup endName = some endpoint)
      (huri : ext.parseUri endpoint.uri = .returned true) (hdialog : ext.newDialog (.fallback i) = .panicked) :
      Undialed ext cx i endName .panicked

/-- The `Invite` of turn `i` fails with an error that the next endpoint is dialed for. -/
def Refused (ext : Externals) (routeConf : ConfigRoute) (i : Nat) (media : Bool) : Prop :=
  ∃ err, ext.invite (.fallback i) = .returned (.failed err media) ∧ isInviteErrFallback err routeConf.fallback = true

/-- The `Invite` of turn `i` ends the loop and is not answered. -/
inductive GivenUp (ext : Externals) (routeConf : ConfigRoute) (i : Nat) : Bool → Exit FallbackResult → Prop where
  | failed (err : InviteError) (media : Bool) (h : ext.invite (.fallback i) = .returned (.failed err media))
      (herr : ¬ isInviteErrFallback err routeConf.fallback = true) :
      GivenUp ext routeConf i media (.returned (.error (.invite err)))
  | earlyMedia (h : ext.invite (.fallback i) = .returned .earlyMedia) :
      GivenUp ext routeConf i true (.returned (.error .earlyMedia))
  | panicked (h : ext.invite (.fallback i) = .panicked) : GivenUp ext routeConf i false .panicked

section Step

variable {endName : String} {endNames : List String} {endpoint : ConfigEndpoint} {media : Bool}
  {e : Exit FallbackResult}

theorem Dials.turn (h : Dials ext cx i endName endpoint) :
    turn ext cx routeConf i endName = inviteTurn routeConf (ext.invite (.fallback i)) := by
  simp only [Call.turn, h.lookup, h.parseUri, h.newDialog]

theorem Undialed.turn (h : Undialed ext cx i endName e) :
    Call.turn ext cx routeConf i endName = .stopped false ∧ (∃ err, e = .returned (.error err)) ∨
      Call.turn ext cx routeConf i endName = .panicked ∧ e = .panicked := by
  cases h with
  | missing h => exact .inl ⟨by simp only [Call.turn, h], _, rfl⟩
  | badUri endpoint h huri => exact .inl ⟨by simp only [Call.turn, h, huri], _, rfl⟩
  | uriPanicked endpoint h huri => exact .inr ⟨by simp only [Call.turn, h, huri], rfl⟩
  | noDialog endpoint h huri hdialog => exact .inl ⟨by simp only [Call.turn, h, huri, hdialog], _, rfl⟩
  | dialogPanicked endpoint h huri hdialog => exact .inr ⟨by simp only [Call.turn, h, huri, hdialog], rfl⟩

theorem GivenUp.inviteTurn (h : GivenUp ext routeConf i media e) :
    Call.inviteTurn routeConf (ext.invite (.fallback i)) = .stopped media ∧ (∃ err, e = .returned (.error err)) ∨
      Call.inviteTurn routeConf (ext.invite (.fallback i)) = .panicked ∧ media = false ∧ e = .panicked := by
  cases h with
  | failed err media h herr =>
      rw [h]
      exact .inl ⟨if_neg herr, _, rfl⟩
  | earlyMedia h =>
      rw [h]
      exact .inl ⟨rfl, _, rfl⟩
  | panicked h =>
      rw [h]
      exact .inr ⟨rfl, rfl, rfl⟩

/-- The loop from turn `i` on: the turn ends it, or the turns after it follow. -/
theorem meets_inviteFallbackLoop_cons {P : Exit FallbackResult → Frame Vars Deferred → Prop}
    (hundialed : ∀ e, Undialed ext cx i endName e → P e f)
    (hended : ∀ endpoint media e, Dials ext cx i endName endpoint → GivenUp ext routeConf i media e →
      P e (turnFrame ext f i endpoint media))
    (hanswered : ∀ endpoint, Dials ext cx i endName endpoint → ext.invite (.fallback i) = .returned .answered →
      P (.returned (.ok (.fallback i, some (.media (.fallback i)))))
        ⟨.cancel :: .closeOwned i :: f.deferred, (turnFrame ext f i endpoint true).vars.setOwned i false⟩)
    (hrefused : ∀ endpoint media, Dials ext cx i endName endpoint → Refused ext routeConf i media →
      (inviteFallbackLoop ext cx routeConf (i + 1) endNames).Meets (turnFrame ext f i endpoint media)
        (fun r => P (.returned r)) P) :
    (inviteFallbackLoop ext cx routeConf i (endName :: endNames)).Meets f (fun r => P (.returned r)) P := by
  unfold inviteFallbackLoop
  cases hlookup : cx.endpoints.lookup endName with
  | none => exact hundialed _ (.missing hlookup)
  | some endpoint =>
      dsimp only
      rw [meets_bind]
      apply meets_attempt
      case herr => exact fun huri => hundialed _ (.badUri endpoint hlookup huri)
      case hpanic => exact fun huri => hundialed _ (.uriPanicked endpoint hlookup huri)
      intro huri
      rw [meets_bind]
      apply meets_newDialog
      case herr => exact fun hdialog => hundialed _ (.noDialog endpoint hlookup huri hdialog)
      case hpanic => exact fun hdialog => hundialed _ (.dialogPanicked endpoint hlookup huri hdialog)
      intro hdialog
      have hdials : Dials ext cx i endName endpoint := ⟨hlookup, huri, hdialog⟩
      -- a refusal goes on with the next turn, any other error ends the loop
      have hfailed : ∀ err media, ext.invite (.fallback i) = .returned (.failed err media) →
          (if isInviteErrFallback err routeConf.fallback then inviteFallbackLoop ext cx routeConf (i + 1) endNames
            else pure (.error (.invite err)) : Body _ _ _ _).Meets (turnFrame ext f i endpoint media)
            (fun r => P (.returned r)) P := by
        intro err media hresult
        apply meets_ite
        · intro herr
          exact hrefused endpoint media hdials ⟨err, hresult, herr⟩
        · intro herr
          exact hended endpoint media _ hdials (.failed err media hresult herr)
      rw [meets_bind, meets_update, meets_bind, meets_defer, meets_bind, meets_defer, meets_bind, meets_update,
        meets_bind]
      apply meets_invite
      · intro result hresult hmedia
        cases result with
        | answered => cases hmedia
        | earlyMedia => cases hmedia
        | failed err media =>
            obtain rfl : media = false := hmedia
            exact hfailed err false hresult
      · intro result hresult hmedia
        show Meets _ (turnFrame ext f i endpoint true) _ _
        cases result with
        | answered => exact hanswered endpoint hdials hresult
        | earlyMedia => exact hended endpoint true _ hdials (.earlyMedia hresult)
        | failed err media =>
            obtain rfl : media = true := hmedia
            exact hfailed err true hresult
      · intro hpanic
        exact hended endpoint false _ hdials (.panicked hpanic)

end Step

/-! ### The run of the loop -/

theorem tried_answered {endpoint : ConfigEndpoint} (hf' : f' = ⟨.cancel :: .closeOwned i :: f.deferred,
      (turnFrame ext f i endpoint true).vars.setOwned i false⟩) :
    Tried ext i (.returned (some i)) False f f' (turnEvents i true) [.cancel, .closeOwned i] := by
  subst hf'
  constructor
  case vars => simp [Vars.setOwned, turnFrame_vars]
  case deferred => rfl
  case opened =>
    intro e he
    obtain rfl | ⟨-, rfl⟩ := mem_turnEvents.mp he
    · exact ⟨i, le_refl i, .inl rfl⟩
    · exact ⟨i, le_refl i, .inr rfl⟩
  case closers =>
    intro d hd
    simp only [List.mem_cons, List.not_mem_nil, or_false] at hd
    obtain rfl | rfl := hd
    · exact .inl rfl
    · exact .inr ⟨i, le_refl i, rfl, by simp [Vars.setOwned]⟩
  case pending =>
    intro j hj
    obtain hj | ⟨-, hj⟩ := mem_turnEvents.mp hj
    · cases hj
      simp
    · cases hj
  case media =>
    simp only [false_iff, not_exists, not_and, not_not]
    intro j hj
    obtain hj | ⟨-, hj⟩ := mem_turnEvents.mp hj
    · cases hj
    · cases hj
      rfl
  case owned_of_lt =>
    intro j hj
    show Function.update (Function.update f.vars.owned i true) i false j = _
    rw [Function.update_of_ne (by omega), Function.update_of_ne (by omega)]
  case callID_of_ne =>
    intro d hd
    exact Function.update_of_ne (hd i (le_refl i)) _ _
  case answered =>
    intro j hj
    cases hj
    exact ⟨le_refl i, Function.update_self _ _ _⟩

/-- What the loop returns. -/
def Returns : Exit (Option Nat) → Exit FallbackResult → Prop
  | .returned (some j), e => e = .returned (.ok (.fallback j, some (.media (.fallback j))))
  | .returned none, e => ∃ err, e = .returned (.error err)
  | .panicked, e => e = .panicked

theorem tried_stopped {endpoint : ConfigEndpoint} {media : Bool} (h : ∀ j, outcome ≠ .returned (some j))
    (hleft : left ↔ media = true) :
    Tried ext i outcome left f (turnFrame ext f i endpoint media) (turnEvents i media) [.cancel, .closeOwned i] := by
  have hrest : Tried ext (i + 1) outcome False (turnFrame ext f i endpoint media) (turnFrame ext f i endpoint media)
      [] [] := .refl h not_false
  simpa [hleft] using hrest.cons

theorem inviteFallbackLoop_meets (ext : Externals) (cx : CallContext) (routeConf : ConfigRoute) (i : Nat)
    (endNames : List String) (f : Frame Vars Deferred) {P : Exit FallbackResult → Frame Vars Deferred → Prop}
    (hP : ∀ e f' t ds, Returns (fallbackOutcome ext cx routeConf i endNames) e →
      Tried ext i (fallbackOutcome ext cx routeConf i endNames) (LeavesMedia ext cx routeConf i endNames) f f' t ds →
      P e f') :
    (inviteFallbackLoop ext cx routeConf i endNames).Meets f (fun r => P (.returned r)) P := by
  induction endNames generalizing i f with
  | nil =>
      apply hP _ _ [] [] ⟨_, rfl⟩
      exact .refl (by simp [fallbackOutcome]) (by simp [LeavesMedia])
  | cons endName endNames ih =>
      simp only [fallbackOutcome, LeavesMedia] at hP
      apply meets_inviteFallbackLoop_cons
      case hundialed =>
        intro e hundialed
        obtain ⟨hturn, err, rfl⟩ | ⟨hturn, rfl⟩ := hundialed.turn
        · rw [hturn] at hP
          exact hP _ _ [] [] ⟨err, rfl⟩ (.refl (by simp [Turn.outcome]) (by simp [Turn.Leaves]))
        · rw [hturn] at hP
          exact hP _ _ [] [] rfl (.refl (by simp [Turn.outcome]) (by simp [Turn.Leaves]))
      case hended =>
        intro endpoint media e hdials hended
        obtain ⟨hturn, err, rfl⟩ | ⟨hturn, rfl, rfl⟩ := hended.inviteTurn
        · rw [hdials.turn, hturn] at hP
          exact hP _ _ _ _ ⟨err, rfl⟩ (tried_stopped (by simp [Turn.outcome]) Iff.rfl)
        · rw [hdials.turn, hturn] at hP
          exact hP _ _ _ _ rfl (tried_stopped (by simp [Turn.outcome]) (by simp [Turn.Leaves]))
      case hanswered =>
        intro endpoint hdials hresult
        rw [hdials.turn, hresult] at hP
        exact hP _ _ _ _ rfl (tried_answered rfl)
      case hrefused =>
        intro endpoint media hdials hrefused
        have hturn : inviteTurn routeConf (ext.invite (.fallback i)) = .refused media := by
          obtain ⟨err, hresult, herr⟩ := hrefused
          rw [hresult]
          exact if_pos herr
        apply ih
        intro e f' t ds hret htried
        rw [hdials.turn, hturn] at hP
        exact hP e f' _ _ hret htried.cons

/-! ### The call of the loop -/

/-- `inviteFallback` has taken the variables to others, with the events `t`. -/
structure Fell (ext : Externals) (outcome : Exit (Option Nat)) (left : Prop) (s s' : Vars) (t : List Event) : Prop where
  vars : s' = { s with events := s.events ++ t, owned := s'.owned, callID := s'.callID, dialed := s'.dialed }
  legs : ∀ e ∈ t, ∃ j, e = .opened (.dialog (.fallback j)) ∨ e = .opened (.media (.fallback j)) ∨
    e = .closed (.dialog (.fallback j)) ∧ outcome ≠ .returned (some j)
  closed : ∀ j, .opened (.dialog (.fallback j)) ∈ t → outcome ≠ .returned (some j) →
    .closed (.dialog (.fallback j)) ∈ t
  media : left ↔ ∃ j, .opened (.media (.fallback j)) ∈ t ∧ outcome ≠ .returned (some j)
  callID_primary : s'.callID .primary = s.callID .primary
  callID_answered : ∀ j, outcome = .returned (some j) → s'.callID (.fallback j) = ext.callID (.fallback j)

theorem Tried.quiet (h : Tried ext i outcome left f f' t ds) : ∀ d ∈ ds, d.Quiet := by
  intro d hd
  obtain rfl | ⟨j, -, rfl, -⟩ := h.closers d hd
  · trivial
  · trivial

theorem Tried.fell {s : Vars} (h : Tried ext i outcome left ⟨[], s⟩ f' t ds) :
    Fell ext outcome left s { f'.vars with events := f'.vars.events ++ ds.flatMap (closings f'.vars.owned) }
      (t ++ ds.flatMap (closings f'.vars.owned)) := by
  -- what the deferred calls close
  have hclosed : ∀ e, e ∈ ds.flatMap (closings f'.vars.owned) ↔
      ∃ j, .closeOwned j ∈ ds ∧ outcome ≠ .returned (some j) ∧ e = .closed (.dialog (.fallback j)) := by
    intro e
    rw [List.mem_flatMap]
    constructor
    · rintro ⟨d, hd, he⟩
      obtain rfl | ⟨j, -, rfl, howned⟩ := h.closers d hd
      · cases he
      · rw [closings, howned] at he
        by_cases hj : outcome = .returned (some j)
        · simp [hj] at he
        · exact ⟨j, hd, hj, by simpa [hj] using he⟩
    · rintro ⟨j, hd, hj, rfl⟩
      refine ⟨_, hd, ?_⟩
      obtain hcancel | ⟨j', -, heq, howned⟩ := h.closers _ hd
      · cases hcancel
      · cases heq
        simp [closings, howned, hj]
  constructor
  case vars =>
    rw [h.vars]
    simp
  case legs =>
    intro e he
    obtain he | he := List.mem_append.mp he
    · obtain ⟨j, -, heq | heq⟩ := h.opened e he
      · exact ⟨j, .inl heq⟩
      · exact ⟨j, .inr (.inl heq)⟩
    · obtain ⟨j, -, hj, heq⟩ := (hclosed e).mp he
      exact ⟨j, .inr (.inr ⟨heq, hj⟩)⟩
  case closed =>
    intro j hj hne
    apply List.mem_append_right
    rw [hclosed]
    refine ⟨j, h.pending j ?_, hne, rfl⟩
    obtain hj | hj := List.mem_append.mp hj
    · exact hj
    · obtain ⟨_, _, _, heq⟩ := (hclosed _).mp hj
      cases heq
  case media =>
    rw [h.media]
    constructor
    · rintro ⟨j, hj, hne⟩
      exact ⟨j, List.mem_append_left _ hj, hne⟩
    · rintro ⟨j, hj, hne⟩
      obtain hj | hj := List.mem_append.mp hj
      · exact ⟨j, hj, hne⟩
      · obtain ⟨_, _, _, heq⟩ := (hclosed _).mp hj
        cases heq
  case callID_primary => exact h.callID_of_ne .primary (by simp)
  case callID_answered =>
    intro j hj
    exact (h.answered j hj).2

theorem meets_inviteFallback {cx : CallContext} {routeConf : ConfigRoute} {ρ : Type} {s : Vars}
    {Q : FallbackResult → Frame Vars Deferred → Prop} {E : Exit ρ → Frame Vars Deferred → Prop}
    (hanswered : ∀ j s' t, fallbackOutcome ext cx routeConf 0 routeConf.fallback.endpoints = .returned (some j) →
      Fell ext (.returned (some j)) (LeavesMedia ext cx routeConf 0 routeConf.fallback.endpoints) s s' t →
      Q (.ok (.fallback j, some (.media (.fallback j)))) ⟨ds, s'⟩)
    (hfailed : ∀ err s' t, fallbackOutcome ext cx routeConf 0 routeConf.fallback.endpoints = .returned none →
      Fell ext (.returned none) (LeavesMedia ext cx routeConf 0 routeConf.fallback.endpoints) s s' t →
      Q (.error err) ⟨ds, s'⟩)
    (hpanic : ∀ s' t, fallbackOutcome ext cx routeConf 0 routeConf.fallback.endpoints = .panicked →
      Fell ext .panicked (LeavesMedia ext cx routeConf 0 routeConf.fallback.endpoints) s s' t →
      E .panicked ⟨ds, s'⟩) :
    (call (interp ext cx) (inviteFallback ext cx routeConf) : Body Vars Deferred ρ FallbackResult).Meets ⟨ds, s⟩ Q E := by
  let P : Exit FallbackResult → Frame Vars Deferred → Prop := fun e f' => ∃ t ds',
    Returns (fallbackOutcome ext cx routeConf 0 routeConf.fallback.endpoints) e ∧
    Tried ext 0 (fallbackOutcome ext cx routeConf 0 routeConf.fallback.endpoints)
      (LeavesMedia ext cx routeConf 0 routeConf.fallback.endpoints) ⟨[], s⟩ f' t ds'
  have hloop : (inviteFallback ext cx routeConf).Meets ⟨[], s⟩ (fun r => P (.returned r)) P :=
    inviteFallbackLoop_meets ext cx routeConf 0 _ _ fun e f' t ds hret htried => ⟨t, ds, hret, htried⟩
  have hresumes : ∀ e f', P e f' → Resumes (interp ext cx) ⟨ds, s⟩ Q E e f' := by
    rintro e f' ⟨t, ds', hret, htried⟩
    have hdeferred : f'.deferred = ds' := by simpa using htried.deferred
    rw [resumes_quiet (hdeferred ▸ htried.quiet), hdeferred]
    have hfell := htried.fell
    rcases hout : fallbackOutcome ext cx routeConf 0 routeConf.fallback.endpoints with (_ | j) | _
    · rw [hout] at hret hfell
      obtain ⟨err, rfl⟩ := hret
      exact hfailed err _ _ hout hfell
    · rw [hout] at hret hfell
      obtain rfl := hret
      exact hanswered j _ _ hout hfell
    · rw [hout] at hret hfell
      obtain rfl := hret
      exact hpanic _ _ hout hfell
  rw [meets_call]
  exact hloop.mono (fun r => hresumes (.returned r)) hresumes

end Loop

end Call
