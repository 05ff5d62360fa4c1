import Diagox.Call.Dial
import Diagox.Call.Settled

/-!
# Which calls keep to the lifetimes of their legs

Most calls do. Those that do not are bridged to a fallback endpoint, whose dialog the closure `invited` closes
when it returns, or drop a media session: one that a failing `Invite` hands back, or the early media of a call
that is not answered.
-/

namespace Call

open Defer Defer.Body Configuration Cdr

/-! ### The fallback -/

/-- The variables of a call that is about to fall back: the legs that were opened are the first dialog, what its
`Invite` has handed back, and early media. -/
structure FallingBack (s : Vars) : Prop where
  opened : ∀ l, .opened l ∈ s.events ↔ l = .dialog .primary ∨ s.outMedia = some l ∨ s.earlyMedia = some l
  only_opened : ∀ e ∈ s.events, ∃ l, e = .opened l
  media : ∀ l, s.outMedia = some l → l = .media .primary
  early : ∀ l, s.earlyMedia = some l → l = .early
  unset : s.inMedia = none ∧ s.inWebrtc = none ∧ s.outWebrtc = none

section Fallback

variable {ext : Externals} {cx : CallContext} {routeConf : ConfigRoute} {fromEndpoint : ConfigEndpoint} {s s' : Vars}

theorem closed_mem_dialDeferred {owned : Nat → Bool} {l : Leg} :
    .closed l ∈ dialDeferred.flatMap (closings owned) ↔ l = .dialog .primary := by
  simp [dialDeferred, closings]

section Fell

variable {outcome : Exit (Option Nat)} {left : Prop} {s₀ : Vars} {t : List Event} {l : Leg}

theorem Fell.of_opened (h : Fell ext outcome left s₀ s' t) (hl : .opened l ∈ t) :
    ∃ j, l = .dialog (.fallback j) ∨ l = .media (.fallback j) := by
  obtain ⟨j, hj | hj | ⟨hj, -⟩⟩ := h.legs _ hl
  · exact ⟨j, .inl (Event.opened.inj hj)⟩
  · exact ⟨j, .inr (Event.opened.inj hj)⟩
  · cases hj

theorem Fell.of_closed (h : Fell ext outcome left s₀ s' t) (hl : .closed l ∈ t) :
    ∃ j, l = .dialog (.fallback j) ∧ outcome ≠ .returned (some j) := by
  obtain ⟨j, hj | hj | ⟨hj, hne⟩⟩ := h.legs _ hl
  · cases hj
  · cases hj
  · exact ⟨j, Event.closed.inj hj, hne⟩

theorem FallingBack.opened_iff (hs : FallingBack s) {c : List Event}
    (hc : ∀ e ∈ c, ∃ l, e = .closed l) : .opened l ∈ s.events ++ t ++ c ↔
      (l = .dialog .primary ∨ s.outMedia = some l ∨ s.earlyMedia = some l) ∨ .opened l ∈ t := by
  have hclosed : .opened l ∉ c := by
    intro hl
    obtain ⟨l', hl'⟩ := hc _ hl
    cases hl'
  simp only [List.mem_append, hclosed, or_false, hs.opened]

theorem FallingBack.closed_iff (hs : FallingBack s) {c : List Event} :
    .closed l ∈ s.events ++ t ++ c ↔ .closed l ∈ t ∨ .closed l ∈ c := by
  have hclosed : .closed l ∉ s.events := by
    intro hl
    obtain ⟨l', hl'⟩ := hs.only_opened _ hl
    cases hl'
  simp only [List.mem_append, hclosed, false_or]

theorem Fell.quiet (hs : FallingBack s) (h : Fell ext outcome left s₀ s' t) {c : List Event}
    (hc : ∀ e ∈ c, ∃ l, e = .closed l) :
    ∀ e ∈ s.events ++ t ++ c, (∃ l, e = .opened l) ∨ ∃ l, e = .closed l := by
  intro e he
  obtain he | he := List.mem_append.mp he
  · obtain he | he := List.mem_append.mp he
    · exact .inl (hs.only_opened e he)
    · obtain ⟨j, rfl | rfl | ⟨rfl, -⟩⟩ := h.legs e he
      · exact .inl ⟨_, rfl⟩
      · exact .inl ⟨_, rfl⟩
      · exact .inr ⟨_, rfl⟩
  · exact .inr (hc e he)

theorem FallingBack.eq_closed (hs : FallingBack s) {e : Event} (he : e ∈ (s.outMedia.map Event.closed).toList) :
    e = .closed (.media .primary) := by
  cases hmedia : s.outMedia with
  | none => simp [hmedia] at he
  | some l =>
      cases hs.media l hmedia
      simpa [hmedia] using he

theorem Fell.not_settled (hs : FallingBack s) (h : Fell ext outcome left s₀ s' t)
    (hne : ∀ j, outcome ≠ .returned (some j)) {v : Vars}
    (hv : v.events = s.events ++ t ++ (s.outMedia.map Event.closed).toList) :
    KeepsOpen v.events ∧ Settled ⟨dialDeferred, v⟩ ↔ ¬ left ∧ s.earlyMedia = none := by
  have hc : ∀ e ∈ (s.outMedia.map Event.closed).toList, ∃ l, e = .closed l :=
    fun e he => ⟨_, hs.eq_closed he⟩
  have hkeeps : KeepsOpen v.events := by
    apply keepsOpen_of_not_mem
    rw [hv]
    intro hmem
    obtain ⟨l, hl⟩ | ⟨l, hl⟩ := h.quiet hs hc _ hmem
    · cases hl
    · cases hl
  have hsettled : Settled ⟨dialDeferred, v⟩ ↔ ∀ l,
      (l = .dialog .primary ∨ s.outMedia = some l ∨ s.earlyMedia = some l) ∨ .opened l ∈ t →
        (.closed l ∈ t ∨ .closed l ∈ (s.outMedia.map Event.closed).toList) ∨ l = .dialog .primary := by
    unfold Settled
    simp only [hv, hs.opened_iff hc, hs.closed_iff, closed_mem_dialDeferred]
  rw [hsettled]
  constructor
  · rintro ⟨-, hall⟩
    constructor
    · intro hleft
      obtain ⟨j, hj, -⟩ := h.media.mp hleft
      obtain (hl | hl) | hl := hall _ (.inr hj)
      · obtain ⟨_, hl', -⟩ := h.of_closed hl
        cases hl'
      · cases hs.eq_closed hl
      · cases hl
    · cases hearly : s.earlyMedia with
      | none => rfl
      | some l =>
          cases hs.early l hearly
          obtain (hl | hl) | hl := hall _ (.inl (.inr (.inr hearly)))
          · obtain ⟨_, hl', -⟩ := h.of_closed hl
            cases hl'
          · cases hs.eq_closed hl
          · cases hl
  · rintro ⟨hleft, hearly⟩
    refine ⟨hkeeps, ?_⟩
    rintro l ((rfl | hl | hl) | hl)
    · exact .inr rfl
    · exact .inl (.inr (by simp [hl]))
    · simp [hearly] at hl
    · obtain ⟨j, rfl | rfl⟩ := h.of_opened hl
      · exact .inl (.inl (h.closed j hl (hne j)))
      · exact absurd (h.media.mpr ⟨j, hl, hne j⟩) hleft

end Fell

theorem FellBack.not_settled {e : Exit Bool} (hs : FallingBack s) (h : FellBack ext cx routeConf s e s')
    (he : e ≠ .returned true) : KeepsOpen s'.events ∧ Settled ⟨dialDeferred, s'⟩ ↔
      ¬ LeavesMedia ext cx routeConf 0 routeConf.fallback.endpoints ∧ s.earlyMedia = none := by
  cases h with
  | answered j s' t hout hfell => exact absurd rfl he
  | failed s' t hout hfell =>
      apply hfell.not_settled hs (by simp)
      rw [hfell.vars]
  | panicked s' t hout hfell =>
      apply hfell.not_settled hs (by simp)
      rw [hfell.vars]

theorem FellBack.outcome_ne {e : Exit Bool} (h : FellBack ext cx routeConf s e s') (he : e ≠ .returned true)
    (j : Nat) : fallbackOutcome ext cx routeConf 0 routeConf.fallback.endpoints ≠ .returned (some j) := by
  cases h with
  | answered j s' t hout hfell => exact absurd rfl he
  | failed s' t hout hfell => simp [hout]
  | panicked s' t hout hfell => simp [hout]

/-- The variables of a call that has fallen back to turn `j`, which was answered. -/
structure FellBackTo (ext : Externals) (left : Prop) (s v : Vars) (t : List Event) (j : Nat) : Prop where
  fell : ∃ x, Fell ext (.returned (some j)) left { s with outMedia := none } x t
  events : v.events = s.events ++ t ++ .closed (.dialog (.fallback j)) :: (s.outMedia.map Event.closed).toList
  outDialog : v.outDialog = some (.fallback j)
  outMedia : v.outMedia = some (.media (.fallback j))
  earlyMedia : v.earlyMedia = s.earlyMedia
  unset : v.inMedia = none ∧ v.inWebrtc = none ∧ v.outWebrtc = none

section FellBackTo

variable {left : Prop} {v : Vars} {t : List Event} {j : Nat} {l : Leg}

theorem FellBackTo.of_fellBack (hs : FallingBack s) (h : FellBack ext cx routeConf s (.returned true) s') :
    ∃ j t, fallbackOutcome ext cx routeConf 0 routeConf.fallback.endpoints = .returned (some j) ∧
      FellBackTo ext (LeavesMedia ext cx routeConf 0 routeConf.fallback.endpoints) s s' t j := by
  cases h with
  | answered j x t hout hfell =>
      refine ⟨j, t, hout, ⟨x, hfell⟩, ?_, rfl, rfl, ?_, ?_⟩
      · rw [hfell.vars]
      · show x.earlyMedia = s.earlyMedia
        rw [hfell.vars]
      · show x.inMedia = none ∧ x.inWebrtc = none ∧ x.outWebrtc = none
        rw [hfell.vars]
        exact hs.unset

theorem FellBackTo.only_closes (hs : FallingBack s) :
    ∀ e ∈ Event.closed (.dialog (.fallback j)) :: (s.outMedia.map Event.closed).toList, ∃ l, e = .closed l := by
  intro e he
  obtain rfl | he := List.mem_cons.mp he
  · exact ⟨_, rfl⟩
  · exact ⟨_, hs.eq_closed he⟩

theorem FellBackTo.of_closed (hs : FallingBack s) (h : FellBackTo ext left s v t j) (hl : .closed l ∈ v.events) :
    l = .media .primary ∨ ∃ k, l = .dialog (.fallback k) := by
  obtain ⟨x, hfell⟩ := h.fell
  rw [h.events] at hl
  obtain hl | hl := hs.closed_iff.mp hl
  · obtain ⟨k, rfl, -⟩ := hfell.of_closed hl
    exact .inr ⟨k, rfl⟩
  · obtain hl | hl := List.mem_cons.mp hl
    · exact .inr ⟨j, Event.closed.inj hl⟩
    · exact .inl (Event.closed.inj (hs.eq_closed hl))

theorem FellBackTo.opened_iff (hs : FallingBack s) (h : FellBackTo ext left s v t j) : .opened l ∈ v.events ↔
    (l = .dialog .primary ∨ s.outMedia = some l ∨ s.earlyMedia = some l) ∨ .opened l ∈ t := by
  rw [h.events]
  exact hs.opened_iff (only_closes hs)

theorem FellBackTo.dialed (hs : FallingBack s) (h : FellBackTo ext left s v t j) : Dialed v (.fallback j) := by
  obtain ⟨x, hfell⟩ := h.fell
  constructor
  case outDialog => exact h.outDialog
  case inMedia => exact h.unset.1
  case inWebrtc => exact h.unset.2.1
  case quiet =>
    rw [h.events]
    exact hfell.quiet hs (only_closes hs)
  case outbound =>
    intro l hl hmem
    have hl : l = .media (.fallback j) := by simpa [outboundLeg, h.unset.2.2, h.outMedia, eq_comm] using hl
    obtain heq | ⟨k, heq⟩ := h.of_closed hs hmem
    · simp [hl] at heq
    · simp [hl] at heq
  case early =>
    intro l hl
    exact hs.early l (h.earlyMedia ▸ hl)
  case not_closed =>
    refine ⟨fun hmem => ?_, fun hmem => ?_, fun hmem => ?_⟩
    all_goals
      obtain heq | ⟨k, heq⟩ := h.of_closed hs hmem
      · cases heq
      · cases heq
  case not_answered =>
    intro hmem
    obtain (heq | heq | heq) | hmem := (h.opened_iff hs).mp hmem
    · cases heq
    · cases hs.media _ heq
    · cases hs.early _ heq
    · obtain ⟨k, heq | heq⟩ := hfell.of_opened hmem
      · cases heq
      · cases heq

theorem FellBackTo.mem_closers (h : FellBackTo ext left s v t j) :
    .closed l ∈ (outboundClosers v ++ dialDeferred).flatMap (closings v.owned) ↔
      l = .media (.fallback j) ∨ l = .dialog .primary := by
  have hclosers : outboundClosers v = [.closeLeg (.media (.fallback j))] := by
    simp [outboundClosers, h.unset.2.2, h.outMedia]
  rw [hclosers, List.flatMap_append, List.mem_append, closed_mem_dialDeferred]
  simp [closings]

theorem eq_inboundLeg (hs : FallingBack s) (h : FellBackTo ext left s v t j) :
    inboundLeg fromEndpoint v = .webrtcIn ∨ inboundLeg fromEndpoint v = .answer ∨
      inboundLeg fromEndpoint v = .early := by
  unfold inboundLeg
  split_ifs
  · exact .inl rfl
  · cases hearly : v.earlyMedia with
    | none => exact .inr (.inl rfl)
    | some l => exact .inr (.inr (hs.early l (h.earlyMedia ▸ hearly)))

/-- The legs that are lost after a fallback: media sessions of turns that failed, and early media. -/
theorem FellBackTo.legs_iff (hs : FallingBack s) (h : FellBackTo ext left s v t j) :
    (∀ l, .opened l ∈ v.events → .closed l ∈ v.events ∨
      .closed l ∈ (outboundClosers v ++ dialDeferred).flatMap (closings v.owned) ∨
      l = inboundLeg fromEndpoint v ∧ Answers ext fromEndpoint v.earlyMedia.isSome) ↔
    ¬ left ∧ (s.earlyMedia.isSome → fromEndpoint.media.type ≠ "webrtc" ∧ Answers ext fromEndpoint true) := by
  obtain ⟨x, hfell⟩ := h.fell
  constructor
  · intro hall
    constructor
    · intro hleft
      obtain ⟨k, hk, hne⟩ := hfell.media.mp hleft
      obtain hl | hl | ⟨hl, -⟩ := hall _ ((h.opened_iff hs).mpr (.inr hk))
      · obtain hl | ⟨_, hl⟩ := h.of_closed hs hl
        · cases hl
        · cases hl
      · obtain hl | hl := h.mem_closers.mp hl
        · cases hl
          exact hne rfl
        · cases hl
      · obtain heq | heq | heq := eq_inboundLeg hs h
        · cases hl.trans heq
        · cases hl.trans heq
        · cases hl.trans heq
    · intro hearly
      obtain ⟨l, hl⟩ := Option.isSome_iff_exists.mp hearly
      cases hs.early l hl
      obtain hmem | hmem | ⟨hin, hanswers⟩ := hall _ ((h.opened_iff hs).mpr (.inl (.inr (.inr hl))))
      · obtain heq | ⟨_, heq⟩ := h.of_closed hs hmem
        · cases heq
        · cases heq
      · obtain heq | heq := h.mem_closers.mp hmem
        · cases heq
        · cases heq
      · constructor
        · intro hmedia
          simp [inboundLeg, hmedia] at hin
        · simpa [h.earlyMedia, hl] using hanswers
  · rintro ⟨hleft, hearly⟩ l hl
    obtain (rfl | hl | hl) | hl := (h.opened_iff hs).mp hl
    · exact .inr (.inl (h.mem_closers.mpr (.inr rfl)))
    · left
      rw [h.events]
      exact List.mem_append_right _ (List.mem_cons_of_mem _ (by simp [hl]))
    · cases hs.early l hl
      obtain ⟨hmedia, hanswers⟩ := hearly (by simp [hl])
      refine .inr (.inr ⟨?_, ?_⟩)
      · simp [inboundLeg, hmedia, h.earlyMedia, hl]
      · simpa [h.earlyMedia, hl] using hanswers
    · obtain ⟨k, rfl | rfl⟩ := hfell.of_opened hl
      · left
        rw [h.events]
        by_cases hk : k = j
        · subst hk
          exact List.mem_append_right _ List.mem_cons_self
        · have hclosed := hfell.closed k hl (by simpa using Ne.symm hk)
          exact List.mem_append_left _ (List.mem_append_right _ hclosed)
      · by_cases hk : k = j
        · subst hk
          exact .inr (.inl (h.mem_closers.mpr (.inl rfl)))
        · exact absurd (hfell.media.mpr ⟨k, hl, by simpa using Ne.symm hk⟩) hleft

theorem FellBackTo.kept_iff (hs : FallingBack s) (h : FellBackTo ext left s v t j) :
    Kept ext routeConf fromEndpoint dialDeferred v (.fallback j) ↔
      (¬ left ∧ (s.earlyMedia.isSome → fromEndpoint.media.type ≠ "webrtc" ∧ Answers ext fromEndpoint true)) ∧
      (s.earlyMedia = none → ¬ LosesAnswer ext fromEndpoint) ∧
      ¬ (Answers ext fromEndpoint s.earlyMedia.isSome ∧ Bridges ext routeConf) := by
  have hclosed : .closed (.dialog (.fallback j)) ∈ v.events := by
    rw [h.events]
    exact List.mem_append_right _ List.mem_cons_self
  unfold Kept
  rw [h.legs_iff hs, h.earlyMedia]
  simp only [hclosed, not_true_eq_false, imp_false, not_and]

end FellBackTo

end Fallback

/-! ### Whole calls -/

section Condition

variable (ext : Externals) (cx : CallContext) (routeConf : ConfigRoute) (fromEndpoint toEndpoint : ConfigEndpoint)

/-- A dialog that falls back keeps its legs: no failing turn is handed a media session, and the call does not
come to the end of the wait on the dialog of the turn that is answered. -/
def FallbackKeeps : Prop :=
  ¬ LeavesMedia ext cx routeConf 0 routeConf.fallback.endpoints ∧
    ∀ j, fallbackOutcome ext cx routeConf 0 routeConf.fallback.endpoints = .returned (some j) →
      ¬ LosesAnswer ext fromEndpoint ∧ ¬ (Answers ext fromEndpoint false ∧ Bridges ext routeConf)

/-- The same after early media, which has to be answered to be closed. -/
def EarlyFallbackKeeps : Prop :=
  ¬ LeavesMedia ext cx routeConf 0 routeConf.fallback.endpoints ∧
    (∃ j, fallbackOutcome ext cx routeConf 0 routeConf.fallback.endpoints = .returned (some j)) ∧
    fromEndpoint.media.type ≠ "webrtc" ∧ Answers ext fromEndpoint true ∧ ¬ Bridges ext routeConf

/-- The ends of the external calls with which `bridgeAnswer` keeps to the lifetimes of its legs. -/
def KeepsLegs : Prop :=
  ext.newDialog .primary = .returned true →
    if toEndpoint.media.type = "webrtc" then ext.inviteWebrtc = .returned true → ¬ LosesAnswer ext fromEndpoint
    else match ext.invite .primary with
      | .panicked => True
      | .returned .answered => ¬ LosesAnswer ext fromEndpoint
      | .returned (.failed err media) =>
          if Falls routeConf err then FallbackKeeps ext cx routeConf fromEndpoint else media = false
      | .returned .earlyMedia =>
          Progresses ext ∧ match ext.waitAnswer with
            | .panicked => False
            | .returned none => fromEndpoint.media.type ≠ "webrtc" ∧ Answers ext fromEndpoint true
            | .returned (some err) => Falls routeConf err ∧ EarlyFallbackKeeps ext cx routeConf fromEndpoint

end Condition

section Run

variable {ext : Externals} {cx : CallContext} {routeConf : ConfigRoute} {fromEndpoint toEndpoint : ConfigEndpoint}
  {s : Vars}

theorem fallingBack_handed (media : Bool) : FallingBack (dialVars.handed ext media) := by
  cases media with
  | true => constructor <;> simp [dialVars, Vars.handed, Vars.log, Vars.sent, eq_comm]
  | false => constructor <;> simp [dialVars, Vars.handed, Vars.log, Vars.sent]

theorem fallingBack_progressed : FallingBack (dialVars.handed ext true).progressed := by
  constructor <;> simp [dialVars, Vars.handed, Vars.log, Vars.sent, Vars.progressed, eq_comm]

theorem FallingBack.settled_iff (hs : FallingBack s) :
    KeepsOpen s.events ∧ Settled ⟨dialDeferred, s⟩ ↔ s.outMedia = none ∧ s.earlyMedia = none := by
  have hkeeps : KeepsOpen s.events := by
    apply keepsOpen_of_not_mem
    intro hmem
    obtain ⟨l, hl⟩ := hs.only_opened _ hmem
    cases hl
  have hclosed : ∀ l, .closed l ∉ s.events := by
    intro l hmem
    obtain ⟨l', hl⟩ := hs.only_opened _ hmem
    cases hl
  have hsettled : Settled ⟨dialDeferred, s⟩ ↔ ∀ l,
      (l = .dialog .primary ∨ s.outMedia = some l ∨ s.earlyMedia = some l) → l = .dialog .primary := by
    unfold Settled
    simp only [hs.opened, hclosed, false_or, closed_mem_dialDeferred]
  rw [hsettled]
  constructor
  · rintro ⟨-, h⟩
    constructor
    · cases hmedia : s.outMedia with
      | none => rfl
      | some l => cases (hs.media l hmedia).symm.trans (h l (.inr (.inl hmedia)))
    · cases hearly : s.earlyMedia with
      | none => rfl
      | some l => cases (hs.early l hearly).symm.trans (h l (.inr (.inr hearly)))
  · rintro ⟨hmedia, hearly⟩
    refine ⟨hkeeps, ?_⟩
    rintro l (hl | hl | hl)
    · exact hl
    · simp [hmedia] at hl
    · simp [hearly] at hl

theorem FallingBack.not_closed (hs : FallingBack s) (l : Leg) : .closed l ∉ s.events := by
  intro hmem
  obtain ⟨l', hl⟩ := hs.only_opened _ hmem
  cases hl

/-- A call whose first dialog is answered loses early media that is not. -/
theorem FallingBack.kept_iff (hs : FallingBack s) (hout : s.outDialog = some .primary) :
    Dialed s .primary ∧ .closed .answer ∉ (outboundClosers s ++ dialDeferred).flatMap (closings s.owned) ∧
      (Kept ext routeConf fromEndpoint dialDeferred s .primary ↔
        (s.earlyMedia.isSome → fromEndpoint.media.type ≠ "webrtc" ∧ Answers ext fromEndpoint true) ∧
        (s.earlyMedia = none → ¬ LosesAnswer ext fromEndpoint)) := by
  have hclosers : ∀ l, .closed l ∈ (outboundClosers s ++ dialDeferred).flatMap (closings s.owned) ↔
      s.outMedia = some l ∨ l = .dialog .primary := by
    intro l
    rw [List.flatMap_append, List.mem_append, closed_mem_dialDeferred, outboundClosers, hs.unset.2.2]
    cases s.outMedia with
    | none => simp
    | some l' => simp [closings, eq_comm]
  refine ⟨⟨hout, hs.unset.1, hs.unset.2.1, ?_, ?_, hs.early, ?_, ?_⟩, ?_, ?_⟩
  · exact fun e he => .inl (hs.only_opened e he)
  · exact fun l _ => hs.not_closed l
  · exact ⟨hs.not_closed _, hs.not_closed _, hs.not_closed _⟩
  · rw [hs.opened]
    rintro (h | h | h)
    · cases h
    · cases hs.media _ h
    · cases hs.early _ h
  · rw [hclosers]
    rintro (h | h)
    · cases hs.media _ h
    · cases h
  · have hall : (∀ l, .opened l ∈ s.events → .closed l ∈ s.events ∨
        .closed l ∈ (outboundClosers s ++ dialDeferred).flatMap (closings s.owned) ∨
        l = inboundLeg fromEndpoint s ∧ Answers ext fromEndpoint s.earlyMedia.isSome) ↔
        (s.earlyMedia.isSome → fromEndpoint.media.type ≠ "webrtc" ∧ Answers ext fromEndpoint true) := by
      simp only [hs.not_closed, false_or, hclosers, hs.opened]
      cases hearly : s.earlyMedia with
      | none =>
          simp only [Option.isSome_none, Bool.false_eq_true, false_imp_iff, iff_true]
          rintro l (hl | hl | hl)
          · exact .inl (.inr hl)
          · exact .inl (.inl hl)
          · cases hl
      | some l =>
          cases hs.early l hearly
          constructor
          · intro h _
            obtain (hl | hl) | ⟨hin, hanswers⟩ := h .early (.inr (.inr rfl))
            · cases hs.media _ hl
            · cases hl
            · refine ⟨fun hmedia => ?_, hanswers⟩
              simp [inboundLeg, hmedia] at hin
          · rintro h l (hl | hl | hl)
            · exact .inl (.inr hl)
            · exact .inl (.inl hl)
            · cases hl
              obtain ⟨hmedia, hanswers⟩ := h rfl
              exact .inr ⟨by simp [inboundLeg, hmedia, hearly], hanswers⟩
    unfold Kept
    rw [hall]
    simp only [hs.not_closed, not_false_eq_true, imp_true_iff, and_true]

theorem handed_outMedia {media : Bool} :
    (s.handed ext media).outMedia = if media then some (.media .primary) else none := by
  cases media with
  | true => rfl
  | false => rfl

theorem handed_earlyMedia {media : Bool} : (s.handed ext media).earlyMedia = s.earlyMedia := by
  cases media with
  | true => rfl
  | false => rfl

theorem meets_of_dialed {d : Dialog} {C : Prop} (hs : Dialed s d)
    (hclosers : .closed .answer ∉ (outboundClosers s ++ dialDeferred).flatMap (closings s.owned))
    (hC : Kept ext routeConf fromEndpoint dialDeferred s d ↔ C) :
    (bridgeDialed ext cx routeConf fromEndpoint).Meets ⟨dialDeferred, s⟩
      (fun _ f' => KeepsOpen f'.vars.events ∧ Settled f' ↔ C)
      (fun _ f' => KeepsOpen f'.vars.events ∧ Settled f' ↔ C) :=
  (meets_bridgeDialed hs.outDialog hs.inMedia hs.inWebrtc).mono
    (fun _ _ h => (h.lifetimes_iff hs hclosers).trans hC) (fun _ _ h => (h.lifetimes_iff hs hclosers).trans hC)

theorem Invited.not_settled (hdialog : ext.newDialog .primary = .returned true) {e : Exit Bool}
    (he : e ≠ .returned true) (h : Invited ext cx routeConf toEndpoint dialVars e s) :
    KeepsOpen s.events ∧ Settled ⟨dialDeferred, s⟩ ↔ KeepsLegs ext cx routeConf fromEndpoint toEndpoint := by
  cases h with
  | webrtc hto h => exact absurd rfl he
  | answered hto h => exact absurd rfl he
  | earlyAnswered hto h hprog hwait => exact absurd rfl he
  | noWebrtc hto h =>
      have hs : FallingBack (dialVars.sent ext .primary) := fallingBack_handed false
      rw [hs.settled_iff]
      simp [KeepsLegs, hto, h, dialVars, Vars.sent, Vars.log]
  | panicked hto h =>
      have hs : FallingBack (dialVars.sent ext .primary) := fallingBack_handed false
      rw [hs.settled_iff]
      simp [KeepsLegs, hto, h, dialVars, Vars.sent, Vars.log]
  | refused hto err media h herr =>
      rw [(fallingBack_handed media).settled_iff, handed_outMedia, handed_earlyMedia]
      simp [KeepsLegs, hdialog, hto, h, herr, dialVars, Vars.log]
  | fellBack hto err media h herr e s' hfell =>
      rw [hfell.not_settled (fallingBack_handed media) he, handed_earlyMedia]
      simp [KeepsLegs, FallbackKeeps, hdialog, hto, h, herr, hfell.outcome_ne he, dialVars, Vars.log]
  | earlyStopped hto h hstop e he' s' hs' =>
      obtain rfl | rfl := hs'
      · rw [(fallingBack_handed true).settled_iff, handed_outMedia]
        simp [KeepsLegs, hdialog, hto, h, hstop]
      · rw [fallingBack_progressed.settled_iff]
        simp [KeepsLegs, hdialog, hto, h, hstop, Vars.progressed]
  | earlyPanicked hto h hprog hwait =>
      rw [fallingBack_progressed.settled_iff]
      simp [KeepsLegs, hdialog, hto, h, hwait, Vars.progressed]
  | earlyRefused hto h hprog err hwait herr =>
      rw [fallingBack_progressed.settled_iff]
      simp [KeepsLegs, hdialog, hto, h, hwait, herr, Vars.progressed]
  | earlyFellBack hto h hprog err hwait herr e s' hfell =>
      rw [hfell.not_settled fallingBack_progressed he]
      simp [KeepsLegs, EarlyFallbackKeeps, hdialog, hto, h, hwait, hfell.outcome_ne he, Vars.progressed]

theorem Invited.kept (hdialog : ext.newDialog .primary = .returned true)
    (h : Invited ext cx routeConf toEndpoint dialVars (.returned true) s) :
    ∃ d, Dialed s d ∧ .closed .answer ∉ (outboundClosers s ++ dialDeferred).flatMap (closings s.owned) ∧
      (Kept ext routeConf fromEndpoint dialDeferred s d ↔ KeepsLegs ext cx routeConf fromEndpoint toEndpoint) := by
  cases h with
  | webrtc hto h =>
      refine ⟨.primary, ?_, ?_, ?_⟩
      · constructor <;> simp [dialVars, Vars.log, Vars.sent, outboundLeg]
      · simp [outboundClosers, dialDeferred, dialVars, Vars.log, Vars.sent, closings]
      · simp [Kept, KeepsLegs, hdialog, hto, h, outboundClosers, dialDeferred, dialVars, Vars.log, Vars.sent, closings]
  | answered hto h =>
      obtain ⟨hs, hclosers, hkept⟩ := (fallingBack_handed true).kept_iff rfl
      refine ⟨.primary, hs, hclosers, hkept.trans ?_⟩
      rw [handed_earlyMedia]
      simp [KeepsLegs, hdialog, hto, h, dialVars, Vars.log]
  | earlyAnswered hto h hprog hwait =>
      obtain ⟨hs, hclosers, hkept⟩ := fallingBack_progressed.kept_iff rfl
      refine ⟨.primary, hs, hclosers, hkept.trans ?_⟩
      simp [KeepsLegs, hdialog, hto, h, hprog, hwait, Vars.progressed]
  | noWebrtc hto h e he => exact absurd rfl he
  | earlyStopped hto h hstop e he s' hs' => exact absurd rfl he
  | fellBack hto err media h herr e s' hfell =>
      obtain ⟨j, t, hout, hback⟩ := FellBackTo.of_fellBack (fallingBack_handed media) hfell
      refine ⟨.fallback j, hback.dialed (fallingBack_handed media), ?_, ?_⟩
      · rw [hback.mem_closers]
        simp
      · rw [hback.kept_iff (fallingBack_handed media), handed_earlyMedia]
        simp [KeepsLegs, FallbackKeeps, hdialog, hto, h, herr, hout, dialVars, Vars.log]
  | earlyFellBack hto h hprog err hwait herr e s' hfell =>
      obtain ⟨j, t, hout, hback⟩ := FellBackTo.of_fellBack fallingBack_progressed hfell
      refine ⟨.fallback j, hback.dialed fallingBack_progressed, ?_, ?_⟩
      · rw [hback.mem_closers]
        simp
      · rw [hback.kept_iff fallingBack_progressed]
        simp [KeepsLegs, EarlyFallbackKeeps, hdialog, hto, h, hprog, hwait, herr, hout, Vars.progressed]
        tauto

theorem meets_bridgeAnswer : (bridgeAnswer ext cx routeConf fromEndpoint toEndpoint).Meets ⟨[], {}⟩
    (fun _ f' => KeepsOpen f'.vars.events ∧ Settled f' ↔ KeepsLegs ext cx routeConf fromEndpoint toEndpoint)
    (fun _ f' => KeepsOpen f'.vars.events ∧ Settled f' ↔ KeepsLegs ext cx routeConf fromEndpoint toEndpoint) := by
  have hidle : ext.newDialog .primary ≠ .returned true →
      (KeepsOpen ({} : Vars).events ∧ Settled ⟨[.cancel, .deleteBridge], {}⟩ ↔
        KeepsLegs ext cx routeConf fromEndpoint toEndpoint) := by
    intro hdialog
    have hlegs : KeepsLegs ext cx routeConf fromEndpoint toEndpoint := fun h => absurd h hdialog
    have hkeeps : KeepsOpen [] := keepsOpen_of_not_mem (by simp)
    simp [hlegs, hkeeps, Settled]
  apply meets_dial
  · exact fun hdialog _ => hidle hdialog
  · intro hdialog s hinvited
    obtain ⟨d, hs, hclosers, hkept⟩ := hinvited.kept hdialog
    exact meets_of_dialed hs hclosers hkept
  · intro hdialog e s he hinvited
    exact ⟨hinvited.not_settled hdialog he, hinvited.not_settled hdialog he⟩

/-- `bridgeAnswer` keeps every bridged leg open until the wait is over and closes every leg it has opened, when
and only when the external calls end in one of the ways of `KeepsLegs`. -/
theorem bridgeAnswer_lifetimes_iff (ext : Externals) (cx : CallContext) (routeConf : ConfigRoute)
    (fromEndpoint toEndpoint : ConfigEndpoint) :
    Lifetimes (run (interp ext cx) (bridgeAnswer ext cx routeConf fromEndpoint toEndpoint) {}).2.events ↔
      KeepsLegs ext cx routeConf fromEndpoint toEndpoint := by
  let P : Exit Unit → Frame Vars Deferred → Prop := fun _ f' =>
    KeepsOpen f'.vars.events ∧ Settled f' ↔ KeepsLegs ext cx routeConf fromEndpoint toEndpoint
  have hmeets : (bridgeAnswer ext cx routeConf fromEndpoint toEndpoint).Meets ⟨[], {}⟩ (fun r => P (.returned r)) P :=
    meets_bridgeAnswer
  obtain ⟨e, f', hf', hrun⟩ := run_of_meets hmeets
  rw [hrun]
  exact lifetimes_unwind.trans hf'

/-- A busy call that the endpoint `"backup"` of its fallback answers: the dialog of the fallback is closed before
the call is bridged. -/
theorem not_lifetimes : ¬ ∀ (ext : Externals) (cx : CallContext) (routeConf : ConfigRoute)
    (fromEndpoint toEndpoint : ConfigEndpoint),
    Lifetimes (run (interp ext cx) (bridgeAnswer ext cx routeConf fromEndpoint toEndpoint) {}).2.events := by
  intro h
  have hkeeps := (h (plainExternals busyInvite) { endpoints := AList.singleton "backup" { uri := "sip:backup" } }
    (busyRoute ["backup"]) {} {}).keepsOpen
  refine hkeeps
    [.opened (.dialog .primary), .opened (.dialog (.fallback 0)), .opened (.media (.fallback 0)),
      .closed (.dialog (.fallback 0)), .opened .answer, .bridged .answer, .bridged (.media (.fallback 0)),
      .bridged (.dialog (.fallback 0))]
    [.closed .answer, .closed (.media (.fallback 0)), .closed (.dialog .primary)] ?_ (.dialog (.fallback 0)) ?_ ?_
  · decide
  · simp
  · simp

end Run

end Call
