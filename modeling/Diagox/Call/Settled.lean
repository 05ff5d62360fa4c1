import Diagox.Call.Answer

/-!
# Lifetimes of the legs of a call

A leg that is bridged should be open until the wait for the end of the call is over, and every leg should be
closed when `bridgeAnswer` is left. What the deferred calls make of a frame can be read off the frame, and what
the rest of a call makes of a dialog that was answered off the variables it begins with.
-/

namespace Call

open Defer Defer.Body Configuration Cdr

/-- No leg is closed that is bridged when the wait is over. -/
def KeepsOpen (events : List Event) : Prop :=
  ∀ before after, events = before ++ .terminated :: after → ∀ l, .bridged l ∈ before → .closed l ∉ before

def ClosesAll (events : List Event) : Prop := ∀ l, .opened l ∈ events → .closed l ∈ events

/-- The events of a call that is over. -/
structure Lifetimes (events : List Event) : Prop where
  keepsOpen : KeepsOpen events
  closesAll : ClosesAll events

section Events

variable {events t : List Event}

theorem keepsOpen_of_not_mem (h : .terminated ∉ events) : KeepsOpen events := by
  rintro before after rfl
  exact absurd (List.mem_append_right before List.mem_cons_self) h

theorem keepsOpen_append (h : .terminated ∉ t) : KeepsOpen (events ++ t) ↔ KeepsOpen events := by
  constructor
  · intro hkeeps before after heq
    exact hkeeps before (after ++ t) (by rw [heq]; simp)
  · intro hkeeps before after heq
    obtain ⟨x, -, rfl⟩ | ⟨x, rfl, hx⟩ := List.append_eq_append_iff.mp heq
    · exact absurd (List.mem_append_right x List.mem_cons_self) h
    · cases x with
      | nil =>
          rw [List.nil_append] at hx
          exact absurd (hx ▸ List.mem_cons_self) h
      | cons e x =>
          obtain ⟨rfl, -⟩ := List.cons.inj hx
          exact hkeeps before x rfl

theorem keepsOpen_concat (h : .terminated ∉ events) :
    KeepsOpen (events ++ [.terminated]) ↔ ∀ l, .bridged l ∈ events → .closed l ∉ events := by
  constructor
  · intro hkeeps
    exact hkeeps events [] rfl
  · intro hopen before after heq
    obtain ⟨x, rfl, hx⟩ | ⟨x, rfl, hx⟩ := List.append_eq_append_iff.mp heq
    · cases x with
      | nil => simpa using hopen
      | cons e x => simp at hx
    · cases x with
      | nil => simpa using hopen
      | cons e x =>
          obtain ⟨rfl, -⟩ := List.cons.inj hx
          exact absurd (List.mem_append_right before List.mem_cons_self) h

end Events

/-! ### The frame a call is left with -/

/-- Every leg that was opened is closed, or its close is deferred. -/
def Settled (f : Frame Vars Deferred) : Prop :=
  ∀ l, .opened l ∈ f.vars.events →
    .closed l ∈ f.vars.events ∨ .closed l ∈ f.deferred.flatMap (closings f.vars.owned)

theorem eq_closed_of_mem_closings {owned : Nat → Bool} {ds : List Deferred} {e : Event}
    (h : e ∈ ds.flatMap (closings owned)) : ∃ l, e = .closed l := by
  obtain ⟨d, -, hd⟩ := List.mem_flatMap.mp h
  cases d with
  | closeLeg l => exact ⟨l, by simpa [closings] using hd⟩
  | closeOwned i =>
      dsimp only [closings] at hd
      split_ifs at hd
      · exact ⟨_, by simpa using hd⟩
      · cases hd
  | _ => cases hd

theorem lifetimes_unwind {ext : Externals} {cx : CallContext} {f : Frame Vars Deferred} {p : Bool} :
    Lifetimes (unwind (interp ext cx) f.deferred p f.vars).2.events ↔ KeepsOpen f.vars.events ∧ Settled f := by
  have hclosed : ∀ e ∈ f.deferred.flatMap (closings f.vars.owned), ∃ l, e = .closed l :=
    fun e he => eq_closed_of_mem_closings he
  rw [unwind_vars]
  constructor
  · rintro ⟨hkeeps, hcloses⟩
    constructor
    · rwa [keepsOpen_append] at hkeeps
      intro h
      obtain ⟨l, hl⟩ := hclosed _ h
      cases hl
    · intro l hl
      exact List.mem_append.mp (hcloses l (List.mem_append_left _ hl))
  · rintro ⟨hkeeps, hsettled⟩
    constructor
    · rwa [keepsOpen_append]
      intro h
      obtain ⟨l, hl⟩ := hclosed _ h
      cases hl
    · intro l hl
      obtain hl | hl := List.mem_append.mp hl
      · exact List.mem_append.mpr (hsettled l hl)
      · obtain ⟨l', hl'⟩ := hclosed _ hl
        cases hl'

/-! ### After dialing -/

/-- The variables of a call whose outbound dialog was answered. -/
structure Dialed (s : Vars) (d : Dialog) : Prop where
  outDialog : s.outDialog = some d
  inMedia : s.inMedia = none
  inWebrtc : s.inWebrtc = none
  quiet : ∀ e ∈ s.events, (∃ l, e = .opened l) ∨ ∃ l, e = .closed l
  outbound : ∀ l, outboundLeg s = some l → .closed l ∉ s.events
  early : ∀ l, s.earlyMedia = some l → l = .early
  not_closed : .closed .early ∉ s.events ∧ .closed .answer ∉ s.events ∧ .closed .webrtcIn ∉ s.events
  not_answered : .opened .answer ∉ s.events

section Rest

variable {ext : Externals} {routeConf : ConfigRoute} {fromEndpoint : ConfigEndpoint} {ds : List Deferred} {s : Vars}
  {d : Dialog} {f' : Frame Vars Deferred}

theorem settled_onward {g : Frame Vars Deferred} {t : List Event} (h : Onward g f' t ds) :
    Settled f' ↔ ∀ l, (.opened l ∈ g.vars.events ∨ .opened l ∈ t) →
      .closed l ∈ g.vars.events ∨ .closed l ∈ t ∨ .closed l ∈ (ds ++ g.deferred).flatMap (closings g.vars.owned) := by
  unfold Settled
  rw [h.events, h.deferred, h.owned]
  simp only [List.mem_append, or_assoc]

theorem OfRecording.closings_eq_nil (h : OfRecording ds) (owned : Nat → Bool) : ds.flatMap (closings owned) = [] := by
  rw [List.flatMap_eq_nil_iff]
  intro d hd
  obtain rfl | rfl := h d hd
  · rfl
  · rfl

theorem eq_of_mem_answerEvents {e : Event} (h : e ∈ answerEvents fromEndpoint s) :
    e = .opened (inboundLeg fromEndpoint s) := by
  unfold answerEvents at h
  unfold inboundLeg
  split_ifs at h ⊢ with hmedia hearly
  · simpa using h
  · cases h
  · have hnone : s.earlyMedia = none := by simpa using hearly
    simpa [hnone] using h

theorem Answers.not_loses (h : Answers ext fromEndpoint s.earlyMedia.isSome) :
    s.earlyMedia = none → ¬ LosesAnswer ext fromEndpoint := by
  rintro - ⟨-, hmedia, -, hsession⟩
  have := h.2
  simp [hmedia, hsession] at this

theorem settled_answered {ds' : List Deferred} {t : List Event} (ht : ∀ l, .opened l ∉ t ∧ .closed l ∉ t)
    (hrec : OfRecording ds') (hon : Onward ⟨ds, s⟩ f' (answerEvents fromEndpoint s ++ t)
      (ds' ++ .closeLeg (inboundLeg fromEndpoint s) :: outboundClosers s)) :
    Settled f' ↔ ∀ l, .opened l ∈ s.events → .closed l ∈ s.events ∨
      .closed l ∈ (outboundClosers s ++ ds).flatMap (closings s.owned) ∨ l = inboundLeg fromEndpoint s := by
  have hclosers : ∀ l, .closed l ∈
      (ds' ++ .closeLeg (inboundLeg fromEndpoint s) :: outboundClosers s ++ ds).flatMap (closings s.owned) ↔
      .closed l ∈ (outboundClosers s ++ ds).flatMap (closings s.owned) ∨ l = inboundLeg fromEndpoint s := by
    intro l
    simp only [List.append_assoc, List.flatMap_append, hrec.closings_eq_nil, List.cons_append, List.flatMap_cons,
      closings, List.nil_append, List.mem_append, List.mem_cons, Event.closed.injEq]
    exact or_comm
  rw [settled_onward hon]
  constructor
  · intro h l hl
    obtain h | h | h := h l (.inl hl)
    · exact .inl h
    · obtain h | h := List.mem_append.mp h
      · cases eq_of_mem_answerEvents h
      · exact absurd h (ht l).2
    · exact .inr ((hclosers l).mp h)
  · rintro h l (hl | hl)
    · obtain h | h := h l hl
      · exact .inl h
      · exact .inr (.inr ((hclosers l).mpr h))
    · obtain hl | hl := List.mem_append.mp hl
      · cases eq_of_mem_answerEvents hl
        exact .inr (.inr ((hclosers _).mpr (.inr rfl)))
      · exact absurd hl (ht l).1

/-- Nothing that dialing has opened is lost in the rest of a call, nor closed before the wait is over. -/
def Kept (ext : Externals) (routeConf : ConfigRoute) (fromEndpoint : ConfigEndpoint) (ds : List Deferred) (s : Vars)
    (d : Dialog) : Prop :=
  (∀ l, .opened l ∈ s.events → .closed l ∈ s.events ∨
    .closed l ∈ (outboundClosers s ++ ds).flatMap (closings s.owned) ∨
    l = inboundLeg fromEndpoint s ∧ Answers ext fromEndpoint s.earlyMedia.isSome) ∧
  (s.earlyMedia = none → ¬ LosesAnswer ext fromEndpoint) ∧
  (Answers ext fromEndpoint s.earlyMedia.isSome → Bridges ext routeConf → .closed (.dialog d) ∉ s.events)

theorem Dialed.not_terminated (hs : Dialed s d) : .terminated ∉ s.events := by
  intro hmem
  obtain ⟨l, hl⟩ | ⟨l, hl⟩ := hs.quiet _ hmem
  · cases hl
  · cases hl

theorem Dialed.bridged_iff (hs : Dialed s d) {t : List Event} {l : Leg} :
    .bridged l ∈ s.events ++ (answerEvents fromEndpoint s ++ t) ↔ .bridged l ∈ t := by
  constructor
  · intro hmem
    obtain hmem | hmem := List.mem_append.mp hmem
    · obtain ⟨l', hl⟩ | ⟨l', hl⟩ := hs.quiet _ hmem
      · cases hl
      · cases hl
    · obtain hmem | hmem := List.mem_append.mp hmem
      · cases eq_of_mem_answerEvents hmem
      · exact hmem
  · intro hmem
    exact List.mem_append_right _ (List.mem_append_right _ hmem)

theorem closed_iff_of_bridge {t : List Event} (ht : ∀ l, .closed l ∉ t) {l : Leg} :
    .closed l ∈ s.events ++ (answerEvents fromEndpoint s ++ t) ↔ .closed l ∈ s.events := by
  constructor
  · intro hmem
    obtain hmem | hmem := List.mem_append.mp hmem
    · exact hmem
    · obtain hmem | hmem := List.mem_append.mp hmem
      · cases eq_of_mem_answerEvents hmem
      · exact absurd hmem (ht l)
  · exact List.mem_append_left _

theorem Dialed.terminated_notMem (hs : Dialed s d) {t : List Event} (ht : .terminated ∉ t) :
    .terminated ∉ s.events ++ (answerEvents fromEndpoint s ++ t) := by
  intro hmem
  obtain hmem | hmem := List.mem_append.mp hmem
  · exact hs.not_terminated hmem
  · obtain hmem | hmem := List.mem_append.mp hmem
    · cases eq_of_mem_answerEvents hmem
    · exact ht hmem

theorem Dialed.inbound_not_closed (hs : Dialed s d) : .closed (inboundLeg fromEndpoint s) ∉ s.events := by
  unfold inboundLeg
  split_ifs
  · exact hs.not_closed.2.2
  · cases hearly : s.earlyMedia with
    | none => exact hs.not_closed.2.1
    | some l =>
        cases hs.early l hearly
        exact hs.not_closed.1

/-- The legs of a bridge are open when the wait is over, exactly when the outbound dialog is. -/
theorem Dialed.keepsOpen_iff (hs : Dialed s d) {t : List Event}
    (ht : ∀ e ∈ t, ∃ l, e = .bridged l ∧ (l = inboundLeg fromEndpoint s ∨ outboundLeg s = some l ∨
      s.outDialog.map Leg.dialog = some l)) (hdialog : .bridged (.dialog d) ∈ t) :
    KeepsOpen (s.events ++ (answerEvents fromEndpoint s ++ t) ++ [.terminated]) ↔ .closed (.dialog d) ∉ s.events := by
  have hterminated : .terminated ∉ t := by
    intro hmem
    obtain ⟨l, hl, -⟩ := ht _ hmem
    cases hl
  have hclosed : ∀ l, .closed l ∉ t := by
    intro l hmem
    obtain ⟨l', hl, -⟩ := ht _ hmem
    cases hl
  rw [keepsOpen_concat (hs.terminated_notMem hterminated)]
  simp only [hs.bridged_iff, closed_iff_of_bridge hclosed]
  constructor
  · intro h
    exact h _ hdialog
  · intro h l hl
    obtain ⟨l', heq, hl'⟩ := ht _ hl
    cases heq
    obtain rfl | hout | hout := hl'
    · exact hs.inbound_not_closed
    · exact hs.outbound l hout
    · rw [hs.outDialog] at hout
      cases hout
      exact h

/-- Of a call that is not answered the outbound leg is closed, and what `Answer` has handed back is not. -/
theorem settled_unanswered {lost : List Event} (hs : Dialed s d)
    (hds : .closed .answer ∉ (outboundClosers s ++ ds).flatMap (closings s.owned))
    (hlost : lost = [] ∧ (s.earlyMedia.isSome ∨ ¬ LosesAnswer ext fromEndpoint) ∨
      lost = [.opened .answer] ∧ s.earlyMedia = none ∧ LosesAnswer ext fromEndpoint)
    (hon : Onward ⟨ds, s⟩ f' lost (outboundClosers s)) :
    Settled f' ↔ (∀ l, .opened l ∈ s.events → .closed l ∈ s.events ∨
        .closed l ∈ (outboundClosers s ++ ds).flatMap (closings s.owned)) ∧
      (s.earlyMedia = none → ¬ LosesAnswer ext fromEndpoint) := by
  rw [settled_onward hon]
  obtain ⟨rfl, hlost⟩ | ⟨rfl, hearly, hloses⟩ := hlost
  · constructor
    · intro h
      constructor
      · intro l hl
        simpa using h l (.inl hl)
      · intro hnone
        simpa [hnone] using hlost
    · rintro ⟨h, -⟩ l hl
      simpa using h l (by simpa using hl)
  · constructor
    · intro h
      -- nothing closes what `Answer` has handed back
      obtain h | h | h := h .answer (.inr (by simp))
      · exact absurd h hs.not_closed.2.1
      · simp at h
      · exact absurd h hds
    · rintro ⟨-, h⟩
      exact absurd hloses (h hearly)

theorem not_owned_of_bridged {t : List Event} (ht : ∀ e ∈ t, ∃ l, e = .bridged l) (l : Leg) :
    .opened l ∉ t ∧ .closed l ∉ t := by
  constructor
  · intro hmem
    obtain ⟨l', hl⟩ := ht _ hmem
    cases hl
  · intro hmem
    obtain ⟨l', hl⟩ := ht _ hmem
    cases hl

theorem Ended.lifetimes_iff (hs : Dialed s d)
    (hds : .closed .answer ∉ (outboundClosers s ++ ds).flatMap (closings s.owned))
    (h : Ended ext routeConf fromEndpoint ⟨ds, s⟩ f') :
    KeepsOpen f'.vars.events ∧ Settled f' ↔
      Kept ext routeConf fromEndpoint ds s d := by
  unfold Kept
  cases h with
  | unanswered lost hanswers hlost hon =>
      have hkeeps : KeepsOpen f'.vars.events := by
        apply keepsOpen_of_not_mem
        rw [hon.events]
        obtain ⟨rfl, -⟩ | ⟨rfl, -⟩ := hlost
        · simpa using hs.not_terminated
        · simpa using hs.not_terminated
      have hanswers' : ¬ Answers ext fromEndpoint s.earlyMedia.isSome := hanswers
      rw [settled_unanswered hs hds hlost hon]
      simp only [hkeeps, hanswers', true_and, and_false, or_false, false_imp_iff, and_true]
  | stopped t ds' hanswers hbridges ht hrec hon =>
      have hkeeps : KeepsOpen f'.vars.events := by
        apply keepsOpen_of_not_mem
        rw [hon.events]
        refine hs.terminated_notMem fun hmem => ?_
        obtain ⟨l, hl⟩ := ht _ hmem
        cases hl
      have hanswers' : Answers ext fromEndpoint s.earlyMedia.isSome := hanswers
      rw [settled_answered (not_owned_of_bridged ht) hrec hon]
      simp only [hkeeps, hanswers', hbridges, true_and, and_true, false_imp_iff, imp_true_iff]
      exact (and_iff_left hanswers'.not_loses).symm
  | ended t ds' hanswers hbridges ht hdialog hrec hon =>
      have hanswers' : Answers ext fromEndpoint s.earlyMedia.isSome := hanswers
      have hbridged : ∀ e ∈ t, ∃ l, e = .bridged l := by
        intro e he
        obtain ⟨l, hl, -⟩ := ht e he
        exact ⟨l, hl⟩
      have ht' : ∀ l, .opened l ∉ t ++ [.terminated] ∧ .closed l ∉ t ++ [.terminated] := fun l => by
        simpa using not_owned_of_bridged hbridged l
      have hkeeps : KeepsOpen f'.vars.events ↔ .closed (.dialog d) ∉ s.events := by
        rw [← hs.keepsOpen_iff ht (hdialog d hs.outDialog), hon.events]
        simp only [List.append_assoc]
      rw [settled_answered ht' hrec (by simpa using hon), hkeeps]
      simp only [hanswers', hbridges, and_true, true_implies]
      have hkept := hanswers'.not_loses
      tauto

end Rest

end Call
