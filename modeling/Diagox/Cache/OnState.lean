import Diagox.Cache.File

/-!
# The dialog cache and the state of a dialog

`PBX.registerOnStateDialog` of `pbx.go`, beside the goroutine that changes the state of the dialog. It registers a
callback, loads the state, and does to the cache what the callback would do for this state. When it has loaded
`DialogStateConfirmed` and the dialog ends before it stores, the entry comes after its deletion and stays.
-/

namespace Cache

open Configuration Run

inductive DialogState where
  | initial
  | established
  | confirmed
  | ended
  deriving DecidableEq, Repr

inductive Callback where
  | handleStateChange
  | other (n : Nat)
  deriving DecidableEq, Repr

/-- Where `registerOnStateDialog` stands. -/
inductive RegisterPhase where
  | entered
  | registered
  | loaded (s : DialogState)
  | finished
  deriving DecidableEq, Repr

structure DialogRace where
  state : DialogState := .initial
  callbacks : List Callback := []
  dialogs : StringMap DialogData := ∅
  register : RegisterPhase := .entered
  /-- The states that the dialog is still to come to. -/
  changes : List DialogState
  /-- The change under way, with the callbacks that are still to be called. -/
  calling : Option (DialogState × List Callback) := none

/-- `handleStateChange`, for the data of the dialog. -/
def handleStateChange (data : DialogData) (dialogs : StringMap DialogData) : DialogState → StringMap DialogData
  | .confirmed => CacheOp.apply dialogs (.storeDialog data)
  | .ended => CacheOp.apply dialogs (.deleteDialog data.id)
  | .initial | .established => dialogs

inductive RaceEvent where
  /-- The next step of `registerOnStateDialog`. -/
  | register
  /-- The next step of the goroutine of the dialog: a change of the state, or one callback of it. -/
  | change
  /-- An operation of the cache for another dialog. -/
  | other (op : CacheOp)
  deriving DecidableEq, Repr

variable (data : DialogData)

def registerStep (r : DialogRace) : DialogRace :=
  match r.register with
  | .entered => { r with callbacks := r.callbacks ++ [.handleStateChange], register := .registered }
  | .registered => { r with register := .loaded r.state }
  | .loaded s => { r with dialogs := handleStateChange data r.dialogs s, register := .finished }
  | .finished => r

def changeStep (r : DialogRace) : DialogRace :=
  match r.calling with
  | none =>
      match r.changes with
      | [] => r
      | s :: changes => { r with state := s, changes := changes, calling := some (s, r.callbacks) }
  | some (_, []) => { r with calling := none }
  | some (s, .handleStateChange :: callbacks) =>
      { r with dialogs := handleStateChange data r.dialogs s, calling := some (s, callbacks) }
  | some (s, .other _ :: callbacks) => { r with calling := some (s, callbacks) }

def raceStep (r : DialogRace) : RaceEvent → DialogRace
  | .register => registerStep data r
  | .change => changeStep data r
  | .other op => { r with dialogs := op.apply r.dialogs }

/-- The dialog is to end once, at last, and `registerOnStateDialog` is still to come. -/
structure DialogRace.Starts (r : DialogRace) : Prop where
  register : r.register = .entered
  callbacks : .handleStateChange ∉ r.callbacks
  calling : r.calling = none
  state : r.state ≠ .ended
  changes : ∃ before, r.changes = before ++ [.ended] ∧ .ended ∉ before

structure DialogRace.Finished (r : DialogRace) : Prop where
  register : r.register = .finished
  changes : r.changes = []
  calling : r.calling = none

/-- The dialog ends after the callback was registered, and other goroutines leave its entry alone. -/
def EndsRegistered (r : DialogRace) : RaceEvent → Prop
  | .register => True
  | .change => r.calling = none → r.changes = [.ended] → r.register ≠ .entered
  | .other op => op.id ≠ data.id

instance (r : DialogRace) : ∀ e, Decidable (EndsRegistered data r e)
  | .register => .isTrue trivial
  | .change => inferInstanceAs (Decidable (r.calling = none → r.changes = [.ended] → r.register ≠ .entered))
  | .other op => inferInstanceAs (Decidable (op.id ≠ data.id))

/-- The callback has run for the end of the dialog. -/
def DialogRace.Over (r : DialogRace) : Prop :=
  r.state = .ended ∧ ∀ x ∈ r.calling, Callback.handleStateChange ∉ x.2

instance (r : DialogRace) : Decidable r.Over :=
  inferInstanceAs (Decidable (r.state = .ended ∧ ∀ x ∈ r.calling, Callback.handleStateChange ∉ x.2))

/-- `registerOnStateDialog` does not store the dialog when the callback has run for its end. -/
def StoresInTime (r : DialogRace) (e : RaceEvent) : Prop :=
  e = .register → r.register = .loaded .confirmed → ¬ r.Over

instance (r : DialogRace) (e : RaceEvent) : Decidable (StoresInTime r e) :=
  inferInstanceAs (Decidable (e = .register → r.register = .loaded .confirmed → ¬ r.Over))

/-- The dialog has ended when no change is left, and the callback is registered by then, once. -/
structure RaceInv (r : DialogRace) : Prop where
  changes : r.state = .ended ∧ r.changes = [] ∧ r.register ≠ .entered ∨
    r.state ≠ .ended ∧ ∃ before, r.changes = before ++ [.ended] ∧ .ended ∉ before
  callbacks : r.callbacks.count .handleStateChange = if r.register = .entered then 0 else 1
  calling : ∀ x ∈ r.calling, x.1 = r.state ∧ x.2.count .handleStateChange ≤ 1

section Race

variable {data} {r : DialogRace}

theorem raceInv_of_starts (h : r.Starts) : RaceInv r where
  changes := .inr ⟨h.state, h.changes⟩
  callbacks := by rw [h.register, if_pos rfl, List.count_eq_zero_of_not_mem h.callbacks]
  calling x hx := by rw [h.calling] at hx; cases hx

theorem mem_handleStateChange {dialogs : StringMap DialogData} {s : DialogState} :
    data.id ∈ handleStateChange data dialogs s ↔ s = .confirmed ∨ s ≠ .ended ∧ data.id ∈ dialogs := by
  cases s <;> simp [handleStateChange, CacheOp.apply]

theorem mem_apply_of_ne {dialogs : StringMap DialogData} {op : CacheOp} (h : op.id ≠ data.id) :
    data.id ∈ op.apply dialogs ↔ data.id ∈ dialogs := by
  rw [← AList.lookup_isSome, ← AList.lookup_isSome, lookup_apply_of_ne h]

theorem raceInv_register (h : RaceInv r) : RaceInv (registerStep data r) := by
  unfold registerStep
  cases hphase : r.register with
  | entered =>
      have hcount := h.callbacks
      rw [hphase, if_pos rfl] at hcount
      refine ⟨h.changes.imp_left fun hended => absurd hphase hended.2.2, ?_, h.calling⟩
      show (r.callbacks ++ [Callback.handleStateChange]).count Callback.handleStateChange = 1
      rw [List.count_append, hcount, List.count_singleton_self]
  | registered =>
      refine ⟨h.changes.imp_left fun hended => ⟨hended.1, hended.2.1, by simp⟩, ?_, h.calling⟩
      simpa [hphase] using h.callbacks
  | loaded s =>
      refine ⟨h.changes.imp_left fun hended => ⟨hended.1, hended.2.1, by simp⟩, ?_, h.calling⟩
      simpa [hphase] using h.callbacks
  | finished => exact h

theorem raceInv_change (h : RaceInv r) (hends : EndsRegistered data r .change) : RaceInv (changeStep data r) := by
  unfold changeStep
  split
  · rename_i hcalling
    split
    · exact h
    · rename_i s changes hchanges
      have hcount : r.callbacks.count .handleStateChange ≤ 1 := by
        rw [h.callbacks]
        split_ifs <;> simp
      refine ⟨?_, h.callbacks, fun x hx => ?_⟩
      · obtain ⟨-, hnil, -⟩ | ⟨-, before, hbefore, hnot⟩ := h.changes
        · rw [hnil] at hchanges
          cases hchanges
        · rw [hchanges] at hbefore
          cases before with
          | nil =>
              obtain ⟨rfl, rfl⟩ := List.cons.inj hbefore
              exact .inl ⟨rfl, rfl, hends hcalling hchanges⟩
          | cons s' before =>
              obtain ⟨rfl, rfl⟩ := List.cons.inj hbefore
              exact .inr ⟨fun hs => hnot (hs ▸ List.mem_cons_self), before, rfl,
                fun hs => hnot (List.mem_cons_of_mem _ hs)⟩
      · obtain rfl := Option.some.inj hx
        exact ⟨rfl, hcount⟩
  · exact ⟨h.changes, h.callbacks, fun _ hx => by cases hx⟩
  · rename_i s callbacks hcalling
    obtain ⟨hs, hcount⟩ := h.calling _ hcalling
    refine ⟨h.changes, h.callbacks, fun x hx => ?_⟩
    obtain rfl := Option.some.inj hx
    exact ⟨hs, (List.count_le_count_cons ..).trans hcount⟩
  · rename_i s n callbacks hcalling
    obtain ⟨hs, hcount⟩ := h.calling _ hcalling
    refine ⟨h.changes, h.callbacks, fun x hx => ?_⟩
    obtain rfl := Option.some.inj hx
    exact ⟨hs, (List.count_le_count_cons ..).trans hcount⟩

theorem raceInv_step (h : RaceInv r) {e : RaceEvent} (hends : EndsRegistered data r e) :
    RaceInv (raceStep data r e) := by
  cases e with
  | register => exact raceInv_register h
  | change => exact raceInv_change h hends
  | other op => exact ⟨h.changes, h.callbacks, h.calling⟩

theorem not_over_of_mem {s : DialogState} {callbacks : List Callback} (hcalling : r.calling = some (s, callbacks))
    (hmem : Callback.handleStateChange ∈ callbacks) : ¬ r.Over :=
  fun hover => hover.2 _ hcalling hmem

theorem mem_callbacks (h : RaceInv r) (hphase : r.register ≠ .entered) : Callback.handleStateChange ∈ r.callbacks := by
  have hcount := h.callbacks
  rw [if_neg hphase] at hcount
  exact List.count_pos_iff.mp (by omega)

/-- Without a late store, no entry is left once the callback has run for the end. -/
theorem gone_step (h : RaceInv r) (hgone : r.Over → data.id ∉ r.dialogs) {e : RaceEvent}
    (hends : EndsRegistered data r e) (hintime : StoresInTime r e) :
    (raceStep data r e).Over → data.id ∉ (raceStep data r e).dialogs := by
  cases e with
  | register =>
      simp only [raceStep, registerStep]
      cases hphase : r.register with
      | entered => exact hgone
      | registered => exact hgone
      | loaded s =>
          intro hover hmem
          obtain rfl | ⟨-, hmem⟩ := mem_handleStateChange.mp hmem
          · exact hintime rfl hphase hover
          · exact hgone hover hmem
      | finished => exact hgone
  | change =>
      have hinv : RaceInv (changeStep data r) := raceInv_change h hends
      simp only [raceStep]
      unfold changeStep at hinv ⊢
      split
      · rename_i hcalling
        split
        · exact hgone
        · rename_i s changes hchanges
          simp only [hcalling, hchanges] at hinv
          intro hover
          obtain ⟨-, -, hregistered⟩ | ⟨hne, -⟩ := hinv.changes
          · have hmem := mem_callbacks hinv hregistered
            exact absurd hover (not_over_of_mem rfl hmem)
          · exact absurd hover.1 hne
      · rename_i s hcalling
        exact fun hover => hgone ⟨hover.1, fun x hx => by rw [hcalling] at hx; obtain rfl := Option.some.inj hx; simp⟩
      · rename_i s callbacks hcalling
        intro hover hmem
        have hs : s = r.state := (h.calling _ hcalling).1
        obtain rfl | ⟨hne, -⟩ := mem_handleStateChange.mp hmem
        · cases hs.trans hover.1
        · exact hne (hs.trans hover.1)
      · rename_i s n callbacks hcalling
        refine fun hover => hgone ⟨hover.1, fun x hx => ?_⟩
        rw [hcalling] at hx
        obtain rfl := Option.some.inj hx
        simpa using hover.2 _ rfl
  | other op => exact fun hover hmem => hgone hover ((mem_apply_of_ne hends).mp hmem)

/-- The callback has run for the end, and nobody is left to delete the entry. -/
structure DialogRace.Ghost (data : DialogData) (r : DialogRace) : Prop where
  ended : r.Over
  register : r.register = .finished
  entry : data.id ∈ r.dialogs

theorem ghost_of_late {e : RaceEvent} (h : ¬ StoresInTime r e) : (raceStep data r e).Ghost data := by
  rw [StoresInTime] at h
  push Not at h
  obtain ⟨rfl, hloaded, hover⟩ := h
  have hstep : registerStep data r =
      { r with dialogs := handleStateChange data r.dialogs .confirmed, register := .finished } := by
    simp only [registerStep, hloaded]
  rw [raceStep, hstep]
  exact ⟨hover, rfl, mem_handleStateChange.mpr (.inl rfl)⟩

theorem ghost_step (h : RaceInv r) (hghost : r.Ghost data) {e : RaceEvent} (hends : EndsRegistered data r e) :
    (raceStep data r e).Ghost data := by
  obtain ⟨hover, hfinished, hentry⟩ := hghost
  cases e with
  | register =>
      simp only [raceStep, registerStep, hfinished]
      exact ⟨hover, hfinished, hentry⟩
  | change =>
      simp only [raceStep]
      unfold changeStep
      split
      · obtain ⟨-, hnil, -⟩ | ⟨hne, -⟩ := h.changes
        · simp only [hnil]
          exact ⟨hover, hfinished, hentry⟩
        · exact absurd hover.1 hne
      · exact ⟨⟨hover.1, fun _ hx => by cases hx⟩, hfinished, hentry⟩
      · rename_i s callbacks hcalling
        exact absurd hover (not_over_of_mem hcalling List.mem_cons_self)
      · rename_i s n callbacks hcalling
        refine ⟨⟨hover.1, fun x hx => ?_⟩, hfinished, hentry⟩
        obtain rfl := Option.some.inj hx
        exact fun hmem => hover.2 _ hcalling (List.mem_cons_of_mem _ hmem)
  | other op => exact ⟨hover, hfinished, (mem_apply_of_ne hends).mpr hentry⟩

theorem ghost_run {events : List RaceEvent} (h : RaceInv r) (hghost : r.Ghost data)
    (hends : Permitted (raceStep data) (EndsRegistered data) r events) : (run (raceStep data) r events).Ghost data := by
  have hstep : ∀ r e, RaceInv r ∧ r.Ghost data → EndsRegistered data r e →
      RaceInv (raceStep data r e) ∧ (raceStep data r e).Ghost data :=
    fun _ _ hr he => ⟨raceInv_step hr.1 he, ghost_step hr.1 hr.2 he⟩
  exact (invariant_of_permitted (raceStep data) hstep ⟨h, hghost⟩ hends).2

theorem noGhost_of_inv {events : List RaceEvent} (h : RaceInv r) (hgone : r.Over → data.id ∉ r.dialogs)
    (hends : Permitted (raceStep data) (EndsRegistered data) r events)
    (hfinished : (run (raceStep data) r events).Finished) :
    data.id ∉ (run (raceStep data) r events).dialogs ↔ Permitted (raceStep data) StoresInTime r events := by
  induction events generalizing r with
  | nil =>
      refine iff_of_true (hgone ⟨?_, fun x hx => ?_⟩) trivial
      · obtain ⟨hended, -⟩ | ⟨-, before, hbefore, -⟩ := h.changes
        · exact hended
        · exact absurd (hfinished.changes.symm.trans hbefore) (by simp)
      · cases hfinished.calling.symm.trans hx
  | cons e events ih =>
      have hinv := raceInv_step h hends.1
      by_cases hintime : StoresInTime r e
      · rw [Permitted, and_iff_right hintime]
        exact ih hinv (gone_step h hgone hends.1 hintime) hends.2 hfinished
      · refine iff_of_false (fun hnot => hnot ?_) fun hpermitted => hintime hpermitted.1
        exact (ghost_run hinv (ghost_of_late hintime) hends.2).entry

end Race

/-- When the dialog has ended, after its callback was registered, and all have finished, the cache has no entry for it
exactly when `registerOnStateDialog` has not stored one after the callback of the end. -/
theorem noGhost_iff {r : DialogRace} (hstart : r.Starts) {events : List RaceEvent}
    (hends : Permitted (raceStep data) (EndsRegistered data) r events)
    (hfinished : (run (raceStep data) r events).Finished) :
    data.id ∉ (run (raceStep data) r events).dialogs ↔ Permitted (raceStep data) StoresInTime r events :=
  noGhost_of_inv (raceInv_of_starts hstart) (fun hover => absurd hover.1 hstart.state) hends hfinished

def establishedDialog : DialogRace := { state := .established, changes := [.confirmed, .ended] }

theorem establishedDialog_starts : establishedDialog.Starts :=
  ⟨rfl, by simp [establishedDialog], rfl, by simp [establishedDialog], [.confirmed], rfl, by simp⟩

/-- The dialog is confirmed while it is registered, and ends afterwards. -/
def answeredCall : List RaceEvent :=
  [.register, .change, .register, .change, .register, .change, .change, .change, .change]

theorem noGhost_answeredCall :
    alice.id ∉ (run (raceStep alice) establishedDialog answeredCall).dialogs ↔
      Permitted (raceStep alice) StoresInTime establishedDialog answeredCall :=
  noGhost_iff alice establishedDialog_starts (by decide) ⟨by decide, by decide, by decide⟩

/-- It has ended before what was loaded is stored. -/
def briefCall : List RaceEvent :=
  [.register, .change, .register, .change, .change, .change, .change, .change, .register]

theorem not_noGhost :
    ¬ ∀ (data : DialogData) (r : DialogRace) (events : List RaceEvent), r.Starts →
      Permitted (raceStep data) (EndsRegistered data) r events → (run (raceStep data) r events).Finished →
      data.id ∉ (run (raceStep data) r events).dialogs := by
  intro h
  exact absurd (h alice establishedDialog briefCall establishedDialog_starts (by decide)
    ⟨by decide, by decide, by decide⟩) (by decide)

end Cache
