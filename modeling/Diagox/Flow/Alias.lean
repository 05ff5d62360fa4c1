import Diagox.Lib.Interleave
import Mathlib.Data.List.Nodup

/-!
# The dialog alias

The dialogs of one `FlowConnection` of `flow_rpc.go`, one Lean step for each operation on the map `requestDialog`. A
call of `NewServerDialog` stores its channel under the dialog ID and then under `"last"`, and its deferred calls
delete the two entries in the opposite order. The alias is one slot for all dialogs, and whoever ends empties it.
-/

namespace Flow

open Run

/-- A channel is the number of the call that has made it. -/
abbrev FlowDialogChan := Nat

structure Dialogs.Shared where
  requestDialog : String → Option FlowDialogChan := fun _ => none
  /-- How many dialogs have been started so far. -/
  started : Nat := 0

/-- Where a call of `NewServerDialog` stands. -/
inductive DialogPhase where
  | entered
  /-- Its ID is stored: next is the alias. -/
  | stored
  /-- Started as the one after `since` others, and not ended: the loop over the requests runs. -/
  | active (since : Nat)
  /-- The alias is deleted: next is its ID. -/
  | unaliased
  | ended
  deriving DecidableEq, Repr

structure Dialog where
  id : String
  chan : FlowDialogChan
  phase : DialogPhase := .entered
  deriving DecidableEq, Repr

def Dialog.isActive (d : Dialog) : Bool :=
  match d.phase with
  | .active _ => true
  | _ => false

/-- One operation on the map. -/
def dialogStep (s : Dialogs.Shared) (d : Dialog) : Dialogs.Shared × Dialog :=
  match d.phase with
  | .entered =>
      ({ s with requestDialog := Function.update s.requestDialog d.id (some d.chan) }, { d with phase := .stored })
  | .stored =>
      ({ requestDialog := Function.update s.requestDialog "last" (some d.chan), started := s.started + 1 },
        { d with phase := .active s.started })
  | .active _ =>
      ({ s with requestDialog := Function.update s.requestDialog "last" none }, { d with phase := .unaliased })
  | .unaliased =>
      ({ s with requestDialog := Function.update s.requestDialog d.id none }, { d with phase := .ended })
  | .ended => (s, d)

abbrev Dialogs := Pool Dialogs.Shared Dialog

inductive DialogEvent where
  /-- `NewServerDialog` is called for a dialog. -/
  | call (id : String)
  | step (i : Nat)
  deriving DecidableEq, Repr

def dialogsStep (p : Dialogs) : DialogEvent → Dialogs
  | .call id => p.spawn { id := id, chan := p.threads.length }
  | .step i => p.advance dialogStep i

def Dialogs.none : Dialogs := ⟨{}, []⟩

/-- A call is for a dialog whose ID is new, and is not the alias: the SIP stack joins it of the call ID and the tags. -/
def FreshID (p : Dialogs) : DialogEvent → Prop
  | .call id => id ≠ "last" ∧ ∀ d ∈ p.threads, d.id ≠ id
  | .step _ => True

instance (p : Dialogs) : ∀ e, Decidable (FreshID p e)
  | .call id => inferInstanceAs (Decidable (id ≠ "last" ∧ ∀ d ∈ p.threads, d.id ≠ id))
  | .step _ => .isTrue trivial

/-- Of the active dialogs it is the one that was started last. -/
def MostRecent (p : Dialogs) (d : Dialog) : Prop :=
  d ∈ p.threads ∧ ∃ n, d.phase = .active n ∧ ∀ d' ∈ p.threads, ∀ n', d'.phase = .active n' → n' ≤ n

/-- What the map resolves: the IDs of the active dialogs, and the alias of the most recent one. -/
structure AliasLaw (p : Dialogs) : Prop where
  own : ∀ d ∈ p.threads, d.isActive = true → p.shared.requestDialog d.id = some d.chan
  resolves : (p.shared.requestDialog "last").isSome = true ↔ ∃ d ∈ p.threads, d.isActive = true
  recent : ∀ c, p.shared.requestDialog "last" = some c → ∃ d, MostRecent p d ∧ d.chan = c

/-- A dialog that ends is the only active one. -/
def EndsAlone (p : Dialogs) : DialogEvent → Prop
  | .call _ => True
  | .step i => ∀ d ∈ p.threads[i]?, d.isActive = true → ∀ d' ∈ p.threads, d'.isActive = true → d' = d

instance (p : Dialogs) : ∀ e, Decidable (EndsAlone p e)
  | .call _ => .isTrue trivial
  | .step i => inferInstanceAs
      (Decidable (∀ d ∈ p.threads[i]?, d.isActive = true → ∀ d' ∈ p.threads, d'.isActive = true → d' = d))

/-- The law, and what the calls under way have stored. -/
structure DialogsInv (p : Dialogs) : Prop where
  law : AliasLaw p
  ids : (p.threads.map Dialog.id).Nodup
  named : ∀ d ∈ p.threads, d.id ≠ "last"
  stored : ∀ d ∈ p.threads, d.phase = .stored → p.shared.requestDialog d.id = some d.chan
  since : ∀ d ∈ p.threads, ∀ n, d.phase = .active n → n < p.shared.started

section Law

variable {p p' : Dialogs} {i : Nat} {d : Dialog}

theorem dialogsInv_none : DialogsInv Dialogs.none where
  law := ⟨by simp [Dialogs.none], by simp [Dialogs.none], by simp [Dialogs.none]⟩
  ids := List.nodup_nil
  named := by simp [Dialogs.none]
  stored := by simp [Dialogs.none]
  since := by simp [Dialogs.none]

theorem isActive_iff : d.isActive = true ↔ ∃ n, d.phase = .active n := by
  unfold Dialog.isActive
  cases d.phase <;> simp

theorem isActive_of_phase {n : Nat} (h : d.phase = .active n) : d.isActive = true := isActive_iff.mpr ⟨n, h⟩

theorem aliasLaw_congr (hactive : ∀ d, d.isActive = true → (d ∈ p'.threads ↔ d ∈ p.threads))
    (hown : ∀ d ∈ p.threads, d.isActive = true → p'.shared.requestDialog d.id = p.shared.requestDialog d.id)
    (hlast : p'.shared.requestDialog "last" = p.shared.requestDialog "last") (h : AliasLaw p) : AliasLaw p' := by
  refine ⟨fun d hd hactive' => ?_, ?_, fun c hc => ?_⟩
  · have hd' := (hactive d hactive').mp hd
    rw [hown d hd' hactive']
    exact h.own d hd' hactive'
  · rw [hlast, h.resolves]
    refine exists_congr fun d => and_congr_left fun hactive' => ?_
    exact (hactive d hactive').symm
  · rw [hlast] at hc
    obtain ⟨d, ⟨hd, n, hphase, hlatest⟩, hchan⟩ := h.recent c hc
    refine ⟨d, ⟨(hactive d (isActive_of_phase hphase)).mpr hd, n, hphase, fun d' hd' n' hphase' => ?_⟩, hchan⟩
    exact hlatest d' ((hactive d' (isActive_of_phase hphase')).mp hd') n' hphase'

theorem dialogsInv_call (h : DialogsInv p) {id : String} (hfresh : FreshID p (.call id)) :
    DialogsInv (dialogsStep p (.call id)) := by
  let new : Dialog := { id := id, chan := p.threads.length }
  have hmem : ∀ d, d ∈ p.threads ++ [new] ↔ d ∈ p.threads ∨ d = new := by simp
  have hold : ∀ d, d.phase ≠ .entered → (d ∈ p.threads ++ [new] ↔ d ∈ p.threads) := by
    intro d hphase
    rw [hmem, or_iff_left]
    rintro rfl
    exact hphase rfl
  refine ⟨aliasLaw_congr (fun d hd => hold d ?_) (fun _ _ _ => rfl) rfl h.law, ?_, fun d hd => ?_, fun d hd hphase => ?_,
    fun d hd n hphase => ?_⟩
  · obtain ⟨n, hphase⟩ := isActive_iff.mp hd
    simp [hphase]
  · show ((p.threads ++ [new]).map Dialog.id).Nodup
    rw [List.map_append, List.map_singleton]
    refine h.ids.append (List.nodup_singleton _) (List.disjoint_singleton.mpr fun hid => ?_)
    obtain ⟨d, hd, hid⟩ := List.mem_map.mp hid
    exact hfresh.2 d hd hid
  · obtain hd | rfl := (hmem d).mp hd
    · exact h.named d hd
    · exact hfresh.1
  · exact h.stored d ((hold d (by simp [hphase])).mp hd) hphase
  · exact h.since d ((hold d (by simp [hphase])).mp hd) n hphase

theorem mem_set_dialog (h : DialogsInv p) (hi : p.threads[i]? = some d) (d' u : Dialog) :
    u ∈ p.threads.set i d' ↔ u = d' ∨ u ∈ p.threads ∧ u.id ≠ d.id := Pool.mem_set_iff h.ids hi d' u

theorem map_id_set (hi : p.threads[i]? = some d) {d' : Dialog} (hid : d'.id = d.id) :
    (p.threads.set i d').map Dialog.id = p.threads.map Dialog.id := by
  have hmap : (p.threads.map Dialog.id)[i]? = some d.id := by rw [List.getElem?_map, hi, Option.map_some]
  obtain ⟨hlt, hget⟩ := List.getElem?_eq_some_iff.mp hmap
  rw [List.map_set, hid, ← hget, List.set_getElem_self]

theorem mem_set_active (h : DialogsInv p) (hi : p.threads[i]? = some d) {d' : Dialog} (hd : d.isActive = false)
    (hd' : d'.isActive = false) (u : Dialog) (hu : u.isActive = true) :
    u ∈ p.threads.set i d' ↔ u ∈ p.threads := by
  rw [mem_set_dialog h hi]
  constructor
  · rintro (rfl | ⟨hmem, -⟩)
    · rw [hd'] at hu
      cases hu
    · exact hmem
  · refine fun hmem => .inr ⟨hmem, fun hid => ?_⟩
    obtain rfl := List.inj_on_of_nodup_map h.ids hmem (List.mem_of_getElem? hi) hid
    rw [hd] at hu
    cases hu

/-- What is left to show of a step once it keeps the law: it touches no entry of another dialog. -/
theorem dialogsInv_set (h : DialogsInv p) (hi : p.threads[i]? = some d) {s : Dialogs.Shared} {d' : Dialog}
    (hlaw : AliasLaw ⟨s, p.threads.set i d'⟩) (hid : d'.id = d.id)
    (hothers : ∀ u ∈ p.threads, u.id ≠ d.id → s.requestDialog u.id = p.shared.requestDialog u.id)
    (hstored : d'.phase = .stored → s.requestDialog d'.id = some d'.chan)
    (hsince : ∀ n, d'.phase = .active n → n < s.started) (hstarted : p.shared.started ≤ s.started) :
    DialogsInv ⟨s, p.threads.set i d'⟩ := by
  have hcases : ∀ u ∈ p.threads.set i d', u = d' ∨ u ∈ p.threads ∧ u.id ≠ d.id :=
    fun u hu => (mem_set_dialog h hi d' u).mp hu
  refine ⟨hlaw, ?_, fun u hu => ?_, fun u hu hphase => ?_, fun u hu n hphase => ?_⟩
  · show ((p.threads.set i d').map Dialog.id).Nodup
    rw [map_id_set hi hid]
    exact h.ids
  · obtain rfl | ⟨hu, -⟩ := hcases u hu
    · exact hid ▸ h.named d (List.mem_of_getElem? hi)
    · exact h.named u hu
  · obtain rfl | ⟨hu, hne⟩ := hcases u hu
    · exact hstored hphase
    · exact (hothers u hu hne).trans (h.stored u hu hphase)
  · obtain rfl | ⟨hu, -⟩ := hcases u hu
    · exact hsince n hphase
    · exact (h.since u hu n hphase).trans_le hstarted

theorem aliasLaw_set (h : DialogsInv p) (hi : p.threads[i]? = some d) {s : Dialogs.Shared} {d' : Dialog}
    (hd : d.isActive = false) (hd' : d'.isActive = false)
    (hothers : ∀ u ∈ p.threads, u.id ≠ d.id → s.requestDialog u.id = p.shared.requestDialog u.id)
    (hlast : s.requestDialog "last" = p.shared.requestDialog "last") : AliasLaw ⟨s, p.threads.set i d'⟩ := by
  refine aliasLaw_congr (mem_set_active h hi hd hd') (fun u hu hactive => hothers u hu fun hid => ?_) hlast h.law
  obtain rfl := List.inj_on_of_nodup_map h.ids hu (List.mem_of_getElem? hi) hid
  rw [hd] at hactive
  cases hactive

theorem aliasLaw_start (h : DialogsInv p) (hi : p.threads[i]? = some d) (hphase : d.phase = .stored) :
    AliasLaw ⟨(dialogStep p.shared d).1, p.threads.set i (dialogStep p.shared d).2⟩ := by
  simp only [dialogStep, hphase]
  let d' : Dialog := { d with phase := .active p.shared.started }
  have hd : d ∈ p.threads := List.mem_of_getElem? hi
  have hcases : ∀ u, u ∈ p.threads.set i d' ↔ u = d' ∨ u ∈ p.threads ∧ u.id ≠ d.id := mem_set_dialog h hi d'
  have hnew : d' ∈ p.threads.set i d' := (hcases d').mpr (.inl rfl)
  refine ⟨fun u hu hactive => ?_, ⟨fun _ => ⟨d', hnew, rfl⟩, fun _ => ?_⟩, fun c hc => ?_⟩
  · show Function.update p.shared.requestDialog "last" (some d.chan) u.id = some u.chan
    obtain rfl | ⟨hu, -⟩ := (hcases u).mp hu
    · rw [Function.update_of_ne (h.named d hd)]
      exact h.stored d hd hphase
    · rw [Function.update_of_ne (h.named u hu)]
      exact h.law.own u hu hactive
  · show (Function.update p.shared.requestDialog "last" (some d.chan) "last").isSome = true
    rw [Function.update_self]
    rfl
  · refine ⟨d', ⟨hnew, _, rfl, fun u hu n hactive => ?_⟩, ?_⟩
    · obtain rfl | ⟨hu, -⟩ := (hcases u).mp hu
      · exact (DialogPhase.active.inj hactive).ge
      · exact (h.since u hu n hactive).le
    · change Function.update p.shared.requestDialog "last" (some d.chan) "last" = some c at hc
      rw [Function.update_self] at hc
      exact Option.some.inj hc

theorem aliasLaw_end (h : DialogsInv p) (hi : p.threads[i]? = some d) {n : Nat} (hphase : d.phase = .active n)
    (halone : ∀ u ∈ p.threads, u.isActive = true → u = d) :
    AliasLaw ⟨(dialogStep p.shared d).1, p.threads.set i (dialogStep p.shared d).2⟩ := by
  simp only [dialogStep, hphase]
  have hnone : ∀ u ∈ p.threads.set i { d with phase := .unaliased }, ¬ u.isActive = true := by
    intro u hu hactive
    obtain rfl | ⟨hu, hne⟩ := (mem_set_dialog h hi _ u).mp hu
    · cases hactive
    · exact hne (congrArg Dialog.id (halone u hu hactive))
  have hlast : Function.update p.shared.requestDialog "last" none "last" = none := Function.update_self ..
  refine ⟨fun u hu hactive => absurd hactive (hnone u hu), ?_, fun c hc => ?_⟩
  · show (Function.update p.shared.requestDialog "last" none "last").isSome = true ↔ _
    rw [hlast]
    constructor
    · intro hsome
      cases hsome
    · rintro ⟨u, hu, hactive⟩
      exact absurd hactive (hnone u hu)
  · cases hlast.symm.trans hc

theorem dialogsInv_advance (h : DialogsInv p) (hi : p.threads[i]? = some d) (halone : EndsAlone p (.step i)) :
    DialogsInv ⟨(dialogStep p.shared d).1, p.threads.set i (dialogStep p.shared d).2⟩ := by
  have hd : d ∈ p.threads := List.mem_of_getElem? hi
  -- an entry under the ID of the dialog is no other entry, and the alias is the entry of no dialog
  have hown : ∀ v, ∀ u ∈ p.threads, u.id ≠ d.id →
      Function.update p.shared.requestDialog d.id v u.id = p.shared.requestDialog u.id :=
    fun v u _ hne => Function.update_of_ne hne _ _
  have hownLast : ∀ v, Function.update p.shared.requestDialog d.id v "last" = p.shared.requestDialog "last" :=
    fun v => Function.update_of_ne (h.named d hd).symm _ _
  have halias : ∀ v, ∀ u ∈ p.threads, u.id ≠ d.id →
      Function.update p.shared.requestDialog "last" v u.id = p.shared.requestDialog u.id :=
    fun v u hu _ => Function.update_of_ne (h.named u hu) _ _
  obtain ⟨id, chan, phase⟩ := d
  cases phase with
  | entered =>
      refine dialogsInv_set h hi (aliasLaw_set h hi rfl rfl (hown _) (hownLast _)) rfl (hown _) (fun _ => ?_)
        (fun n hn => by cases hn) le_rfl
      exact Function.update_self ..
  | stored =>
      refine dialogsInv_set h hi (aliasLaw_start h hi rfl) rfl (halias _) (fun hn => by cases hn) (fun n hn => ?_)
        (Nat.le_succ _)
      rw [← DialogPhase.active.inj hn]
      exact Nat.lt_succ_self _
  | active n =>
      exact dialogsInv_set h hi (aliasLaw_end h hi rfl (halone _ hi rfl)) rfl (halias _) (fun hn => by cases hn)
        (fun n hn => by cases hn) le_rfl
  | unaliased =>
      exact dialogsInv_set h hi (aliasLaw_set h hi rfl rfl (hown _) (hownLast _)) rfl (hown _) (fun hn => by cases hn)
        (fun n hn => by cases hn) le_rfl
  | ended =>
      exact dialogsInv_set h hi (aliasLaw_set h hi rfl rfl (fun _ _ _ => rfl) rfl) rfl (fun _ _ _ => rfl)
        (fun hn => by cases hn) (fun n hn => by cases hn) le_rfl

theorem dialogsInv_step (h : DialogsInv p) {e : DialogEvent} (hfresh : FreshID p e) (halone : EndsAlone p e) :
    DialogsInv (dialogsStep p e) := by
  cases e with
  | call id => exact dialogsInv_call h hfresh
  | step i => exact Pool.advance_induction i h fun d hi => dialogsInv_advance h hi halone

/-- An end that empties the slot while another dialog is active breaks the law. -/
theorem endsAlone_of_aliasLaw (h : DialogsInv p) {e : DialogEvent} (hlaw : AliasLaw (dialogsStep p e)) :
    EndsAlone p e := by
  cases e with
  | call id => trivial
  | step i =>
      intro d hi hactive d' hd' hactive'
      obtain ⟨n, hphase⟩ := isActive_iff.mp hactive
      by_contra hne
      have hid : d'.id ≠ d.id :=
        fun hid => hne (List.inj_on_of_nodup_map h.ids hd' (List.mem_of_getElem? hi) hid)
      change AliasLaw (p.advance dialogStep i) at hlaw
      rw [Pool.advance_of_some hi] at hlaw
      simp only [dialogStep, hphase] at hlaw
      have hsome := hlaw.resolves.mpr ⟨d', (mem_set_dialog h hi _ d').mpr (.inr ⟨hd', hid⟩), hactive'⟩
      change (Function.update p.shared.requestDialog "last" none "last").isSome = true at hsome
      rw [Function.update_self] at hsome
      cases hsome

end Law

/-- For every interleaving of calls for dialogs with distinct IDs the map resolves what it should at every moment,
exactly when every dialog that ends is the only active one. -/
theorem aliasLaw_always_iff {events : List DialogEvent} (hfresh : Permitted dialogsStep FreshID Dialogs.none events) :
    Always dialogsStep AliasLaw Dialogs.none events ↔ Permitted dialogsStep EndsAlone Dialogs.none events := by
  rw [always_iff, and_iff_right dialogsInv_none.law]
  refine permitted_congr dialogsStep (fun p e h hid halone => dialogsInv_step h hid halone) (fun p e h hid => ?_)
    dialogsInv_none hfresh
  exact ⟨endsAlone_of_aliasLaw h, fun halone => (dialogsInv_step h hid halone).law⟩

def successiveDialogs : List DialogEvent :=
  [.call "a", .step 0, .step 0, .step 0, .step 0, .call "b", .step 1, .step 1]

theorem aliasLaw_always_successive : Always dialogsStep AliasLaw Dialogs.none successiveDialogs :=
  (aliasLaw_always_iff (by decide)).mpr (by decide)

/-- Two dialogs of which the second is over before the first. -/
def nestedDialogs : List DialogEvent := [.call "a", .step 0, .step 0, .call "b", .step 1, .step 1, .step 1]

/-- The alias is gone while the first one is active. -/
theorem not_aliasLaw_always : ¬ ∀ events : List DialogEvent, Permitted dialogsStep FreshID Dialogs.none events →
    Always dialogsStep AliasLaw Dialogs.none events := by
  intro h
  have hlaw : AliasLaw (run dialogsStep Dialogs.none nestedDialogs) :=
    h nestedDialogs (by decide) nestedDialogs [] (List.append_nil _).symm
  have hactive : ∃ d ∈ (run dialogsStep Dialogs.none nestedDialogs).threads, d.isActive = true := by decide
  have hsome := hlaw.resolves.mpr hactive
  exact absurd hsome (by decide)

end Flow
