import Diagox.Limiter.Active

/-!
# The active limit without overlap

Calls of `DialogActiveLimit` and `DialogActiveDec` that are made one after another, each release for a dialog
that was let in. Then the counter is the number of active dialogs, and the call compares it after its own
increment: it lets a dialog in when the dialog that joins leaves room for one more. So the last place is never
given away, and the limit answers as it should exactly as long as nobody asks for that place.
-/

namespace Limiter

/-- `DialogActiveLimit`, with nobody else at the limiter. -/
def dialogActiveLimit (r : RateLimiterAtomic) : RateLimiterAtomic × Bool :=
  if r.max = 0 then (r, true)
  else
    let current := r.activeCount + 1
    if current < r.max then ({ r with activeCount := current }, true)
    else (dialogActiveDec { r with activeCount := current }, false)

theorem dialogActiveLimit_eq (r : RateLimiterAtomic) (hmax : r.max ≠ 0) :
    dialogActiveLimit r =
      if r.activeCount + 1 < r.max then ({ r with activeCount := r.activeCount + 1 }, true) else (r, false) := by
  rw [dialogActiveLimit, if_neg hmax]
  split_ifs with hlt
  · rw [if_pos hlt]
  · rw [if_neg hlt, dialogActiveDec, if_neg hmax]
    simp

namespace Active

open Run

theorem run_dialogActiveLimit {p : Handlers} {i : Nat} (hi : p.threads[i]? = some .limiting) :
    run step p (List.replicate 3 (.step i)) =
      ⟨(dialogActiveLimit p.shared).1,
        p.threads.set i (if (dialogActiveLimit p.shared).2 then .running else .finished)⟩ := by
  have hlen := (List.getElem?_eq_some_iff.mp hi).1
  have hfirst : step p (.step i) =
      ⟨(handlerStep p.shared .limiting).1, p.threads.set i (handlerStep p.shared .limiting).2⟩ :=
    Pool.advance_of_some hi
  have hnext : ∀ (r : RateLimiterAtomic) (h : Handler), step ⟨r, p.threads.set i h⟩ (.step i) =
      ⟨(handlerStep r h).1, p.threads.set i (handlerStep r h).2⟩ := fun r h => by
    rw [step, Pool.advance_of_some (List.getElem?_set_self hlen), List.set_set]
  rw [List.replicate_succ, List.replicate_succ, List.replicate_one, run_cons, run_cons, run_cons, run_nil,
    hfirst, hnext, hnext]
  by_cases hmax : p.shared.max = 0
  · simp only [handlerStep, dialogActiveLimit, if_pos hmax, if_true]
  · rw [dialogActiveLimit_eq _ hmax]
    by_cases hlt : p.shared.activeCount + 1 < p.shared.max
    · simp only [handlerStep, if_neg hmax, if_pos hlt, if_true]
    · simp only [handlerStep, dialogActiveDec, if_neg hmax, if_neg hlt, Int.add_sub_cancel, Bool.false_eq_true, if_false]

end Active

namespace Admission

open Run

/-- The two calls. -/
inductive Call where
  | limit
  | dec
  deriving DecidableEq, Repr

/-- A limiter with the number of dialogs it has let in and that were not released yet, and, for each
`DialogActiveLimit` so far, how many these were when it was called and what it returned. -/
structure Gate where
  limiter : RateLimiterAtomic
  active : Nat
  verdicts : List (Nat × Bool)
  deriving DecidableEq, Repr

def step (g : Gate) : Call → Gate
  | .limit =>
      { limiter := (dialogActiveLimit g.limiter).1
        active := g.active + (dialogActiveLimit g.limiter).2.toNat
        verdicts := g.verdicts ++ [(g.active, (dialogActiveLimit g.limiter).2)] }
  | .dec => { g with limiter := dialogActiveDec g.limiter, active := g.active - 1 }

/-- A fresh limiter and no dialog. -/
def initial (max rps now : Int) : Gate := ⟨.fresh max rps now, 0, []⟩

/-- A release is for a dialog that was let in and has not been released. -/
def Matched (g : Gate) : Call → Prop
  | .limit => True
  | .dec => 0 < g.active

instance (g : Gate) (c : Call) : Decidable (Matched g c) := by
  cases c <;> unfold Matched <;> infer_instance

/-- Every `DialogActiveLimit` returned true if and only if fewer than `max` dialogs were active. -/
def AdmitsBelowMax (max : Int) (g : Gate) : Prop := ∀ v ∈ g.verdicts, v.2 = true ↔ (v.1 : Int) < max

instance (max : Int) (g : Gate) : Decidable (AdmitsBelowMax max g) := by
  unfold AdmitsBelowMax
  infer_instance

/-- At no moment have there been `max` limit calls more than releases, with `active` dialogs to begin with. -/
def LeavesRoom (max : Int) (active : Nat) (calls : List Call) : Prop :=
  ∀ before, before <+: calls → ((active + before.count .limit : Nat) : Int) < before.count .dec + max

/-- What every matched run keeps: the counter counts the active dialogs, and they are fewer than `max`. -/
structure Inv (max : Int) (g : Gate) : Prop where
  max_eq : g.limiter.max = max
  counted : g.limiter.activeCount = g.active
  below : (g.active : Int) < max

section Step

variable {max : Int} {g : Gate}

theorem dialogActiveLimit_of_inv (hmax : 0 < max) (hg : Inv max g) :
    dialogActiveLimit g.limiter =
      if (g.active : Int) + 1 < max then ({ g.limiter with activeCount := g.limiter.activeCount + 1 }, true)
      else (g.limiter, false) := by
  have hne : g.limiter.max ≠ 0 := by
    rw [hg.max_eq]
    exact hmax.ne'
  rw [dialogActiveLimit_eq _ hne]
  simp only [hg.counted, hg.max_eq]

theorem inv_step (hmax : 0 < max) (g : Gate) (c : Call) (hg : Inv max g) (hc : Matched g c) :
    Inv max (step g c) := by
  cases c with
  | limit =>
      rw [step, dialogActiveLimit_of_inv hmax hg]
      obtain ⟨hmaxeq, hcounted, hbelow⟩ := hg
      split_ifs with hlt
      · exact ⟨hmaxeq, by simp [hcounted], by simpa using hlt⟩
      · exact ⟨hmaxeq, by simp [hcounted], by simpa using hbelow⟩
  | dec =>
      obtain ⟨hmaxeq, hcounted, hbelow⟩ := hg
      have hpos : 0 < g.active := hc
      rw [step, dialogActiveDec, if_neg (by omega)]
      exact ⟨hmaxeq, by simp only; omega, by simp only; omega⟩

theorem admitsBelowMax_limit (hmax : 0 < max) (hg : Inv max g) :
    AdmitsBelowMax max (step g .limit) ↔ AdmitsBelowMax max g ∧ (g.active : Int) + 1 < max := by
  have hbelow := hg.below
  simp only [AdmitsBelowMax, step, dialogActiveLimit_of_inv hmax hg, List.forall_mem_append,
    List.forall_mem_singleton]
  refine and_congr_right fun _ => ?_
  split_ifs with hlt
  · exact ⟨fun _ => hlt, fun _ => iff_of_true rfl hbelow⟩
  · exact ⟨fun h => absurd (h.mpr hbelow) (by decide), fun h => absurd h hlt⟩

end Step

theorem leavesRoom_cons {max : Int} {active : Nat} {c : Call} {calls : List Call} :
    LeavesRoom max active (c :: calls) ↔ (active : Int) < max ∧
      ∀ before, before <+: calls →
        ((active + (c :: before).count .limit : Nat) : Int) < (c :: before).count .dec + max := by
  constructor
  · intro h
    exact ⟨by simpa using h [] List.nil_prefix, fun before hb => h (c :: before) (List.cons_prefix_cons.mpr ⟨rfl, hb⟩)⟩
  · rintro ⟨hnil, hcons⟩ before hb
    obtain rfl | ⟨rest, rfl, hrest⟩ := List.prefix_cons_iff.mp hb
    · simpa using hnil
    · exact hcons rest hrest

theorem leavesRoom_limit {max : Int} {active : Nat} {calls : List Call} (hbelow : (active : Int) < max) :
    LeavesRoom max active (.limit :: calls) ↔ LeavesRoom max (active + 1) calls := by
  rw [leavesRoom_cons, and_iff_right hbelow]
  refine forall_congr' fun before => imp_congr_right fun _ => ?_
  simp only [List.count_cons_self, List.count_cons_of_ne (show Call.limit ≠ Call.dec by decide)]
  omega

theorem leavesRoom_dec {max : Int} {active : Nat} {calls : List Call} (hpos : 0 < active)
    (hbelow : (active : Int) < max) :
    LeavesRoom max active (.dec :: calls) ↔ LeavesRoom max (active - 1) calls := by
  rw [leavesRoom_cons, and_iff_right hbelow]
  refine forall_congr' fun before => imp_congr_right fun _ => ?_
  simp only [List.count_cons_self, List.count_cons_of_ne (show Call.dec ≠ Call.limit by decide)]
  omega

/-- A run answers as it should if and only if it did so before and its calls leave room. -/
theorem admitsBelowMax_run {max : Int} (hmax : 0 < max) {g : Gate} {calls : List Call} (hg : Inv max g)
    (hcalls : Permitted step Matched g calls) :
    AdmitsBelowMax max (run step g calls) ↔ AdmitsBelowMax max g ∧ LeavesRoom max g.active calls := by
  induction calls generalizing g with
  | nil =>
      have hroom : LeavesRoom max g.active [] := fun before hb => by
        rw [List.prefix_nil.mp hb]
        simpa using hg.below
      exact ⟨fun h => ⟨h, hroom⟩, And.left⟩
  | cons c calls ih =>
      obtain ⟨hc, hcalls⟩ := hcalls
      have hstep := inv_step hmax g c hg hc
      rw [run_cons, ih hstep hcalls]
      cases c with
      | limit =>
          rw [admitsBelowMax_limit hmax hg, leavesRoom_limit hg.below, and_assoc]
          refine and_congr_right fun _ => ?_
          have hactive : (step g .limit).active = g.active + (dialogActiveLimit g.limiter).2.toNat := rfl
          rw [hactive, dialogActiveLimit_of_inv hmax hg]
          split_ifs with hlt
          · exact and_iff_right hlt
          · refine iff_of_false (fun h => hlt h.1) fun h => hlt ?_
            simpa using h [] List.nil_prefix
      | dec => rw [leavesRoom_dec hc hg.below]; rfl

/-- In every run of limit calls and matched releases, made one after another, the limit lets in below `max`
and only there if and only if there are never `max` limit calls more than releases. The active dialogs always
stay below `max`. -/
theorem dialogActiveLimit_admits_iff {max : Int} (hmax : 0 < max) (rps now : Int) (calls : List Call)
    (hcalls : Permitted step Matched (initial max rps now) calls) :
    (AdmitsBelowMax max (run step (initial max rps now) calls) ↔ LeavesRoom max 0 calls) ∧
      ((run step (initial max rps now) calls).active : Int) < max := by
  have hinitial : Inv max (initial max rps now) := ⟨rfl, rfl, hmax⟩
  constructor
  · rw [admitsBelowMax_run hmax hinitial hcalls]
    exact and_iff_right fun v hv => absurd hv List.not_mem_nil
  · exact (invariant_of_permitted step (inv_step hmax) hinitial hcalls).below

/-- With a maximum of 2 and one dialog active, the second is refused. -/
theorem dialogActiveLimit_refuses_last :
    Permitted step Matched (initial 2 0 7) [.limit, .limit] ∧
      ¬ AdmitsBelowMax 2 (run step (initial 2 0 7) [.limit, .limit]) := by
  decide

/-- A maximum of 3, with a release between the limit calls. -/
theorem dialogActiveLimit_admits_three :
    (AdmitsBelowMax 3 (run step (initial 3 0 7) [.limit, .limit, .dec, .limit]) ↔
      LeavesRoom 3 0 [.limit, .limit, .dec, .limit]) ∧
      ((run step (initial 3 0 7) [.limit, .limit, .dec, .limit]).active : Int) < 3 :=
  dialogActiveLimit_admits_iff (by decide) 0 7 _ (by decide)

end Admission

end Limiter
