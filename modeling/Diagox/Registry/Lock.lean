import Diagox.Lib.Interleave
import Diagox.Registry.Refinement

/-!
# The lock of the registry

Every operation of `RegistryMemory` gives the lock back, except a `RegisterBindingContactDelete` for an id
without a binding: it returns `ErrRegistryDoesNotExist` with the lock held, and no operation returns after it.
Which ids have a binding is decided by the calls of `RegisterBindingSet` and `RegisterBindingDelete` alone.
-/

namespace Registry

open Sip Refine Run

variable (uriString : Uri → String) {heap : Heap Uri}

/-- The state after an operation, whatever it returned. -/
def memoryNext (r : RegistryMemory) (op : RegistryOp heap) : RegistryMemory := (memoryStep uriString r op).1

/-- The lock is free before the first operation and after each one, and every operation returns. -/
def LockFree (r : RegistryMemory) (ops : List (RegistryOp heap)) : Prop :=
  Always (memoryNext uriString) (fun r => r.locked = false) r ops ∧ none ∉ results (memoryStep uriString) r ops

/-- The ids with a binding, after one more operation. -/
def boundStep (bound : String → Bool) (op : RegistryOp heap) : String → Bool :=
  match op with
  | .set id _ => Function.update bound id true
  | .delete id => Function.update bound id false
  | _ => bound

/-- A removal of a contact is for an id with a binding. -/
def RemovesBound (bound : String → Bool) : RegistryOp heap → Prop
  | .contactDelete id _ => bound id = true
  | _ => True

/-- With the lock free, the registry has bindings for these ids. -/
structure Holds (r : RegistryMemory) (bound : String → Bool) : Prop where
  free : r.locked = false
  bound : ∀ id, bound id = (r.m id).isSome

theorem holds_empty (heap : Heap Uri) : Holds (emptyRegistry heap) fun _ => false where
  free := rfl
  bound _ := rfl

section Step

variable {r : RegistryMemory} {bound : String → Bool}

theorem Holds.put (h : Holds r bound) (id : String) (v : Option (RegisterBinding Slice)) :
    Holds (r.put id v) (Function.update bound id v.isSome) where
  free := h.free
  bound id' := by
    by_cases hid : id' = id
    · subst hid
      simp [RegistryMemory.put]
    · simp [RegistryMemory.put, Function.update_of_ne hid, h.bound]

/-- An operation that finds the lock free and the binding it needs returns, and leaves the lock free. -/
theorem holds_memoryStep (h : Holds r bound) (op : RegistryOp heap) (hop : RemovesBound bound op) :
    (memoryStep uriString r op).2 ≠ none ∧ Holds (memoryNext uriString r op) (boundStep bound op) := by
  unfold memoryNext
  cases op with
  | set id rec =>
      have hstep : memoryStep uriString r (.set id rec) =
          (r.put id (some (rec.map Subtype.val)), some (.done (.ok ()))) := by
        simp [memoryStep, RegistryMemory.registerBindingSet, RegistryMemory.lock, RegistryMemory.unlock,
          RegistryMemory.put, h.free]
      rw [hstep]
      exact ⟨by simp, h.put id _⟩
  | delete id =>
      have hstep : memoryStep uriString r (.delete id : RegistryOp heap) =
          (r.put id none, some (.done (.ok ()))) := by
        simp [memoryStep, RegistryMemory.registerBindingDelete, RegistryMemory.lock, RegistryMemory.unlock,
          RegistryMemory.put, h.free]
      rw [hstep]
      exact ⟨by simp, h.put id none⟩
  | contactDelete id contact =>
      obtain ⟨rec, hrec⟩ : ∃ rec, r.m id = some rec := Option.isSome_iff_exists.mp ((h.bound id).symm.trans hop)
      have hreturns : ∃ heap', memoryStep uriString r (.contactDelete id contact : RegistryOp heap) =
          ({ r with heap := heap' }, some (.done (.ok ()))) := by
        obtain ⟨m, locked, array⟩ := r
        obtain rfl : locked = false := h.free
        simp only at hrec
        cases hfind : (array.read rec.contacts).findIdx? fun c => uriString c = uriString contact with
        | none =>
            exact ⟨array, by simp [memoryStep, RegistryMemory.registerBindingContactDelete, RegistryMemory.lock,
              RegistryMemory.unlock, hrec, hfind]⟩
        | some i =>
            exact ⟨(array.removeAt rec.contacts i).1, by simp [memoryStep, RegistryMemory.registerBindingContactDelete,
              RegistryMemory.lock, RegistryMemory.unlock, hrec, hfind]⟩
      obtain ⟨heap', hstep⟩ := hreturns
      rw [hstep]
      exact ⟨by simp, h.free, h.bound⟩
  | get id =>
      have hstep : ∃ result, memoryStep uriString r (.get id : RegistryOp heap) = (r, some result) := by
        simp only [memoryStep, RegistryMemory.registerBindingGet, h.free]
        cases r.m id with
        | none => exact ⟨_, rfl⟩
        | some rec => exact ⟨_, rfl⟩
      obtain ⟨result, hstep⟩ := hstep
      rw [hstep]
      exact ⟨by simp, h⟩

theorem locked_memoryStep (h : Holds r bound) (op : RegistryOp heap) (hop : ¬ RemovesBound bound op) :
    (memoryNext uriString r op).locked = true := by
  cases op with
  | contactDelete id contact =>
      have hid : r.m id = none := by
        have hbound := h.bound id
        rw [Bool.eq_false_of_not_eq_true hop] at hbound
        simpa using hbound.symm
      simp [memoryNext, memoryStep, RegistryMemory.registerBindingContactDelete, RegistryMemory.lock, h.free, hid]
  | set id rec => exact absurd trivial hop
  | delete id => exact absurd trivial hop
  | get id => exact absurd trivial hop

theorem memoryStep_of_locked (h : r.locked = true) (op : RegistryOp heap) : memoryStep uriString r op = (r, none) := by
  cases op <;>
    simp [memoryStep, RegistryMemory.registerBindingSet, RegistryMemory.registerBindingDelete,
      RegistryMemory.registerBindingContactDelete, RegistryMemory.registerBindingGet, RegistryMemory.lock, h]

/-- Once the lock is held at the end of an operation, every operation after it waits forever. -/
theorem results_of_locked (h : r.locked = true) (ops : List (RegistryOp heap)) :
    results (memoryStep uriString) r ops = List.replicate ops.length none := by
  induction ops with
  | nil => rfl
  | cons op ops ih =>
      rw [results, memoryStep_of_locked uriString h op, ih]
      rfl

theorem lockFree_iff_of_holds (h : Holds r bound) (ops : List (RegistryOp heap)) :
    LockFree uriString r ops ↔ Permitted boundStep RemovesBound bound ops := by
  induction ops generalizing r bound with
  | nil => simp [LockFree, always_iff, Permitted, h.free, results]
  | cons op ops ih =>
      by_cases hop : RemovesBound bound op
      · obtain ⟨hreturns, hnext⟩ := holds_memoryStep uriString h op hop
        have hcons : LockFree uriString r (op :: ops) ↔ LockFree uriString (memoryNext uriString r op) ops := by
          simp only [LockFree, always_iff, Permitted, h.free, results, List.mem_cons, not_or]
          simp [memoryNext, hreturns.symm]
        rw [hcons, ih hnext, Permitted]
        exact (and_iff_right hop).symm
      · have hlocked := locked_memoryStep uriString h op hop
        simp [LockFree, always_iff, Permitted, hop, hlocked]

end Step

/-- In a sequence of operations on a new registry each leaves the lock free, and returns, exactly when every
contact removal of the sequence is for an id that was set and not deleted since. -/
theorem lockFree_iff (ops : List (RegistryOp heap)) :
    LockFree uriString (emptyRegistry heap) ops ↔ Permitted boundStep RemovesBound (fun _ => false) ops :=
  lockFree_iff_of_holds uriString (holds_empty heap) ops

/-- A contact of somebody who is not registered is removed, and the next call waits forever. -/
theorem not_lockFree :
    ¬ ∀ (uriString : Uri → String) (heap : Heap Uri) (ops : List (RegistryOp heap)),
      LockFree uriString (emptyRegistry heap) ops := by
  intro h
  have hops := (h Uri.host [] [.contactDelete "bob@pbx" {}, .get "bob@pbx"]).2
  exact hops (by simp [results, memoryStep, RegistryMemory.registerBindingContactDelete,
    RegistryMemory.registerBindingGet, RegistryMemory.lock, emptyRegistry])

end Registry
