import Diagox.Lib.Slice
import Diagox.Sip
import Mathlib.Logic.Function.Basic

/-!
# The registry

`RegistryStore` of `registry.go` and its implementation in memory. A binding is stored by value, but its
contacts are a slice: the array they are in stays shared with whoever made it. The lock is part of the
state, since an operation that returns without unlocking decides what the next ones do.
-/

namespace Registry

open Sip

/-- `RegisterBinding`, for contacts held as a `κ`. -/
structure RegisterBinding (κ : Type) where
  aor : Uri := {}
  callID : String := ""
  contacts : κ
  expiry : Int := 0
  tenantID : String := ""
  sourceAddr : String := ""
  transport : String := ""
  deriving DecidableEq, Repr

/-- The same binding with its contacts shown in another way. -/
def RegisterBinding.map {κ κ' : Type} (f : κ → κ') (b : RegisterBinding κ) : RegisterBinding κ' :=
  ⟨b.aor, b.callID, f b.contacts, b.expiry, b.tenantID, b.sourceAddr, b.transport⟩

@[simp] theorem RegisterBinding.map_contacts {κ κ' : Type} (f : κ → κ') (b : RegisterBinding κ) :
    (b.map f).contacts = f b.contacts := rfl

inductive RegistryError where
  /-- `ErrRegistryDoesNotExist`. -/
  | doesNotExist
  /-- Whatever another implementation of the store reports. -/
  | other (text : String)
  deriving DecidableEq, Repr

/-- `RegistryMemory`: the map, whether somebody holds the write lock, and the arrays the slices in the map
are over. -/
structure RegistryMemory where
  m : String → Option (RegisterBinding Slice)
  locked : Bool
  heap : Heap Uri

namespace RegistryMemory

def new : RegistryMemory := ⟨fun _ => none, false, []⟩

/-- `Lock`. With the lock held it does not return. -/
def lock (r : RegistryMemory) : Option RegistryMemory := if r.locked then none else some { r with locked := true }

def unlock (r : RegistryMemory) : RegistryMemory := { r with locked := false }

def registerBindingSet (r : RegistryMemory) (id : String) (rec : RegisterBinding Slice) :
    Option (RegistryMemory × Except RegistryError Unit) := do
  let r ← r.lock
  return ({ r with m := Function.update r.m id (some rec) }.unlock, .ok ())

def registerBindingDelete (r : RegistryMemory) (id : String) :
    Option (RegistryMemory × Except RegistryError Unit) := do
  let r ← r.lock
  return ({ r with m := Function.update r.m id none }.unlock, .ok ())

/-- The map is not written: what the removal changes is the array of the contacts. Without a binding the
lock is not given back. -/
def registerBindingContactDelete (uriString : Uri → String) (r : RegistryMemory) (id : String) (contact : Uri) :
    Option (RegistryMemory × Except RegistryError Unit) := do
  let r ← r.lock
  match r.m id with
  | none => return (r, .error .doesNotExist)
  | some rec =>
      match (r.heap.read rec.contacts).findIdx? fun c => uriString c = uriString contact with
      | none => return (r.unlock, .ok ())
      | some i => return ({ r with heap := (r.heap.removeAt rec.contacts i).1 }.unlock, .ok ())

/-- A read lock is taken and given back, which a writer that holds the lock prevents. The contacts are as
the caller finds them when the call returns. -/
def registerBindingGet (r : RegistryMemory) (id : String) :
    Option (RegistryMemory × Except RegistryError (RegisterBinding (List Uri))) :=
  if r.locked then none
  else match r.m id with
    | none => some (r, .error .doesNotExist)
    | some rec => some (r, .ok (rec.map r.heap.read))

/-- What the registry holds under an id. -/
def binding (r : RegistryMemory) (id : String) : Option (RegisterBinding (List Uri)) :=
  (r.m id).map (RegisterBinding.map r.heap.read)

end RegistryMemory

/-! ### The store as the registrar uses it -/

/-- The part of `RegistryStore` that the registrar and call resolution use. A call that does not return is
`none`. -/
structure RegistryStore (ρ : Type) where
  registerBindingSet : ρ → String → RegisterBinding (List Uri) → Option (ρ × Except RegistryError Unit)
  registerBindingDelete : ρ → String → Option (ρ × Except RegistryError Unit)
  registerBindingGet : ρ → String → Option (ρ × Except RegistryError (RegisterBinding (List Uri)))

/-- The binding that a store has under an id. -/
def RegistryStore.bindingOf {ρ : Type} (store : RegistryStore ρ) (m : ρ) (id : String) :
    Option (RegisterBinding (List Uri)) :=
  match store.registerBindingGet m id with
  | some (_, .ok binding) => some binding
  | _ => none

/-- The calls that write a store return, and one that reports an error has changed nothing. -/
structure RegistryStore.Reliable {ρ : Type} (store : RegistryStore ρ) (m : ρ) : Prop where
  set_returns : ∀ id rec, store.registerBindingSet m id rec ≠ none
  delete_returns : ∀ id, store.registerBindingDelete m id ≠ none
  set_failed : ∀ id rec m' err, store.registerBindingSet m id rec = some (m', .error err) → m' = m
  delete_failed : ∀ id m' err, store.registerBindingDelete m id = some (m', .error err) → m' = m

/-- A store that has what was set last. -/
structure RegistryStore.Lawful {ρ : Type} (store : RegistryStore ρ) (m : ρ) : Prop extends store.Reliable m where
  bindingOf_set : ∀ id rec m', store.registerBindingSet m id rec = some (m', .ok ()) →
    store.bindingOf m' id = some rec
  bindingOf_delete : ∀ id m', store.registerBindingDelete m id = some (m', .ok ()) → store.bindingOf m' id = none

/-- `RegistryMemory` as a store. The contacts that are set come in an array made for this call. -/
def memoryStore : RegistryStore RegistryMemory where
  registerBindingSet r id rec :=
    let made := r.heap.alloc rec.contacts
    { r with heap := made.1 }.registerBindingSet id (rec.map fun _ => made.2)
  registerBindingDelete r id := r.registerBindingDelete id
  registerBindingGet r id := r.registerBindingGet id

/-- Nobody holds the lock and every slice in the map lies within its array. -/
structure RegistryMemory.Sound (r : RegistryMemory) : Prop where
  free : r.locked = false
  valid : ∀ id rec, r.m id = some rec → r.heap.Valid rec.contacts

theorem RegistryMemory.sound_new : RegistryMemory.new.Sound where
  free := rfl
  valid id rec h := by simp [RegistryMemory.new] at h

section Sound

variable {r : RegistryMemory}

theorem binding_eq_none {id : String} : r.binding id = none ↔ r.m id = none := Option.map_eq_none_iff

theorem binding_alloc (hr : r.Sound) (xs : List Uri) (id : String) :
    RegistryMemory.binding { r with heap := (r.heap.alloc xs).1 } id = r.binding id := by
  unfold RegistryMemory.binding
  cases h : r.m id with
  | none => simp
  | some rec => simp [RegisterBinding.map, Heap.read_alloc_of_valid (hr.valid id rec h)]

/-- The registry with another entry under an id. -/
def RegistryMemory.put (r : RegistryMemory) (id : String) (v : Option (RegisterBinding Slice)) : RegistryMemory :=
  { r with m := Function.update r.m id v }

theorem RegistryMemory.Sound.put (hr : r.Sound) (id : String) {v : Option (RegisterBinding Slice)}
    (hv : ∀ rec, v = some rec → r.heap.Valid rec.contacts) : (r.put id v).Sound where
  free := hr.free
  valid id' rec h := by
    by_cases hid : id' = id
    · subst hid
      exact hv rec (by simpa [RegistryMemory.put] using h)
    · simp only [RegistryMemory.put, Function.update_of_ne hid] at h
      exact hr.valid id' rec h

theorem binding_put (id : String) (v : Option (RegisterBinding Slice)) :
    (r.put id v).binding = Function.update r.binding id (v.map (RegisterBinding.map r.heap.read)) := by
  funext id'
  by_cases hid : id' = id
  · subst hid
    simp [RegistryMemory.binding, RegistryMemory.put]
  · simp [RegistryMemory.binding, RegistryMemory.put, Function.update_of_ne hid]

theorem registerBindingSet_eq (hr : r.Sound) (id : String) (rec : RegisterBinding Slice) :
    r.registerBindingSet id rec = some (r.put id (some rec), .ok ()) := by
  simp [RegistryMemory.registerBindingSet, RegistryMemory.lock, RegistryMemory.unlock, RegistryMemory.put, hr.free]

theorem registerBindingDelete_eq (hr : r.Sound) (id : String) :
    r.registerBindingDelete id = some (r.put id none, .ok ()) := by
  simp [RegistryMemory.registerBindingDelete, RegistryMemory.lock, RegistryMemory.unlock, RegistryMemory.put, hr.free]

theorem registerBindingGet_eq (hr : r.Sound) (id : String) :
    r.registerBindingGet id = some (r, (r.binding id).elim (.error .doesNotExist) .ok) := by
  unfold RegistryMemory.registerBindingGet RegistryMemory.binding
  rw [if_neg (by simp [hr.free])]
  cases r.m id <;> rfl

theorem registerBindingContactDelete_eq_absent (uriString : Uri → String) (hr : r.Sound) {id : String}
    (hid : r.m id = none) (contact : Uri) :
    r.registerBindingContactDelete uriString id contact = some ({ r with locked := true }, .error .doesNotExist) := by
  simp [RegistryMemory.registerBindingContactDelete, RegistryMemory.lock, hr.free, hid]

theorem registerBindingContactDelete_eq_keep (uriString : Uri → String) (hr : r.Sound) {id : String}
    {rec : RegisterBinding Slice} (hid : r.m id = some rec) {contact : Uri}
    (hnone : (r.heap.read rec.contacts).findIdx? (fun c => uriString c = uriString contact) = none) :
    r.registerBindingContactDelete uriString id contact = some (r, .ok ()) := by
  obtain ⟨m, locked, heap⟩ := r
  obtain rfl : locked = false := hr.free
  simp only at hid hnone
  simp [RegistryMemory.registerBindingContactDelete, RegistryMemory.lock, RegistryMemory.unlock, hid, hnone]

theorem registerBindingContactDelete_eq_shift (uriString : Uri → String) (hr : r.Sound) {id : String}
    {rec : RegisterBinding Slice} (hid : r.m id = some rec) {contact : Uri} {i : Nat}
    (hsome : (r.heap.read rec.contacts).findIdx? (fun c => uriString c = uriString contact) = some i) :
    r.registerBindingContactDelete uriString id contact =
      some ({ r with heap := (r.heap.removeAt rec.contacts i).1 }, .ok ()) := by
  obtain ⟨m, locked, heap⟩ := r
  obtain rfl : locked = false := hr.free
  simp only at hid hsome
  simp [RegistryMemory.registerBindingContactDelete, RegistryMemory.lock, RegistryMemory.unlock, hid, hsome]

theorem memoryStore_set (hr : r.Sound) (id : String) (rec : RegisterBinding (List Uri)) :
    ∃ r', memoryStore.registerBindingSet r id rec = some (r', .ok ()) ∧ r'.Sound ∧
      r'.binding = Function.update r.binding id (some rec) := by
  have halloc : RegistryMemory.Sound { r with heap := (r.heap.alloc rec.contacts).1 } :=
    ⟨hr.free, fun id' rec' h => Heap.valid_alloc_of_valid (hr.valid id' rec' h) rec.contacts⟩
  refine ⟨_, registerBindingSet_eq halloc id _, halloc.put id ?_, ?_⟩
  · rintro rec' ⟨rfl⟩
    exact Heap.valid_alloc r.heap rec.contacts
  · rw [binding_put, funext (binding_alloc hr rec.contacts)]
    simp [RegisterBinding.map]

theorem memoryStore_delete (hr : r.Sound) (id : String) :
    ∃ r', memoryStore.registerBindingDelete r id = some (r', .ok ()) ∧ r'.Sound ∧
      r'.binding = Function.update r.binding id none :=
  ⟨r.put id none, registerBindingDelete_eq hr id, hr.put id (by simp), binding_put id none⟩

theorem bindingOf_memoryStore (hr : r.Sound) (id : String) : memoryStore.bindingOf r id = r.binding id := by
  have hget : memoryStore.registerBindingGet r id = some (r, (r.binding id).elim (.error .doesNotExist) .ok) :=
    registerBindingGet_eq hr id
  rw [RegistryStore.bindingOf, hget]
  cases r.binding id <;> rfl

theorem lawful_memoryStore (hr : r.Sound) : memoryStore.Lawful r where
  set_returns id rec := by
    obtain ⟨r', hset, -⟩ := memoryStore_set hr id rec
    simp [hset]
  delete_returns id := by
    obtain ⟨r', hdelete, -⟩ := memoryStore_delete hr id
    simp [hdelete]
  set_failed id rec m' err h := by
    obtain ⟨r', hset, -⟩ := memoryStore_set hr id rec
    simp [hset] at h
  delete_failed id m' err h := by
    obtain ⟨r', hdelete, -⟩ := memoryStore_delete hr id
    simp [hdelete] at h
  bindingOf_set id rec m' h := by
    obtain ⟨r', hset, hsound, hbinding⟩ := memoryStore_set hr id rec
    obtain rfl : r' = m' := by simpa [hset] using h
    rw [bindingOf_memoryStore hsound, hbinding, Function.update_self]
  bindingOf_delete id m' h := by
    obtain ⟨r', hdelete, hsound, hbinding⟩ := memoryStore_delete hr id
    obtain rfl : r' = m' := by simpa [hdelete] using h
    rw [bindingOf_memoryStore hsound, hbinding, Function.update_self]

end Sound

end Registry
