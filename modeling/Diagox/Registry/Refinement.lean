import Diagox.Lib.Refine
import Diagox.Registry.Memory

/-!
# The registry as a map

The registry stands for a map from ids to bindings. `RegistryMemory` behaves like that map except in
`RegisterBindingContactDelete`: a contact that is removed leaves the stored slice at its old length, with
the last contact of the array seen twice, and an id without a binding leaves the lock held, so that no later
operation returns. Both are visible to a `RegisterBindingGet`, so the registry agrees with the map exactly
on the sequences in which no such call is made.
-/

namespace Registry

open Sip Refine

/-- The map the registry stands for. -/
abbrev Bindings := String → Option (RegisterBinding (List Uri))

/-- The operations of `RegistryStore`. The slices that are set are over arrays of `heap`, which belongs to
the callers. -/
inductive RegistryOp (heap : Heap Uri) where
  | set (id : String) (rec : RegisterBinding {s : Slice // heap.Valid s})
  | delete (id : String)
  | contactDelete (id : String) (contact : Uri)
  | get (id : String)

inductive RegistryResult where
  | done (err : Except RegistryError Unit)
  | found (rec : Except RegistryError (RegisterBinding (List Uri)))

variable (uriString : Uri → String) {heap : Heap Uri}

/-- One operation on `RegistryMemory`. An operation that does not return has no result. -/
def memoryStep (r : RegistryMemory) (op : RegistryOp heap) : RegistryMemory × Option RegistryResult :=
  let run := match op with
    | .set id rec => (r.registerBindingSet id (rec.map Subtype.val)).map fun x => (x.1, RegistryResult.done x.2)
    | .delete id => (r.registerBindingDelete id).map fun x => (x.1, .done x.2)
    | .contactDelete id contact =>
        (r.registerBindingContactDelete uriString id contact).map fun x => (x.1, .done x.2)
    | .get id => (r.registerBindingGet id).map fun x => (x.1, .found x.2)
  match run with
  | none => (r, none)
  | some (r', result) => (r', some result)

/-- The contacts without the first one that has the text of `contact`. -/
def removeContact (contact : Uri) (contacts : List Uri) : List Uri :=
  contacts.eraseP fun c => uriString c = uriString contact

/-- One operation on the map. -/
def mapStep (m : Bindings) (op : RegistryOp heap) : Bindings × Option RegistryResult :=
  match op with
  | .set id rec => (Function.update m id (some (rec.map fun s => heap.read s.1)), some (.done (.ok ())))
  | .delete id => (Function.update m id none, some (.done (.ok ())))
  | .contactDelete id contact => match m id with
    | none => (m, some (.done (.error .doesNotExist)))
    | some b => (Function.update m id (some (b.map (removeContact uriString contact))), some (.done (.ok ())))
  | .get id => match m id with
    | none => (m, some (.found (.error .doesNotExist)))
    | some b => (m, some (.found (.ok b)))

/-- A registry without bindings, in a program with the arrays `heap`. -/
def emptyRegistry (heap : Heap Uri) : RegistryMemory := ⟨fun _ => none, false, heap⟩

def IsGet : RegistryOp heap → Prop
  | .get _ => True
  | _ => False

/-- A removal of a contact that finds a binding, and no contact of that text in it. Every other operation. -/
def KeepsContacts (m : Bindings) : RegistryOp heap → Prop
  | .contactDelete id contact => ∃ b, m id = some b ∧ ∀ c ∈ b.contacts, uriString c ≠ uriString contact
  | _ => True

/-- The registry stands for the map, and no array of the callers was written. -/
structure Represents (heap : Heap Uri) (r : RegistryMemory) (m : Bindings) : Prop where
  sound : r.Sound
  same : r.heap = heap
  binding : r.binding = m

theorem represents_empty (heap : Heap Uri) : Represents heap (emptyRegistry heap) fun _ => none where
  sound := ⟨rfl, fun id rec h => by simp [emptyRegistry] at h⟩
  same := rfl
  binding := rfl

section Step

variable {r : RegistryMemory} {m : Bindings}

/-- An operation that keeps the contacts has the result it has on the map, and leads to the same map. -/
theorem represents_step (r : RegistryMemory) (m : Bindings) (op : RegistryOp heap) (h : Represents heap r m)
    (hop : KeepsContacts uriString m op) :
    (memoryStep uriString r op).2 = (mapStep uriString m op).2 ∧
      Represents heap (memoryStep uriString r op).1 (mapStep uriString m op).1 := by
  obtain ⟨hsound, rfl, rfl⟩ := h
  cases op with
  | set id rec =>
      simp only [memoryStep, registerBindingSet_eq hsound, Option.map_some, mapStep]
      refine ⟨trivial, hsound.put id ?_, rfl, binding_put id _⟩
      rintro rec' ⟨rfl⟩
      exact rec.contacts.2
  | delete id =>
      simp only [memoryStep, registerBindingDelete_eq hsound, Option.map_some, mapStep]
      exact ⟨trivial, hsound.put id (by simp), rfl, binding_put id none⟩
  | contactDelete id contact =>
      obtain ⟨b, hb, hkeep⟩ := hop
      obtain ⟨rec, hrec, rfl⟩ := Option.map_eq_some_iff.mp hb
      have hnone : (r.heap.read rec.contacts).findIdx? (fun c => uriString c = uriString contact) = none :=
        List.findIdx?_eq_none_iff.mpr fun c hc => by simpa using hkeep c hc
      have hremove : removeContact uriString contact (r.heap.read rec.contacts) = r.heap.read rec.contacts :=
        List.eraseP_of_forall_not fun c hc => by simpa using hkeep c hc
      have hsame : Function.update r.binding id
          (some ((rec.map r.heap.read).map (removeContact uriString contact))) = r.binding := by
        rw [Function.update_eq_self_iff, hb]
        simp [RegisterBinding.map, hremove]
      simp only [memoryStep, registerBindingContactDelete_eq_keep uriString hsound hrec hnone, Option.map_some,
        mapStep, hb, hsame]
      exact ⟨trivial, hsound, rfl, rfl⟩
  | get id =>
      simp only [memoryStep, registerBindingGet_eq hsound, Option.map_some, mapStep]
      cases r.binding id <;> exact ⟨rfl, hsound, rfl, rfl⟩

/-- Any other removal shows in what the same id returns next: without a binding nothing is returned any
more, and with one the stored contacts are as many as before. -/
theorem not_represents_step (r : RegistryMemory) (m : Bindings) (op : RegistryOp heap) (h : Represents heap r m)
    (hop : ¬ KeepsContacts uriString m op) :
    ∃ q : RegistryOp heap, IsGet q ∧
      (memoryStep uriString (memoryStep uriString r op).1 q).2 ≠ (mapStep uriString (mapStep uriString m op).1 q).2 := by
  obtain ⟨hsound, rfl, rfl⟩ := h
  cases op with
  | set id rec => exact absurd trivial hop
  | delete id => exact absurd trivial hop
  | get id => exact absurd trivial hop
  | contactDelete id contact =>
      refine ⟨.get id, trivial, ?_⟩
      cases hrec : r.m id with
      | none =>
          have hb : r.binding id = none := binding_eq_none.mpr hrec
          simp [memoryStep, registerBindingContactDelete_eq_absent uriString hsound hrec,
            RegistryMemory.registerBindingGet, mapStep, hb]
      | some rec =>
          have hb : r.binding id = some (rec.map r.heap.read) := by simp [RegistryMemory.binding, hrec]
          have hvalid := hsound.valid id rec hrec
          obtain ⟨c, hc, htext⟩ : ∃ c ∈ r.heap.read rec.contacts, uriString c = uriString contact := by
            by_contra hnot
            push Not at hnot
            exact hop ⟨_, hb, hnot⟩
          obtain ⟨i, hi⟩ : ∃ i, (r.heap.read rec.contacts).findIdx?
              (fun c => uriString c = uriString contact) = some i := by
            rw [← Option.isSome_iff_exists, List.findIdx?_isSome, List.any_eq_true]
            exact ⟨c, hc, by simpa using htext⟩
          have hlt : i < rec.contacts.len := by
            have := (List.findIdx?_eq_some_iff_getElem.mp hi).1
            rwa [Heap.length_read hvalid] at this
          intro heq
          -- the map has one contact less, the slice in the registry as many as before
          simp only [memoryStep, registerBindingContactDelete_eq_shift uriString hsound hrec hi, Option.map_some,
            RegistryMemory.registerBindingGet, hsound.free, hrec, mapStep, hb, Function.update_self,
            Bool.false_eq_true, if_false, Option.some.injEq, RegistryResult.found.injEq, Except.ok.injEq] at heq
          have hlen := congrArg (fun b => List.length (RegisterBinding.contacts b)) heq
          have hless : (removeContact uriString contact (r.heap.read rec.contacts)).length = rec.contacts.len - 1 := by
            rw [removeContact, List.length_eraseP_of_mem hc (by simp [htext]), Heap.length_read hvalid]
          simp only [RegisterBinding.map_contacts, Heap.length_read (Heap.valid_removeAt hvalid hlt), hless] at hlen
          omega

theorem keepsContacts_of_isGet (m : Bindings) (q : RegistryOp heap) (hq : IsGet q) : KeepsContacts uriString m q := by
  cases q with
  | get id => trivial
  | set id rec => exact hq.elim
  | delete id => exact hq.elim
  | contactDelete id contact => exact hq.elim

end Step

/-- `RegistryMemory` gives the results of the map, also to any `RegisterBindingGet` after a part of the
sequence, exactly when every contact removal of the sequence finds a binding and no contact of that text in
it. -/
theorem memory_agrees_iff (ops : List (RegistryOp heap)) :
    (Agree (memoryStep uriString) (mapStep uriString) IsGet (emptyRegistry heap) (fun _ => none) ops ↔
      Harmless (mapStep uriString) (KeepsContacts uriString) (fun _ => none) ops) ∧
    (Harmless (mapStep uriString) (KeepsContacts uriString) (fun _ => none) ops →
      results (memoryStep uriString) (emptyRegistry heap) ops =
        results (mapStep uriString) (fun _ => none) ops) :=
  ⟨agrees_iff (represents_step uriString) (not_represents_step uriString) (keepsContacts_of_isGet uriString)
      (represents_empty heap) ops,
    results_eq_of_harmless (represents_step uriString) (represents_empty heap)⟩

def twoPhones : Heap Uri := [[{ user := "bob", host := "10.0.0.1" }, { user := "bob", host := "10.0.0.2" }]]

/-- Both phones are bound, the first one is removed, and the binding is read. -/
def removeFirstPhone : List (RegistryOp twoPhones) :=
  [.set "bob@pbx" { contacts := ⟨⟨0, 0, 2⟩, by simp [Heap.Valid, Heap.array, twoPhones]⟩ },
   .contactDelete "bob@pbx" { user := "bob", host := "10.0.0.1" },
   .get "bob@pbx"]

/-- How many contacts a read has found. -/
def RegistryResult.contactCount : RegistryResult → Option Nat
  | .found (.ok b) => some b.contacts.length
  | _ => none

/-- The results are not always those of the map: the second phone is read twice. -/
theorem not_results_eq_map :
    ¬ ∀ (uriString : Uri → String) (heap : Heap Uri) (ops : List (RegistryOp heap)),
      results (memoryStep uriString) (emptyRegistry heap) ops = results (mapStep uriString) (fun _ => none) ops := by
  intro h
  have hcount := congrArg (List.map fun r => r.bind RegistryResult.contactCount) (h Uri.host twoPhones removeFirstPhone)
  exact absurd hcount (by decide)

end Registry
