import Diagox.Flow.Alias
import Diagox.Flow.ReadLoop

/-!
# The read loop and its dialogs on one map

A `FlowConnection` has one map `requestDialog`. The calls of `NewServerDialog` write to it, and of a value in it they
need nothing but the channel. The read loop only loads from it, and gets the whole `FlowDialogChan`. Here both run on
the map in any order, and what the loop loads is the channel that the dialogs have stored.
-/

namespace Flow

open Run ReadLoop

/-- The value that is stored for a channel. -/
def FlowDialogChan.value (chan : FlowDialogChan) : ReadLoop.FlowDialogChan := { requests := chan }

/-- The operation on the map that a call of `NewServerDialog` makes next. -/
def Dialog.mapOperation (d : Dialog) : Option ReadEvent :=
  match d.phase with
  | .entered => some (.store d.id d.chan)
  | .stored => some (.store "last" d.chan)
  | .active _ => some (.delete "last")
  | .unaliased => some (.delete d.id)
  | .ended => none

def mapOperations (p : Dialogs) : DialogEvent → List ReadEvent
  | .call _ => []
  | .step i => (p.threads[i]?.bind Dialog.mapOperation).toList

inductive ConnectionEvent where
  /-- An event of the read loop, or of the channels. -/
  | loop (e : ReadEvent)
  | dialog (e : DialogEvent)
  deriving DecidableEq, Repr

structure Connection where
  loop : ReadState := {}
  dialogs : Dialogs := Dialogs.none

variable (cx : ReadContext)

def connectionStep (c : Connection) : ConnectionEvent → Connection
  | .loop e => { c with loop := readStep cx c.loop e }
  | .dialog e => { loop := run (readStep cx) c.loop (mapOperations c.dialogs e), dialogs := dialogsStep c.dialogs e }

/-- The map is written to by the dialogs only. -/
def LeavesMap : ConnectionEvent → Prop
  | .loop e => (∀ did chan, e ≠ .store did chan) ∧ ∀ did, e ≠ .delete did
  | .dialog _ => True

/-- The two views are of one map. -/
def OneMap (c : Connection) : Prop :=
  ∀ did, c.loop.requestDialog did = (c.dialogs.shared.requestDialog did).map FlowDialogChan.value

section OneMap

variable {cx} {c : Connection}

theorem oneMap_dialogStep {s : ReadState} {shared : Dialogs.Shared} (d : Dialog)
    (h : s.requestDialog = fun did => (shared.requestDialog did).map FlowDialogChan.value) (key : String) :
    (run (readStep cx) s d.mapOperation.toList).requestDialog key =
      ((dialogStep shared d).1.requestDialog key).map FlowDialogChan.value := by
  have hupdate : ∀ did v, Function.update s.requestDialog did (v.map FlowDialogChan.value) key =
      (Function.update shared.requestDialog did v key).map FlowDialogChan.value := by
    intro did v
    rw [h]
    exact (Function.apply_update (fun _ => Option.map FlowDialogChan.value) _ did v key).symm
  obtain ⟨id, chan, phase⟩ := d
  cases phase with
  | entered => exact hupdate id (some chan)
  | stored => exact hupdate "last" (some chan)
  | active since => exact hupdate "last" none
  | unaliased => exact hupdate id none
  | ended => exact congrFun h key

theorem oneMap_step (c : Connection) (e : ConnectionEvent) (h : OneMap c) (he : LeavesMap e) :
    OneMap (connectionStep cx c e) := by
  cases e with
  | loop e =>
      intro did
      show (readStep cx c.loop e).requestDialog did = _
      rw [readStep_requestDialog c.loop e he.1 he.2]
      exact h did
  | dialog e =>
      cases e with
      | call id => exact h
      | step i =>
          intro did
          simp only [connectionStep, mapOperations, dialogsStep]
          cases hi : c.dialogs.threads[i]? with
          | none =>
              rw [Pool.advance_of_none hi]
              exact h did
          | some d =>
              rw [Pool.advance_of_some hi]
              exact oneMap_dialogStep d (funext h) did

theorem oneMap_run {events : List ConnectionEvent} (h : ∀ e ∈ events, LeavesMap e) :
    OneMap (run (connectionStep cx) {} events) :=
  invariant_of_permitted (connectionStep cx) oneMap_step (fun _ => rfl)
    (permitted_of_forall (connectionStep cx) h)

def dialogEvents (events : List ConnectionEvent) : List DialogEvent :=
  events.filterMap fun
    | .loop _ => none
    | .dialog e => some e

/-- The dialogs do not notice the loop. -/
theorem dialogs_run (c : Connection) (events : List ConnectionEvent) :
    (run (connectionStep cx) c events).dialogs = run dialogsStep c.dialogs (dialogEvents events) := by
  induction events generalizing c with
  | nil => rfl
  | cons e events ih =>
      rw [run_cons, ih]
      cases e <;> rfl

/-- A request for the alias waits for room in the channel of the dialog that was started last. When no dialog is
active it is answered at once. -/
theorem read_last (h : OneMap c) (hlaw : AliasLaw c.dialogs) (hreading : c.loop.loop = .reading) {m : ReadLoop.Message}
    {req : ReadLoop.FlowRequest} (hreceive : receive cx m = .request req) (hdid : req.did = "last")
    (hop : req.op ≠ ":requestCancel") (writeFails : Bool) :
    (∃ d, MostRecent c.dialogs d ∧ (readStep cx c.loop (.read m writeFails)).loop =
        .buffering d.chan.value { req with cancel := some c.loop.contexts }) ∨
      (∀ d ∈ c.dialogs.threads, d.isActive = false) ∧
        ((readStep cx c.loop (.read m writeFails)).loop = .reading ↔ writeFails = false) := by
  have hserve : readStep cx c.loop (.read m writeFails) = serveRequest c.loop req writeFails := by
    simp only [readStep, hreading, hreceive]
  rw [hserve, serveRequest, hdid, h "last"]
  cases hlast : c.dialogs.shared.requestDialog "last" with
  | none =>
      refine .inr ⟨fun d hd => ?_, ?_⟩
      · by_contra hactive
        have hsome := hlaw.resolves.mpr ⟨d, hd, by simpa using hactive⟩
        rw [hlast] at hsome
        cases hsome
      · cases writeFails <;> simp [hreading]
  | some chan =>
      obtain ⟨d, hrecent, rfl⟩ := hlaw.recent chan hlast
      exact .inl ⟨d, hrecent, by simp [hop]⟩

/-- So it is in every run whose dialogs end alone. -/
theorem read_last_run {events : List ConnectionEvent} (hmap : ∀ e ∈ events, LeavesMap e)
    (hdialogs : Permitted dialogsStep (fun p e => FreshID p e ∧ EndsAlone p e) Dialogs.none (dialogEvents events))
    (hreading : (run (connectionStep cx) {} events).loop.loop = .reading) {m : ReadLoop.Message}
    {req : ReadLoop.FlowRequest} (hreceive : receive cx m = .request req) (hdid : req.did = "last")
    (hop : req.op ≠ ":requestCancel") (writeFails : Bool) :
    let c := run (connectionStep cx) {} events
    (∃ d, MostRecent c.dialogs d ∧ (readStep cx c.loop (.read m writeFails)).loop =
        .buffering d.chan.value { req with cancel := some c.loop.contexts }) ∨
      (∀ d ∈ c.dialogs.threads, d.isActive = false) ∧
        ((readStep cx c.loop (.read m writeFails)).loop = .reading ↔ writeFails = false) := by
  refine read_last (oneMap_run hmap) ?_ hreading hreceive hdid hop writeFails
  rw [dialogs_run]
  have hstep : ∀ p e, DialogsInv p → FreshID p e ∧ EndsAlone p e → DialogsInv (dialogsStep p e) :=
    fun _ _ h he => dialogsInv_step h he.1 he.2
  exact (invariant_of_permitted dialogsStep hstep dialogsInv_none hdialogs).law

end OneMap

end Flow
