import Diagox.Call.Handler
import Diagox.Call.Lifetimes

/-!
# The records of a call

A call that is admitted should leave one record of its inbound side, and one of its outbound side if an INVITE
was sent. The inbound record is there whatever happens. The outbound one is written by a deferred call that
reads the outbound dialog: it is lost when the fallback is dialed without an answer, which sets the dialog to nil.
-/

namespace Call

open Defer Defer.Body Configuration Cdr Sip

def Deferred.Writes : Deferred → Prop
  | .writeOutCDR | .writeInCDR => True
  | _ => False

def outRecords (ext : Externals) (cx : CallContext) (s : Vars) : List CDR :=
  match s.outDialog with
  | none => []
  | some d => (s.callID d).toList.map (outRecord ext cx s d)

section Unwind

variable {ext : Externals} {cx : CallContext}

theorem unwind_cdrs {ds : List Deferred} (h : ∀ d ∈ ds, ¬ d.Writes) (p : Bool) (s : Vars) :
    (unwind (interp ext cx) ds p s).2.cdrs = s.cdrs := by
  refine unwind_invariant (I := fun s' : Vars => s'.cdrs = s.cdrs) ?_ rfl
  intro d hd p s' hs'
  rw [← hs']
  cases d with
  | writeOutCDR => exact absurd trivial (h _ hd)
  | writeInCDR => exact absurd trivial (h _ hd)
  | closeOwned i =>
      dsimp only [interp]
      split_ifs
      · rfl
      · rfl
  | _ => rfl

theorem interp_writeOutCDR (hcdr : cx.cdrEnable = true) (hwrite : ∀ cdr, ext.cdrWrite cdr = .returned true) (p : Bool)
    (s : Vars) : (interp ext cx .writeOutCDR p s).2.cdrs = s.cdrs ++ outRecords ext cx s := by
  unfold interp outRecords
  dsimp only
  rw [if_pos hcdr]
  obtain _ | d := s.outDialog
  · simp
  · dsimp only
    cases s.callID d with
    | none => simp
    | some callID => simp [storeCDR, hwrite]

theorem interp_writeInCDR (hcdr : cx.cdrEnable = true) (hwrite : ∀ cdr, ext.cdrWrite cdr = .returned true) (p : Bool)
    (s : Vars) : (interp ext cx .writeInCDR p s).2.cdrs = s.cdrs ++ [inRecord ext cx s] := by
  unfold interp
  dsimp only
  rw [if_pos hcdr]
  simp [storeCDR, hwrite]

theorem mem_outRecords {s : Vars} {r : CDR} (h : r ∈ outRecords ext cx s) :
    r.direction = directionOut ∧ r.originatorCallID = cx.inCallID := by
  unfold outRecords at h
  split at h
  · cases h
  · obtain ⟨callID, -, rfl⟩ := List.mem_map.mp h
    exact ⟨rfl, rfl⟩

theorem unwind_dialDeferred (hcdr : cx.cdrEnable = true) (hwrite : ∀ cdr, ext.cdrWrite cdr = .returned true)
    {ds : List Deferred} (hds : ∀ d ∈ ds, ¬ d.Writes) (p : Bool) (s : Vars) :
    (unwind (interp ext cx) (ds ++ dialDeferred) p s).2.cdrs = s.cdrs ++ outRecords ext cx s := by
  have hrest : ∀ d ∈ ([.hangupOut, .closeLeg (.dialog .primary), .cancel, .deleteBridge] : List Deferred),
      ¬ d.Writes := by
    simp [Deferred.Writes]
  -- what runs before the write touches nothing that a record reads
  have hreads : outRecords ext cx (unwind (interp ext cx) ds p s).2 = outRecords ext cx s := by
    rw [unwind_vars]
    rfl
  rw [unwind_append, dialDeferred, unwind_cons, unwind_cdrs hrest, interp_writeOutCDR hcdr hwrite, hreads,
    unwind_cdrs hds]

end Unwind

/-! ### The dialog that is recorded -/

section Condition

variable (ext : Externals) (cx : CallContext) (routeConf : ConfigRoute) (toEndpoint : ConfigEndpoint)

def EntersFallback : Prop :=
  toEndpoint.media.type ≠ "webrtc" ∧
    ((∃ err media, ext.invite .primary = .returned (.failed err media) ∧ Falls routeConf err) ∨
      ext.invite .primary = .returned .earlyMedia ∧ Progresses ext ∧
        ∃ err, ext.waitAnswer = .returned (some err) ∧ Falls routeConf err)

/-- The ends of the external calls with which `bridgeAnswer` leaves a record if and only if an INVITE was sent:
a fallback is answered by a dialog that has a Call-ID if the first one has, or ends in a panic. -/
def KeepsRecord : Prop :=
  ext.newDialog .primary = .returned true → EntersFallback ext routeConf toEndpoint →
    match fallbackOutcome ext cx routeConf 0 routeConf.fallback.endpoints with
    | .returned (some j) => (ext.callID (.fallback j)).isSome = (ext.callID .primary).isSome
    | .returned none => ext.callID .primary = none
    | .panicked => True

/-- The outbound dialog of a call that has dialed. -/
inductive Recorded (s : Vars) : Prop where
  | first (h : ¬ EntersFallback ext routeConf toEndpoint ∨
        fallbackOutcome ext cx routeConf 0 routeConf.fallback.endpoints = .panicked)
      (hdialog : s.outDialog = some .primary)
  | fallback (h : EntersFallback ext routeConf toEndpoint) (j : Nat)
      (hout : fallbackOutcome ext cx routeConf 0 routeConf.fallback.endpoints = .returned (some j))
      (hdialog : s.outDialog = some (.fallback j)) (hid : s.callID (.fallback j) = ext.callID (.fallback j))
  | lost (h : EntersFallback ext routeConf toEndpoint)
      (hout : fallbackOutcome ext cx routeConf 0 routeConf.fallback.endpoints = .returned none)
      (hdialog : s.outDialog = none)

/-- What dialing leaves to the records. -/
structure Charged (s : Vars) : Prop where
  recorded : Recorded ext cx routeConf toEndpoint s
  callID : s.callID .primary = ext.callID .primary
  cdrs : s.cdrs = []

end Condition

section Records

variable {ext : Externals} {cx : CallContext} {routeConf : ConfigRoute} {fromEndpoint toEndpoint : ConfigEndpoint}
  {s s' : Vars}

theorem FellBack.charged {e : Exit Bool} (hid : s.callID .primary = ext.callID .primary) (hcdrs : s.cdrs = [])
    (hdialog : s.outDialog = some .primary) (h : EntersFallback ext routeConf toEndpoint)
    (hfell : FellBack ext cx routeConf s e s') : Charged ext cx routeConf toEndpoint s' := by
  cases hfell with
  | answered j x t hout hfell =>
      refine ⟨.fallback h j hout rfl (hfell.callID_answered j rfl), hfell.callID_primary.trans hid, ?_⟩
      show x.cdrs = []
      rw [hfell.vars]
      exact hcdrs
  | failed x t hout hfell =>
      refine ⟨.lost h hout rfl, hfell.callID_primary.trans hid, ?_⟩
      show x.cdrs = []
      rw [hfell.vars]
      exact hcdrs
  | panicked x t hout hfell =>
      refine ⟨.first (.inr hout) ?_, hfell.callID_primary.trans hid, ?_⟩
      · show x.outDialog = some .primary
        rw [hfell.vars]
        exact hdialog
      · show x.cdrs = []
        rw [hfell.vars]
        exact hcdrs

theorem Invited.charged {e : Exit Bool} (h : Invited ext cx routeConf toEndpoint dialVars e s) :
    Charged ext cx routeConf toEndpoint s := by
  have hid : (dialVars.sent ext .primary).callID .primary = ext.callID .primary := by simp [Vars.sent]
  have hhanded : ∀ media, (dialVars.handed ext media).outDialog = some .primary ∧
      (dialVars.handed ext media).callID .primary = ext.callID .primary ∧ (dialVars.handed ext media).cdrs = [] := by
    intro media
    cases media with
    | true => exact ⟨rfl, hid, rfl⟩
    | false => exact ⟨rfl, hid, rfl⟩
  -- a call that does not fall back keeps its first dialog
  have hfirst : ∀ media, ¬ EntersFallback ext routeConf toEndpoint →
      Charged ext cx routeConf toEndpoint (dialVars.handed ext media) := fun media h =>
    ⟨.first (.inl h) (hhanded media).1, (hhanded media).2.1, (hhanded media).2.2⟩
  have hprogressed : ¬ EntersFallback ext routeConf toEndpoint →
      Charged ext cx routeConf toEndpoint (dialVars.handed ext true).progressed := fun h =>
    ⟨.first (.inl h) (hhanded true).1, (hhanded true).2.1, (hhanded true).2.2⟩
  cases h with
  | webrtc hto h => exact ⟨.first (.inl fun h => h.1 hto) rfl, hid, rfl⟩
  | noWebrtc hto h => exact ⟨.first (.inl fun h => h.1 hto) rfl, hid, rfl⟩
  | panicked hto h => exact ⟨.first (.inl (by simp [EntersFallback, h])) rfl, hid, rfl⟩
  | answered hto h => exact hfirst true (by simp [EntersFallback, h])
  | refused hto err media h herr => exact hfirst media (by simp [EntersFallback, h, herr])
  | fellBack hto err media h herr e s' hfell =>
      obtain ⟨hout, hid, hcdrs⟩ := hhanded media
      exact hfell.charged hid hcdrs hout ⟨hto, .inl ⟨err, media, h, herr⟩⟩
  | earlyStopped hto h hstop e he s' hs' =>
      have hnot : ¬ EntersFallback ext routeConf toEndpoint := by simp [EntersFallback, h, hstop]
      obtain rfl | rfl := hs'
      · exact hfirst true hnot
      · exact hprogressed hnot
  | earlyPanicked hto h hprog hwait => exact hprogressed (by simp [EntersFallback, h, hwait])
  | earlyAnswered hto h hprog hwait => exact hprogressed (by simp [EntersFallback, h, hwait])
  | earlyRefused hto h hprog err hwait herr => exact hprogressed (by simp [EntersFallback, h, hwait, herr])
  | earlyFellBack hto h hprog err hwait herr e s' hfell =>
      obtain ⟨hout, hid, hcdrs⟩ := hhanded true
      exact FellBack.charged (s := (dialVars.handed ext true).progressed) hid hcdrs hout
        ⟨hto, .inr ⟨h, hprog, err, hwait, herr⟩⟩ hfell

theorem Charged.onward {g f' : Frame Vars Deferred} {t : List Event} {ds : List Deferred}
    (h : Charged ext cx routeConf toEndpoint g.vars) (hon : Onward g f' t ds) :
    Charged ext cx routeConf toEndpoint f'.vars := by
  refine ⟨?_, by rw [hon.callID, h.callID], by rw [hon.cdrs, h.cdrs]⟩
  cases h.recorded with
  | first hne hdialog => exact .first hne (hon.outDialog.trans hdialog)
  | fallback henter j hout hdialog hid =>
      exact .fallback henter j hout (hon.outDialog.trans hdialog) (by rw [hon.callID, hid])
  | lost henter hout hdialog => exact .lost henter hout (hon.outDialog.trans hdialog)

theorem Ended.no_writes {f' : Frame Vars Deferred} (h : Ended ext routeConf fromEndpoint ⟨dialDeferred, s⟩ f') :
    ∃ ds t, (∀ d ∈ ds, ¬ d.Writes) ∧ Onward ⟨dialDeferred, s⟩ f' t ds := by
  have hout : ∀ d ∈ outboundClosers s, ¬ d.Writes := by
    intro d hd
    unfold outboundClosers at hd
    obtain hd | hd := List.mem_append.mp hd
    · obtain ⟨l, -, rfl⟩ := by simpa using hd
      exact id
    · obtain ⟨l, -, rfl⟩ := by simpa using hd
      exact id
  have hrest : ∀ ds, OfRecording ds →
      ∀ d ∈ ds ++ .closeLeg (inboundLeg fromEndpoint s) :: outboundClosers s, ¬ d.Writes := by
    intro ds hds d hd
    obtain hd | hd := List.mem_append.mp hd
    · obtain rfl | rfl := hds d hd
      · exact id
      · exact id
    · obtain rfl | hd := List.mem_cons.mp hd
      · exact id
      · exact hout d hd
  cases h with
  | unanswered lost hanswers hlost hon => exact ⟨_, _, hout, hon⟩
  | stopped t ds hanswers hbridges ht hds hon => exact ⟨_, _, hrest ds hds, hon⟩
  | ended t ds hanswers hbridges ht hdialog hds hon => exact ⟨_, _, hrest ds hds, hon⟩

/-- The frame `bridgeAnswer` is left with: no dialog and no record, or a dialog and one write that is to come. -/
def Leaves (ext : Externals) (cx : CallContext) (routeConf : ConfigRoute) (toEndpoint : ConfigEndpoint)
    (f' : Frame Vars Deferred) : Prop :=
  (ext.newDialog .primary ≠ .returned true ∧ f' = ⟨[.cancel, .deleteBridge], {}⟩) ∨
    (ext.newDialog .primary = .returned true ∧ ∃ ds, f'.deferred = ds ++ dialDeferred ∧ (∀ d ∈ ds, ¬ d.Writes) ∧
      Charged ext cx routeConf toEndpoint f'.vars)

theorem meets_leaves : (bridgeAnswer ext cx routeConf fromEndpoint toEndpoint).Meets ⟨[], {}⟩
    (fun _ => Leaves ext cx routeConf toEndpoint) (fun _ => Leaves ext cx routeConf toEndpoint) := by
  apply meets_dial
  · exact fun hdialog _ => .inl ⟨hdialog, rfl⟩
  · intro hdialog s hinvited
    have hended : ∀ f', Ended ext routeConf fromEndpoint ⟨dialDeferred, s⟩ f' → Leaves ext cx routeConf toEndpoint f' := by
      intro f' h
      obtain ⟨ds, t, hds, hon⟩ := h.no_writes
      exact .inr ⟨hdialog, ds, hon.deferred, hds, Charged.onward (g := ⟨dialDeferred, s⟩) hinvited.charged hon⟩
    obtain ⟨d, hs, -⟩ := @Invited.kept ext cx routeConf fromEndpoint toEndpoint s hdialog hinvited
    exact (meets_bridgeDialed hs.outDialog hs.inMedia hs.inWebrtc).mono (fun _ f' => hended f') fun _ f' => hended f'
  · intro hdialog e s he hinvited
    have hleaves : Leaves ext cx routeConf toEndpoint ⟨dialDeferred, s⟩ :=
      .inr ⟨hdialog, [], rfl, by simp, hinvited.charged⟩
    exact ⟨hleaves, hleaves⟩

end Records

/-! ### Whole calls -/

/-- The records a call that was admitted should leave. -/
structure RecordsKept (s : Vars) : Prop where
  inbound : (s.cdrs.filter (·.direction = directionIn)).length = 1
  outbound : (s.cdrs.filter (·.direction = directionOut)).length = if (s.callID .primary).isSome then 1 else 0
  linked : ∀ o ∈ s.cdrs, o.direction = directionOut → ∀ i ∈ s.cdrs, i.direction = directionIn →
    o.originatorCallID = i.callID

/-- A dialog that passes the limiter and the loop check. -/
structure Admitted (pbx : PBX) (rx : RouteExternals) (req : Request) (callID fromUser toUser : String) : Prop where
  callID : req.callID = some callID
  fromUser : req.fromAddress.map (·.user) = some fromUser
  toUser : req.toAddress.map (·.user) = some toUser
  limits : pbx.limitsIncoming = true → rx.dialogRPSLimit = .returned true ∧ rx.dialogActiveLimit = .returned true
  registered : rx.registerOnStateDialog = .returned ()
  noLoop : req.source ≠ req.destination

/-- The ends of the external calls with which a call keeps its records: if it is bridged, dialing does. -/
def CallKeepsRecord (deps : Deps) (pbx : PBX) (rx : RouteExternals) (ext : Externals) (cx : CallContext) (req : Request)
    (fromUser toUser : String) : Prop :=
  ¬ (pbx.testMode ∧ toUser ∈ testUsers) → ∀ args, routeCall deps pbx rx req fromUser toUser = .ok args →
    KeepsRecord ext cx args.routeConf args.toEndpoint

section Handler

variable {deps : Deps} {pbx : PBX} {rx : RouteExternals} {ext : Externals} {cx : CallContext} {req : Request}
  {fromUser toUser : String} {routeConf : ConfigRoute} {fromEndpoint toEndpoint : ConfigEndpoint}

/-- What a call has left when its inbound record is to be written: outbound records of the call, one if an INVITE
was sent, just when the condition holds. -/
structure Settles (cx : CallContext) (C : Prop) (s : Vars) : Prop where
  outbound : ∀ r ∈ s.cdrs, r.direction = directionOut ∧ r.originatorCallID = cx.inCallID
  count : s.cdrs.length = (if (s.callID .primary).isSome then 1 else 0) ↔ C

theorem Charged.length_iff {s : Vars} (h : Charged ext cx routeConf toEndpoint s)
    (hdialog : ext.newDialog .primary = .returned true) :
    (outRecords ext cx s).length = (if (s.callID .primary).isSome then 1 else 0) ↔
      KeepsRecord ext cx routeConf toEndpoint := by
  have hlength : ∀ id : Option String, ∀ d, (id.toList.map (outRecord ext cx s d)).length =
      if id.isSome then 1 else 0 := by
    intro id d
    cases id with
    | none => rfl
    | some id => rfl
  unfold outRecords
  rw [h.callID]
  cases h.recorded with
  | first hne hout =>
      have hkeeps : KeepsRecord ext cx routeConf toEndpoint := by
        intro _ henter
        obtain hne | hne := hne
        · exact absurd henter hne
        · rw [hne]
          trivial
      simp only [hout, h.callID, hlength, hkeeps]
  | fallback henter j hfall hout hid =>
      have hkeeps : KeepsRecord ext cx routeConf toEndpoint ↔
          (ext.callID (.fallback j)).isSome = (ext.callID .primary).isSome := by
        simp [KeepsRecord, hdialog, henter, hfall]
      simp only [hout, hid, hlength, hkeeps]
      cases (ext.callID (.fallback j)).isSome <;> cases (ext.callID .primary).isSome <;> simp
  | lost henter hfall hout =>
      have hkeeps : KeepsRecord ext cx routeConf toEndpoint ↔ ext.callID .primary = none := by
        simp [KeepsRecord, hdialog, henter, hfall]
      simp only [hout, hkeeps]
      cases ext.callID .primary with
      | none => simp
      | some id => simp

theorem meets_bridgeAnswer_settles {ds : List Deferred} (hcdr : cx.cdrEnable = true)
    (hwrite : ∀ cdr, ext.cdrWrite cdr = .returned true) {Q : Unit → Frame Vars Deferred → Prop}
    {E : Exit Unit → Frame Vars Deferred → Prop}
    (h : ∀ s, Settles cx (KeepsRecord ext cx routeConf toEndpoint) s → Q () ⟨ds, s⟩ ∧ E .panicked ⟨ds, s⟩) :
    (call (interp ext cx) (bridgeAnswer ext cx routeConf fromEndpoint toEndpoint) : Stmt Unit).Meets ⟨ds, {}⟩ Q E := by
  have hresumes : ∀ e f', Leaves ext cx routeConf toEndpoint f' → Resumes (interp ext cx) ⟨ds, {}⟩ Q E e f' := by
    intro e f' hleaves
    unfold Resumes
    have hsettles : Settles cx (KeepsRecord ext cx routeConf toEndpoint)
        (unwind (interp ext cx) f'.deferred e.isPanic f'.vars).2 := by
      obtain ⟨hdialog, rfl⟩ | ⟨hdialog, ds', hdeferred, hds', hcharged⟩ := hleaves
      · have hkeeps : KeepsRecord ext cx routeConf toEndpoint := fun h => absurd h hdialog
        have hcdrs : (unwind (interp ext cx) [.cancel, .deleteBridge] e.isPanic {}).2.cdrs = [] :=
          unwind_cdrs (by simp [Deferred.Writes]) _ _
        constructor
        · rw [hcdrs]
          simp
        · rw [hcdrs, unwind_vars]
          simp [hkeeps]
      · have hcdrs := unwind_dialDeferred hcdr hwrite hds' e.isPanic f'.vars
        rw [hdeferred]
        constructor
        · rw [hcdrs, hcharged.cdrs]
          exact fun r hr => mem_outRecords hr
        · rw [hcdrs, hcharged.cdrs, unwind_vars]
          exact hcharged.length_iff hdialog
    generalize e.after (unwind (interp ext cx) f'.deferred e.isPanic f'.vars).1 = o
    cases o with
    | returned r => exact (h _ hsettles).1
    | panicked => exact (h _ hsettles).2
  rw [meets_call]
  exact meets_leaves.mono (fun r => hresumes (.returned r)) hresumes

theorem meets_dialplan {ds : List Deferred} (hcdr : cx.cdrEnable = true)
    (hwrite : ∀ cdr, ext.cdrWrite cdr = .returned true) {Q : Unit → Frame Vars Deferred → Prop}
    {E : Exit Unit → Frame Vars Deferred → Prop}
    (h : ∀ s, Settles cx (CallKeepsRecord deps pbx rx ext cx req fromUser toUser) s →
      Q () ⟨ds, s⟩ ∧ E .panicked ⟨ds, s⟩) :
    (dialplan deps pbx rx ext cx req fromUser toUser).Meets ⟨ds, {}⟩ Q E := by
  -- a call that is not bridged has no record and no INVITE
  have hidle : ∀ responses, CallKeepsRecord deps pbx rx ext cx req fromUser toUser →
      Q () ⟨ds, { responses := responses }⟩ ∧ E .panicked ⟨ds, { responses := responses }⟩ := by
    intro responses hkeeps
    exact h _ ⟨by simp, by simp [hkeeps]⟩
  unfold dialplan
  apply meets_ite
  · intro htest
    have hkeeps : CallKeepsRecord deps pbx rx ext cx req fromUser toUser := fun hnot => absurd htest hnot
    apply meets_await
    · rintro ⟨⟩ -
      exact (hidle [] hkeeps).1
    · intro _
      exact (hidle [] hkeeps).2
  · intro htest
    unfold bridgeCall
    cases hroute : routeCall deps pbx rx req fromUser toUser with
    | ok args =>
        apply meets_bridgeAnswer_settles hcdr hwrite
        intro s hs
        apply h s
        refine ⟨hs.outbound, hs.count.trans ?_⟩
        simp [CallKeepsRecord, htest, hroute]
    | error stop =>
        have hkeeps : CallKeepsRecord deps pbx rx ext cx req fromUser toUser := by
          intro _ args hargs
          rw [hroute] at hargs
          cases hargs
        cases stop with
        | panicked => exact (hidle [] hkeeps).2
        | silent => exact (hidle [] hkeeps).1
        | respond code reason =>
            dsimp only
            rw [meets_bind]
            apply meets_await
            · rintro ⟨⟩ -
              exact (hidle [(code, reason)] hkeeps).1
            · intro _
              exact (hidle [] hkeeps).2

theorem meets_limitIncoming {f : Frame Vars Deferred} {Q : Unit → Frame Vars Deferred → Prop}
    {E : Exit Unit → Frame Vars Deferred → Prop}
    (hlimits : pbx.limitsIncoming = true → rx.dialogRPSLimit = .returned true ∧ rx.dialogActiveLimit = .returned true)
    (hQ : ∀ ds, (∀ d ∈ ds, ¬ d.Writes) → Q () { f with deferred := ds ++ f.deferred }) :
    (limitIncoming pbx rx).Meets f Q E := by
  unfold limitIncoming
  apply meets_ite
  · intro hlimited
    obtain ⟨hrps, hactive⟩ := hlimits hlimited
    rw [hrps, hactive]
    exact hQ [.dialogActiveDec] (by simp [Deferred.Writes])
  · intro _
    exact hQ [] (by simp)

theorem Settles.recordsKept_iff {s s' : Vars} {C : Prop} (hs : Settles cx C s)
    (hcdrs : s'.cdrs = s.cdrs ++ [inRecord ext cx s]) (hid : s'.callID = s.callID) : RecordsKept s' ↔ C := by
  have hin : s'.cdrs.filter (·.direction = directionIn) = [inRecord ext cx s] := by
    have hout : s.cdrs.filter (·.direction = directionIn) = [] := by
      rw [List.filter_eq_nil_iff]
      intro r hr
      rw [(hs.outbound r hr).1]
      decide
    rw [hcdrs, List.filter_append, hout]
    rfl
  have hout : s'.cdrs.filter (·.direction = directionOut) = s.cdrs := by
    have hall : s.cdrs.filter (·.direction = directionOut) = s.cdrs := by
      rw [List.filter_eq_self]
      intro r hr
      simp [(hs.outbound r hr).1]
    have hnone : [inRecord ext cx s].filter (·.direction = directionOut) = [] := rfl
    rw [hcdrs, List.filter_append, hall, hnone, List.append_nil]
  constructor
  · intro h
    rw [← hs.count, ← hid, ← h.outbound, hout]
  · intro hC
    constructor
    · rw [hin]
      rfl
    · rw [hout, hid]
      exact hs.count.mpr hC
    · intro o ho hodir i hi hidir
      have ho' : o ∈ s.cdrs := by
        rw [← hout]
        exact List.mem_filter.mpr ⟨ho, by simpa using hodir⟩
      have hi' : i = inRecord ext cx s := by
        have : i ∈ s'.cdrs.filter (·.direction = directionIn) := List.mem_filter.mpr ⟨hi, by simpa using hidir⟩
        rw [hin] at this
        exact List.mem_singleton.mp this
      rw [(hs.outbound o ho').2, hi']
      rfl

theorem handler_settles {id callID : String} (hpassed : Admitted pbx rx req callID fromUser toUser)
    (hcdr : pbx.cdrEnable = true) (hwrite : ∀ cdr, ext.cdrWrite cdr = .returned true) :
    ∃ s, Settles (pbx.callContext id callID)
        (CallKeepsRecord deps pbx rx ext (pbx.callContext id callID) req fromUser toUser) s ∧
      (run (interp ext (pbx.callContext id callID)) (handler deps pbx rx ext id req) {}).2.cdrs =
        s.cdrs ++ [inRecord ext (pbx.callContext id callID) s] ∧
      (run (interp ext (pbx.callContext id callID)) (handler deps pbx rx ext id req) {}).2.callID = s.callID := by
  let cx := pbx.callContext id callID
  let P : Exit Unit → Frame Vars Deferred → Prop := fun _ f' =>
    ∃ ds, f'.deferred = .hangupIn :: .writeInCDR :: ds ∧ (∀ d ∈ ds, ¬ d.Writes) ∧
      Settles cx (CallKeepsRecord deps pbx rx ext cx req fromUser toUser) f'.vars
  have hmeets : (handler deps pbx rx ext id req).Meets ⟨[], {}⟩ (fun r => P (.returned r)) P := by
    obtain ⟨fromAddress, hfrom, rfl⟩ := Option.map_eq_some_iff.mp hpassed.fromUser
    obtain ⟨toAddress, hto, rfl⟩ := Option.map_eq_some_iff.mp hpassed.toUser
    unfold handler
    rw [meets_bind, meets_defer]
    simp only [hpassed.callID, hfrom, hto]
    rw [meets_bind, meets_defer, meets_bind]
    apply meets_limitIncoming hpassed.limits
    intro limits hlimits
    rw [meets_bind, meets_defer, meets_bind]
    apply meets_await
    · rintro ⟨⟩ -
      rw [if_neg hpassed.noLoop, meets_bind, meets_defer, meets_bind, meets_defer]
      apply meets_dialplan hcdr hwrite
      intro s hs
      have hP : ∀ e, P e ⟨.hangupIn :: .writeInCDR :: .countEnded :: (limits ++ [.logFinished, .recover]), s⟩ := by
        refine fun _ => ⟨_, rfl, ?_, hs⟩
        intro d hd
        obtain rfl | hd := List.mem_cons.mp hd
        · exact not_false
        · obtain hd | hd := List.mem_append.mp hd
          · exact hlimits d hd
          · simp only [List.mem_cons, List.not_mem_nil, or_false] at hd
            obtain rfl | rfl := hd
            · exact not_false
            · exact not_false
      exact ⟨hP (.returned ()), hP .panicked⟩
    · intro hpanic
      rw [hpassed.registered] at hpanic
      cases hpanic
  obtain ⟨e, f', ⟨ds, hdeferred, hds, hs⟩, hrun⟩ := run_of_meets hmeets
  rw [hrun, hdeferred]
  have hcdrs : ∀ p, (unwind (interp ext cx) (.hangupIn :: .writeInCDR :: ds) p f'.vars).2.cdrs =
      f'.vars.cdrs ++ [inRecord ext cx f'.vars] := by
    intro p
    rw [unwind_cons, unwind_cons, unwind_cdrs hds, interp_writeInCDR hcdr hwrite]
    rfl
  refine ⟨f'.vars, hs, hcdrs _, ?_⟩
  rw [unwind_vars]

/-- The records of an admitted call are neither lost nor duplicated, when and only when the external calls end in
one of the ways of `CallKeepsRecord`. -/
theorem handler_records_iff {id callID : String} (hpassed : Admitted pbx rx req callID fromUser toUser)
    (hcdr : pbx.cdrEnable = true) (hwrite : ∀ cdr, ext.cdrWrite cdr = .returned true) :
    RecordsKept (run (interp ext (pbx.callContext id callID)) (handler deps pbx rx ext id req) {}).2 ↔
      CallKeepsRecord deps pbx rx ext (pbx.callContext id callID) req fromUser toUser := by
  obtain ⟨s, hs, hcdrs, hid⟩ := handler_settles hpassed hcdr hwrite
  exact hs.recordsKept_iff hcdrs hid

/-- Calls from alice to bob, whose route falls back to the endpoint `"backup"`. -/
def busyPBX : PBX where
  cdrEnable := true
  conf :=
    { endpoints :=
        ⟨[⟨"alice", { name := "alice", «match» := { type := "user" }, route := "default" }⟩,
          ⟨"bob", { name := "bob", «match» := { type := "user" }, uri := "sip:bob@10.0.0.2" }⟩,
          ⟨"backup", { name := "backup", uri := "sip:bob@10.0.0.3" }⟩],
          by rw [List.NodupKeys]; decide⟩
      routes := AList.singleton "default" (some [busyRoute ["backup"]]) }

def plainRouteExternals : RouteExternals where
  dialogRPSLimit := .returned true
  dialogActiveLimit := .returned true
  registerOnStateDialog := .returned ()
  testDialplan := .returned ()
  respond _ := .returned ()
  authorizeDialog _ := .returned true
  bearerStore := none
  trying := .returned true
  registeredURI _ := .returned ""
  newServerDialog _ := .returned none
  parseUri uri := .returned (some { host := uri })
  block := .returned none
  ringing := .returned true

def aliceRequest : Request :=
  { callID := some "in", fromAddress := some { user := "alice" }, toAddress := some { user := "bob" },
    source := "10.0.0.1:5060", destination := "10.0.0.9:5060", transport := "UDP" }

theorem admitted_alice : Admitted busyPBX plainRouteExternals aliceRequest "in" "alice" "bob" where
  callID := rfl
  fromUser := rfl
  toUser := rfl
  limits := by simp [busyPBX]
  registered := rfl
  noLoop := by decide

theorem handler_records_answered :
    RecordsKept (run (interp (plainExternals fun _ => .returned .answered) (busyPBX.callContext "d" "in"))
      (handler plainDeps busyPBX plainRouteExternals (plainExternals fun _ => .returned .answered) "d" aliceRequest)
      {}).2 :=
  (handler_records_iff admitted_alice rfl fun _ => rfl).mpr fun _ _ _ _ henter =>
    absurd henter (by simp [EntersFallback, plainExternals])

/-- Every INVITE finds its endpoint busy. -/
def busyExternals : Externals := plainExternals fun _ => .returned (.failed { status := some 486 } false)

theorem routeCall_alice : routeCall plainDeps busyPBX plainRouteExternals aliceRequest "alice" "bob" =
    .ok {
      outboundURI := { host := "sip:bob@10.0.0.2", user := "bob" }
      routeConf := busyRoute ["backup"]
      fromEndpoint := { name := "alice", «match» := { type := "user" }, route := "default" }
      toEndpoint := { name := "bob", «match» := { type := "user" }, uri := "sip:bob@10.0.0.2" } } := rfl

/-- A call that finds the endpoint busy, and the fallback endpoint too, loses its outbound record, although two
INVITEs were sent. -/
theorem not_records_kept : ¬ ∀ (deps : Deps) (pbx : PBX) (rx : RouteExternals) (ext : Externals) (req : Request)
    (id callID fromUser toUser : String), Admitted pbx rx req callID fromUser toUser → pbx.cdrEnable = true →
    (∀ cdr, ext.cdrWrite cdr = .returned true) →
    RecordsKept (run (interp ext (pbx.callContext id callID)) (handler deps pbx rx ext id req) {}).2 := by
  intro h
  have hkept := h plainDeps busyPBX plainRouteExternals busyExternals aliceRequest "d" "in" "alice" "bob" admitted_alice
    rfl fun _ => rfl
  have hwrite : ∀ cdr, busyExternals.cdrWrite cdr = .returned true := fun _ => rfl
  obtain ⟨s, hs, hcdrs, hid⟩ := handler_settles admitted_alice rfl hwrite
  have hlost := (hs.recordsKept_iff hcdrs hid).mp hkept (by decide) _ routeCall_alice rfl
    ⟨by decide, .inl ⟨_, _, rfl, by decide⟩⟩
  have hfallback : fallbackOutcome busyExternals (busyPBX.callContext "d" "in") (busyRoute ["backup"]) 0
      (busyRoute ["backup"]).fallback.endpoints = .returned none := by decide
  rw [hfallback] at hlost
  cases hlost

end Handler

end Call
