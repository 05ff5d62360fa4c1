import Diagox.Call.Lifetimes

/-!
# Methods on legs that are not there

`bridgeAnswer` has two variables for a leg of each side, one for a media session and one for a WebRTC session,
and calls methods on them without asking which one is set. Which one it is follows from the media types of the two
endpoints: the codecs of the outbound leg are read from the variable that the inbound side would set, and the
last call of all takes the outbound leg for a media session.
-/

namespace Call

open Defer Defer.Body Configuration

section Condition

variable (ext : Externals) (cx : CallContext) (routeConf : ConfigRoute) (fromEndpoint toEndpoint : ConfigEndpoint)

/-- The fallback is dialed for this error, and one of its endpoints answers. -/
def FallbackAnswers (err : InviteError) : Prop :=
  Falls routeConf err ∧ ∃ j, fallbackOutcome ext cx routeConf 0 routeConf.fallback.endpoints = .returned (some j)

/-- The ends of the external calls with which dialing comes to an outbound leg. -/
def Connects : Prop :=
  ext.newDialog .primary = .returned true ∧
    if toEndpoint.media.type = "webrtc" then ext.inviteWebrtc = .returned true
    else match ext.invite .primary with
      | .panicked => False
      | .returned .answered => True
      | .returned (.failed err _) => FallbackAnswers ext cx routeConf err
      | .returned .earlyMedia =>
          Progresses ext ∧ match ext.waitAnswer with
            | .panicked => False
            | .returned none => True
            | .returned (some err) => FallbackAnswers ext cx routeConf err

/-- Both sides are of one kind, and a call between two WebRTC sides stops before it waits for its end. -/
def CallsSetLegs : Prop :=
  Connects ext cx routeConf toEndpoint →
    (fromEndpoint.media.type = "webrtc" ↔ toEndpoint.media.type = "webrtc") ∧
      (toEndpoint.media.type = "webrtc" →
        ¬ (Answers ext fromEndpoint false ∧ Records ext routeConf ∧ Acknowledges ext))

/-- Every external operation succeeds. -/
structure Succeeds : Prop where
  newDialog : ∀ d, ext.newDialog d = .returned true
  invite : ∀ d, ext.invite d = .returned .answered
  inviteWebrtc : ext.inviteWebrtc = .returned true
  commonCodecs : ext.commonCodecs = .returned ()
  answerWebrtc : ext.answerWebrtc = .returned true
  answerEarlyMedia : ext.answerEarlyMedia = .returned true
  answer : ext.answer = .returned true
  inboundRTPSession : ext.inboundRTPSession = .returned ()
  openRecordFile : ext.openRecordFile = .returned true
  stereoRecordingCreate : ext.stereoRecordingCreate = .returned true
  setAudioMonitor : ext.setAudioMonitor = .returned ()
  addMediaIn : ext.addMediaIn = .returned true
  addMediaOut : ext.addMediaOut = .returned true
  ack : ext.ack = .returned true
  outboundRTPSession : ext.outboundRTPSession = .returned ()
  termination : ext.termination ≠ .inDone .panicked

/-- No method was called on a leg variable that was nil, and a call on which all succeeds has waited for its end. -/
structure LegsSet (s : Vars) : Prop where
  nilCalls : s.nilCalls = []
  waited : Succeeds ext → .terminated ∈ s.events

end Condition

section Called

variable {s : Vars} {v : LegVariable}

theorem nilCalls_called_iff : (s.called v).nilCalls = [] ↔ s.nilCalls = [] ∧ (s.leg v).isSome := by
  unfold Vars.called
  cases hleg : (s.leg v).isSome with
  | true => simp
  | false => simp

end Called

/-! ### Dialing -/

section Dial

variable {ext : Externals} {cx : CallContext} {routeConf : ConfigRoute} {toEndpoint : ConfigEndpoint} {s s' : Vars}
  {e : Exit Bool}

theorem FellBack.nilCalls (h : FellBack ext cx routeConf s e s') : s'.nilCalls = s.nilCalls := by
  cases h with
  | answered j x t hout hfell => rw [hfell.vars]
  | failed x t hout hfell => rw [hfell.vars]
  | panicked x t hout hfell => rw [hfell.vars]

theorem nilCalls_handed (media : Bool) : (s.handed ext media).nilCalls = s.nilCalls := by
  cases media <;> rfl

theorem Invited.nilCalls (h : Invited ext cx routeConf toEndpoint s e s') : s'.nilCalls = s.nilCalls := by
  cases h with
  | fellBack hto err media h herr e s' hfell => exact hfell.nilCalls.trans (nilCalls_handed media)
  | earlyFellBack hto h hprog err hwait herr e s' hfell => exact hfell.nilCalls
  | refused hto err media h herr => exact nilCalls_handed media
  | earlyStopped hto h hstop e he s' hs' =>
      obtain rfl | rfl := hs'
      · rfl
      · rfl
  | _ => rfl

theorem FellBack.connects_iff (h : FellBack ext cx routeConf s e s') {err : InviteError} (herr : Falls routeConf err) :
    e = .returned true ↔ FallbackAnswers ext cx routeConf err := by
  cases h with
  | answered j x t hout hfell => simp [FallbackAnswers, herr, hout]
  | failed x t hout hfell => simp [FallbackAnswers, hout]
  | panicked x t hout hfell => simp [FallbackAnswers, hout]

theorem Invited.connects_iff (hdialog : ext.newDialog .primary = .returned true)
    (h : Invited ext cx routeConf toEndpoint s e s') : e = .returned true ↔ Connects ext cx routeConf toEndpoint := by
  unfold Connects
  cases h with
  | webrtc hto h => simp [hdialog, hto, h]
  | noWebrtc hto h e he => simp [hdialog, hto, h, he]
  | panicked hto h => simp [hdialog, hto, h]
  | answered hto h => simp [hdialog, hto, h]
  | refused hto err media h herr => simp [hdialog, hto, h, FallbackAnswers, herr]
  | fellBack hto err media h herr e s' hfell => simp [hdialog, hto, h, hfell.connects_iff herr]
  | earlyStopped hto h hstop e he s' hs' => simp [hdialog, hto, h, hstop, he]
  | earlyPanicked hto h hprog hwait => simp [hdialog, hto, h, hwait]
  | earlyAnswered hto h hprog hwait => simp [hdialog, hto, h, hprog, hwait]
  | earlyRefused hto h hprog err hwait herr => simp [hdialog, hto, h, hwait, FallbackAnswers, herr]
  | earlyFellBack hto h hprog err hwait herr e s' hfell => simp [hdialog, hto, h, hprog, hwait, hfell.connects_iff herr]

/-- Which variable has the outbound leg. -/
structure OutboundLegs (toEndpoint : ConfigEndpoint) (s : Vars) : Prop where
  outWebrtc : s.outWebrtc.isSome ↔ toEndpoint.media.type = "webrtc"
  outMedia : s.outMedia.isSome ↔ toEndpoint.media.type ≠ "webrtc"
  early : toEndpoint.media.type = "webrtc" → s.earlyMedia = none

theorem FellBack.outboundLegs (hto : toEndpoint.media.type ≠ "webrtc") (hs : s.outWebrtc = none)
    (h : FellBack ext cx routeConf s (.returned true) s') : OutboundLegs toEndpoint s' := by
  cases h with
  | answered j x t hout hfell =>
      constructor
      · rw [hfell.vars]
        simp [hs, hto]
      · simp [hto]
      · exact fun h => absurd h hto

theorem Invited.outboundLegs (h : Invited ext cx routeConf toEndpoint dialVars (.returned true) s) :
    OutboundLegs toEndpoint s := by
  cases h with
  | webrtc hto h => constructor <;> simp [dialVars, Vars.log, Vars.sent, hto]
  | noWebrtc hto h e he => exact absurd rfl he
  | answered hto h => constructor <;> simp [dialVars, Vars.handed, Vars.log, Vars.sent, hto]
  | fellBack hto err media h herr e s' hfell =>
      apply hfell.outboundLegs hto
      cases media <;> rfl
  | earlyStopped hto h hstop e he s' hs' => exact absurd rfl he
  | earlyAnswered hto h hprog hwait =>
      constructor <;> simp [dialVars, Vars.progressed, Vars.handed, Vars.log, Vars.sent, hto]
  | earlyFellBack hto h hprog err hwait herr e s' hfell => exact hfell.outboundLegs hto rfl

end Dial

/-! ### After dialing -/

section Rest

variable {ext : Externals} {cx : CallContext} {routeConf : ConfigRoute} {fromEndpoint toEndpoint : ConfigEndpoint}
  {ds : List Deferred} {s : Vars} {d : Dialog} {f' : Frame Vars Deferred}

/-- The rest of a call calls the method of a nil leg for the codecs, or when it is done with the bridge. -/
theorem meets_bridgeDialed_nilCalls (hd : s.outDialog = some d) (hin : s.inMedia = none) (hwebrtc : s.inWebrtc = none)
    (hnil : s.nilCalls = []) {P : Frame Vars Deferred → Prop}
    (hP : ∀ f', (f'.vars.nilCalls = [] ↔ (s.leg (codecsLeg fromEndpoint)).isSome ∧
      (s.outMedia.isSome ∨
        ¬ (Answers ext fromEndpoint s.earlyMedia.isSome ∧ Records ext routeConf ∧ Acknowledges ext))) → P f') :
    (bridgeDialed ext cx routeConf fromEndpoint).Meets ⟨ds, s⟩ (fun _ => P) fun _ => P := by
  -- a call that does not come to the end of the bridge has made the first call only
  have hfirst : ∀ f' : Frame Vars Deferred, f'.vars.nilCalls = (s.called (codecsLeg fromEndpoint)).nilCalls →
      ¬ (Answers ext fromEndpoint s.earlyMedia.isSome ∧ Records ext routeConf ∧ Acknowledges ext) → P f' := by
    intro f' hcalls hnot
    apply hP
    rw [hcalls, nilCalls_called_iff]
    simp [hnil, hnot]
  unfold bridgeDialed
  rw [meets_bind, meets_read, meets_bind, meets_deferClose, meets_bind, meets_read, meets_bind, meets_deferClose,
    meets_bind]
  apply meets_answered hin hwebrtc
  case hfail =>
    intro s' lost h
    exact ⟨hfirst _ h.nilCalls fun hall => h.answers hall.1, hfirst _ h.nilCalls fun hall => h.answers hall.1⟩
  intro s' hanswered
  show (bridgeAnswered ext cx routeConf).Meets _ _ _
  unfold bridgeAnswered
  rw [meets_bind, meets_read, meets_bind, meets_deferClose, meets_bind, meets_read, meets_bind, meets_deferClose,
    meets_bind, meets_update, meets_bind]
  apply meets_startRecording (isSome_audioMediaIn hanswered.inbound)
  case hfail =>
    intro hrecords e ds' _
    exact hfirst _ hanswered.nilCalls fun h => hrecords h.2.1
  intro hrecords ds' id _
  have hlast : ∀ f' : Frame Vars Deferred, Acknowledges ext →
      f'.vars.nilCalls = (s'.called .outMedia).nilCalls → P f' := by
    intro f' hacknowledges h
    apply hP
    have hall : Answers ext fromEndpoint s.earlyMedia.isSome ∧ Records ext routeConf ∧ Acknowledges ext :=
      ⟨hanswered.answers, hrecords, hacknowledges⟩
    rw [h, nilCalls_called_iff, hanswered.nilCalls, nilCalls_called_iff]
    simp [hnil, hall, Vars.leg, hanswered.outMedia]
  have hd' : s'.outDialog = some d := (hanswered.onward ds).outDialog.trans hd
  apply meets_bridgeMedia hd'
  · intro hjoins f' t _ _ _ h
    exact hlast f' ⟨hjoins.1, hjoins.2.1, hjoins.2.2.1⟩ h
  · intro _ e f' t _ _ h
    obtain ⟨hnot, h⟩ | ⟨hacknowledges, h⟩ := h
    · exact hfirst f' (h.trans hanswered.nilCalls) fun hall => hnot hall.2.2
    · exact hlast f' hacknowledges h

theorem OutboundLegs.codecsLeg_iff (h : OutboundLegs toEndpoint s) : (s.leg (codecsLeg fromEndpoint)).isSome ↔
    (fromEndpoint.media.type = "webrtc" ↔ toEndpoint.media.type = "webrtc") := by
  unfold codecsLeg
  split_ifs with hfrom
  · simp [Vars.leg, h.outWebrtc, hfrom]
  · simp [Vars.leg, h.outMedia, hfrom]

end Rest

/-! ### A call on which all succeeds -/

section Succeeds

variable {ext : Externals} {cx : CallContext} {routeConf : ConfigRoute} {fromEndpoint toEndpoint : ConfigEndpoint}
  {g f' : Frame Vars Deferred}

theorem Succeeds.connects (h : Succeeds ext) : Connects ext cx routeConf toEndpoint := by
  simp [Connects, h.newDialog, h.invite, h.inviteWebrtc]

theorem Succeeds.answers (h : Succeeds ext) (early : Bool) : Answers ext fromEndpoint early := by
  refine ⟨h.commonCodecs, ?_⟩
  split_ifs
  · exact h.answerWebrtc
  · exact ⟨h.answerEarlyMedia, h.inboundRTPSession⟩
  · exact ⟨h.answer, h.inboundRTPSession⟩

theorem Succeeds.bridges (h : Succeeds ext) : Bridges ext routeConf :=
  ⟨fun _ => ⟨h.openRecordFile, h.stereoRecordingCreate, h.setAudioMonitor⟩,
    h.addMediaIn, h.addMediaOut, h.ack, h.outboundRTPSession, h.termination⟩

theorem Ended.terminated_mem (hended : Ended ext routeConf fromEndpoint g f') (h : Succeeds ext) :
    .terminated ∈ f'.vars.events := by
  cases hended with
  | unanswered lost hanswers _ _ => exact absurd (h.answers _) hanswers
  | stopped t ds _ hbridges _ _ _ => exact absurd h.bridges hbridges
  | ended t ds _ _ _ _ _ hon =>
      rw [hon.events]
      simp

end Succeeds

/-! ### Whole calls -/

section Run

variable {ext : Externals} {cx : CallContext} {routeConf : ConfigRoute} {fromEndpoint toEndpoint : ConfigEndpoint}
  {s : Vars}

theorem OutboundLegs.callsSetLegs_iff (h : OutboundLegs toEndpoint s)
    (hconnects : Connects ext cx routeConf toEndpoint) :
    (s.leg (codecsLeg fromEndpoint)).isSome ∧ (s.outMedia.isSome ∨
        ¬ (Answers ext fromEndpoint s.earlyMedia.isSome ∧ Records ext routeConf ∧ Acknowledges ext)) ↔
      CallsSetLegs ext cx routeConf fromEndpoint toEndpoint := by
  rw [h.codecsLeg_iff, h.outMedia, CallsSetLegs]
  by_cases hto : toEndpoint.media.type = "webrtc"
  · simp [hconnects, hto, h.early hto]
  · simp [hconnects, hto]

theorem meets_bridgeAnswer_nilCalls {P : Frame Vars Deferred → Prop}
    (hP : ∀ f', (f'.vars.nilCalls = [] ↔ CallsSetLegs ext cx routeConf fromEndpoint toEndpoint) →
      (Succeeds ext → .terminated ∈ f'.vars.events) → P f') :
    (bridgeAnswer ext cx routeConf fromEndpoint toEndpoint).Meets ⟨[], {}⟩ (fun _ => P) fun _ => P := by
  -- a call that does not come to an outbound leg
  have hstop : ¬ Connects ext cx routeConf toEndpoint → ∀ f' : Frame Vars Deferred, f'.vars.nilCalls = [] → P f' := by
    intro hnot f' hnil
    apply hP
    · exact iff_of_true hnil fun hconnects => absurd hconnects hnot
    · exact fun hsucceeds => absurd hsucceeds.connects hnot
  apply meets_dial
  · intro hdialog _
    exact hstop (fun h => hdialog h.1) _ rfl
  · intro hdialog s hinvited
    have hdialed : ∃ d, Dialed s d ∧ _ ∧ (Kept ext routeConf fromEndpoint dialDeferred s d ↔ _) :=
      hinvited.kept hdialog
    obtain ⟨d, hs, -, -⟩ := hdialed
    have hconnects := (hinvited.connects_iff hdialog).mp rfl
    have hended : (bridgeDialed ext cx routeConf fromEndpoint).Meets ⟨dialDeferred, s⟩ _ _ :=
      meets_bridgeDialed hs.outDialog hs.inMedia hs.inWebrtc
    have hcalls : (bridgeDialed ext cx routeConf fromEndpoint).Meets ⟨dialDeferred, s⟩
        (fun _ f' => f'.vars.nilCalls = [] ↔ CallsSetLegs ext cx routeConf fromEndpoint toEndpoint)
        fun _ f' => f'.vars.nilCalls = [] ↔ CallsSetLegs ext cx routeConf fromEndpoint toEndpoint :=
      meets_bridgeDialed_nilCalls hs.outDialog hs.inMedia hs.inWebrtc hinvited.nilCalls fun f' h =>
        h.trans (hinvited.outboundLegs.callsSetLegs_iff hconnects)
    apply (hended.and hcalls).mono
    · exact fun _ f' h => hP f' h.2 h.1.terminated_mem
    · exact fun _ f' h => hP f' h.2 h.1.terminated_mem
  · intro hdialog e s he hinvited
    have hnot : ¬ Connects ext cx routeConf toEndpoint := mt (hinvited.connects_iff hdialog).mpr he
    exact ⟨hstop hnot _ hinvited.nilCalls, hstop hnot _ hinvited.nilCalls⟩

/-- No method is called on a leg variable that is nil, and a call on which all succeeds waits for its end, when and
only when both sides of a call that has an outbound leg are of one kind, and two WebRTC sides do not come as far as
the wait. -/
theorem bridgeAnswer_legsSet_iff (ext : Externals) (cx : CallContext) (routeConf : ConfigRoute)
    (fromEndpoint toEndpoint : ConfigEndpoint) :
    LegsSet ext (run (interp ext cx) (bridgeAnswer ext cx routeConf fromEndpoint toEndpoint) {}).2 ↔
      CallsSetLegs ext cx routeConf fromEndpoint toEndpoint := by
  let P : Exit Unit → Frame Vars Deferred → Prop := fun _ f' =>
    (f'.vars.nilCalls = [] ↔ CallsSetLegs ext cx routeConf fromEndpoint toEndpoint) ∧
      (Succeeds ext → .terminated ∈ f'.vars.events)
  have hmeets : (bridgeAnswer ext cx routeConf fromEndpoint toEndpoint).Meets ⟨[], {}⟩ (fun r => P (.returned r)) P :=
    meets_bridgeAnswer_nilCalls fun f' hnil hwaited => ⟨hnil, hwaited⟩
  obtain ⟨e, f', ⟨hnil, hwaited⟩, hrun⟩ := run_of_meets hmeets
  rw [hrun, unwind_vars]
  constructor
  · exact fun h => hnil.mp h.nilCalls
  · exact fun h => ⟨hnil.mpr h, fun hsucceeds => List.mem_append_left _ (hwaited hsucceeds)⟩

/-- A call from a SIP endpoint to a WebRTC endpoint on which all succeeds: the codecs are those of a nil media
session. -/
theorem not_legsSet : ¬ ∀ (ext : Externals) (cx : CallContext) (routeConf : ConfigRoute)
    (fromEndpoint toEndpoint : ConfigEndpoint),
    LegsSet ext (run (interp ext cx) (bridgeAnswer ext cx routeConf fromEndpoint toEndpoint) {}).2 := by
  intro h
  have hnil := (h (plainExternals fun _ => .returned .answered) {} {} {} { media := { type := "webrtc" } }).nilCalls
  revert hnil
  decide

end Run

end Call
