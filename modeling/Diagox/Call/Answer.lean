import Diagox.Call.Bridge

/-!
# After dialing

What `bridgeAnswer` does with an outbound dialog that was answered, read off the way the calls of the SIP and
media stacks end: the inbound dialog is not answered, or the call stops on the way to its bridge, or it is
bridged until the wait is over.
-/

namespace Call

open Defer Defer.Body Configuration Cdr

section Conditions

variable (ext : Externals) (routeConf : ConfigRoute) (fromEndpoint : ConfigEndpoint)

/-- The closure `answered` comes to its end; `early` says that there is early media. -/
def Answers (early : Bool) : Prop :=
  ext.commonCodecs = .returned () ∧
    if fromEndpoint.media.type = "webrtc" then ext.answerWebrtc = .returned true
    else (if early then ext.answerEarlyMedia else ext.answer) = .returned true ∧ ext.inboundRTPSession = .returned ()

/-- `Answer` hands back a media session, and a panic follows before its close is deferred. -/
def LosesAnswer : Prop :=
  ext.commonCodecs = .returned () ∧ fromEndpoint.media.type ≠ "webrtc" ∧ ext.answer = .returned true ∧
    ext.inboundRTPSession = .panicked

def Records : Prop :=
  routeConf.recording = true →
    ext.openRecordFile = .returned true ∧ ext.stereoRecordingCreate = .returned true ∧ ext.setAudioMonitor = .returned ()

/-- The legs are in the bridge, and the outbound dialog is acknowledged. -/
def Acknowledges : Prop :=
  ext.addMediaIn = .returned true ∧ ext.addMediaOut = .returned true ∧ ext.ack = .returned true

/-- The bridge is complete, and the wait for its end is over. -/
def Joins : Prop :=
  ext.addMediaIn = .returned true ∧ ext.addMediaOut = .returned true ∧ ext.ack = .returned true ∧
    ext.outboundRTPSession = .returned () ∧ ext.termination ≠ .inDone .panicked

/-- An answered call comes to the end of the wait. -/
def Bridges : Prop := Records ext routeConf ∧ Joins ext

end Conditions

/-! ### Frames -/

/-- A frame that comes after another, with the events `t` and the deferred calls `ds`. Dialing is over: its
variables stay. -/
structure Onward (g f' : Frame Vars Deferred) (t : List Event) (ds : List Deferred) : Prop where
  events : f'.vars.events = g.vars.events ++ t
  deferred : f'.deferred = ds ++ g.deferred
  outDialog : f'.vars.outDialog = g.vars.outDialog
  callID : f'.vars.callID = g.vars.callID
  owned : f'.vars.owned = g.vars.owned
  cdrs : f'.vars.cdrs = g.vars.cdrs

theorem Onward.refl (g : Frame Vars Deferred) : Onward g g [] [] := ⟨by simp, rfl, rfl, rfl, rfl, rfl⟩

theorem Onward.called (v : LegVariable) (ds : List Deferred) (s : Vars) : Onward ⟨ds, s⟩ ⟨ds, s.called v⟩ [] [] :=
  ⟨(List.append_nil _).symm, rfl, rfl, rfl, rfl, rfl⟩

theorem Onward.trans {g f f' : Frame Vars Deferred} {t t' : List Event} {ds ds' : List Deferred} (h : Onward g f t ds)
    (h' : Onward f f' t' ds') : Onward g f' (t ++ t') (ds' ++ ds) := by
  constructor
  · rw [h'.events, h.events, List.append_assoc]
  · rw [h'.deferred, h.deferred, List.append_assoc]
  · rw [h'.outDialog, h.outDialog]
  · rw [h'.callID, h.callID]
  · rw [h'.owned, h.owned]
  · rw [h'.cdrs, h.cdrs]

/-- The media session that `answered` leaves to the bridge. -/
def inboundLeg (fromEndpoint : ConfigEndpoint) (s : Vars) : Leg :=
  if fromEndpoint.media.type = "webrtc" then .webrtcIn else s.earlyMedia.getD .answer

def answerEvents (fromEndpoint : ConfigEndpoint) (s : Vars) : List Event :=
  if fromEndpoint.media.type = "webrtc" then [.opened .webrtcIn]
  else if s.earlyMedia.isSome then [] else [.opened .answer]

/-- The variable that `answered` has the codecs from. -/
def codecsLeg (fromEndpoint : ConfigEndpoint) : LegVariable :=
  if fromEndpoint.media.type = "webrtc" then .outWebrtc else .outMedia

/-- The media session of the outbound side. -/
def outboundLeg (s : Vars) : Option Leg := s.outWebrtc <|> s.outMedia

section Rest

variable {ext : Externals} {cx : CallContext} {routeConf : ConfigRoute} {fromEndpoint : ConfigEndpoint}
  {ds : List Deferred} {s : Vars}

theorem meets_answerMedia {f : Frame Vars Deferred} {Q : Leg → Frame Vars Deferred → Prop}
    {E : Exit Bool → Frame Vars Deferred → Prop}
    (hok : ∀ m lost, (if f.vars.earlyMedia.isSome then ext.answerEarlyMedia else ext.answer) = .returned true →
      m = f.vars.earlyMedia.getD .answer → lost = (if f.vars.earlyMedia.isSome then [] else [.opened .answer]) →
      Q m { f with vars := { f.vars with events := f.vars.events ++ lost } })
    (hfail : (if f.vars.earlyMedia.isSome then ext.answerEarlyMedia else ext.answer) ≠ .returned true →
      E (.returned false) f ∧ E .panicked f) : (answerMedia ext).Meets f Q E := by
  unfold answerMedia
  rw [meets_bind, meets_read]
  cases hearly : f.vars.earlyMedia with
  | some m =>
      rw [meets_bind]
      apply meets_attempt
      case herr => exact fun h => (hfail (by simp [hearly, h])).1
      case hpanic => exact fun h => (hfail (by simp [hearly, h])).2
      intro hanswer
      have hnext := hok m [] (by simpa [hearly] using hanswer) (by simp [hearly]) (by simp [hearly])
      rw [List.append_nil] at hnext
      exact hnext
  | none =>
      rw [meets_bind]
      apply meets_attempt
      case herr => exact fun h => (hfail (by simp [hearly, h])).1
      case hpanic => exact fun h => (hfail (by simp [hearly, h])).2
      intro hanswer
      exact hok .answer [.opened .answer] (by simpa [hearly] using hanswer) (by simp [hearly]) (by simp [hearly])

/-- What the closure `answered` leaves when the inbound dialog is answered. -/
structure Answered (ext : Externals) (fromEndpoint : ConfigEndpoint) (s s' : Vars) : Prop where
  answers : Answers ext fromEndpoint s.earlyMedia.isSome
  onward : ∀ ds, Onward ⟨ds, s⟩ ⟨ds, s'⟩ (answerEvents fromEndpoint s) []
  closers : (s'.inWebrtc.map Deferred.closeLeg).toList ++ (s'.inMedia.map Deferred.closeLeg).toList =
    [.closeLeg (inboundLeg fromEndpoint s)]
  inbound : (s'.inWebrtc <|> s'.inMedia) = some (inboundLeg fromEndpoint s)
  outbound : outboundLeg s' = outboundLeg s
  outMedia : s'.outMedia = s.outMedia
  nilCalls : s'.nilCalls = (s.called (codecsLeg fromEndpoint)).nilCalls

/-- What it leaves when it is not. The media session of an answer may be lost. -/
structure Unanswered (ext : Externals) (fromEndpoint : ConfigEndpoint) (s s' : Vars) (lost : List Event) : Prop where
  answers : ¬ Answers ext fromEndpoint s.earlyMedia.isSome
  onward : ∀ ds, Onward ⟨ds, s⟩ ⟨ds, s'⟩ lost []
  nilCalls : s'.nilCalls = (s.called (codecsLeg fromEndpoint)).nilCalls
  lost : lost = [] ∧ (s.earlyMedia.isSome ∨ ¬ LosesAnswer ext fromEndpoint) ∨
    lost = [.opened .answer] ∧ s.earlyMedia = none ∧ LosesAnswer ext fromEndpoint

theorem Unanswered.called (hanswers : ¬ Answers ext fromEndpoint s.earlyMedia.isSome)
    (hkeeps : s.earlyMedia.isSome ∨ ¬ LosesAnswer ext fromEndpoint) :
    Unanswered ext fromEndpoint s (s.called (codecsLeg fromEndpoint)) [] where
  answers := hanswers
  onward ds := .called _ ds s
  nilCalls := rfl
  lost := .inl ⟨rfl, hkeeps⟩

theorem meets_answered_webrtc {Q : Bool → Frame Vars Deferred → Prop} {E : Exit Bool → Frame Vars Deferred → Prop}
    (hmedia : fromEndpoint.media.type = "webrtc") (hin : s.inMedia = none)
    (hok : ∀ s', Answered ext fromEndpoint s s' → Q true ⟨[], s'⟩)
    (hfail : ∀ s' lost, Unanswered ext fromEndpoint s s' lost → E (.returned false) ⟨[], s'⟩ ∧ E .panicked ⟨[], s'⟩) :
    (answered ext fromEndpoint).Meets ⟨[], s⟩ Q E := by
  have hkeeps : ¬ LosesAnswer ext fromEndpoint := fun h => h.2.1 hmedia
  have hleg : codecsLeg fromEndpoint = .outWebrtc := if_pos hmedia
  have hstop := fun hnot => hfail _ [] (.called hnot (.inr hkeeps))
  rw [hleg] at hstop
  rw [answered, if_pos hmedia, meets_bind, meets_receiver, meets_bind]
  apply meets_await
  · rintro ⟨⟩ hcodecs
    have hnot : ext.answerWebrtc ≠ .returned true → ¬ Answers ext fromEndpoint s.earlyMedia.isSome := by
      intro hne h
      exact hne (by simpa [Answers, hmedia] using h.2)
    rw [meets_bind]
    apply meets_attempt
    case herr => exact fun h => (hstop (hnot (by simp [h]))).1
    case hpanic => exact fun h => (hstop (hnot (by simp [h]))).2
    intro hanswer
    rw [meets_bind, meets_event, meets_bind, meets_update, meets_pure]
    apply hok
    constructor
    case answers => exact ⟨hcodecs, by simp [hmedia, hanswer]⟩
    case onward => exact fun ds => ⟨by simp [answerEvents, hmedia, Vars.log, Vars.called], rfl, rfl, rfl, rfl, rfl⟩
    case closers => simp [inboundLeg, hmedia, hin, Vars.log, Vars.called]
    case inbound => simp [inboundLeg, hmedia]
    case outbound => rfl
    case outMedia => rfl
    case nilCalls =>
      rw [hleg]
      rfl
  · intro hcodecs
    exact (hstop fun h => by simp [h.1] at hcodecs).2

theorem meets_answered_media {Q : Bool → Frame Vars Deferred → Prop} {E : Exit Bool → Frame Vars Deferred → Prop}
    (hmedia : fromEndpoint.media.type ≠ "webrtc") (hwebrtc : s.inWebrtc = none)
    (hok : ∀ s', Answered ext fromEndpoint s s' → Q true ⟨[], s'⟩)
    (hfail : ∀ s' lost, Unanswered ext fromEndpoint s s' lost → E (.returned false) ⟨[], s'⟩ ∧ E .panicked ⟨[], s'⟩) :
    (answered ext fromEndpoint).Meets ⟨[], s⟩ Q E := by
  have hleg : codecsLeg fromEndpoint = .outMedia := if_neg hmedia
  have hstop := fun hnot hkeeps => hfail _ [] (.called hnot hkeeps)
  rw [hleg] at hstop
  rw [answered, if_neg hmedia, meets_bind, meets_receiver, meets_bind]
  apply meets_await
  · rintro ⟨⟩ hcodecs
    rw [meets_bind]
    apply meets_answerMedia
    case hfail =>
      intro hfailed
      apply hstop
      · rintro ⟨-, h⟩
        rw [if_neg hmedia] at h
        exact hfailed h.1
      · cases hearly : s.earlyMedia with
        | some m => exact .inl rfl
        | none => exact .inr fun h => hfailed (by simpa [Vars.called, hearly] using h.2.2.1)
    intro m lost hanswer hm hlost
    replace hanswer : (if s.earlyMedia.isSome then ext.answerEarlyMedia else ext.answer) = .returned true := hanswer
    replace hm : m = s.earlyMedia.getD .answer := hm
    replace hlost : lost = if s.earlyMedia.isSome then [] else [.opened .answer] := hlost
    rw [meets_bind, meets_update, meets_bind]
    apply meets_receiver_of_isSome
    · rfl
    rw [meets_bind]
    apply meets_await
    · rintro ⟨⟩ hsession
      rw [meets_pure]
      apply hok
      constructor
      case answers => exact ⟨hcodecs, by rw [if_neg hmedia]; exact ⟨hanswer, hsession⟩⟩
      case onward =>
        exact fun ds => ⟨by simp [answerEvents, hmedia, hlost, Vars.called], rfl, rfl, rfl, rfl, rfl⟩
      case closers => simp [inboundLeg, hmedia, hm, hwebrtc, Vars.called]
      case inbound => simp [inboundLeg, hmedia, hm, hwebrtc, Vars.called]
      case outbound => rfl
      case outMedia => rfl
      case nilCalls => rw [hleg]
    · intro hsession
      refine (hfail _ lost ?_).2
      constructor
      case answers =>
        intro h
        have := h.2
        simp [hmedia, hsession] at this
      case onward => exact fun ds => ⟨rfl, rfl, rfl, rfl, rfl, rfl⟩
      case nilCalls => rw [hleg]
      case lost =>
        cases hearly : s.earlyMedia with
        | some m => exact .inl ⟨by simp [hlost, hearly], .inl rfl⟩
        | none =>
            refine .inr ⟨by simp [hlost, hearly], rfl, hcodecs, hmedia, ?_, hsession⟩
            simpa [hearly] using hanswer
  · intro hcodecs
    exact (hstop (fun h => by simp [h.1] at hcodecs) (.inr fun h => by simp [h.1] at hcodecs)).2

theorem meets_answered {Q : Bool → Frame Vars Deferred → Prop} {E : Exit Unit → Frame Vars Deferred → Prop}
    (hin : s.inMedia = none) (hwebrtc : s.inWebrtc = none)
    (hok : ∀ s', Answered ext fromEndpoint s s' → Q true ⟨ds, s'⟩)
    (hfail : ∀ s' lost, Unanswered ext fromEndpoint s s' lost → Q false ⟨ds, s'⟩ ∧ E .panicked ⟨ds, s'⟩) :
    (call (interp ext cx) (answered ext fromEndpoint) : Stmt Bool).Meets ⟨ds, s⟩ Q E := by
  rw [meets_call]
  by_cases hmedia : fromEndpoint.media.type = "webrtc"
  · exact meets_answered_webrtc hmedia hin hok hfail
  · exact meets_answered_media hmedia hwebrtc hok hfail

theorem isSome_audioMediaIn {l : Leg} (h : (s.inWebrtc <|> s.inMedia) = some l) : (s.leg s.audioMediaIn).isSome := by
  unfold Vars.audioMediaIn
  cases hwebrtc : s.inWebrtc with
  | some l' => simp [Vars.leg, hwebrtc]
  | none =>
      rw [hwebrtc] at h
      simpa [Vars.leg] using Option.isSome_of_eq_some h

/-- The deferred calls of a recording. -/
def OfRecording (ds : List Deferred) : Prop := ∀ d ∈ ds, d = .closeRecordFile ∨ d = .closeMonitor

theorem meets_startRecording {g : Frame Vars Deferred} {Q : Unit → Frame Vars Deferred → Prop}
    {E : Exit Unit → Frame Vars Deferred → Prop} (hin : (g.vars.leg g.vars.audioMediaIn).isSome)
    (hok : Records ext routeConf → ∀ ds id, OfRecording ds →
      Q () ⟨ds ++ g.deferred, { g.vars with recordingID := id }⟩)
    (hfail : ¬ Records ext routeConf → ∀ e ds, OfRecording ds → E e ⟨ds ++ g.deferred, g.vars⟩) :
    (startRecording ext cx routeConf).Meets g Q E := by
  unfold startRecording
  apply meets_ite
  · intro hrecording
    rw [meets_bind]
    apply meets_attempt_or
    case hfail =>
      intro hopen e
      exact hfail (fun h => hopen (h hrecording).1) e [] (by simp [OfRecording])
    intro hopen
    rw [meets_bind, meets_defer, meets_bind, meets_read, meets_bind]
    apply meets_receiver_of_isSome
    · exact hin
    rw [meets_bind]
    apply meets_attempt_or
    case hfail =>
      intro hcreate e
      exact hfail (fun h => hcreate (h hrecording).2.1) e [.closeRecordFile] (by simp [OfRecording])
    intro hcreate
    rw [meets_bind, meets_defer, meets_bind, meets_read, meets_bind]
    apply meets_receiver_of_isSome
    · exact hin
    rw [meets_bind]
    apply meets_await
    · rintro ⟨⟩ hset
      exact hok (fun _ => ⟨hopen, hcreate, hset⟩) [.closeMonitor, .closeRecordFile] cx.inDialogID (by simp [OfRecording])
    · intro hset
      refine hfail (fun h => ?_) .panicked [.closeMonitor, .closeRecordFile] (by simp [OfRecording])
      simp [(h hrecording).2.2] at hset
  · intro hrecording
    exact hok (fun h => absurd h hrecording) [] g.vars.recordingID (by simp [OfRecording])

theorem meets_addMedia {g : Frame Vars Deferred} {Q : Unit → Frame Vars Deferred → Prop}
    {E : Exit Unit → Frame Vars Deferred → Prop} {ok : Exit Bool} {leg : Option Leg}
    (hok : ok = .returned true →
      Q () { g with vars := { g.vars with events := g.vars.events ++ leg.toList.map .bridged } })
    (hfail : ok ≠ .returned true → ∀ e, E e g) : (addMedia ok leg).Meets g Q E := by
  unfold addMedia
  rw [meets_bind]
  apply meets_attempt_or _ hfail
  intro h
  have hnext := hok h
  cases leg with
  | none => simpa [meets_update] using hnext
  | some l => exact hnext

theorem meets_waitDialogTermination {g : Frame Vars Deferred} {Q : Unit → Frame Vars Deferred → Prop}
    {E : Exit Unit → Frame Vars Deferred → Prop}
    (hok : ext.termination ≠ .inDone .panicked → Q () { g with vars := g.vars.log .terminated })
    (hpanic : ext.termination = .inDone .panicked → E .panicked g) : (waitDialogTermination ext).Meets g Q E := by
  unfold waitDialogTermination
  cases hend : ext.termination with
  | inDone hangup =>
      rw [meets_bind]
      apply meets_await
      · intro a ha
        exact hok (by simp [hend, ha])
      · intro ha
        exact hpanic (by rw [hend, ha])
  | outDone => exact hok (by simp [hend])
  | timeout => exact hok (by simp [hend])

/-- The bridge has these events: the legs join it one after the other. -/
def OfBridge (s : Vars) (t : List Event) : Prop :=
  ∀ e ∈ t, ∃ l, e = .bridged l ∧
    ((s.inWebrtc <|> s.inMedia) = some l ∨ outboundLeg s = some l ∨ s.outDialog.map Leg.dialog = some l)

theorem OfBridge.append {s : Vars} {t t' : List Event} (ht : OfBridge s t) (ht' : OfBridge s t') :
    OfBridge s (t ++ t') :=
  fun e he => (List.mem_append.mp he).elim (ht e) (ht' e)

theorem ofBridge_inbound (s : Vars) : OfBridge s ((s.inWebrtc <|> s.inMedia).toList.map .bridged) := by
  intro e he
  obtain ⟨l, hl, rfl⟩ := List.mem_map.mp he
  exact ⟨l, rfl, .inl (by simpa using hl)⟩

theorem ofBridge_outbound (s : Vars) : OfBridge s ((outboundLeg s).toList.map .bridged) := by
  intro e he
  obtain ⟨l, hl, rfl⟩ := List.mem_map.mp he
  exact ⟨l, rfl, .inr (.inl (by simpa using hl))⟩

theorem meets_bridgeMedia {g : Frame Vars Deferred} {Q : Unit → Frame Vars Deferred → Prop}
    {E : Exit Unit → Frame Vars Deferred → Prop} {d : Dialog} (hd : g.vars.outDialog = some d)
    (hok : Joins ext → ∀ f' t, Onward g f' (t ++ [.terminated]) [] → OfBridge g.vars t → .bridged (.dialog d) ∈ t →
      f'.vars.nilCalls = (g.vars.called .outMedia).nilCalls → Q () f')
    (hfail : ¬ Joins ext → ∀ e f' t, Onward g f' t [] → OfBridge g.vars t →
      (¬ Acknowledges ext ∧ f'.vars.nilCalls = g.vars.nilCalls ∨
        Acknowledges ext ∧ f'.vars.nilCalls = (g.vars.called .outMedia).nilCalls) → E e f') :
    (bridgeMedia ext).Meets g Q E := by
  have hin := ofBridge_inbound g.vars
  have hout := ofBridge_outbound g.vars
  have hdialog : OfBridge g.vars [.bridged (.dialog d)] := by
    intro e he
    exact ⟨.dialog d, by simpa using he, .inr (.inr (by simp [hd]))⟩
  unfold bridgeMedia
  rw [meets_bind, meets_read, meets_bind]
  apply meets_addMedia
  case hfail =>
    intro hadd e
    exact hfail (fun h => hadd h.1) e g [] (.refl g) (by simp [OfBridge]) (.inl ⟨fun h => hadd h.1, rfl⟩)
  intro haddIn
  rw [meets_bind, meets_read, meets_bind]
  apply meets_addMedia
  case hfail =>
    intro hadd e
    exact hfail (fun h => hadd h.2.1) e _ _ ⟨rfl, rfl, rfl, rfl, rfl, rfl⟩ hin (.inl ⟨fun h => hadd h.2.1, rfl⟩)
  intro haddOut
  rw [meets_bind]
  refine meets_read_of_eq (a := some d) hd ?_
  dsimp only
  rw [meets_bind]
  apply meets_attempt_or
  case hfail =>
    intro hack e
    exact hfail (fun h => hack h.2.2.1) e _ _ ⟨List.append_assoc _ _ _, rfl, rfl, rfl, rfl, rfl⟩ (hin.append hout)
      (.inl ⟨fun h => hack h.2.2, rfl⟩)
  intro hack
  have hacknowledges : Acknowledges ext := ⟨haddIn, haddOut, hack⟩
  rw [meets_bind, meets_event, meets_bind, meets_update, meets_bind, meets_receiver, meets_bind]
  have hall := (hin.append hout).append hdialog
  apply meets_await
  case hpanic =>
    intro hsession
    refine hfail (fun h => ?_) .panicked _ _ ⟨?_, rfl, rfl, rfl, rfl, rfl⟩ hall (.inr ⟨hacknowledges, rfl⟩)
    · simp [h.2.2.2.1] at hsession
    · simp [Vars.log, Vars.called, outboundLeg]
  rintro ⟨⟩ hsession
  apply meets_waitDialogTermination
  · intro hend
    refine hok ⟨haddIn, haddOut, hack, hsession, hend⟩ _ _ ⟨?_, rfl, rfl, rfl, rfl, rfl⟩ hall (by simp) rfl
    simp [Vars.log, Vars.called, outboundLeg]
  · intro hend
    refine hfail (fun h => h.2.2.2.2 hend) .panicked _ _ ⟨?_, rfl, rfl, rfl, rfl, rfl⟩ hall (.inr ⟨hacknowledges, rfl⟩)
    simp [Vars.log, Vars.called, outboundLeg]

/-! ### The rest of a call -/

def outboundClosers (s : Vars) : List Deferred :=
  (s.outWebrtc.map Deferred.closeLeg).toList ++ (s.outMedia.map Deferred.closeLeg).toList

/-- Where `bridgeDialed` leaves a call: not answered, stopped before the bridge was complete, or at the end of
the wait. -/
inductive Ended (ext : Externals) (routeConf : ConfigRoute) (fromEndpoint : ConfigEndpoint)
    (g f' : Frame Vars Deferred) : Prop where
  | unanswered (lost : List Event) (hanswers : ¬ Answers ext fromEndpoint g.vars.earlyMedia.isSome)
      (hlost : lost = [] ∧ (g.vars.earlyMedia.isSome ∨ ¬ LosesAnswer ext fromEndpoint) ∨
        lost = [.opened .answer] ∧ g.vars.earlyMedia = none ∧ LosesAnswer ext fromEndpoint)
      (h : Onward g f' lost (outboundClosers g.vars))
  | stopped (t : List Event) (ds : List Deferred) (hanswers : Answers ext fromEndpoint g.vars.earlyMedia.isSome)
      (hbridges : ¬ Bridges ext routeConf) (ht : ∀ e ∈ t, ∃ l, e = .bridged l) (hds : OfRecording ds)
      (h : Onward g f' (answerEvents fromEndpoint g.vars ++ t)
        (ds ++ .closeLeg (inboundLeg fromEndpoint g.vars) :: outboundClosers g.vars))
  | ended (t : List Event) (ds : List Deferred) (hanswers : Answers ext fromEndpoint g.vars.earlyMedia.isSome)
      (hbridges : Bridges ext routeConf)
      (ht : ∀ e ∈ t, ∃ l, e = .bridged l ∧ (l = inboundLeg fromEndpoint g.vars ∨ outboundLeg g.vars = some l ∨
        g.vars.outDialog.map Leg.dialog = some l))
      (hdialog : ∀ d, g.vars.outDialog = some d → .bridged (.dialog d) ∈ t) (hds : OfRecording ds)
      (h : Onward g f' (answerEvents fromEndpoint g.vars ++ t ++ [.terminated])
        (ds ++ .closeLeg (inboundLeg fromEndpoint g.vars) :: outboundClosers g.vars))

theorem Answered.onward_bridged {s' : Vars} (h : Answered ext fromEndpoint s s') {f' : Frame Vars Deferred}
    {t : List Event} {ds' : List Deferred} {id : String}
    (hon : Onward ⟨ds' ++ ((s'.inWebrtc.map Deferred.closeLeg).toList ++ (s'.inMedia.map Deferred.closeLeg).toList ++
      (outboundClosers s ++ ds)), { s' with disposition := "ANSWER", recordingID := id }⟩ f' t []) :
    Onward ⟨ds, s⟩ f' (answerEvents fromEndpoint s ++ t)
      (ds' ++ .closeLeg (inboundLeg fromEndpoint s) :: outboundClosers s) := by
  have hanswered := h.onward ds
  constructor
  · have hevents : s'.events = s.events ++ answerEvents fromEndpoint s := hanswered.events
    rw [hon.events]
    simp [hevents]
  · rw [hon.deferred, h.closers]
    simp
  · exact hon.outDialog.trans hanswered.outDialog
  · exact hon.callID.trans hanswered.callID
  · exact hon.owned.trans hanswered.owned
  · exact hon.cdrs.trans hanswered.cdrs

theorem meets_bridgeDialed {d : Dialog} (hd : s.outDialog = some d) (hin : s.inMedia = none)
    (hwebrtc : s.inWebrtc = none) :
    (bridgeDialed ext cx routeConf fromEndpoint).Meets ⟨ds, s⟩ (fun _ => Ended ext routeConf fromEndpoint ⟨ds, s⟩)
      (fun _ => Ended ext routeConf fromEndpoint ⟨ds, s⟩) := by
  unfold bridgeDialed
  rw [meets_bind, meets_read, meets_bind, meets_deferClose, meets_bind, meets_read, meets_bind, meets_deferClose,
    meets_bind, ← List.append_assoc]
  apply meets_answered hin hwebrtc
  case hfail =>
    intro s' lost hunanswered
    have hon := hunanswered.onward ds
    have hend : Ended ext routeConf fromEndpoint ⟨ds, s⟩ ⟨outboundClosers s ++ ds, s'⟩ := by
      apply Ended.unanswered lost hunanswered.answers hunanswered.lost
      exact ⟨hon.events, rfl, hon.outDialog, hon.callID, hon.owned, hon.cdrs⟩
    exact ⟨hend, hend⟩
  intro s' hanswered
  have hon := hanswered.onward ds
  show (bridgeAnswered ext cx routeConf).Meets ⟨outboundClosers s ++ ds, s'⟩ _ _
  have hd' : s'.outDialog = some d := hon.outDialog.trans hd
  unfold bridgeAnswered
  rw [meets_bind, meets_read, meets_bind, meets_deferClose, meets_bind, meets_read, meets_bind, meets_deferClose,
    meets_bind, meets_update, ← List.append_assoc]
  rw [meets_bind]
  apply meets_startRecording (isSome_audioMediaIn hanswered.inbound)
  case hfail =>
    intro hrecords e ds' hds
    apply Ended.stopped [] ds' hanswered.answers (fun h => hrecords h.1) (by simp) hds
    exact hanswered.onward_bridged (.refl _)
  intro hrecords ds' id hds
  apply meets_bridgeMedia hd'
  · intro hjoins f' t hon' ht hdialog _
    refine .ended t ds' hanswered.answers ⟨hrecords, hjoins⟩ ?_ ?_ hds ?_
    · intro e he
      obtain ⟨l, rfl, hl⟩ := ht e he
      refine ⟨l, rfl, ?_⟩
      obtain hl | hl | hl := hl
      · exact .inl (Option.some.inj (hl.symm.trans hanswered.inbound))
      · exact .inr (.inl (hanswered.outbound ▸ hl))
      · exact .inr (.inr (hon.outDialog ▸ hl))
    · intro d₁ hd₁
      rw [hd] at hd₁
      cases hd₁
      exact hdialog
    · rw [List.append_assoc]
      exact hanswered.onward_bridged (by simpa using hon')
  · intro hjoins e f' t hon' ht _
    refine .stopped t ds' hanswered.answers (fun h => hjoins h.2) ?_ hds (hanswered.onward_bridged hon')
    intro e he
    obtain ⟨l, hl, -⟩ := ht e he
    exact ⟨l, hl⟩

end Rest

end Call
