import Diagox.Flow.Guards

/-!
# The message of a recording

`listen` puts the request ID in front of the samples and sends both in one message. The samples are those of the
frames that fit behind the metadata, and for a WAV they are encoded before they take the same place. What the agent
reads from the message is what was put into it: the ID has its length in front, so no other message looks the same.
-/

namespace Flow

open Defer Defer.Body

/-! ### The format of the message -/

/-- A message with the ID of a request and a payload. -/
def Encodes (message id payload : List UInt8) : Prop := message = 1 :: putUint32 id.length ++ id ++ payload

theorem putUint32_injective {m n : Nat} (hm : m < 2 ^ 32) (hn : n < 2 ^ 32) (h : putUint32 m = putUint32 n) :
    m = n := by
  rw [← getUint32_putUint32 hm, h, getUint32_putUint32 hn]

/-- A message has one ID and one payload. -/
theorem Encodes.unique {message id payload id' payload' : List UInt8} (h : Encodes message id payload)
    (h' : Encodes message id' payload') (hid : id.length < 2 ^ 32) (hid' : id'.length < 2 ^ 32) :
    id' = id ∧ payload' = payload := by
  have heq : putUint32 id'.length ++ (id' ++ payload') = putUint32 id.length ++ (id ++ payload) := by
    have htail := congrArg List.tail (h'.symm.trans h)
    simpa using htail
  obtain ⟨hsize, hrest⟩ := List.append_inj heq rfl
  exact List.append_inj hrest (putUint32_injective hid' hid hsize)

/-! ### What is sent -/

/-- The samples that are recorded of a request. -/
def Incoming.samples (x : Incoming) (codec : Codec) : List UInt8 := recorded (codec.samples16 * 50 * 10) x.ext.frames

/-- The samples are the first frames for which the buffer has room, as many of them as it has. -/
theorem samples_longestFitting (x : Incoming) (codec : Codec) (h : ∀ b ∈ x.ext.frames, b ≠ []) :
    ∃ taken, LongestFitting (codec.samples16 * 50 * 10) x.ext.frames taken ∧ x.samples codec = taken.flatten :=
  recorded_longestFitting h

/-- What is sent behind the ID: the samples, or their encoding. -/
def Incoming.payload (x : Incoming) (args : FlowArgs) (codec : Codec) : List UInt8 :=
  if args.audioFormat = "wav" then x.ext.wavBytes (wavOpts codec) (x.samples codec) else x.samples codec

/-- What is reported of a recording: the metadata counts. -/
def Incoming.recording (x : Incoming) (codec : Codec) : FlowData :=
  .recording ((recordID x).length + 5 + (x.samples codec).length)
    (durationSec codec ((recordID x).length + 5 + (x.samples codec).length))

theorem putUint32_mod (n : Nat) : putUint32 (n % 2 ^ 32) = putUint32 n := by
  have hbyte : ∀ a b : Nat, a % 256 = b % 256 → UInt8.ofNat a = UInt8.ofNat b := by
    intro a b h
    apply UInt8.toNat_inj.mp
    rw [UInt8.toNat_ofNat', UInt8.toNat_ofNat']
    exact h
  unfold putUint32
  rw [hbyte (n % 2 ^ 32 / 2 ^ 24) (n / 2 ^ 24) (by omega), hbyte (n % 2 ^ 32 / 2 ^ 16) (n / 2 ^ 16) (by omega),
    hbyte (n % 2 ^ 32 / 2 ^ 8) (n / 2 ^ 8) (by omega), hbyte (n % 2 ^ 32) n (by omega)]

theorem newRecordBuffer_room (recordID : List UInt8) (samples16 : Nat) :
    (newRecordBuffer recordID samples16).memoryBuf.length - (newRecordBuffer recordID samples16).n =
      samples16 * 50 * 10 := by
  obtain ⟨-, hn, -⟩ := newRecordBuffer_spec recordID samples16
  rw [length_newRecordBuffer, hn]
  omega

section Buffer

variable (x : Incoming) (codec : Codec)

/-- The buffer when the frames are written. -/
def Incoming.recordBuf : RecordBuffer := ((newRecordBuffer (recordID x) codec.samples16).writeFrames x.ext.frames).1

theorem Incoming.recordBuf_bytes :
    (x.recordBuf codec).bytes = 1 :: putUint32 (recordID x).length ++ recordID x ++ x.samples codec := by
  obtain ⟨hfits, hn, hbytes⟩ := newRecordBuffer_spec (recordID x) codec.samples16
  obtain ⟨hwritten, -⟩ := RecordBuffer.writeFrames_bytes hfits (hn ▸ Nat.succ_pos _) x.ext.frames
  unfold recordBuf samples
  rw [hwritten, hbytes, newRecordBuffer_room, putUint32_mod]

theorem Incoming.recordBuf_n : (x.recordBuf codec).n = (recordID x).length + 5 + (x.samples codec).length := by
  obtain ⟨hfits, hn, -⟩ := newRecordBuffer_spec (recordID x) codec.samples16
  obtain ⟨-, hcount⟩ := RecordBuffer.writeFrames_bytes hfits (hn ▸ Nat.succ_pos _) x.ext.frames
  unfold recordBuf samples
  rw [hcount, newRecordBuffer_room, hn]

end Buffer

/-! ### What `listen` sends -/

section Keeps

variable {α β : Type} {x : Incoming} {f : Frame DialogVars DialogDeferred} {V : α → Prop}

theorem Keeps.meets_sends {b : Code α} (h : Keeps V b) {k : α → Code β} {sent : List (List UInt8)}
    (hf : f.vars.recordings = sent) {Q : β → Frame DialogVars DialogDeferred → Prop}
    {E : Exit Reply → Frame DialogVars DialogDeferred → Prop}
    (hk : ∀ a f', V a → f'.vars.recordings = sent → (k a).Meets f' Q E)
    (hE : ∀ e f', Fatal e → f'.vars.recordings = sent → E e f') : (b >>= k).Meets f Q E :=
  h.meets_bind (fun a f' ha hsame => hk a f' ha (hsame.recordings.trans hf))
    fun e f' he hsame => hE e f' he (hsame.recordings.trans hf)

theorem keeps_copyFrames (buf : RecordBuffer) :
    Keeps (fun buf' => buf' = (buf.writeFrames x.ext.frames).1) (copyFrames x buf) := by
  unfold copyFrames
  obtain ⟨buf', _ | _ | _⟩ := buf.writeFrames x.ext.frames
  · refine (keeps_await _).bind fun err _ => ?_
    cases err with
    | none => exact keeps_pure rfl
    | some err =>
        dsimp only
        split_ifs
        · exact keeps_pure rfl
        · exact keeps_external err
  · exact keeps_external _
  · exact keeps_pure rfl

theorem keeps_encodeRecording (args : FlowArgs) (codec : Codec) :
    Keeps (fun message => Encodes message (recordID x) (x.payload args codec))
      (encodeRecording x args codec (x.recordBuf codec).bytes (newRecordBuffer (recordID x) codec.samples16).n) := by
  obtain ⟨-, hn, -⟩ := newRecordBuffer_spec (recordID x) codec.samples16
  have hsize : (1 :: putUint32 (recordID x).length ++ recordID x).length = (recordID x).length + 5 := by
    simp [putUint32]
  unfold encodeRecording Incoming.payload
  rw [hn, x.recordBuf_bytes codec, List.take_left' hsize, List.drop_left' hsize]
  split_ifs
  · exact (keeps_callOther _).bind fun _ _ => keeps_pure rfl
  · exact keeps_pure rfl

end Keeps

/-- How `listen` ends when some messages have been sent before, with those that have been sent then. -/
inductive Listened (x : Incoming) (before : List (List UInt8)) : Exit Reply → List (List UInt8) → Prop where
  | refused {args : FlowArgs} {reason : String} (hargs : x.request.args = .ok args)
      (hlong : 30 < args.durationSeconds) :
      Listened x before (.returned (.error (.response 400 reason))) before
  | failed {e : Exit Reply} (he : Fatal e) : Listened x before e before
  | sent {e : Exit Reply} {args : FlowArgs} {codec : Codec} {message : List UInt8} (hargs : x.request.args = .ok args)
      (hcodec : x.ext.audioReader = .returned codec) (hmessage : Encodes message (recordID x) (x.payload args codec))
      (he : Fatal e ∨ e = .returned (.ok (some (x.recording codec)))) : Listened x before e (before ++ [message])

section Listen

variable {cx : DialogContext} {x : Incoming}

theorem meets_listen_sends {f : Frame DialogVars DialogDeferred} {before : List (List UInt8)}
    (hf : f.vars.recordings = before) :
    (listen cx x).Meets f (fun data f' => Listened x before (.returned (.ok data)) f'.vars.recordings) fun e f' =>
      Listened x before e f'.vars.recordings := by
  have hfail : ∀ (e : Exit Reply) (f' : Frame DialogVars DialogDeferred), Fatal e → f'.vars.recordings = before →
      Listened x before e f'.vars.recordings := by
    intro e f' he hf'
    rw [hf']
    exact .failed he
  unfold listen
  refine keeps_unmarshal.meets_sends hf (fun args f hargs hf => ?_) hfail
  apply meets_ite
  · intro hlong
    show Listened x before _ f.vars.recordings
    rw [hf]
    exact .refused hargs hlong
  intro _
  refine keeps_stopListen.meets_sends hf (fun _ f _ hf => ?_) hfail
  refine (keeps_onMedia (keeps_await _)).meets_sends hf (fun codec f hcodec hf => ?_) hfail
  refine (keeps_callOther _).meets_sends hf (fun _ f _ hf => ?_) hfail
  refine (keeps_progress _ _).meets_sends hf (fun _ f _ hf => ?_) hfail
  refine (keeps_copyFrames _).meets_sends hf (fun buf f hbuf hf => ?_) hfail
  refine (keeps_progress _ _).meets_sends hf (fun _ f _ hf => ?_) hfail
  obtain rfl : buf = x.recordBuf codec := hbuf
  apply meets_ite
  · intro _
    exact hfail _ _ (.inl rfl) hf
  intro _
  refine (keeps_encodeRecording args codec).meets_sends hf (fun message f hmessage hf => ?_) hfail
  have hsent : ∀ (e : Exit Reply) (f' : Frame DialogVars DialogDeferred),
      Fatal e ∨ e = .returned (.ok (some (x.recording codec))) → f'.vars.recordings = before ++ [message] →
      Listened x before e f'.vars.recordings := by
    intro e f' he hf'
    rw [hf']
    exact .sent hargs hcodec hmessage he
  rw [Body.meets_bind]
  unfold writeBinary
  cases x.ext.writeBinary with
  | some err => exact hfail _ _ (fatal_external err) hf
  | none =>
      have hf' : f.vars.recordings ++ [message] = before ++ [message] := by rw [hf]
      refine keeps_startListen.meets_sends hf' (fun _ f _ hf => ?_) fun e f he => hsent e f (.inl he)
      refine hsent _ f (.inr ?_) hf
      rw [x.recordBuf_n codec]
      rfl

theorem run_listen (cx : DialogContext) (hop : x.request.op = "listen") (s : DialogVars) :
    ∃ e s', run dialogInterp (handleRequest cx x) s = (e, s') ∧ Listened x s.recordings e s'.recordings := by
  have hanswer : x.request.op ≠ "answer" := by
    rw [hop]
    decide
  have hoperation : operation cx x = listen cx x := by simp [operation, hop]
  have hmeets : (handleRequest cx x).Meets ⟨[], s⟩
      (fun reply f => Listened x s.recordings (.returned reply) f.vars.recordings)
      fun e f => Listened x s.recordings e f.vars.recordings := by
    rw [handleRequest, hoperation, Body.meets_bind]
    exact meets_listen_sends rfl
  obtain ⟨e, f, he, -, hrun⟩ :=
    run_handleRequest_calm hanswer (P := fun e f => Listened x s.recordings e f.vars.recordings) hmeets
  exact ⟨e, f.vars, hrun, he⟩

theorem turnStep_recordings {r : DialogRun} (hended : r.ended = none) {e : Exit Reply} {s : DialogVars}
    (hrun : run dialogInterp (handleRequest cx x) r.vars = (e, s)) :
    (turnStep cx r (.request x)).vars.recordings = s.recordings := by
  cases e with
  | panicked => rw [turnStep_panicked hended hrun]
  | returned reply =>
      rw [turnStep_returned hended hrun]
      show (conclude cx x reply s).2.recordings = s.recordings
      rw [conclude_vars]

end Listen

/-- The turn of a `listen` sends nothing or one message. It reads as the ID of the request and the payload and as
nothing else: the samples of the frames that fit, or the encoding of these samples. No buffer makes it panic. -/
theorem listen_sends_encoding (cx : DialogContext) {x : Incoming} (hop : x.request.op = "listen")
    (hid : (recordID x).length < 2 ^ 32) (r : DialogRun) :
    ((turnStep cx r (.request x)).vars.recordings = r.vars.recordings ∨
      ∃ args codec message, x.request.args = .ok args ∧ x.ext.audioReader = .returned codec ∧
        (turnStep cx r (.request x)).vars.recordings = r.vars.recordings ++ [message] ∧
        Encodes message (recordID x) (x.payload args codec) ∧
        ∀ id payload, id.length < 2 ^ 32 → Encodes message id payload →
          id = recordID x ∧ payload = x.payload args codec) ∧
      ∀ codec : Codec, recordingConsistent (x.recordBuf codec).bytes (recordID x)
        (newRecordBuffer (recordID x) codec.samples16).n = true := by
  refine ⟨?_, fun codec => recordingConsistent_writeFrames (recordID x) codec.samples16 x.ext.frames⟩
  by_cases hended : r.ended = none
  · obtain ⟨e, s, hrun, hlistened⟩ := run_listen cx hop r.vars
    rw [turnStep_recordings hended hrun]
    generalize s.recordings = recordings at hlistened
    cases hlistened with
    | refused => exact .inl rfl
    | failed => exact .inl rfl
    | sent hargs hcodec hmessage =>
        right
        refine ⟨_, _, _, hargs, hcodec, rfl, hmessage, fun id payload hid' h => ?_⟩
        exact hmessage.unique h hid hid'
  · left
    rw [turnStep_of_ended hended]

/-- The header of a WAV of one sample of 16 bits, for one channel and 8000 samples in a second. -/
def wavHeader : List UInt8 :=
  [82, 73, 70, 70, 38, 0, 0, 0, 87, 65, 86, 69, 102, 109, 116, 32, 16, 0, 0, 0, 1, 0, 1, 0, 64, 31, 0, 0, 128, 62, 0,
    0, 2, 0, 16, 0, 100, 97, 116, 97, 2, 0, 0, 0]

/-- A recording of one frame of one sample. -/
def shortRequest (audioFormat : String) : Incoming where
  request := { id := "7", op := "listen", args := .ok { audioFormat := audioFormat } }
  ext := { quietExternals with
    frames := [[1, 2]]
    audioReader := .returned { samples16 := 2 }
    wavBytes := fun _ samples => wavHeader ++ samples }

theorem listen_sends_encoding_short :
    (turnStep plainContext { vars := { dialogMedia := some 0 } } (.request (shortRequest "wav"))).vars.recordings =
      [[1, 0, 0, 0, 1, 55] ++ wavHeader ++ [1, 2]] ∧
    ((turnStep plainContext { vars := { dialogMedia := some 0 } } (.request (shortRequest "wav"))).vars.recordings =
        [] ∨
      ∃ args codec message, (shortRequest "wav").request.args = .ok args ∧
        (shortRequest "wav").ext.audioReader = .returned codec ∧
        (turnStep plainContext { vars := { dialogMedia := some 0 } }
          (.request (shortRequest "wav"))).vars.recordings = [] ++ [message] ∧
        Encodes message (recordID (shortRequest "wav")) ((shortRequest "wav").payload args codec) ∧
        ∀ id payload, id.length < 2 ^ 32 → Encodes message id payload →
          id = recordID (shortRequest "wav") ∧ payload = (shortRequest "wav").payload args codec) ∧
      ∀ codec : Codec, recordingConsistent ((shortRequest "wav").recordBuf codec).bytes
        (recordID (shortRequest "wav")) (newRecordBuffer (recordID (shortRequest "wav")) codec.samples16).n = true :=
  ⟨by decide +kernel,
    listen_sends_encoding plainContext (x := shortRequest "wav") rfl (by decide) { vars := { dialogMedia := some 0 } }⟩

end Flow
