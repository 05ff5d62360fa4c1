import Diagox.Flow.Operations

/-!
# Files with remote names

A client names the recording it reads, `recordingRead` of `http.go`, and an agent the file it plays, `play` of
`flow_rpc.go`. Both names are joined to a directory, and nothing else is asked of them.
-/

namespace Files

open Defer Defer.Body Flow

structure FileInfo where
  name : String
  modTime : Int
  deriving DecidableEq, Repr

/-- A file that is open, with its properties and its content. -/
structure OpenFile where
  stat : Option FileInfo
  content : List UInt8
  deriving DecidableEq, Repr

inductive Answer where
  | badRequest (reason : String)
  | content (info : FileInfo) (bytes : List UInt8)
  deriving DecidableEq, Repr

def recordingPath (recordingsPath recordingID : String) : String := Path.join [recordingsPath, recordingID ++ ".wav"]

/-- `recordingRead`, for the value of `recording_id` in the query. -/
def recordingRead (recordingsPath : String) (open_ : String → Option OpenFile) (recordingID : String) : Answer :=
  match open_ (recordingPath recordingsPath recordingID) with
  | none => .badRequest "no such a file"
  | some file => match file.stat with
    | none => .badRequest "failed to read file properties"
    | some info => .content info file.content

/-- The file of a `play` request. -/
def playbackFile (playbackDir uri : String) : String :=
  Path.clean (Path.join [playbackDir, Strings.trimPrefix uri "file://"])

section Names

variable {dir : String}

theorem play_opens {cx : DialogContext} {x : Incoming} {args : FlowArgs} (hconfirmed : x.ext.confirmed = true)
    (hargs : x.request.args = .ok args) (hfile : Strings.hasPrefix args.uri "file://" = true) :
    play cx x = do
      onMedia (callOther x.ext.playbackCreate)
      progress cx x 183 "Playback In Progress"
      callOther (x.ext.playFile (playbackFile cx.playbackDir args.uri))
      return none := by
  have hunmarshal : unmarshal x = pure args := by rw [unmarshal, hargs]
  unfold play
  rw [if_pos hconfirmed, hunmarshal]
  show (do
    onMedia (callOther x.ext.playbackCreate)
    progress cx x 183 "Playback In Progress"
    if Strings.hasPrefix args.uri "file://" then _ else _) = _
  rw [if_pos hfile]
  rfl

theorem recordingRead_congr_iff (hdir : Path.clean dir = dir) (recordingID : String) :
    (∀ open_ open', (∀ path, Path.Within dir path → open_ path = open' path) →
        recordingRead dir open_ recordingID = recordingRead dir open' recordingID) ↔
      Path.StaysIn dir (recordingID ++ ".wav") := by
  rw [← Path.within_join_iff hdir]
  constructor
  · intro h
    by_contra hout
    -- a file that is there or not, at the only path that is opened
    let file : OpenFile := { stat := some ⟨"a.wav", 0⟩, content := [] }
    have hsame := h (fun _ => none) (fun path => if path = recordingPath dir recordingID then some file else none) ?_
    · simp [recordingRead, file] at hsame
    · intro path hpath
      rw [if_neg]
      rintro rfl
      exact hout hpath
  · intro hin open_ open' hagree
    have hopen : open_ (recordingPath dir recordingID) = open' (recordingPath dir recordingID) := hagree _ hin
    unfold recordingRead
    rw [hopen]

end Names

/-- A remote name opens a file in its directory if and only if it stays in it: the recording that is asked for, with its
extension, and the file of a URI. -/
theorem remoteNames_within_iff {dir : String} (hdir : Path.clean dir = dir) :
    (∀ recordingID, Path.Within dir (recordingPath dir recordingID) ↔ Path.StaysIn dir (recordingID ++ ".wav")) ∧
      ∀ uri, Strings.hasPrefix uri "file://" = true →
        (Path.Within dir (playbackFile dir uri) ↔ Path.StaysIn dir (Strings.trimPrefix uri "file://")) := by
  refine ⟨fun recordingID => Path.within_join_iff hdir _, fun uri _ => ?_⟩
  rw [playbackFile, (Path.join_spec hdir _).1]
  exact Path.within_join_iff hdir _

theorem remoteNames_within_srv :
    (∀ recordingID, Path.Within "/srv" (recordingPath "/srv" recordingID) ↔
        Path.StaysIn "/srv" (recordingID ++ ".wav")) ∧
      ∀ uri, Strings.hasPrefix uri "file://" = true →
        (Path.Within "/srv" (playbackFile "/srv" uri) ↔ Path.StaysIn "/srv" (Strings.trimPrefix uri "file://")) :=
  remoteNames_within_iff (by decide)

/-- The recordings are left with two dots. -/
theorem not_remoteNames_within :
    ¬ ∀ dir recordingID, Path.clean dir = dir → Path.Within dir (recordingPath dir recordingID) := by
  intro h
  have hstays := (Path.within_join_iff (by decide) _).mp (h "recordings" "../diagox" (by decide))
  revert hstays
  decide

end Files
