import Diagox.Lib.Interleave
import Mathlib.Data.List.Perm.Basic

/-!
# A stream with several writers

Writers share a stream and send messages over it, each as a header and then a payload. The two are written one after
the other, and other writers may come between them. Where a header tells its own end and how long its payload is, and
no payload can be taken for a header, what arrives can be read back only if nobody came between.
-/

universe u v w

/-- The stream, what each writer is about to write after a header, and the messages that were begun. -/
structure SharedStream (ω : Type u) (μ : Type v) (β : Type w) where
  out : List β := []
  pending : ω → Option μ := fun _ => none
  written : List μ := []

namespace SharedStream

variable {ω : Type u} {μ : Type v} {β : Type w}

inductive Part (ω : Type u) (μ : Type v) where
  | header (writer : ω) (m : μ)
  | payload (writer : ω)

def frame (header payload : μ → List β) (m : μ) : List β := header m ++ payload m

/-- What a receiver needs to read frames. -/
structure Framing (header payload : μ → List β) : Prop where
  /-- A header is told from the stream it begins, and says how long its payload is. -/
  delimited : ∀ m m' rest rest', header m ++ rest = header m' ++ rest' →
    header m = header m' ∧ (payload m).length = (payload m').length
  /-- No stream can be taken both for a header and for a payload. -/
  apart : ∀ m m' rest rest', header m ++ rest ≠ payload m' ++ rest'

section Decode

variable {header payload : μ → List β}

theorem Framing.header_ne_nil (h : Framing header payload) (m : μ) : header m ≠ [] := by
  intro hnil
  refine h.apart m m (payload m) [] ?_
  rw [hnil, List.nil_append, List.append_nil]

theorem Framing.frame_inj (h : Framing header payload) {m m' : μ} {rest rest' : List β}
    (heq : frame header payload m ++ rest = frame header payload m' ++ rest') : rest = rest' := by
  unfold frame at heq
  rw [List.append_assoc, List.append_assoc] at heq
  obtain ⟨hheader, hlength⟩ := h.delimited _ _ _ _ heq
  rw [hheader] at heq
  exact List.append_inj_right (List.append_cancel_left heq) hlength

theorem Framing.exists_of_flatMap_eq (h : Framing header payload) {ms ms' : List μ} {rest : List β}
    (heq : ms.flatMap (frame header payload) ++ rest = ms'.flatMap (frame header payload)) :
    ∃ ms'' : List μ, rest = ms''.flatMap (frame header payload) := by
  induction ms generalizing ms' with
  | nil => exact ⟨ms', heq⟩
  | cons m ms ih =>
      cases ms' with
      | nil =>
          rw [List.flatMap_cons, List.flatMap_nil, frame, List.append_assoc, List.append_assoc] at heq
          exact absurd (List.append_eq_nil_iff.mp heq).1 (h.header_ne_nil m)
      | cons m' ms' =>
          rw [List.flatMap_cons, List.flatMap_cons, List.append_assoc] at heq
          exact ih (h.frame_inj heq)

theorem Framing.not_frames (h : Framing header payload) {sent ms : List μ} {m m' : μ} {rest : List β} :
    sent.flatMap (frame header payload) ++ (header m ++ (header m' ++ rest)) ≠ ms.flatMap (frame header payload) := by
  intro heq
  obtain ⟨ms', hrest⟩ := h.exists_of_flatMap_eq heq
  cases ms' with
  | nil => exact h.header_ne_nil m (List.append_eq_nil_iff.mp hrest).1
  | cons m'' ms' =>
      rw [List.flatMap_cons, frame, List.append_assoc] at hrest
      obtain ⟨hheader, -⟩ := h.delimited _ _ _ _ hrest
      rw [hheader] at hrest
      exact h.apart _ _ _ _ (List.append_cancel_left hrest)

end Decode

section States

variable (header payload : μ → List β)

/-- The stream is one frame for each message that was written. -/
def Intact (s : SharedStream ω μ β) : Prop :=
  ∃ ms : List μ, ms.Perm s.written ∧ s.out = ms.flatMap (frame header payload)

/-- No header is written between the header and the payload of another writer. -/
def Alone (s : SharedStream ω μ β) : Part ω μ → Prop
  | .header writer _ => ∀ other, other ≠ writer → s.pending other = none
  | .payload _ => True

/-- The stream while nobody has come between. -/
inductive Orderly (s : SharedStream ω μ β) : Prop where
  | idle (sent : List μ) (hpending : ∀ writer, s.pending writer = none) (hwritten : sent.Perm s.written)
      (hout : s.out = sent.flatMap (frame header payload))
  | writing (sent : List μ) (writer : ω) (m : μ) (hpending : s.pending writer = some m)
      (hothers : ∀ other, other ≠ writer → s.pending other = none) (hwritten : (sent ++ [m]).Perm s.written)
      (hout : s.out = sent.flatMap (frame header payload) ++ header m)

/-- A header was written after a header. -/
def Torn (s : SharedStream ω μ β) : Prop :=
  ∃ (sent : List μ) (m m' : μ) (rest : List β),
    s.out = sent.flatMap (frame header payload) ++ (header m ++ (header m' ++ rest))

variable {header payload}

theorem Torn.not_intact {s : SharedStream ω μ β} (h : Framing header payload)
    (htorn : Torn header payload s) : ¬Intact header payload s := by
  rintro ⟨ms, -, hout⟩
  obtain ⟨sent, m, m', rest, hout'⟩ := htorn
  exact h.not_frames (hout'.symm.trans hout)

end States

/-! ### Runs -/

section Steps

variable [DecidableEq ω] (header payload : μ → List β)

/-- A writer has one message under way at a time. -/
def step (s : SharedStream ω μ β) : Part ω μ → SharedStream ω μ β
  | .header writer m => match s.pending writer with
    | some _ => s
    | none =>
        { out := s.out ++ header m
          pending := Function.update s.pending writer (some m)
          written := s.written ++ [m] }
  | .payload writer => match s.pending writer with
    | none => s
    | some m =>
        { out := s.out ++ payload m
          pending := Function.update s.pending writer none
          written := s.written }

variable {header payload} {s : SharedStream ω μ β}

theorem step_header_of_none {writer : ω} {m : μ} (h : s.pending writer = none) :
    step header payload s (.header writer m) =
      { out := s.out ++ header m
        pending := Function.update s.pending writer (some m)
        written := s.written ++ [m] } := by
  simp only [step, h]

theorem step_header_of_some {writer : ω} {m m' : μ} (h : s.pending writer = some m') :
    step header payload s (.header writer m) = s := by
  simp only [step, h]

theorem out_prefix_step (p : Part ω μ) : s.out <+: (step header payload s p).out := by
  cases p with
  | header writer m =>
      simp only [step]
      split
      · exact List.prefix_rfl
      · exact List.prefix_append _ _
  | payload writer =>
      simp only [step]
      split
      · exact List.prefix_rfl
      · exact List.prefix_append _ _

theorem orderly_step {p : Part ω μ} (h : Orderly header payload s) (hp : Alone s p) :
    Orderly header payload (step header payload s p) := by
  cases p with
  | header writer m =>
      cases hwriter : s.pending writer with
      | some m' =>
          rw [step_header_of_some hwriter]
          exact h
      | none =>
          rw [step_header_of_none hwriter]
          cases h with
          | idle sent hpending hwritten hout =>
              refine .writing sent writer m (Function.update_self ..) (fun other hother => ?_) (hwritten.append_right _)
                (by rw [hout])
              exact (Function.update_of_ne hother _ _).trans (hpending other)
          | writing sent writer' m' hpending hothers hwritten hout =>
              have hne : writer' ≠ writer := by
                rintro rfl
                rw [hwriter] at hpending
                cases hpending
              rw [hp writer' hne] at hpending
              cases hpending
  | payload writer =>
      cases hwriter : s.pending writer with
      | none =>
          simp only [step, hwriter]
          exact h
      | some m =>
          simp only [step, hwriter]
          cases h with
          | idle sent hpending hwritten hout =>
              rw [hpending] at hwriter
              cases hwriter
          | writing sent writer' m' hpending hothers hwritten hout =>
              obtain rfl : writer = writer' := by
                by_contra hne
                rw [hothers writer hne] at hwriter
                cases hwriter
              obtain rfl := Option.some.inj (hwriter.symm.trans hpending)
              refine .idle (sent ++ [m]) (fun other => ?_) hwritten (by simp [hout, frame])
              by_cases hother : other = writer
              · subst hother
                exact Function.update_self ..
              · exact (Function.update_of_ne hother _ _).trans (hothers other hother)

theorem torn_of_not_alone {p : Part ω μ} (h : Orderly header payload s) (hp : ¬Alone s p) :
    Torn header payload (step header payload s p) := by
  cases p with
  | header writer m =>
      obtain ⟨other, hother⟩ := not_forall.mp hp
      obtain ⟨hne, hsome⟩ := Classical.not_imp.mp hother
      cases h with
      | idle sent hpending hwritten hout => exact absurd (hpending other) hsome
      | writing sent writer' m' hpending hothers hwritten hout =>
          obtain rfl : other = writer' := by
            by_contra hdiff
            exact hsome (hothers other hdiff)
          rw [step_header_of_none (hothers writer hne.symm)]
          exact ⟨sent, m', m, [], by simp [hout]⟩
  | payload writer => exact absurd trivial hp

theorem torn_step {p : Part ω μ} (h : Torn header payload s) : Torn header payload (step header payload s p) := by
  obtain ⟨sent, m, m', rest, hout⟩ := h
  obtain ⟨more, hmore⟩ : s.out <+: (step header payload s p).out := out_prefix_step p
  exact ⟨sent, m, m', rest ++ more, by rw [← hmore, hout]; simp⟩

/-- When all is written, the stream is intact exactly when every header was followed by its payload. -/
theorem intact_iff (h : Framing header payload) {parts : List (Part ω μ)}
    (hidle : ∀ writer, (Run.run (step header payload) {} parts).pending writer = none) :
    Intact header payload (Run.run (step header payload) {} parts) ↔
      Run.Permitted (step header payload) Alone {} parts := by
  have hinit : Orderly header payload ({} : SharedStream ω μ β) := .idle [] (fun _ => rfl) .nil rfl
  obtain ⟨hpermitted, horderly⟩ | ⟨hnot, htorn⟩ := Run.permitted_or (step header payload)
    (fun _ _ => orderly_step) (fun _ _ => torn_of_not_alone) (fun _ _ => torn_step) hinit parts
  · refine iff_of_true ?_ hpermitted
    cases horderly with
    | idle sent hpending hwritten hout => exact ⟨sent, hwritten, hout⟩
    | writing sent writer m hpending hothers hwritten hout =>
        rw [hidle] at hpending
        cases hpending
  · exact iff_of_false (htorn.not_intact h) hnot

end Steps

end SharedStream
