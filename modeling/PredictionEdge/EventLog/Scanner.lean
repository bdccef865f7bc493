import PredictionEdge.EventLog.Frame
import PredictionEdge.Lib.Framing

/-!
# The physical scanner

Reading one verified frame (`event-log/src/scanner.rs`): the frame, the envelope in it, and
the three checks that tie the envelope to the state the scan is in. `VerifiedFrame` is the
reading as a relation between the state before a frame and the state after it; it is the
frame relation of `Framed`, so the scans of the log are readings in its sense.
-/

namespace PredictionEdge.EventLog

open Lib

/-- Exact identity of a completely verified append-only log prefix. -/
structure LogTailBinding where
  path : String
  physicalTail : Nat
  lastSequence : Option EventSeq
  lastHash : Hash
  deriving DecidableEq

/-- A partial frame that starts at the end of the verified prefix and runs to the end. -/
structure IncompleteTail where
  byteOffset : Nat
  nextSequence : EventSeq
  deriving DecidableEq, Repr

structure ScanOutcome where
  verifiedTail : LogTailBinding
  incompleteTail : Option IncompleteTail
  deriving DecidableEq

structure ScanState where
  nextSequence : Nat
  previousHash : Hash
  physicalTail : Nat
  deriving DecidableEq

def ScanState.afterHeader : ScanState := ⟨0, Hash.genesis, headerLen⟩

def ScanState.atFrame (sequence : EventSeq) (previousHash : Hash) (byteOffset : Nat) : ScanState :=
  ⟨sequence.val, previousHash, byteOffset⟩

/-- `next_sequence.checked_sub(1)`. -/
def ScanState.lastSequence (s : ScanState) : Option EventSeq :=
  if s.nextSequence = 0 then none else some ⟨s.nextSequence - 1⟩

def tailBinding (path : String) (s : ScanState) : LogTailBinding :=
  ⟨path, s.physicalTail, s.lastSequence, s.previousHash⟩

variable {s t : ScanState}

theorem ScanState.lastSequence_inj (h : s.lastSequence = t.lastSequence) :
    s.nextSequence = t.nextSequence := by
  unfold lastSequence at h
  split at h <;> split at h
  · omega
  · simp at h
  · simp at h
  · simp only [Option.some.injEq, EventSeq.mk.injEq] at h
    omega

theorem tailBinding_inj {p q : String} (h : tailBinding p s = tailBinding q t) : s = t := by
  simp only [tailBinding, LogTailBinding.mk.injEq] at h
  obtain ⟨_, htail, hseq, hhash⟩ := h
  have := ScanState.lastSequence_inj hseq
  cases s; cases t
  simp only at this hhash htail
  subst this hhash htail
  rfl

/-- Shared decoded-envelope verification. -/
def verifyEnvelope (lib : Libraries) (envelope : EventEnvelope) (expectedSequence : EventSeq)
    (previousHash : Hash) (frameStart : Nat) : Except LogError Unit := do
  refuseIf (envelope.seq ≠ expectedSequence)
    (.sequenceMismatch frameStart expectedSequence envelope.seq)
  refuseIf (lib.blake3 envelope.payload ≠ envelope.rawPayloadHash)
    (.rawPayloadHashMismatch envelope.seq frameStart (lib.blake3 envelope.payload).toHex
      envelope.rawPayloadHash.toHex)
  (verifyChain lib envelope previousHash).mapError fun
    | .prevHashMismatch expected actual => .chainBroken envelope.seq frameStart expected actual
    | .thisHashMismatch expected actual => .chainBroken envelope.seq frameStart expected actual
    | .computeError => .chainComputation envelope.seq frameStart

variable {lib : Libraries} {e : EventEnvelope}

theorem verifyEnvelope_ok {seq : EventSeq} {prev : Hash} {off : Nat} :
    verifyEnvelope lib e seq prev off = .ok () ↔ e.seq = seq ∧ e.prevHash = prev ∧
      ∃ canonical, computeHashes lib e.hashInput = .ok (e.rawPayloadHash, canonical, e.thisHash) := by
  simp only [verifyEnvelope, bind_eq_ok, refuseIf_eq_ok, not_not, mapError_eq_ok,
    verifyChain_ok]
  constructor
  · rintro ⟨_, hseq, _, hraw, hprev, raw, canonical, hc⟩
    refine ⟨hseq, hprev, canonical, ?_⟩
    obtain ⟨hcanonical, hraw', hthis⟩ := computeHashes_ok.mp hc
    exact computeHashes_ok.mpr ⟨hcanonical, hraw, hthis⟩
  · rintro ⟨hseq, hprev, canonical, hc⟩
    exact ⟨(), hseq, (), (computeHashes_ok.mp hc).2.1, hprev, e.rawPayloadHash, canonical, hc⟩

/-- What one read of the scanner finds; a frame comes with the state and the input after it. -/
inductive ScanStep where
  | frame (envelope : EventEnvelope) (state : ScanState) (raw rest : Bytes)
  | eof
  | incomplete (tail : IncompleteTail)

/-- `read_verified_frame_observed`, on the input from the scan's position on. -/
def readVerifiedFrame (lib : Libraries) (state : ScanState) (input : Bytes) :
    Except LogError ScanStep :=
  match readFrame lib input state.physicalTail with
  | .ok none => .ok .eof
  | .error (.truncated byteOffset) => .ok (.incomplete ⟨byteOffset, ⟨state.nextSequence⟩⟩)
  | .error (.crcMismatch byteOffset) => .error (.crcMismatch ⟨state.nextSequence⟩ byteOffset)
  | .error (.frameTooLarge byteOffset len) => .error (.frameTooLarge byteOffset len maxFrameBytes)
  | .error (.decompress message) =>
    .error (.decompress ⟨state.nextSequence⟩ state.physicalTail message)
  | .ok (some r) => do
    let envelope ← (lib.envelopeFromJson r.json).mapError
      (LogError.envelopeDecode ⟨state.nextSequence⟩ state.physicalTail)
    verifyEnvelope lib envelope ⟨state.nextSequence⟩ state.previousHash state.physicalTail
    refuseIf (2 ^ 64 ≤ state.nextSequence + 1) LogError.sequenceOverflow
    pure (.frame envelope
      ⟨state.nextSequence + 1, envelope.thisHash, state.physicalTail + r.raw.length⟩ r.raw r.rest)

/-- In state `s` the bytes `raw` are one frame holding `e`, and the scan goes on in state `t`. -/
def VerifiedFrame (lib : Libraries) (s : ScanState) (raw : Bytes) (e : EventEnvelope)
    (t : ScanState) : Prop :=
  readVerifiedFrame lib s raw = .ok (.frame e t raw [])

variable {input : Bytes}

/-- What reading a frame established. -/
theorem readVerifiedFrame_ok {raw rest : Bytes}
    (h : readVerifiedFrame lib s input = .ok (.frame e t raw rest)) :
    ∃ json, readFrame lib input s.physicalTail = .ok (some ⟨json, raw, rest⟩) ∧
      lib.envelopeFromJson json = .ok e ∧
      verifyEnvelope lib e ⟨s.nextSequence⟩ s.previousHash s.physicalTail = .ok () ∧
      s.nextSequence + 1 < 2 ^ 64 ∧
      t = ⟨s.nextSequence + 1, e.thisHash, s.physicalTail + raw.length⟩ := by
  unfold readVerifiedFrame at h
  split at h
  · simp at h
  · simp at h
  · simp at h
  · simp at h
  · simp at h
  · rename_i r hr
    simp only [bind_eq_ok, mapError_eq_ok, refuseIf_eq_ok, pure_eq_ok,
      ScanStep.frame.injEq, not_le] at h
    obtain ⟨e', hjson, _, hverify, _, hover, rfl, rfl, rfl, rfl⟩ := h
    exact ⟨r.json, hr, hjson, hverify, hover, rfl⟩

theorem readVerifiedFrame_of {r : FrameRead}
    (hread : readFrame lib input s.physicalTail = .ok (some r))
    (hjson : lib.envelopeFromJson r.json = .ok e)
    (hverify : verifyEnvelope lib e ⟨s.nextSequence⟩ s.previousHash s.physicalTail = .ok ())
    (hover : s.nextSequence + 1 < 2 ^ 64) : readVerifiedFrame lib s input =
      .ok (.frame e ⟨s.nextSequence + 1, e.thisHash, s.physicalTail + r.raw.length⟩ r.raw r.rest) := by
  simp only [readVerifiedFrame, hread, bind_eq_ok, mapError_eq_ok, refuseIf_eq_ok,
    pure_eq_ok]
  exact ⟨e, hjson, (), hverify, (), not_le.mpr hover, rfl⟩

/-- What follows a verified frame does not matter to reading it. -/
theorem readVerifiedFrame_local {raw rest : Bytes}
    (h : readVerifiedFrame lib s input = .ok (.frame e t raw rest)) (rest' : Bytes) :
    readVerifiedFrame lib s (raw ++ rest') = .ok (.frame e t raw rest') := by
  obtain ⟨json, hread, hjson, hverify, hover, rfl⟩ := readVerifiedFrame_ok h
  exact readVerifiedFrame_of (readFrame_local hread rest') hjson hverify hover

theorem readVerifiedFrame_split {raw rest : Bytes}
    (h : readVerifiedFrame lib s input = .ok (.frame e t raw rest)) :
    input = raw ++ rest ∧ VerifiedFrame lib s raw e t := by
  obtain ⟨json, hread, -⟩ := readVerifiedFrame_ok h
  obtain ⟨_, _, _, _, _, _, _, hinput⟩ := readFrame_ok hread
  refine ⟨hinput, ?_⟩
  have := readVerifiedFrame_local h []
  rwa [List.append_nil] at this

namespace VerifiedFrame

variable {lib : Libraries} {s t : ScanState} {raw : Bytes} {e : EventEnvelope}

theorem read (h : VerifiedFrame lib s raw e t) (rest : Bytes) :
    readVerifiedFrame lib s (raw ++ rest) = .ok (.frame e t raw rest) :=
  readVerifiedFrame_local h rest

theorem raw_ne_nil (h : VerifiedFrame lib s raw e t) : raw ≠ [] := by
  obtain ⟨json, hread, -⟩ := readVerifiedFrame_ok h
  exact FrameRead.raw_ne_nil hread

section

variable (h : VerifiedFrame lib s raw e t)

include h

/-- Where the scan stands after the frame. -/
theorem after : t = ⟨s.nextSequence + 1, e.thisHash, s.physicalTail + raw.length⟩ := by
  obtain ⟨json, _, _, _, _, ht⟩ := readVerifiedFrame_ok h
  exact ht

/-- How the event is tied to the state it was read in. -/
theorem linked : e.seq = ⟨s.nextSequence⟩ ∧ e.prevHash = s.previousHash ∧
      ∃ canonical, computeHashes lib e.hashInput = .ok (e.rawPayloadHash, canonical, e.thisHash) := by
  obtain ⟨json, _, _, hverify, _, _⟩ := readVerifiedFrame_ok h
  exact verifyEnvelope_ok.mp hverify

theorem nextSequence_lt : t.nextSequence < 2 ^ 64 := by
  obtain ⟨json, _, _, _, hover, ht⟩ := readVerifiedFrame_ok h
  rw [ht]
  exact hover

theorem lt_physicalTail : s.physicalTail < t.physicalTail := by
  have hraw : 0 < raw.length := List.length_pos_iff.mpr h.raw_ne_nil
  rw [h.after]
  show s.physicalTail < s.physicalTail + raw.length
  omega

end

end VerifiedFrame

/-- **A verified frame is told by the input it begins.** -/
theorem verifiedFrame_prefixFree (lib : Libraries) : PrefixFree (VerifiedFrame lib) where
  ne_nil := fun h => h.raw_ne_nil
  unique := by
    intro s raw raw' e e' t t' rest rest' h h' heq
    have h₁ := h.read rest
    rw [heq, h'.read rest'] at h₁
    simp only [Except.ok.injEq, ScanStep.frame.injEq] at h₁
    exact ⟨h₁.2.2.1.symm, h₁.1.symm, h₁.2.1.symm⟩

/-- The frames of a log that lead from one scan state to another. -/
abbrev Frames (lib : Libraries) := Framed (VerifiedFrame lib)

namespace Frames

variable {lib : Libraries} {s t : ScanState} {raw : Bytes} {items : List (ScanState × EventEnvelope)}

/-- The scan's position moves by the bytes read. -/
theorem physicalTail_eq (h : Frames lib s raw items t) :
    t.physicalTail = s.physicalTail + raw.length := by
  induction h with
  | nil s => simp
  | cons hfirst _ ih =>
    rw [ih, hfirst.after, List.length_append]
    show _ + _ + _ = _
    omega

/-- The scan's sequence moves by the number of frames. -/
theorem nextSequence_eq (h : Frames lib s raw items t) :
    t.nextSequence = s.nextSequence + items.length := by
  induction h with
  | nil s => simp
  | cons hfirst _ ih =>
    rw [ih, hfirst.after, List.length_cons]
    show _ + 1 + _ = _
    omega

theorem nextSequence_lt (h : Frames lib s raw items t) (hs : s.nextSequence < 2 ^ 64) :
    t.nextSequence < 2 ^ 64 := by
  induction h with
  | nil s => exact hs
  | cons hfirst _ ih => exact ih hfirst.nextSequence_lt

end Frames

end PredictionEdge.EventLog
