import PredictionEdge.EventLog.Scanner

/-!
# The retention authority

The record beside a log that says which bytes were retired on purpose
(`event-log/src/retention.rs`): a boundary below which only pinned frames are kept, the
chain head a scan starts from at the boundary, and a tail the log must still reach. A
binding at or below the boundary is authenticated by reading the pinned frame it ends at.
-/

namespace PredictionEdge.EventLog

open Lib

/--
What the file system holds for one log: its bytes, how many of them are on stable storage,
whether another handle holds the writer lock, and the parsed retention record beside it.
-/
structure LogFile where
  path : String
  canonical : String
  bytes : Option Bytes
  synced : Nat
  locked : Bool
  retention : Option (Except String CheckedAuthority)

/-- A log that does not exist yet. -/
def LogFile.missing (path : String) : LogFile := ⟨path, path, none, 0, false, none⟩

/-- Opening the file for reading. -/
def LogFile.contents (f : LogFile) : Except LogError Bytes :=
  okOr f.bytes (.io "No such file or directory")

variable {f : LogFile}

theorem LogFile.contents_ok {bytes : Bytes} :
    f.contents = .ok bytes ↔ f.bytes = some bytes := okOr_eq_ok

/-- Read and verify the frame at a byte offset, with the byte after that frame. -/
def readAt (lib : Libraries) (f : LogFile) (byteOffset : Nat) (expectedSequence : EventSeq)
    (expectedPreviousHash : Hash) : Except LogError (EventEnvelope × Nat) := do
  let bytes ← f.contents
  verifyFileHeader f.path bytes
  let state := ScanState.atFrame expectedSequence expectedPreviousHash byteOffset
  match ← readVerifiedFrame lib state (bytes.drop byteOffset) with
  | .frame envelope after _ _ => pure (envelope, after.physicalTail)
  | .eof => throw (.truncated expectedSequence byteOffset)
  | .incomplete tail => throw (.truncated tail.nextSequence tail.byteOffset)

variable {lib : Libraries}

theorem readAt_ok {off : Nat} {seq : EventSeq} {prev : Hash} {e : EventEnvelope} {stop : Nat} :
    readAt lib f off seq prev = .ok (e, stop) ↔
      ∃ rest after raw more, f.bytes = some (fileHeader ++ rest) ∧
        readVerifiedFrame lib (.atFrame seq prev off) ((fileHeader ++ rest).drop off) =
          .ok (.frame e after raw more) ∧ after.physicalTail = stop := by
  simp only [readAt, bind_eq_ok, LogFile.contents_ok]
  constructor
  · rintro ⟨bytes, hbytes, _, hheader, step, hstep, h⟩
    obtain ⟨rest, rfl⟩ := verifyFileHeader_ok.mp hheader
    cases step with
    | frame e' after raw more =>
      simp only [pure_eq_ok, Prod.mk.injEq] at h
      obtain ⟨rfl, rfl⟩ := h
      exact ⟨rest, after, raw, more, hbytes, hstep, rfl⟩
    | eof | incomplete tail => simp [throw, throwThe, MonadExceptOf.throw] at h
  · rintro ⟨rest, after, raw, more, hbytes, hstep, rfl⟩
    exact ⟨_, hbytes, (), verifyFileHeader_ok.mpr ⟨rest, rfl⟩, _, hstep, rfl⟩

variable {a : RetentionAuthority}

namespace RetentionAuthority

/-- The pins lie below the boundary, in order, and the last one may end the chain. -/
def validatePins (a : RetentionAuthority) :
    Option (EventSeq × Nat) → List RetentionPin → Except LogError Unit
  | _, [] => .ok ()
  | previous, pin :: pins =>
    if a.boundary.sequence.val ≤ pin.sequence.val ∨ pin.offset < headerLen ∨
        a.boundary.offset ≤ pin.offset ∨
        (previous.any fun p => pin.sequence.val ≤ p.1.val ∨ pin.offset ≤ p.2) ∨
        (pin.wallet.isSome ∧ ¬ pin.reducer) ∨
        (pin.sequence.val + 1 = a.boundary.sequence.val ∧ pin.hash ≠ a.chainHead) then
      .error (.retentionInvalid "invalid or unsorted pins")
    else a.validatePins (some (pin.sequence, pin.offset)) pins

def validateFeed (a : RetentionAuthority) : Nat → List FeedEntry → Except LogError Unit
  | _, [] => .ok ()
  | previousEpoch, entry :: entries =>
    if entry.epoch ≤ previousEpoch ∨ a.epoch < entry.epoch ∨ entry.frameCount = 0 ∨
        entry.length = 0 then
      .error (.retentionInvalid "invalid or unsorted feed epochs")
    else a.validateFeed entry.epoch entries

def validate (a : RetentionAuthority) : Except LogError Unit := do
  refuseIf (a.formatVersion ≠ 1 ∨ a.epoch = 0)
    (.retentionInvalid "unsupported version or zero epoch")
  refuseIf (a.boundary.sequence.val = 0 ∨ a.boundary.offset ≤ headerLen ∨
      a.retainedTail.physicalTail ≤ a.boundary.offset ∨
      ¬ (a.retainedTail.lastSequence.any fun seq => a.boundary.sequence.val ≤ seq.val))
    (.retentionInvalid "invalid boundary or retained tail")
  a.validatePins none a.pins
  a.validateFeed 0 a.feed

/-- The authority beside a log, checked against its checksum. -/
def load (lib : Libraries) (f : LogFile) : Except LogError (Option RetentionAuthority) :=
  match f.retention with
  | none => .ok none
  | some parsed => do
    let checked ← parsed.mapError LogError.retentionInvalid
    let canonical ← (lib.authorityJson checked.authority).mapError LogError.retentionInvalid
    refuseIf (lib.blake3 canonical ≠ checked.checksum)
      (.retentionInvalid "checksum mismatch")
    checked.authority.validate
    pure (some checked.authority)

/-- The pin of a sequence; pins are sorted, so the search finds it. -/
def pin (a : RetentionAuthority) (sequence : EventSeq) : Option RetentionPin :=
  a.pins.find? fun p => p.sequence = sequence

section

variable (lib : Libraries) (f : LogFile) (a : RetentionAuthority)

def verifyPin (pin : RetentionPin) : Except LogError (EventEnvelope × Nat) := do
  let (envelope, stop) ← readAt lib f pin.offset pin.sequence pin.predecessorHash
  refuseIf (envelope.thisHash ≠ pin.hash ∨ a.boundary.offset < stop)
    (.retentionInvalid "pinned frame mismatch")
  pure (envelope, stop)

def verifyPins : Except LogError Unit :=
  a.pins.forM fun pin => (a.verifyPin lib f pin).map fun _ => ()

/-- A binding at or below the boundary must be the end of a pinned frame. -/
def authenticateBinding (binding : LogTailBinding) : Except LogError Unit :=
  if a.boundary.offset < binding.physicalTail then .ok ()
  else do
    let pin ← okOr (binding.lastSequence.bind a.pin) (.retentionInvalid "binding is not pinned")
    refuseIf (f.canonical ≠ binding.path ∨ binding.lastHash ≠ pin.hash)
      (.retentionInvalid "pinned binding mismatch")
    let (_, stop) ← a.verifyPin lib f pin
    refuseIf (stop ≠ binding.physicalTail)
      (.retentionInvalid "pinned binding end offset mismatch")

end

/-- What a verified pin is: a frame of the file, with the pinned hash, below the boundary. -/
theorem verifyPin_ok {pin : RetentionPin} {e : EventEnvelope} {stop : Nat} :
    a.verifyPin lib f pin = .ok (e, stop) ↔
      readAt lib f pin.offset pin.sequence pin.predecessorHash = .ok (e, stop) ∧
        e.thisHash = pin.hash ∧ stop ≤ a.boundary.offset := by
  simp only [verifyPin, bind_eq_ok, refuseIf_eq_ok, pure_eq_ok, Prod.mk.injEq]
  constructor
  · rintro ⟨⟨e', stop'⟩, hread, _, hpin, rfl, rfl⟩
    rw [not_or, not_not, not_lt] at hpin
    exact ⟨hread, hpin⟩
  · rintro ⟨hread, hpin⟩
    refine ⟨(e, stop), hread, (), ?_, rfl, rfl⟩
    rw [not_or, not_not, not_lt]
    exact hpin

theorem verifyPins_ok :
    a.verifyPins lib f = .ok () ↔ ∀ pin ∈ a.pins, ∃ r, a.verifyPin lib f pin = .ok r := by
  unfold verifyPins
  induction a.pins with
  | nil => simp [pure, Except.pure]
  | cons pin pins ih =>
    simp only [List.forM, bind_eq_ok, map_eq_ok, List.forall_mem_cons, ← ih]
    constructor
    · rintro ⟨_, ⟨r, hr, _⟩, hrest⟩
      exact ⟨⟨r, hr⟩, hrest⟩
    · rintro ⟨⟨r, hr⟩, hrest⟩
      exact ⟨(), ⟨r, hr, trivial⟩, hrest⟩

/-- **What an authenticated binding is**: behind the boundary, or the end of a pinned frame. -/
theorem authenticateBinding_ok {binding : LogTailBinding} :
    a.authenticateBinding lib f binding = .ok () ↔
      a.boundary.offset < binding.physicalTail ∨
        ∃ pin e, binding.lastSequence.bind a.pin = some pin ∧ f.canonical = binding.path ∧
          binding.lastHash = pin.hash ∧ a.verifyPin lib f pin = .ok (e, binding.physicalTail) := by
  unfold authenticateBinding
  by_cases hlt : a.boundary.offset < binding.physicalTail
  · simp [hlt]
  · rw [if_neg hlt, or_iff_right hlt]
    simp only [bind_eq_ok, okOr_eq_ok, refuseIf_eq_ok, not_or, not_not]
    constructor
    · rintro ⟨pin, hpin, _, ⟨hpath, hhash⟩, ⟨e, stop⟩, hverify, rfl⟩
      exact ⟨pin, e, hpin, hpath, hhash, hverify⟩
    · rintro ⟨pin, e, hpin, hpath, hhash, hverify⟩
      exact ⟨pin, hpin, (), ⟨hpath, hhash⟩, (e, binding.physicalTail), hverify, rfl⟩

/-- What a loaded authority says of its boundary and of the tail it retains. -/
structure WellPlaced (a : RetentionAuthority) : Prop where
  sequence_pos : 0 < a.boundary.sequence.val
  header_lt : headerLen < a.boundary.offset
  boundary_lt : a.boundary.offset < a.retainedTail.physicalTail
  retained : ∃ seq, a.retainedTail.lastSequence = some seq ∧ a.boundary.sequence.val ≤ seq.val

theorem validate_ok (h : a.validate = .ok ()) : a.WellPlaced := by
  simp only [validate, bind_eq_ok, refuseIf_eq_ok, not_or, not_not] at h
  obtain ⟨_, _, _, ⟨hseq, hoff, htail, hlast⟩, _⟩ := h
  refine ⟨by omega, by omega, by omega, ?_⟩
  cases hs : a.retainedTail.lastSequence with
  | none => rw [hs] at hlast; simp at hlast
  | some seq =>
    rw [hs] at hlast
    exact ⟨seq, rfl, by simpa using hlast⟩

theorem load_some (h : load lib f = .ok (some a)) : a.validate = .ok () := by
  unfold load at h
  split at h
  · simp at h
  · simp only [bind_eq_ok, mapError_eq_ok, pure_eq_ok, Option.some.injEq] at h
    obtain ⟨checked, _, canonical, _, _, _, _, hvalid, rfl⟩ := h
    exact hvalid

end RetentionAuthority

/-- The retained tail under the log's canonical path. -/
def TailBinding.resolve (t : TailBinding) (f : LogFile) : LogTailBinding :=
  ⟨f.canonical, t.physicalTail, t.lastSequence, t.lastHash⟩

/-- Where a scan of the whole log starts: behind the header, or at the boundary. -/
def freshState : Option RetentionAuthority → ScanState
  | some a => .atFrame a.boundary.sequence a.chainHead a.boundary.offset
  | none => .afterHeader

end PredictionEdge.EventLog
