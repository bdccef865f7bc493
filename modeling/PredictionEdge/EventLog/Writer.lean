import PredictionEdge.EventLog.Walk

/-!
# The writer

`event-log/src/writer.rs`: opening a log under its exclusive lock, repairing a torn final
frame, appending through a buffer, and binding the verified tail. The file system does what
it is asked; what a crash may lose is the subject of the system model built on this one.
An operation that can leave the file changed and still fail returns its result and the file.
-/

namespace PredictionEdge.EventLog

/-! ## The buffered file handle -/

/-- Bytes written into a file at a position. -/
def writeAt (file : Bytes) (position : Nat) (bytes : Bytes) : Bytes :=
  file.take position ++ bytes ++ file.drop (position + bytes.length)

def LogFile.writeAt (f : LogFile) (position : Nat) (bytes : Bytes) : LogFile :=
  { f with bytes := some (EventLog.writeAt (f.bytes.getD []) position bytes) }

/-- A `BufWriter` over the log file: where the file handle stands and what is waiting. -/
structure BufWriter where
  position : Nat
  buffer : Bytes
  deriving DecidableEq

namespace BufWriter

def capacity : Nat := 8192

def flushBuf (f : LogFile) (b : BufWriter) : LogFile × BufWriter :=
  (f.writeAt b.position b.buffer, ⟨b.position + b.buffer.length, []⟩)

/-- A write goes to the buffer while it fits, and past it when it is as large as the buffer. -/
def writeAll (f : LogFile) (b : BufWriter) (bytes : Bytes) : LogFile × BufWriter :=
  if bytes.length < capacity - b.buffer.length then (f, { b with buffer := b.buffer ++ bytes })
  else
    let (f, b) := if capacity - b.buffer.length < bytes.length then b.flushBuf f else (f, b)
    if capacity ≤ bytes.length then
      (f.writeAt b.position bytes, { b with position := b.position + bytes.length })
    else (f, { b with buffer := b.buffer ++ bytes })

/-- The three writes of `write_frame`. -/
def writeFrame (f : LogFile) (b : BufWriter) (parts : FrameParts) : LogFile × BufWriter :=
  let (f, b) := b.writeAll f parts.len
  let (f, b) := b.writeAll f parts.compressed
  b.writeAll f parts.crc

end BufWriter

/-! ## The writer -/

/-- Single-writer handle for an append-only event log file. -/
structure Writer where
  path : String
  inner : BufWriter
  nextSeq : Nat
  lastHash : Hash
  cursor : Nat
  poisonReason : Option PoisonReason
  deriving DecidableEq

namespace Writer

def fromFile (path : String) (nextSeq : Nat) (lastHash : Hash) (cursor : Nat) : Writer :=
  ⟨path, ⟨cursor, []⟩, nextSeq, lastHash, cursor, none⟩

def ensureHealthy (w : Writer) : Except LogError Unit :=
  match w.poisonReason with
  | some reason => .error (.poisoned reason)
  | none => .ok ()

end Writer

/-- The event a new frame holds, and the frame. -/
def encodeEnvelope (lib : Libraries) (seq : EventSeq) (prevHash : Hash) (input : EnvelopeIn) :
    Except LogError (EventEnvelope × FrameParts) := do
  let (rawPayloadHash, _, thisHash) ← computeHashes lib
    { seq := seq, sourceId := input.sourceId, schemaVersion := input.schemaVersion,
      parserVersion := input.parserVersion, observedAt := input.observedAt,
      receivedAt := input.receivedAt, contentType := input.contentType, prevHash := prevHash,
      payload := input.payload }
  let envelope : EventEnvelope :=
    { seq := seq, sourceId := input.sourceId, schemaVersion := input.schemaVersion,
      parserVersion := input.parserVersion, observedAt := input.observedAt,
      receivedAt := input.receivedAt, contentType := input.contentType,
      rawPayloadHash := rawPayloadHash, prevHash := prevHash, thisHash := thisHash,
      payload := input.payload }
  let json ← (lib.envelopeToJson envelope).mapError LogError.serde
  let parts ← frameParts lib json
  pure (envelope, parts)

namespace Writer

/-- `append` up to its writes: a failure here leaves the writer and the file as they were. -/
def prepareAppend (lib : Libraries) (w : Writer) (input : EnvelopeIn) :
    Except LogError (EventEnvelope × FrameParts) := do
  w.ensureHealthy
  Lib.refuseIf (2 ^ 64 ≤ w.nextSeq + 1) .sequenceOverflow
  encodeEnvelope lib ⟨w.nextSeq⟩ w.lastHash input

/-- Append a new event; its bytes may stay in the buffer. -/
def append (lib : Libraries) (f : LogFile) (w : Writer) (input : EnvelopeIn) :
    Except LogError EventSeq × LogFile × Writer :=
  match w.prepareAppend lib input with
  | .error e => (.error e, f, w)
  | .ok (envelope, parts) =>
    let (f, inner) := w.inner.writeFrame f parts
    let cursor := w.cursor + (parts.compressed.length + 8)
    if 2 ^ 64 ≤ cursor then
      (.error (.io "event-log byte cursor overflowed"), f,
        { w with inner := inner, poisonReason := some .append })
    else
      (.ok ⟨w.nextSeq⟩, f,
        { w with
          inner := inner, cursor := cursor, nextSeq := w.nextSeq + 1,
          lastHash := envelope.thisHash })

/-- Flush buffered frame bytes. -/
def flush (f : LogFile) (w : Writer) : Except LogError Unit × LogFile × Writer :=
  match w.ensureHealthy with
  | .error e => (.error e, f, w)
  | .ok () =>
    let (f, inner) := w.inner.flushBuf f
    (.ok (), f, { w with inner := inner })

/-- Flush and issue `fsync`: every byte of the file is then on stable storage. -/
def sync (f : LogFile) (w : Writer) : Except LogError Unit × LogFile × Writer :=
  match w.flush f with
  | (.error e, f, w) => (.error e, f, w)
  | (.ok (), f, w) => (.ok (), { f with synced := (f.bytes.getD []).length }, w)

/-- Synchronize pending appends and bind the writer's verified byte cursor. -/
def verifiedTail (f : LogFile) (w : Writer) : Except LogError LogTailBinding × LogFile × Writer :=
  match w.sync f with
  | (.error e, f, w) => (.error e, f, w)
  | (.ok (), f, w) =>
    let actualTail := (f.bytes.getD []).length
    if actualTail ≠ w.cursor then (.error (.expectedTailMismatch w.path w.cursor actualTail), f, w)
    else
      (.ok ⟨f.canonical, w.cursor, if w.nextSeq = 0 then none else some ⟨w.nextSeq - 1⟩, w.lastHash⟩,
        f, w)

/-- Dropping the writer: the buffer is flushed, synchronized unless poisoned, and the lock freed. -/
def close (f : LogFile) (w : Writer) : LogFile :=
  match w.sync f with
  | (.ok (), f, _) => { f with locked := false }
  | (.error _, f, w) => { (w.inner.flushBuf f).1 with locked := false }

end Writer

/-! ## Opening -/

/-- After a scan: a torn tail is cut off, the verified prefix synchronized, the writer placed. -/
def settle (f : LogFile) (bytes : Bytes) (scan : ScanOutcome) : Except LogError Writer × LogFile :=
  let tail := scan.verifiedTail
  let bytes := if scan.incompleteTail.isSome then bytes.take tail.physicalTail else bytes
  let f := { f with bytes := some bytes, synced := bytes.length }
  match tail.lastSequence with
  | none => (.ok (.fromFile f.path 0 tail.lastHash tail.physicalTail), { f with locked := true })
  | some last =>
    if 2 ^ 64 ≤ last.val + 1 then (.error .sequenceOverflow, f)
    else
      (.ok (.fromFile f.path (last.val + 1) tail.lastHash tail.physicalTail),
        { f with locked := true })

/-- A new log: the header, synchronized. -/
def createLog (f : LogFile) : Writer × LogFile :=
  (.fromFile f.path 0 Hash.genesis headerLen,
    { f with bytes := some fileHeader, synced := headerLen, locked := true })

/-- `Writer::open` on the file once it exists. -/
def openExisting (lib : Libraries) (f : LogFile) (bytes : Bytes) : Except LogError Writer × LogFile :=
  if f.locked then (.error (.locked f.path), f)
  else if bytes = [] then
    match RetentionAuthority.load lib f with
    | .error e => (.error e, f)
    | .ok (some _) => (.error (.badHeader f.path), f)
    | .ok none => let (w, f) := createLog f; (.ok w, f)
  else
    match inspectOpen lib f bytes with
    | .error e => (.error e, f)
    | .ok scan => settle f bytes scan

/-- `Writer::open`: open or create the log, repairing an incomplete final frame. -/
def openWriter (lib : Libraries) (f : LogFile) : Except LogError Writer × LogFile :=
  openExisting lib { f with bytes := some (f.bytes.getD []) } (f.bytes.getD [])

/-- `finish_verified_open`: a tear is repaired only behind a prefix that matched. -/
def finishVerifiedOpen (f : LogFile) (bytes : Bytes) (scan : ScanOutcome) (verdict : PrefixVerdict)
    (hasExpectedPrefix : Bool) : Except LogError (Writer × LogTailBinding) × LogFile :=
  let refused := do
    if hasExpectedPrefix ∧ verdict ≠ PrefixVerdict.matched then refuseIncomplete scan else pure ()
    verdict.requireMatch
  match refused with
  | .error e => (.error e, f)
  | .ok () =>
    match settle f bytes scan with
    | (.error e, f) => (.error e, f)
    | (.ok w, f) => (.ok (w, scan.verifiedTail), f)

/-- `Writer::open_verified`, with the frames it shows its observer. -/
def openVerified (lib : Libraries) (f : LogFile) (expectedPrefix : Option LogTailBinding) :
    Except LogError (Writer × LogTailBinding × List (Nat × EventEnvelope)) × LogFile :=
  match f.bytes with
  | none => (.error (.io "No such file or directory"), f)
  | some bytes =>
    if f.locked then (.error (.locked f.path), f)
    else if bytes = [] then
      if expectedPrefix.isSome then (.error (.badHeader f.path), f)
      else
        match RetentionAuthority.load lib f with
        | .error e => (.error e, f)
        | .ok (some _) => (.error (.badHeader f.path), f)
        | .ok none =>
          let (w, f) := createLog f
          (.ok (w, ⟨f.canonical, headerLen, none, Hash.genesis⟩, []), f)
    else
      match walkLocked lib f bytes ⟨expectedPrefix, .physicalEof⟩ with
      | .error e => (.error e, f)
      | .ok walked =>
        match finishVerifiedOpen f bytes walked.outcome walked.verdict expectedPrefix.isSome with
        | (.error e, f) => (.error e, f)
        | (.ok (w, binding), f) => (.ok (w, binding, walked.seen), f)

/-- Whether a compatible checkpoint's raw prefix must be verified before opening. -/
inductive CheckpointPrefix where
  | verify
  | defer
  deriving DecidableEq, Repr

/-- The checkpoint a verified open resumes from, with the digest of the prefix it skips. -/
def checkpointResume (lib : Libraries) (f : LogFile) (bytes : Bytes)
    (authority : Option RetentionAuthority) (expected : LogTailBinding)
    (checkpoint : Option (LogTailBinding × String)) (mode : CheckpointPrefix) (digest : Bytes) :
    Option (LogTailBinding × Bytes) :=
  checkpoint.bind fun (tail, expectedHash) =>
    if tail.path ≠ f.canonical ∨ tail.physicalTail < expected.physicalTail ∨
        (authority.any fun a => tail.physicalTail < a.boundary.offset) then none
    else
      match mode with
      | .defer => if tail.physicalTail ≤ bytes.length then some (tail, digest) else none
      | .verify =>
        match hashOpenPrefix lib f bytes tail.physicalTail with
        | .error _ => none
        | .ok hashed => if (lib.blake3 hashed).toHex ≠ expectedHash then none else some (tail, hashed)

/-- What `open_verified_checkpoint` returns besides the file. -/
structure CheckpointOpen where
  writer : Writer
  binding : LogTailBinding
  used : Bool
  deferred : Bool
  digest : Bytes
  seen : List (Nat × EventEnvelope)

/-- The walk of `open_verified_checkpoint`: whether a checkpoint was used, and the suffix walk. -/
def checkpointWalk (lib : Libraries) (f : LogFile) (bytes : Bytes) (expected : LogTailBinding)
    (checkpoint : Option (LogTailBinding × String)) (mode : CheckpointPrefix) (digest : Bytes) :
    Except LogError (Bool × Walked × Bytes) := do
  let authority ← RetentionAuthority.load lib f
  match authority with
  | some a => a.authenticateBinding lib f expected
  | none => pure ()
  match checkpointResume lib f bytes authority expected checkpoint mode digest with
  | none => do
    let (walked, digest) ← walkHashed lib f bytes (some expected) none none digest
    pure (false, walked, digest)
  | some (tail, digest) => do
    -- verifying keeps the header check; a deferred resume reads no byte of the prefix
    if mode = .verify then verifyFileHeader f.path bytes else pure ()
    let (walked, digest) ← walkHashed lib f bytes (some expected) (some tail) none digest
    pure (true, walked, digest)

/-- `Writer::open_verified_checkpoint`, without its timings. -/
def openVerifiedCheckpoint (lib : Libraries) (f : LogFile) (expected : LogTailBinding)
    (checkpoint : Option (LogTailBinding × String)) (mode : CheckpointPrefix) (digest : Bytes) :
    Except LogError CheckpointOpen × LogFile :=
  match f.bytes with
  | none => (.error (.io "No such file or directory"), f)
  | some bytes =>
    if f.locked then (.error (.locked f.path), f)
    else
      match checkpointWalk lib f bytes expected checkpoint mode digest with
      | .error e => (.error e, f)
      | .ok (used, walked, digest) =>
        match finishVerifiedOpen f bytes walked.outcome walked.verdict true with
        | (.error e, f) => (.error e, f)
        | (.ok (w, binding), f) =>
          (.ok ⟨w, binding, used, used && decide (mode = .defer), digest, walked.seen⟩, f)

/-- `Writer::open_with_expected_tail`: repair only when the verified prefix is the binding. -/
def openWithExpectedTail (lib : Libraries) (f : LogFile) (expected : LogTailBinding) :
    Except LogError Writer × LogFile :=
  let checked := do
    match ← RetentionAuthority.load lib f with
    | some a => a.authenticateBinding lib f expected
    | none => pure ()
    let scan ← inspect lib f
    Lib.refuseIf (scan.verifiedTail.path ≠ expected.path)
      (LogError.io "expected tail binding names a different event log")
    Lib.refuseIf (scan.verifiedTail.physicalTail ≠ expected.physicalTail ∨
        scan.verifiedTail.lastSequence ≠ expected.lastSequence ∨
        scan.verifiedTail.lastHash ≠ expected.lastHash)
      (.expectedTailMismatch f.path expected.physicalTail scan.verifiedTail.physicalTail)
  match checked with
  | .error e => (.error e, f)
  | .ok () => openWriter lib f

end PredictionEdge.EventLog
