import PredictionEdge.EventLog.Retention

/-!
# Walks over a log

The loops of `event-log/src/scanner.rs` that verify a log frame by frame while two trackers
watch for a binding: one for the prefix the caller expects, one for the tail the retention
authority requires. `walkLocked` is the plain walk, `walkHashed` carries the running digest
of the bytes it has verified and can resume behind a checkpoint. A `blake3::Hasher` is the
bytes it was fed.
-/

namespace PredictionEdge.EventLog

open Lib

inductive PrefixVerdict where
  | notRequested
  | matched
  | shorter
  | mismatch
  deriving DecidableEq, Repr

def PrefixVerdict.requireMatch : PrefixVerdict → Except LogError Unit
  | .notRequested | .matched => .ok ()
  | .shorter => .error (.io "event log is shorter than the recorded migration boundary")
  | .mismatch => .error (.io "event log does not match the recorded migration boundary")

/-- A walk that reaches the end of the log must have passed the committed retained tail. -/
def PrefixVerdict.requireRetained : PrefixVerdict → Except LogError Unit
  | .notRequested | .matched => .ok ()
  | .shorter | .mismatch =>
    .error (.retentionInvalid "event log does not reach its committed retained tail")

/-- Watches a walk for one binding. -/
structure PrefixTracker where
  expected : Option LogTailBinding
  sameFile : Bool
  matched : Bool
  deriving DecidableEq

namespace PrefixTracker

def new (expected : Option LogTailBinding) (resolvedPath : String) : PrefixTracker :=
  ⟨expected, expected.all fun e => e.path = resolvedPath, false⟩

/-- The state is the one the binding names. -/
def names (t : PrefixTracker) (state : ScanState) : Bool :=
  t.expected.any fun e => t.sameFile && decide (state.physicalTail = e.physicalTail) &&
    decide (state.lastSequence = e.lastSequence) && decide (state.previousHash = e.lastHash)

def observe (t : PrefixTracker) (state : ScanState) : PrefixTracker :=
  if t.names state then { t with matched := true } else t

def verdict (t : PrefixTracker) (finalState : ScanState) : PrefixVerdict :=
  match t.expected with
  | none => .notRequested
  | some e =>
    if ¬ t.sameFile then .mismatch
    else if t.matched then .matched
    else if finalState.physicalTail < e.physicalTail then .shorter
    else .mismatch

def verdictBeforeRead (t : PrefixTracker) (state : ScanState) : Option PrefixVerdict :=
  t.expected.bind fun e =>
    if e.physicalTail ≤ state.physicalTail then some (t.verdict state) else none

end PrefixTracker

inductive WalkBoundary where
  | physicalEof
  | expectedPrefix
  deriving DecidableEq, Repr

structure WalkRequest where
  expectedPrefix : Option LogTailBinding
  boundary : WalkBoundary

/-- A log shorter than its retained tail lost committed frames. -/
def requireRetainedLength (bytes : Bytes) (retained : Option LogTailBinding) :
    Except LogError Unit :=
  refuseIf (retained.any fun tail => bytes.length < tail.physicalTail)
    (.retentionInvalid "event log is shorter than its committed retained tail")

/-- What a walk returns, with the frames it showed its observer. -/
structure Walked where
  outcome : ScanOutcome
  verdict : PrefixVerdict
  seen : List (Nat × EventEnvelope)
  deriving DecidableEq

/-- Where a walk stands: the scan, the input after it, the trackers and the frames shown. -/
structure WalkState where
  scan : ScanState
  input : Bytes
  expected : PrefixTracker
  retention : PrefixTracker
  seen : List (Nat × EventEnvelope)

/-- A frame was read: it is shown to the observer and both trackers look at the new state. -/
def WalkState.frame (w : WalkState) (envelope : EventEnvelope) (after : ScanState) (rest : Bytes) :
    WalkState where
  scan := after
  input := rest
  expected := w.expected.observe after
  retention := w.retention.observe after
  seen := w.seen ++ [(w.scan.physicalTail, envelope)]

/-- The walk ends where it stands. -/
def WalkState.finish (w : WalkState) (resolvedPath : String) (requireRetained : Bool)
    (incompleteTail : Option IncompleteTail) (verdict : PrefixVerdict) : Except LogError Walked := do
  if requireRetained then (w.retention.verdict w.scan).requireRetained else pure ()
  pure ⟨⟨tailBinding resolvedPath w.scan, incompleteTail⟩, verdict, w.seen⟩

theorem readVerifiedFrame_shorter {lib : Libraries} {s t : ScanState} {input raw rest : Bytes}
    {e : EventEnvelope} (h : readVerifiedFrame lib s input = .ok (.frame e t raw rest)) :
    rest.length < input.length := by
  obtain ⟨hinput, hframe⟩ := readVerifiedFrame_split h
  have hpos : 0 < raw.length := List.length_pos_iff.mpr hframe.raw_ne_nil
  rw [hinput, List.length_append]
  omega

/-- The loop of `walk_locked`. -/
def walkLockedLoop (lib : Libraries) (resolvedPath : String) (boundary : WalkBoundary)
    (requireRetained : Bool) (w : WalkState) : Except LogError Walked :=
  match (if boundary = .expectedPrefix then w.expected.verdictBeforeRead w.scan else none) with
  | some verdict => w.finish resolvedPath requireRetained none verdict
  | none =>
    match _hread : readVerifiedFrame lib w.scan w.input with
    | .error e => .error e
    | .ok (.frame envelope after _ rest) =>
      walkLockedLoop lib resolvedPath boundary requireRetained (w.frame envelope after rest)
    | .ok .eof => w.finish resolvedPath requireRetained none (w.expected.verdict w.scan)
    | .ok (.incomplete tail) =>
      w.finish resolvedPath requireRetained (some tail) (w.expected.verdict w.scan)
termination_by w.input.length
decreasing_by exact readVerifiedFrame_shorter (by assumption)

/-- The tracker a plain walk starts with; a binding at or below the boundary was point-read. -/
def expectedTracker (lib : Libraries) (f : LogFile) (authority : Option RetentionAuthority)
    (expected : Option LogTailBinding) : Except LogError PrefixTracker :=
  match authority, expected with
  | some a, some e => (a.authenticateBinding lib f e).map fun _ =>
    { PrefixTracker.new expected f.canonical with
      matched := decide (e.physicalTail ≤ a.boundary.offset) }
  | _, _ => .ok (PrefixTracker.new expected f.canonical)

/-- The tail the authority requires, under the log's canonical path. -/
def retainedBinding (f : LogFile) (authority : Option RetentionAuthority) : Option LogTailBinding :=
  authority.map fun a => a.retainedTail.resolve f

/-- A walk before its first frame. -/
def walkStart (state : ScanState) (input : Bytes) (expected retention : PrefixTracker) : WalkState where
  scan := state
  input := input.drop state.physicalTail
  expected := expected.observe state
  retention := retention.observe state
  seen := []

/-- `walk_locked`: the walk from the start of the log, or from its retention boundary. -/
def walkLocked (lib : Libraries) (f : LogFile) (bytes : Bytes) (request : WalkRequest) :
    Except LogError Walked := do
  verifyFileHeader f.path bytes
  let authority ← RetentionAuthority.load lib f
  let tracker ← expectedTracker lib f authority request.expectedPrefix
  let retained := retainedBinding f authority
  requireRetainedLength bytes retained
  let requireRetained := decide (request.boundary = .physicalEof) ||
    retained.any fun tail => request.expectedPrefix.any fun e =>
      decide (tail.physicalTail ≤ e.physicalTail)
  walkLockedLoop lib f.canonical request.boundary requireRetained
    (walkStart (freshState authority) bytes tracker (.new retained f.canonical))

/-- The loop of `walk_hashed`: the digest advances only over verified frames. -/
def walkHashedLoop (lib : Libraries) (resolvedPath : String) (requireRetained : Bool)
    (digest : Bytes) (w : WalkState) : Except LogError (Walked × Bytes) :=
  match _hread : readVerifiedFrame lib w.scan w.input with
  | .error e => .error e
  | .ok (.frame envelope after raw rest) =>
    walkHashedLoop lib resolvedPath requireRetained (digest ++ raw) (w.frame envelope after rest)
  | .ok .eof =>
    (w.finish resolvedPath requireRetained none (w.expected.verdict w.scan)).map (·, digest)
  | .ok (.incomplete tail) =>
    (w.finish resolvedPath requireRetained (some tail) (w.expected.verdict w.scan)).map (·, digest)
termination_by w.input.length
decreasing_by exact readVerifiedFrame_shorter (by assumption)

/-- The state a resumed walk starts in, when the binding fits the file and the bound. -/
def resumeState (f : LogFile) (bound : Option Nat) (resume : LogTailBinding) :
    Except LogError ScanState := do
  refuseIf (bound.any fun b => b < resume.physicalTail)
    (.io "checkpoint exceeds captured source bound")
  refuseIf (resume.path ≠ f.canonical) (.io "checkpoint path mismatch")
  match resume.lastSequence with
  | none => pure (.atFrame ⟨0⟩ resume.lastHash resume.physicalTail)
  | some seq => do
    refuseIf (2 ^ 64 ≤ seq.val + 1) .sequenceOverflow
    pure (.atFrame ⟨seq.val + 1⟩ resume.lastHash resume.physicalTail)

/-- The checks of `walk_hashed` on the bindings it is given. -/
def authenticateWalk (lib : Libraries) (f : LogFile) (authority : Option RetentionAuthority)
    (expected resume : Option LogTailBinding) : Except LogError Unit :=
  match authority with
  | none => .ok ()
  | some a => do
    expected.elim (.ok ()) fun e => a.authenticateBinding lib f e
    resume.elim (.ok ()) fun r => do
      a.authenticateBinding lib f r
      refuseIf (r.physicalTail < a.boundary.offset)
        (.retired r.physicalTail a.boundary.offset)

/-- Where the walk starts, and the digest of what lies before. -/
def walkHashedStart (f : LogFile) (input : Bytes) (authority : Option RetentionAuthority)
    (resume : Option LogTailBinding) (bound : Option Nat) (digest : Bytes) :
    Except LogError (ScanState × Bytes) :=
  match resume with
  | some r => (resumeState f bound r).map (·, digest)
  | none => do
    verifyFileHeader f.path input
    pure (freshState authority, if authority.isNone then fileHeader else [])

/-- The tracker a hashed walk starts with: a resumed walk takes the prefix as matched. -/
def hashedTracker (f : LogFile) (authority : Option RetentionAuthority)
    (expected resume : Option LogTailBinding) : PrefixTracker :=
  let tracker := PrefixTracker.new expected f.canonical
  let retired := authority.any fun a => expected.any fun e =>
    decide (e.physicalTail ≤ a.boundary.offset)
  if resume.isSome || retired then { tracker with matched := true } else tracker

/-- The tracker of the retained tail: a resume behind it was authenticated by the caller. -/
def hashedRetention (f : LogFile) (authority : Option RetentionAuthority)
    (resume : Option LogTailBinding) : PrefixTracker :=
  let retained := retainedBinding f authority
  let retention := PrefixTracker.new retained f.canonical
  let beyond := resume.any fun r => retained.any fun tail => decide (tail.physicalTail < r.physicalTail)
  if beyond then { retention with matched := true } else retention

/-- The reader ends at the bound even when the file is longer. -/
def bounded (bytes : Bytes) (bound : Option Nat) : Bytes :=
  match bound with
  | some b => bytes.take b
  | none => bytes

/-- `walk_hashed`, without cancellation. -/
def walkHashed (lib : Libraries) (f : LogFile) (bytes : Bytes) (expected resume : Option LogTailBinding)
    (bound : Option Nat) (digest : Bytes) : Except LogError (Walked × Bytes) := do
  let authority ← RetentionAuthority.load lib f
  authenticateWalk lib f authority expected resume
  let (state, digest) ← walkHashedStart f (bounded bytes bound) authority resume bound digest
  let retained := retainedBinding f authority
  requireRetainedLength bytes retained
  let requireRetained := retained.any fun tail => bound.all fun b => decide (tail.physicalTail ≤ b)
  walkHashedLoop lib f.canonical requireRetained digest
    (walkStart state (bounded bytes bound) (hashedTracker f authority expected resume)
      (hashedRetention f authority resume))

/-! ## The scanner's entry points -/

/-- `inspect_open` on the contents of an open file. -/
def inspectOpen (lib : Libraries) (f : LogFile) (bytes : Bytes) : Except LogError ScanOutcome :=
  (walkLocked lib f bytes ⟨none, .physicalEof⟩).map Walked.outcome

/-- `Scanner::inspect`. -/
def inspect (lib : Libraries) (f : LogFile) : Except LogError ScanOutcome := do
  inspectOpen lib f (← f.contents)

/-- The error for a walk that ends in a partial frame. -/
def refuseIncomplete (outcome : ScanOutcome) : Except LogError Unit :=
  match outcome.incompleteTail with
  | none => .ok ()
  | some tail => .error (.truncated tail.nextSequence tail.byteOffset)

/-- `Scanner::verify`: the whole physical file is verified through its end. -/
def verify (lib : Libraries) (f : LogFile) : Except LogError LogTailBinding := do
  let outcome ← inspect lib f
  refuseIncomplete outcome
  pure outcome.verifiedTail

/-- `Scanner::verify_prefix`; `f` is the file the binding's path opens. -/
def verifyPrefix (lib : Libraries) (f : LogFile) (binding : LogTailBinding) :
    Except LogError LogTailBinding := do
  let w ← walkLocked lib f (← f.contents) ⟨some binding, .physicalEof⟩
  refuseIncomplete w.outcome
  w.verdict.requireMatch
  pure w.outcome.verifiedTail

/-- A sealed prefix that ends at or below the boundary was retired. -/
def refuseRetired (authority : Option RetentionAuthority) (sealed : LogTailBinding) :
    Except LogError Unit :=
  match authority with
  | none => .ok ()
  | some a =>
    refuseIf (sealed.physicalTail ≤ a.boundary.offset)
      (.retired sealed.physicalTail a.boundary.offset)

/-- `Scanner::walk_prefix`, with the frames it shows its observer. -/
def walkPrefix (lib : Libraries) (f : LogFile) (sealed : LogTailBinding) :
    Except LogError (Option LogTailBinding × List (Nat × EventEnvelope)) := do
  let authority ← RetentionAuthority.load lib f
  refuseRetired authority sealed
  let w ← walkLocked lib f (← f.contents) ⟨some sealed, .expectedPrefix⟩
  refuseIncomplete w.outcome
  pure (if w.verdict = .matched then some w.outcome.verifiedTail else none, w.seen)

/-- `hash_open_prefix`: the bytes from the boundary up to a claimed tail, as a hasher's input. -/
def hashOpenPrefix (lib : Libraries) (f : LogFile) (bytes : Bytes) (physicalTail : Nat) :
    Except LogError Bytes := do
  let authority ← RetentionAuthority.load lib f
  let offset := match authority with
    | some a => a.boundary.offset
    | none => 0
  refuseIf (physicalTail < offset) (.retired physicalTail offset)
  refuseIf (offset < physicalTail ∧ bytes.length < physicalTail)
    (.io "checkpoint prefix shortened")
  pure ((bytes.take physicalTail).drop offset)

end PredictionEdge.EventLog
