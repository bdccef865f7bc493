import PredictionEdge.Core.Types
import PredictionEdge.Lib.Fallible

/-!
# Event envelopes and their hash chain

One event of the append-only log, as `event-log/src/envelope.rs` has it: the metadata, the
payload, and the three hashes that chain it to the event before it. Hashing, compression
and serialisation are libraries of their own; they are the functions of `Libraries`, and
what is known of them is `Libraries.Lawful`.
-/

namespace PredictionEdge.EventLog

abbrev Bytes := List UInt8

/-- A 32-byte BLAKE3 hash. -/
structure Hash where
  bytes : Bytes
  length_eq : bytes.length = 32
  deriving DecidableEq

theorem Hash.ext_bytes {g h : Hash} (e : g.bytes = h.bytes) : g = h := by
  cases g; cases h; simp only at e; subst e; rfl

theorem length_zeros : (List.replicate 32 (0 : UInt8)).length = 32 := List.length_replicate

/-- `Hash::from_bytes([0; 32])`: what the first event follows. -/
def Hash.genesis : Hash := ⟨List.replicate 32 0, length_zeros⟩

def hexDigit (n : Nat) : Char := if n < 10 then Char.ofNat (48 + n) else Char.ofNat (87 + n)

def hexByte (b : UInt8) : List Char := [hexDigit (b.toNat / 16), hexDigit (b.toNat % 16)]

def Hash.toHex (h : Hash) : String := String.ofList (h.bytes.flatMap hexByte)

/-- Position of an event in the log, a `u64`. -/
structure EventSeq where
  val : Nat
  deriving DecidableEq, Repr

structure SourceId where
  val : String
  deriving DecidableEq, Repr

/-- When this process received a message, in nanoseconds since the epoch. -/
structure ReceivedAt where
  nanos : Int
  deriving DecidableEq, Repr

inductive ContentType where
  | json
  | messagePack
  | cbor
  | raw
  deriving DecidableEq, Repr

/-- A stored event. All hash fields are filled by the writer. -/
structure EventEnvelope where
  seq : EventSeq
  sourceId : SourceId
  schemaVersion : UInt32
  parserVersion : UInt32
  observedAt : SourceTimestamp
  receivedAt : ReceivedAt
  contentType : ContentType
  rawPayloadHash : Hash
  prevHash : Hash
  thisHash : Hash
  payload : Bytes
  deriving DecidableEq

/-- What a caller supplies for a new event. -/
structure EnvelopeIn where
  sourceId : SourceId
  schemaVersion : UInt32
  parserVersion : UInt32
  observedAt : SourceTimestamp
  receivedAt : ReceivedAt
  contentType : ContentType
  payload : Bytes
  deriving DecidableEq

/-- The metadata that the chain hash covers besides the payload. -/
structure CanonicalFields where
  contentType : ContentType
  observedAt : SourceTimestamp
  parserVersion : UInt32
  prevHash : String
  rawPayloadHash : String
  receivedAt : ReceivedAt
  schemaVersion : UInt32
  seq : Nat
  sourceId : SourceId
  deriving DecidableEq

/-! ## The retention authority's record -/

structure RetentionBoundary where
  sequence : EventSeq
  offset : Nat
  deriving DecidableEq, Repr

structure RetentionPin where
  sequence : EventSeq
  offset : Nat
  hash : Hash
  predecessorHash : Hash
  reducer : Bool
  wallet : Option WalletAddress
  deriving DecidableEq

/-- Pathless capture, rebound to the configured canonical source path when checked. -/
structure TailBinding where
  physicalTail : Nat
  lastSequence : Option EventSeq
  lastHash : Hash
  deriving DecidableEq

structure FeedEntry where
  epoch : Nat
  frameCount : Nat
  length : Nat
  hash : Hash
  deriving DecidableEq

/-- Durable authority for intentionally retired source-log bytes. -/
structure RetentionAuthority where
  formatVersion : Nat
  epoch : Nat
  advancedAt : Int
  boundary : RetentionBoundary
  chainHead : Hash
  pins : List RetentionPin
  retainedTail : TailBinding
  feed : List FeedEntry
  deriving DecidableEq

structure CheckedAuthority where
  authority : RetentionAuthority
  checksum : Hash
  deriving DecidableEq

/-! ## Libraries -/

/-- The libraries the log is built on: `blake3`, `crc32fast`, `zstd` and `serde_json`. -/
structure Libraries where
  blake3 : Bytes → Hash
  crc32 : Bytes → UInt32
  /-- `zstd::encode_all` at the log's level. -/
  encodeAll : Bytes → Except String Bytes
  /-- `zstd::decode_all`. -/
  decodeAll : Bytes → Except String Bytes
  /-- The input a single-frame decoder leaves unread, when it decodes one whole frame. -/
  singleFrame : Bytes → Option Bytes
  canonicalJson : CanonicalFields → Except String Bytes
  envelopeToJson : EventEnvelope → Except String Bytes
  envelopeFromJson : Bytes → Except String EventEnvelope
  authorityJson : RetentionAuthority → Except String Bytes

/--
What the log relies on its libraries for.

JSON and zstd read back what they write. A zstd frame is self-delimiting: a decoder for
one frame reads all of an encoded block, and what follows the input it has stopped in does
not matter to it.
-/
structure Libraries.Lawful (lib : Libraries) : Prop where
  json_inverse : ∀ {e j}, lib.envelopeToJson e = .ok j → lib.envelopeFromJson j = .ok e
  zstd_inverse : ∀ {j z}, lib.encodeAll j = .ok z → lib.decodeAll z = .ok j
  zstd_whole : ∀ {j z}, lib.encodeAll j = .ok z → lib.singleFrame z = some []
  zstd_stops : ∀ {z rest}, lib.singleFrame z = some rest → rest ≠ [] →
    ∀ more, lib.singleFrame (z ++ more) = some (rest ++ more)

/-- Operation whose uncertain effect permanently poisoned a writer. -/
inductive PoisonReason where
  | append
  | flush
  | synchronize
  deriving DecidableEq, Repr

/-- The failures of the log (`LogError`). -/
inductive LogError where
  | retentionInvalid (message : String)
  | retired (physicalTail boundaryOffset : Nat)
  | badHeader (path : String)
  | locked (path : String)
  | crcMismatch (atSeq : EventSeq) (byteOffset : Nat)
  | chainBroken (atSeq : EventSeq) (byteOffset : Nat) (expected actual : String)
  | sequenceMismatch (byteOffset : Nat) (expected actual : EventSeq)
  | rawPayloadHashMismatch (atSeq : EventSeq) (byteOffset : Nat) (expected actual : String)
  | chainComputation (atSeq : EventSeq) (byteOffset : Nat)
  | truncated (at_ : EventSeq) (byteOffset : Nat)
  | io (message : String)
  | serde (message : String)
  | envelopeDecode (atSeq : EventSeq) (byteOffset : Nat) (message : String)
  | compress (message : String)
  | decompress (atSeq : EventSeq) (byteOffset : Nat) (message : String)
  | poisoned (reason : PoisonReason)
  | sequenceOverflow
  | frameTooLarge (byteOffset len max : Nat)
  | expectedTailMismatch (path : String) (expectedTail actualTail : Nat)
  deriving DecidableEq, Repr

/-- Input to `computeHashes`. -/
structure HashInput where
  seq : EventSeq
  sourceId : SourceId
  schemaVersion : UInt32
  parserVersion : UInt32
  observedAt : SourceTimestamp
  receivedAt : ReceivedAt
  contentType : ContentType
  prevHash : Hash
  payload : Bytes

def HashInput.canonicalFields (lib : Libraries) (input : HashInput) : CanonicalFields where
  contentType := input.contentType
  observedAt := input.observedAt
  parserVersion := input.parserVersion
  prevHash := input.prevHash.toHex
  rawPayloadHash := (lib.blake3 input.payload).toHex
  receivedAt := input.receivedAt
  schemaVersion := input.schemaVersion
  seq := input.seq.val
  sourceId := input.sourceId

/-- The raw payload hash, the canonical bytes and the chain hash of a new event. -/
def computeHashes (lib : Libraries) (input : HashInput) : Except LogError (Hash × Bytes × Hash) :=
  (lib.canonicalJson (input.canonicalFields lib)).mapError LogError.serde |>.map fun canonical =>
    (lib.blake3 input.payload, canonical,
      lib.blake3 (input.prevHash.bytes ++ canonical ++ input.payload))

theorem computeHashes_ok {lib : Libraries} {input : HashInput} {raw this : Hash} {canonical : Bytes} :
    computeHashes lib input = .ok (raw, canonical, this) ↔
      lib.canonicalJson (input.canonicalFields lib) = .ok canonical ∧ lib.blake3 input.payload = raw ∧
        lib.blake3 (input.prevHash.bytes ++ canonical ++ input.payload) = this := by
  simp only [computeHashes, Lib.map_eq_ok, Lib.mapError_eq_ok, Prod.mk.injEq]
  constructor
  · rintro ⟨canonical', h, hraw, rfl, hthis⟩
    exact ⟨h, hraw, hthis⟩
  · rintro ⟨h, hraw, hthis⟩
    exact ⟨canonical, h, hraw, rfl, hthis⟩

def EventEnvelope.hashInput (e : EventEnvelope) : HashInput where
  seq := e.seq
  sourceId := e.sourceId
  schemaVersion := e.schemaVersion
  parserVersion := e.parserVersion
  observedAt := e.observedAt
  receivedAt := e.receivedAt
  contentType := e.contentType
  prevHash := e.prevHash
  payload := e.payload

/-- The failures of `verifyChain`. -/
inductive ChainError where
  | prevHashMismatch (expected actual : String)
  | thisHashMismatch (expected actual : String)
  | computeError
  deriving DecidableEq, Repr

/-- Verify the hash chain for a decoded envelope. -/
def verifyChain (lib : Libraries) (envelope : EventEnvelope) (expectedPrevHash : Hash) :
    Except ChainError Unit :=
  if envelope.prevHash ≠ expectedPrevHash then
    .error (.prevHashMismatch expectedPrevHash.toHex envelope.prevHash.toHex)
  else
    match computeHashes lib envelope.hashInput with
    | .ok (_, _, expectedThis) =>
      if expectedThis = envelope.thisHash then .ok ()
      else .error (.thisHashMismatch expectedThis.toHex envelope.thisHash.toHex)
    | .error _ => .error .computeError

theorem verifyChain_ok {lib : Libraries} {e : EventEnvelope} {prev : Hash} :
    verifyChain lib e prev = .ok () ↔ e.prevHash = prev ∧
      ∃ raw canonical, computeHashes lib e.hashInput = .ok (raw, canonical, e.thisHash) := by
  unfold verifyChain
  split
  · rename_i h
    simp only [reduceCtorEq, false_iff, not_and]
    intro hp
    exact absurd hp h
  · rename_i h
    simp only [not_not] at h
    split
    · rename_i raw canonical this hc
      split
      · rename_i ht
        subst ht
        simp only [h, true_and, true_iff]
        exact ⟨raw, canonical, hc⟩
      · rename_i ht
        simp only [reduceCtorEq, false_iff, not_and, not_exists]
        intro _ raw' canonical' hc'
        rw [hc] at hc'
        simp only [Except.ok.injEq, Prod.mk.injEq] at hc'
        exact ht hc'.2.2
    · rename_i e hc
      simp only [reduceCtorEq, false_iff, not_and, not_exists]
      intro _ raw' canonical' hc'
      rw [hc] at hc'
      simp at hc'

end PredictionEdge.EventLog
