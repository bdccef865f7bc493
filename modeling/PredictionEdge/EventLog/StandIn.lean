import PredictionEdge.EventLog.Envelope
import PredictionEdge.Lib.Wire

/-!
# Stand-in libraries

Plain functions that keep the laws the log relies on, so that the model runs on concrete
inputs: texts are written by self-delimiting encodings, a compressed block marks each byte
and ends with a zero, and hash and checksum are polynomials of the bytes.
-/

namespace PredictionEdge.EventLog.StandIn

open Lib (Wire)

/-! ## Encodings of the log's records -/

def int : Wire Int :=
  (Wire.nat.pair Wire.nat).within (fun i => (i.toNat, (-i).toNat)) (fun p => some (p.1 - p.2))
    (by intro i; simp only [Option.some.injEq]; omega)

def byte : Wire UInt8 := Wire.nat.within UInt8.toNat (fun n => some (UInt8.ofNat n)) (by simp)

def word : Wire UInt32 := Wire.nat.within UInt32.toNat (fun n => some (UInt32.ofNat n)) (by simp)

def toText (bytes : Bytes) : Option String := String.fromUTF8? ⟨bytes.toArray⟩

theorem toText_bytes (s : String) : toText s.toByteArray.data.toList = some s := by
  unfold toText String.fromUTF8?
  rw [Array.toArray_toList, dif_pos s.isValidUTF8]
  rfl

def string : Wire String := byte.list.within (fun s => s.toByteArray.data.toList) toText toText_bytes

def toHash (bytes : Bytes) : Option Hash := if h : bytes.length = 32 then some ⟨bytes, h⟩ else none

theorem toHash_bytes (h : Hash) : toHash h.bytes = some h := by
  unfold toHash
  rw [dif_pos h.length_eq]

def hash : Wire Hash := byte.list.within Hash.bytes toHash toHash_bytes

def contentType : Wire ContentType :=
  Wire.nat.within
    (fun | .json => 0 | .messagePack => 1 | .cbor => 2 | .raw => 3)
    (fun | 0 => some .json | 1 => some .messagePack | 2 => some .cbor | 3 => some .raw | _ => none)
    (by intro c; cases c <;> rfl)

/-- The fields an envelope and its canonical form share. -/
def metadata : Wire (Nat × String × UInt32 × UInt32 × Int × Int × ContentType) :=
  Wire.nat.pair (string.pair (word.pair (word.pair (int.pair (int.pair contentType)))))

def envelope : Wire EventEnvelope :=
  (metadata.pair (hash.pair (hash.pair (hash.pair byte.list)))).within
    (fun e => ((e.seq.val, e.sourceId.val, e.schemaVersion, e.parserVersion, e.observedAt.nanos,
      e.receivedAt.nanos, e.contentType), e.rawPayloadHash, e.prevHash, e.thisHash, e.payload))
    (fun ((seq, source, schema, parser, observed, received, content), raw, prev, this, payload) =>
      some ⟨⟨seq⟩, ⟨source⟩, schema, parser, ⟨observed⟩, ⟨received⟩, content, raw, prev, this, payload⟩)
    (by intro e; rfl)

def canonical : Wire CanonicalFields :=
  (metadata.pair (string.pair string)).within
    (fun c => ((c.seq, c.sourceId.val, c.schemaVersion, c.parserVersion, c.observedAt.nanos,
      c.receivedAt.nanos, c.contentType), c.prevHash, c.rawPayloadHash))
    (fun ((seq, source, schema, parser, observed, received, content), prev, raw) =>
      some ⟨content, ⟨observed⟩, parser, prev, raw, ⟨received⟩, schema, seq, ⟨source⟩⟩)
    (by intro c; rfl)

/-! ## Blocks -/

/-- A one before each byte and a zero at the end. -/
def compress (bytes : Bytes) : Bytes := bytes.flatMap (fun b => [1, b]) ++ [0]

/-- The bytes of a block and what follows it. -/
def decompress : Bytes → Option (Bytes × Bytes)
  | 0 :: rest => some ([], rest)
  | 1 :: b :: rest => (decompress rest).map fun (bytes, rest) => (b :: bytes, rest)
  | _ => none

theorem decompress_compress (bytes rest : Bytes) :
    decompress (compress bytes ++ rest) = some (bytes, rest) := by
  induction bytes with
  | nil => rfl
  | cons b bytes ih =>
    show decompress (1 :: b :: (compress bytes ++ rest)) = _
    rw [decompress, ih]
    rfl

theorem decompress_append {z bytes rest : Bytes} (h : decompress z = some (bytes, rest))
    (more : Bytes) : decompress (z ++ more) = some (bytes, rest ++ more) := by
  fun_induction decompress z generalizing bytes with
  | case1 rest' =>
    simp only [Option.some.injEq, Prod.mk.injEq] at h
    obtain ⟨rfl, rfl⟩ := h
    rfl
  | case2 b rest' ih =>
    simp only [Option.map_eq_some_iff, Prod.exists, Prod.mk.injEq] at h
    obtain ⟨bytes', rest'', hd, rfl, rfl⟩ := h
    show decompress (1 :: b :: (rest' ++ more)) = _
    rw [decompress, ih hd]
    rfl
  | case3 => simp at h

/-! ## Hashes -/

/-- A polynomial of the bytes, taken modulo a power of two. -/
def fold (bits : Nat) (bytes : Bytes) : Nat :=
  bytes.foldl (fun n b => (n * 16777619 + b.toNat + 1) % 2 ^ bits) 0

/-- The bytes of a number, as many as asked for. -/
def numeral (n : Nat) : Nat → Bytes
  | 0 => []
  | len + 1 => UInt8.ofNat n :: numeral (n / 256) len

theorem length_numeral (len n : Nat) : (numeral n len).length = len := by
  induction len generalizing n with
  | zero => rfl
  | succ len ih => simp only [numeral, List.length_cons, ih]

def digest (bytes : Bytes) : Hash := ⟨numeral (fold 256 bytes) 32, length_numeral 32 _⟩

/-- The authority's record as bytes: the fields that place it, and its pins. -/
def authority (a : RetentionAuthority) : Bytes :=
  Wire.nat.put a.epoch ++ Wire.nat.put a.boundary.sequence.val ++ Wire.nat.put a.boundary.offset ++
    hash.put a.chainHead ++
    a.pins.flatMap (fun p => Wire.nat.put p.sequence.val ++ Wire.nat.put p.offset ++ hash.put p.hash ++
      hash.put p.predecessorHash) ++
    Wire.nat.put a.retainedTail.physicalTail ++ hash.put a.retainedTail.lastHash

/-- The stand-in libraries. -/
def libraries : Libraries where
  blake3 := digest
  crc32 bytes := UInt32.ofNat (fold 32 bytes)
  encodeAll bytes := .ok (compress bytes)
  decodeAll z :=
    match decompress z with
    | some (bytes, []) => .ok bytes
    | _ => .error "incomplete frame"
  singleFrame z := (decompress z).map Prod.snd
  canonicalJson c := .ok (canonical.put c)
  envelopeToJson e := .ok (envelope.put e)
  envelopeFromJson j :=
    match envelope.get j with
    | some (e, []) => .ok e
    | _ => .error "invalid envelope"
  authorityJson a := .ok (authority a)

theorem libraries_lawful : libraries.Lawful where
  json_inverse := by
    intro e j h
    simp only [libraries, Except.ok.injEq] at h ⊢
    subst h
    have := envelope.get_put e []
    rw [List.append_nil] at this
    rw [this]
  zstd_inverse := by
    intro j z h
    simp only [libraries, Except.ok.injEq] at h ⊢
    subst h
    have := decompress_compress j []
    rw [List.append_nil] at this
    rw [this]
  zstd_whole := by
    intro j z h
    simp only [libraries, Except.ok.injEq] at h ⊢
    subst h
    have := decompress_compress j []
    rw [List.append_nil] at this
    rw [this]
    rfl
  zstd_stops := by
    intro z rest h _ more
    simp only [libraries, Option.map_eq_some_iff, Prod.exists, exists_eq_right] at h ⊢
    obtain ⟨bytes, hd⟩ := h
    exact ⟨bytes, decompress_append hd more⟩

/-- An event with a payload of one byte. -/
def event (b : UInt8) : EnvelopeIn := ⟨⟨"s"⟩, 1, 1, ⟨0⟩, ⟨0⟩, .raw, [b]⟩

end PredictionEdge.EventLog.StandIn
