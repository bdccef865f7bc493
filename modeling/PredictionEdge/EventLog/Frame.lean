import PredictionEdge.EventLog.Envelope
import Mathlib.Data.List.TakeDrop

/-!
# Frames

The wire format of the log (`event-log/src/frame.rs`): a five-byte header, and for each
event a little-endian length, a zstd block and a CRC32 of that block. A reader sees the
bytes from its position on; reading a frame leaves it the bytes after that frame.

Two facts carry the rest: a frame that is read is a nonempty beginning of the input and
does not depend on what follows it (`readFrame_local`), and a frame that was written reads
back whole and reads as truncated when a part of it is missing (`readFrame_frame`,
`readFrame_torn`).
-/

namespace PredictionEdge.EventLog

open Lib

/-- `MAGIC` and `VERSION`: `EDGE` and 1. -/
def fileHeader : Bytes := [69, 68, 71, 69, 1]

def headerLen : Nat := 5

/-- Maximum allowed compressed frame body size (64 MiB). -/
def maxFrameBytes : Nat := 64 * 1024 * 1024

theorem fileHeader_length : fileHeader.length = headerLen := rfl

/-- `verify_file_header`: the first five bytes are the header. -/
def verifyFileHeader (path : String) (bytes : Bytes) : Except LogError Unit :=
  if bytes.take headerLen = fileHeader then .ok () else .error (.badHeader path)

theorem verifyFileHeader_ok {path : String} {bytes : Bytes} :
    verifyFileHeader path bytes = .ok () ↔ ∃ rest, bytes = fileHeader ++ rest := by
  unfold verifyFileHeader
  split
  · rename_i h
    refine ⟨fun _ => ⟨bytes.drop headerLen, ?_⟩, fun _ => rfl⟩
    rw [← h, List.take_append_drop]
  · rename_i h
    refine ⟨fun hn => absurd hn (by simp), ?_⟩
    rintro ⟨rest, rfl⟩
    rw [List.take_left' fileHeader_length] at h
    exact absurd rfl h

/-! ## Little-endian words -/

/-- `u32::to_le_bytes`. -/
def toLeBytes (n : UInt32) : Bytes :=
  [UInt8.ofNat n.toNat, UInt8.ofNat (n.toNat / 256), UInt8.ofNat (n.toNat / 65536),
    UInt8.ofNat (n.toNat / 16777216)]

/-- `u32::from_le_bytes`, least significant byte first. -/
def fromLeBytes (bytes : Bytes) : Nat := bytes.foldr (fun b n => b.toNat + 256 * n) 0

theorem length_toLeBytes (n : UInt32) : (toLeBytes n).length = 4 := rfl

theorem fromLeBytes_toLeBytes (n : UInt32) : fromLeBytes (toLeBytes n) = n.toNat := by
  have hn : n.toNat < 4294967296 := n.toNat_lt
  simp only [fromLeBytes, toLeBytes, List.foldr_cons, List.foldr_nil, UInt8.toNat_ofNat']
  omega

/-! ## Writing -/

/-- The three parts of a frame, as they are written. -/
structure FrameParts where
  len : Bytes
  compressed : Bytes
  crc : Bytes

def FrameParts.bytes (p : FrameParts) : Bytes := p.len ++ p.compressed ++ p.crc

/-- `write_frame` up to its three writes: the block and its bounds. -/
def frameParts (lib : Libraries) (json : Bytes) : Except LogError FrameParts := do
  let compressed ← (lib.encodeAll json).mapError LogError.compress
  refuseIf (2 ^ 32 ≤ compressed.length) (.compress "compressed frame exceeds 4 GiB")
  refuseIf (maxFrameBytes < compressed.length)
    (.frameTooLarge 0 compressed.length maxFrameBytes)
  pure
    { len := toLeBytes (UInt32.ofNat compressed.length)
      compressed := compressed
      crc := toLeBytes (lib.crc32 compressed) }

variable {lib : Libraries} {p : FrameParts} {off : Nat} {json input : Bytes}

theorem frameParts_ok (h : frameParts lib json = .ok p) :
    lib.encodeAll json = .ok p.compressed ∧ p.compressed.length ≤ maxFrameBytes ∧
      p.len = toLeBytes (UInt32.ofNat p.compressed.length) ∧
      p.crc = toLeBytes (lib.crc32 p.compressed) := by
  simp only [frameParts, bind_eq_ok, mapError_eq_ok, refuseIf_eq_ok,
    pure_eq_ok] at h
  obtain ⟨compressed, henc, _, _, _, hmax, rfl⟩ := h
  exact ⟨henc, not_lt.mp hmax, rfl, rfl⟩

theorem FrameParts.length_bytes (h : frameParts lib json = .ok p) :
    p.bytes.length = p.compressed.length + 8 := by
  obtain ⟨_, _, hlen, hcrc⟩ := frameParts_ok h
  simp only [bytes, List.length_append, hlen, hcrc, length_toLeBytes]
  omega

/-! ## Reading -/

inductive FrameReadError where
  | truncated (byteOffset : Nat)
  | crcMismatch (byteOffset : Nat)
  | frameTooLarge (byteOffset len : Nat)
  | decompress (message : String)
  deriving DecidableEq, Repr

/-- A frame that was read: its decoded bytes, the bytes it took and the bytes after it. -/
structure FrameRead where
  json : Bytes
  raw : Bytes
  rest : Bytes
  deriving DecidableEq

/-- A complete self-delimiting zstd frame with trailing bytes proves length corruption. -/
def completeZstdFrameHasTrailingBytes (lib : Libraries) (compressed : Bytes) : Bool :=
  match lib.singleFrame compressed with
  | some rest => !rest.isEmpty
  | none => false

/-- How a frame that runs into the end of the input is reported. -/
def shortFrame (lib : Libraries) (compressed : Bytes) (byteOffset : Nat) : FrameReadError :=
  if completeZstdFrameHasTrailingBytes lib compressed then .crcMismatch byteOffset
  else .truncated byteOffset

/-- `read_frame_observed`: one frame from the input, or nothing at a clean end. -/
def readFrame (lib : Libraries) (input : Bytes) (byteOffset : Nat) :
    Except FrameReadError (Option FrameRead) :=
  if input = [] then .ok none
  -- the one-byte probe read something; three more bytes complete the length
  else if input.length < 4 then .error (.truncated byteOffset)
  else
    let lenRaw := fromLeBytes (input.take 4)
    if maxFrameBytes < lenRaw then .error (.frameTooLarge byteOffset lenRaw)
    else
      let compressed := (input.drop 4).take lenRaw
      let afterBody := (input.drop 4).drop lenRaw
      if compressed.length < lenRaw then .error (shortFrame lib compressed byteOffset)
      else if afterBody.length < 4 then .error (shortFrame lib compressed byteOffset)
      else if (lib.crc32 compressed).toNat ≠ fromLeBytes (afterBody.take 4) then
        .error (.crcMismatch byteOffset)
      else
        match lib.decodeAll compressed with
        | .error message => .error (.decompress message)
        | .ok json => .ok (some
            { json := json
              raw := input.take 4 ++ compressed ++ afterBody.take 4
              rest := afterBody.drop 4 })

/-- The input is cut where the length says. -/
theorem readFrame_append {len compressed crc rest : Bytes} (hlen : len.length = 4)
    (hcrc : crc.length = 4) (hc : fromLeBytes len = compressed.length) :
    readFrame lib (len ++ compressed ++ crc ++ rest) off =
      if maxFrameBytes < compressed.length then .error (.frameTooLarge off compressed.length)
      else if (lib.crc32 compressed).toNat ≠ fromLeBytes crc then .error (.crcMismatch off)
      else
        match lib.decodeAll compressed with
        | .error message => .error (.decompress message)
        | .ok json => .ok (some { json := json, raw := len ++ compressed ++ crc, rest := rest }) := by
  have hne : len ++ compressed ++ crc ++ rest ≠ [] := by
    intro h
    have := congrArg List.length h
    simp only [List.length_append, List.length_nil] at this
    omega
  have hlt : ¬ (len ++ compressed ++ crc ++ rest).length < 4 := by
    simp only [List.length_append]; omega
  have htake : (len ++ compressed ++ crc ++ rest).take 4 = len := by
    rw [List.append_assoc, List.append_assoc, ← hlen, List.take_left]
  have hdrop : (len ++ compressed ++ crc ++ rest).drop 4 = compressed ++ (crc ++ rest) := by
    rw [List.append_assoc, List.append_assoc, ← hlen, List.drop_left]
  have hcrcTake : (crc ++ rest).take 4 = crc := by rw [← hcrc, List.take_left]
  have hcrcDrop : (crc ++ rest).drop 4 = rest := by rw [← hcrc, List.drop_left]
  have hafter : ¬ (crc ++ rest).length < 4 := by rw [List.length_append]; omega
  simp only [readFrame, if_neg hne, if_neg hlt, htake, hdrop, hc, List.take_left, List.drop_left,
    lt_self_iff_false, if_false, if_neg hafter, hcrcTake, hcrcDrop]

variable {r : FrameRead}

/-- **A frame that is read is cut from the input's beginning.** -/
theorem readFrame_ok (h : readFrame lib input off = .ok (some r)) :
    ∃ len compressed crc, len.length = 4 ∧ crc.length = 4 ∧ fromLeBytes len = compressed.length ∧
      r.raw = len ++ compressed ++ crc ∧ input = r.raw ++ r.rest := by
  simp only [readFrame] at h
  split at h
  · simp at h
  split at h
  · simp at h
  rename_i hlen
  split at h
  · simp at h
  split at h
  · simp at h
  rename_i hbody
  split at h
  · simp at h
  rename_i hcrc
  split at h
  · simp at h
  split at h
  · simp at h
  simp only [Except.ok.injEq, Option.some.injEq] at h
  subst h
  refine ⟨input.take 4, (input.drop 4).take (fromLeBytes (input.take 4)),
    ((input.drop 4).drop (fromLeBytes (input.take 4))).take 4, ?_, ?_, ?_, rfl, ?_⟩
  · rw [List.length_take]; omega
  · rw [List.length_take]; omega
  · rw [List.length_take] at hbody ⊢; omega
  · simp only [List.append_assoc, List.take_append_drop]

theorem FrameRead.raw_ne_nil (h : readFrame lib input off = .ok (some r)) : r.raw ≠ [] := by
  obtain ⟨len, compressed, crc, hlen, _, _, hraw, _⟩ := readFrame_ok h
  intro hn
  rw [hn] at hraw
  have := congrArg List.length hraw
  simp only [List.length_append, List.length_nil] at this
  omega

/-- **Where a frame stands and what follows it does not matter to reading it.** -/
theorem readFrame_local {off' : Nat} (h : readFrame lib input off = .ok (some r)) (rest : Bytes) :
    readFrame lib (r.raw ++ rest) off' = .ok (some { r with rest := rest }) := by
  obtain ⟨len, compressed, crc, hlen, hcrc, hc, hraw, hinput⟩ := readFrame_ok h
  rw [hinput, hraw, readFrame_append hlen hcrc hc] at h
  rw [hraw, readFrame_append hlen hcrc hc]
  split at h
  · simp at h
  rename_i hmax
  rw [if_neg hmax]
  split at h
  · simp at h
  rename_i hsum
  rw [if_neg hsum]
  split at h
  · simp at h
  rename_i json hjson
  simp only [Except.ok.injEq, Option.some.injEq] at h
  rw [← congrArg FrameRead.json h]

/-! ## Frames that were written -/

theorem fromLeBytes_len (h : frameParts lib json = .ok p) :
    fromLeBytes p.len = p.compressed.length := by
  obtain ⟨_, hmax, hlen, _⟩ := frameParts_ok h
  rw [hlen, fromLeBytes_toLeBytes, UInt32.toNat_ofNat']
  unfold maxFrameBytes at hmax
  omega

/-- **A frame that was written reads back.** -/
theorem readFrame_frame (hlib : lib.Lawful) {rest : Bytes} (h : frameParts lib json = .ok p) :
    readFrame lib (p.bytes ++ rest) off = .ok (some { json := json, raw := p.bytes, rest := rest }) := by
  obtain ⟨henc, hmax, hlen, hcrc⟩ := frameParts_ok h
  rw [FrameParts.bytes, readFrame_append (by rw [hlen, length_toLeBytes])
    (by rw [hcrc, length_toLeBytes]) (fromLeBytes_len h), if_neg (not_lt.mpr hmax), if_neg,
    hlib.zstd_inverse henc]
  rw [hcrc, fromLeBytes_toLeBytes]
  exact not_not.mpr rfl

/-- No part of an encoded block holds a whole zstd frame and more. -/
theorem part_has_no_trailing_bytes (hlib : lib.Lawful) {z part missing : Bytes}
    (henc : lib.encodeAll json = .ok z) (hz : z = part ++ missing) :
    completeZstdFrameHasTrailingBytes lib part = false := by
  unfold completeZstdFrameHasTrailingBytes
  split
  · rename_i rest hrest
    by_cases hne : rest = []
    · rw [hne]; rfl
    · have h := hlib.zstd_stops hrest hne missing
      rw [← hz, hlib.zstd_whole henc] at h
      simp only [Option.some.injEq] at h
      exact absurd (List.append_eq_nil_iff.mp h.symm).1 hne
  · rfl

/--
**A frame with a part missing reads as truncated**, wherever it is cut.

The cut falls inside the length, inside the block or inside the checksum; in the last two
cases the block holds no whole zstd frame with bytes behind it, so the reader does not take
the tear for a corrupt length.
-/
theorem readFrame_torn (hlib : lib.Lawful) {part missing : Bytes} (h : frameParts lib json = .ok p)
    (hp : p.bytes = part ++ missing) (hpart : part ≠ []) (hmissing : missing ≠ []) :
    readFrame lib part off = .error (.truncated off) := by
  obtain ⟨henc, hmax, hlen, hcrc⟩ := frameParts_ok h
  have hlen4 : p.len.length = 4 := by rw [hlen, length_toLeBytes]
  have hcrc4 : p.crc.length = 4 := by rw [hcrc, length_toLeBytes]
  have htotal := FrameParts.length_bytes h
  rw [hp, List.length_append] at htotal
  have hmissing' : 0 < missing.length := List.length_pos_iff.mpr hmissing
  simp only [readFrame, if_neg hpart]
  by_cases hshort : part.length < 4
  · rw [if_pos hshort]
  rw [if_neg hshort]
  have htake : part.take 4 = p.len := by
    have := congrArg (List.take 4) hp
    rw [FrameParts.bytes, List.append_assoc, ← hlen4, List.take_left,
      List.take_append_of_le_length (by omega)] at this
    rw [← hlen4]
    exact this.symm
  have hdrop : part.drop 4 ++ missing = p.compressed ++ p.crc := by
    have := congrArg (List.drop 4) hp
    rw [FrameParts.bytes, List.append_assoc, ← hlen4, List.drop_left,
      List.drop_append_of_le_length (by omega)] at this
    rw [← hlen4]
    exact this.symm
  rw [htake, fromLeBytes_len h, if_neg (not_lt.mpr hmax)]
  -- the block as far as it goes is a beginning of the encoded block
  have hblock : (part.drop 4).take p.compressed.length <+: p.compressed := by
    have hboth : (part.drop 4).take p.compressed.length <+: p.compressed ++ p.crc :=
      (List.take_prefix _ _).trans ⟨missing, hdrop⟩
    exact List.prefix_of_prefix_length_le hboth (List.prefix_append _ _) (List.length_take_le _ _)
  obtain ⟨more, hmore⟩ := hblock
  have hnot := part_has_no_trailing_bytes hlib henc hmore.symm
  have hshortFrame : shortFrame lib ((part.drop 4).take p.compressed.length) off = .truncated off := by
    rw [shortFrame, hnot]
    rfl
  split
  · rw [hshortFrame]
  · rename_i hbody
    rw [List.length_take, List.length_drop] at hbody
    rw [if_pos, hshortFrame]
    rw [List.length_drop, List.length_drop]
    omega

end PredictionEdge.EventLog
