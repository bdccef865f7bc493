import PredictionEdge.EventLog.Appended

/-!
# The log as a system

A log on disk with the writer that has it open, under any sequence of appends, flushes,
synchronizations, closings, openings and crashes. A crash loses the writer and its buffer
and cuts the file anywhere behind what was synchronized.

`Log.Sound` is the invariant, stated over any beginning of the log that is on stable
storage: the file goes on behind it with appended frames, and what the writer knows is
where they lead; a log that is not open may end in a part of one more frame. Every step
keeps it (`step_sound`), so every run does (`run_sound`).
-/

namespace PredictionEdge.EventLog

open Lib

variable {lib : Libraries}

/-! ## Writing at the end of the file -/

theorem writeAt_end (file bytes : Bytes) : writeAt file file.length bytes = file ++ bytes := by
  unfold writeAt
  rw [List.take_length, List.drop_of_length_le (by omega), List.append_nil]

variable {content : Bytes} {parts : FrameParts} {b : BufWriter} {e : EventEnvelope}
  {reason : PoisonReason} {torn : Bool}

namespace BufWriter

/-- The handle stands at the end of the file's bytes, and with the buffer they are `content`. -/
def AtEnd (f : LogFile) (b : BufWriter) (content : Bytes) : Prop :=
  ∃ bytes, f.bytes = some bytes ∧ b.position = bytes.length ∧ bytes ++ b.buffer = content ∧
    f.synced ≤ bytes.length

/-- Only the bytes of the file have changed. -/
def SameBut (f g : LogFile) : Prop := ∃ bytes, g = { f with bytes := some bytes }

variable {f : LogFile}

theorem SameBut.trans {g h : LogFile} (h₁ : SameBut f g) (h₂ : SameBut g h) : SameBut f h := by
  obtain ⟨bytes, rfl⟩ := h₁
  obtain ⟨bytes', rfl⟩ := h₂
  exact ⟨bytes', rfl⟩

theorem flushBuf_atEnd (h : b.AtEnd f content) :
    b.flushBuf f = ({ f with bytes := some content }, ⟨content.length, []⟩) := by
  obtain ⟨bytes, hbytes, hpos, rfl, _⟩ := h
  simp only [flushBuf, LogFile.writeAt, hbytes, Option.getD_some, hpos, writeAt_end,
    List.length_append]

theorem AtEnd.flushed (h : b.AtEnd f content) :
    (⟨content.length, []⟩ : BufWriter).AtEnd { f with bytes := some content } content := by
  obtain ⟨bytes, _, _, rfl, hsynced⟩ := h
  exact ⟨_, rfl, rfl, by simp, by rw [List.length_append]; show f.synced ≤ _; omega⟩

theorem AtEnd.buffered (h : b.AtEnd f content) (x : Bytes) :
    ({ b with buffer := b.buffer ++ x } : BufWriter).AtEnd f (content ++ x) := by
  obtain ⟨bytes, hbytes, hpos, rfl, hsynced⟩ := h
  exact ⟨bytes, hbytes, hpos, by simp, hsynced⟩

/-- **Whatever reaches the file, the content grows by what was written.** -/
theorem writeAll_atEnd (h : b.AtEnd f content) (x : Bytes) :
    (b.writeAll f x).2.AtEnd (b.writeAll f x).1 (content ++ x) ∧
      SameBut f (b.writeAll f x).1 := by
  have hsame : SameBut f f := by
    obtain ⟨bytes, hbytes, -⟩ := h
    exact ⟨bytes, by rw [← hbytes]⟩
  unfold writeAll
  split
  · exact ⟨h.buffered x, hsame⟩
  · by_cases hspare : capacity - b.buffer.length < x.length
    · rw [if_pos hspare, flushBuf_atEnd h]
      have hflushed := h.flushed
      dsimp only
      split
      · obtain ⟨bytes, hbytes, hpos, hcontent, hsynced⟩ := hflushed
        simp only [List.append_nil] at hcontent
        subst hcontent
        refine ⟨⟨bytes ++ x, ?_, ?_, by simp, ?_⟩, ⟨_, rfl⟩⟩
        · simp only [LogFile.writeAt, Option.getD_some, writeAt_end]
        · rw [List.length_append]
        · rw [List.length_append]
          exact Nat.le_add_right_of_le hsynced
      · refine ⟨?_, ⟨content, rfl⟩⟩
        simpa using hflushed.buffered x
    · dsimp only
      split
      · -- the write is as large as the buffer and fits, so nothing is waiting
        have hempty : b.buffer = [] := List.length_eq_zero_iff.mp (by
          unfold capacity at *
          omega)
        obtain ⟨bytes, hbytes, hpos, hcontent, hsynced⟩ := h
        rw [hempty, List.append_nil] at hcontent
        subst hcontent
        refine ⟨⟨bytes ++ x, ?_, ?_, by rw [hempty, List.append_nil], ?_⟩, ⟨_, rfl⟩⟩
        · simp only [LogFile.writeAt, hbytes, Option.getD_some, hpos, writeAt_end]
        · rw [hpos, List.length_append]
        · rw [List.length_append]
          exact Nat.le_add_right_of_le hsynced
      · exact ⟨h.buffered x, hsame⟩

theorem writeFrame_atEnd (h : b.AtEnd f content) (parts : FrameParts) :
    (b.writeFrame f parts).2.AtEnd (b.writeFrame f parts).1
      (content ++ parts.bytes) ∧ SameBut f (b.writeFrame f parts).1 := by
  obtain ⟨h₁, s₁⟩ := writeAll_atEnd h parts.len
  obtain ⟨h₂, s₂⟩ := writeAll_atEnd h₁ parts.compressed
  obtain ⟨h₃, s₃⟩ := writeAll_atEnd h₂ parts.crc
  rw [List.append_assoc, List.append_assoc, ← List.append_assoc parts.len] at h₃
  exact ⟨h₃, (s₁.trans s₂).trans s₃⟩

end BufWriter

/-! ## The system -/

/--
The log on disk, the writer that has it open, whether the last writer was lost in a crash,
and the events whose frames were written and not lost.
-/
structure Log where
  file : LogFile
  writer : Option Writer
  torn : Bool
  written : List EventEnvelope

inductive Op where
  | append (input : EnvelopeIn)
  | flush
  | sync
  | verifiedTail
  | close
  | reopen
  | openVerified (expectedPrefix : Option LogTailBinding)
  | openWithExpectedTail (expected : LogTailBinding)
  | crash (kept : Nat)

namespace Log

/-- A new writer starts with the events that its sequence counts. -/
def opened (log : Log) : Except LogError Writer × LogFile → Log
  | (.ok w, f) => ⟨f, some w, false, log.written.take w.nextSeq⟩
  | (.error _, f) => { log with file := f }

/-- The events written once an append was tried. -/
def recorded (lib : Libraries) (w : Writer) (input : EnvelopeIn) (written : List EventEnvelope) :
    List EventEnvelope :=
  match w.prepareAppend lib input with
  | .ok (e, _) => written ++ [e]
  | .error _ => written

/-- What is left after a crash: at least the synchronized bytes. -/
def crashed (log : Log) (kept : Nat) : Log where
  file :=
    { log.file with
      bytes := log.file.bytes.map fun bytes => bytes.take (max kept log.file.synced)
      locked := false }
  writer := none
  torn := true
  written := log.written

def step (lib : Libraries) (log : Log) : Op → Log
  | .reopen => log.opened (openWriter lib log.file)
  | .openVerified expectedPrefix =>
    let (result, f) := EventLog.openVerified lib log.file expectedPrefix
    log.opened (result.map Prod.fst, f)
  | .openWithExpectedTail expected =>
    log.opened (EventLog.openWithExpectedTail lib log.file expected)
  | .crash kept => log.crashed kept
  | .append input =>
    match log.writer with
    | none => log
    | some w =>
      let (_, f, w') := w.append lib log.file input
      { log with file := f, writer := some w', written := recorded lib w input log.written }
  | .flush =>
    match log.writer with
    | none => log
    | some w => let (_, f, w) := w.flush log.file; { log with file := f, writer := some w }
  | .sync =>
    match log.writer with
    | none => log
    | some w => let (_, f, w) := w.sync log.file; { log with file := f, writer := some w }
  | .verifiedTail =>
    match log.writer with
    | none => log
    | some w => let (_, f, w) := w.verifiedTail log.file; { log with file := f, writer := some w }
  | .close =>
    match log.writer with
    | none => log
    | some w => { log with file := w.close log.file, writer := none }

def run (lib : Libraries) (log : Log) (ops : List Op) : Log := ops.foldl (step lib) log

end Log

/-! ## The invariant -/

/-- A beginning of a log: its frames, the events in them and the state they lead to. -/
structure Base (lib : Libraries) where
  canonical : String
  raw : Bytes
  items : List (ScanState × EventEnvelope)
  state : ScanState
  frames : Frames lib .afterHeader raw items state

namespace Base

def bytes (base : Base lib) : Bytes := fileHeader ++ base.raw

/-- The events the beginning holds. -/
def events (base : Base lib) : List EventEnvelope := base.items.map Prod.snd

/-- The header alone. -/
def header (lib : Libraries) (canonical : String) : Base lib := ⟨canonical, [], [], .afterHeader, .nil _⟩

theorem physicalTail_eq (base : Base lib) : base.state.physicalTail = base.bytes.length := by
  have h := Frames.physicalTail_eq base.frames
  rw [h, bytes, List.length_append, fileHeader_length]
  rfl

theorem nextSequence_eq (base : Base lib) : base.state.nextSequence = base.events.length := by
  have h := Frames.nextSequence_eq base.frames
  rw [h, events, List.length_map]
  show 0 + _ = _
  omega

/-- The beginning goes on by appended frames. -/
def extend (hlib : lib.Lawful) (base : Base lib) {raw : Bytes} {items : List (ScanState × EventEnvelope)}
    {t : ScanState} (h : Appended lib base.state raw items t) : Base lib :=
  ⟨base.canonical, base.raw ++ raw, base.items ++ items, t,
    base.frames.append (Appended.frames hlib h)⟩

/-- The file with these frames behind the base, all on stable storage. -/
abbrev stored (base : Base lib) (f : LogFile) (raw : Bytes) : LogFile :=
  { f with bytes := some (base.bytes ++ raw), synced := (base.bytes ++ raw).length }

end Base

variable {base : Base lib} {f : LogFile} {w : Writer} {raw : Bytes}
  {items : List (ScanState × EventEnvelope)} {t : ScanState}

/-- An open log: behind the beginning stand the frames its writer has appended. -/
structure Opened (base : Base lib) (f : LogFile) (w : Writer) (raw : Bytes)
    (items : List (ScanState × EventEnvelope)) (t : ScanState) : Prop where
  appended : Appended lib base.state raw items t
  canonical : f.canonical = base.canonical
  retention : f.retention = none
  locked : f.locked = true
  content : w.inner.AtEnd f (base.bytes ++ raw)
  base_synced : base.bytes.length ≤ f.synced
  healthy : w.poisonReason = none →
    w.nextSeq = t.nextSequence ∧ w.lastHash = t.previousHash ∧ w.cursor = t.physicalTail

/-- A log nobody has open: behind the appended frames there may be a part of one more. -/
structure Closed (base : Base lib) (f : LogFile) (raw : Bytes)
    (items : List (ScanState × EventEnvelope)) (t : ScanState) (part : Bytes) : Prop where
  appended : Appended lib base.state raw items t
  canonical : f.canonical = base.canonical
  retention : f.retention = none
  unlocked : f.locked = false
  bytes : f.bytes = some (base.bytes ++ raw ++ part)
  torn : TornPart lib t part
  base_synced : base.bytes.length ≤ f.synced
  synced_le : f.synced ≤ (base.bytes ++ raw ++ part).length

/-- **The invariant of the system.** -/
inductive Log.Sound (base : Base lib) : Log → Prop
  | opened {f : LogFile} {w : Writer} {raw : Bytes} {items : List (ScanState × EventEnvelope)}
      {t : ScanState} (h : Opened base f w raw items t) :
      Sound base ⟨f, some w, false, base.events ++ items.map Prod.snd⟩
  | closed {f : LogFile} {raw : Bytes} {items : List (ScanState × EventEnvelope)} {t : ScanState}
      {part : Bytes} {torn : Bool} {written : List EventEnvelope} (h : Closed base f raw items t part)
      (hpart : torn = false → part = []) (hwritten : base.events ++ items.map Prod.snd <+: written) :
      Sound base ⟨f, none, torn, written⟩

/-! ## What each operation keeps -/

variable {input : EnvelopeIn}

theorem Writer.prepareAppend_ok (h : w.prepareAppend lib input = .ok (e, parts)) :
    w.poisonReason = none ∧ w.nextSeq + 1 < 2 ^ 64 ∧
      encodeEnvelope lib ⟨w.nextSeq⟩ w.lastHash input = .ok (e, parts) := by
  simp only [prepareAppend, bind_eq_ok, refuseIf_eq_ok, not_le] at h
  obtain ⟨_, hhealthy, _, hover, hencode⟩ := h
  refine ⟨?_, hover, hencode⟩
  unfold ensureHealthy at hhealthy
  split at hhealthy
  · simp at hhealthy
  · assumption

/-- An append that gets as far as writing writes the next frame of the log. -/
theorem Opened.appendedFrame (h : Opened base f w raw items t)
    (hprep : w.prepareAppend lib input = .ok (e, parts)) :
    AppendedFrame lib t parts.bytes e
      ⟨t.nextSequence + 1, e.thisHash, t.physicalTail + parts.bytes.length⟩ := by
  obtain ⟨hpoison, hover, hencode⟩ := Writer.prepareAppend_ok hprep
  obtain ⟨hseq, hhash, _⟩ := h.healthy hpoison
  rw [hseq] at hover hencode
  rw [hhash] at hencode
  exact ⟨hover, ⟨input, parts, hencode, rfl⟩, rfl⟩

theorem Writer.append_error {err : LogError} (h : w.prepareAppend lib input = .error err) :
    w.append lib f input = (.error err, f, w) := by
  unfold Writer.append
  rw [h]

theorem Writer.length_prepared (h : w.prepareAppend lib input = .ok (e, parts)) :
    parts.bytes.length = parts.compressed.length + 8 := by
  obtain ⟨_, _, hencode⟩ := prepareAppend_ok h
  obtain ⟨json, _, hparts⟩ := (encodeEnvelope_ok hencode 0).2
  exact FrameParts.length_bytes hparts

/-- **An append that gets as far as writing puts its frame behind the others.** -/
theorem Opened.append_frame (h : Opened base f w raw items t)
    (hprep : w.prepareAppend lib input = .ok (e, parts)) :
    Opened base (w.append lib f input).2.1 (w.append lib f input).2.2 (raw ++ parts.bytes)
      (items ++ [(t, e)]) ⟨t.nextSequence + 1, e.thisHash, t.physicalTail + parts.bytes.length⟩ := by
  obtain ⟨hseq, hhash, hcursor⟩ := h.healthy (Writer.prepareAppend_ok hprep).1
  obtain ⟨hcontent, bytes, hsame⟩ := BufWriter.writeFrame_atEnd h.content parts
  have happ := h.appended.snoc (h.appendedFrame hprep)
  rw [List.append_assoc] at hcontent
  unfold Writer.append
  rw [hprep]
  dsimp only
  split
  · refine ⟨happ, ?_, ?_, ?_, hcontent, ?_, fun hp => absurd hp (by simp)⟩
    · rw [hsame]; exact h.canonical
    · rw [hsame]; exact h.retention
    · rw [hsame]; exact h.locked
    · rw [hsame]; exact h.base_synced
  · refine ⟨happ, ?_, ?_, ?_, hcontent, ?_, fun _ => ⟨?_, rfl, ?_⟩⟩
    · rw [hsame]; exact h.canonical
    · rw [hsame]; exact h.retention
    · rw [hsame]; exact h.locked
    · rw [hsame]; exact h.base_synced
    · rw [hseq]
    · rw [hcursor, Writer.length_prepared hprep]

/-- **An append leaves the log open, with its frame behind the others or as it was.** -/
theorem Opened.append (h : Opened base f w raw items t) (input : EnvelopeIn) :
    ∃ raw' items' t', Opened base (w.append lib f input).2.1 (w.append lib f input).2.2 raw' items' t' ∧
      Log.recorded lib w input (base.events ++ items.map Prod.snd) =
        base.events ++ items'.map Prod.snd := by
  cases hprep : w.prepareAppend lib input with
  | error err =>
    refine ⟨raw, items, t, ?_, ?_⟩
    · rw [Writer.append_error hprep]
      exact h
    · rw [Log.recorded, hprep]
  | ok ep =>
    refine ⟨_, _, _, h.append_frame hprep, ?_⟩
    rw [Log.recorded, hprep, List.map_append, ← List.append_assoc]
    rfl

/-- The writer once its buffer is in the file. -/
def Writer.flushed (w : Writer) (content : Bytes) : Writer := { w with inner := ⟨content.length, []⟩ }

theorem Writer.ensureHealthy_eq (h : w.poisonReason = none) : w.ensureHealthy = .ok () := by
  unfold ensureHealthy
  rw [h]

theorem Writer.ensureHealthy_poisoned (h : w.poisonReason = some reason) :
    w.ensureHealthy = .error (.poisoned reason) := by
  unfold ensureHealthy
  rw [h]

/-- A flush puts the buffer into the file. -/
theorem Opened.flush_healthy (h : Opened base f w raw items t) (hp : w.poisonReason = none) :
    w.flush f = (.ok (), { f with bytes := some (base.bytes ++ raw) },
      w.flushed (base.bytes ++ raw)) := by
  unfold Writer.flush
  rw [Writer.ensureHealthy_eq hp]
  rw [BufWriter.flushBuf_atEnd h.content]
  rfl

/-- A synchronization puts every appended byte on stable storage. -/
theorem Opened.sync_healthy (h : Opened base f w raw items t) (hp : w.poisonReason = none) :
    w.sync f = (.ok (), base.stored f raw,
      w.flushed (base.bytes ++ raw)) := by
  unfold Writer.sync
  rw [h.flush_healthy hp]
  rfl

theorem Writer.flush_poisoned (h : w.poisonReason = some reason) :
    w.flush f = (.error (.poisoned reason), f, w) := by
  unfold Writer.flush
  rw [ensureHealthy_poisoned h]

theorem Writer.sync_poisoned (h : w.poisonReason = some reason) :
    w.sync f = (.error (.poisoned reason), f, w) := by
  unfold Writer.sync
  rw [flush_poisoned h]

theorem base_le (base : Base lib) (raw : Bytes) : base.bytes.length ≤ (base.bytes ++ raw).length := by
  rw [List.length_append]
  omega

section

variable (h : Opened base f w raw items t)

include h

theorem Opened.flushed :
    Opened base { f with bytes := some (base.bytes ++ raw) } (w.flushed (base.bytes ++ raw)) raw items
      t :=
  ⟨h.appended, h.canonical, h.retention, h.locked, h.content.flushed, h.base_synced, h.healthy⟩

theorem Opened.synced : Opened base (base.stored f raw)
      (w.flushed (base.bytes ++ raw)) raw items t :=
  ⟨h.appended, h.canonical, h.retention, h.locked, ⟨_, rfl, rfl, by simp [Writer.flushed], le_refl _⟩,
    base_le base raw, h.healthy⟩

theorem Opened.flush : Opened base (w.flush f).2.1 (w.flush f).2.2 raw items t := by
  cases hp : w.poisonReason with
  | none => rw [h.flush_healthy hp]; exact h.flushed
  | some reason => rw [Writer.flush_poisoned hp]; exact h

theorem Opened.sync : Opened base (w.sync f).2.1 (w.sync f).2.2 raw items t := by
  cases hp : w.poisonReason with
  | none => rw [h.sync_healthy hp]; exact h.synced
  | some reason => rw [Writer.sync_poisoned hp]; exact h

end

theorem Writer.verifiedTail_state : (w.verifiedTail f).2 = (w.sync f).2 := by
  unfold verifiedTail
  split
  · rename_i e f' w' h
    rw [h]
  · rename_i f' w' h
    rw [h]
    by_cases hc : (f'.bytes.getD []).length ≠ w'.cursor
    · simp only [if_pos hc]
    · simp only [if_neg hc]

theorem Opened.verifiedTail (h : Opened base f w raw items t) :
    Opened base (w.verifiedTail f).2.1 (w.verifiedTail f).2.2 raw items t := by
  rw [Writer.verifiedTail_state]
  exact h.sync

/-- **The tail a writer binds is where its frames lead**, and everything up to it is on
stable storage. -/
theorem Opened.verifiedTail_ok (h : Opened base f w raw items t) {binding : LogTailBinding}
    (hb : (w.verifiedTail f).1 = .ok binding) :
    binding = tailBinding f.canonical t ∧ (w.verifiedTail f).2 =
      (base.stored f raw, w.flushed (base.bytes ++ raw)) := by
  rw [Writer.verifiedTail_state]
  cases hp : w.poisonReason with
  | some reason =>
    unfold Writer.verifiedTail at hb
    rw [Writer.sync_poisoned hp] at hb
    simp at hb
  | none =>
    obtain ⟨hseq, hhash, hcursor⟩ := h.healthy hp
    rw [h.sync_healthy hp]
    refine ⟨?_, rfl⟩
    unfold Writer.verifiedTail at hb
    rw [h.sync_healthy hp] at hb
    dsimp only [Writer.flushed] at hb
    split at hb
    · simp at hb
    · simp only [Except.ok.injEq] at hb
      rw [← hb, hseq, hhash, hcursor]
      rfl

/-- **Closing leaves whole frames**, whether the writer is healthy or poisoned. -/
theorem Opened.close (h : Opened base f w raw items t) :
    Closed base (w.close f) raw items t [] := by
  have hsynced : f.synced ≤ (base.bytes ++ raw ++ []).length := by
    obtain ⟨bytes, _, _, hcontent, hsynced⟩ := h.content
    rw [List.append_nil, ← hcontent, List.length_append]
    omega
  unfold Writer.close
  cases hp : w.poisonReason with
  | none =>
    rw [h.sync_healthy hp]
    exact ⟨h.appended, h.canonical, h.retention, rfl, by simp, .inl rfl, base_le base raw, by simp⟩
  | some reason =>
    rw [Writer.sync_poisoned hp]
    dsimp only
    rw [BufWriter.flushBuf_atEnd h.content]
    exact ⟨h.appended, h.canonical, h.retention, rfl, by simp, .inl rfl, h.base_synced, hsynced⟩

/-- What a cut behind the beginning keeps of the frames after it. -/
theorem Appended.cut_content (h : Appended lib base.state raw items t) {n : Nat}
    (hn : base.bytes.length ≤ n) :
    ∃ raw' items' t' part, (base.bytes ++ raw).take n = base.bytes ++ raw' ++ part ∧
      Appended lib base.state raw' items' t' ∧ TornPart lib t' part ∧
      items'.map Prod.snd <+: items.map Prod.snd := by
  obtain ⟨u, kept, part, init, added, more, htake, _, hitems, hkept, _, htorn⟩ :=
    Appended.cut_torn h (n - base.bytes.length)
  refine ⟨kept, init, u, part, ?_, hkept, htorn, ?_⟩
  · rw [List.take_append, List.take_of_length_le hn, htake, List.append_assoc]
  · rw [hitems, List.map_append]
    exact List.prefix_append _ _

variable {written : List EventEnvelope}

/-- **A crash of an open log leaves whole frames and a part of one more.** -/
theorem Opened.crashed (h : Opened base f w raw items t) (kept : Nat) :
    ∃ raw' items' t' part, Closed base (Log.crashed ⟨f, some w, torn, written⟩ kept).file raw' items' t'
      part ∧ items'.map Prod.snd <+: items.map Prod.snd := by
  obtain ⟨bytes, hbytes, _, hcontent, hsynced⟩ := h.content
  have hbase := h.base_synced
  have htake : bytes.take (max kept f.synced) =
      (base.bytes ++ raw).take (min (max kept f.synced) bytes.length) := by
    rw [← hcontent, List.take_append_of_le_length (Nat.min_le_right _ _), List.take_eq_take_min]
  obtain ⟨raw', items', t', part, hcut, happ, htorn, hitems⟩ :=
    Appended.cut_content h.appended (n := min (max kept f.synced) bytes.length) (by omega)
  rw [hcut] at htake
  refine ⟨raw', items', t', part, ⟨happ, h.canonical, h.retention, rfl, ?_, htorn, hbase, ?_⟩, hitems⟩
  · simp only [Log.crashed, hbytes, Option.map_some, htake]
  · show f.synced ≤ _
    rw [← htake, List.length_take]
    omega

variable {part : Bytes}

/-- A crash of a log nobody has open may cut it further. -/
theorem Closed.crashed (h : Closed base f raw items t part) (kept : Nat) :
    ∃ raw' items' t' part', Closed base (Log.crashed ⟨f, none, torn, written⟩ kept).file raw' items' t'
      part' ∧ items'.map Prod.snd <+: items.map Prod.snd := by
  have hbase := h.base_synced
  have hsynced := h.synced_le
  have hlen : f.synced ≤ ((base.bytes ++ raw ++ part).take (max kept f.synced)).length := by
    rw [List.length_take]
    omega
  have hfile : (Log.crashed ⟨f, none, torn, written⟩ kept).file.bytes =
      some ((base.bytes ++ raw ++ part).take (max kept f.synced)) := by
    simp only [Log.crashed, h.bytes, Option.map_some]
  by_cases hn : (base.bytes ++ raw).length ≤ max kept f.synced
  · have htake : (base.bytes ++ raw ++ part).take (max kept f.synced) =
        base.bytes ++ raw ++ part.take (max kept f.synced - (base.bytes ++ raw).length) := by
      rw [List.take_append, List.take_of_length_le hn]
    rw [htake] at hfile hlen
    exact ⟨raw, items, t, _, ⟨h.appended, h.canonical, h.retention, rfl, hfile, h.torn.take _, hbase, hlen⟩,
      List.prefix_rfl⟩
  · have htake : (base.bytes ++ raw ++ part).take (max kept f.synced) =
        (base.bytes ++ raw).take (max kept f.synced) :=
      List.take_append_of_le_length (by omega)
    obtain ⟨raw', items', t', part', hcut, happ, htorn, hitems⟩ :=
      Appended.cut_content h.appended (n := max kept f.synced) (by omega)
    rw [htake, hcut] at hfile hlen
    exact ⟨raw', items', t', part', ⟨happ, h.canonical, h.retention, rfl, hfile, htorn, hbase, hlen⟩, hitems⟩

/-! ## Opening -/

theorem Closed.ne_nil (_h : Closed base f raw items t part) : base.bytes ++ raw ++ part ≠ [] := by
  simp [Base.bytes, fileHeader]

variable {bytes : Bytes}

theorem openWriter_eq (h : f.bytes = some bytes) : openWriter lib f = openExisting lib f bytes := by
  have hfile : { f with bytes := some bytes } = f := by
    rw [← h]
  unfold openWriter
  rw [h, Option.getD_some, hfile]

/-- A log another handle has open is not opened. -/
theorem openWriter_locked (hbytes : f.bytes = some bytes) (h : f.locked = true) :
    openWriter lib f = (.error (.locked f.path), f) := by
  rw [openWriter_eq hbytes, openExisting, if_pos h]

theorem openVerified_locked (hbytes : f.bytes = some bytes) (h : f.locked = true)
    (expectedPrefix : Option LogTailBinding) :
    openVerified lib f expectedPrefix = (.error (.locked f.path), f) := by
  unfold openVerified
  rw [hbytes]
  dsimp only
  rw [if_pos h]

/-- An open that expects a tail refuses and leaves the file, or is a plain open. -/
theorem openWithExpectedTail_cases (lib : Libraries) (f : LogFile) (expected : LogTailBinding) :
    (∃ e, openWithExpectedTail lib f expected = (.error e, f)) ∨
      openWithExpectedTail lib f expected = openWriter lib f := by
  unfold openWithExpectedTail
  dsimp only
  split
  · rename_i e _
    exact .inl ⟨e, rfl⟩
  · exact .inr rfl

section

variable (hlib : lib.Lawful) (h : Closed base f raw items t part)

include hlib h

/-- What a scan of a log nobody has open finds. -/
theorem Closed.inspectOpen :
    EventLog.inspectOpen lib f (base.bytes ++ raw ++ part) =
      .ok ⟨tailBinding f.canonical t, tornTail t part⟩ := by
  have hframes := base.frames.append (Appended.frames hlib h.appended)
  exact inspectOpen_plain h.retention hframes (h.torn.ends hlib)

theorem Closed.tail_eq :
    t.physicalTail = (base.bytes ++ raw).length := by
  have ht := Frames.physicalTail_eq (Appended.frames hlib h.appended)
  rw [ht, base.physicalTail_eq, List.length_append]

/-- **Settling a scanned log cuts the torn part off and places the writer behind the rest.** -/
theorem Closed.settle :
    EventLog.settle f (base.bytes ++ raw ++ part) ⟨tailBinding f.canonical t, tornTail t part⟩ =
      (.ok (.fromFile f.path t.nextSequence t.previousHash t.physicalTail),
        { base.stored f raw with locked := true }) := by
  have hkept : (if (tornTail t part).isSome then
      (base.bytes ++ raw ++ part).take t.physicalTail else base.bytes ++ raw ++ part) =
      base.bytes ++ raw := by
    by_cases hpart : part = []
    · subst hpart
      rw [tornTail, if_pos rfl, if_neg (by simp), List.append_nil]
    · rw [tornTail, if_neg hpart, Option.isSome_some, if_pos rfl, h.tail_eq hlib, List.take_left]
  have hlt : t.nextSequence < 2 ^ 64 :=
    Frames.nextSequence_lt (base.frames.append (Appended.frames hlib h.appended)) (by decide)
  unfold EventLog.settle
  simp only [tailBinding, hkept, ScanState.lastSequence]
  by_cases hzero : t.nextSequence = 0
  · rw [if_pos hzero, hzero]
  · have hback : t.nextSequence - 1 + 1 = t.nextSequence := by omega
    simp only [if_neg hzero, hback, if_neg (not_le.mpr hlt)]

/-- The log once it was opened. -/
theorem Closed.opened :
    Opened base { base.stored f raw with locked := true }
      (.fromFile f.path t.nextSequence t.previousHash t.physicalTail) raw items t where
  appended := h.appended
  canonical := h.canonical
  retention := h.retention
  locked := rfl
  content := ⟨_, rfl, h.tail_eq hlib, by simp [Writer.fromFile], le_refl _⟩
  base_synced := base_le base raw
  healthy := fun _ => ⟨rfl, rfl, rfl⟩

/-- **Opening keeps exactly the whole frames.** -/
theorem Closed.openWriter :
    EventLog.openWriter lib f =
      (.ok (.fromFile f.path t.nextSequence t.previousHash t.physicalTail),
        { base.stored f raw with locked := true }) := by
  rw [openWriter_eq h.bytes, openExisting, if_neg (by rw [h.unlocked]; simp), if_neg h.ne_nil,
    h.inspectOpen hlib]
  exact h.settle hlib

/-- A verified open either refuses and leaves the file, or opens it as a plain open does. -/
theorem Closed.openVerified (expectedPrefix : Option LogTailBinding) :
    (∃ e, EventLog.openVerified lib f expectedPrefix = (.error e, f)) ∨
      ∃ binding seen, EventLog.openVerified lib f expectedPrefix =
        (.ok (.fromFile f.path t.nextSequence t.previousHash t.physicalTail, binding, seen),
          { base.stored f raw with locked := true }) := by
  have hframes := base.frames.append (Appended.frames hlib h.appended)
  have hwalk := walkLocked_plain h.retention hframes (h.torn.ends hlib) expectedPrefix
  unfold EventLog.openVerified
  rw [h.bytes]
  dsimp only
  rw [if_neg (by rw [h.unlocked]; simp), if_neg h.ne_nil]
  change walkLocked lib f (base.bytes ++ raw ++ part) ⟨expectedPrefix, .physicalEof⟩ = _ at hwalk
  rw [hwalk]
  dsimp only [finishVerifiedOpen]
  rw [h.settle hlib]
  split
  · rename_i e' f' hfin
    split at hfin
    · simp only [Prod.mk.injEq, Except.error.injEq] at hfin
      exact .inl ⟨_, by rw [← hfin.2]⟩
    · simp at hfin
  · rename_i w' binding f' hfin
    split at hfin
    · simp at hfin
    · obtain ⟨⟨rfl, rfl⟩, rfl⟩ := hfin
      exact .inr ⟨_, _, rfl⟩

/-- The events a new writer starts with. -/
theorem Closed.written_take (hw : base.events ++ items.map Prod.snd <+: written) :
    written.take t.nextSequence = base.events ++ items.map Prod.snd := by
  have hseq := Frames.nextSequence_eq (Appended.frames hlib h.appended)
  rw [base.nextSequence_eq] at hseq
  obtain ⟨more, rfl⟩ := hw
  exact List.take_left' (by rw [hseq, List.length_append, List.length_map])

/-- A successful open leads from a closed log to an open one. -/
theorem Closed.opened_sound (hw : base.events ++ items.map Prod.snd <+: written) :
    Log.Sound base (Log.opened ⟨f, none, torn, written⟩
      (.ok (.fromFile f.path t.nextSequence t.previousHash t.physicalTail),
        { base.stored f raw with locked := true })) := by
  have htake := h.written_take hlib hw
  simp only [Log.opened, Writer.fromFile, htake]
  exact .opened (h.opened hlib)

end

/-! ## Every step keeps the invariant -/

/-- **Every step of the system keeps the invariant.** -/
theorem step_sound (hlib : lib.Lawful) {log : Log} (h : log.Sound base) (op : Op) :
    (log.step lib op).Sound base := by
  cases h with
  | @opened f w raw items t h =>
    obtain ⟨bytes, hbytes, -⟩ := h.content
    cases op with
    | append input =>
      obtain ⟨raw', items', t', h', hrec⟩ := h.append input
      simp only [Log.step, hrec]
      exact .opened h'
    | flush => exact .opened h.flush
    | sync => exact .opened h.sync
    | verifiedTail => exact .opened h.verifiedTail
    | close => exact .closed h.close (fun _ => rfl) List.prefix_rfl
    | reopen =>
      simp only [Log.step, openWriter_locked hbytes h.locked, Log.opened]
      exact .opened h
    | openVerified expectedPrefix =>
      simp only [Log.step, openVerified_locked hbytes h.locked, Log.opened, Except.map]
      exact .opened h
    | openWithExpectedTail expected =>
      rcases openWithExpectedTail_cases lib f expected with ⟨e, he⟩ | he
      · simp only [Log.step, he, Log.opened]
        exact .opened h
      · simp only [Log.step, he, openWriter_locked hbytes h.locked, Log.opened]
        exact .opened h
    | crash kept =>
      obtain ⟨raw', items', t', part, h', hitems⟩ := h.crashed kept
      exact .closed h' (fun hf => absurd hf (by simp))
        (List.prefix_append_right_inj base.events |>.mpr hitems)
  | @closed f raw items t part torn written h hpart hw =>
    cases op with
    | append input | flush | sync | verifiedTail | close => exact .closed h hpart hw
    | reopen =>
      simp only [Log.step, h.openWriter hlib]
      exact h.opened_sound hlib hw
    | openVerified expectedPrefix =>
      rcases h.openVerified hlib expectedPrefix with ⟨e, he⟩ | ⟨binding, seen, he⟩
      · simp only [Log.step, he, Log.opened, Except.map]
        exact .closed h hpart hw
      · simp only [Log.step, he, Except.map]
        exact h.opened_sound hlib hw
    | openWithExpectedTail expected =>
      rcases openWithExpectedTail_cases lib f expected with ⟨e, he⟩ | he
      · simp only [Log.step, he, Log.opened]
        exact .closed h hpart hw
      · simp only [Log.step, he, h.openWriter hlib]
        exact h.opened_sound hlib hw
    | crash kept =>
      obtain ⟨raw', items', t', part', h', hitems⟩ := h.crashed kept
      refine .closed h' (fun hf => absurd hf (by simp)) (List.IsPrefix.trans ?_ hw)
      exact (List.prefix_append_right_inj base.events).mpr hitems

/-- **Every run of the system keeps the invariant.** -/
theorem run_sound (hlib : lib.Lawful) (ops : List Op) : ∀ {log : Log}, log.Sound base →
    (log.run lib ops).Sound base := by
  induction ops with
  | nil => intro log h; exact h
  | cons op ops ih => intro log h; exact ih (step_sound hlib h op)

/-- A log that was just created. -/
def Log.created (f : LogFile) : Log := ⟨(createLog f).2, some (createLog f).1, false, []⟩

theorem load_eq_none : RetentionAuthority.load lib f = .ok none ↔ f.retention = none := by
  refine ⟨fun h => ?_, load_none⟩
  unfold RetentionAuthority.load at h
  split at h
  · assumption
  · simp only [bind_eq_ok, pure_eq_ok] at h
    simp at h

/-- **Opening a file that is missing or empty creates the log.** -/
theorem openWriter_empty {w₀ : Writer} {f₁ : LogFile} (hbytes : f.bytes.getD [] = [])
    (h : openWriter lib f = (.ok w₀, f₁)) :
    f.retention = none ∧ w₀ = (createLog f).1 ∧ f₁ = (createLog f).2 := by
  unfold openWriter openExisting at h
  rw [hbytes] at h
  split at h
  · simp at h
  rw [if_pos rfl] at h
  split at h
  · simp at h
  · simp at h
  · rename_i hload
    simp only [Prod.mk.injEq, Except.ok.injEq] at h
    exact ⟨load_eq_none.mp hload, h.1.symm, h.2.symm⟩

theorem created_opened (hret : f.retention = none) :
    Opened (Base.header lib f.canonical) (createLog f).2 (createLog f).1 [] [] .afterHeader where
  appended := .nil _
  canonical := rfl
  retention := hret
  locked := rfl
  content := ⟨fileHeader, rfl, rfl, rfl, le_refl _⟩
  base_synced := le_refl _
  healthy := fun _ => ⟨rfl, rfl, rfl⟩

theorem created_sound (hret : f.retention = none) :
    (Log.created f).Sound (Base.header lib f.canonical) :=
  .opened (created_opened hret)

end PredictionEdge.EventLog
