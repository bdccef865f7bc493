import PredictionEdge.EventLog.Reader

/-!
# Writer and readers agree

What `Writer::append` has written, every reader of the log reads back: the scanner and the
replay, frame by frame from the start, and `read_at`, a single frame at its offset. A call
that is refused before it writes leaves no trace, so the log is as if it had not been made.
-/

namespace PredictionEdge.EventLog

variable {lib : Libraries} {base : Base lib} {f : LogFile} {w : Writer} {raw : Bytes}
  {items : List (ScanState × EventEnvelope)} {s t : ScanState}

/-- A log and its writer after some calls: the events of those that were accepted, and what
each call returned. -/
structure Appending where
  file : LogFile
  writer : Writer
  accepted : List EventEnvelope
  outcomes : List (Except LogError EventSeq)

variable {input : EnvelopeIn} {e : EventEnvelope} {a : Appending} {u : ScanState}

namespace Appending

def call (lib : Libraries) (a : Appending) (input : EnvelopeIn) : Appending where
  file := (a.writer.append lib a.file input).2.1
  writer := (a.writer.append lib a.file input).2.2
  accepted :=
    match (a.writer.append lib a.file input).1, a.writer.prepareAppend lib input with
    | .ok _, .ok (envelope, _) => a.accepted ++ [envelope]
    | _, _ => a.accepted
  outcomes := a.outcomes ++ [(a.writer.append lib a.file input).1]

def isIo : Except LogError EventSeq → Bool
  | .error (.io _) => true
  | _ => false

/-- No call failed in the file system. -/
def NoIo (a : Appending) : Prop := ∀ outcome ∈ a.outcomes, isIo outcome = false

/-- The log holds the accepted events, and its writer is healthy. -/
def Holds (base : Base lib) (a : Appending) (raw : Bytes)
    (items : List (ScanState × EventEnvelope)) (t : ScanState) : Prop :=
  Opened base a.file a.writer raw items t ∧ a.accepted = items.map Prod.snd
    ∧ a.writer.poisonReason = none

theorem NoIo.before (h : (a.call lib input).NoIo) : a.NoIo :=
  fun outcome hmem => h outcome (List.mem_append_left _ hmem)

/-- **A call keeps the log**, whether it is accepted or refused. -/
theorem Holds.step (h : a.Holds base raw items t) (hio : (a.call lib input).NoIo) :
    ∃ raw' items' t', (a.call lib input).Holds base raw' items' t' := by
  obtain ⟨hopened, haccepted, hhealthy⟩ := h
  cases hprep : a.writer.prepareAppend lib input with
  | error err =>
    have happend := Writer.append_error (f := a.file) hprep
    refine ⟨raw, items, t, ?_, ?_, ?_⟩
    · simp only [Appending.call, happend]
      exact hopened
    · simp only [Appending.call, happend]
      exact haccepted
    · simp only [Appending.call, happend]
      exact hhealthy
  | ok ep =>
    obtain ⟨e, parts⟩ := ep
    refine ⟨_, _, _, hopened.append_frame hprep, ?_⟩
    have hio := hio _ (List.mem_append_right _ (List.mem_singleton.mpr rfl))
    simp only [Appending.call]
    unfold Writer.append at hio ⊢
    rw [hprep] at hio ⊢
    dsimp only at hio ⊢
    split at hio
    · simp [isIo] at hio
    · rename_i hcursor
      rw [if_neg hcursor]
      refine ⟨?_, hhealthy⟩
      rw [List.map_append, ← haccepted]
      rfl

theorem Holds.calls (inputs : List EnvelopeIn) : ∀ {a : Appending} {raw : Bytes}
    {items : List (ScanState × EventEnvelope)} {t : ScanState}, a.Holds base raw items t →
    (inputs.foldl (call lib) a).NoIo →
    ∃ raw' items' t', (inputs.foldl (call lib) a).Holds base raw' items' t' := by
  induction inputs with
  | nil =>
    intro a raw items t h _
    exact ⟨raw, items, t, h⟩
  | cons input inputs ih =>
    intro a raw items t h hio
    have hfirst : (a.call lib input).NoIo := by
      refine List.foldlRecOn (motive := fun a' => a'.NoIo → (a.call lib input).NoIo) inputs
        (call lib) id (fun a' ha' input' _ hio' => ha' hio'.before) hio
    obtain ⟨_, _, _, h'⟩ := h.step hfirst
    exact ih h' hio

end Appending

/-! ## What the readers see -/

/-- Each frame is somewhere in the bytes, at the offset of its state. -/
theorem Frames.frame_at (h : Frames lib s raw items t) (hmem : (u, e) ∈ items) :
    ∃ before frame rest v, raw = before ++ (frame ++ rest)
      ∧ u.physicalTail = s.physicalTail + before.length ∧ VerifiedFrame lib u frame e v := by
  induction h with
  | nil s => simp at hmem
  | @cons s t v raw tail e' items hfirst _ ih =>
    rcases List.mem_cons.mp hmem with heq | hmem
    · obtain ⟨rfl, rfl⟩ := Prod.mk.inj heq
      exact ⟨[], raw, tail, t, rfl, rfl, hfirst⟩
    · obtain ⟨before, frame, rest, v', rfl, htail, hframe⟩ := ih hmem
      refine ⟨raw ++ before, frame, rest, v', by rw [List.append_assoc], ?_, hframe⟩
      rw [htail, hfirst.after, List.length_append]
      show s.physicalTail + raw.length + before.length = _
      omega

theorem Frames.sequences (h : Frames lib s raw items t) :
    items.map (fun i => i.2.seq.val) = List.range' s.nextSequence items.length := by
  induction h with
  | nil s => rfl
  | cons hfirst _ ih =>
    rw [List.map_cons, List.length_cons, List.range'_succ, ih, hfirst.linked.1, hfirst.after]

theorem Frames.readAt {rest : Bytes} (h : Frames lib .afterHeader raw items t)
    (hbytes : f.bytes = some (fileHeader ++ raw ++ rest)) (hmem : (u, e) ∈ items) :
    ∃ stop, readAt lib f u.physicalTail e.seq e.prevHash = .ok (e, stop) := by
  obtain ⟨before, frame, more, v, rfl, htail, hframe⟩ := h.frame_at hmem
  have hstate : ScanState.atFrame e.seq e.prevHash u.physicalTail = u := by
    rw [hframe.linked.1, hframe.linked.2.1]
    rfl
  refine ⟨v.physicalTail, readAt_ok.mpr ⟨before ++ (frame ++ more) ++ rest, v, frame, more ++ rest,
    by rw [hbytes, List.append_assoc], ?_, rfl⟩⟩
  rw [hstate, htail]
  have hdrop : (fileHeader ++ (before ++ (frame ++ more) ++ rest)).drop
      (ScanState.afterHeader.physicalTail + before.length) = frame ++ (more ++ rest) := by
    have hlength : ScanState.afterHeader.physicalTail + before.length = (fileHeader ++ before).length := by
      rw [List.length_append]
      rfl
    rw [hlength, List.append_assoc, List.append_assoc, ← List.append_assoc fileHeader, List.drop_left]
  rw [hdrop]
  exact hframe.read _

/-- A healthy writer binds its tail. -/
theorem Opened.verifiedTail_healthy (hlib : lib.Lawful) (h : Opened base f w raw items t)
    (hp : w.poisonReason = none) : w.verifiedTail f = (.ok (tailBinding f.canonical t),
      { f with bytes := some (base.bytes ++ raw), synced := (base.bytes ++ raw).length },
      w.flushed (base.bytes ++ raw)) := by
  obtain ⟨hseq, hhash, hcursor⟩ := h.healthy hp
  have hlength : (base.bytes ++ raw).length = w.cursor := by
    rw [hcursor, (Appended.frames hlib h.appended).physicalTail_eq, base.physicalTail_eq,
      List.length_append]
  unfold Writer.verifiedTail
  rw [h.sync_healthy hp]
  dsimp only [Writer.flushed, Option.getD_some]
  rw [if_neg (not_not.mpr hlength), hseq, hhash, hcursor]
  rfl

/--
**Writer and readers agree.**

After any calls of `append` on a new log, none of which failed in the file system, the
writer binds a tail; the scanner verifies the file to that tail and sees the accepted
events, the replay yields them, and `read_at` returns each of them at its offset. Their
sequence numbers count from zero.
-/
theorem appended_agreement (lib : Libraries) (hlib : lib.Lawful) (f f₁ : LogFile) (w₀ : Writer)
    (hnew : f.bytes.getD [] = []) (hopen : openWriter lib f = (.ok w₀, f₁))
    (inputs : List EnvelopeIn) (log : Appending)
    (hlog : inputs.foldl (Appending.call lib) ⟨f₁, w₀, [], []⟩ = log) (hio : log.NoIo) :
    log.accepted.map (·.seq.val) = List.range log.accepted.length
      ∧ ∃ binding g w bytes walked, log.writer.verifiedTail log.file = (.ok binding, g, w)
        ∧ g.bytes = some bytes ∧ walkLocked lib g bytes ⟨none, .physicalEof⟩ = .ok walked
        ∧ walked.outcome = ⟨binding, none⟩ ∧ verify lib g = .ok binding
        ∧ walked.seen.map Prod.snd = log.accepted
        ∧ replayWithOffsets lib g = .ok (walked.seen.map fun p => (p.1, p.2.seq, p.2))
        ∧ ∀ p ∈ walked.seen, ∃ stop, readAt lib g p.1 p.2.seq p.2.prevHash = .ok (p.2, stop) := by
  obtain ⟨hret, rfl, rfl⟩ := openWriter_empty hnew hopen
  have hstart : Appending.Holds (Base.header lib f.canonical) ⟨(createLog f).2, (createLog f).1, [], []⟩
      [] [] .afterHeader := ⟨created_opened hret, rfl, rfl⟩
  obtain ⟨raw, items, t, hopened, haccepted, hhealthy⟩ := hstart.calls inputs (hlog.symm ▸ hio)
  rw [hlog] at hopened haccepted hhealthy
  have hframes : Frames lib .afterHeader raw items t := Appended.frames hlib hopened.appended
  have htail := hopened.verifiedTail_healthy hlib hhealthy
  have hbytes : (Base.header lib f.canonical).bytes ++ raw = fileHeader ++ raw ++ [] := by
    rw [List.append_nil]
    rfl
  rw [hbytes] at htail
  have hret' : log.file.retention = none := hopened.retention
  have hends : Ends lib t [] none := readVerifiedFrame_nil t
  generalize hg : ({ log.file with bytes := some (fileHeader ++ raw ++ []),
                                   synced := (fileHeader ++ raw ++ []).length } : LogFile) = g at htail
  have hgret : g.retention = none := by rw [← hg]; exact hret'
  have hgbytes : g.bytes = some (fileHeader ++ raw ++ []) := by rw [← hg]
  have hcanonical : log.file.canonical = g.canonical := by rw [← hg]
  rw [hcanonical] at htail
  have hwalk := walkLocked_plain hgret hframes hends none
  refine ⟨?_, _, g, _, _, _, htail, hgbytes, hwalk, rfl, ?_, ?_, ?_, ?_⟩
  · rw [haccepted, List.map_map, List.length_map, List.range_eq_range']
    exact hframes.sequences
  · simp only [verify, inspect, LogFile.contents_ok.mpr hgbytes, Lib.ok_bind,
      inspectOpen_plain hgret hframes hends]
    rfl
  · rw [haccepted]
    simp only [shown, List.map_map]
    rfl
  · exact replayWithOffsets_eq hgbytes hwalk rfl
  · intro p hp
    obtain ⟨⟨u, e⟩, hmem, rfl⟩ := List.mem_map.mp hp
    exact hframes.readAt hgbytes hmem

/-- The stand-in libraries, refusing to encode one payload. -/
def pickyLibraries : Libraries :=
  { StandIn.libraries with
    envelopeToJson := fun e =>
      if e.payload = [2] then .error "refused" else StandIn.libraries.envelopeToJson e }

theorem pickyLibraries_lawful : pickyLibraries.Lawful :=
  { StandIn.libraries_lawful with
    json_inverse := by
      intro e j h
      simp only [pickyLibraries] at h
      split at h
      · simp at h
      · exact StandIn.libraries_lawful.json_inverse h }

/-- Two events around one that is refused. -/
def aroundRefused : Appending :=
  [StandIn.event 1, StandIn.event 2, StandIn.event 3].foldl (Appending.call pickyLibraries)
    ⟨(createLog (.missing "log")).2, (createLog (.missing "log")).1, [], []⟩

theorem aroundRefused_agreement : aroundRefused.outcomes.length = 3
    ∧ aroundRefused.accepted.map (·.payload) = [[1], [3]]
    ∧ ∃ binding g w, aroundRefused.writer.verifiedTail aroundRefused.file = (.ok binding, g, w)
      ∧ verify pickyLibraries g = .ok binding := by
  have hio : aroundRefused.NoIo := by
    unfold Appending.NoIo
    decide +kernel
  obtain ⟨_, binding, g, w, _, _, htail, _, _, _, hverify, _⟩ := appended_agreement pickyLibraries
    pickyLibraries_lawful (.missing "log") _ _ rfl rfl
    [StandIn.event 1, StandIn.event 2, StandIn.event 3] aroundRefused rfl hio
  exact ⟨by decide +kernel, by decide +kernel, binding, g, w, htail, hverify⟩

end PredictionEdge.EventLog
