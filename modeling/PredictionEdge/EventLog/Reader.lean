import PredictionEdge.EventLog.Resume

/-!
# Replaying a log

`event-log/src/reader.rs` without its tail mode, which waits for a file to grow: the log is
verified through its end, and then read again frame by frame for the consumer. Under a
retention authority the replay starts at the boundary and ends in an error unless it has
passed the retained tail. `replayWithOffsets_eq` says that the second reading yields what
the first one saw.
-/

namespace PredictionEdge.EventLog

open Lib

/-- A replayed frame: where it starts, its sequence and its event. -/
abbrev Replayed := Nat × EventSeq × EventEnvelope

/-- A replay that has not failed. -/
structure ReplayIter where
  input : Bytes
  state : ScanState
  retainedTail : Option LogTailBinding
  reachedRetainedTail : Bool

namespace ReplayIter

def openReplay (lib : Libraries) (f : LogFile) : Except LogError ReplayIter := do
  let bytes ← f.contents
  verifyFileHeader f.path bytes
  let authority ← RetentionAuthority.load lib f
  let state := freshState authority
  let retainedTail := retainedBinding f authority
  requireRetainedLength bytes retainedTail
  pure ⟨bytes.drop state.physicalTail, state, retainedTail, authority.isNone⟩

/-- The state is the retained tail. -/
def reaches (it : ReplayIter) (state : ScanState) : Bool :=
  it.retainedTail.any fun tail =>
    ((PrefixTracker.new (some tail) tail.path).observe state).verdict state = .matched

/-- The next frame, the end of the replay, or an error that ends it. -/
def next (lib : Libraries) (it : ReplayIter) : Except LogError (Option (Replayed × ReplayIter)) :=
  match readVerifiedFrame lib it.state it.input with
  | .error e => .error e
  | .ok (.frame envelope after _ rest) =>
    .ok (some ((it.state.physicalTail, envelope.seq, envelope),
      { it with
        input := rest, state := after,
        reachedRetainedTail := it.reachedRetainedTail || it.reaches after }))
  | .ok .eof =>
    if it.reachedRetainedTail then .ok none
    else .error (.retentionInvalid "log did not reach retained tail")
  | .ok (.incomplete tail) =>
    if it.reachedRetainedTail then .error (.truncated tail.nextSequence tail.byteOffset)
    else .error (.retentionInvalid "log did not reach retained tail")

theorem next_shorter {lib : Libraries} {it it' : ReplayIter} {r : Replayed}
    (h : it.next lib = .ok (some (r, it'))) : it'.input.length < it.input.length := by
  unfold next at h
  split at h
  · simp at h
  · rename_i e t raw rest hread
    simp only [Except.ok.injEq, Option.some.injEq, Prod.mk.injEq] at h
    obtain ⟨_, rfl⟩ := h
    exact readVerifiedFrame_shorter hread
  · split at h <;> exact absurd h (by simp)
  · split at h <;> exact absurd h (by simp)

/-- The whole replay: every frame, or the error that ends it. -/
def collect (lib : Libraries) (it : ReplayIter) : Except LogError (List Replayed) :=
  match _hnext : it.next lib with
  | .error e => .error e
  | .ok none => .ok []
  | .ok (some (r, it')) => (it'.collect lib).map (r :: ·)
termination_by it.input.length
decreasing_by exact next_shorter (by assumption)

end ReplayIter

/-- `Reader::replay_with_offsets`: the log is verified through its end before a frame is shown. -/
def replayWithOffsets (lib : Libraries) (f : LogFile) : Except LogError (List Replayed) := do
  let _ ← verify lib f
  (← ReplayIter.openReplay lib f).collect lib

/-! ## The replay is the walk -/

variable {lib : Libraries} {s t : ScanState} {raw rest : Bytes}
  {items : List (ScanState × EventEnvelope)}

/-- What is replayed of a reading. -/
def replayed (items : List (ScanState × EventEnvelope)) : List Replayed :=
  items.map fun i => (i.1.physicalTail, i.2.seq, i.2)

theorem ReplayIter.collect_eq (it : ReplayIter) :
    it.collect lib = match it.next lib with
      | .error e => .error e
      | .ok none => .ok []
      | .ok (some (r, it')) => (it'.collect lib).map (r :: ·) := by
  rw [collect]
  split <;> simp_all only

/--
**A replay over whole frames yields them**, when it ends cleanly and has come to the
retained tail by then.
-/
theorem ReplayIter.collect_frames (h : Frames lib s raw items t) (hends : Ends lib t rest none) :
    ∀ {it : ReplayIter}, it.state = s → it.input = raw ++ rest →
      (it.reachedRetainedTail = true ∨ ∃ u ∈ reached items t, it.reaches u = true) →
      it.collect lib = .ok (replayed items) := by
  induction h with
  | nil s =>
    intro it hs hin hreach
    have hreached : it.reachedRetainedTail = true := by
      rcases hreach with h | ⟨u, hu, _⟩
      · exact h
      · simp [reached, passed] at hu
    unfold Ends at hends
    rw [collect_eq, next, hs, hin, List.nil_append, hends]
    simp [hreached, replayed]
  | @cons s t v raw tail e items hfirst hrest ih =>
    intro it hs hin hreach
    have hreached : reached ((s, e) :: items) v = t :: reached items v := passed_eq_cons hrest
    rw [collect_eq, next, hs, hin, List.append_assoc, hfirst.read]
    dsimp only
    rw [ih hends rfl rfl ?_]
    · rfl
    · rw [hreached] at hreach
      rcases hreach with h | ⟨u, hu, hr⟩
      · exact .inl (by simp [h])
      · rcases List.mem_cons.mp hu with rfl | hu
        · exact .inl (by simp [hr])
        · exact .inr ⟨u, hu, hr⟩

theorem ReplayIter.reaches_tail {it : ReplayIter} (path : String) {u : ScanState}
    (h : it.retainedTail = some (tailBinding path u)) : it.reaches u = true := by
  unfold reaches
  rw [h, Option.any_some, decide_eq_true_eq]
  exact PrefixTracker.verdict_of_any (List.mem_singleton.mpr rfl) u

/-- **A plain walk to the end of the file succeeds exactly when the file is whole frames and
an end** from where the walk starts, and the retained tail is among the states passed. -/
theorem walkLocked_reading {f : LogFile} {bytes : Bytes} {walked : Walked} :
    walkLocked lib f bytes ⟨none, .physicalEof⟩ = .ok walked ↔
      ∃ authority body raw rest items t tail, bytes = fileHeader ++ body ∧
        RetentionAuthority.load lib f = .ok authority ∧
        (∀ e ∈ retainedBinding f authority, e.physicalTail ≤ bytes.length) ∧
        bytes.drop (freshState authority).physicalTail = raw ++ rest ∧
        Frames lib (freshState authority) raw items t ∧ Ends lib t rest tail ∧
        (∀ e ∈ retainedBinding f authority, ∃ u ∈ passed items t, e = tailBinding f.canonical u) ∧
        walked = ⟨⟨tailBinding f.canonical t, tail⟩, .notRequested, shown items⟩ := by
  have htracker : ∀ authority, expectedTracker lib f authority none = .ok (.new none f.canonical) := by
    intro authority
    cases authority with
    | none | some a => rfl
  constructor
  · intro h
    obtain ⟨authority, tracker, body, hbody, hload, htracker', hlen, hloop⟩ := walkLocked_ok.mp h
    obtain rfl : PrefixTracker.new none f.canonical = tracker :=
      Except.ok.inj ((htracker authority).symm.trans htracker')
    rw [walkLockedLoop_physicalEof [], map_eq_ok] at hloop
    obtain ⟨⟨walked', digest⟩, hloop, rfl⟩ := hloop
    obtain ⟨raw, rest, items, t, tail, hin, hframes, hends, _, hret, rfl⟩ :=
      walkHashedLoop_start.mp hloop
    have hretained := PrefixTracker.accepted_iff.mp (PrefixVerdict.requireRetained_ok.mp (hret rfl))
    refine ⟨authority, body, raw, rest, items, t, tail, hbody, hload, hlen, hin, hframes, hends, hretained,
      ?_⟩
    rw [PrefixTracker.observeAll_eq]
    rfl
  · rintro ⟨authority, body, raw, rest, items, t, tail, hbody, hload, hlen, hin, hframes, hends, hretained,
      rfl⟩
    refine walkLocked_ok.mpr ⟨authority, _, body, hbody, hload, htracker authority, hlen, ?_⟩
    rw [walkLockedLoop_physicalEof [], map_eq_ok]
    refine ⟨(⟨⟨tailBinding f.canonical t, tail⟩, .notRequested, shown items⟩, raw), ?_, rfl⟩
    refine walkHashedLoop_start.mpr ⟨raw, rest, items, t, tail, hin, hframes, hends, rfl, fun _ => ?_, ?_⟩
    · exact PrefixVerdict.requireRetained_ok.mpr (PrefixTracker.accepted_iff.mpr hretained)
    · rw [PrefixTracker.observeAll_eq]
      rfl

/-- **A verified log is replayed as it was walked.** -/
theorem replayWithOffsets_eq {f : LogFile} {bytes : Bytes} {walked : Walked}
    (hbytes : f.bytes = some bytes) (h : walkLocked lib f bytes ⟨none, .physicalEof⟩ = .ok walked)
    (hwhole : walked.outcome.incompleteTail = none) :
    replayWithOffsets lib f = .ok (walked.seen.map fun p => (p.1, p.2.seq, p.2)) := by
  have hcontents := LogFile.contents_ok.mpr hbytes
  have hinspect : inspectOpen lib f bytes = .ok walked.outcome := by rw [inspectOpen, h]; rfl
  have hverify : verify lib f = .ok walked.outcome.verifiedTail := by
    simp only [verify, inspect, hcontents, hinspect, ok_bind, refuseIncomplete, hwhole]
    rfl
  obtain ⟨authority, body, raw, rest, items, t, tail, hbody, hload, hlen, hin, hframes, hends, hretained,
    rfl⟩ := walkLocked_reading.mp h
  obtain rfl : tail = none := hwhole
  have hheader : verifyFileHeader f.path bytes = .ok () := verifyFileHeader_ok.mpr ⟨body, hbody⟩
  have hseen : replayed items = (shown items).map fun p => (p.1, p.2.seq, p.2) := by
    rw [shown, replayed, List.map_map]
    rfl
  simp only [replayWithOffsets, hverify, ReplayIter.openReplay, hcontents, hheader, hload,
    requireRetainedLength_ok.mpr hlen, ok_bind]
  rw [← hseen]
  refine ReplayIter.collect_frames hframes hends rfl hin ?_
  cases authority with
  | none => exact .inl rfl
  | some a =>
    obtain ⟨u, hu, htail⟩ := hretained (a.retainedTail.resolve f) rfl
    have hlt := (RetentionAuthority.validate_ok (RetentionAuthority.load_some hload)).boundary_lt
    rw [passed_eq_cons hframes] at hu
    rcases List.mem_cons.mp hu with rfl | hu
    · -- the retained tail lies behind the boundary
      have hle : a.retainedTail.physicalTail = a.boundary.offset := congrArg LogTailBinding.physicalTail htail
      omega
    · refine .inr ⟨u, hu, ReplayIter.reaches_tail f.canonical ?_⟩
      rw [← htail]
      rfl

end PredictionEdge.EventLog
