import PredictionEdge.EventLog.Recovery
import PredictionEdge.EventLog.Retained

/-!
# Bindings stay good

A binding that the writer returned for its verified tail names a place the log never
loses: the bytes before it are on stable storage, every later operation only adds behind
them, and a repair cuts behind them. So a later scan matches the binding and finds the same
events before it. In the other direction a scan matches nothing but the frame boundaries
of the file it reads.
-/

namespace PredictionEdge.EventLog

open Lib

variable {lib : Libraries} {base : Base lib} {f : LogFile} {raw rest : Bytes}
  {items : List (ScanState × EventEnvelope)} {t : ScanState}

/-! ## What a walk matches -/

/-- The verdict of any walk is that of its tracker over the states it passed. -/
theorem walkLockedLoop_verdict {path : String} {boundary : WalkBoundary} {rr : Bool} {w : WalkState}
    {walked : Walked} (h : walkLockedLoop lib path boundary rr w = .ok walked) :
    ∃ raw rest items t, w.input = raw ++ rest ∧ Frames lib w.scan raw items t ∧
      walked.verdict = (w.expected.observeAll (reached items t)).verdict t := by
  have hfinish : ∀ {w : WalkState} {tail verdict}, w.finish path rr tail verdict = .ok walked →
      walked.verdict = verdict := by
    intro w tail verdict hfin
    rw [(WalkState.finish_ok.mp hfin).2]
  fun_induction walkLockedLoop lib path boundary rr w with
  | case1 w verdict hverdict =>
    refine ⟨[], w.input, [], w.scan, rfl, .nil _, ?_⟩
    rw [hfinish h]
    split at hverdict
    · simp only [PrefixTracker.verdictBeforeRead, Option.bind_eq_some_iff] at hverdict
      obtain ⟨e, _, he⟩ := hverdict
      split at he
      · exact (Option.some.inj he).symm
      · simp at he
    · simp at hverdict
  | case2 w hnone e hread => simp at h
  | case3 w hnone e t raw rest hread ih =>
    obtain ⟨hinput, hframe⟩ := readVerifiedFrame_split hread
    obtain ⟨raw', rest', items, u, hin, hframes, hverdict⟩ := ih h
    have hin' : rest = raw' ++ rest' := hin
    have hframes' : Frames lib t raw' items u := hframes
    refine ⟨raw ++ raw', rest', (w.scan, e) :: items, u, ?_, .cons hframe hframes', ?_⟩
    · rw [hinput, hin', List.append_assoc]
    · have hafter : (w.frame e t rest).after items u rest' = w.after ((w.scan, e) :: items) u rest' :=
        WalkState.frame_after hframes'
      rw [hverdict]
      exact congrArg (fun w : WalkState => w.expected.verdict u) hafter
  | case4 w hnone hread | case5 w hnone tail hread =>
    exact ⟨[], w.input, [], w.scan, rfl, .nil _, hfinish h⟩

/-- The binding is that of a frame boundary of the file. -/
def IsBoundary (lib : Libraries) (f : LogFile) (binding : LogTailBinding) : Prop :=
  ∃ raw rest items t, f.bytes = some (fileHeader ++ raw ++ rest) ∧
    Frames lib .afterHeader raw items t ∧ binding = tailBinding f.canonical t

variable {binding : LogTailBinding} {log : Log}

/-- **A walk matches only the frame boundaries of its file.** -/
theorem walkLocked_matched (hret : f.retention = none) {bytes : Bytes} {boundary : WalkBoundary}
    {walked : Walked} (hbytes : f.bytes = some bytes)
    (h : walkLocked lib f bytes ⟨some binding, boundary⟩ = .ok walked)
    (hmatched : walked.verdict.requireMatch = .ok ()) : IsBoundary lib f binding := by
  obtain ⟨authority, tracker, rest₀, rfl, hload, htracker, -, hloop⟩ := walkLocked_ok.mp h
  rw [load_none hret] at hload
  obtain rfl := Except.ok.inj hload
  obtain rfl : PrefixTracker.new (some binding) f.canonical = tracker := Except.ok.inj htracker
  obtain ⟨raw, rest, items, t, hin, hframes, hverdict⟩ := walkLockedLoop_verdict hloop
  have hin' : rest₀ = raw ++ rest := by
    rw [← hin]
    exact (List.drop_left' fileHeader_length).symm
  have hframes' : Frames lib .afterHeader raw items t := hframes
  have hall : walked.verdict = ((PrefixTracker.new (some binding) f.canonical).observeAll
      (passed items t)).verdict t := by
    rw [hverdict, ← PrefixTracker.observe_observeAll hframes']
    rfl
  rw [PrefixVerdict.requireMatch_ok, hall, PrefixTracker.accepted_iff] at hmatched
  obtain ⟨u, hu, hbinding⟩ := hmatched binding rfl
  obtain ⟨raw₁, raw₂, items₁, items₂, rfl, _, h₁, _⟩ := hframes'.split hu
  refine ⟨raw₁, raw₂ ++ rest, items₁, u, ?_, h₁, hbinding⟩
  rw [hbytes, hin']
  simp only [List.append_assoc]

/-- A verified prefix and a walked prefix are frame boundaries of the file. -/
theorem isBoundary_of_matched (hret : f.retention = none)
    (h : (∃ tail, verifyPrefix lib f binding = .ok tail) ∨
      ∃ tail seen, walkPrefix lib f binding = .ok (some tail, seen)) :
    IsBoundary lib f binding := by
  rcases h with ⟨tail, h⟩ | ⟨tail, seen, h⟩
  · simp only [verifyPrefix, bind_eq_ok, LogFile.contents_ok] at h
    obtain ⟨bytes, hbytes, walked, hwalk, _, _, _, hmatch, _⟩ := h
    exact walkLocked_matched hret hbytes hwalk hmatch
  · simp only [walkPrefix, bind_eq_ok, pure_eq_ok, Prod.mk.injEq, LogFile.contents_ok] at h
    obtain ⟨_, _, _, _, bytes, hbytes, walked, hwalk, _, _, hsome, _⟩ := h
    refine walkLocked_matched hret hbytes hwalk ?_
    split at hsome
    · rename_i hverdict
      rw [hverdict]
      rfl
    · simp at hsome

/-! ## Where a log goes on -/

/-- Nothing is waiting in a writer's buffer, and no crash has been left unrepaired. -/
def Log.settled (log : Log) : Bool :=
  match log.writer with
  | some w => w.inner.buffer.isEmpty
  | none => !log.torn

/-- **The file of a sound log goes on behind its beginning** with whole frames, and with a
part of one more only while it is not settled. -/
theorem Log.Sound.goesOn (h : log.Sound base) :
    ∃ raw items t part, log.file.bytes = some (base.bytes ++ raw ++ part) ∧
      Appended lib base.state raw items t ∧ TornPart lib t part ∧ log.file.retention = none ∧
      log.file.canonical = base.canonical ∧ (log.settled = true → part = []) := by
  cases h with
  | @opened f w raw items t h =>
    obtain ⟨bytes, hbytes, _, hcontent, hsynced⟩ := h.content
    have hbase := h.base_synced
    have htake : (base.bytes ++ raw).take bytes.length = bytes := by
      rw [← hcontent, List.take_left]
    by_cases hbuffer : w.inner.buffer = []
    · rw [hbuffer, List.append_nil] at hcontent
      refine ⟨raw, items, t, [], ?_, h.appended, .inl rfl, h.retention, h.canonical, fun _ => rfl⟩
      rw [hbytes, hcontent, List.append_nil]
    · obtain ⟨raw', items', t', part, hcut, happ, htorn, _⟩ :=
        Appended.cut_content h.appended (n := bytes.length) (by omega)
      refine ⟨raw', items', t', part, ?_, happ, htorn, h.retention, h.canonical, ?_⟩
      · rw [hbytes, ← hcut, htake]
      · intro hs
        simp only [settled, List.isEmpty_iff] at hs
        exact absurd hs hbuffer
  | @closed f raw items t part torn written h hpart hw =>
    refine ⟨raw, items, t, part, h.bytes, h.appended, h.torn, h.retention, h.canonical, ?_⟩
    intro hs
    exact hpart (by simpa [settled] using hs)

/-- Verifying the file gives its last frame boundary, or reports the part of a frame behind it. -/
def VerifiedTo (lib : Libraries) (f : LogFile) (part : Bytes) : Prop :=
  ∃ raw items t, f.bytes = some (fileHeader ++ raw ++ part) ∧
    Frames lib .afterHeader raw items t ∧ TornPart lib t part ∧
    verify lib f = if part = [] then .ok (tailBinding f.canonical t)
      else .error (.truncated ⟨t.nextSequence⟩ t.physicalTail)

/-- **The walk to a boundary of the log** shows the frames before it and matches. -/
theorem walkLocked_boundary (hret : f.retention = none) (hframes : Frames lib .afterHeader raw items t) :
    walkLocked lib f (fileHeader ++ raw ++ rest) ⟨some (tailBinding f.canonical t), .expectedPrefix⟩ =
      .ok ⟨⟨tailBinding f.canonical t, none⟩, .matched, shown items⟩ := by
  have hdrop : (fileHeader ++ raw ++ rest).drop ScanState.afterHeader.physicalTail = raw ++ rest := by
    exact List.drop_left' fileHeader_length
  refine walkLocked_ok.mpr ⟨none, .new (some (tailBinding f.canonical t)) f.canonical, raw ++ rest,
    by rw [List.append_assoc], load_none hret, rfl, by simp [retainedBinding], ?_⟩
  rw [walkLockedLoop_below (tailBinding f.canonical t) hframes (le_refl _) rfl hdrop
    (by simp [walkStart, PrefixTracker.new])]
  rw [show freshState none = ScanState.afterHeader from rfl, walkStart_after hframes,
    walkLockedLoop_stops (PrefixTracker.observeAll_expected _ _) (le_refl _)]
  refine WalkState.finish_ok.mpr ⟨fun h => ?_, ?_⟩
  · simp [retainedBinding] at h
  · rw [PrefixTracker.verdict_of_any Framed.last_mem_passed t]

/-! ## The tail a writer binds -/

section

variable (hlib : lib.Lawful) (h : log.Sound base)

include hlib h

/-- The file of a log that is sound behind a beginning, as its frames and its end. -/
theorem Log.Sound.frames :
    ∃ raw items t part, log.file.bytes = some (fileHeader ++ (base.raw ++ raw) ++ part) ∧
      Frames lib .afterHeader (base.raw ++ raw) (base.items ++ items) t ∧
      TornPart lib t part ∧ log.file.retention = none ∧
      log.file.canonical = base.canonical ∧ base.state ∈ passed (base.items ++ items) t ∧
      (log.settled = true → part = []) := by
  obtain ⟨raw, items, t, part, hbytes, happ, htorn, hret, hcanonical, hsettled⟩ := h.goesOn
  have hframes := Appended.frames hlib happ
  refine ⟨raw, items, t, part, ?_, base.frames.append hframes, htorn, hret, hcanonical, ?_,
    hsettled⟩
  · rw [hbytes, Base.bytes, List.append_assoc fileHeader]
  · exact Framed.mem_passed_append_right hframes.first_mem_passed

/-- Behind a beginning on stable storage the log is walked to it, and shows its events. -/
theorem Log.Sound.walkPrefix :
    EventLog.walkPrefix lib log.file (tailBinding base.canonical base.state) =
      .ok (some (tailBinding base.canonical base.state), shown base.items) := by
  obtain ⟨raw, items, t, part, hbytes, _, _, hret, hcanonical, _⟩ := h.frames hlib
  have hwalk : walkLocked lib log.file (fileHeader ++ base.raw ++ (raw ++ part))
      ⟨some (tailBinding log.file.canonical base.state), .expectedPrefix⟩ = _ :=
    walkLocked_boundary hret base.frames
  rw [hcanonical] at hwalk
  have hcontents : log.file.contents = .ok (fileHeader ++ base.raw ++ (raw ++ part)) := by
    rw [LogFile.contents_ok, hbytes]
    simp only [List.append_assoc]
  simp only [EventLog.walkPrefix, load_none hret, hcontents, hwalk, ok_bind, refuseRetired,
    refuseIncomplete, if_true]
  rfl

/-- **Verifying a beginning on stable storage is verifying the file.** -/
theorem Log.Sound.verifyPrefix :
    EventLog.verifyPrefix lib log.file (tailBinding base.canonical base.state) =
      EventLog.verify lib log.file := by
  obtain ⟨raw, items, t, part, hbytes, hframes, htorn, hret, hcanonical, hmem, _⟩ := h.frames hlib
  have hends := htorn.ends hlib
  have hcontents := LogFile.contents_ok.mpr hbytes
  have hwalk := walkLocked_plain hret hframes hends (some (tailBinding base.canonical base.state))
  rw [hcanonical, PrefixTracker.verdict_of_any hmem t] at hwalk
  have hinspect := inspectOpen_plain hret hframes hends
  rw [hcanonical] at hinspect
  simp only [EventLog.verifyPrefix, EventLog.verify, EventLog.inspect, hcontents, hwalk, hinspect,
    ok_bind, PrefixVerdict.requireMatch]

/-- **A log is verified through its last whole frame**, and a settled one has no other. -/
theorem Log.Sound.verified :
    ∃ part, VerifiedTo lib log.file part ∧ (log.settled = true → part = []) := by
  obtain ⟨raw, items, t, part, hbytes, hframes, htorn, hret, _, _, hpart⟩ := h.frames hlib
  have hcontents := LogFile.contents_ok.mpr hbytes
  have hinspect := inspectOpen_plain hret hframes (htorn.ends hlib)
  refine ⟨part, ⟨_, _, t, hbytes, hframes, htorn, ?_⟩, hpart⟩
  simp only [verify, inspect, hcontents, hinspect, ok_bind, tornTail]
  split <;> rfl

end

/-- Once its frames are on stable storage they are the beginning of an open log. -/
theorem Opened.rebase (hlib : lib.Lawful) (h : Opened base f w raw items t)
    (hsynced : (base.bytes ++ raw).length ≤ f.synced) :
    Opened (base.extend hlib h.appended) f w [] [] t where
  appended := .nil _
  canonical := h.canonical
  retention := h.retention
  locked := h.locked
  content := by
    rw [List.append_nil, Base.bytes, Base.extend, ← List.append_assoc]
    exact h.content
  base_synced := by
    exact hsynced
  healthy := h.healthy

/-- A log whose writer bound its tail is sound behind that tail. -/
theorem Opened.bound (hlib : lib.Lawful) (h : Opened base f w raw items t)
    (hb : (w.verifiedTail f).1 = .ok binding) (written : List EventEnvelope)
    (hw : written = base.events ++ items.map Prod.snd) :
    ∃ bound : Base lib, binding = tailBinding bound.canonical bound.state ∧ bound.events = written ∧
      (Log.step lib ⟨f, some w, false, written⟩ .verifiedTail).Sound bound := by
  obtain ⟨hbinding, hstate⟩ := h.verifiedTail_ok hb
  have hevents : (base.extend hlib h.appended).events = written := by
    rw [hw, Base.events, Base.extend, List.map_append]
    rfl
  refine ⟨base.extend hlib h.appended, ?_, hevents, ?_⟩
  · rw [hbinding, h.canonical]
    rfl
  · have hopened : Opened (base.extend hlib h.appended) (w.verifiedTail f).2.1 (w.verifiedTail f).2.2
        [] [] t := by
      rw [hstate]
      exact h.synced.rebase hlib (le_refl _)
    have hsound := Log.Sound.opened hopened
    rw [List.map_nil, List.append_nil, hevents] at hsound
    exact hsound

/--
**A bound tail stays good.**

A log is created, and after any run the writer binds its verified tail. However the log
goes on from there, through appends, closings, openings, crashes and repairs:

* the walk to the binding matches it and shows the events written before it;
* verifying the binding gives what verifying the whole file gives: the end of its last
  frame when the file ends there, and a report of the incomplete frame otherwise;
* the file does end there when nothing waits in a buffer and no crash is unrepaired;
* no binding is matched that is not a frame boundary of the file.
-/
theorem verifiedTail_stable (hlib : lib.Lawful) {f₀ f₁ : LogFile} {w₀ w : Writer}
    {before : List Op} {log : Log} {binding : LogTailBinding} (hempty : f₀.bytes.getD [] = [])
    (hopen : openWriter lib f₀ = (.ok w₀, f₁))
    (hrun : Log.run lib ⟨f₁, some w₀, false, []⟩ before = log) (hw : log.writer = some w)
    (hb : (w.verifiedTail log.file).1 = .ok binding) (later : List Op) {after : Log}
    (hafter : (log.step lib .verifiedTail).run lib later = after) :
    (∃ seen, walkPrefix lib after.file binding = .ok (some binding, seen) ∧
      seen.map Prod.snd = log.written) ∧
    verifyPrefix lib after.file binding = verify lib after.file ∧
    (∃ part, VerifiedTo lib after.file part ∧ (after.settled = true → part = [])) ∧
    ∀ other, (∃ tail, verifyPrefix lib after.file other = .ok tail) ∨
      (∃ tail seen, walkPrefix lib after.file other = .ok (some tail, seen)) →
      IsBoundary lib after.file other := by
  obtain ⟨hret, rfl, rfl⟩ := openWriter_empty hempty hopen
  have hsound : log.Sound (Base.header lib f₀.canonical) := by
    rw [← hrun]
    exact run_sound hlib before (created_sound hret)
  cases hsound with
  | closed h hpart hwritten => simp at hw
  | opened h =>
    obtain rfl := Option.some.inj hw
    obtain ⟨bound, rfl, hevents, hstep⟩ := h.bound hlib hb _ rfl
    have hlater : after.Sound bound := by
      rw [← hafter]
      exact run_sound hlib later hstep
    refine ⟨⟨shown bound.items, hlater.walkPrefix hlib, ?_⟩, hlater.verifyPrefix hlib,
      hlater.verified hlib, ?_⟩
    · rw [← hevents, shown, List.map_map]
      rfl
    · intro other hmatch
      obtain ⟨_, _, _, _, _, _, _, hret', _⟩ := hlater.frames hlib
      exact isBoundary_of_matched hret' hmatch

/-- One event is bound; a second one is torn by a crash, and the log is opened again. -/
theorem boundEvent_stable :
    ∃ log w binding after, Log.run StandIn.libraries (Log.created (.missing "log"))
        [.append (StandIn.event 1)] = log ∧ log.writer = some w ∧
      (w.verifiedTail log.file).1 = .ok binding ∧
      (log.step StandIn.libraries .verifiedTail).run StandIn.libraries
        [.append (StandIn.event 2), .flush, .crash 400, .reopen] = after ∧
      verifyPrefix StandIn.libraries after.file binding = verify StandIn.libraries after.file ∧
      VerifiedTo StandIn.libraries after.file [] ∧
      ∃ seen, walkPrefix StandIn.libraries after.file binding = .ok (some binding, seen) ∧
        seen.length = 1 := by
  have hopen : openWriter StandIn.libraries (.missing "log") =
      (.ok (createLog (.missing "log")).1, (createLog (.missing "log")).2) := rfl
  obtain ⟨w, hw, hok⟩ := (Option.any_eq_true _ _).mp (show (Log.run StandIn.libraries
    (Log.created (.missing "log")) [.append (StandIn.event 1)]).writer.any (fun w =>
      (w.verifiedTail (Log.run StandIn.libraries (Log.created (.missing "log"))
        [.append (StandIn.event 1)]).file).1.toOption.any fun _ => true) = true by decide +kernel)
  obtain ⟨binding, hb, _⟩ := exists_ok_of_any hok
  obtain ⟨⟨seen, hwalk, hseen⟩, hverify, ⟨part, hto, hsettled⟩, _⟩ :=
    verifiedTail_stable StandIn.libraries_lawful rfl hopen rfl hw hb
      [.append (StandIn.event 2), .flush, .crash 400, .reopen] rfl
  obtain rfl := hsettled (by decide +kernel)
  refine ⟨_, w, binding, _, rfl, hw, hb, rfl, hverify, hto, seen, hwalk, ?_⟩
  rw [← List.length_map, hseen]
  decide +kernel

/-! ## What a binding commits to -/

/-- What a walk to a matched binding shows are the frames before it. -/
theorem walkPrefix_matched (hret : f.retention = none) {tail : LogTailBinding}
    {seen : List (Nat × EventEnvelope)} (h : walkPrefix lib f binding = .ok (some tail, seen)) :
    ∃ raw items t, Frames lib .afterHeader raw items t ∧ binding = tailBinding f.canonical t ∧
      seen.map Prod.snd = items.map Prod.snd := by
  obtain ⟨raw, rest, items, t, hbytes, hframes, rfl⟩ := isBoundary_of_matched hret (.inr ⟨_, _, h⟩)
  simp only [walkPrefix, load_none hret, LogFile.contents_ok.mpr hbytes,
    walkLocked_boundary hret hframes, ok_bind, refuseRetired, refuseIncomplete, if_true,
    pure_eq_ok, Prod.mk.injEq] at h
  refine ⟨raw, items, t, hframes, rfl, ?_⟩
  rw [← h.2, shown, List.map_map]
  rfl

/--
**A binding commits to the events before it.**

Any two files that a walk to a binding accepts show the same events before it, as long as
no two of these collide under the hash: nobody can change what was bound unnoticed.
-/
theorem walkPrefix_commits (hlib : lib.Canonical) {g : LogFile} {tail tail' : LogTailBinding}
    {seen seen' : List (Nat × EventEnvelope)} (hf : f.retention = none) (hg : g.retention = none)
    (h : walkPrefix lib f binding = .ok (some tail, seen))
    (h' : walkPrefix lib g binding = .ok (some tail', seen'))
    (hno : NoCollision lib ((seen ++ seen').map Prod.snd)) : seen.map Prod.snd = seen'.map Prod.snd := by
  obtain ⟨_, items, t, hframes, hat, hseen⟩ := walkPrefix_matched hf h
  obtain ⟨_, items', t', hframes', hat', hseen'⟩ := walkPrefix_matched hg h'
  obtain rfl := tailBinding_inj (hat.symm.trans hat')
  rw [List.map_append, hseen, hseen', ← List.map_append] at hno
  rw [hseen, hseen']
  exact Frames.events_eq hlib rfl hframes hframes' hno rfl rfl rfl

/-- The end of one event's log is also a place in the log of two. -/
theorem twoEvents_commits :
    ∃ f binding tail tail' seen seen', walkPrefix StandIn.libraries f binding = .ok (some tail, seen) ∧
      walkPrefix StandIn.libraries twoEvents binding = .ok (some tail', seen') ∧
      seen.map Prod.snd = seen'.map Prod.snd := by
  let f := ((Log.created (.missing "log")).run StandIn.libraries [.append (StandIn.event 1), .close]).file
  have hok : (verify StandIn.libraries f).toOption.any (fun b =>
      (walkPrefix StandIn.libraries f b).toOption.any fun r =>
        (walkPrefix StandIn.libraries twoEvents b).toOption.any fun r' => r.1.isSome && (r'.1.isSome &&
          decide (NoCollision StandIn.libraries ((r.2 ++ r'.2).map Prod.snd)))) = true := by
    decide +kernel
  obtain ⟨binding, _, hok⟩ := exists_ok_of_any hok
  obtain ⟨⟨_, seen⟩, hwalk, hok⟩ := exists_ok_of_any hok
  obtain ⟨⟨_, seen'⟩, hwalk', hok⟩ := exists_ok_of_any hok
  simp only [Bool.and_eq_true, Option.isSome_iff_exists, decide_eq_true_eq] at hok
  obtain ⟨⟨tail, rfl⟩, ⟨tail', rfl⟩, hno⟩ := hok
  exact ⟨f, binding, tail, tail', seen, seen', hwalk, hwalk', walkPrefix_commits
    StandIn.libraries_canonical (by decide +kernel) (by decide +kernel) hwalk hwalk' hno⟩

/-- An event whose frame is larger than the writer's buffer. -/
def largeEvent : EnvelopeIn := { StandIn.event 1 with payload := List.replicate 2100 1 }

set_option maxRecDepth 1000000 in
/-- Its body is in the file while its checksum waits in the buffer: the file is not verified
through its end, and a binding of its beginning is not either. -/
theorem verifyPrefix_truncated :
    ∃ binding, ((createLog (.missing "log")).1.verifiedTail (createLog (.missing "log")).2).1 =
        .ok binding ∧
      verifyPrefix StandIn.libraries ((Log.created (.missing "log")).run StandIn.libraries
        [.verifiedTail, .append largeEvent]).file binding = .error (.truncated ⟨0⟩ 5) :=
  ⟨⟨"log", 5, none, Hash.genesis⟩, by decide +kernel, by decide +kernel⟩

end PredictionEdge.EventLog
