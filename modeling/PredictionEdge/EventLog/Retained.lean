import PredictionEdge.EventLog.Agreement
import PredictionEdge.EventLog.Commitment

/-!
# Retired bytes

A retention authority lets the bytes before its boundary go, except for the header and the
frames it pins. What is left is walked from the boundary on, and the walk is that of the
whole log from there. The authority also holds the log to a tail: a file that does not come
to that tail is refused, and one that does has the events of the log between the boundary
and the tail, by what the chain hash commits to.
-/

namespace PredictionEdge.EventLog

open Lib

variable {lib : Libraries} {f g : LogFile} {bytes bytes' : Bytes} {a : RetentionAuthority}

/-- The authority is one for the log: it is consistent, its boundary and its retained tail
are places the full walk passes, and its pins are frames of the log. -/
structure RetentionAuthority.ValidFor (lib : Libraries) (f : LogFile) (bytes : Bytes)
    (a : RetentionAuthority) : Prop where
  valid : a.validate = .ok ()
  pins : a.verifyPins lib f = .ok ()
  boundary : Passes lib f bytes none (freshState (some a))
  retained : ∃ r, Passes lib f bytes none r ∧ a.retainedTail.resolve f = tailBinding f.canonical r

/-- The byte at an offset is kept: it is in the header, behind the boundary or in a pinned frame. -/
def RetentionAuthority.Keeps (lib : Libraries) (f : LogFile) (a : RetentionAuthority) (i : Nat) : Prop :=
  i < headerLen ∨ a.boundary.offset ≤ i ∨
    ∃ pin ∈ a.pins, ∃ e stop, a.verifyPin lib f pin = .ok (e, stop) ∧ pin.offset ≤ i ∧ i < stop

/-- The other bytes were replaced by any bytes. -/
structure Punched (lib : Libraries) (f : LogFile) (a : RetentionAuthority) (bytes bytes' : Bytes) :
    Prop where
  length_eq : bytes'.length = bytes.length
  kept : ∀ i, a.Keeps lib f i → bytes'[i]? = bytes[i]?

namespace Punched

/-- What is behind the boundary is left as it is. -/
theorem drop_eq (h : Punched lib f a bytes bytes') :
    bytes'.drop a.boundary.offset = bytes.drop a.boundary.offset := by
  refine List.ext_getElem? fun i => ?_
  rw [List.getElem?_drop, List.getElem?_drop]
  exact h.kept _ (.inr (.inl (by omega)))

theorem header {body : Bytes} (h : Punched lib f a (fileHeader ++ body) bytes') :
    ∃ body', bytes' = fileHeader ++ body' := by
  refine ⟨bytes'.drop headerLen, ?_⟩
  have htake : bytes'.take headerLen = fileHeader := by
    refine List.ext_getElem? fun i => ?_
    by_cases hi : i < headerLen
    · rw [List.getElem?_take_of_lt hi, h.kept i (.inl hi), List.getElem?_append_left]
      exact hi
    · rw [List.getElem?_take_eq_none (not_lt.mp hi), List.getElem?_eq_none (not_lt.mp hi)]
  rw [← htake]
  exact (List.take_append_drop headerLen bytes').symm

/-- A pinned frame is read from the file as it is read from the log. -/
theorem verifyPin {pin : RetentionPin} {e : EventEnvelope} {stop : Nat}
    (h : Punched lib f a bytes bytes') (hf : f.bytes = some bytes) (hg : g.bytes = some bytes')
    (hpin : pin ∈ a.pins) (hv : a.verifyPin lib f pin = .ok (e, stop)) :
    a.verifyPin lib g pin = .ok (e, stop) := by
  obtain ⟨hread, hhash, hstop⟩ := RetentionAuthority.verifyPin_ok.mp hv
  obtain ⟨rest, after, raw, more, hbytes, hframe, hafter⟩ := readAt_ok.mp hread
  obtain rfl : bytes = fileHeader ++ rest := by
    rw [hf] at hbytes
    exact Option.some.inj hbytes
  obtain ⟨hdrop, hverified⟩ := readVerifiedFrame_split hframe
  have hend : stop = pin.offset + raw.length := by
    rw [← hafter, hverified.after]
    rfl
  obtain ⟨body', hbody'⟩ := h.header
  have htake : (bytes'.drop pin.offset).take raw.length = raw := by
    refine List.ext_getElem? fun i => ?_
    by_cases hi : i < raw.length
    · have hkept := h.kept (pin.offset + i) (.inr (.inr ⟨pin, hpin, e, stop, hv, by omega, by omega⟩))
      rw [List.getElem?_take_of_lt hi, List.getElem?_drop, hkept, ← List.getElem?_drop, hdrop,
        List.getElem?_append_left hi]
    · rw [List.getElem?_take_eq_none (not_lt.mp hi), List.getElem?_eq_none (not_lt.mp hi)]
  have hinput : (fileHeader ++ body').drop pin.offset =
      raw ++ (bytes'.drop pin.offset).drop raw.length := by
    rw [← hbody']
    nth_rewrite 1 [← List.take_append_drop raw.length (bytes'.drop pin.offset)]
    rw [htake]
  refine RetentionAuthority.verifyPin_ok.mpr ⟨readAt_ok.mpr ⟨body', after, raw,
    (bytes'.drop pin.offset).drop raw.length, ?_, ?_, hafter⟩, hhash, hstop⟩
  · rw [hg, hbody']
  · rw [hinput]
    exact hverified.read _

theorem verifyPins (h : Punched lib f a bytes bytes') (hf : f.bytes = some bytes)
    (hg : g.bytes = some bytes') (hv : a.verifyPins lib f = .ok ()) : a.verifyPins lib g = .ok () := by
  rw [RetentionAuthority.verifyPins_ok] at hv ⊢
  intro pin hpin
  obtain ⟨⟨e, stop⟩, hpinned⟩ := hv pin hpin
  exact ⟨(e, stop), h.verifyPin hf hg hpin hpinned⟩

end Punched

/-! ## The suffix of the log -/

/-- The places a full walk of a log without an authority passes are places of its reading. -/
theorem passed_of_passes {raw rest : Bytes} {items : List (ScanState × EventEnvelope)} {t u : ScanState}
    {tail : Option IncompleteTail} (hret : f.retention = none)
    (hin : bytes.drop ScanState.afterHeader.physicalTail = raw ++ rest)
    (hframes : Frames lib .afterHeader raw items t) (hends : Ends lib t rest tail)
    (hpasses : Passes lib f bytes none u) :
    ∃ raw₁ raw₂ items₁ items₂, raw = raw₁ ++ raw₂ ∧ items = items₁ ++ items₂ ∧
      Frames lib .afterHeader raw₁ items₁ u ∧ Frames lib u raw₂ items₂ t := by
  obtain ⟨authority, raw₁, rest₁, items₁, hload, hin₁, hframes₁⟩ := hpasses
  rw [load_none hret] at hload
  obtain rfl := Except.ok.inj hload
  obtain ⟨raw₂, items₂, hraw, hitems, hframes₂, _⟩ := hends.goes_on hframes hframes₁ (hin.symm.trans hin₁)
  exact ⟨raw₁, raw₂, items₁, items₂, hraw, hitems, hframes₁, hframes₂⟩

/--
A log under an authority, from its header to its end: the frames up to the boundary, those
from there to the retained tail, and those behind it.
-/
structure Layout (lib : Libraries) (f : LogFile) (a : RetentionAuthority) (bytes : Bytes) (full : Walked)
    (before kept : List (ScanState × EventEnvelope)) (r : ScanState)
    (behind : List (ScanState × EventEnvelope)) (t : ScanState) (tail : Option IncompleteTail) : Prop where
  retained_eq : a.retainedTail.resolve f = tailBinding f.canonical r
  frames_before : ∃ raw, Frames lib .afterHeader raw before (freshState (some a))
  suffix : ∃ raw₁ raw₂ rest, bytes.drop a.boundary.offset = raw₁ ++ raw₂ ++ rest ∧
    Frames lib (freshState (some a)) raw₁ kept r ∧ Frames lib r raw₂ behind t ∧ Ends lib t rest tail
  full_eq : full = ⟨⟨tailBinding f.canonical t, tail⟩, .notRequested, shown (before ++ (kept ++ behind))⟩
  length_le : a.retainedTail.physicalTail ≤ bytes.length

/-- **A log that the full walk accepts is laid out around every authority for it.** -/
theorem RetentionAuthority.ValidFor.layout {full : Walked} (h : a.ValidFor lib f bytes)
    (hret : f.retention = none) (hfull : walkLocked lib f bytes ⟨none, .physicalEof⟩ = .ok full) :
    ∃ before kept r behind t tail, Layout lib f a bytes full before kept r behind t tail := by
  obtain ⟨authority, body, raw, rest, items, t, tail, hbody, hload, _, hin, hframes, hends, _, hwalked⟩ :=
    walkLocked_reading.mp hfull
  rw [load_none hret] at hload
  obtain rfl := Except.ok.inj hload
  have hin' : bytes.drop ScanState.afterHeader.physicalTail = raw ++ rest := hin
  have hframes' : Frames lib .afterHeader raw items t := hframes
  obtain ⟨raw₀, raw', before, items', rfl, rfl, hbefore, hafter⟩ :=
    passed_of_passes hret hin' hframes' hends h.boundary
  obtain ⟨r, hpasses, hretained⟩ := h.retained
  obtain ⟨raw₁, _, items₁, _, _, heq, hr, hr'⟩ := passed_of_passes hret hin' hframes' hends hpasses
  have hlt := (validate_ok h.valid).boundary_lt
  have htail : r.physicalTail = a.retainedTail.physicalTail :=
    (congrArg LogTailBinding.physicalTail hretained).symm
  have hmem : r ∈ passed (before ++ items') t := by
    rw [heq]
    exact Framed.mem_passed_append_right hr'.first_mem_passed
  have hle : (freshState (some a)).physicalTail ≤ r.physicalTail := by
    show a.boundary.offset ≤ r.physicalTail
    omega
  obtain ⟨kept, behind, items₂, items₃, rfl, rfl, hkept, hbehind⟩ :=
    hafter.split (hbefore.mem_passed_right hmem hle)
  have hoff : a.boundary.offset = headerLen + raw₀.length := Frames.physicalTail_eq hbefore
  have hdrop : bytes.drop a.boundary.offset = kept ++ behind ++ rest := by
    rw [hoff, ← List.drop_drop, show bytes.drop headerLen = _ from hin', List.append_assoc,
      List.drop_left]
  refine ⟨before, items₂, r, items₃, t, tail, hretained, ⟨raw₀, hbefore⟩, ⟨kept, behind, rest, hdrop, hkept,
    hbehind, hends⟩, hwalked, ?_⟩
  have hr_tail := Frames.physicalTail_eq hkept
  have hlen := congrArg List.length hdrop
  rw [List.length_drop, List.length_append, List.length_append] at hlen
  have hstart : (freshState (some a)).physicalTail = a.boundary.offset := rfl
  omega

namespace Layout

variable {full : Walked} {before kept behind : List (ScanState × EventEnvelope)} {r t : ScanState}
  {tail : Option IncompleteTail} (h : Layout lib f a bytes full before kept r behind t tail)

include h

theorem resolve_eq (hcanonical : g.canonical = f.canonical) :
    a.retainedTail.resolve g = tailBinding g.canonical r := by
  have := h.retained_eq
  rw [TailBinding.resolve, ← hcanonical] at this
  exact this

/-- What the full walk shows from the boundary on. -/
theorem seen_suffix :
    full.seen.filter (fun p => a.boundary.offset ≤ p.1) = shown (kept ++ behind) := by
  obtain ⟨raw, hbefore⟩ := h.frames_before
  obtain ⟨raw₁, raw₂, rest, _, hkept, hbehind, _⟩ := h.suffix
  rw [h.full_eq]
  exact Frames.shown_filter hbefore (hkept.append hbehind)

/-- **The walk of a file that goes on like the log from the boundary on.** -/
theorem walkLocked_suffix (hcanonical : g.canonical = f.canonical) (hload : RetentionAuthority.load lib g = .ok (some a))
    {body' : Bytes} (hheader : bytes' = fileHeader ++ body') (hlength : bytes'.length = bytes.length)
    (hdrop : bytes'.drop a.boundary.offset = bytes.drop a.boundary.offset) :
    walkLocked lib g bytes' ⟨none, .physicalEof⟩ =
      .ok ⟨full.outcome, .notRequested, full.seen.filter fun p => a.boundary.offset ≤ p.1⟩ := by
  obtain ⟨raw₁, raw₂, rest, hsuffix, hkept, hbehind, hends⟩ := h.suffix
  have hresolve := h.resolve_eq hcanonical
  refine walkLocked_reading.mpr ⟨some a, body', raw₁ ++ raw₂, rest, kept ++ behind, t, tail, hheader, hload,
    ?_, ?_, hkept.append hbehind, hends, ?_, ?_⟩
  · rintro e ⟨⟩
    rw [hlength]
    exact h.length_le
  · show bytes'.drop a.boundary.offset = _
    rw [hdrop, hsuffix]
  · rintro e ⟨⟩
    exact ⟨r, Framed.mem_passed_append_right hbehind.first_mem_passed, hresolve⟩
  · rw [h.seen_suffix, h.full_eq, hcanonical]

theorem retained_tail :
    a.retainedTail.physicalTail = r.physicalTail :=
  congrArg LogTailBinding.physicalTail h.retained_eq

/-- What the full walk shows between the boundary and the retained tail. -/
theorem seen_kept :
    (full.seen.filter fun p => a.boundary.offset ≤ p.1).filter
      (fun p => p.1 < a.retainedTail.physicalTail) = shown kept := by
  obtain ⟨raw₁, raw₂, rest, _, hkept, hbehind, _⟩ := h.suffix
  rw [h.seen_suffix, h.retained_tail]
  exact Frames.shown_filter_lt hkept hbehind

/--
**A file that is accepted under the authority has the events of the log** between the
boundary and the retained tail, when no two of the events read collide.
-/
theorem events_kept (hlib : lib.Canonical) (hcanonical : g.canonical = f.canonical)
    (hload : RetentionAuthority.load lib g = .ok (some a)) {walked : Walked}
    (hwalk : walkLocked lib g bytes' ⟨none, .physicalEof⟩ = .ok walked)
    (hno : NoCollision lib ((full.seen ++ walked.seen).map Prod.snd)) :
    (walked.seen.filter fun p => p.1 < a.retainedTail.physicalTail).map Prod.snd =
      ((full.seen.filter fun p => a.boundary.offset ≤ p.1).filter
        fun p => p.1 < a.retainedTail.physicalTail).map Prod.snd := by
  obtain ⟨authority, _, raw', rest', items', t', tail', _, hload', _, _, hframes', _, hretained', rfl⟩ :=
    walkLocked_reading.mp hwalk
  obtain rfl : some a = authority := Except.ok.inj (hload.symm.trans hload')
  obtain ⟨u, hu, htail⟩ := hretained' (a.retainedTail.resolve g) rfl
  -- the retained tail of the file is the state the log passes there
  obtain rfl : r = u := tailBinding_inj ((h.resolve_eq hcanonical).symm.trans htail)
  obtain ⟨raw₁', raw₂', kept', behind', _, rfl, hkept', hbehind'⟩ := hframes'.split hu
  obtain ⟨raw₁, _, _, _, hkept, _, _⟩ := h.suffix
  have hsnd : ∀ items : List (ScanState × EventEnvelope),
      (shown items).map Prod.snd = items.map Prod.snd := by
    intro items
    rw [shown, List.map_map]
    rfl
  rw [h.seen_kept, h.retained_tail, Frames.shown_filter_lt hkept' hbehind', hsnd, hsnd]
  refine (Frames.events_eq hlib rfl hkept hkept' (hno.mono fun e he => ?_) rfl rfl rfl).symm
  rw [h.full_eq, List.map_append, hsnd, hsnd]
  simp only [List.map_append, List.mem_append] at he ⊢
  rcases he with he | he
  · exact .inl (.inr (.inl he))
  · exact .inr (.inl he)

end Layout

/-- A file that is shorter than the retained tail is refused by every walk. -/
theorem walkLocked_short (hload : RetentionAuthority.load lib g = .ok (some a))
    (hshort : bytes'.length < a.retainedTail.physicalTail) (request : WalkRequest) :
    ∃ e, walkLocked lib g bytes' request = .error e := by
  cases hwalk : walkLocked lib g bytes' request with
  | error e => exact ⟨e, rfl⟩
  | ok walked =>
    obtain ⟨authority, _, _, _, hload', _, hlen, _⟩ := walkLocked_ok.mp hwalk
    obtain rfl : some a = authority := Except.ok.inj (hload.symm.trans hload')
    have hle : a.retainedTail.physicalTail ≤ bytes'.length := hlen (a.retainedTail.resolve g) rfl
    omega

/-- A file that the walk refuses is not replayed. -/
theorem replayWithOffsets_refused {e : LogError} (hbytes : g.bytes = some bytes')
    (h : walkLocked lib g bytes' ⟨none, .physicalEof⟩ = .error e) :
    replayWithOffsets lib g = .error e := by
  have hcontents := LogFile.contents_ok.mpr hbytes
  have hinspect : inspectOpen lib g bytes' = .error e := by rw [inspectOpen, h]; rfl
  simp only [replayWithOffsets, verify, inspect, hcontents, hinspect, ok_bind]
  rfl

/--
**Retiring bytes does not show behind the boundary, and what lies there cannot be replaced.**

Take a log that the full walk accepts and an authority that is valid for it, and any file
under that authority.

* If the file is the log with its unpinned bytes between the header and the boundary replaced
  by any bytes, its walk shows the frames of the full walk from the boundary on and ends with
  the same verified tail and the same report of an incomplete one; the pins still verify, and
  a replay yields those frames when the log ends in a whole one.
* If the file is shorter than the retained tail, every walk of it is refused.
* If the walk of the file succeeds, the file has the events of the log between the boundary
  and the retained tail, unless two of the events that were read collide.

A file whose walk is refused is not replayed either.
-/
theorem retention_transparent (hlib : lib.Canonical) {full : Walked} (hret : f.retention = none)
    (hf : f.bytes = some bytes) (hfull : walkLocked lib f bytes ⟨none, .physicalEof⟩ = .ok full)
    (hvalid : a.ValidFor lib f bytes) (hcanonical : g.canonical = f.canonical)
    (hload : RetentionAuthority.load lib g = .ok (some a)) (hg : g.bytes = some bytes') :
    (Punched lib f a bytes bytes' →
      walkLocked lib g bytes' ⟨none, .physicalEof⟩ =
        .ok ⟨full.outcome, .notRequested, full.seen.filter fun p => a.boundary.offset ≤ p.1⟩ ∧
      a.verifyPins lib g = .ok () ∧
      (full.outcome.incompleteTail = none → replayWithOffsets lib g =
        .ok ((full.seen.filter fun p => a.boundary.offset ≤ p.1).map fun p => (p.1, p.2.seq, p.2)))) ∧
    (bytes'.length < a.retainedTail.physicalTail →
      ∀ request, ∃ e, walkLocked lib g bytes' request = .error e) ∧
    (∀ walked, walkLocked lib g bytes' ⟨none, .physicalEof⟩ = .ok walked →
      NoCollision lib ((full.seen ++ walked.seen).map Prod.snd) →
      (walked.seen.filter fun p => p.1 < a.retainedTail.physicalTail).map Prod.snd =
        ((full.seen.filter fun p => a.boundary.offset ≤ p.1).filter
          fun p => p.1 < a.retainedTail.physicalTail).map Prod.snd) ∧
    ∀ e, walkLocked lib g bytes' ⟨none, .physicalEof⟩ = .error e → replayWithOffsets lib g = .error e := by
  obtain ⟨before, kept, r, behind, t, tail, hlayout⟩ := hvalid.layout hret hfull
  refine ⟨fun hpunched => ?_, walkLocked_short hload, fun walked hwalk hno => ?_, fun e he => ?_⟩
  · obtain ⟨authority, tracker, body, rfl, _⟩ := walkLocked_ok.mp hfull
    obtain ⟨body', hbody'⟩ := hpunched.header
    have hwalk := hlayout.walkLocked_suffix hcanonical hload hbody' hpunched.length_eq hpunched.drop_eq
    exact ⟨hwalk, hpunched.verifyPins hf hg hvalid.pins, fun hwhole => replayWithOffsets_eq hg hwalk hwhole⟩
  · exact hlayout.events_kept hlib hcanonical hload hwalk hno
  · exact replayWithOffsets_refused hg he

/-! ## Logs with retired frames -/

/-- An authority that retires what is before a frame of the log is one for the log. -/
theorem retiredBefore_validFor {full : Walked} {frame : Nat × EventEnvelope} {pins : List RetentionPin}
    (hret : f.retention = none) (hfull : walkLocked lib f bytes ⟨none, .physicalEof⟩ = .ok full)
    (hframe : frame ∈ full.seen)
    (hvalid : (retiredBefore frame pins full.outcome.verifiedTail).validate = .ok ())
    (hpins : (retiredBefore frame pins full.outcome.verifiedTail).verifyPins lib f = .ok ()) :
    (retiredBefore frame pins full.outcome.verifiedTail).ValidFor lib f bytes := by
  obtain ⟨authority, body, raw, rest, items, t, tail, _, hload, _, hin, hframes, _, _, rfl⟩ :=
    walkLocked_reading.mp hfull
  obtain rfl : none = authority := Except.ok.inj ((load_none hret).symm.trans hload)
  obtain ⟨⟨u, e⟩, hmem, rfl⟩ := List.mem_map.mp hframe
  obtain ⟨_, _, _, _, _, _, hat⟩ := hframes.frame_at hmem
  obtain ⟨hseq, hhash, _⟩ := hat.linked
  have hfresh : freshState (some (retiredBefore (u.physicalTail, e) pins
      (tailBinding f.canonical t))) = u := by
    show ScanState.mk e.seq.val e.prevHash u.physicalTail = u
    rw [hseq, hhash]
  refine ⟨hvalid, hpins, ?_, t, ⟨none, raw, rest, items, hload, hin, hframes⟩, rfl⟩
  rw [hfresh]
  obtain ⟨raw₁, raw₂, items₁, _, rfl, -, hbefore, -⟩ :=
    hframes.split (List.mem_append_left _ (List.mem_map_of_mem hmem))
  exact ⟨none, raw₁, raw₂ ++ rest, items₁, hload, by rw [bounded, hin, List.append_assoc], hbefore⟩

section

variable (f : LogFile) (a : RetentionAuthority) (bytes : Bytes)

/-- The file with other bytes, under an authority. -/
def LogFile.retain : LogFile :=
  { f with bytes := some bytes, retention := some (.ok ⟨a, StandIn.digest (StandIn.authority a)⟩) }

theorem LogFile.retain_canonical : (f.retain a bytes).canonical = f.canonical := rfl

theorem LogFile.retain_bytes : (f.retain a bytes).bytes = some bytes := rfl

theorem LogFile.retain_path : (f.retain a bytes).path = f.path := rfl

end

theorem load_retain (h : a.validate = .ok ()) :
    RetentionAuthority.load StandIn.libraries (f.retain a bytes) = .ok (some a) := by
  have hsum : ¬ StandIn.libraries.blake3 (StandIn.authority a) ≠ StandIn.digest (StandIn.authority a) :=
    not_not.mpr rfl
  simp only [RetentionAuthority.load, LogFile.retain, bind_eq_ok, mapError_eq_ok,
    refuseIf_eq_ok]
  exact ⟨_, rfl, StandIn.authority a, rfl, (), hsum, (), h, rfl⟩

theorem StandIn.libraries_canonical : StandIn.libraries.Canonical := by
  intro c c' j j' p p' hc hc' heq
  simp only [StandIn.libraries, Except.ok.injEq] at hc hc'
  subst hc hc'
  exact StandIn.canonical.put_append_inj heq

/-- Zeros between a place and the boundary. -/
def zeroed (start : Nat) (a : RetentionAuthority) (bytes : Bytes) : Bytes :=
  bytes.take start ++ List.replicate (a.boundary.offset - start) 0 ++ bytes.drop a.boundary.offset

theorem zeroed_punched {start : Nat} (hheader : headerLen ≤ start) (hstart : start ≤ a.boundary.offset)
    (hle : a.boundary.offset ≤ bytes.length)
    (hpins : ∀ pin ∈ a.pins, ∀ e stop, a.verifyPin lib f pin = .ok (e, stop) → stop ≤ start) :
    Punched lib f a bytes (zeroed start a bytes) := by
  have htake : (bytes.take start).length = start := by
    rw [List.length_take]
    omega
  have hlen : (bytes.take start ++ List.replicate (a.boundary.offset - start) (0 : UInt8)).length =
      a.boundary.offset := by
    rw [List.length_append, List.length_replicate, htake]
    omega
  have hbefore : ∀ i < start, (zeroed start a bytes)[i]? = bytes[i]? := by
    intro i hi
    rw [zeroed, List.append_assoc, List.getElem?_append_left (by omega), List.getElem?_take_of_lt hi]
  constructor
  · rw [zeroed, List.length_append, hlen, List.length_drop]
    omega
  · rintro i (hi | hi | ⟨pin, hpin, e, stop, hread, _, hi⟩)
    · exact hbefore i (by omega)
    · rw [zeroed, List.getElem?_append_right (by omega), hlen, List.getElem?_drop]
      congr 1
      omega
    · have hstop := hpins pin hpin e stop hread
      exact hbefore i (by omega)

/-- Three events in a new log. -/
def threeEvents : LogFile :=
  ((Log.created (.missing "log")).run StandIn.libraries
    [.append (StandIn.event 1), .append (StandIn.event 2), .append (StandIn.event 3), .close]).file

def pinOf (frame : Nat × EventEnvelope) : RetentionPin :=
  ⟨frame.2.seq, frame.1, frame.2.thisHash, frame.2.prevHash, false, none⟩

/-- The authority that pins the first of three frames and retires the second. -/
def secondRetired (first third : Nat × EventEnvelope) (full : Walked) : RetentionAuthority :=
  retiredBefore third [pinOf first] full.outcome.verifiedTail

/-- The walk has seen three frames: the second may be retired, and the first is pinned. -/
def isRetirable (bytes : Bytes) (full : Walked) : Bool :=
  match full.seen with
  | [first, second, third] => ((secondRetired first third full).verifyPin StandIn.libraries threeEvents
      (pinOf first)).toOption.any (fun r => r.2 = second.1)
    && decide ((secondRetired first third full).validate = .ok () ∧ headerLen ≤ second.1 ∧
      second.1 ≤ third.1 ∧ third.1 ≤ bytes.length)
  | _ => false

theorem threeEvents_authority :
    ∃ bytes full first second third, threeEvents.bytes = some bytes ∧ threeEvents.retention = none ∧
      walkLocked StandIn.libraries threeEvents bytes ⟨none, .physicalEof⟩ = .ok full ∧
      full.seen = [first, second, third] ∧ (secondRetired first third full).validate = .ok () ∧
      (∃ e, (secondRetired first third full).verifyPin StandIn.libraries threeEvents (pinOf first)
        = .ok (e, second.1)) ∧ headerLen ≤ second.1 ∧ second.1 ≤ third.1 ∧ third.1 ≤ bytes.length := by
  obtain ⟨bytes, hbytes, hchecks⟩ := (Option.any_eq_true _ _).mp (show threeEvents.bytes.any (fun bytes =>
    (walkLocked StandIn.libraries threeEvents bytes ⟨none, .physicalEof⟩).toOption.any (isRetirable bytes)
      && threeEvents.retention.isNone) = true by decide +kernel)
  obtain ⟨hwalk, hnone⟩ := Bool.and_eq_true_iff.mp hchecks
  obtain ⟨full, hfull, hseen⟩ := exists_ok_of_any hwalk
  unfold isRetirable at hseen
  split at hseen
  · rename_i first second third hthree
    obtain ⟨hpin, hplaced⟩ := Bool.and_eq_true_iff.mp hseen
    obtain ⟨⟨e, stop⟩, hpin, hstop⟩ := exists_ok_of_any hpin
    obtain rfl : stop = second.1 := of_decide_eq_true hstop
    obtain ⟨hvalid, hheader, hsecond, hthird⟩ := of_decide_eq_true hplaced
    exact ⟨bytes, full, first, second, third, hbytes, Option.isNone_iff_eq_none.mp hnone, hfull, hthree,
      hvalid, ⟨e, hpin⟩, hheader, hsecond, hthird⟩
  · cases hseen

/-- The second of three frames is overwritten with zeros; the first is pinned, and the third is
still there. -/
theorem threeEvents_transparent :
    ∃ bytes full a start, threeEvents.bytes = some bytes ∧
      walkLocked StandIn.libraries threeEvents bytes ⟨none, .physicalEof⟩ = .ok full ∧
      full.seen.length = 3 ∧ a.pins.length = 1 ∧ a.ValidFor StandIn.libraries threeEvents bytes ∧
      Punched StandIn.libraries threeEvents a bytes (zeroed start a bytes) ∧
      walkLocked StandIn.libraries (threeEvents.retain a (zeroed start a bytes)) (zeroed start a bytes)
        ⟨none, .physicalEof⟩ =
        .ok ⟨full.outcome, .notRequested, full.seen.filter fun p => a.boundary.offset ≤ p.1⟩ ∧
      a.verifyPins StandIn.libraries (threeEvents.retain a (zeroed start a bytes)) = .ok () := by
  obtain ⟨bytes, full, first, second, third, hbytes, hret, hfull, hseen, hvalid, ⟨e, hpin⟩, hheader,
    hsecond, hthird⟩ := threeEvents_authority
  have hpins : (secondRetired first third full).verifyPins StandIn.libraries threeEvents = .ok () := by
    refine RetentionAuthority.verifyPins_ok.mpr fun pin hmem => ⟨(e, second.1), ?_⟩
    rwa [List.mem_singleton.mp hmem]
  have hfor := retiredBefore_validFor hret hfull (by simp [hseen]) hvalid hpins
  have hpunched : Punched StandIn.libraries threeEvents (secondRetired first third full) bytes
      (zeroed second.1 (secondRetired first third full) bytes) := by
    refine zeroed_punched hheader hsecond hthird fun pin hmem e' stop hread => ?_
    rw [List.mem_singleton.mp hmem, hpin] at hread
    exact (congrArg Prod.snd (Except.ok.inj hread)).ge
  obtain ⟨hsame, _⟩ := retention_transparent StandIn.libraries_canonical hret hbytes hfull hfor
    (LogFile.retain_canonical _ _ (zeroed second.1 _ bytes)) (load_retain hvalid)
    (LogFile.retain_bytes _ _ _)
  obtain ⟨hwalk, hkept, _⟩ := hsame hpunched
  exact ⟨bytes, full, _, second.1, hbytes, hfull, by rw [hseen]; rfl, rfl, hfor, hpunched, hwalk, hkept⟩

def isFirstRetirable (full : Walked) : Bool :=
  match full.seen with
  | [_, second] => decide ((retiredBefore second [] full.outcome.verifiedTail).validate = .ok ())
  | _ => false

/-- The two events under the authority that retires the first. -/
theorem twoEvents_authority :
    ∃ bytes full first second, twoEvents.bytes = some bytes ∧ twoEvents.retention = none ∧
      walkLocked StandIn.libraries twoEvents bytes ⟨none, .physicalEof⟩ = .ok full ∧
      full.seen = [first, second] ∧
      (retiredBefore second [] full.outcome.verifiedTail).validate = .ok () := by
  obtain ⟨bytes, hbytes, hchecks⟩ := (Option.any_eq_true _ _).mp (show twoEvents.bytes.any (fun bytes =>
    (walkLocked StandIn.libraries twoEvents bytes ⟨none, .physicalEof⟩).toOption.any isFirstRetirable
      && twoEvents.retention.isNone) = true by decide +kernel)
  obtain ⟨hwalk, hnone⟩ := Bool.and_eq_true_iff.mp hchecks
  obtain ⟨full, hfull, hseen⟩ := exists_ok_of_any hwalk
  unfold isFirstRetirable at hseen
  split at hseen
  · rename_i first second hpair
    exact ⟨bytes, full, first, second, hbytes, Option.isNone_iff_eq_none.mp hnone, hfull, hpair,
      of_decide_eq_true hseen⟩
  · cases hseen

/-- **The header lies before the boundary and is not pinned**, and a file without it is refused. -/
theorem walkLocked_headerless :
    ∃ bytes full a bytes', twoEvents.bytes = some bytes ∧
      walkLocked StandIn.libraries twoEvents bytes ⟨none, .physicalEof⟩ = .ok full ∧
      a.ValidFor StandIn.libraries twoEvents bytes ∧ a.pins = [] ∧ bytes'.length = bytes.length ∧
      (∀ i, a.boundary.offset ≤ i → bytes'[i]? = bytes[i]?) ∧
      RetentionAuthority.load StandIn.libraries (twoEvents.retain a bytes') = .ok (some a) ∧
      walkLocked StandIn.libraries (twoEvents.retain a bytes') bytes' ⟨none, .physicalEof⟩ =
        .error (.badHeader twoEvents.path) := by
  obtain ⟨bytes, full, first, second, hbytes, hret, hfull, hseen, hvalid⟩ := twoEvents_authority
  obtain ⟨_, _, body, hbody, _⟩ := walkLocked_ok.mp hfull
  have hheader := (RetentionAuthority.validate_ok hvalid).header_lt
  refine ⟨bytes, full, retiredBefore second [] full.outcome.verifiedTail, 0 :: bytes.tail, hbytes, hfull,
    retiredBefore_validFor hret hfull (by simp [hseen]) hvalid rfl, rfl, ?_, ?_, load_retain hvalid, ?_⟩
  · rw [hbody]
    rfl
  · intro i hi
    cases i with
    | zero => omega
    | succ i =>
      rw [List.getElem?_cons_succ, List.getElem?_tail]
  · have hbad : verifyFileHeader twoEvents.path (0 :: bytes.tail) = .error (.badHeader twoEvents.path) :=
      if_neg (by simp [fileHeader, headerLen])
    unfold walkLocked
    rw [LogFile.retain_path, hbad]
    rfl

end PredictionEdge.EventLog
