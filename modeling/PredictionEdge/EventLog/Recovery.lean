import PredictionEdge.EventLog.System
import PredictionEdge.EventLog.StandIn

/-!
# Crash recovery

A log that was built by appends and then lost its end at any byte behind the header is
opened again: the open succeeds, keeps the frames that are still whole and nothing else,
and goes on where the writer stood after that many appends. Whatever is appended then, the
scanner accepts the whole file.
-/

namespace PredictionEdge.EventLog

variable {lib : Libraries} {base : Base lib} {f : LogFile} {w : Writer} {raw : Bytes}
  {items : List (ScanState × EventEnvelope)} {t : ScanState}

/-- Appends one after another, as long as each is accepted. -/
def appendAll (lib : Libraries) : LogFile → Writer → List EnvelopeIn → Except LogError (LogFile × Writer)
  | f, w, [] => .ok (f, w)
  | f, w, input :: inputs =>
    match w.append lib f input with
    | (.error e, _, _) => .error e
    | (.ok _, f, w) => appendAll lib f w inputs

/-- Appends one after another, whether they are accepted or not. -/
def appendEach (lib : Libraries) : LogFile → Writer → List EnvelopeIn → LogFile × Writer
  | f, w, [] => (f, w)
  | f, w, input :: inputs =>
    let (_, f, w) := w.append lib f input
    appendEach lib f w inputs

/-- The file with everything from a byte offset on lost. -/
def LogFile.truncate (f : LogFile) (n : Nat) : LogFile :=
  { f with bytes := f.bytes.map fun bytes => bytes.take n, synced := min f.synced n, locked := false }

/-- What a stored event was appended as. -/
def EventEnvelope.input (e : EventEnvelope) : EnvelopeIn :=
  ⟨e.sourceId, e.schemaVersion, e.parserVersion, e.observedAt, e.receivedAt, e.contentType, e.payload⟩

variable {input : EnvelopeIn}

theorem encodeEnvelope_input {seq : EventSeq} {prev : Hash} {e : EventEnvelope} {parts : FrameParts}
    (h : encodeEnvelope lib seq prev input = .ok (e, parts)) : e.input = input := by
  obtain ⟨_, _, h⟩ := Lib.bind_eq_ok.mp h
  obtain ⟨_, _, h⟩ := Lib.bind_eq_ok.mp h
  obtain ⟨_, _, h⟩ := Lib.bind_eq_ok.mp h
  rw [← (Prod.mk.inj (Lib.pure_eq_ok.mp h)).1]
  rfl

theorem Writer.append_accepted {seq : EventSeq} {f' : LogFile} {w' : Writer}
    (h : w.append lib f input = (.ok seq, f', w')) :
    ∃ e parts, w.prepareAppend lib input = .ok (e, parts) ∧ w'.poisonReason = none ∧
      w'.cursor = w.cursor + parts.bytes.length := by
  cases hprep : w.prepareAppend lib input with
  | error err =>
    rw [Writer.append_error hprep] at h
    simp at h
  | ok ep =>
    obtain ⟨e, parts⟩ := ep
    have hlength := Writer.length_prepared hprep
    have hpoison := (Writer.prepareAppend_ok hprep).1
    unfold Writer.append at h
    rw [hprep] at h
    dsimp only at h
    split at h
    · simp at h
    · simp only [Prod.mk.injEq] at h
      obtain ⟨_, _, rfl⟩ := h
      exact ⟨e, parts, rfl, hpoison, by rw [hlength]⟩

/-- An append that is accepted puts one frame behind the others and leaves the writer healthy. -/
theorem Opened.append_ok (h : Opened base f w raw items t) {seq : EventSeq} {f' : LogFile}
    {w' : Writer} (ha : w.append lib f input = (.ok seq, f', w')) :
    ∃ frame e t', AppendedFrame lib t frame e t' ∧ e.input = input ∧
      Opened base f' w' (raw ++ frame) (items ++ [(t, e)]) t' ∧ w'.poisonReason = none ∧
      w'.cursor = w.cursor + frame.length := by
  obtain ⟨e, parts, hprep, hp, hcursor⟩ := Writer.append_accepted ha
  have hopened := h.append_frame hprep
  rw [ha] at hopened
  exact ⟨parts.bytes, e, _, h.appendedFrame hprep,
    encodeEnvelope_input (Writer.prepareAppend_ok hprep).2.2, hopened, hp, hcursor⟩

variable {inputs : List EnvelopeIn}

theorem appendAll_cons {r : LogFile × Writer} :
    appendAll lib f w (input :: inputs) = .ok r ↔
      ∃ seq f' w', w.append lib f input = (.ok seq, f', w') ∧ appendAll lib f' w' inputs = .ok r := by
  simp only [appendAll]
  constructor
  · intro h
    split at h
    · simp at h
    · rename_i seq f' w' ha
      exact ⟨seq, f', w', ha, h⟩
  · rintro ⟨seq, f', w', ha, h⟩
    rw [ha]
    exact h

/-- The cursor only grows. -/
theorem appendAll_cursor_le : ∀ {f : LogFile} {w : Writer} {f' : LogFile}
    {w' : Writer}, appendAll lib f w inputs = .ok (f', w') → w.cursor ≤ w'.cursor := by
  induction inputs with
  | nil =>
    intro f w f' w' h
    simp only [appendAll, Except.ok.injEq, Prod.mk.injEq] at h
    rw [h.2]
  | cons input inputs ih =>
    intro f w f' w' h
    obtain ⟨seq, f₁, w₁, ha, h⟩ := appendAll_cons.mp h
    obtain ⟨_, _, _, _, hcursor⟩ := Writer.append_accepted ha
    have := ih h
    omega

/-- Where a run of accepted appends stands when only its first `m` bytes are counted. -/
structure CutAt (base : Base lib) (f₀ : LogFile) (w₀ : Writer) (raw₀ : Bytes)
    (items₀ : List (ScanState × EventEnvelope)) (inputs : List EnvelopeIn) (added : Bytes) (m k : Nat) (f : LogFile) (w : Writer) (raw : Bytes)
    (items : List (ScanState × EventEnvelope)) (t : ScanState) (part : Bytes) : Prop where
  le_length : k ≤ inputs.length
  run : appendAll lib f₀ w₀ (inputs.take k) = .ok (f, w)
  opened : Opened base f w (raw₀ ++ raw) items t
  healthy : w.poisonReason = none
  stored : items.map (·.2.input) = items₀.map (·.2.input) ++ inputs.take k
  kept : added.take m = raw ++ part
  torn : TornPart lib t part
  cursor : w.cursor = w₀.cursor + raw.length
  longest : ∀ j f' w', k < j → j ≤ inputs.length →
    appendAll lib f₀ w₀ (inputs.take j) = .ok (f', w') → w₀.cursor + m < w'.cursor

/--
**A run of accepted appends, cut at any byte, stands at one of its own appends.**

The induction is on the appends: the cut falls inside the first frame, which is then torn,
or behind it, and then inside the rest.
-/
theorem appendAll_cut : ∀ {f₀ : LogFile} {w₀ : Writer} {raw₀ : Bytes}
    {items₀ : List (ScanState × EventEnvelope)} {t₀ : ScanState} {f' : LogFile} {w' : Writer},
    Opened base f₀ w₀ raw₀ items₀ t₀ → w₀.poisonReason = none →
    appendAll lib f₀ w₀ inputs = .ok (f', w') →
    ∃ added items' t', Opened base f' w' (raw₀ ++ added) items' t' ∧
      ∀ m, ∃ k f w raw items t part, CutAt base f₀ w₀ raw₀ items₀ inputs added m k f w raw items t part := by
  induction inputs with
  | nil =>
    intro f₀ w₀ raw₀ items₀ t₀ f' w' h hp hrun
    simp only [appendAll, Except.ok.injEq, Prod.mk.injEq] at hrun
    obtain ⟨rfl, rfl⟩ := hrun
    have h' : Opened base f₀ w₀ (raw₀ ++ []) items₀ t₀ := by rwa [List.append_nil]
    refine ⟨[], items₀, t₀, h', fun m => ⟨0, f₀, w₀, [], items₀, t₀, [], ?_⟩⟩
    refine ⟨le_refl _, rfl, h', hp, by simp, by simp, .inl rfl, rfl, ?_⟩
    intro j _ _ hj hle
    rw [List.length_nil] at hle
    omega
  | cons input inputs ih =>
    intro f₀ w₀ raw₀ items₀ t₀ f' w' h hp hrun
    obtain ⟨seq, f₁, w₁, ha, hrun⟩ := appendAll_cons.mp hrun
    obtain ⟨frame, e, t₁, hframe, hinput, h₁, hp₁, hcursor⟩ := h.append_ok ha
    obtain ⟨added, items', t', hopened, hcut⟩ := ih h₁ hp₁ hrun
    rw [List.append_assoc] at hopened
    refine ⟨frame ++ added, items', t', hopened, fun m => ?_⟩
    by_cases hm : m < frame.length
    · -- the cut falls inside the first frame
      have h' : Opened base f₀ w₀ (raw₀ ++ []) items₀ t₀ := by rwa [List.append_nil]
      refine ⟨0, f₀, w₀, [], items₀, t₀, frame.take m,
        ⟨by simp, rfl, h', hp, by simp, ?_, ?_, rfl, ?_⟩⟩
      · rw [List.take_append_of_le_length (by omega), List.nil_append]
      · refine .inr ⟨frame, e, t₁, frame.drop m, hframe, (List.take_append_drop m frame).symm, ?_⟩
        intro hnil
        have := congrArg List.length hnil
        rw [List.length_drop, List.length_nil] at this
        omega
      · intro j f₂ w₂ hj hle hj'
        cases j with
        | zero => omega
        | succ j =>
          rw [List.take_succ_cons] at hj'
          obtain ⟨_, f₃, w₃, ha', hj'⟩ := appendAll_cons.mp hj'
          rw [ha] at ha'
          simp only [Prod.mk.injEq] at ha'
          obtain ⟨_, rfl, rfl⟩ := ha'
          have := appendAll_cursor_le hj'
          omega
    · obtain ⟨k, f, w, raw, items, t, part, hk⟩ := hcut (m - frame.length)
      refine ⟨k + 1, f, w, frame ++ raw, items, t, part,
        ⟨?_, ?_, ?_, hk.healthy, ?_, ?_, hk.torn, ?_, ?_⟩⟩
      · have := hk.le_length
        rw [List.length_cons]
        omega
      · rw [List.take_succ_cons]
        exact appendAll_cons.mpr ⟨seq, f₁, w₁, ha, hk.run⟩
      · rw [← List.append_assoc]
        exact hk.opened
      · rw [hk.stored, List.take_succ_cons]
        simp [hinput]
      · rw [List.take_append, List.take_of_length_le (by omega), hk.kept, List.append_assoc]
      · rw [hk.cursor, hcursor, List.length_append]
        omega
      · intro j f₂ w₂ hj hle hj'
        cases j with
        | zero => omega
        | succ j =>
          rw [List.take_succ_cons] at hj'
          obtain ⟨_, f₃, w₃, ha', hj'⟩ := appendAll_cons.mp hj'
          rw [ha] at ha'
          simp only [Prod.mk.injEq] at ha'
          obtain ⟨_, rfl, rfl⟩ := ha'
          rw [List.length_cons] at hle
          have := hk.longest j f₂ w₂ (by omega) (by omega) hj'
          omega

/-- A log that ends in a whole frame is verified to its end. -/
theorem Closed.verify (hlib : lib.Lawful) (h : Closed base f raw items t []) :
    EventLog.verify lib f = .ok (tailBinding f.canonical t) := by
  have hinspect := h.inspectOpen hlib
  have hcontents : f.contents = .ok (base.bytes ++ raw ++ []) := LogFile.contents_ok.mpr h.bytes
  refine Lib.bind_eq_ok.mpr ⟨⟨tailBinding f.canonical t, none⟩, ?_, rfl⟩
  exact Lib.bind_eq_ok.mpr ⟨_, hcontents, hinspect⟩

/-- Any appends leave the log open. -/
theorem Opened.appendEach (inputs : List EnvelopeIn) : ∀ {f : LogFile} {w : Writer} {raw : Bytes}
    {items : List (ScanState × EventEnvelope)} {t : ScanState}, Opened base f w raw items t →
    ∃ raw' items' t', Opened base (EventLog.appendEach lib f w inputs).1
      (EventLog.appendEach lib f w inputs).2 raw' items' t' := by
  induction inputs with
  | nil => intro f w raw items t h; exact ⟨raw, items, t, h⟩
  | cons input inputs ih =>
    intro f w raw items t h
    obtain ⟨raw', items', t', h', _⟩ := h.append input
    exact ih h'

section

variable {added part : Bytes} {items' : List (ScanState × EventEnvelope)} {t' : ScanState} {n : Nat}

theorem Closed.header_bytes {canonical : String}
    (h : Closed (Base.header lib canonical) f added items' t' []) : f.bytes = some (fileHeader ++ added) := by
  rw [h.bytes]
  simp [Base.header, Base.bytes]

theorem take_fileHeader (hn : headerLen ≤ n) (hkept : added.take (n - headerLen) = raw ++ part) :
    (fileHeader ++ added).take n = fileHeader ++ raw ++ part := by
  rw [List.take_append, List.take_of_length_le hn, fileHeader_length, hkept, List.append_assoc]

/-- A cut log is a log nobody has open, torn where the cut fell. -/
theorem Closed.truncate {canonical : String} (h : Closed (Base.header lib canonical) f added items' t' [])
    (happended : Appended lib .afterHeader raw items t) (htorn : TornPart lib t part)
    (hn : headerLen ≤ n) (hkept : added.take (n - headerLen) = raw ++ part) :
    Closed (Base.header lib canonical) (f.truncate n) raw items t part where
  appended := happended
  canonical := h.canonical
  retention := h.retention
  unlocked := rfl
  bytes := by simp [LogFile.truncate, h.header_bytes, take_fileHeader hn hkept, Base.header, Base.bytes]
  torn := htorn
  base_synced := le_min h.base_synced hn
  synced_le := by
    have hle := h.synced_le
    rw [show (Base.header lib canonical).bytes ++ added ++ [] = fileHeader ++ added by
      simp [Base.header, Base.bytes]] at hle
    have hcut : min f.synced n ≤ (fileHeader ++ raw ++ part).length := by
      rw [← take_fileHeader hn hkept, List.length_take]
      omega
    simpa [LogFile.truncate, Base.header, Base.bytes] using hcut

end

/--
**A log built by appends survives the loss of its end.**

Take any file that is missing or empty, any accepted appends to it, and cut the log that
they leave at any byte behind the header. The open succeeds, and it stands where the writer
stood after `k` of the appends, for the largest `k` whose frames are all there: it has kept
the bytes up to that writer's cursor, which the scanner reads as the first `k` events, and it
has that writer's next sequence, which is `k`, and chain hash.
Any appends after that, accepted or not, leave a file that is verified through its end.
-/
theorem openWriter_recovers (hlib : lib.Lawful) {f₀ f₁ f : LogFile} {w₀ w : Writer}
    {inputs : List EnvelopeIn} (hempty : f₀.bytes.getD [] = []) (hopen : openWriter lib f₀ = (.ok w₀, f₁))
    (happend : appendAll lib f₁ w₀ inputs = .ok (f, w)) (n : Nat) (hn : headerLen ≤ n) :
    ∃ k fₖ wₖ w' f', k ≤ inputs.length ∧ appendAll lib f₁ w₀ (inputs.take k) = .ok (fₖ, wₖ) ∧
      wₖ.cursor ≤ n ∧
      (∀ j fⱼ wⱼ, k < j → j ≤ inputs.length →
        appendAll lib f₁ w₀ (inputs.take j) = .ok (fⱼ, wⱼ) → n < wⱼ.cursor) ∧
      openWriter lib ((w.close f).truncate n) = (.ok w', f') ∧
      f'.bytes = (w.close f).bytes.map (fun bytes => bytes.take wₖ.cursor) ∧
      (∃ raw items t, f'.bytes = some (fileHeader ++ raw) ∧ Frames lib .afterHeader raw items t ∧
        items.map (·.2.input) = inputs.take k) ∧
      w'.nextSeq = k ∧ w'.nextSeq = wₖ.nextSeq ∧ w'.lastHash = wₖ.lastHash ∧ w'.cursor = wₖ.cursor ∧
      ∀ more, ∃ tail, verify lib ((appendEach lib f' w' more).2.close (appendEach lib f' w' more).1) =
        .ok tail ∧ ((appendEach lib f' w' more).2.close (appendEach lib f' w' more).1).bytes.map
          List.length = some tail.physicalTail := by
  obtain ⟨hret, rfl, rfl⟩ := openWriter_empty hempty hopen
  obtain ⟨added, items', t', hopened, hcut⟩ := appendAll_cut (created_opened hret) rfl happend
  obtain ⟨k, fₖ, wₖ, raw, items, t, part, hk⟩ := hcut (n - headerLen)
  obtain ⟨hseq, hhash, hcursor⟩ := hk.opened.healthy hk.healthy
  have hlen : wₖ.cursor = headerLen + raw.length := hk.cursor
  have hle : wₖ.cursor ≤ n := by
    have hlength := congrArg List.length hk.kept
    rw [List.length_take, List.length_append] at hlength
    omega
  have hwhole : Closed (Base.header lib f₀.canonical) (w.close f) added items' t' [] := hopened.close
  have hcutLog := hwhole.truncate hk.opened.appended hk.torn hn hk.kept
  have hframes := hcutLog.appended.frames hlib
  have hcount : items.length = k := by
    have hlength := congrArg List.length hk.stored
    have hle := hk.le_length
    simp only [List.length_map, List.map_nil, List.nil_append, List.length_take] at hlength
    omega
  refine ⟨k, fₖ, wₖ, _, _, hk.le_length, hk.run, hle, ?_, hcutLog.openWriter hlib, ?_,
    ⟨raw, items, t, by simp [Base.header, Base.bytes], hframes, hk.stored⟩, ?_, hseq.symm,
    hhash.symm, hcursor.symm, ?_⟩
  · intro j fⱼ wⱼ hj hj' hrun
    have := hk.longest j fⱼ wⱼ hj hj' hrun
    have hstart : (createLog f₀).1.cursor = headerLen := rfl
    omega
  · have hwritten : (fileHeader ++ added).take wₖ.cursor = fileHeader ++ raw := by
      rw [← Nat.min_eq_left hle, ← List.take_take, take_fileHeader hn hk.kept, hlen]
      exact List.take_left' (by rw [List.length_append, fileHeader_length])
    rw [hwhole.header_bytes, Option.map_some, hwritten]
    simp [Base.header, Base.bytes]
  · rw [← hcount]
    exact hframes.nextSequence_eq.trans (Nat.zero_add _)
  · intro more
    obtain ⟨raw', items'', t'', hmore⟩ := (hcutLog.opened hlib).appendEach more
    have hclose := hmore.close
    refine ⟨_, hclose.verify hlib, ?_⟩
    rw [hclose.bytes, Option.map_some, List.append_nil]
    exact congrArg some (hclose.tail_eq hlib).symm

/-- Two events in a new log, cut inside the second frame. -/
theorem twoEvents_recovered :
    ∃ f w, appendAll StandIn.libraries (createLog (.missing "log")).2 (createLog (.missing "log")).1
        [StandIn.event 1, StandIn.event 2] = .ok (f, w) ∧
      ∃ k fₖ wₖ w' f', k ≤ 2 ∧
        appendAll StandIn.libraries (createLog (.missing "log")).2 (createLog (.missing "log")).1
          ([StandIn.event 1, StandIn.event 2].take k) = .ok (fₖ, wₖ) ∧ wₖ.cursor ≤ 700 ∧
        openWriter StandIn.libraries ((w.close f).truncate 700) = (.ok w', f') ∧
        w'.nextSeq = k ∧ w'.nextSeq = wₖ.nextSeq := by
  have hopen : openWriter StandIn.libraries (.missing "log") =
      (.ok (createLog (.missing "log")).1, (createLog (.missing "log")).2) := rfl
  obtain ⟨⟨f, w⟩, hrun, _⟩ := Lib.exists_ok_of_any
    (x := appendAll StandIn.libraries (createLog (.missing "log")).2 (createLog (.missing "log")).1
      [StandIn.event 1, StandIn.event 2]) (p := fun _ => true) (by decide +kernel)
  obtain ⟨k, fₖ, wₖ, w', f', hk, hrunₖ, hcursor, _, hopened, _, _, hcount, hseq, _⟩ :=
    openWriter_recovers StandIn.libraries_lawful rfl hopen hrun 700 (by decide)
  exact ⟨f, w, hrun, k, fₖ, wₖ, w', f', hk, hrunₖ, hcursor, hopened, hcount, hseq⟩

end PredictionEdge.EventLog
