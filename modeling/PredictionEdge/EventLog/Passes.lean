import PredictionEdge.EventLog.Walk

/-!
# What a walk passes

The loops of the walks stated over readings: a walk moves over any whole number of frames
at once (`walkHashedLoop_frames`), and a walk that succeeds is a reading of whole frames
followed by a clean end or a partial frame (`walkHashedLoop_ok`). A tracker has matched
after a walk when it had matched before or one of the states passed is the one it names.
-/

namespace PredictionEdge.EventLog

open Lib

variable {lib : Libraries}

/-- What an observer is shown of a reading. -/
def shown (items : List (ScanState × EventEnvelope)) : List (Nat × EventEnvelope) :=
  items.map fun i => (i.1.physicalTail, i.2)

theorem shown_append (items items' : List (ScanState × EventEnvelope)) :
    shown (items ++ items') = shown items ++ shown items' := List.map_append

/-- The states a reading comes to after its frames. -/
def reached (items : List (ScanState × EventEnvelope)) (last : ScanState) : List ScanState :=
  (passed items last).tail

variable {items : List (ScanState × EventEnvelope)} {path : String} {w : WalkState}
  {s t : ScanState} {rr : Bool} {raw rest : Bytes} {walked : Walked}

theorem passed_eq_cons (h : Frames lib s raw items t) :
    passed items t = s :: reached items t := by
  cases h with
  | nil | cons _ _ => rfl

variable {v : PrefixVerdict} {u : ScanState}

theorem PrefixVerdict.requireMatch_ok :
    v.requireMatch = .ok () ↔ v = .notRequested ∨ v = .matched := by
  cases v <;> simp [requireMatch]

theorem PrefixVerdict.requireRetained_ok :
    v.requireRetained = .ok () ↔ v = .notRequested ∨ v = .matched := by
  cases v <;> simp [requireRetained]

variable {expected : LogTailBinding} {states : List ScanState} {bytes : Bytes}

namespace PrefixTracker

def observeAll (t : PrefixTracker) (states : List ScanState) : PrefixTracker :=
  states.foldl observe t

theorem observe_eq (t : PrefixTracker) (state : ScanState) :
    t.observe state = { t with matched := t.matched || t.names state } := by
  unfold observe
  split
  · rename_i h
    rw [h, Bool.or_true]
  · rename_i h
    rw [Bool.not_eq_true] at h
    rw [h, Bool.or_false]

theorem names_matched (t : PrefixTracker) (b : Bool) :
    ({ t with matched := b } : PrefixTracker).names = t.names := rfl

/-- Watching a list of states. -/
theorem observeAll_eq (states : List ScanState) : ∀ t : PrefixTracker,
    t.observeAll states = { t with matched := t.matched || states.any t.names } := by
  induction states with
  | nil => intro t; simp [observeAll]
  | cons s states ih =>
    intro t
    show (t.observe s).observeAll states = _
    rw [ih, observe_eq, List.any_cons]
    simp only [names_matched, Bool.or_assoc]

@[simp] theorem observe_expected (t : PrefixTracker) (state : ScanState) :
    (t.observe state).expected = t.expected := by
  rw [observe_eq]

@[simp] theorem observeAll_expected (t : PrefixTracker) (states : List ScanState) :
    (t.observeAll states).expected = t.expected := by
  rw [observeAll_eq]

/-- A tracker that looks at the first state and at those reached looks at all that is passed. -/
theorem observe_observeAll (h : Frames lib s raw items u) (t : PrefixTracker) :
    (t.observe s).observeAll (reached items u) = t.observeAll (passed items u) := by
  rw [passed_eq_cons h]
  rfl

/-- The state the tracker waits for, by its binding. -/
theorem names_iff : (new (some expected) path).names s = true ↔ expected = tailBinding path s := by
  obtain ⟨p, tail, seq, hash⟩ := expected
  simp only [names, new, Option.any_some, Option.all_some, Bool.and_eq_true, decide_eq_true_eq,
    tailBinding, LogTailBinding.mk.injEq]
  constructor
  · rintro ⟨⟨⟨h₁, h₂⟩, h₃⟩, h₄⟩
    exact ⟨h₁, h₂.symm, h₃.symm, h₄.symm⟩
  · rintro ⟨h₁, h₂, h₃, h₄⟩
    exact ⟨⟨⟨h₁, h₂.symm⟩, h₃.symm⟩, h₄.symm⟩

/-- A verdict is accepted when the binding waited for, if any, was met in its own file. -/
theorem verdict_accepted (t : PrefixTracker) (last : ScanState) :
    (t.verdict last = .notRequested ∨ t.verdict last = .matched) ↔
      ∀ e ∈ t.expected, t.sameFile = true ∧ t.matched = true := by
  unfold verdict
  cases t.expected with
  | none => simp
  | some e =>
    simp only [Option.mem_def, Option.some.injEq, forall_eq']
    by_cases hsame : t.sameFile = true
    · by_cases hmatched : t.matched = true
      · simp [hsame, hmatched]
      · rw [if_neg (not_not.mpr hsame), if_neg hmatched]
        split <;> simp [hmatched]
    · simp [hsame]

/-- **What a tracker for a binding has to have seen.** -/
theorem accepted_iff {expected : Option LogTailBinding} {last : ScanState} :
    (((new expected path).observeAll states).verdict last = .notRequested ∨
      ((new expected path).observeAll states).verdict last = .matched) ↔
      ∀ e ∈ expected, ∃ s ∈ states, e = tailBinding path s := by
  rw [verdict_accepted, observeAll_eq]
  cases expected with
  | none => simp [new]
  | some e =>
    simp only [new, Option.mem_def, Option.some.injEq, forall_eq', Option.all_some, decide_eq_true_eq,
      Bool.false_or, List.any_eq_true]
    constructor
    · rintro ⟨_, s, hs, hnames⟩
      exact ⟨s, hs, names_iff.mp hnames⟩
    · rintro ⟨s, hs, rfl⟩
      exact ⟨rfl, s, hs, names_iff.mpr rfl⟩

/-- A tracker that has met the binding of its own file says so, wherever the walk stands. -/
theorem verdict_of_any (h : s ∈ states) (last : ScanState) :
    ((new (some (tailBinding path s)) path).observeAll states).verdict last = .matched := by
  have hany : states.any (new (some (tailBinding path s)) path).names = true :=
    List.any_eq_true.mpr ⟨s, h, names_iff.mpr rfl⟩
  rw [observeAll_eq, hany]
  simp [verdict, new, tailBinding]

end PrefixTracker

/-- The walk after reading some frames. -/
def WalkState.after (w : WalkState) (items : List (ScanState × EventEnvelope)) (last : ScanState)
    (rest : Bytes) : WalkState where
  scan := last
  input := rest
  expected := w.expected.observeAll (reached items last)
  retention := w.retention.observeAll (reached items last)
  seen := w.seen ++ shown items

theorem WalkState.frame_after {e : EventEnvelope} {raw' : Bytes} (h : Frames lib t raw items u) :
    (w.frame e t raw').after items u rest = w.after ((w.scan, e) :: items) u rest := by
  have hreached : reached ((w.scan, e) :: items) u = t :: reached items u := by
    show passed items u = _
    exact passed_eq_cons h
  simp only [after, frame, hreached, shown, List.map_cons, List.append_assoc, List.singleton_append]
  rfl

theorem WalkState.after_nil : w.after [] w.scan w.input = w := by
  cases w
  simp [after, reached, passed, PrefixTracker.observeAll, shown]

/-- The trackers of a walk look at every state the walk passes, its first included. -/
theorem walkStart_after {expected retention : PrefixTracker} (h : Frames lib s raw items t) :
    (walkStart s bytes expected retention).after items t rest =
      ⟨t, rest, expected.observeAll (passed items t), retention.observeAll (passed items t),
        shown items⟩ := by
  rw [← PrefixTracker.observe_observeAll h, ← PrefixTracker.observe_observeAll h]
  rfl

variable {tail : Option IncompleteTail}

theorem WalkState.finish_ok {verdict : PrefixVerdict} :
    w.finish path rr tail verdict = .ok walked ↔
      (rr = true → (w.retention.verdict w.scan).requireRetained = .ok ()) ∧
        walked = ⟨⟨tailBinding path w.scan, tail⟩, verdict, w.seen⟩ := by
  unfold finish
  cases rr with
  | false => simp [pure, Except.pure, eq_comm]
  | true =>
    simp only [if_true, bind_eq_ok, pure_eq_ok, forall_const]
    exact ⟨fun ⟨_, h, e⟩ => ⟨h, e.symm⟩, fun ⟨h, e⟩ => ⟨(), h, e.symm⟩⟩

/-! ## One turn of each loop -/

theorem walkHashedLoop_eq (path : String) (rr : Bool) (digest : Bytes) (w : WalkState) :
    walkHashedLoop lib path rr digest w =
      match readVerifiedFrame lib w.scan w.input with
      | .error e => .error e
      | .ok (.frame e t raw rest) => walkHashedLoop lib path rr (digest ++ raw) (w.frame e t rest)
      | .ok .eof => (w.finish path rr none (w.expected.verdict w.scan)).map (·, digest)
      | .ok (.incomplete tail) =>
        (w.finish path rr (some tail) (w.expected.verdict w.scan)).map (·, digest) := by
  rw [walkHashedLoop]
  split <;> simp_all only

theorem walkLockedLoop_eq (path : String) (boundary : WalkBoundary) (rr : Bool) (w : WalkState) :
    walkLockedLoop lib path boundary rr w =
      match (if boundary = .expectedPrefix then w.expected.verdictBeforeRead w.scan else none) with
      | some verdict => w.finish path rr none verdict
      | none =>
        match readVerifiedFrame lib w.scan w.input with
        | .error e => .error e
        | .ok (.frame e t _ rest) => walkLockedLoop lib path boundary rr (w.frame e t rest)
        | .ok .eof => w.finish path rr none (w.expected.verdict w.scan)
        | .ok (.incomplete tail) => w.finish path rr (some tail) (w.expected.verdict w.scan) := by
  rw [walkLockedLoop]
  split
  · simp_all only
  · split <;> simp_all only

/-- **A walk moves over whole frames.** -/
theorem walkHashedLoop_frames (h : Frames lib s raw items t) :
    ∀ {w : WalkState} {digest : Bytes}, w.scan = s → w.input = raw ++ rest →
      walkHashedLoop lib path rr digest w =
        walkHashedLoop lib path rr (digest ++ raw) (w.after items t rest) := by
  induction h with
  | nil s =>
    intro w digest hs hin
    subst hs
    rw [List.nil_append] at hin
    subst hin
    rw [WalkState.after_nil, List.append_nil]
  | @cons s t u raw tail e items hfirst htail ih =>
    intro w digest hs hin
    subst hs
    rw [walkHashedLoop_eq, hin, List.append_assoc, hfirst.read]
    show walkHashedLoop lib path rr (digest ++ raw) (w.frame e t (tail ++ rest)) = _
    rw [ih rfl rfl, List.append_assoc, WalkState.frame_after htail]

/-- How a reading ends: cleanly, or in a partial frame. -/
def Ends (lib : Libraries) (s : ScanState) (rest : Bytes) (tail : Option IncompleteTail) : Prop :=
  readVerifiedFrame lib s rest = .ok (match tail with
    | none => .eof
    | some t => .incomplete t)

theorem walkHashedLoop_ends (h : Ends lib s rest tail) {digest : Bytes} (hs : w.scan = s)
    (hin : w.input = rest) :
    walkHashedLoop lib path rr digest w =
      (w.finish path rr tail (w.expected.verdict w.scan)).map (·, digest) := by
  subst hs hin
  unfold Ends at h
  rw [walkHashedLoop_eq, h]
  cases tail with
  | none | some t => rfl

/-- **A walk that succeeds is a reading of whole frames and an end.** -/
theorem walkHashedLoop_ok {digest digest' : Bytes}
    (h : walkHashedLoop lib path rr digest w = .ok (walked, digest')) :
    ∃ raw rest items t tail, w.input = raw ++ rest ∧ Frames lib w.scan raw items t ∧
      Ends lib t rest tail ∧ digest' = digest ++ raw ∧
      (w.after items t rest).finish path rr tail ((w.after items t rest).expected.verdict t) =
        .ok walked := by
  fun_induction walkHashedLoop lib path rr digest w with
  | case1 digest w e hread => simp at h
  | case2 digest w e t raw rest hread ih =>
    obtain ⟨hinput, hframe⟩ := readVerifiedFrame_split hread
    obtain ⟨raw', rest', items, u, tail, hin, hframes, hends, hdigest, hfin⟩ := ih h
    have hin' : rest = raw' ++ rest' := hin
    have hframes' : Frames lib t raw' items u := hframes
    rw [WalkState.frame_after hframes'] at hfin
    refine ⟨raw ++ raw', rest', (w.scan, e) :: items, u, tail, ?_, .cons hframe hframes', hends, ?_,
      hfin⟩
    · rw [hinput, hin', List.append_assoc]
    · rw [hdigest, List.append_assoc]
  | case3 digest w hread =>
    simp only [map_eq_ok, Prod.mk.injEq] at h
    obtain ⟨walked', hfin, rfl, rfl⟩ := h
    refine ⟨[], w.input, [], w.scan, none, rfl, .nil _, hread, by simp, ?_⟩
    rw [WalkState.after_nil]
    exact hfin
  | case4 digest w tail hread =>
    simp only [map_eq_ok, Prod.mk.injEq] at h
    obtain ⟨walked', hfin, rfl, rfl⟩ := h
    refine ⟨[], w.input, [], w.scan, some tail, rfl, .nil _, hread, by simp, ?_⟩
    rw [WalkState.after_nil]
    exact hfin

/-- The plain walk to the physical end is the hashed walk without its digest. -/
theorem walkLockedLoop_physicalEof (digest : Bytes) :
    walkLockedLoop lib path .physicalEof rr w =
      (walkHashedLoop lib path rr digest w).map Prod.fst := by
  fun_induction walkHashedLoop lib path rr digest w with
  | case1 digest w e hread =>
    rw [walkLockedLoop_eq, if_neg (by simp), hread]
    rfl
  | case2 digest w e t raw rest hread ih =>
    rw [walkLockedLoop_eq, if_neg (by simp), hread, ← ih]
  | case3 digest w hread =>
    rw [walkLockedLoop_eq, if_neg (by simp), hread, map_pair_fst]
  | case4 digest w tail hread =>
    rw [walkLockedLoop_eq, if_neg (by simp), hread, map_pair_fst]

/-- **The walk to an expected prefix moves over the frames below it.** -/
theorem walkLockedLoop_below (expected : LogTailBinding) (h : Frames lib s raw items t) :
    t.physicalTail ≤ expected.physicalTail →
    ∀ {w : WalkState}, w.scan = s → w.input = raw ++ rest → w.expected.expected = some expected →
      walkLockedLoop lib path .expectedPrefix rr w =
        walkLockedLoop lib path .expectedPrefix rr (w.after items t rest) := by
  induction h with
  | nil s =>
    intro _ w hs hin _
    subst hs
    rw [List.nil_append] at hin
    subst hin
    rw [WalkState.after_nil]
  | @cons s t u raw tail e items hfirst htail ih =>
    intro hle w hs hin hexp
    subst hs
    have hlt : w.scan.physicalTail < expected.physicalTail := by
      have h₁ := hfirst.lt_physicalTail
      have h₂ := Frames.physicalTail_eq htail
      omega
    have hbefore : w.expected.verdictBeforeRead w.scan = none := by
      simp only [PrefixTracker.verdictBeforeRead, hexp, Option.bind_some, if_neg (not_le.mpr hlt)]
    have hexp' : (w.frame e t (tail ++ rest)).expected.expected = some expected := by
      simp only [WalkState.frame, PrefixTracker.observe_eq, hexp]
    rw [walkLockedLoop_eq, if_pos rfl, hbefore, hin, List.append_assoc, hfirst.read]
    show walkLockedLoop lib path .expectedPrefix rr (w.frame e t (tail ++ rest)) = _
    rw [ih hle rfl rfl hexp', WalkState.frame_after htail]

/-- The walk to an expected prefix stops where it has reached it. -/
theorem walkLockedLoop_stops (hexp : w.expected.expected = some expected)
    (hle : expected.physicalTail ≤ w.scan.physicalTail) :
    walkLockedLoop lib path .expectedPrefix rr w =
      w.finish path rr none (w.expected.verdict w.scan) := by
  rw [walkLockedLoop_eq, if_pos rfl, PrefixTracker.verdictBeforeRead, hexp, Option.bind_some,
    if_pos hle]

/-! ## The walks -/

theorem requireRetainedLength_ok {retained : Option LogTailBinding} :
    requireRetainedLength bytes retained = .ok () ↔
      ∀ tail ∈ retained, tail.physicalTail ≤ bytes.length := by
  rw [requireRetainedLength, refuseIf_eq_ok]
  cases retained <;> simp

/-- What a plain walk that succeeds is made of. -/
theorem walkLocked_ok {f : LogFile} {request : WalkRequest} :
    walkLocked lib f bytes request = .ok walked ↔
      ∃ authority tracker rest, bytes = fileHeader ++ rest ∧
        RetentionAuthority.load lib f = .ok authority ∧
        expectedTracker lib f authority request.expectedPrefix = .ok tracker ∧
        (∀ tail ∈ retainedBinding f authority, tail.physicalTail ≤ bytes.length) ∧
        walkLockedLoop lib f.canonical request.boundary
          (decide (request.boundary = .physicalEof) ||
            (retainedBinding f authority).any fun tail => request.expectedPrefix.any fun e =>
              decide (tail.physicalTail ≤ e.physicalTail))
          (walkStart (freshState authority) bytes tracker
            (.new (retainedBinding f authority) f.canonical)) = .ok walked := by
  simp only [walkLocked, bind_eq_ok]
  constructor
  · rintro ⟨_, hheader, authority, hload, tracker, htracker, _, hlength, hloop⟩
    obtain ⟨rest, rfl⟩ := verifyFileHeader_ok.mp hheader
    exact ⟨authority, tracker, rest, rfl, hload, htracker, requireRetainedLength_ok.mp hlength, hloop⟩
  · rintro ⟨authority, tracker, rest, rfl, hload, htracker, hlength, hloop⟩
    exact ⟨(), verifyFileHeader_ok.mpr ⟨rest, rfl⟩, authority, hload, tracker, htracker, (),
      requireRetainedLength_ok.mpr hlength, hloop⟩

end PredictionEdge.EventLog
