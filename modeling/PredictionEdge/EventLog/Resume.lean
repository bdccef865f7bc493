import PredictionEdge.EventLog.System
import PredictionEdge.EventLog.StandIn

/-!
# Resuming a walk from a checkpoint

A walk that starts from a tail binding instead of the beginning of the log: it reads the
frames behind the binding and takes over the digest of what lies before. Where the full walk
passes the binding and the log's retention authority authenticates it, the resumed walk ends
as the full one does, and a verified open from such a checkpoint is a verified open.
-/

namespace PredictionEdge.EventLog

open Lib

variable {lib : Libraries} {f : LogFile} {bytes : Bytes} {s t u : ScanState} {raw rest : Bytes}
  {items : List (ScanState × EventEnvelope)}

/-! ## A walk as a reading -/

variable {walked : Walked} {binding : LogTailBinding} {raw₁ digest digest' : Bytes} {f' : LogFile}
  {path : String}

/-- **A hashed walk succeeds exactly when its input is whole frames and an end**, and its
result is told by them. -/
theorem walkHashedLoop_start {rr : Bool} {input : Bytes} {expected retention : PrefixTracker} :
    walkHashedLoop lib path rr digest (walkStart s input expected retention) = .ok (walked, digest') ↔
      ∃ raw rest items t tail, input.drop s.physicalTail = raw ++ rest ∧ Frames lib s raw items t ∧
        Ends lib t rest tail ∧ digest' = digest ++ raw ∧
        (rr = true → ((retention.observeAll (passed items t)).verdict t).requireRetained = .ok ()) ∧
        walked = ⟨⟨tailBinding path t, tail⟩, (expected.observeAll (passed items t)).verdict t,
          shown items⟩ := by
  constructor
  · intro h
    obtain ⟨raw, rest, items, t, tail, hin, hframes, hends, hdigest, hfin⟩ := walkHashedLoop_ok h
    have hframes' : Frames lib s raw items t := hframes
    rw [walkStart_after hframes'] at hfin
    obtain ⟨hret, hwalked⟩ := WalkState.finish_ok.mp hfin
    exact ⟨raw, rest, items, t, tail, hin, hframes', hends, hdigest, hret, hwalked⟩
  · rintro ⟨raw, rest, items, t, tail, hin, hframes, hends, rfl, hret, rfl⟩
    rw [walkHashedLoop_frames hframes rfl hin, walkStart_after hframes, walkHashedLoop_ends hends rfl rfl,
      map_eq_ok]
    exact ⟨_, WalkState.finish_ok.mpr ⟨hret, rfl⟩, rfl⟩

variable {tail : Option IncompleteTail} {raw₂ : Bytes}

/-- Where a reading ends, no frame begins. -/
theorem Ends.not_framed (h : Ends lib s rest tail) (hframes : Frames lib s raw items t)
    {more : Bytes} (hrest : rest = raw ++ more) : raw = [] ∧ items = [] ∧ s = t := by
  cases hframes with
  | nil => exact ⟨rfl, rfl, rfl⟩
  | cons hfirst _ =>
    unfold Ends at h
    rw [hrest, List.append_assoc, hfirst.read] at h
    cases tail with
    | none | some _ => simp at h

variable {items₁ items₂ : List (ScanState × EventEnvelope)} {bound : Option Nat}

/-- **A reading to the end goes on from every state that is reached in the input.** -/
theorem Ends.goes_on {rest₁ : Bytes} (h : Ends lib t rest tail) (hframes : Frames lib s raw items t)
    (hframes₁ : Frames lib s raw₁ items₁ u) (heq : raw ++ rest = raw₁ ++ rest₁) :
    ∃ raw₂ items₂, raw = raw₁ ++ raw₂ ∧ items = items₁ ++ items₂ ∧ Frames lib u raw₂ items₂ t ∧
      rest₁ = raw₂ ++ rest := by
  rcases hframes.compare (verifiedFrame_prefixFree lib) hframes₁ heq with
    ⟨more, added, rfl, rfl, hmore⟩ | ⟨more, added, rfl, rfl, hmore⟩
  · rw [List.append_assoc] at heq
    obtain ⟨rfl, rfl, rfl⟩ := h.not_framed hmore (List.append_cancel_left heq)
    refine ⟨[], [], by simp, by simp, .nil _, ?_⟩
    exact (List.append_cancel_left heq).symm
  · rw [List.append_assoc] at heq
    exact ⟨more, added, rfl, rfl, hmore, (List.append_cancel_left heq).symm⟩

/-! ## The states of a walk by their position -/

theorem Frames.item_lt (h : Frames lib s raw items t) {i : ScanState × EventEnvelope} (hi : i ∈ items) :
    s.physicalTail ≤ i.1.physicalTail ∧ i.1.physicalTail < t.physicalTail := by
  induction h with
  | nil => simp at hi
  | @cons s t v raw rest e items hfirst hrest ih =>
    have hlt := hfirst.lt_physicalTail
    have htail := Frames.physicalTail_eq hrest
    rcases List.mem_cons.mp hi with rfl | hi
    · show s.physicalTail ≤ s.physicalTail ∧ s.physicalTail < v.physicalTail
      omega
    · obtain ⟨hle, hlt'⟩ := ih hi
      exact ⟨by omega, hlt'⟩

/-- What is shown from a state on is what is shown at its position or behind it. -/
theorem Frames.shown_filter (h₁ : Frames lib s raw₁ items₁ u) (h₂ : Frames lib u raw₂ items₂ t) :
    (shown (items₁ ++ items₂)).filter (fun p => u.physicalTail ≤ p.1) = shown items₂ := by
  rw [shown_append, List.filter_append, List.filter_eq_nil_iff.mpr, List.nil_append,
    List.filter_eq_self.mpr]
  · intro p hp
    obtain ⟨i, hi, rfl⟩ := List.mem_map.mp hp
    exact decide_eq_true (h₂.item_lt hi).1
  · intro p hp
    obtain ⟨i, hi, rfl⟩ := List.mem_map.mp hp
    simpa using (h₁.item_lt hi).2

/-- What is shown before a state is what is shown in front of its position. -/
theorem Frames.shown_filter_lt (h₁ : Frames lib s raw₁ items₁ u) (h₂ : Frames lib u raw₂ items₂ t) :
    (shown (items₁ ++ items₂)).filter (fun p => p.1 < u.physicalTail) = shown items₁ := by
  rw [shown_append, List.filter_append, List.filter_eq_self.mpr, List.filter_eq_nil_iff.mpr,
    List.append_nil]
  · intro p hp
    obtain ⟨i, hi, rfl⟩ := List.mem_map.mp hp
    simpa using (h₂.item_lt hi).1
  · intro p hp
    obtain ⟨i, hi, rfl⟩ := List.mem_map.mp hp
    exact decide_eq_true (h₁.item_lt hi).2

/-- A state passed at a position behind `u` is passed from `u` on. -/
theorem Frames.mem_passed_right (h₁ : Frames lib s raw₁ items₁ u) {v : ScanState}
    (hv : v ∈ passed (items₁ ++ items₂) t) (hle : u.physicalTail ≤ v.physicalTail) :
    v ∈ passed items₂ t := by
  rw [passed, List.map_append, List.append_assoc, List.mem_append] at hv
  rcases hv with hv | hv
  · obtain ⟨i, hi, rfl⟩ := List.mem_map.mp hv
    have := (h₁.item_lt hi).2
    omega
  · exact hv

/-- A frame was read in front of every state that is not the first one. -/
theorem Frames.nextSequence_lt_of_lt (h : Frames lib s raw items t)
    (hlt : s.physicalTail < t.physicalTail) : t.nextSequence < 2 ^ 64 := by
  rcases h.eq_nil_or_snoc with ⟨_, _, rfl⟩ | ⟨u, front, frame, e, init, _, _, _, hlast⟩
  · omega
  · exact hlast.nextSequence_lt

/-! ## Bindings to resume from -/

/-- The authority beside the log, if there is one, authenticates the binding. -/
def Authenticated (lib : Libraries) (f : LogFile) (binding : LogTailBinding) : Prop :=
  ∀ a, RetentionAuthority.load lib f = .ok (some a) → a.authenticateBinding lib f binding = .ok ()

/-- The full walk of the log passes the state. -/
def Passes (lib : Libraries) (f : LogFile) (bytes : Bytes) (bound : Option Nat) (u : ScanState) : Prop :=
  ∃ authority raw rest items, RetentionAuthority.load lib f = .ok authority ∧
    (bounded bytes bound).drop (freshState authority).physicalTail = raw ++ rest ∧
    Frames lib (freshState authority) raw items u

/-- A pinned binding ends a frame that was read, so a sequence follows it. -/
theorem authenticateBinding_lt {a : RetentionAuthority}
    (h : a.authenticateBinding lib f (tailBinding path u) = .ok ())
    (hle : u.physicalTail ≤ a.boundary.offset) : u.nextSequence < 2 ^ 64 := by
  rcases RetentionAuthority.authenticateBinding_ok.mp h with hlt | ⟨pin, e, hpin, _, _, hverify⟩
  · exact absurd hlt (not_lt.mpr hle)
  · by_cases hzero : u.nextSequence = 0
    · omega
    · simp only [tailBinding, ScanState.lastSequence, if_neg hzero, Option.bind_some] at hpin
      have hseq : pin.sequence = ⟨u.nextSequence - 1⟩ := by
        simpa using List.find?_some hpin
      obtain ⟨hread, _⟩ := RetentionAuthority.verifyPin_ok.mp hverify
      obtain ⟨_, _, _, _, _, hframe, _⟩ := readAt_ok.mp hread
      obtain ⟨_, _, _, _, hover, _⟩ := readVerifiedFrame_ok hframe
      rw [hseq] at hover
      have hover' : u.nextSequence - 1 + 1 < 2 ^ 64 := hover
      omega

/-- **A binding of a passed state resumes in that state.** -/
theorem resumeState_tail (hlt : u.nextSequence < 2 ^ 64)
    (hbound : ∀ b ∈ bound, u.physicalTail ≤ b) :
    resumeState f bound (tailBinding f.canonical u) = .ok u := by
  have hany : ¬ (bound.any fun b => decide (b < u.physicalTail)) = true := by
    cases bound with
    | none => simp
    | some b => simpa using hbound b rfl
  simp only [resumeState, bind_eq_ok, refuseIf_eq_ok]
  refine ⟨(), hany, (), not_not.mpr rfl, ?_⟩
  simp only [tailBinding, ScanState.lastSequence]
  by_cases hzero : u.nextSequence = 0
  · simp only [if_pos hzero, ScanState.atFrame, pure_eq_ok]
    rw [← hzero]
  · have hback : u.nextSequence - 1 + 1 = u.nextSequence := by omega
    simp only [if_neg hzero, ScanState.atFrame, hback, bind_eq_ok, refuseIf_eq_ok]
    exact ⟨(), not_le.mpr hlt, rfl⟩

variable {authority : Option RetentionAuthority} {expected : Option LogTailBinding}

theorem authenticateWalk_resume (h : authenticateWalk lib f authority expected none = .ok ())
    (hauth : ∀ a, authority = some a → a.authenticateBinding lib f binding = .ok () ∧
      a.boundary.offset ≤ binding.physicalTail) :
    authenticateWalk lib f authority expected (some binding) = .ok () := by
  cases authority with
  | none => rfl
  | some a =>
    obtain ⟨hbinding, hle⟩ := hauth a rfl
    simp only [authenticateWalk, Option.elim_some, Option.elim_none, bind_eq_ok,
      refuseIf_eq_ok, not_lt] at h ⊢
    obtain ⟨u, hexpected, _⟩ := h
    exact ⟨u, hexpected, (), hbinding, hle⟩

/-! ## The digest of what lies before -/

theorem take_bounded {m : Nat} (h : ∀ b ∈ bound, m ≤ b) :
    (bounded bytes bound).take m = bytes.take m := by
  cases bound with
  | none => rfl
  | some b => rw [bounded, List.take_take, Nat.min_eq_left (h b rfl)]

theorem length_bounded_le : (bounded bytes bound).length ≤ bytes.length := by
  cases bound with
  | none => exact le_refl _
  | some b => exact List.length_take_le' b bytes

/-- What a fresh hashed walk feeds its hasher before the first frame. -/
def freshDigest (authority : Option RetentionAuthority) : Bytes :=
  if authority.isNone then fileHeader else []

/-- **The bytes before a passed state are those the walk has hashed up to it.** -/
theorem hashOpenPrefix_passed {body : Bytes} (hload : RetentionAuthority.load lib f = .ok authority)
    (hheader : bounded bytes bound = fileHeader ++ body)
    (hin : (bounded bytes bound).drop (freshState authority).physicalTail = raw ++ rest)
    (hframes : Frames lib (freshState authority) raw items u)
    (hbound : ∀ b ∈ bound, u.physicalTail ≤ b) :
    hashOpenPrefix lib f bytes u.physicalTail = .ok (freshDigest authority ++ raw) := by
  have htail := Frames.physicalTail_eq hframes
  have hle : (bounded bytes bound).length ≤ bytes.length := length_bounded_le
  have hlen := congrArg List.length hin
  rw [List.length_drop, List.length_append] at hlen
  simp only [hashOpenPrefix, hload, ok_bind, bind_eq_ok, refuseIf_eq_ok, pure_eq_ok]
  rw [← take_bounded hbound]
  cases authority with
  | none =>
    have hstart : (freshState none).physicalTail = fileHeader.length := rfl
    have hbody : body = raw ++ rest := by
      rw [hstart, hheader, List.drop_left] at hin
      exact hin
    have hcount := congrArg List.length hheader
    rw [List.length_append, hbody, List.length_append] at hcount
    dsimp only
    refine ⟨(), by omega, (), by omega, ?_⟩
    rw [List.drop_zero, htail, hstart, hheader, hbody, ← List.append_assoc]
    exact List.take_left' (by rw [List.length_append])
  | some a =>
    have hstart : (freshState (some a)).physicalTail = a.boundary.offset := rfl
    rw [hstart] at htail hin hlen
    dsimp only
    refine ⟨(), by omega, (), by omega, ?_⟩
    rw [List.drop_take, htail, Nat.add_sub_cancel_left, hin]
    exact List.take_left

/-! ## The resumed walk -/

/-- A tracker that takes the binding as met accepts what one that has met it accepts. -/
theorem PrefixTracker.verdict_taken {p q : PrefixTracker} {last last' : ScanState}
    (hexpected : q.expected = p.expected) (hsame : q.sameFile = p.sameFile) (hmatched : q.matched = true)
    (h : p.verdict last = .notRequested ∨ p.verdict last = .matched) :
    q.verdict last' = p.verdict last := by
  have hmet := (p.verdict_accepted last).mp h
  unfold verdict
  rw [hexpected, hsame, hmatched]
  cases he : p.expected with
  | none => rfl
  | some e =>
    obtain ⟨hfile, hp⟩ := hmet e he
    simp [hfile, hp]

/-- A resumed walk takes the prefix as matched, so it accepts what the full walk accepts. -/
theorem verdict_resumed {states states' : List ScanState} {last last' : ScanState}
    (h : (((hashedTracker f authority expected none).observeAll states).verdict last).requireMatch =
      .ok ()) :
    ((hashedTracker f authority expected (some binding)).observeAll states').verdict last' =
      ((hashedTracker f authority expected none).observeAll states).verdict last := by
  rw [PrefixVerdict.requireMatch_ok, PrefixTracker.observeAll_eq] at h
  rw [PrefixTracker.observeAll_eq, PrefixTracker.observeAll_eq]
  refine PrefixTracker.verdict_taken ?_ ?_ ?_ h
  · simp only [hashedTracker]
    split <;> split <;> rfl
  · simp only [hashedTracker]
    split <;> split <;> rfl
  · simp [hashedTracker]

/-- A resumed walk reaches the retained tail when the full walk does: it is authenticated
behind it, or the tail is met among the states it passes. -/
theorem retention_resumed (h₁ : Frames lib s raw₁ items₁ u)
    (h : (((hashedRetention f authority none).observeAll (passed (items₁ ++ items₂) t)).verdict
      t).requireRetained = .ok ()) :
    (((hashedRetention f authority (some (tailBinding f.canonical u))).observeAll
      (passed items₂ t)).verdict t).requireRetained = .ok () := by
  have hfull : hashedRetention f authority none = .new (retainedBinding f authority) f.canonical := rfl
  rw [PrefixVerdict.requireRetained_ok, hfull, PrefixTracker.accepted_iff] at h
  rw [PrefixVerdict.requireRetained_ok]
  cases hret : retainedBinding f authority with
  | none =>
    refine (PrefixTracker.verdict_accepted _ _).mpr fun e he => ?_
    simp [hashedRetention, hret, PrefixTracker.new] at he
  | some tail =>
    obtain ⟨v, hv, rfl⟩ := h tail hret
    by_cases hlt : v.physicalTail < u.physicalTail
    · refine (PrefixTracker.verdict_accepted _ _).mpr fun e _ => ?_
      rw [PrefixTracker.observeAll_eq]
      simp [hashedRetention, hret, PrefixTracker.new, tailBinding, hlt]
    · have hresumed : hashedRetention f authority (some (tailBinding f.canonical u)) =
          .new (retainedBinding f authority) f.canonical := by
        unfold hashedRetention
        rw [hret]
        exact if_neg (by simpa [tailBinding] using hlt)
      rw [hresumed, PrefixTracker.accepted_iff, hret]
      rintro e ⟨⟩
      exact ⟨v, h₁.mem_passed_right hv (not_lt.mp hlt), rfl⟩

/-- What a full hashed walk that succeeds is made of. -/
theorem walkHashed_fresh :
    walkHashed lib f bytes expected none bound digest = .ok (walked, digest') ↔
      ∃ authority body, RetentionAuthority.load lib f = .ok authority ∧
        authenticateWalk lib f authority expected none = .ok () ∧
        bounded bytes bound = fileHeader ++ body ∧
        (∀ tail ∈ retainedBinding f authority, tail.physicalTail ≤ bytes.length) ∧
        walkHashedLoop lib f.canonical
          ((retainedBinding f authority).any fun tail => bound.all fun b => decide (tail.physicalTail ≤ b))
          (freshDigest authority) (walkStart (freshState authority) (bounded bytes bound)
            (hashedTracker f authority expected none) (hashedRetention f authority none)) =
          .ok (walked, digest') := by
  simp only [walkHashed, walkHashedStart, bind_eq_ok, pure_eq_ok]
  constructor
  · rintro ⟨authority, hload, _, hwalk, _, ⟨_, hheader, rfl⟩, _, hlen, hloop⟩
    obtain ⟨body, hbody⟩ := verifyFileHeader_ok.mp hheader
    exact ⟨authority, body, hload, hwalk, hbody, requireRetainedLength_ok.mp hlen, hloop⟩
  · rintro ⟨authority, body, hload, hwalk, hbody, hlen, hloop⟩
    exact ⟨authority, hload, (), hwalk, _, ⟨(), verifyFileHeader_ok.mpr ⟨body, hbody⟩, rfl⟩, (),
      requireRetainedLength_ok.mpr hlen, hloop⟩

/-- A binding of a passed state starts a walk there. -/
theorem resume_start (hload : RetentionAuthority.load lib f = .ok authority)
    (hframes : Frames lib (freshState authority) raw items u)
    (hauth : Authenticated lib f (tailBinding f.canonical u))
    (hbound : ∀ b ∈ bound, u.physicalTail ≤ b) :
    resumeState f bound (tailBinding f.canonical u) = .ok u := by
  refine resumeState_tail ?_ hbound
  cases authority with
  | none => exact Frames.nextSequence_lt hframes (by decide)
  | some a =>
    by_cases hlt : a.boundary.offset < u.physicalTail
    · exact Frames.nextSequence_lt_of_lt hframes hlt
    · exact authenticateBinding_lt (hauth a hload) (not_lt.mp hlt)

/--
**A walk resumed from a state the full walk passes ends as the full walk does**: with the
same outcome, verdict and digest, having shown the frames from that state on.
-/
theorem walkHashed_resumed
    (hfull : walkHashed lib f bytes expected none bound digest = .ok (walked, digest'))
    (haccepted : walked.verdict.requireMatch = .ok ()) (hpasses : Passes lib f bytes bound u)
    (hbound : ∀ b ∈ bound, u.physicalTail ≤ b)
    (hauth : Authenticated lib f (tailBinding f.canonical u)) :
    ∃ before, hashOpenPrefix lib f bytes u.physicalTail = .ok before ∧
      walkHashed lib f bytes expected (some (tailBinding f.canonical u)) bound before =
        .ok (⟨walked.outcome, walked.verdict, walked.seen.filter fun p => u.physicalTail ≤ p.1⟩,
          digest') := by
  obtain ⟨authority, body, hload, hwalk, hbody, hlen, hloop⟩ := walkHashed_fresh.mp hfull
  obtain ⟨raw, rest, items, t, tail, hin, hframes, hends, rfl, hret, rfl⟩ :=
    walkHashedLoop_start.mp hloop
  obtain ⟨authority', raw₁, rest₁, items₁, hload', hin₁, hframes₁⟩ := hpasses
  obtain rfl : authority' = authority := by
    rw [hload] at hload'
    exact (Except.ok.inj hload').symm
  obtain ⟨raw₂, items₂, rfl, rfl, hframes₂, rfl⟩ := hends.goes_on hframes hframes₁ (hin.symm.trans hin₁)
  have htail := Frames.physicalTail_eq hframes₁
  refine ⟨freshDigest authority' ++ raw₁, hashOpenPrefix_passed hload hbody hin₁ hframes₁ hbound, ?_⟩
  have hwalk' : authenticateWalk lib f authority' expected (some (tailBinding f.canonical u)) = .ok () := by
    refine authenticateWalk_resume hwalk fun a ha => ?_
    subst ha
    refine ⟨hauth a hload, ?_⟩
    show (freshState (some a)).physicalTail ≤ u.physicalTail
    omega
  simp only [walkHashed, walkHashedStart, bind_eq_ok, map_eq_ok]
  refine ⟨authority', hload, (), hwalk', _, ⟨u, resume_start hload hframes₁ hauth hbound, rfl⟩, (),
    requireRetainedLength_ok.mpr hlen, ?_⟩
  refine walkHashedLoop_start.mpr ⟨raw₂, rest, items₂, t, tail, ?_, hframes₂, hends, ?_, ?_, ?_⟩
  · rw [htail, ← List.drop_drop, hin₁, List.drop_left]
  · rw [List.append_assoc]
  · intro hrr
    exact retention_resumed hframes₁ (hret hrr)
  · rw [verdict_resumed haccepted, Frames.shown_filter hframes₁ hframes₂]

/-! ## Verified opens -/

/-- The plain walk and the hashed walk check the expected prefix alike. -/
theorem expectedTracker_hashed {tracker : PrefixTracker}
    (h : expectedTracker lib f authority expected = .ok tracker) :
    tracker = hashedTracker f authority expected none ∧
      authenticateWalk lib f authority expected none = .ok () := by
  unfold expectedTracker at h
  split at h
  · rename_i a e
    obtain ⟨_, hauth, rfl⟩ := map_eq_ok.mp h
    refine ⟨?_, ?_⟩
    · by_cases hle : e.physicalTail ≤ a.boundary.offset
      · simp [hashedTracker, hle]
      · simp [hashedTracker, hle, PrefixTracker.new]
    · simp only [authenticateWalk, Option.elim_some, Option.elim_none, bind_eq_ok]
      exact ⟨_, hauth, trivial⟩
  · rename_i hnone
    obtain rfl := Except.ok.inj h
    cases authority with
    | none => exact ⟨by simp [hashedTracker], rfl⟩
    | some a =>
      cases expected with
      | none => exact ⟨by simp [hashedTracker], rfl⟩
      | some e => exact absurd rfl (hnone a e rfl)

/-- **The plain walk to the end is the hashed walk without its digest.** -/
theorem walkLocked_hashed (h : walkLocked lib f bytes ⟨expected, .physicalEof⟩ = .ok walked)
    (digest : Bytes) :
    ∃ digest', walkHashed lib f bytes expected none none digest = .ok (walked, digest') := by
  obtain ⟨authority, tracker, rest, rfl, hload, htracker, hlen, hloop⟩ := walkLocked_ok.mp h
  obtain ⟨rfl, hwalk⟩ := expectedTracker_hashed htracker
  rw [walkLockedLoop_physicalEof (freshDigest authority), map_eq_ok] at hloop
  obtain ⟨⟨walked', digest'⟩, hloop, rfl⟩ := hloop
  obtain ⟨raw, rest', items, t, tail, hin, hframes, hends, hdigest, hret, hwalked⟩ :=
    walkHashedLoop_start.mp hloop
  refine ⟨digest', walkHashed_fresh.mpr ⟨authority, rest, hload, hwalk, rfl, hlen, ?_⟩⟩
  exact walkHashedLoop_start.mpr ⟨raw, rest', items, t, tail, hin, hframes, hends, hdigest,
    fun _ => hret rfl, hwalked⟩

/-- A verified open accepts only a prefix that the walk accepts. -/
theorem finishVerifiedOpen_ok {scan : ScanOutcome} {verdict : PrefixVerdict} {has : Bool}
    {r : Writer × LogTailBinding} (h : finishVerifiedOpen f bytes scan verdict has = (.ok r, f')) :
    verdict.requireMatch = .ok () := by
  unfold finishVerifiedOpen at h
  dsimp only at h
  split at h
  · simp at h
  · rename_i hrefused
    split at hrefused
    · obtain ⟨_, _, hmatch⟩ := bind_eq_ok.mp hrefused
      exact hmatch
    · exact hrefused

variable {seen : List (Nat × EventEnvelope)}

theorem openVerified_ok {expected : LogTailBinding} {w : Writer} (hbytes : f.bytes = some bytes)
    (h : openVerified lib f (some expected) = (.ok (w, binding, seen), f')) :
    f.locked = false ∧ ∃ walked, walkLocked lib f bytes ⟨some expected, .physicalEof⟩ = .ok walked ∧
      finishVerifiedOpen f bytes walked.outcome walked.verdict true = (.ok (w, binding), f') ∧
      walked.seen = seen := by
  unfold openVerified at h
  rw [hbytes] at h
  dsimp only at h
  split at h
  · simp at h
  rename_i hlocked
  split at h
  · simp at h
  refine ⟨by simpa using hlocked, ?_⟩
  split at h
  · simp at h
  · rename_i walked hwalk
    split at h
    · simp at h
    · rename_i w' binding' f'' hfin
      obtain ⟨⟨rfl, rfl, rfl⟩, rfl⟩ := h
      exact ⟨walked, hwalk, hfin, rfl⟩

/-- The checkpoint of a passed state with the digest of what lies before is resumed from,
unless the expected prefix lies behind it. -/
theorem checkpointResume_passed (expected : LogTailBinding) {before : Bytes} (digest : Bytes)
    (hle : (freshState authority).physicalTail ≤ u.physicalTail)
    (hbefore : hashOpenPrefix lib f bytes u.physicalTail = .ok before) :
    checkpointResume lib f bytes authority expected
      (some (tailBinding f.canonical u, (lib.blake3 before).toHex)) .verify digest =
      if expected.physicalTail ≤ u.physicalTail then some (tailBinding f.canonical u, before)
      else none := by
  have hboundary : ¬ (authority.any fun a => decide (u.physicalTail < a.boundary.offset)) = true := by
    cases authority with
    | none => simp
    | some a =>
      have hle' : a.boundary.offset ≤ u.physicalTail := hle
      simpa using hle'
  simp only [checkpointResume, tailBinding, Option.bind_some, hbefore]
  by_cases hexp : expected.physicalTail ≤ u.physicalTail
  · rw [if_pos hexp, if_neg, if_neg (by simp)]
    rintro (h | h | h)
    · exact h rfl
    · omega
    · exact hboundary h
  · rw [if_neg hexp, if_pos (.inr (.inl (not_le.mp hexp)))]

/-- Past the authority a verified open walks the log from its checkpoint, if that is usable. -/
theorem checkpointWalk_eq {expected : LogTailBinding} {checkpoint : Option (LogTailBinding × String)}
    (hload : RetentionAuthority.load lib f = .ok authority)
    (hwalk : authenticateWalk lib f authority (some expected) none = .ok ()) :
    checkpointWalk lib f bytes expected checkpoint .verify digest =
      match checkpointResume lib f bytes authority expected checkpoint .verify digest with
      | none => (walkHashed lib f bytes (some expected) none none digest).map fun r => (false, r)
      | some (tail, before) => verifyFileHeader f.path bytes >>= fun _ =>
        (walkHashed lib f bytes (some expected) (some tail) none before).map fun r => (true, r) := by
  unfold checkpointWalk
  rw [hload, ok_bind]
  cases authority with
  | none => rfl
  | some a =>
    simp only [authenticateWalk, Option.elim_some, Option.elim_none, bind_eq_ok] at hwalk
    obtain ⟨_, hauth, _⟩ := hwalk
    simp only [hauth, ok_bind]
    rfl

/-- **A verified open from a checkpoint opens what a verified open opens.** -/
theorem openVerifiedCheckpoint_resumed (hbytes : f.bytes = some bytes) {expected : LogTailBinding}
    {w : Writer} (hopen : openVerified lib f (some expected) = (.ok (w, binding, seen), f'))
    (hpasses : Passes lib f bytes none u) (hauth : Authenticated lib f (tailBinding f.canonical u))
    (digest : Bytes) :
    ∃ before digest' seen', hashOpenPrefix lib f bytes u.physicalTail = .ok before ∧
      openVerifiedCheckpoint lib f expected
        (some (tailBinding f.canonical u, (lib.blake3 before).toHex)) .verify digest =
        (.ok ⟨w, binding, decide (expected.physicalTail ≤ u.physicalTail), false, digest', seen'⟩, f') := by
  obtain ⟨hlocked, walked, hwalked, hfin, rfl⟩ := openVerified_ok hbytes hopen
  have haccepted := finishVerifiedOpen_ok hfin
  obtain ⟨digest', hfull⟩ := walkLocked_hashed hwalked digest
  obtain ⟨authority, body, hload, hwalk, hheader, _⟩ := walkHashed_fresh.mp hfull
  obtain ⟨before, hbefore, hresumed⟩ :=
    walkHashed_resumed hfull haccepted hpasses (fun b hb => absurd hb (by simp)) hauth
  have hle : (freshState authority).physicalTail ≤ u.physicalTail := by
    obtain ⟨authority', raw, rest, items, hload', _, hframes⟩ := hpasses
    rw [hload] at hload'
    obtain rfl := Except.ok.inj hload'
    rw [Frames.physicalTail_eq hframes]
    omega
  have hresume := checkpointResume_passed expected digest hle hbefore
  refine ⟨before, ?_⟩
  unfold openVerifiedCheckpoint
  rw [hbytes]
  simp only [hlocked, Bool.false_eq_true, if_false]
  by_cases hexp : expected.physicalTail ≤ u.physicalTail
  · rw [if_pos hexp] at hresume
    have hverify : verifyFileHeader f.path bytes = .ok () := verifyFileHeader_ok.mpr ⟨body, hheader⟩
    refine ⟨digest', walked.seen.filter fun p => u.physicalTail ≤ p.1, hbefore, ?_⟩
    rw [checkpointWalk_eq hload hwalk, hresume]
    simp only [hverify, ok_bind, hresumed, Except.map, hfin, hexp, decide_true, Bool.true_and]
    rfl
  · rw [if_neg hexp] at hresume
    refine ⟨digest', walked.seen, hbefore, ?_⟩
    rw [checkpointWalk_eq hload hwalk, hresume]
    simp only [hfull, Except.map, hfin, hexp, decide_false, Bool.false_and]

/--
**Resuming from a checkpoint is walking the whole log.**

Take a state that the full walk of a log passes and whose binding the log's retention
authority, if it has one, authenticates. A hashed walk resumed there, with the digest of the
bytes before, ends with the outcome, the verdict and the digest of the full walk and shows
the frames the full walk shows from there on, wherever the full walk accepts its expected
prefix. So a verifying open from that checkpoint returns the writer, the binding and the
file of a verified open.
-/
theorem checkpoint_equivalent (hbytes : f.bytes = some bytes)
    (hauth : Authenticated lib f (tailBinding f.canonical u)) :
    (∀ expected bound digest digest' walked, Passes lib f bytes bound u →
      (∀ b ∈ bound, u.physicalTail ≤ b) →
      walkHashed lib f bytes expected none bound digest = .ok (walked, digest') →
      walked.verdict.requireMatch = .ok () →
      ∃ before, hashOpenPrefix lib f bytes u.physicalTail = .ok before ∧
        walkHashed lib f bytes expected (some (tailBinding f.canonical u)) bound before =
          .ok (⟨walked.outcome, walked.verdict, walked.seen.filter fun p => u.physicalTail ≤ p.1⟩,
            digest')) ∧
    ∀ expected w binding seen f', Passes lib f bytes none u →
      openVerified lib f (some expected) = (.ok (w, binding, seen), f') →
      ∀ digest, ∃ before digest' seen', hashOpenPrefix lib f bytes u.physicalTail = .ok before ∧
        openVerifiedCheckpoint lib f expected
          (some (tailBinding f.canonical u, (lib.blake3 before).toHex)) .verify digest =
          (.ok ⟨w, binding, decide (expected.physicalTail ≤ u.physicalTail), false, digest', seen'⟩,
            f') := by
  refine ⟨?_, ?_⟩
  · intro expected bound digest digest' walked hpasses hbound hfull haccepted
    exact walkHashed_resumed hfull haccepted hpasses hbound hauth
  · intro expected w binding seen f' hpasses hopen digest
    exact openVerifiedCheckpoint_resumed hbytes hopen hpasses hauth digest

/-- Two events in a new log. -/
def twoEvents : LogFile :=
  ((Log.created (.missing "log")).run StandIn.libraries
    [.append (StandIn.event 1), .append (StandIn.event 2), .close]).file

/-- The log of two events, resumed after the first one. -/
theorem twoEvents_resumed :
    ∃ bytes u before walked digest w binding seen f', twoEvents.bytes = some bytes ∧
      Passes StandIn.libraries twoEvents bytes none u ∧
      walkHashed StandIn.libraries twoEvents bytes none none none [] = .ok (walked, digest) ∧
      walkHashed StandIn.libraries twoEvents bytes none (some (tailBinding twoEvents.canonical u)) none
        before =
        .ok (⟨walked.outcome, walked.verdict, walked.seen.filter fun p => u.physicalTail ≤ p.1⟩,
          digest) ∧
      openVerified StandIn.libraries twoEvents (some (tailBinding "log" .afterHeader)) =
        (.ok (w, binding, seen), f') ∧
      ∃ digest' seen', openVerifiedCheckpoint StandIn.libraries twoEvents
        (tailBinding "log" .afterHeader)
        (some (tailBinding twoEvents.canonical u, (StandIn.digest before).toHex))
        .verify [] = (.ok ⟨w, binding, true, false, digest', seen'⟩, f') := by
  obtain ⟨bytes, hbytes, hchecks⟩ := (Option.any_eq_true _ _).mp (show twoEvents.bytes.any (fun bytes =>
    ((walkHashed StandIn.libraries twoEvents bytes none none none []).toOption.any fun r =>
      decide (r.1.verdict = .notRequested ∧ r.1.seen.length = 2)) &&
    ((openVerified StandIn.libraries twoEvents
      (some (tailBinding "log" .afterHeader))).1.toOption.any fun _ => true) &&
    twoEvents.retention.isNone) = true by decide +kernel)
  obtain ⟨hchecks, hnone⟩ := Bool.and_eq_true_iff.mp hchecks
  obtain ⟨hwalk, hopen⟩ := Bool.and_eq_true_iff.mp hchecks
  obtain ⟨⟨walked, digest⟩, hfull, hwalked⟩ := exists_ok_of_any hwalk
  obtain ⟨⟨w, binding, seen⟩, hok, _⟩ := exists_ok_of_any hopen
  obtain ⟨hverdict, hseen⟩ := of_decide_eq_true hwalked
  have hopened : openVerified StandIn.libraries twoEvents (some (tailBinding "log" .afterHeader)) =
      (.ok (w, binding, seen), (openVerified StandIn.libraries twoEvents
        (some (tailBinding "log" .afterHeader))).2) := by
    rw [← hok]
  have hload : RetentionAuthority.load StandIn.libraries twoEvents = .ok none :=
    load_none (Option.isNone_iff_eq_none.mp hnone)
  -- the state after the first of the two frames
  have hpasses : ∃ u, Passes StandIn.libraries twoEvents bytes none u ∧ headerLen ≤ u.physicalTail := by
    obtain ⟨authority, body, hload', _, _, _, hloop⟩ := walkHashed_fresh.mp hfull
    obtain rfl : none = authority := Except.ok.inj (hload.symm.trans hload')
    obtain ⟨raw, rest, items, t, tail, hin, hframes, _, _, _, rfl⟩ := walkHashedLoop_start.mp hloop
    cases hframes with
    | nil => simp [shown] at hseen
    | @cons _ u _ first raw e items hfirst hrest =>
      rw [List.append_assoc] at hin
      exact ⟨u, ⟨none, first, raw ++ rest, _, hload, hin, .single hfirst⟩,
        le_of_lt hfirst.lt_physicalTail⟩
  obtain ⟨u, hpasses, hle⟩ := hpasses
  have hauth : Authenticated StandIn.libraries twoEvents (tailBinding twoEvents.canonical u) := by
    intro a ha
    rw [hload] at ha
    simp at ha
  obtain ⟨hresume, hreopen⟩ := checkpoint_equivalent hbytes hauth
  obtain ⟨before, hbefore, hresumed⟩ := hresume none none [] digest walked hpasses
    (fun b hb => absurd hb (by simp)) hfull (by rw [hverdict]; rfl)
  obtain ⟨before', digest', seen', hbefore', hreopened⟩ := hreopen (tailBinding "log" .afterHeader) w binding
    seen _ hpasses hopened []
  obtain rfl : before = before' := Except.ok.inj (hbefore.symm.trans hbefore')
  refine ⟨bytes, u, before, walked, digest, w, binding, seen, _, hbytes, hpasses, hfull, hresumed,
    hopened, digest', seen', ?_⟩
  rw [decide_eq_true (show (tailBinding "log" .afterHeader).physicalTail ≤ u.physicalTail from hle)]
    at hreopened
  exact hreopened

/-! ## A log with retired bytes -/

/-- An authority that retires what is before a frame, but for the pins. -/
def retiredBefore (frame : Nat × EventEnvelope) (pins : List RetentionPin) (tail : LogTailBinding) :
    RetentionAuthority where
  formatVersion := 1
  epoch := 1
  advancedAt := 0
  boundary := ⟨frame.2.seq, frame.1⟩
  chainHead := frame.2.prevHash
  pins := pins
  retainedTail := ⟨tail.physicalTail, tail.lastSequence, tail.lastHash⟩
  feed := []

/-- The two events, the first of them retired. -/
def retiredLog : LogFile :=
  match walkLocked StandIn.libraries twoEvents (twoEvents.bytes.getD []) ⟨none, .physicalEof⟩ with
  | .ok ⟨outcome, _, [_, second]⟩ =>
    let authority := retiredBefore second [] outcome.verifiedTail
    { twoEvents with
      retention := some (.ok ⟨authority, StandIn.digest (StandIn.authority authority)⟩) }
  | _ => twoEvents

/-- **The boundary itself is passed but not pinned**: the full walk succeeds, and the walk
resumed at the boundary is refused. -/
theorem walkHashed_unpinned :
    ∃ bytes a, retiredLog.bytes = some bytes ∧
      RetentionAuthority.load StandIn.libraries retiredLog = .ok (some a) ∧
      Passes StandIn.libraries retiredLog bytes none (freshState (some a)) ∧
      hashOpenPrefix StandIn.libraries retiredLog bytes (freshState (some a)).physicalTail = .ok [] ∧
      (∃ walked digest, walkHashed StandIn.libraries retiredLog bytes none none none [] =
        .ok (walked, digest)) ∧
      walkHashed StandIn.libraries retiredLog bytes none
        (some (tailBinding retiredLog.canonical (freshState (some a)))) none [] =
          .error (.retentionInvalid "binding is not pinned") := by
  obtain ⟨authority, hload, hchecks⟩ := exists_ok_of_any
    (x := RetentionAuthority.load StandIn.libraries retiredLog) (p := fun o => o.any fun a =>
      retiredLog.bytes.any fun bytes =>
        decide (hashOpenPrefix StandIn.libraries retiredLog bytes
          (freshState (some a)).physicalTail = .ok [] ∧
        ((walkHashed StandIn.libraries retiredLog bytes none none none []).toOption.any
          fun _ => true) = true ∧
        walkHashed StandIn.libraries retiredLog bytes none
          (some (tailBinding retiredLog.canonical (freshState (some a)))) none [] =
            .error (.retentionInvalid "binding is not pinned"))) (by decide +kernel)
  obtain ⟨a, rfl, ha⟩ := (Option.any_eq_true _ _).mp hchecks
  obtain ⟨bytes, hbytes, ha⟩ := (Option.any_eq_true _ _).mp ha
  obtain ⟨hhashed, hfull, hrefused⟩ := of_decide_eq_true ha
  obtain ⟨⟨walked, digest⟩, hfull, _⟩ := exists_ok_of_any hfull
  exact ⟨bytes, a, hbytes, hload, ⟨some a, [], _, [], hload, rfl, .nil _⟩, hhashed,
    ⟨walked, digest, hfull⟩, hrefused⟩

end PredictionEdge.EventLog
