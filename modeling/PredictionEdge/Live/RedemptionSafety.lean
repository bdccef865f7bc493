import PredictionEdge.Live.RedemptionPass

/-!
# No double redemption

A pass starts from the state the journal rebuilds, and the journal is all that survives a crash.
States the reducer reaches in memory only (a failure before the relayer answered, an ambiguity
without a transaction) are not rebuilt: after them the journal still says *reserved*, and only
the signed deadline lets the family be submitted again. So the argument is about the journal:
every record of a family that a pass writes is `Permitted` in the state rebuilt before it.
-/

namespace PredictionEdge

variable {hashes : JournalHashes} {identity : RedemptionAttemptIdentity}
  {journal journal' : List LiveJournalEvent} {event : LiveJournalEvent}

/-! ## The state of one family -/

/-- The state the journal rebuilds for a family. -/
def familyState (identity : RedemptionAttemptIdentity) (journal : List LiveJournalEvent) :
    Option RedemptionAttemptState :=
  ((reconstructRedemptionAttempts journal).get identity).map RedemptionAttempt.state

/-- What one record does to the state of a family. -/
def familyStep (identity : RedemptionAttemptIdentity) (state : Option RedemptionAttemptState)
    (event : LiveJournalEvent) : Option RedemptionAttemptState :=
  match event.payload with
  | .redemptionRequested audit =>
    if audit.identity = identity then
      some (.submissionReserved audit.attemptCount audit.redeemableBalance
        audit.request.requestHash audit.request.deadlineUnix)
    else state
  | .redemptionTransactionIdentified audit =>
    if audit.identity = identity then
      some (.inFlight audit.attemptCount audit.transactionId audit.submitBodyHash)
    else state
  | .redemptionReceiptTransition audit =>
    if audit.identity = identity then
      state.map (RedemptionAttempts.receiptState audit event.timestamp)
    else state
  | .redemptionCustodyReconciled audit =>
    if audit.identity = identity then
      state.map fun s => (RedemptionAttempts.custodyState event.timestamp s).getD s
    else state
  | _ => state

theorem familyState_nil : familyState identity [] = none := rfl

theorem get_insert (attempts : RedemptionAttempts) (key : RedemptionAttemptIdentity)
    (state : RedemptionAttemptState) :
    ((attempts.insert key state).get identity).map RedemptionAttempt.state
      = if key = identity then some state else (attempts.get identity).map RedemptionAttempt.state := by
  unfold RedemptionAttempts.insert
  by_cases h : key = identity
  · subst h
    simp
  · simp [h, Ne.symm h]

theorem state_apply (attempts : RedemptionAttempts) (event : LiveJournalEvent) :
    ((attempts.apply event).get identity).map RedemptionAttempt.state
      = familyStep identity ((attempts.get identity).map RedemptionAttempt.state) event := by
  unfold RedemptionAttempts.apply familyStep
  cases event.payload with
  | redemptionRequested audit | redemptionTransactionIdentified audit => exact get_insert _ _ _
  | redemptionReceiptTransition audit =>
    by_cases h : audit.identity = identity
    · subst h
      cases hget : attempts.get audit.identity <;> simp [hget, get_insert]
    · cases hget : attempts.get audit.identity <;> simp [hget, get_insert, h]
  | redemptionCustodyReconciled audit =>
    cases hget : attempts.get audit.identity with
    | none =>
      by_cases h : audit.identity = identity
      · subst h
        simp [hget]
      · simp [hget, h]
    | some prior =>
      by_cases h : audit.identity = identity
      · subst h
        cases hstate : RedemptionAttempts.custodyState event.timestamp prior.state <;>
          simp [hget, get_insert, hstate]
      · cases hstate : RedemptionAttempts.custodyState event.timestamp prior.state <;>
          simp [hget, get_insert, hstate, h]
  | _ => rfl

theorem familyState_append (journal : List LiveJournalEvent) (event : LiveJournalEvent) :
    familyState identity (journal ++ [event])
      = familyStep identity (familyState identity journal) event := by
  unfold familyState reconstructRedemptionAttempts
  rw [List.foldl_append, List.foldl_cons, List.foldl_nil]
  exact state_apply _ event

/-! ## Records of a family -/

section

variable (identity : RedemptionAttemptIdentity) (event : LiveJournalEvent)

/-- A request of the family. -/
def IsRequest (audit : RedemptionRequestedAudit) : Prop :=
  event.payload = .redemptionRequested audit ∧ audit.identity = identity

/-- A transaction identity of the family. -/
def IsTransaction : Prop :=
  ∃ audit, event.payload = .redemptionTransactionIdentified audit ∧ audit.identity = identity

/-- A receipt of the family with some status. -/
def IsReceipt (status : RedemptionReceiptStatusAudit) : Prop :=
  ∃ audit, event.payload = .redemptionReceiptTransition audit ∧ audit.identity = identity
    ∧ audit.status = status

/-- A custody reconciliation of the family. -/
def IsCustody : Prop :=
  ∃ audit, event.payload = .redemptionCustodyReconciled audit ∧ audit.identity = identity

/-- What only a pass of the family writes. -/
def OfPass : Prop :=
  (∃ audit, IsRequest identity event audit) ∨ IsTransaction identity event
    ∨ ∃ status, IsReceipt identity event status

end

variable {state : Option RedemptionAttemptState}

theorem familyStep_request {audit : RedemptionRequestedAudit} (h : IsRequest identity event audit) :
    familyStep identity state event = some (.submissionReserved audit.attemptCount
      audit.redeemableBalance audit.request.requestHash audit.request.deadlineUnix) := by
  simp [familyStep, h.1, h.2]

/-- A record that no pass of the family wrote can only complete a confirmed redemption. -/
theorem familyStep_elsewhere (state : Option RedemptionAttemptState) (h : ¬ OfPass identity event) :
    familyStep identity state event = state
      ∨ IsCustody identity event ∧ ∃ n id hash t, state = some (.confirmedAwaitingBalance n id hash t)
        ∧ familyStep identity state event
          = some (.complete n id hash event.timestamp .zero) := by
  unfold familyStep
  cases hp : event.payload with
  | redemptionRequested audit =>
    have hne : audit.identity ≠ identity := fun he => h (.inl ⟨audit, hp, he⟩)
    exact .inl (by simp [hne])
  | redemptionTransactionIdentified audit =>
    have hne : audit.identity ≠ identity := fun he => h (.inr (.inl ⟨audit, hp, he⟩))
    exact .inl (by simp [hne])
  | redemptionReceiptTransition audit =>
    have hne : audit.identity ≠ identity := fun he => h (.inr (.inr ⟨_, audit, hp, he, rfl⟩))
    exact .inl (by simp [hne])
  | redemptionCustodyReconciled audit =>
    by_cases he : audit.identity = identity
    · rcases state with _ | state
      · exact .inl (by simp)
      · cases state with
        | confirmedAwaitingBalance n id hash t =>
          exact .inr ⟨⟨audit, hp, he⟩, n, id, hash, t, rfl, by
            simp [he, RedemptionAttempts.custodyState]⟩
        | _ => exact .inl (by simp [he, RedemptionAttempts.custodyState])
    · exact .inl (by simp [he])
  | _ => exact .inl rfl

/-! ## What a pass may write -/

/-- The state lets the family be submitted, or submitted again. -/
def MayRequest (now : OffsetDateTime) : Option RedemptionAttemptState → Prop
  | none => True
  | some (.complete _ _ _ _ _) => True
  | some (.failed _ _ _) => True
  | some state => state.submissionDeadlinePassed now = true

/-- How often the family was submitted, as far as the journal tells. -/
def submissions (state : Option RedemptionAttemptState) : UInt32 :=
  (state.map RedemptionAttemptState.attemptCount).getD 0

/-- A record fits the state that was rebuilt before it. -/
inductive Permitted (identity : RedemptionAttemptIdentity) (state : Option RedemptionAttemptState)
    (event : LiveJournalEvent) : Prop
  | request (audit : RedemptionRequestedAudit) (h : IsRequest identity event audit)
      (hmay : MayRequest event.timestamp state)
      (hcount : audit.attemptCount = saturatingSuccU32 (submissions state))
  | transaction (audit : RedemptionTransactionAudit) (balance : CollateralAmount)
      (requestHash : String) (deadlineUnix : Option UInt64)
      (h : event.payload = .redemptionTransactionIdentified audit) (hown : audit.identity = identity)
      (hstate : state = some (.submissionReserved audit.attemptCount balance requestHash deadlineUnix))
  | receipt (audit : RedemptionReceiptAudit) (prior : RedemptionAttemptState)
      (h : event.payload = .redemptionReceiptTransition audit) (hown : audit.identity = identity)
      (hstate : state = some prior) (hid : prior.transactionId.isSome)
      (hcount : audit.attemptCount = prior.attemptCount)
  | elsewhere (h : ¬ OfPass identity event)

/-- Every record fits the records before it. -/
def LawfulJournal (identity : RedemptionAttemptIdentity) (journal : List LiveJournalEvent) : Prop :=
  ∀ before event after, journal = before ++ event :: after →
    Permitted identity (familyState identity before) event

theorem lawfulJournal_nil : LawfulJournal identity [] := by
  intro before event after h
  simp at h

theorem LawfulJournal.append (hjournal : LawfulJournal identity journal)
    (hevent : Permitted identity (familyState identity journal) event) :
    LawfulJournal identity (journal ++ [event]) := by
  intro before last after h
  rcases List.eq_nil_or_concat after with rfl | ⟨rest, final, rfl⟩
  · obtain ⟨rfl, hlast⟩ := List.append_inj' h rfl
    obtain rfl := List.head_eq_of_cons_eq hlast
    exact hevent
  · rw [List.concat_eq_append, ← List.cons_append, ← List.append_assoc] at h
    exact hjournal before last rest (List.append_inj' h rfl).1

/-! ## From a request on -/

section

variable (identity : RedemptionAttemptIdentity) (events : List LiveJournalEvent)

/-- No request of the family among some records. -/
def NoRequest : Prop :=
  ∀ e ∈ events, ∀ audit, ¬ IsRequest identity e audit

/-- A failure the relayer confirmed, or a custody reconciliation, among some records. -/
def Settled : Prop :=
  ∃ e ∈ events, IsReceipt identity e .terminalFailure ∨ IsCustody identity e

/-- No transaction identity before the next request. -/
def Unidentified : Prop :=
  ∀ first rest, events = first ++ rest → NoRequest identity first →
    ∀ e ∈ first, ¬ IsTransaction identity e

end

/-- The instant is past the signed deadline of a request. -/
def PastDeadline (audit : RedemptionRequestedAudit) (now : OffsetDateTime) : Prop :=
  ∃ deadline, audit.request.deadlineUnix = some deadline
    ∧ (deadline.toNat : Int) < now.unixTimestamp

/-- A transaction of the family is known and not settled. -/
def Busy : RedemptionAttemptState → Prop
  | .inFlight _ _ _ => True
  | .ambiguous _ _ _ => True
  | .confirmedAwaitingBalance _ _ _ _ => True
  | _ => False

/-- A receipt keeps its own count and closes the family for buying, and unless it is a failure
the transaction is known and not settled. -/
theorem receiptState_spec (audit : RedemptionReceiptAudit) (timestamp : OffsetDateTime)
    (prior : RedemptionAttemptState) :
    let state := RedemptionAttempts.receiptState audit timestamp prior
    state.attemptCount = audit.attemptCount
      ∧ (redemptionPosture state).closesNewBuyAdmission = true
      ∧ (audit.status ≠ .terminalFailure → Busy state) := by
  unfold RedemptionAttempts.receiptState
  cases audit.status with
  | confirmed =>
    cases audit.transactionHash with
    | none => exact ⟨rfl, rfl, fun _ => trivial⟩
    | some hash =>
      by_cases h : trim hash = "" <;>
        simp [h, RedemptionAttemptState.attemptCount, redemptionPosture, Busy]
  | terminalFailure => exact ⟨rfl, rfl, fun h => absurd rfl h⟩
  | _ => exact ⟨rfl, rfl, fun _ => trivial⟩

/-- What a permitted record that is no request does to a family that was submitted. -/
theorem Permitted.familyStep {prior : RedemptionAttemptState}
    (h : Permitted identity (some prior) event)
    (hno : ∀ audit, ¬ IsRequest identity event audit) :
    (∃ audit, event.payload = .redemptionTransactionIdentified audit ∧ audit.identity = identity
        ∧ audit.attemptCount = prior.attemptCount
        ∧ familyStep identity (some prior) event
          = some (.inFlight audit.attemptCount audit.transactionId audit.submitBodyHash))
      ∨ (∃ audit, event.payload = .redemptionReceiptTransition audit ∧ audit.identity = identity
        ∧ audit.attemptCount = prior.attemptCount
        ∧ familyStep identity (some prior) event
          = some (RedemptionAttempts.receiptState audit event.timestamp prior))
      ∨ ¬ OfPass identity event := by
  cases h with
  | request audit h => exact absurd h (hno audit)
  | transaction audit balance requestHash deadlineUnix h hown hstate =>
    refine .inl ⟨audit, h, hown, ?_, ?_⟩
    · rw [Option.some.inj hstate]
      rfl
    · simp [PredictionEdge.familyStep, h, hown]
  | receipt audit prior' h hown hstate hid hcount =>
    obtain rfl := Option.some.inj hstate
    exact .inr (.inl ⟨audit, h, hown, hcount, by simp [PredictionEdge.familyStep, h, hown]⟩)
  | elsewhere h => exact .inr (.inr h)

section

variable {before between : List LiveJournalEvent} {first : LiveJournalEvent}
  {audit : RedemptionRequestedAudit}

/-- The records up to one of them are lawful too. -/
theorem LawfulJournal.of_append {after : List LiveJournalEvent}
    (h : LawfulJournal identity (before ++ after)) : LawfulJournal identity before := by
  intro start event rest heq
  subst heq
  exact h start event (rest ++ after) (by simp)

/-- The last record of a lawful journal is permitted after the others. -/
theorem LawfulJournal.last
    (h : LawfulJournal identity (before ++ first :: (between ++ [event]))) :
    LawfulJournal identity (before ++ first :: between)
      ∧ Permitted identity (familyState identity (before ++ first :: between)) event := by
  have hsplit : before ++ first :: (between ++ [event]) = before ++ first :: between ++ [event] := by
    simp
  rw [hsplit] at h
  exact ⟨h.of_append, h _ event [] rfl⟩

theorem familyState_last : familyState identity (before ++ first :: (between ++ [event]))
    = familyStep identity (familyState identity (before ++ first :: between)) event := by
  rw [← familyState_append]
  simp

section

variable (h : LawfulJournal identity (before ++ first :: between))
  (hfirst : IsRequest identity first audit)

include h hfirst

/-- Until the next request the rebuilt state counts the request. -/
theorem LawfulJournal.count_between (hno : NoRequest identity between) :
    ∃ state, familyState identity (before ++ first :: between) = some state
      ∧ state.attemptCount = audit.attemptCount := by
  induction between using List.reverseRecOn with
  | nil =>
    rw [familyState_append, familyStep_request hfirst]
    exact ⟨_, rfl, rfl⟩
  | append_singleton between event ih =>
    obtain ⟨h, hperm⟩ := h.last
    obtain ⟨prior, hprior, hcount⟩ := ih h fun e he => hno e (List.mem_append_left _ he)
    rw [hprior] at hperm
    rw [familyState_last, hprior]
    rcases hperm.familyStep (hno event (by simp)) with
      ⟨t, _, _, ht, hstep⟩ | ⟨r, _, _, hr, hstep⟩ | helse
    · exact ⟨_, hstep, ht.trans hcount⟩
    · exact ⟨_, hstep, (receiptState_spec r _ _).1.trans (hr.trans hcount)⟩
    · rcases familyStep_elsewhere (some prior) helse with hsame | ⟨_, n, id, hash, t, hp, hstep⟩
      · exact ⟨prior, hsame, hcount⟩
      · obtain rfl := Option.some.inj hp
        exact ⟨_, hstep, hcount⟩

/-- Until the request is settled or the next one is made, the state is still the reservation, or
a transaction is known. -/
theorem LawfulJournal.state_between (hno : NoRequest identity between)
    (hopen : ¬ Settled identity between) :
    (familyState identity (before ++ first :: between) = some (.submissionReserved audit.attemptCount
        audit.redeemableBalance audit.request.requestHash audit.request.deadlineUnix)
      ∧ ∀ e ∈ between, ¬ IsTransaction identity e)
    ∨ ∃ state, familyState identity (before ++ first :: between) = some state ∧ Busy state := by
  induction between using List.reverseRecOn with
  | nil =>
    refine .inl ⟨?_, by simp⟩
    rw [familyState_append, familyStep_request hfirst]
  | append_singleton between event ih =>
    obtain ⟨h, hperm⟩ := h.last
    have hopen' : ¬ Settled identity between := fun ⟨e, he, hs⟩ =>
      hopen ⟨e, List.mem_append_left _ he, hs⟩
    have hno' : NoRequest identity between := fun e he => hno e (List.mem_append_left _ he)
    obtain ⟨prior, hprior, _⟩ := h.count_between hfirst hno'
    have ih := ih h hno' hopen'
    rw [hprior] at hperm ih
    rw [familyState_last, hprior]
    rcases hperm.familyStep (hno event (by simp)) with
      ⟨t, _, _, _, hstep⟩ | ⟨r, hr, hown, _, hstep⟩ | helse
    · exact .inr ⟨_, hstep, trivial⟩
    · refine .inr ⟨_, hstep, (receiptState_spec r _ _).2.2 fun hstatus => hopen ?_⟩
      exact ⟨event, by simp, .inl ⟨r, hr, hown, hstatus⟩⟩
    · rcases familyStep_elsewhere (some prior) helse with hsame | ⟨hcustody, _⟩
      · rw [hsame]
        refine ih.imp (fun ⟨hs, hnone⟩ => ⟨hs, fun e he ht => ?_⟩) id
        rcases List.mem_append.mp he with he | he
        · exact hnone e he ht
        · obtain rfl := List.mem_singleton.mp he
          exact helse (.inr (.inl ht))
      · exact absurd ⟨event, by simp, .inr hcustody⟩ hopen

/-- **A request is closed for buying until custody is reconciled.** -/
theorem LawfulJournal.closes_between (hopen : ∀ e ∈ between, ¬ IsCustody identity e) :
    ∃ state, familyState identity (before ++ first :: between) = some state
      ∧ (redemptionPosture state).closesNewBuyAdmission = true := by
  induction between using List.reverseRecOn with
  | nil =>
    rw [familyState_append, familyStep_request hfirst]
    exact ⟨_, rfl, rfl⟩
  | append_singleton between event ih =>
    obtain ⟨h, hperm⟩ := h.last
    obtain ⟨prior, hprior, hclosed⟩ := ih h fun e he => hopen e (List.mem_append_left _ he)
    rw [hprior] at hperm
    rw [familyState_last, hprior]
    by_cases hrequest : ∃ audit, IsRequest identity event audit
    · obtain ⟨audit, hrequest⟩ := hrequest
      rw [familyStep_request hrequest]
      exact ⟨_, rfl, rfl⟩
    · rcases hperm.familyStep (not_exists.mp hrequest) with
        ⟨t, _, _, _, hstep⟩ | ⟨r, _, _, _, hstep⟩ | helse
      · exact ⟨_, hstep, rfl⟩
      · exact ⟨_, hstep, (receiptState_spec r _ _).2.1⟩
      · rcases familyStep_elsewhere (some prior) helse with hsame | ⟨hcustody, _⟩
        · exact ⟨prior, hsame, hclosed⟩
        · exact absurd hcustody (hopen event (by simp))

end

/-! ## From request to request -/

theorem saturatingSuccU32_gt {n : UInt32} (h : n.toNat < 2 ^ 32 - 1) : n < saturatingSuccU32 n := by
  unfold saturatingSuccU32
  rw [if_pos (by omega)]
  rw [UInt32.lt_iff_toNat_lt, UInt32.toNat_add]
  simp
  omega

variable {second : LiveJournalEvent} {audit₂ : RedemptionRequestedAudit}

theorem Permitted.of_request (h : Permitted identity state second)
    (hsecond : IsRequest identity second audit₂) : MayRequest second.timestamp state
      ∧ audit₂.attemptCount = saturatingSuccU32 (submissions state) := by
  cases h with
  | request audit h hmay hcount =>
    obtain rfl : audit₂ = audit := by simpa using hsecond.1.symm.trans h.1
    exact ⟨hmay, hcount⟩
  | transaction audit _ _ _ hp | receipt audit _ hp =>
    exact absurd (hsecond.1.symm.trans hp) (by simp)
  | elsewhere hp => exact absurd (.inl ⟨audit₂, hsecond⟩) hp

section

variable (h : LawfulJournal identity (before ++ first :: (between ++ [second])))
  (hfirst : IsRequest identity first audit) (hsecond : IsRequest identity second audit₂)
  (hno : NoRequest identity between)

include h hfirst hsecond hno

/-- The next request after a request is made after it was settled, or past its deadline while no
transaction was known. -/
theorem LawfulJournal.next_request :
    Settled identity between
      ∨ PastDeadline audit second.timestamp ∧ ∀ e ∈ between, ¬ IsTransaction identity e := by
  obtain ⟨h, hperm⟩ := h.last
  by_cases hopen : Settled identity between
  · exact .inl hopen
  refine .inr ?_
  have hmay := (hperm.of_request hsecond).1
  rcases h.state_between hfirst hno hopen with ⟨hstate, hnone⟩ | ⟨state, hstate, hbusy⟩
  · rw [hstate] at hmay
    refine ⟨?_, hnone⟩
    -- the family is still reserved, so only the deadline lets it be submitted again
    simp only [MayRequest, RedemptionAttemptState.submissionDeadlinePassed] at hmay
    cases hdeadline : audit.request.deadlineUnix with
    | none => simp [hdeadline] at hmay
    | some deadline =>
      simp only [hdeadline, RedemptionAttemptState.deadlinePassed, decide_eq_true_eq] at hmay
      exact ⟨deadline, hdeadline, hmay.2⟩
  · rw [hstate] at hmay
    cases state <;> simp [MayRequest, Busy, RedemptionAttemptState.submissionDeadlinePassed] at hmay hbusy

theorem LawfulJournal.next_count : audit₂.attemptCount = saturatingSuccU32 audit.attemptCount := by
  obtain ⟨h, hperm⟩ := h.last
  obtain ⟨state, hstate, hcount⟩ := h.count_between hfirst hno
  rw [(hperm.of_request hsecond).2, hstate]
  simp [submissions, hcount]

end

/-- The first request among some records, if there is one. -/
theorem noRequest_or_first (identity : RedemptionAttemptIdentity) (events : List LiveJournalEvent) :
    NoRequest identity events ∨ ∃ skipped e audit rest, events = skipped ++ e :: rest
      ∧ NoRequest identity skipped ∧ IsRequest identity e audit := by
  classical
  cases h : events.find? fun e => decide (∃ audit, IsRequest identity e audit) with
  | none => exact .inl (by simpa [NoRequest] using h)
  | some e =>
    obtain ⟨he, skipped, rest, hsplit, hskip⟩ := List.find?_eq_some_iff_append.mp h
    obtain ⟨audit, he⟩ := of_decide_eq_true he
    exact .inr ⟨skipped, e, audit, rest, hsplit, by simpa [NoRequest] using hskip, he⟩

/-- Every request of the family was signed with a deadline that had not passed. -/
def SignedAhead (identity : RedemptionAttemptIdentity) (events : List LiveJournalEvent) : Prop :=
  ∀ e ∈ events, ∀ audit, IsRequest identity e audit → ∀ deadline,
    audit.request.deadlineUnix = some deadline → e.timestamp.unixTimestamp ≤ deadline.toNat

theorem le_saturatingSuccU32 (n : UInt32) : n ≤ saturatingSuccU32 n := by
  by_cases h : n.toNat < 2 ^ 32 - 1
  · exact UInt32.le_of_lt (saturatingSuccU32_gt h)
  · unfold saturatingSuccU32
    rw [if_neg (by omega)]
    exact UInt32.le_refl n

/-- Counts never fall from request to request. -/
theorem LawfulJournal.request_count :
    ∀ {between before : List LiveJournalEvent} {first : LiveJournalEvent}
      {audit : RedemptionRequestedAudit},
      LawfulJournal identity (before ++ first :: (between ++ [second])) →
      IsRequest identity first audit → IsRequest identity second audit₂ →
      saturatingSuccU32 audit.attemptCount ≤ audit₂.attemptCount := by
  intro between
  induction hn : between.length using Nat.strong_induction_on generalizing between with
  | _ n ih =>
    intro before first audit h hfirst hsecond
    rcases noRequest_or_first identity between with hnone | ⟨skipped, e, audit', rest, rfl, hskip, he⟩
    · rw [h.next_count hfirst hsecond hnone]
      exact UInt32.le_refl _
    · have hsplit : before ++ first :: (skipped ++ e :: rest ++ [second])
          = before ++ first :: (skipped ++ [e]) ++ (rest ++ [second]) := by simp
      have hnext := (hsplit ▸ h).of_append.next_count hfirst he hskip
      have hrest : before ++ first :: (skipped ++ e :: rest ++ [second])
          = (before ++ first :: skipped) ++ e :: (rest ++ [second]) := by simp
      have hle := ih rest.length (by simp at hn; omega) rfl (hrest ▸ h) he hsecond
      rw [← hnext]
      exact UInt32.le_trans (le_saturatingSuccU32 _) hle

/--
**Requests are separated.**

Between two requests the first is settled, or the second is past the first one's deadline and no
transaction was known for it. For requests that follow one another this is so whatever was
signed; for any two, if each is signed with a deadline that has not passed, since then each
deadline is past the one before.
-/
theorem LawfulJournal.requests_separated :
    ∀ {between before : List LiveJournalEvent} {first : LiveJournalEvent}
      {audit : RedemptionRequestedAudit},
      LawfulJournal identity (before ++ first :: (between ++ [second])) →
      IsRequest identity first audit → IsRequest identity second audit₂ →
      (NoRequest identity between ∨ SignedAhead identity between) →
      Settled identity between
        ∨ PastDeadline audit second.timestamp ∧ Unidentified identity between := by
  intro between
  induction hn : between.length using Nat.strong_induction_on generalizing between with
  | _ n ih =>
    intro before first audit h hfirst hsecond hsigned
    rcases noRequest_or_first identity between with hnone | ⟨skipped, e, audit', rest, rfl, hskip, he⟩
    · refine (h.next_request hfirst hsecond hnone).imp_right fun ⟨hpast, hid⟩ => ⟨hpast, ?_⟩
      rintro part rest rfl _ e he
      exact hid e (List.mem_append_left _ he)
    · have hahead : SignedAhead identity (skipped ++ e :: rest) := hsigned.resolve_left fun hno =>
        hno e (by simp) audit' he
      have hsplit : before ++ first :: (skipped ++ e :: rest ++ [second])
          = before ++ first :: (skipped ++ [e]) ++ (rest ++ [second]) := by simp
      have hrest : before ++ first :: (skipped ++ e :: rest ++ [second])
          = (before ++ first :: skipped) ++ e :: (rest ++ [second]) := by simp
      rcases (hsplit ▸ h).of_append.next_request hfirst he hskip with hset | ⟨⟨d, hd, hpast⟩, hid⟩
      · obtain ⟨x, hx, hset⟩ := hset
        exact .inl ⟨x, List.mem_append_left _ hx, hset⟩
      rcases ih rest.length (by simp at hn; omega) rfl (hrest ▸ h) he hsecond
          (.inr fun x hx => hahead x (by simp [hx])) with hset | ⟨⟨d', hd', hpast'⟩, _⟩
      · obtain ⟨x, hx, hset⟩ := hset
        exact .inl ⟨x, by simp [hx], hset⟩
      · -- the deadline of the request between them lies after its instant
        have hlater := hahead e (by simp) audit' he d' hd'
        refine .inr ⟨⟨d, hd, by omega⟩, ?_⟩
        intro part tail heq hpart x hx
        refine hid x ?_
        -- the part has no request, so it ends before the one between them
        rcases List.append_eq_append_iff.mp heq with ⟨more, rfl, hmore⟩ | ⟨more, rfl, hmore⟩
        · cases more with
          | nil => simpa using hx
          | cons y more =>
            obtain ⟨rfl, _⟩ := List.cons_eq_cons.mp hmore
            exact absurd he (hpart e (by simp) audit')
        · exact List.mem_append_left _ hx

end

end PredictionEdge
