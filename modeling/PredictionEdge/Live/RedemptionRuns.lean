import PredictionEdge.Live.RedemptionSafety

/-!
# Passes of one family

The passes of a family run one after another, each from the state the journal rebuilds when it
starts. Others write to the same journal meanwhile, custody reconciliations of the family
included; a pass may be cut off at any question, and an append that fails may or may not have
left its record behind. Whatever happens, the journal stays lawful.
-/

namespace PredictionEdge

variable {hashes : JournalHashes} {identity : RedemptionAttemptIdentity}

/-- What a question of a pass, with its answer, does to the journal. -/
inductive RedemptionAct (journal : List LiveJournalEvent) :
    (q : RedemptionQuestion) → RedemptionAnswer q → List LiveJournalEvent → Prop
  | appended (accountId timestamp payload) :
      RedemptionAct journal (.append accountId timestamp payload)
        (Except.ok (appended journal accountId timestamp payload))
        (journal ++ [PredictionEdge.appended journal accountId timestamp payload])
  | notAppended (accountId timestamp payload) (error : LiveJournalError) :
      RedemptionAct journal (.append accountId timestamp payload) (Except.error error) journal
  /-- The record reached the file, but the append was not reported as done. -/
  | unpublished (accountId timestamp payload) (error : LiveJournalError) :
      RedemptionAct journal (.append accountId timestamp payload) (Except.error error)
        (journal ++ [PredictionEdge.appended journal accountId timestamp payload])
  | submitted (request) (answer) : RedemptionAct journal (.submitAndConfirm request) answer journal
  | observed (transactionId) (answer) :
      RedemptionAct journal (.reconcileTransaction transactionId) answer journal

section

variable (identity : RedemptionAttemptIdentity) (journal journal' : List LiveJournalEvent)

/-- What others do to the journal. -/
def WrittenElsewhere : Prop :=
  ∃ event, ¬ OfPass identity event ∧ journal' = journal ++ [event]

/-- What a pass of the family does to the journal. -/
def WrittenByPass : Prop :=
  journal' = journal
    ∨ ∃ event, Permitted identity (familyState identity journal) event ∧ journal' = journal ++ [event]

end

/-- A pass whose every record is permitted, whatever others write meanwhile. -/
abbrev PassSafe (identity : RedemptionAttemptIdentity) {α : Type} (p : RedemptionProgram α)
    (journal : List LiveJournalEvent) : Prop :=
  p.Safe RedemptionAct (WrittenElsewhere identity) (WrittenByPass identity) (fun _ _ => True) journal

/-! ## What others leave alone -/

/-- Others change a state only by completing a confirmed redemption. -/
theorem familyState_elsewhere {journal journal' : List LiveJournalEvent}
    (h : Relation.ReflTransGen (WrittenElsewhere identity) journal journal')
    (hstate : ∀ n id hash t, familyState identity journal ≠ some (.confirmedAwaitingBalance n id hash t)) :
    familyState identity journal' = familyState identity journal := by
  induction h with
  | refl => rfl
  | tail _ hstep ih =>
    obtain ⟨event, helse, rfl⟩ := hstep
    rw [familyState_append, ih]
    rcases familyStep_elsewhere _ helse with hsame | ⟨_, n, id, hash, t, heq, _⟩
    · exact hsame
    · exact absurd heq (hstate n id hash t)

/-- Others leave a known transaction alone. -/
theorem familyState_identified {journal journal' : List LiveJournalEvent}
    {prior : RedemptionAttemptState}
    (h : Relation.ReflTransGen (WrittenElsewhere identity) journal journal')
    (hstate : familyState identity journal = some prior) (hid : prior.transactionId.isSome) :
    familyState identity journal' = some prior := by
  rw [familyState_elsewhere h, hstate]
  intro n id hash t heq
  rw [hstate] at heq
  obtain rfl := Option.some.inj heq
  simp [RedemptionAttemptState.transactionId] at hid

/-! ## Safety of a pass -/

variable {status : RedemptionReceiptStatusAudit} {transactionHash : Option String}
  {evidence : List RawHttpAttempt} {attempts : RedemptionAttempts}

section

variable {α β : Type} {journal : List LiveJournalEvent}

theorem passSafe_done (result : Except RedemptionDriverError α) :
    PassSafe identity (.done result : RedemptionProgram α) journal :=
  fun _ _ => trivial

/-- A permitted append, and what follows it. -/
theorem passSafe_append {accountId : AccountId} {timestamp : OffsetDateTime}
    {payload : LiveJournalPayload} (rest : LiveJournalEvent → RedemptionProgram α)
    (hperm : ∀ journal', Relation.ReflTransGen (WrittenElsewhere identity) journal journal' →
      Permitted identity (familyState identity journal') (appended journal' accountId timestamp payload))
    (hrest : ∀ journal', Relation.ReflTransGen (WrittenElsewhere identity) journal journal' →
      PassSafe identity (rest (appended journal' accountId timestamp payload))
        (journal' ++ [appended journal' accountId timestamp payload])) :
    PassSafe identity (RedemptionProgram.append accountId timestamp payload >>= rest) journal := by
  intro journal' hjournal answer journal'' hact
  cases hact with
  | appended => exact ⟨.inr ⟨_, hperm journal' hjournal, rfl⟩, hrest journal' hjournal⟩
  | notAppended _ _ _ error => exact ⟨.inl rfl, passSafe_done _⟩
  | unpublished _ _ _ error => exact ⟨.inr ⟨_, hperm journal' hjournal, rfl⟩, passSafe_done _⟩

/-- A step of the pass that stays inside the process. -/
theorem passSafe_ofExcept {result : Except RedemptionDriverError β} {rest : β → RedemptionProgram α}
    (hrest : ∀ b, result = .ok b → PassSafe identity (rest b) journal) :
    PassSafe identity (Lib.Program.done result >>= rest) journal := by
  cases result with
  | error e => exact passSafe_done _
  | ok b => exact hrest b rfl

variable {attempt : RedemptionAttempt} {now : OffsetDateTime} {transactionId : String}

/-- The hashes of the evidence come before a record. -/
theorem passSafe_hashed {rest : List String → RedemptionProgram α}
    (hrest : ∀ evidenceHashes, PassSafe identity (rest evidenceHashes) journal) :
    PassSafe identity (RedemptionProgram.ofJournal (httpAttemptHashes hashes evidence) >>= rest)
      journal := by
  cases h : httpAttemptHashes hashes evidence with
  | error e => exact passSafe_done _
  | ok evidenceHashes => exact hrest evidenceHashes

/-- A receipt for the transaction of the rebuilt state, as the pass's last record. -/
theorem passSafe_journalReceipt {result : Except RedemptionDriverError α}
    (prior : RedemptionAttemptState) (hown : attempt.identity = identity)
    (hstate : familyState identity journal = some prior) (hid : prior.transactionId.isSome)
    (hcount : attempt.state.attemptCount = prior.attemptCount) :
    PassSafe identity (journalReceipt hashes attempt now transactionId transactionHash status evidence
      >>= fun _ => .done result) journal := by
  simp only [journalReceipt, bind_assoc]
  refine passSafe_hashed fun evidenceHashes => ?_
  exact passSafe_append _ (fun journal' h => .receipt ⟨attempt.identity, attempt.state.attemptCount,
    transactionId, transactionHash, status, evidence, evidenceHashes⟩ prior rfl hown
    (familyState_identified h hstate hid) hid hcount) fun _ _ => passSafe_done _

/-- The transaction of the request just reserved, then its receipt. -/
theorem passSafe_transaction_receipt {submitBodyHash : String}
    {result : Except RedemptionDriverError α} {balance : CollateralAmount} {requestHash : String}
    {deadlineUnix : Option UInt64} (hown : attempt.identity = identity)
    (hstate : familyState identity journal
      = some (.submissionReserved attempt.state.attemptCount balance requestHash deadlineUnix)) :
    PassSafe identity (journalTransaction hashes attempt now transactionId submitBodyHash evidence
      >>= fun _ => journalReceipt hashes attempt now transactionId transactionHash status evidence
      >>= fun _ => .done result) journal := by
  have hsame : ∀ journal', Relation.ReflTransGen (WrittenElsewhere identity) journal journal' →
      familyState identity journal' = familyState identity journal := fun journal' h =>
    familyState_elsewhere h (by simp [hstate])
  rw [journalTransaction, bind_assoc]
  refine passSafe_hashed fun evidenceHashes => ?_
  rw [bind_assoc]
  refine passSafe_append _ (fun journal' h => .transaction ⟨attempt.identity,
    attempt.state.attemptCount, transactionId, submitBodyHash, evidence, evidenceHashes⟩ balance
    requestHash deadlineUnix rfl hown ((hsame journal' h).trans hstate)) fun journal' h => ?_
  refine passSafe_journalReceipt (.inFlight attempt.state.attemptCount transactionId submitBodyHash)
    hown ?_ rfl rfl
  rw [familyState_append]
  simp [familyStep, appended, hown]

theorem passSafe_submitAndConfirm {request : SignedRedemptionRequest}
    {rest : Except RedemptionTransportError ConfirmedRedemption → RedemptionProgram α}
    (hrest : ∀ answer journal', Relation.ReflTransGen (WrittenElsewhere identity) journal journal' →
      PassSafe identity (rest answer) journal') :
    PassSafe identity (RedemptionProgram.submitAndConfirm request >>= rest) journal := by
  intro journal' hjournal answer journal'' hact
  cases hact with
  | submitted => exact ⟨.inl rfl, hrest answer journal' hjournal⟩

variable {input : RedemptionPassInput} {balance : CollateralAmount} {requestHash : String}
  {deadlineUnix : Option UInt64}

theorem passSafe_handleSubmissionError {error : RedemptionTransportError}
    (hown : attempt.identity = identity)
    (hstate : familyState identity journal
      = some (.submissionReserved attempt.state.attemptCount balance requestHash deadlineUnix)) :
    PassSafe identity (handleSubmissionError hashes attempt input error) journal := by
  cases error with
  | ambiguousAfterSubmit transactionId submitBodyHash responses =>
    cases transactionId with
    | none => exact passSafe_done _
    | some transactionId =>
      exact passSafe_transaction_receipt hown hstate
  | terminalFailure transactionId responses => exact passSafe_transaction_receipt hown hstate
  | _ => exact passSafe_done _

/-- A submission whose request the rebuilt state permits. -/
theorem passSafe_submitRequest {state : Option RedemptionAttemptState}
    (hown : attempt.identity = identity) (hstate : familyState identity journal = state)
    (hmay : MayRequest input.now state)
    (hcount : attempt.state.attemptCount = saturatingSuccU32 (submissions state)) :
    PassSafe identity (submitRequest hashes attempt input requestHash) journal := by
  have hsame : ∀ journal', Relation.ReflTransGen (WrittenElsewhere identity) journal journal' →
      familyState identity journal' = state := fun journal' h => by
    rw [familyState_elsewhere h, hstate]
    intro n id hash t heq
    rw [← hstate, heq] at hmay
    simp [MayRequest, RedemptionAttemptState.submissionDeadlinePassed] at hmay
  refine passSafe_ofExcept fun request _ => ?_
  by_cases hhash : requestHash = ""
  · simp only [hhash, ↓reduceIte]
    exact passSafe_done _
  simp only [hhash, ↓reduceIte]
  refine passSafe_ofExcept fun _ _ => passSafe_append _ (fun journal' h => ?_) fun journal' h => ?_
  · exact .request _ ⟨rfl, hown⟩ (by rw [hsame journal' h]; exact hmay) (by rw [hsame journal' h]; exact hcount)
  · refine passSafe_submitAndConfirm fun answer journal'' h' => ?_
    have hreserved : familyState identity journal'' = some (.submissionReserved
        attempt.state.attemptCount input.resolvedWinnerRedeemable requestHash request.deadlineUnix) := by
      rw [familyState_elsewhere h', familyState_append, familyStep_request ⟨rfl, hown⟩]
      · rfl
      · rw [familyState_append, familyStep_request ⟨rfl, hown⟩]
        simp
    cases answer with
    | ok confirmed => exact passSafe_transaction_receipt hown hreserved
    | error error => exact passSafe_handleSubmissionError hown hreserved

theorem passSafe_reconcile {prior : RedemptionAttemptState} (hown : attempt.identity = identity)
    (hstate : familyState identity journal = some prior) (hid : prior.transactionId.isSome)
    (hcount : attempt.state.attemptCount = prior.attemptCount) :
    PassSafe identity (RedemptionProgram.reconcileTransaction transactionId
      >>= handleStatusObservation hashes attempt input transactionId) journal := by
  intro journal' hjournal answer journal'' hact
  cases hact with
  | observed =>
    have hsame := familyState_identified hjournal hstate hid
    exact ⟨.inl rfl, passSafe_journalReceipt prior hown hsame hid hcount⟩

end

/-! ## The pass from the rebuilt state -/

/-- The attempt a pass starts from. -/
def currentAttempt (identity : RedemptionAttemptIdentity) (journal : List LiveJournalEvent) :
    RedemptionAttempt :=
  ((reconstructRedemptionAttempts journal).get identity).getD ⟨identity, .default⟩

/-- The attempt kept for the family carries its identity. -/
def OwnIdentity (identity : RedemptionAttemptIdentity) (attempts : RedemptionAttempts) : Prop :=
  ∀ attempt, attempts.get identity = some attempt → attempt.identity = identity

theorem OwnIdentity.insert (h : OwnIdentity identity attempts) (key : RedemptionAttemptIdentity)
    (state : RedemptionAttemptState) : OwnIdentity identity (attempts.insert key state) := by
  intro attempt hget
  unfold RedemptionAttempts.insert at hget
  by_cases hkey : identity = key
  · simp only [hkey, ↓reduceIte, Option.some.injEq] at hget
    rw [← hget, hkey]
  · simp only [hkey, ↓reduceIte] at hget
    exact h attempt hget

theorem OwnIdentity.apply (h : OwnIdentity identity attempts) (event : LiveJournalEvent) :
    OwnIdentity identity (attempts.apply event) := by
  unfold RedemptionAttempts.apply
  cases event.payload with
  | redemptionRequested audit | redemptionTransactionIdentified audit => exact h.insert _ _
  | redemptionReceiptTransition audit =>
    cases hget : attempts.get audit.identity with
    | none => simpa only [hget] using h
    | some prior => simpa only [hget] using h.insert _ _
  | redemptionCustodyReconciled audit =>
    cases hget : attempts.get audit.identity with
    | none => simpa only [hget] using h
    | some prior =>
      cases hstate : RedemptionAttempts.custodyState event.timestamp prior.state with
      | none => simpa only [hget, hstate] using h
      | some state => simpa only [hget, hstate] using h.insert _ _
  | _ => exact h

theorem ownIdentity_reconstruct (journal : List LiveJournalEvent) :
    OwnIdentity identity (reconstructRedemptionAttempts journal) := by
  unfold reconstructRedemptionAttempts
  induction journal using List.reverseRecOn with
  | nil => exact fun attempt h => absurd h (by simp [RedemptionAttempts.empty])
  | append_singleton journal event ih =>
    rw [List.foldl_append]
    exact ih.apply event

/-- No record leaves a family idle. -/
theorem familyState_ne_idle (n : UInt32) (journal : List LiveJournalEvent) :
    familyState identity journal ≠ some (.idle n) := by
  induction journal using List.reverseRecOn with
  | nil => simp [familyState_nil]
  | append_singleton journal event ih =>
    rw [familyState_append]
    unfold familyStep
    split
    · split
      · simp
      · exact ih
    · split
      · simp
      · exact ih
    · split
      · intro h
        obtain ⟨prior, _, hprior⟩ := Option.map_eq_some_iff.mp h
        have := (receiptState_spec ‹RedemptionReceiptAudit› event.timestamp prior).2.1
        rw [hprior] at this
        simp [redemptionPosture] at this
      · exact ih
    · split
      · intro h
        obtain ⟨prior, hprior, hcustody⟩ := Option.map_eq_some_iff.mp h
        cases prior <;> simp [RedemptionAttempts.custodyState] at hcustody
        exact ih (hcustody ▸ hprior)
      · exact ih
    · exact ih

theorem currentAttempt_identity (journal : List LiveJournalEvent) :
    (currentAttempt identity journal).identity = identity := by
  unfold currentAttempt
  cases h : (reconstructRedemptionAttempts journal).get identity with
  | none => rfl
  | some attempt => exact ownIdentity_reconstruct journal attempt h

/-- A pass starts idle, or from the state the journal rebuilds. -/
theorem currentAttempt_state (journal : List LiveJournalEvent) :
    (familyState identity journal = none ∧ (currentAttempt identity journal).state = .idle 0)
      ∨ familyState identity journal = some (currentAttempt identity journal).state := by
  unfold familyState currentAttempt
  cases (reconstructRedemptionAttempts journal).get identity with
  | none => exact .inl ⟨rfl, rfl⟩
  | some attempt => exact .inr rfl

/-- **A pass writes only what the rebuilt state permits.** -/
theorem passSafe_runRedemptionPass {journal : List LiveJournalEvent} {input : RedemptionPassInput}
    (h : input.attempt = currentAttempt identity journal) :
    PassSafe identity (runRedemptionPass hashes input) journal := by
  have hown : input.attempt.identity = identity := h ▸ currentAttempt_identity journal
  rcases currentAttempt_state journal with ⟨hnone, hidle⟩ | hstate
  · rw [← h] at hidle
    unfold runRedemptionPass
    simp only [hidle, advance]
    by_cases hpos : ExactAmount.zero < input.resolvedWinnerRedeemable
    · simp only [hpos, ↓reduceIte, reserveSubmission, List.head?_cons]
      exact passSafe_submitRequest hown hnone trivial rfl
    · simp only [hpos, ↓reduceIte, List.head?_nil]
      exact passSafe_done _
  rw [← h] at hstate
  unfold runRedemptionPass
  cases hs : input.attempt.state with
  | idle n => exact absurd (hs ▸ hstate) (familyState_ne_idle n journal)
  | complete n id hash t remaining =>
    simp only [advance]
    by_cases hpos : ExactAmount.zero < input.resolvedWinnerRedeemable
    · simp only [hpos, ↓reduceIte, reserveSubmission, List.head?_cons]
      exact passSafe_submitRequest hown (hstate.trans (congrArg some hs)) trivial rfl
    · simp only [hpos, ↓reduceIte, List.head?_nil]
      exact passSafe_done _
  | failed n retry failure =>
    simp only [advance]
    by_cases hwait : input.now < retry
    · simp only [hwait, ↓reduceIte, List.head?_cons]
      exact passSafe_done _
    · simp only [hwait, ↓reduceIte, reserveSubmission, List.head?_cons]
      exact passSafe_submitRequest hown (hstate.trans (congrArg some hs)) trivial rfl
  | submissionReserved n balance requestHash deadline =>
    simp only [advance]
    by_cases hpast : (RedemptionAttemptState.submissionReserved n balance requestHash
        deadline).submissionDeadlinePassed input.now = true
    · simp only [hpast, ↓reduceIte, reserveSubmission, List.head?_cons]
      exact passSafe_submitRequest hown (hstate.trans (congrArg some hs)) hpast rfl
    · simp only [hpast, Bool.false_eq_true, ↓reduceIte, List.head?_cons]
      exact passSafe_done _
  | inFlight n id hash =>
    exact passSafe_reconcile hown hstate (by rw [hs]; rfl) (by rw [hs])
  | ambiguous n id hash =>
    cases id with
    | none => exact passSafe_done _
    | some id =>
      exact passSafe_reconcile hown hstate (by rw [hs]; rfl) (by rw [hs])
  | confirmedAwaitingBalance n id hash t => exact passSafe_done _

/-! ## Runs -/

/-- The journal, and the pass that is running. -/
structure RedemptionSystem where
  journal : List LiveJournalEvent
  running : Option (RedemptionProgram RedemptionPassResult)

/-- One step of the passes of a family and of everyone else who writes to the journal. -/
inductive RedemptionStep (hashes : JournalHashes) (identity : RedemptionAttemptIdentity) :
    RedemptionSystem → RedemptionSystem → Prop
  | start {journal} (input : RedemptionPassInput)
      (h : input.attempt = currentAttempt identity journal) :
      RedemptionStep hashes identity ⟨journal, none⟩ ⟨journal, some (runRedemptionPass hashes input)⟩
  | answered {journal journal'} {q : RedemptionQuestion} {rest} {answer : RedemptionAnswer q}
      (h : RedemptionAct journal q answer journal') :
      RedemptionStep hashes identity ⟨journal, some (.ask q rest)⟩ ⟨journal', some (rest answer)⟩
  /-- The pass has returned, or the process has crashed. -/
  | stopped {journal p} : RedemptionStep hashes identity ⟨journal, some p⟩ ⟨journal, none⟩
  | elsewhere {journal running} (event : LiveJournalEvent) (h : ¬ OfPass identity event) :
      RedemptionStep hashes identity ⟨journal, running⟩ ⟨journal ++ [event], running⟩

/-- What passes of the family, from an empty journal, can lead to. -/
def RedemptionReachable (hashes : JournalHashes) (identity : RedemptionAttemptIdentity) :
    RedemptionSystem → Prop :=
  Relation.ReflTransGen (RedemptionStep hashes identity) ⟨[], none⟩

/-- The journal is lawful, and the pass that is running will keep it so. -/
structure RedemptionInv (identity : RedemptionAttemptIdentity) (s : RedemptionSystem) : Prop where
  lawful : LawfulJournal identity s.journal
  safe : ∀ p, s.running = some p → PassSafe identity p s.journal

variable {s : RedemptionSystem}

theorem RedemptionInv.step {s' : RedemptionSystem} (hinv : RedemptionInv identity s)
    (h : RedemptionStep hashes identity s s') : RedemptionInv identity s' := by
  cases h with
  | start input h =>
    refine ⟨hinv.lawful, fun p hp => ?_⟩
    obtain rfl := Option.some.inj hp
    exact passSafe_runRedemptionPass h
  | answered h =>
    obtain ⟨hwritten, hsafe⟩ := (hinv.safe _ rfl).ask_step h
    refine ⟨?_, fun p hp => ?_⟩
    · rcases hwritten with hsame | ⟨event, hperm, happ⟩
      · exact hsame ▸ hinv.lawful
      · exact happ ▸ hinv.lawful.append hperm
    · obtain rfl := Option.some.inj hp
      exact hsafe
  | stopped => exact ⟨hinv.lawful, fun p hp => absurd hp (by simp)⟩
  | elsewhere event h =>
    exact ⟨hinv.lawful.append (.elsewhere h), fun p hp => (hinv.safe p hp).stable ⟨event, h, rfl⟩⟩

theorem redemptionInv_reachable (h : RedemptionReachable hashes identity s) :
    RedemptionInv identity s := by
  induction h with
  | refl => exact ⟨lawfulJournal_nil, fun p hp => absurd hp (by simp)⟩
  | tail _ hstep ih => exact ih.step hstep

/--
**No double submission.**

In whatever journal the passes of a family lead to: between two requests the first was confirmed
as failed or its custody reconciled, or the second is stamped past the first one's signed
deadline and no transaction was recorded for the first. Requests that follow one another need
nothing more; for any two, each request has to be signed with a deadline that has not passed, as
the service signs it, four minutes ahead of the instant it is stamped with. Counts grow from
request to request up to the limit of their type, and from a request until custody is reconciled
the rebuilt state keeps the account closed for buying.
-/
theorem redemption_submitted_once (hashes : JournalHashes) (identity : RedemptionAttemptIdentity)
    {s : RedemptionSystem} (h : RedemptionReachable hashes identity s) :
    (∀ before first between second after audit₁ audit₂,
      s.journal = before ++ first :: (between ++ second :: after) →
      IsRequest identity first audit₁ → IsRequest identity second audit₂ →
      (NoRequest identity between ∨ SignedAhead identity s.journal →
        Settled identity between
          ∨ PastDeadline audit₁ second.timestamp ∧ Unidentified identity between)
      ∧ (audit₁.attemptCount.toNat < 2 ^ 32 - 1 → audit₁.attemptCount < audit₂.attemptCount))
    ∧ (∀ before first between after audit, s.journal = before ++ first :: (between ++ after) →
      IsRequest identity first audit → (∀ e ∈ between, ¬ IsCustody identity e) →
      ∃ state, familyState identity (before ++ first :: between) = some state
        ∧ (redemptionPosture state).closesNewBuyAdmission = true) := by
  have hlawful := (redemptionInv_reachable h).lawful
  constructor
  · intro before first between second after audit₁ audit₂ heq hfirst hsecond
    have hsplit : s.journal = before ++ first :: (between ++ [second]) ++ after := by
      rw [heq]
      simp
    rw [hsplit] at hlawful
    refine ⟨fun hsigned => ?_, fun hlimit => ?_⟩
    · refine hlawful.of_append.requests_separated hfirst hsecond (hsigned.imp_right fun hall e he => ?_)
      exact hall e (by rw [heq]; simp [he])
    · exact UInt32.lt_of_lt_of_le (saturatingSuccU32_gt hlimit)
        (hlawful.of_append.request_count hfirst hsecond)
  · intro before first between after audit heq hfirst hopen
    have hsplit : s.journal = before ++ first :: between ++ after := by
      rw [heq]
      simp
    rw [hsplit] at hlawful
    exact hlawful.of_append.closes_between hfirst hopen

/-! ## Playing a run -/

/-- A step of a run, with what it leaves open. -/
inductive RedemptionMove where
  | pass (now : OffsetDateTime) (redeemable : CollateralAmount)
      (signedRequest : Option SignedRedemptionRequest) (requestHash : Option String)
      (retryNotBefore : OffsetDateTime)
  | append
  | submit (answer : Except RedemptionTransportError ConfirmedRedemption)
  | observe (answer : Except RedemptionStatusReadError RedemptionStatusObservation)
  | stop

def RedemptionSystem.play (hashes : JournalHashes) (identity : RedemptionAttemptIdentity)
    (s : RedemptionSystem) (move : RedemptionMove) : Option RedemptionSystem :=
  match move, s.running with
  | .pass now redeemable signedRequest requestHash retryNotBefore, none =>
    some ⟨s.journal, some (runRedemptionPass hashes ⟨currentAttempt identity s.journal, now,
      redeemable, signedRequest, requestHash, retryNotBefore⟩)⟩
  | .append, some (.ask (.append accountId timestamp payload) rest) =>
    some ⟨s.journal ++ [appended s.journal accountId timestamp payload],
      some (rest (Except.ok (appended s.journal accountId timestamp payload)))⟩
  | .submit answer, some (.ask (.submitAndConfirm _) rest) => some ⟨s.journal, some (rest answer)⟩
  | .observe answer, some (.ask (.reconcileTransaction _) rest) => some ⟨s.journal, some (rest answer)⟩
  | .stop, some _ => some ⟨s.journal, none⟩
  | _, _ => none

theorem RedemptionReachable.play {s' : RedemptionSystem} {moves : List RedemptionMove}
    (h : RedemptionReachable hashes identity s)
    (hplay : moves.foldlM (RedemptionSystem.play hashes identity) s = some s') :
    RedemptionReachable hashes identity s' := by
  induction moves generalizing s with
  | nil =>
    obtain rfl := Option.some.inj hplay
    exact h
  | cons move moves ih =>
    obtain ⟨next, hnext, hplay⟩ := Option.bind_eq_some_iff.mp hplay
    refine ih (h.tail ?_) hplay
    obtain ⟨journal, running⟩ := s
    unfold RedemptionSystem.play at hnext
    split at hnext
    case h_6 => simp at hnext
    all_goals
      rename_i hrunning
      obtain rfl : running = _ := hrunning
      obtain rfl := Option.some.inj hnext
    · exact .start _ rfl
    · exact .answered (.appended _ _ _)
    · exact .answered (.submitted _ _)
    · exact .answered (.observed _ _)
    · exact .stopped

/-! Submissions whose answers are lost, and the same family submitted past its deadlines. -/

namespace LostSubmission

def family : RedemptionAttemptIdentity := ⟨⟨"alice"⟩, ⟨"0xc1"⟩, "0xAd01", "0xF0"⟩

def plainHashes : JournalHashes := ⟨fun _ => .ok "a", fun _ => .ok "d", fun text => text⟩

def instant (seconds : Int) : OffsetDateTime := ⟨seconds * 1000000000⟩

def balance : CollateralAmount := ⟨(5 : UInt64).toNat, UInt64.toNat_lt 5⟩

def request (deadline : UInt64) : SignedRedemptionRequest :=
  ⟨⟨"0xad01", [1], ⟨"0xc1"⟩, false⟩, .depositWallet, "0x51", "0xf0", "0", "0x52", some deadline, "m"⟩

def requested (count : UInt32) (deadline : UInt64) : RedemptionRequestedAudit :=
  ⟨family, count, balance, redemptionRequestAudit plainHashes (request deadline) "h"⟩

/-- A request that is stamped at an instant and signed with a deadline. -/
def event (sequence : Nat) (count : UInt32) (seconds : Int) (deadline : UInt64) : LiveJournalEvent :=
  ⟨⟨"alice"⟩, sequence, instant seconds, .redemptionRequested (requested count deadline)⟩

/-- A pass that submits such a request and never hears of it. -/
def lost (seconds : Int) (deadline : UInt64) : List RedemptionMove :=
  [.pass (instant seconds) balance (some (request deadline)) (some "h") (instant seconds), .append,
    .submit (.error .transport), .stop]

theorem played (moves : List RedemptionMove) (journal : List LiveJournalEvent)
    (h : ((moves.foldlM (RedemptionSystem.play plainHashes family) ⟨[], none⟩).map
      RedemptionSystem.journal) = some journal) :
    ∃ s, RedemptionReachable plainHashes family s ∧ s.journal = journal := by
  obtain ⟨s, hplay, hjournal⟩ := Option.map_eq_some_iff.mp h
  exact ⟨s, RedemptionReachable.play .refl hplay, hjournal⟩

/-- Each request is signed four minutes ahead: the third is past the deadline of the first. -/
theorem resubmitted : ∃ s, RedemptionReachable plainHashes family s
    ∧ s.journal = [event 0 1 60 300, event 1 2 301 541, event 2 3 542 782]
    ∧ SignedAhead family s.journal
    ∧ (Settled family [event 1 2 301 541]
      ∨ PastDeadline (requested 1 300) (instant 542) ∧ Unidentified family [event 1 2 301 541]) := by
  obtain ⟨s, hreach, hjournal⟩ := played (lost 60 300 ++ lost 301 541 ++ lost 542 782)
    [event 0 1 60 300, event 1 2 301 541, event 2 3 542 782] rfl
  have hsigned : SignedAhead family s.journal := by
    rw [hjournal]
    intro e he audit haudit deadline hdeadline
    simp only [List.mem_cons, List.not_mem_nil, or_false] at he
    rcases he with rfl | rfl | rfl
    all_goals
      obtain ⟨⟨⟩, _⟩ := haudit
      obtain rfl := Option.some.inj hdeadline
      decide
  exact ⟨s, hreach, hjournal, hsigned, ((redemption_submitted_once plainHashes family hreach).1 []
    (event 0 1 60 300) [event 1 2 301 541] (event 2 3 542 782) [] _ _ hjournal ⟨rfl, rfl⟩
    ⟨rfl, rfl⟩).1 (.inr hsigned)⟩

/-- The second request is signed with a deadline that has passed, and the clock is set back: the
third request is stamped before the deadline of the first. -/
theorem resubmitted_early : ∃ s, RedemptionReachable plainHashes family s
    ∧ s.journal = [event 0 1 60 300, event 1 2 301 100, event 2 3 150 390]
    ∧ ¬ (Settled family [event 1 2 301 100] ∨ PastDeadline (requested 1 300) (instant 150)
      ∧ Unidentified family [event 1 2 301 100]) := by
  obtain ⟨s, hreach, hjournal⟩ := played (lost 60 300 ++ lost 301 100 ++ lost 150 390)
    [event 0 1 60 300, event 1 2 301 100, event 2 3 150 390] rfl
  refine ⟨s, hreach, hjournal, ?_⟩
  rintro (⟨e, he, hsettled⟩ | ⟨⟨deadline, hdeadline, hpast⟩, _⟩)
  · obtain rfl := List.mem_singleton.mp he
    rcases hsettled with ⟨_, ⟨⟩, _⟩ | ⟨_, ⟨⟩, _⟩
  · obtain rfl := Option.some.inj hdeadline
    exact absurd hpast (by decide)

end LostSubmission

end PredictionEdge
