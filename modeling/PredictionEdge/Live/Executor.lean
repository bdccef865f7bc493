import PredictionEdge.Lib.Program
import PredictionEdge.Live.Admission

/-!
# The live executor

One order in two phases, as `execution-core/src/live_executor.rs` has it. The first phase admits
the order, has the venue sign it and records it as prepared; only then does it hand out the
capability to submit. The second phase spends the capability on one submission and records what
came of it. Each call asks the journal to append and the venue to answer, may fail at any of
these, and may be cut off at any of them.

A clock is given by its readings, in the order in which a call takes them.
-/

namespace PredictionEdge

/-! ## Requests and results -/

structure FrozenLiveTarget where
  accountId : AccountId
  credentialBinding : CredentialBindingIdentity
  deriving DecidableEq

structure LiveModeSnapshot where
  requested : LiveControlMode
  effective : LiveControlMode
  deriving DecidableEq

/-- One complete order target. -/
structure LiveOrderRequest where
  target : FrozenLiveTarget
  currentCredentialBinding : CredentialBindingIdentity
  mode : LiveModeSnapshot
  identity : LiveOrderIdentity
  conditionId : PolymarketConditionId
  outcomeId : OutcomeId
  tokenId : PolymarketTokenId
  admission : LiveAdmissionArtifact
  ladder : LadderPlan
  economic : EconomicPrepared

structure LiveVenuePrepareRequest where
  conditionId : PolymarketConditionId
  outcomeId : OutcomeId
  tokenId : PolymarketTokenId
  negRisk : Bool
  limitPrice : Price
  shares : ShareAmount
  maximumCollateral : CollateralAmount
  tickSize : Price
  metadataHashes : List String
  deriving DecidableEq

/-- A signed order with the capability to submit it. -/
structure LiveVenuePrepared (Submission : Type) where
  audit : PreparedPolymarketBuy
  submission : Submission

/-- A prepared order, returned only once its record is synchronized. -/
structure PreparedLiveOrder (Submission : Type) where
  accountId : AccountId
  identity : LiveOrderIdentity
  orderHash : String
  preparedAudit : LiveOrderPreparedAudit
  submission : Submission

inductive LiveOrderOutcome where
  | refused (reason : LiveAdmissionRefusal)
  | matched (orderHash venueOrderId : String) (transactionHashes : List String)
      (executed : Option LiveExecutedAmounts)
  | killed (orderHash : String) (venueOrderId : Option String)
  | rejected (orderHash venueOrderId : Option String) (kind : LiveOrderRejectKind)
      (preparation : Option (LiveOrderPreparationFailure × Bool))
  | ambiguous (orderHash : String) (kind : LiveOrderAmbiguityKind) (reconcileFirst : Bool)
  deriving DecidableEq

/-- The result of the first phase. Only a prepared order carries a capability. -/
inductive LivePrepareResult (Submission : Type) where
  | prepared (order : PreparedLiveOrder Submission)
  | terminal (outcome : LiveOrderOutcome)

inductive LivePostClassification where
  | matched (venueOrderId : String) (executed : LiveExecutedAmounts) (transactionHashes : List String)
  | killed (venueOrderId : Option String)
  | rejected (venueOrderId : Option String)
  | ambiguous (kind : LiveOrderAmbiguityKind)
  deriving DecidableEq

inductive LiveVenueReconciledOutcome where
  | matched (venueOrderId : String) (transactionHashes : List String)
  | killed (venueOrderId : Option String)
  | rejected (venueOrderId : Option String)
  | ambiguous (kind : LiveOrderAmbiguityKind)
  deriving DecidableEq

structure LiveVenueReconciliation where
  outcome : LiveVenueReconciledOutcome
  evidence : List RawHttpAttempt

structure LiveVenueReconciliationError where
  evidence : List RawHttpAttempt

inductive LiveVenuePreparationError where
  | venue

/-- A submission that was sent, or that the venue found past its deadline before sending. -/
inductive RawPostAttempt where
  | attempted (response : RawHttpResponse)
  | notAttempted (checkedAt : OffsetDateTime)

/-! ## Questions and answers -/

inductive ExecutorQuestion (Submission : Type) where
  | append (accountId : AccountId) (timestamp : OffsetDateTime) (payload : LiveJournalPayload)
  | readBalanceAndAllowance (negRisk : Bool)
  | prepare (request : LiveVenuePrepareRequest)
  | postOnce (submission : Submission) (wallClockDeadline : Option OffsetDateTime)
  | reconcileAndCancelByOrderHash (orderHash : String)

def ExecutorAnswer (Submission : Type) : ExecutorQuestion Submission → Type
  | .append _ _ _ => Except LiveJournalError LiveJournalEvent
  | .readBalanceAndAllowance _ => Except LiveVenueAccountReadError LiveVenueAccountState
  | .prepare _ => Except LiveVenuePreparationError (LiveVenuePrepared Submission)
  | .postOnce _ _ => Except RawTransportFailure RawPostAttempt
  | .reconcileAndCancelByOrderHash _ => Except LiveVenueReconciliationError LiveVenueReconciliation

abbrev ExecutorProgram (Submission α : Type) :=
  Lib.Program (ExecutorQuestion Submission) (ExecutorAnswer Submission) LiveJournalError α

namespace ExecutorProgram

variable {Submission : Type}

def append (accountId : AccountId) (timestamp : OffsetDateTime) (payload : LiveJournalPayload) :
    ExecutorProgram Submission LiveJournalEvent :=
  .ask (.append accountId timestamp payload) fun answer => .done answer

def readBalanceAndAllowance (negRisk : Bool) :
    ExecutorProgram Submission (Except LiveVenueAccountReadError LiveVenueAccountState) :=
  .ask (.readBalanceAndAllowance negRisk) fun answer => .done (.ok answer)

def prepare (request : LiveVenuePrepareRequest) : ExecutorProgram Submission
    (Except LiveVenuePreparationError (LiveVenuePrepared Submission)) :=
  .ask (.prepare request) fun answer => .done (.ok answer)

def postOnce (submission : Submission) (wallClockDeadline : Option OffsetDateTime) :
    ExecutorProgram Submission (Except RawTransportFailure RawPostAttempt) :=
  .ask (.postOnce submission wallClockDeadline) fun answer => .done (.ok answer)

def reconcileAndCancelByOrderHash (orderHash : String) : ExecutorProgram Submission
    (Except LiveVenueReconciliationError LiveVenueReconciliation) :=
  .ask (.reconcileAndCancelByOrderHash orderHash) fun answer => .done (.ok answer)

/-- A step inside the process. -/
def ofJournal {α : Type} (result : Except LiveJournalError α) : ExecutorProgram Submission α :=
  .done result

end ExecutorProgram

open ExecutorProgram (append readBalanceAndAllowance prepare postOnce reconcileAndCancelByOrderHash
  ofJournal)

/-! ## Admitting -/

namespace LiveOrderRequest

def admissionAudit (request : LiveOrderRequest) : LiveAdmissionArtifactAudit :=
  .new request.admission.market request.admission.settlement request.admission.feeSchedule
    request.admission.receipts

/-- What a request is classified from, but for the account. -/
def classificationInput (request : LiveOrderRequest) (evaluatedAt : OffsetDateTime)
    (account : LiveAdmissionAccountEvidence) : LiveAdmissionClassificationInput where
  evaluatedAt := evaluatedAt
  requestedMode := request.mode.requested
  effectiveMode := request.mode.effective
  frozenBinding := request.target.credentialBinding
  currentBinding := request.currentCredentialBinding
  identity := request.identity
  conditionId := request.conditionId
  outcomeId := request.outcomeId
  tokenId := request.tokenId
  admission := request.admissionAudit
  ladder := .new request.ladder
  economic := request.economic
  account := account

/-- The record of an evaluated admission. -/
def evaluation (request : LiveOrderRequest) (accountState : Option LiveAccountStateAudit)
    (failureEvidence : List RawHttpAttempt) (failureRequestDescriptorHashes : List String)
    (failureHashes : List String) (verdict : LiveAdmissionVerdict) : LiveAdmissionEvaluationAudit where
  identity := request.identity
  frozenBinding := request.target.credentialBinding
  currentBinding := request.currentCredentialBinding
  requestedMode := request.mode.requested
  effectiveMode := request.mode.effective
  economic := request.economic
  accountState := accountState
  accountReadFailureEvidence := failureEvidence
  accountReadFailureRequestDescriptorHashes := failureRequestDescriptorHashes
  accountReadFailureEvidenceHashes := failureHashes
  verdict := verdict

def venueRequest (request : LiveOrderRequest) : LiveVenuePrepareRequest where
  conditionId := request.conditionId
  outcomeId := request.outcomeId
  tokenId := request.tokenId
  negRisk := request.admission.market.negRisk
  limitPrice := request.ladder.limitPrice
  shares := request.ladder.shares
  maximumCollateral := request.ladder.worstCaseDebit
  tickSize := request.admission.market.minimumTickSize
  metadataHashes := request.identity.evidenceHashes

end LiveOrderRequest

section

variable {Submission : Type} (libraries : AccountLibraries) (arith : DecimalArith)

section

variable (request : LiveOrderRequest) (now : OffsetDateTime)
  (accountState : Option LiveAccountStateAudit) (failureEvidence : List RawHttpAttempt)
  (failureRequestDescriptorHashes : List String)

def journalAdmission (verdict : LiveAdmissionVerdict) : ExecutorProgram Submission Unit := do
  let failureHashes ← ofJournal (httpAttemptHashes libraries.hashes failureEvidence)
  let _ ← append request.target.accountId now (.admissionEvaluated (request.evaluation accountState
    failureEvidence failureRequestDescriptorHashes failureHashes verdict))
  pure ()

def refuse (reason : LiveAdmissionRefusal) :
    ExecutorProgram Submission (LivePrepareResult Submission) := do
  journalAdmission libraries request now accountState failureEvidence failureRequestDescriptorHashes
    (.refused reason)
  pure (.terminal (.refused reason))

end

/-- The record of a preparation that failed, and the outcome of its order. -/
def failPreparation (accountId : AccountId) (identity : LiveOrderIdentity) (now : OffsetDateTime)
    (failure : LiveOrderPreparationFailure) (control : Option LiveControlObservation) :
    ExecutorProgram Submission LiveOrderOutcome := do
  let _ ← append accountId now (.orderPreparationFailed ⟨identity, failure, control⟩)
  pure (.rejected none none .preparationFailed (some (failure, control.isSome)))

/-- The signed order is the one that was requested. -/
def preparedMatches (prepared : PreparedPolymarketBuy) (request : LiveVenuePrepareRequest)
    (selectedSpender : String) : Bool :=
  prepared.conditionId = request.conditionId && prepared.outcomeId = request.outcomeId
    && prepared.tokenId = request.tokenId && prepared.negRisk = request.negRisk
    && prepared.side = "BUY" && prepared.orderType = "FOK" && !prepared.postOnly
    && !prepared.deferExec && prepared.exchangeDomainVersion = 2
    && prepared.takerShares = request.shares && prepared.limitPrice = request.limitPrice
    && prepared.minimumTickSize = request.tickSize
    && prepared.makerCollateral = request.maximumCollateral
    && prepared.worstCaseDebit = request.maximumCollateral
    && prepared.spender = selectedSpender && prepared.verifyingContract = selectedSpender
    && prepared.metadataHashes = request.metadataHashes
    && !isBlank prepared.orderHash && !isBlank prepared.postBodyHash

def preparedMatchesRequest (prepared : PreparedPolymarketBuy) (request : LiveOrderRequest)
    (account : LiveVenueAccountState) : Bool :=
  request.economic.market.conditionId = request.conditionId
    && request.economic.market.outcomeIndex.toUInt16 = request.outcomeId.val
    && request.economic.market.tokenId = request.tokenId && request.economic.market.side = .buy
    && preparedMatches prepared request.venueRequest account.selectedSpender

/-- The last part of a first phase: the venue signs, and the signed order is recorded. -/
def signAndRecord (accountId : AccountId) (identity : LiveOrderIdentity)
    (venueRequest : LiveVenuePrepareRequest) (isAsRequested : PreparedPolymarketBuy → Bool)
    (record : PreparedPolymarketBuy → LiveOrderPreparedAudit) (now : OffsetDateTime) :
    ExecutorProgram Submission (LivePrepareResult Submission) := do
  match ← prepare venueRequest with
  | .error _ => return .terminal (← failPreparation accountId identity now .venue none)
  | .ok venuePrepared =>
    if isAsRequested venuePrepared.audit = false then
      return .terminal (← failPreparation accountId identity now .preparedAuditMismatch none)
    else
      let preparedAudit := record venuePrepared.audit
      let _ ← append accountId now (.orderPrepared preparedAudit)
      pure (.prepared ⟨accountId, identity, venuePrepared.audit.orderHash, preparedAudit,
        venuePrepared.submission⟩)

section

variable (request : LiveOrderRequest)

/-- The part of preparing an order that comes once the account is known. -/
def prepareWithAccount (account : LiveVenueAccountState) (clock : Nat → OffsetDateTime) :
    ExecutorProgram Submission (LivePrepareResult Submission) := do
  let accountAudit ← ofJournal (account.audit libraries.hashes)
  match classifyLiveAdmission arith (request.classificationInput (clock 1) (.state accountAudit)) with
  | .error _ =>
    refuse libraries request (clock 1) (some accountAudit) [] [] (.accountStateUnavailable .protocol)
  | .ok (.refused reason) => refuse libraries request (clock 1) (some accountAudit) [] [] reason
  | .ok .approved => do
    journalAdmission libraries request (clock 1) (some accountAudit) [] [] .approved
    signAndRecord request.target.accountId request.identity request.venueRequest
      (fun prepared => preparedMatchesRequest prepared request account)
      (fun prepared => ⟨request.identity, request.target.credentialBinding, request.economic,
        accountAudit, prepared⟩)
      (clock 2)

/-- The part of preparing an order when its account could not be read. -/
def refuseUnread (error : LiveVenueAccountReadError) (clock : Nat → OffsetDateTime) :
    ExecutorProgram Submission (LivePrepareResult Submission) :=
  let reason := match classifyLiveAdmission arith
      (request.classificationInput (clock 1) (.readFailure error.kind)) with
    | .ok (.refused reason) => reason
    | _ => .accountStateUnavailable .protocol
  refuse libraries request (clock 1) none error.evidence error.requestDescriptorHashes reason

/-- Prepare an order, with an account that was just observed or one that is read on the way. -/
def prepareWithOptionalAccount (observedAccount : Option LiveVenueAccountState)
    (clock : Nat → OffsetDateTime) : ExecutorProgram Submission (LivePrepareResult Submission) :=
  match classifyLiveAdmission arith (request.classificationInput (clock 0) .notRead) with
  | .ok (.refused reason) => do
    if reason = .credentialVersionChanged then
      let _ ← append request.target.accountId (clock 0) (.credentialBindingMismatch
        request.target.credentialBinding request.currentCredentialBinding)
    refuse libraries request (clock 0) none [] [] reason
  | _ =>
    match observedAccount with
    | some account => prepareWithAccount libraries arith request account clock
    | none => do
      match ← readBalanceAndAllowance request.admission.market.negRisk with
      | .ok account => prepareWithAccount libraries arith request account clock
      | .error error => refuseUnread libraries arith request error clock

def prepareWithClock (clock : Nat → OffsetDateTime) :
    ExecutorProgram Submission (LivePrepareResult Submission) :=
  prepareWithOptionalAccount libraries arith request none clock

def prepareWithObservedAccountAndClock (account : LiveVenueAccountState)
    (clock : Nat → OffsetDateTime) : ExecutorProgram Submission (LivePrepareResult Submission) :=
  prepareWithOptionalAccount libraries arith request (some account) clock

end

/-! ## Resuming an approved admission -/

def recordedRiskIsApproved (economic : EconomicPrepared) : Bool :=
  evaluateRisk economic.risk.snapshot = economic.risk.decision
    && evaluateRisk economic.risk.snapshot = .approved

def venueRequestFromApprovedAdmission (admission : LiveAdmissionEvaluationAudit) :
    LiveVenuePrepareRequest where
  conditionId := admission.economic.market.conditionId
  outcomeId := ⟨admission.economic.market.outcomeIndex.toUInt16⟩
  tokenId := admission.economic.market.tokenId
  negRisk := admission.economic.admission.market.negRisk
  limitPrice := admission.economic.ladder.limitPrice
  shares := admission.economic.ladder.minimumShares
  maximumCollateral := admission.economic.ladder.principal
  tickSize := admission.economic.admission.market.minimumTickSize
  metadataHashes := admission.identity.evidenceHashes

def preparedMatchesApprovedAdmission (prepared : PreparedPolymarketBuy)
    (admission : LiveAdmissionEvaluationAudit) (account : LiveAccountStateAudit) : Bool :=
  preparedMatches prepared (venueRequestFromApprovedAdmission admission) account.selectedSpender

/--
Resume an approved admission after a crash, without evaluating it into a second record. Evidence
that has expired, or that no longer comes to an approval, fails the preparation.
-/
def resumeApprovedAdmissionWithClock (accountId : AccountId)
    (admission : LiveAdmissionEvaluationAudit) (currentMode : LiveModeSnapshot)
    (currentBinding : CredentialBindingIdentity) (currentAccountState : LiveVenueAccountState)
    (clock : Nat → OffsetDateTime) : ExecutorProgram Submission (LivePrepareResult Submission) := do
  let currentAccountAudit ← ofJournal (currentAccountState.audit libraries.hashes)
  let reproduced := classifyLiveAdmission arith {
    admission.classificationInput (clock 0) (.state currentAccountAudit) with
    requestedMode := currentMode.requested
    effectiveMode := currentMode.effective
    currentBinding := currentBinding }
  if admission.verdict ≠ .approved ∨ recordedRiskIsApproved admission.economic = false
      ∨ reproduced.toOption ≠ some .approved then
    return .terminal (← failPreparation accountId admission.identity (clock 0)
      .recoveryAdmissionExpired none)
  match admission.accountState with
  | none =>
    return .terminal (← failPreparation accountId admission.identity (clock 0)
      .recoveryAdmissionExpired none)
  | some recordedAccountState =>
    signAndRecord accountId admission.identity (venueRequestFromApprovedAdmission admission)
      (fun prepared => preparedMatchesApprovedAdmission prepared admission currentAccountAudit)
      (fun prepared => ⟨admission.identity, admission.frozenBinding, admission.economic,
        recordedAccountState, prepared⟩)
      (clock 1)

/-! ## Spending the capability -/

section

variable (prepared : PreparedLiveOrder Submission) (now : OffsetDateTime)
  (failure : LiveOrderPreparationFailure)

/-- Drop the capability and record the order as not submitted. -/
def terminalizePrepared : ExecutorProgram Submission LiveOrderOutcome :=
  failPreparation prepared.accountId prepared.identity now failure none

def terminalizePreparedWithControl (control : LiveControlObservation) :
    ExecutorProgram Submission LiveOrderOutcome :=
  failPreparation prepared.accountId prepared.identity now failure (some control)

end

section

variable (accountId : AccountId) (identity : LiveOrderIdentity) (orderHash : String)

def journalPost (now : OffsetDateTime) (evidence : RawHttpAttempt) :
    ExecutorProgram Submission Unit := do
  let evidenceHash ← ofJournal (libraries.hashes.httpAttemptHash evidence)
  let _ ← append accountId now (.orderPosted ⟨identity, orderHash, evidence, evidenceHash⟩)
  pure ()

def journalReconciliation (now : OffsetDateTime) (source : LiveReconciliationSource)
    (outcome : LiveJournalOrderOutcome) (evidence : List RawHttpAttempt) :
    ExecutorProgram Submission Unit := do
  let evidenceHashes ← ofJournal (httpAttemptHashes libraries.hashes evidence)
  let _ ← append accountId now
    (.orderReconciled ⟨identity, orderHash, source, outcome, evidence, evidenceHashes⟩)
  pure ()

/-- Ask the venue what became of a submission whose response does not say. -/
def reconcileAmbiguousWithClock (initialKind : LiveOrderAmbiguityKind)
    (clock : Nat → OffsetDateTime) : ExecutorProgram Submission LiveOrderOutcome := do
  let journal := journalReconciliation libraries accountId identity orderHash (clock 0)
    .orderHashLookupAndCancel
  match ← reconcileAndCancelByOrderHash orderHash with
  | .error error => do
    journal (.ambiguous .reconciliationUnavailable) error.evidence
    pure (.ambiguous orderHash initialKind true)
  | .ok reconciliation =>
    match reconciliation.outcome with
    | .matched venueOrderId transactionHashes => do
      journal (.matched venueOrderId transactionHashes none) reconciliation.evidence
      pure (.matched orderHash venueOrderId transactionHashes none)
    | .killed venueOrderId => do
      journal (.killed venueOrderId) reconciliation.evidence
      pure (.killed orderHash venueOrderId)
    | .rejected venueOrderId => do
      journal (.rejected venueOrderId .venueRejected) reconciliation.evidence
      pure (.rejected (some orderHash) venueOrderId .venueRejected none)
    | .ambiguous kind => do
      journal (.ambiguous kind) reconciliation.evidence
      pure (.ambiguous orderHash initialKind true)

end

/--
Submit a prepared order once. `classifyPostResponse` is the venue's reading of its response;
`none` is a response it cannot read.
-/
def submitWithClockAndDeadline
    (classifyPostResponse : RawHttpResponse → Option LivePostClassification)
    (prepared : PreparedLiveOrder Submission) (clock : Nat → OffsetDateTime)
    (wallClockDeadline : Option OffsetDateTime) : ExecutorProgram Submission LiveOrderOutcome := do
  let ⟨accountId, identity, orderHash, _, submission⟩ := prepared
  let reconcile := fun kind =>
    reconcileAmbiguousWithClock libraries accountId identity orderHash kind clock
  match ← postOnce submission wallClockDeadline with
  | .error failure => do
    journalPost libraries accountId identity orderHash failure.observedAt (.transportFailure failure)
    reconcile (if failure.errorClass = .timeout then .timeout else .transport)
  | .ok (.notAttempted checkedAt) =>
    failPreparation accountId identity checkedAt .prePostCopyExpired none
  | .ok (.attempted response) => do
    let attempt := RawHttpAttempt.response response
    journalPost libraries accountId identity orderHash response.observedAt attempt
    let journal := fun outcome => journalReconciliation libraries accountId identity orderHash
      response.observedAt .postResponse outcome [attempt]
    match classifyPostResponse response with
    | some (.matched venueOrderId executed transactionHashes) => do
      journal (.matched venueOrderId transactionHashes (some executed))
      pure (.matched orderHash venueOrderId transactionHashes (some executed))
    | some (.killed venueOrderId) => do
      journal (.killed venueOrderId)
      pure (.killed orderHash venueOrderId)
    | some (.rejected venueOrderId) => do
      journal (.rejected venueOrderId .venueRejected)
      pure (.rejected (some orderHash) venueOrderId .venueRejected none)
    | some (.ambiguous kind) => reconcile kind
    | none => reconcile .unexpectedResponse

end

end PredictionEdge
