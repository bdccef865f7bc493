import PredictionEdge.Live.Account
import PredictionEdge.Live.Compose

/-!
# Admitting an order

The one ordered classifier of live admissions and the verifier that replays a recorded one, as
`execution-core/src/live_executor.rs` has them. Until the account is read the classifier can
only refuse or ask for it; with the account it decides. The verifier classifies a record afresh
from what the record retains, at the record's own instant.
-/

namespace PredictionEdge

open Lib

/-! ## Freshness of the evidence -/

def liveMarketSchemaVersion : UInt32 := 1
def liveMarketParserVersion : UInt32 := 1
def venueSettlementSchemaVersion : UInt16 := 1

inductive LiveMarketError where
  | futureObservation
  | stale
  deriving DecidableEq, Repr

/-- An observation is fresh for its window; the age is an `i64`. -/
def LiveMarketEvidence.validateFresh (market : LiveMarketEvidence) (nowUnix : Int) :
    Except LiveMarketError Unit := do
  let age := nowUnix - market.observedAtUnix
  refuseIf (age < -2 ^ 63 ∨ 2 ^ 63 ≤ age) .futureObservation
  refuseIf (age < 0) .futureObservation
  refuseIf (market.freshnessWindowSecs.toNat < age.toNat) .stale

inductive VenueSettlementError where
  | schema (version : UInt16)
  | stale
  | alreadyResolved
  | ambiguous
  deriving DecidableEq, Repr

/-- Fresh and unresolved. The age wraps as an `i64` does. -/
def VenueSettlementRecord.validateFreshForEntry (record : VenueSettlementRecord)
    (now : OffsetDateTime) : Except VenueSettlementError Unit := do
  refuseIf (record.schemaVersion ≠ venueSettlementSchemaVersion) (.schema record.schemaVersion)
  let age := (now.unixTimestamp - record.observedAtUnix).bmod (2 ^ 64)
  refuseIf (age < 0 ∨ record.freshnessWindowSecs.toNat < age.toNat) .stale
  match record.status with
  | .unresolved => pure ()
  | .resolvedWinner _ => throw .alreadyResolved
  | .resolvedAmbiguous => throw .ambiguous

/-! ## The classifier -/

/-- What the classifier knows of the account. -/
inductive LiveAdmissionAccountEvidence where
  | notRead
  | state (account : LiveAccountStateAudit)
  | readFailure (kind : LiveAccountReadFailure)
  deriving DecidableEq

/-- Everything an admission is decided on. -/
structure LiveAdmissionClassificationInput where
  evaluatedAt : OffsetDateTime
  requestedMode : LiveControlMode
  effectiveMode : LiveControlMode
  frozenBinding : CredentialBindingIdentity
  currentBinding : CredentialBindingIdentity
  identity : LiveOrderIdentity
  conditionId : PolymarketConditionId
  outcomeId : OutcomeId
  tokenId : PolymarketTokenId
  admission : LiveAdmissionArtifactAudit
  ladder : LadderPlanAudit
  economic : EconomicPrepared
  account : LiveAdmissionAccountEvidence

/-- The gates before the account passed, and the account is needed. -/
inductive LiveAdmissionNeedsAccountState where
  | needed
  deriving DecidableEq, Repr

/-- The running figures of a walk over the recorded asks. -/
structure LadderCheck where
  shares : ShareAmount
  spend : Decimal
  previous : Option Price

def LadderCheck.take (arith : DecimalArith) (check : LadderCheck) (ask : LadderAskAudit) :
    Except LiveAdmissionRefusal LadderCheck := do
  refuseIf (ask.price = .zero ∨ ask.shares = .zero
    ∨ check.previous.any (fun price => ask.price < price)) .ladderInvalid
  let shares ← (check.shares.checkedAdd ask.shares).mapError fun _ => .ladderInvalid
  let spend ← okOr ((arith.checkedMul ask.shares.toDecimal ask.price.val).bind
    (arith.checkedAdd check.spend)) .ladderInvalid
  pure ⟨shares, spend, some ask.price⟩

def validateLadder (arith : DecimalArith) (plan : LadderPlanAudit) (minimumTickSize : Price)
    (minimumOrderSize : ShareAmount) : Except LiveAdmissionRefusal Unit := do
  refuseIf (plan.usedAsks = [] ∨ plan.minimumShares < minimumOrderSize ∨ plan.bestAsk = .zero
    ∨ plan.limitPrice = .zero ∨ plan.limitPrice < plan.bestAsk
    -- the limit price is not a whole number of ticks
    ∨ (plan.limitPrice.toRat / minimumTickSize.toRat).den ≠ 1) .ladderInvalid
  let check ← plan.usedAsks.foldlM (LadderCheck.take arith) ⟨.zero, .zero, none⟩
  let expectedSpend : CollateralAmount ← (ExactAmount.fromDecimalExact arith
    (check.spend.roundDpWithStrategy 6 .toNegativeInfinity)).mapError fun _ => .ladderInvalid
  refuseIf (check.shares < plan.minimumShares ∨ plan.principal < expectedSpend
    ∨ plan.usedAsks.head?.map LadderAskAudit.price ≠ some plan.bestAsk
    ∨ plan.usedAsks.getLast?.map LadderAskAudit.price ≠ some plan.limitPrice) .ladderInvalid

def LiveMarketError.refusal : LiveMarketError → LiveAdmissionRefusal
  | stale | futureObservation => .marketEvidenceStale

def VenueSettlementError.refusal : VenueSettlementError → LiveAdmissionRefusal
  | stale | schema _ => .settlementEvidenceStale
  | alreadyResolved => .marketAlreadyResolved
  | ambiguous => .settlementAmbiguous

/-- The evidence a recorded market half stands for. -/
def LiveAdmissionArtifactAudit.marketEvidence (admission : LiveAdmissionArtifactAudit) :
    LiveMarketEvidence :=
  let market := admission.market
  ⟨market.conditionId, market.orderedOutcomeTokenIds, market.negRisk, none, none,
    market.minimumTickSize, market.minimumOrderSize, admission.scheduledEndUnix,
    market.observedAtUnix, market.schemaVersion, market.parserVersion, market.freshnessWindowSecs⟩

/-- Both halves of the evidence are fresh at an instant. -/
def LiveAdmissionArtifactAudit.validateFresh (admission : LiveAdmissionArtifactAudit)
    (now : OffsetDateTime) : Except LiveAdmissionRefusal Unit := do
  (admission.marketEvidence.validateFresh now.unixTimestamp).mapError LiveMarketError.refusal
  (admission.settlement.validateFreshForEntry now).mapError VenueSettlementError.refusal

/-- The market half is of a schema that is read, with a tick and a minimum. -/
def validateMarketShape (market : LiveMarketEvidenceAudit) : Except LiveAdmissionRefusal Unit :=
  refuseIf (market.schemaVersion ≠ liveMarketSchemaVersion
    ∨ market.parserVersion ≠ liveMarketParserVersion ∨ market.minimumTickSize = .zero
    ∨ market.minimumOrderSize = .zero) .marketEvidenceInvalid

def isBlank (s : String) : Bool := (trim s).isEmpty

/-- The identity is complete, and the order, its artifact and its economics are of one market. -/
def validateIdentity (input : LiveAdmissionClassificationInput) : Except LiveAdmissionRefusal Unit :=
  let market := input.admission.market
  refuseIf (isBlank input.identity.dispatchId ∨ isBlank input.identity.idempotencyKey
    ∨ isBlank input.identity.quoteId ∨ isBlank input.identity.configHash
    ∨ isBlank input.identity.decisionHash ∨ input.identity.evidenceHashes = []
    ∨ input.identity.schemaVersion = 0 ∨ input.identity.parserVersion = 0
    ∨ input.admission ≠ input.economic.admission
    ∨ input.economic.market.conditionId ≠ input.conditionId
    ∨ input.economic.market.outcomeIndex.toUInt16 ≠ input.outcomeId.val
    ∨ input.economic.market.tokenId ≠ input.tokenId
    ∨ input.economic.market.side ≠ .buy
    ∨ market.conditionId ≠ input.conditionId
    ∨ input.admission.settlement.conditionId ≠ input.conditionId
    ∨ market.orderedOutcomeTokenIds.get? input.outcomeId.val.toNat ≠ some input.tokenId)
    .artifactIdentityMismatch

/-- The ladder is sound, it is the one of the economics, and its debit is the recorded one. -/
def validateRequired (arith : DecimalArith) (input : LiveAdmissionClassificationInput) :
    Except LiveAdmissionRefusal CollateralAmount := do
  validateLadder arith input.ladder input.admission.market.minimumTickSize
    input.admission.market.minimumOrderSize
  refuseIf (input.ladder ≠ input.economic.ladder) .artifactIdentityMismatch
  let required ← input.economic.worstCaseAllInDebit.mapError fun _ => .ladderInvalid
  refuseIf (input.economic.balance.worstCaseDebit ≠ required) .ladderInvalid
  pure required

def validateArtifactAndLadder (arith : DecimalArith) (input : LiveAdmissionClassificationInput) :
    Except LiveAdmissionRefusal CollateralAmount := do
  validateMarketShape input.admission.market
  input.admission.validateFresh input.evaluatedAt
  validateIdentity input
  validateRequired arith input

/-- The checks of a read account, in their order. -/
def accountVerdict (required : CollateralAmount) (account : LiveAccountStateAudit) :
    LiveAdmissionVerdict :=
  if account.closedOnly then .refused .accountClosedOnly
  else if account.geoblocked then .refused .geoblocked
  else if account.collateralBalance < required then
    .refused (.insufficientBalance required account.collateralBalance)
  else if account.allowance < required then
    .refused (.insufficientAllowance required account.allowance)
  else if account.reconciledFreeCollateral < required then
    .refused (.worstCaseDebitExceedsFreeCollateral required account.reconciledFreeCollateral)
  else .approved

/-- The production gates in their order. -/
def classifyLiveAdmission (arith : DecimalArith) (input : LiveAdmissionClassificationInput) :
    Except LiveAdmissionNeedsAccountState LiveAdmissionVerdict :=
  if input.requestedMode ≠ .liveTiny ∨ input.effectiveMode ≠ .liveTiny then
    .ok (.refused .modeNotArmed)
  else if input.frozenBinding ≠ input.currentBinding then .ok (.refused .credentialVersionChanged)
  else
    match validateArtifactAndLadder arith input with
    | .error reason => .ok (.refused reason)
    | .ok required =>
      match input.account with
      | .notRead => .error .needed
      | .readFailure kind => .ok (.refused (.accountStateUnavailable kind))
      | .state account => .ok (accountVerdict required account)

/-! ### The gates before the account -/

/-- The gates that precede the account, up to what the account must then cover. -/
def preAccountGates (arith : DecimalArith) (input : LiveAdmissionClassificationInput) :
    Except LiveAdmissionRefusal CollateralAmount := do
  refuseIf (input.requestedMode ≠ .liveTiny ∨ input.effectiveMode ≠ .liveTiny) .modeNotArmed
  refuseIf (input.frozenBinding ≠ input.currentBinding) .credentialVersionChanged
  validateArtifactAndLadder arith input

/-- What passing gates come to with the account. -/
def accountEvidenceVerdict (required : CollateralAmount) : LiveAdmissionAccountEvidence →
    Except LiveAdmissionNeedsAccountState LiveAdmissionVerdict
  | .notRead => .error .needed
  | .readFailure kind => .ok (.refused (.accountStateUnavailable kind))
  | .state account => .ok (accountVerdict required account)

section

variable {arith : DecimalArith} {input : LiveAdmissionClassificationInput}
  {reason : LiveAdmissionRefusal} {required : CollateralAmount}

theorem classifyLiveAdmission_eq (arith : DecimalArith) (input : LiveAdmissionClassificationInput) :
    classifyLiveAdmission arith input = match preAccountGates arith input with
      | .error reason => .ok (.refused reason)
      | .ok required => accountEvidenceVerdict required input.account := by
  unfold classifyLiveAdmission preAccountGates refuseIf
  by_cases hmode : input.requestedMode ≠ .liveTiny ∨ input.effectiveMode ≠ .liveTiny
  · rw [if_pos hmode, if_pos hmode]
    rfl
  rw [if_neg hmode, if_neg hmode]
  by_cases hbinding : input.frozenBinding ≠ input.currentBinding
  · rw [if_pos hbinding, if_pos hbinding]
    rfl
  rw [if_neg hbinding, if_neg hbinding]
  cases validateArtifactAndLadder arith input with
  | error reason => rfl
  | ok required => cases input.account <;> rfl

theorem classifyLiveAdmission_refused (h : preAccountGates arith input = .error reason) :
    classifyLiveAdmission arith input = .ok (.refused reason) := by
  rw [classifyLiveAdmission_eq, h]

theorem classifyLiveAdmission_passed (h : preAccountGates arith input = .ok required) :
    classifyLiveAdmission arith input = accountEvidenceVerdict required input.account := by
  rw [classifyLiveAdmission_eq, h]

/-- With an account there is a verdict. -/
theorem classifyLiveAdmission_state_ne_error {account : LiveAccountStateAudit}
    {e : LiveAdmissionNeedsAccountState} (haccount : input.account = .state account) :
    classifyLiveAdmission arith input ≠ .error e := by
  rw [classifyLiveAdmission_eq, haccount]
  cases preAccountGates arith input <;> simp [accountEvidenceVerdict]

/-- With a failed read there is a refusal. -/
theorem classifyLiveAdmission_readFailure (arith : DecimalArith)
    (input : LiveAdmissionClassificationInput) {kind : LiveAccountReadFailure}
    (haccount : input.account = .readFailure kind) :
    ∃ reason, classifyLiveAdmission arith input = .ok (.refused reason) := by
  rw [classifyLiveAdmission_eq, haccount]
  cases preAccountGates arith input with
  | error reason => exact ⟨reason, rfl⟩
  | ok required => exact ⟨_, rfl⟩

/-- Everything the gates check, but for the freshness of the evidence. -/
def TimelessGates (arith : DecimalArith) (input : LiveAdmissionClassificationInput)
    (required : CollateralAmount) : Prop :=
  (input.requestedMode = .liveTiny ∧ input.effectiveMode = .liveTiny)
    ∧ input.frozenBinding = input.currentBinding
    ∧ validateMarketShape input.admission.market = .ok ()
    ∧ validateIdentity input = .ok ()
    ∧ validateRequired arith input = .ok required

theorem preAccountGates_eq_ok : preAccountGates arith input = .ok required ↔
    TimelessGates arith input required ∧ input.admission.validateFresh input.evaluatedAt = .ok () := by
  simp only [preAccountGates, validateArtifactAndLadder, bind_eq_ok, refuseIf_eq_ok, not_or,
    ne_eq, not_not, TimelessGates]
  constructor
  · rintro ⟨_, hmode, _, hbinding, _, hshape, _, hfresh, _, hidentity, hrequired⟩
    exact ⟨⟨hmode, hbinding, hshape, hidentity, hrequired⟩, hfresh⟩
  · rintro ⟨⟨hmode, hbinding, hshape, hidentity, hrequired⟩, hfresh⟩
    exact ⟨(), hmode, (), hbinding, (), hshape, (), hfresh, (), hidentity, hrequired⟩

/-- Gates that passed once pass at another instant exactly if the evidence is still fresh. -/
theorem preAccountGates_later (h : preAccountGates arith input = .ok required) (later : OffsetDateTime) :
    (∃ r, preAccountGates arith { input with evaluatedAt := later } = .ok r)
      ↔ input.admission.validateFresh later = .ok () := by
  constructor
  · intro ⟨r, hr⟩
    exact (preAccountGates_eq_ok.mp hr).2
  · intro hfresh
    exact ⟨required, preAccountGates_eq_ok.mpr ⟨(preAccountGates_eq_ok.mp h).1, hfresh⟩⟩

/-- An order passes the gates only with the market, the artifact and the ladder of its economics. -/
theorem preAccountGates_own (h : preAccountGates arith input = .ok required) :
    input.admission = input.economic.admission
    ∧ input.economic.market.conditionId = input.conditionId
    ∧ input.economic.market.outcomeIndex.toUInt16 = input.outcomeId.val
    ∧ input.economic.market.tokenId = input.tokenId
    ∧ input.ladder = input.economic.ladder := by
  obtain ⟨⟨-, -, -, hidentity, hrequired⟩, -⟩ := preAccountGates_eq_ok.mp h
  simp only [validateIdentity, refuseIf_eq_ok, not_or, ne_eq, not_not] at hidentity
  simp only [validateRequired, bind_eq_ok, refuseIf_eq_ok, ne_eq, not_not] at hrequired
  obtain ⟨-, -, -, -, -, -, -, -, hadmission, hcondition, houtcome, htoken, -⟩ := hidentity
  obtain ⟨-, -, -, hladder, -⟩ := hrequired
  exact ⟨hadmission, hcondition, houtcome, htoken, hladder⟩

end

/-! ## The verifier -/

inductive LiveAdmissionEvaluationError where
  | invalidRiskDecision
  | invalidAccountEvidence
  | journal (error : LiveJournalError)
  deriving DecidableEq, Repr

/-- What a recorded admission is classified from, but for the account. -/
def LiveAdmissionEvaluationAudit.classificationInput (admission : LiveAdmissionEvaluationAudit)
    (evaluatedAt : OffsetDateTime) (account : LiveAdmissionAccountEvidence) :
    LiveAdmissionClassificationInput where
  evaluatedAt := evaluatedAt
  requestedMode := admission.requestedMode
  effectiveMode := admission.effectiveMode
  frozenBinding := admission.frozenBinding
  currentBinding := admission.currentBinding
  identity := admission.identity
  conditionId := admission.economic.market.conditionId
  outcomeId := ⟨admission.economic.market.outcomeIndex.toUInt16⟩
  tokenId := admission.economic.market.tokenId
  admission := admission.economic.admission
  ladder := admission.economic.ladder
  economic := admission.economic
  account := account

def LiveAdmissionEvaluationAudit.hasFailureEvidence (admission : LiveAdmissionEvaluationAudit) : Bool :=
  !admission.accountReadFailureEvidence.isEmpty
    || !admission.accountReadFailureRequestDescriptorHashes.isEmpty
    || !admission.accountReadFailureEvidenceHashes.isEmpty

/-- The spender of a market's exchange. -/
def AccountLibraries.selectedSpender (libraries : AccountLibraries) (negRisk : Bool) : Option String :=
  if negRisk then libraries.negriskSpender else libraries.standardSpender

/-- The account a record retains, classified again and compared with the record. -/
def replayedAccount (libraries : AccountLibraries) (admission : LiveAdmissionEvaluationAudit)
    (selectedSpender : String) (binding : LiveAccountBindingAudit) :
    Except LiveAdmissionEvaluationError LiveAdmissionAccountEvidence :=
  match admission.accountState with
  | some account => do
    let classification ← (classifyLiveAccountResponses libraries account.evidence selectedSpender
      account.requestDescriptorHashes (some account.evidenceHashes) binding).mapError .journal
    match classification with
    | .readFailure _ => throw .invalidAccountEvidence
    | .state state =>
      let derived ← (state.audit libraries.hashes).mapError .journal
      refuseIf (account ≠ derived) .invalidAccountEvidence
      pure (.state derived)
  | none => do
    let classification ← (classifyLiveAccountResponses libraries
      admission.accountReadFailureEvidence selectedSpender
      admission.accountReadFailureRequestDescriptorHashes
      (some admission.accountReadFailureEvidenceHashes) binding).mapError .journal
    match classification with
    | .state _ => throw .invalidAccountEvidence
    | .readFailure failure => pure (.readFailure failure.kind)

/--
Evaluate a recorded admission again from its own economics and account evidence. A record whose
gates refuse before the account is read must hold no account evidence; one whose gates pass must
hold exactly one kind of it.
-/
def verifyLiveAdmissionEvaluation (libraries : AccountLibraries) (arith : DecimalArith)
    (admission : LiveAdmissionEvaluationAudit) (evaluatedAt : OffsetDateTime)
    (binding : Option LiveAccountBindingAudit) : Except LiveAdmissionEvaluationError Unit := do
  let binding ← okOr binding .invalidAccountEvidence
  refuseIf (admission.identity.idempotencyKey
    ≠ LiveOrderIdentity.idempotencyKeyFor admission.identity.dispatchId binding.accountId)
    .invalidAccountEvidence
  let riskDecision := evaluateRisk admission.economic.risk.snapshot
  refuseIf (admission.economic.risk.decision ≠ riskDecision
    ∨ admission.verdict = .approved ∧ riskDecision ≠ .approved) .invalidRiskDecision
  match classifyLiveAdmission arith (admission.classificationInput evaluatedAt .notRead) with
  | .ok expected =>
    refuseIf (admission.accountState.isSome ∨ admission.hasFailureEvidence
      ∨ admission.verdict ≠ expected) .invalidAccountEvidence
  | .error _ => do
    refuseIf (binding.isValidForFrozenCredential binding.accountId admission.frozenBinding = false
      ∨ admission.currentBinding ≠ binding.credential
      ∨ admission.accountState.isSome = admission.hasFailureEvidence) .invalidAccountEvidence
    let selectedSpender ← okOr
      (libraries.selectedSpender admission.economic.admission.market.negRisk)
      .invalidAccountEvidence
    let account ← replayedAccount libraries admission selectedSpender binding
    let expected ← (classifyLiveAdmission arith
      (admission.classificationInput evaluatedAt account)).mapError fun _ => .invalidAccountEvidence
    refuseIf (expected ≠ admission.verdict) .invalidAccountEvidence

end PredictionEdge
