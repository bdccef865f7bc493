import PredictionEdge.Lib.Json
import PredictionEdge.Live.Economic

/-!
# The live journal

The records of ordinary live execution, as `execution-core/src/live_journal.rs` has them. One
journal serves every account: a record carries its account, its place in the journal and its
instant, and what it says is one of the payloads below.
-/

namespace PredictionEdge

/-! ## Hashes -/

/-- The secret-free identity of one account-scoped request. -/
structure SanitizedHttpRequestDescriptor where
  accountId : String
  credentialFingerprint : String
  custodyWallet : String
  method : String
  path : String
  partition : String
  offset : UInt64
  orderedQuery : List (String × String)
  deriving DecidableEq

/-- The hash library over the serialised values that are hashed; serialisation may fail. -/
structure JournalHashes where
  httpAttemptHash : RawHttpAttempt → Except LiveJournalError String
  requestDescriptorHash : SanitizedHttpRequestDescriptor → Except LiveJournalError String
  /-- `blake3::hash(text.as_bytes()).to_hex()`. -/
  textHash : String → String

def httpAttemptHashes (hashes : JournalHashes) (attempts : List RawHttpAttempt) :
    Except LiveJournalError (List String) :=
  attempts.mapM hashes.httpAttemptHash

/-! ## Identities -/

/-- A frozen credential identity. -/
structure CredentialBindingIdentity where
  version : Int
  keyId : String
  deriving DecidableEq, Repr

/-- The credentialed account read that a financial fact came from. -/
structure LiveAccountBindingAudit where
  accountId : AccountId
  credential : CredentialBindingIdentity
  custodyWallet : String
  credentialFingerprint : String
  deriving DecidableEq, Repr

structure LiveFillProjectionIdentity where
  leaderWallet : String
  sourceTradeId : Option String
  marketId : String
  outcomeId : Int
  side : String
  deriving DecidableEq, Repr

/-- Identity shared by the admission of an order and every later fact of it. -/
structure LiveOrderIdentity where
  dispatchId : String
  idempotencyKey : String
  quoteId : String
  configHash : String
  decisionHash : String
  evidenceHashes : List String
  fillProjection : Option LiveFillProjectionIdentity
  schemaVersion : UInt16
  parserVersion : UInt16
  deriving DecidableEq, Repr

/-- The sole idempotency key of a dispatch for an account. -/
def LiveOrderIdentity.idempotencyKeyFor (dispatchId : String) (accountId : AccountId) : String :=
  dispatchId ++ ":" ++ accountId.val

inductive LiveControlMode where
  | off
  | liveTiny
  deriving DecidableEq, Repr

/-! ## Admissions -/

inductive LiveAccountReadFailure where
  | transport
  | authentication
  | protocol
  | stale
  deriving DecidableEq, Repr

/-- The account observation an admission is decided on. -/
structure LiveAccountStateAudit where
  observedAt : OffsetDateTime
  closedOnly : Bool
  geoblocked : Bool
  selectedSpender : String
  collateralBalance : CollateralAmount
  allowance : CollateralAmount
  reconciledFreeCollateral : CollateralAmount
  schemaVersion : UInt16
  parserVersion : UInt16
  evidence : List RawHttpAttempt
  requestDescriptorHashes : List String
  evidenceHashes : List String
  deriving DecidableEq

inductive LiveAdmissionRefusal where
  | modeNotArmed
  | credentialVersionChanged
  | marketEvidenceStale
  | marketEvidenceInvalid
  | settlementEvidenceStale
  | marketAlreadyResolved
  | settlementAmbiguous
  | artifactIdentityMismatch
  | ladderInvalid
  | accountStateUnavailable (failure : LiveAccountReadFailure)
  | accountClosedOnly
  | geoblocked
  | insufficientBalance (required available : CollateralAmount)
  | insufficientAllowance (required available : CollateralAmount)
  | worstCaseDebitExceedsFreeCollateral (required available : CollateralAmount)
  deriving DecidableEq

inductive LiveAdmissionVerdict where
  | approved
  | refused (reason : LiveAdmissionRefusal)
  deriving DecidableEq

structure LiveAdmissionEvaluationAudit where
  identity : LiveOrderIdentity
  frozenBinding : CredentialBindingIdentity
  currentBinding : CredentialBindingIdentity
  requestedMode : LiveControlMode
  effectiveMode : LiveControlMode
  economic : EconomicPrepared
  accountState : Option LiveAccountStateAudit
  accountReadFailureEvidence : List RawHttpAttempt
  accountReadFailureRequestDescriptorHashes : List String
  accountReadFailureEvidenceHashes : List String
  verdict : LiveAdmissionVerdict
  deriving DecidableEq

/-! ## Controls -/

inductive LiveControlAvailability where
  | fresh
  | failedRead
  | stale
  deriving DecidableEq, Repr

structure LiveControlObservation where
  decidedAtUnix : Int
  lastSuccessfulReadUnix : Option Int
  staleAfterSecs : Int
  availability : LiveControlAvailability
  accountPresent : Bool
  requestedMode : Option LiveControlMode
  effectiveMode : Option LiveControlMode
  credentialVersionAvailable : Bool
  bundleVersion : Option Int
  deriving DecidableEq, Repr

structure LiveStagedTargetControlAudit where
  accountId : AccountId
  execRank : UInt64
  isPrimary : Bool
  executionOrder : Int
  control : LiveControlObservation
  observedCredentialKeyId : String
  frozenBinding : CredentialBindingIdentity
  deriving DecidableEq

structure LiveStagedDispatchControlAudit where
  dispatchId : String
  targets : List LiveStagedTargetControlAudit
  deriving DecidableEq

inductive LiveTargetControlOutcome where
  | pause
  | notArmed
  deriving DecidableEq, Repr

structure LiveTargetControlAudit where
  dispatchId : String
  accountId : AccountId
  execRank : UInt64
  control : LiveControlObservation
  outcome : LiveTargetControlOutcome
  deriving DecidableEq

/-! ## Orders -/

inductive LiveOrderPreparationFailure where
  | venue
  | preparedAuditMismatch
  | recoveryCredentialChanged
  | recoveryAdmissionExpired
  | prePostRiskDayChanged
  | prePostRiskPriceExpired
  | prePostLadderExpired
  | prePostCopyExpired
  | prePostScopeDropped
  | prePostAdmissionExpired
  | prePostMarkUnavailable
  | prePostNotArmed
  | prePostControlUnavailable
  deriving DecidableEq, Repr

structure LiveOrderPreparationFailedAudit where
  identity : LiveOrderIdentity
  failure : LiveOrderPreparationFailure
  control : Option LiveControlObservation
  deriving DecidableEq

/-- The signed order, without its signature. -/
structure PreparedPolymarketBuy where
  conditionId : PolymarketConditionId
  outcomeId : OutcomeId
  tokenId : PolymarketTokenId
  maker : String
  signer : String
  funder : String
  verifyingContract : String
  spender : String
  exchangeDomainVersion : UInt8
  negRisk : Bool
  side : String
  salt : String
  timestampMs : UInt64
  expiration : String
  makerCollateral : CollateralAmount
  takerShares : ShareAmount
  limitPrice : Price
  minimumTickSize : Price
  signatureType : UInt8
  orderType : String
  postOnly : Bool
  deferExec : Bool
  metadata : String
  builder : String
  orderHash : String
  postBodyHash : String
  sdkVersion : String
  sdkArchiveSha256 : String
  metadataHashes : List String
  worstCaseDebit : CollateralAmount
  deriving DecidableEq

structure LiveOrderPreparedAudit where
  identity : LiveOrderIdentity
  frozenBinding : CredentialBindingIdentity
  economic : EconomicPrepared
  accountState : LiveAccountStateAudit
  prepared : PreparedPolymarketBuy
  deriving DecidableEq

structure LiveOrderPostAudit where
  identity : LiveOrderIdentity
  orderHash : String
  evidence : RawHttpAttempt
  evidenceHash : String
  deriving DecidableEq

inductive LiveOrderRejectKind where
  | venueRejected
  | invalidResponse
  | preparationFailed
  deriving DecidableEq, Repr

inductive LiveOrderAmbiguityKind where
  | transport
  | timeout
  | unexpectedResponse
  | reconciliationUnavailable
  | reconciliationPending
  deriving DecidableEq, Repr

structure LiveExecutedAmounts where
  makingAmount : Decimal
  takingAmount : Decimal
  deriving DecidableEq

inductive LiveJournalOrderOutcome where
  | matched (venueOrderId : String) (transactionHashes : List String)
      (executed : Option LiveExecutedAmounts)
  | killed (venueOrderId : Option String)
  | rejected (venueOrderId : Option String) (kind : LiveOrderRejectKind)
  | ambiguous (kind : LiveOrderAmbiguityKind)
  | finalityPending (reason : String)
  | finalityConflict (reason : String)
  deriving DecidableEq

inductive LiveReconciliationSource where
  | postResponse
  | orderHashLookupAndCancel
  | polygonFinality
  deriving DecidableEq, Repr

structure LiveOrderReconciliationAudit where
  identity : LiveOrderIdentity
  orderHash : String
  source : LiveReconciliationSource
  outcome : LiveJournalOrderOutcome
  evidence : List RawHttpAttempt
  evidenceHashes : List String
  deriving DecidableEq

structure MatchedLogIdentity where
  transactionHash : String
  logIndex : UInt64
  deriving DecidableEq, Repr

structure OrderFillFinalizedAudit where
  identity : LiveOrderIdentity
  preparedJournalSeq : Nat
  principal : CollateralAmount
  quantity : ShareAmount
  fee : CollateralAmount
  matchedLogs : List MatchedLogIdentity
  chainId : UInt64
  finalizedHead : UInt64
  receipts : List RawHttpAttempt
  blocks : List RawHttpAttempt
  deriving DecidableEq

/-! ## Redemptions -/

/-- Identity of one family of redemption attempts. -/
structure RedemptionAttemptIdentity where
  accountId : AccountId
  conditionId : PolymarketConditionId
  adapter : String
  custodyWallet : String
  deriving DecidableEq, Repr

inductive RedemptionCustodyAudit where
  | depositWallet
  | proxy
  | safe
  | eoa
  deriving DecidableEq, Repr

structure RedemptionRequestAudit where
  callTo : String
  calldata : List UInt8
  conditionId : PolymarketConditionId
  negRisk : Bool
  custody : RedemptionCustodyAudit
  signerAddress : String
  custodyWallet : String
  deadlineUnix : Option UInt64
  metadataHash : String
  requestHash : String
  schemaVersion : UInt16
  parserVersion : UInt16
  adapterVersion : String
  deriving DecidableEq

inductive RedemptionReceiptStatusAudit where
  | pending
  | confirmed
  | terminalFailure
  | ambiguous
  deriving DecidableEq, Repr

structure RedemptionRequestedAudit where
  identity : RedemptionAttemptIdentity
  attemptCount : UInt32
  redeemableBalance : CollateralAmount
  request : RedemptionRequestAudit
  deriving DecidableEq

structure RedemptionTransactionAudit where
  identity : RedemptionAttemptIdentity
  attemptCount : UInt32
  transactionId : String
  submitBodyHash : String
  evidence : List RawHttpAttempt
  evidenceHashes : List String
  deriving DecidableEq

structure RedemptionReceiptAudit where
  identity : RedemptionAttemptIdentity
  attemptCount : UInt32
  transactionId : String
  transactionHash : Option String
  status : RedemptionReceiptStatusAudit
  evidence : List RawHttpAttempt
  evidenceHashes : List String
  deriving DecidableEq

/-! ## Portfolio facts -/

structure ResolutionFinalizedAudit where
  conditionId : PolymarketConditionId
  payoutByOutcomeIndexJson : String
  sourceAppendReceipt : AppendReceipt
  deriving DecidableEq

structure CanonicalPositionAudit where
  conditionId : PolymarketConditionId
  outcomeIndex : UInt8
  tokenId : PolymarketTokenId
  size : ShareAmount
  redeemable : Bool
  deriving DecidableEq

structure LivePositionPageAudit where
  requestIdentity : String
  receipt : AppendReceipt
  deriving DecidableEq

structure LivePositionEvidenceAudit where
  requestedWallet : String
  pages : List LivePositionPageAudit
  deriving DecidableEq

structure RedemptionCustodyReconciledAudit where
  identity : RedemptionAttemptIdentity
  accountState : LiveAccountStateAudit
  venuePositions : List CanonicalPositionAudit
  venuePositionReceipts : List AppendReceipt
  deriving DecidableEq

inductive MarkKind where
  | baseline
  | daily
  deriving DecidableEq, Repr

structure MarkPrice where
  conditionId : PolymarketConditionId
  outcomeIndex : UInt8
  price : Price
  receipt : AppendReceipt
  observedUnix : Int
  deriving DecidableEq

structure AccountPortfolioMarkedAudit where
  kind : MarkKind
  cutoffUnix : Int
  accountBinding : LiveAccountBindingAudit
  accountState : LiveAccountStateAudit
  venuePositions : List CanonicalPositionAudit
  venuePositionEvidence : LivePositionEvidenceAudit
  markedPositions : List CanonicalPositionAudit
  prices : List MarkPrice
  equity : CollateralAmount
  deriving DecidableEq

structure CollateralCreditedAudit where
  accountBinding : LiveAccountBindingAudit
  accountState : LiveAccountStateAudit
  venuePositions : List CanonicalPositionAudit
  venuePositionEvidence : LivePositionEvidenceAudit
  credited : CollateralAmount
  deriving DecidableEq

inductive LiveModeTransitionReason where
  | armed
  | operatorKill
  | credentialInvalidated
  | promotionInvalidated
  | accountClosedOnly
  deriving DecidableEq, Repr

structure LiveModeTransitionAudit where
  requested : LiveControlMode
  previousEffective : LiveControlMode
  newEffective : LiveControlMode
  reason : LiveModeTransitionReason
  deriving DecidableEq, Repr

/-! ## Records -/

/-- What a record says. A record of the first schema is kept as the document it was. -/
inductive LiveJournalPayload where
  | stagedDispatchControl (staged : LiveStagedDispatchControlAudit)
  | pendingTargetControl (target : LiveTargetControlAudit)
  | approvedRecoveryControlPause (target : LiveTargetControlAudit)
  | admissionEvaluated (admission : LiveAdmissionEvaluationAudit)
  | orderPreparationFailed (failed : LiveOrderPreparationFailedAudit)
  | orderPrepared (prepared : LiveOrderPreparedAudit)
  | orderPosted (posted : LiveOrderPostAudit)
  | orderReconciled (reconciled : LiveOrderReconciliationAudit)
  | redemptionRequested (audit : RedemptionRequestedAudit)
  | redemptionTransactionIdentified (audit : RedemptionTransactionAudit)
  | redemptionReceiptTransition (audit : RedemptionReceiptAudit)
  | orderFillFinalized (finalized : OrderFillFinalizedAudit)
  | resolutionFinalized (resolution : ResolutionFinalizedAudit)
  | redemptionCustodyReconciled (custody : RedemptionCustodyReconciledAudit)
  | accountPortfolioMarked (mark : AccountPortfolioMarkedAudit)
  | collateralCredited (credited : CollateralCreditedAudit)
  | credentialBindingMismatch (frozen current : CredentialBindingIdentity)
  | modeTransitionApplied (transition : LiveModeTransitionAudit)
  | legacyV1 (raw : Lib.Json)

/-- A record of the journal. -/
structure LiveJournalEvent where
  accountId : AccountId
  seq : Nat
  timestamp : OffsetDateTime
  payload : LiveJournalPayload

/-- The record an append writes. -/
def appended (journal : List LiveJournalEvent) (accountId : AccountId) (timestamp : OffsetDateTime)
    (payload : LiveJournalPayload) : LiveJournalEvent :=
  ⟨accountId, journal.length, timestamp, payload⟩

end PredictionEdge
