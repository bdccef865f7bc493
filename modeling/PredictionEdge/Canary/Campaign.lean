import PredictionEdge.Activity.Parse
import PredictionEdge.Live.Journal

/-!
# The canary campaign

The live canary spends a little money to show that the live path works: three probes that
an operator reviews one by one, then, once the organic stage is armed, up to five organic
orders. The campaign is a reducer over a journal of events. An event that does not fit the
campaign is refused, and both callers then keep the state they had: the actor applies an
event to a copy, and a journal that holds a refused event is not rebuilt at all. So `apply`
gives the next state or an error.
-/

namespace PredictionEdge.Canary

open Lib

def campaignMaxCommitment : CollateralAmount := ⟨8000000, by decide⟩
def probePostLimit : Nat := 3
def organicPostLimit : Nat := 5

/-! ## What the events carry -/

inductive AttemptOrigin where
  | operatorProbe
  | organic
  deriving DecidableEq

inductive CampaignStage where
  | inactive
  | probesArmed
  | organicReady
  | organicArmed
  | closedObserving
  | closed
  deriving DecidableEq

inductive AttemptPhase where
  | reserved
  | postInFlight
  | review
  deriving DecidableEq

inductive ClosureReason where
  | killed
  | expired
  | exhausted
  | probeFailed
  | organicAttemptFailed
  | venueAmbiguous
  | unexpectedOrderState
  | cancellationFailed
  | accountingDrift
  | authorizationInvalidated
  | externalActivity
  | geoblocked
  | jurisdictionInvalidated
  | accountClosedOnly
  deriving DecidableEq

structure CommandReceipt where
  commandId : String
  commandHash : String
  deriving DecidableEq

structure CampaignAuthorization where
  schemaVersion : UInt16
  campaignId : String
  implementationCommit : String
  binaryHash : String
  configHash : String
  resolverInventoryHash : String
  sdkArchiveSha256 : String
  sdkEffectiveVendorTreeSha256 : String
  wallet : String
  ownerSigner : String
  spender : String
  jurisdiction : String
  jurisdictionAttestationHash : String
  accountAttestationHash : String
  issuedAt : OffsetDateTime
  expiresAt : OffsetDateTime
  startingCollateral : CollateralAmount
  allowance : CollateralAmount
  commitmentCap : CollateralAmount
  probeSlots : UInt8
  organicSlots : UInt8

structure OrganicStageAuthorization where
  schemaVersion : UInt16
  campaignId : String
  campaignAuthorizationHash : String
  reviewedProbeCount : UInt8
  implementationCommit : String
  evidenceBundleHash : String

inductive MarketFamily where
  | weather
  | cryptoBenchmarkWindow
  | cryptoSpotPath
  | sportsOfficial
  | macroRelease
  | chartRanking
  | documents
  | eventFeed
  | politicsElections
  | other
  deriving DecidableEq

structure AttemptAttribution where
  leader : Option String
  conditionId : PolymarketConditionId
  outcomeId : OutcomeId
  family : MarketFamily

structure CanaryAdmission where
  identity : String
  origin : AttemptOrigin
  attribution : AttemptAttribution

structure VenueOrderId where
  val : String
  deriving DecidableEq

structure VenueFill where
  tradeId : String
  collateralDebit : CollateralAmount
  shares : ShareAmount
  fee : CollateralAmount

structure ExactExecutionReport where
  venueOrderId : Option VenueOrderId
  requestedCollateral : CollateralAmount
  requestedShares : ShareAmount
  filledCollateral : CollateralAmount
  filledShares : ShareAmount
  fees : CollateralAmount
  fills : List VenueFill

structure CanaryResolution where
  conditionId : PolymarketConditionId
  winner : OutcomeId

structure CanaryPosition where
  conditionId : PolymarketConditionId
  outcomeId : OutcomeId
  shares : ShareAmount

structure CanaryReconciliation where
  observedAt : OffsetDateTime
  freeCollateral : CollateralAmount
  allowance : CollateralAmount
  standardSpenderOnly : Bool
  openOrderIds : List String
  positions : List CanaryPosition
  resolutions : List CanaryResolution
  unexpectedActivity : Bool
  executionReport : Option ExactExecutionReport
  evidenceHashes : List String

inductive CanaryEvent where
  | campaignArmed (authorization : CampaignAuthorization) (receipt : CommandReceipt)
  | probeReviewAccepted (campaignId : String) (reviewedProbeOrdinal : Nat)
      (reviewedProbeHash : String) (receipt : CommandReceipt)
  | organicStageArmed (authorization : OrganicStageAuthorization) (receipt : CommandReceipt)
  | preReservationSkipped (receipt : CommandReceipt)
  | attemptReserved (admission : CanaryAdmission) (prepared : PreparedPolymarketBuy)
      (receipt : CommandReceipt)
  | postInFlight (identity orderHash postBodyHash : String)
  | httpResponseCaptured
  | httpTransportFailed
  | artifactCaptured
  | reconciliationRecorded (snapshot : CanaryReconciliation) (receipt : Option CommandReceipt)
      (finalForShutdown : Bool)
  | reconciliationFailed (finalForShutdown : Bool)
  | postReturned (identity : String) (success definitive : Bool) (orderId : String)
  | admissionClosed (reason : ClosureReason) (receipt : Option CommandReceipt)
  | recoveryRequired (reason : ClosureReason)
  | campaignClosed

inductive CanaryStateError where
  | authorityMismatch
  | invalidStage (stage : CampaignStage)
  | invalidAttempt
  | admissionMismatch
  | pendingAttempt
  | exhausted
  | arithmetic
  | encoding
  deriving DecidableEq

/-! ## The state -/

structure PendingAttempt where
  identity : String
  origin : AttemptOrigin
  worstCaseDebit : CollateralAmount
  requestedShares : ShareAmount
  orderHash : String
  preparedBodyHash : String
  venueOrderId : Option VenueOrderId
  postSuccess : Option Bool
  phase : AttemptPhase

structure CampaignAttemptRecord where
  identity : String
  origin : AttemptOrigin
  attribution : AttemptAttribution
  shares : ShareAmount
  openDebit : CollateralAmount

structure CanaryCampaignState where
  campaignId : Option String := none
  campaignAuthorizationHash : Option String := none
  stage : CampaignStage := .inactive
  expiresAt : Option OffsetDateTime := none
  implementationCommit : Option String := none
  binaryHash : Option String := none
  configHash : Option String := none
  resolverInventoryHash : Option String := none
  wallet : Option String := none
  ownerSigner : Option String := none
  spender : Option String := none
  sdkArchiveSha256 : Option String := none
  sdkEffectiveVendorTreeSha256 : Option String := none
  startingCollateral : CollateralAmount := .zero
  freeCollateral : CollateralAmount := .zero
  canaryBankroll : CollateralAmount := .zero
  allowance : CollateralAmount := .zero
  committedDebit : CollateralAmount := .zero
  probePosts : Nat := 0
  organicPosts : Nat := 0
  pending : Option PendingAttempt := none
  attempts : List CampaignAttemptRecord := []
  reviewedProbeHashes : List String := []
  killLatched : Bool := false
  terminalReason : Option ClosureReason := none
  lastReconciliationAt : Option OffsetDateTime := none
  reconciliationFailed : Bool := false
  recoveryUnresolved : Bool := false
  shutdownReconciliationDesignated : Bool := false
  shutdownReconciliationSucceeded : Bool := false
  knownTradeIds : List String := []
  lastReconciliation : Option CanaryReconciliation := none
  commandReceipts : List CommandReceipt := []

/-- What an operator reviews of a probe. -/
structure ProbeEvidence where
  identity : String
  orderHash : String
  preparedBodyHash : String
  venueOrderId : Option VenueOrderId
  postSuccess : Option Bool
  executionReport : Option ExactExecutionReport
  evidenceHashes : List String

/--
The commitments of the campaign: each encodes a value as JSON and hashes the bytes, and
fails when the value cannot be encoded.
-/
structure CanaryHashes where
  campaignAuthorization : CampaignAuthorization → Option String
  probeEvidence : ProbeEvidence → Option String
  organicEvidenceBundle : List String → Option String

/-! ## Reconciliation -/

namespace CanaryPosition

/-- The two hold the same outcome of the same market. -/
def sameMarket (a b : CanaryPosition) : Bool :=
  a.conditionId = b.conditionId && a.outcomeId = b.outcomeId

/-- The position is of the market and the outcome of an attempt. -/
def attributedTo (position : CanaryPosition) (attribution : AttemptAttribution) : Bool :=
  position.conditionId = attribution.conditionId && position.outcomeId = attribution.outcomeId

end CanaryPosition

def CanaryReconciliation.filledDebit (snapshot : CanaryReconciliation) : CollateralAmount :=
  (snapshot.executionReport.map (·.filledCollateral)).getD .zero

def CanaryReconciliation.resolves (snapshot : CanaryReconciliation)
    (conditionId : PolymarketConditionId) : Bool :=
  snapshot.resolutions.any fun resolution => resolution.conditionId = conditionId

namespace CanaryCampaignState

def previousPositions (state : CanaryCampaignState) : List CanaryPosition :=
  (state.lastReconciliation.map (·.positions)).getD []

/-- What a vanished position has paid: its shares if its outcome won, nothing if another did. -/
def settlementCredit (snapshot : CanaryReconciliation) (credit : Nat) (position : CanaryPosition) :
    Option Nat := do
  let resolution ← snapshot.resolutions.find? fun resolution =>
    resolution.conditionId = position.conditionId
  if resolution.winner = position.outcomeId then
    if credit + position.shares.atomic < 2 ^ 64 then some (credit + position.shares.atomic) else none
  else some credit

section

variable (state : CanaryCampaignState) (snapshot : CanaryReconciliation)

def reconciliationBalanceExplained : Bool :=
  if state.campaignId.isNone then true
  else
    match state.freeCollateral.checkedSub snapshot.filledDebit with
    | .error _ => false
    | .ok expectedAfterFill =>
      if snapshot.freeCollateral < expectedAfterFill then false
      else
        let vanished := state.previousPositions.filter fun previous =>
          !snapshot.positions.any fun current => current.sameMarket previous
        match vanished.foldlM (settlementCredit snapshot) 0 with
        | none => false
        | some credit => snapshot.freeCollateral.atomic - expectedAfterFill.atomic = credit

def expectedAllowanceAfter : Option CollateralAmount :=
  (state.allowance.checkedSub snapshot.filledDebit).toOption

/-- The fill of the pending attempt: what it is of, and how much. -/
def pendingFill : Option (AttemptAttribution × ShareAmount) := do
  let pending ← state.pending
  let attempt ← state.attempts.find? fun attempt => attempt.identity = pending.identity
  let report ← snapshot.executionReport
  some (attempt.attribution, report.filledShares)

/-- A current position is the previous one and what the fill added to it. -/
def positionExact (current : CanaryPosition) : Bool :=
  let previous := ((state.previousPositions.find? (·.sameMarket current)).map (·.shares)).getD .zero
  let added := (((state.pendingFill snapshot).filter fun fill => current.attributedTo fill.1).map
    (·.2)).getD .zero
  (previous.checkedAdd added).toOption = some current.shares

def reconciliationInventoryExplained : Bool :=
  let currentExact := snapshot.positions.all (state.positionExact snapshot)
  let noUnexplainedDisappearance := state.previousPositions.all fun previous =>
    (snapshot.positions.any fun current => current.sameMarket previous)
      || snapshot.resolves previous.conditionId
  let pendingFillPresent := (state.pendingFill snapshot).all fun fill =>
    fill.2 = .zero || (snapshot.positions.any fun position => position.attributedTo fill.1)
      || snapshot.resolves fill.1.conditionId
  currentExact && noUnexplainedDisappearance && pendingFillPresent

/-- The snapshot is explained by what the campaign knows, and may replace it. -/
def authoritative : Bool :=
  state.reconciliationBalanceExplained snapshot
    && (state.expectedAllowanceAfter snapshot = some snapshot.allowance)
    && state.reconciliationInventoryExplained snapshot && snapshot.openOrderIds.isEmpty
    && !snapshot.unexpectedActivity && snapshot.standardSpenderOnly

end

end CanaryCampaignState

/-! ## Reports -/

/-- `try_fold` of `checked_add`. -/
def sumAmounts {field : String} (amounts : List (ExactAmount field)) :
    Except CanaryStateError (ExactAmount field) :=
  amounts.foldlM (fun sum amount => (sum.checkedAdd amount).mapError fun _ => .arithmetic) .zero

/-- The report is not one of this attempt. -/
def reportMismatch (pending : PendingAttempt) (report : ExactExecutionReport)
    (fillCollateral : CollateralAmount) (fillShares : ShareAmount) (fillFees : CollateralAmount) :
    Bool :=
  report.requestedCollateral ≠ pending.worstCaseDebit
    || report.requestedShares ≠ pending.requestedShares
    || report.venueOrderId ≠ pending.venueOrderId
    || report.filledCollateral ≠ fillCollateral
    || report.filledShares ≠ fillShares
    || report.fees ≠ fillFees
    || report.fees ≠ .zero
    || decide (report.requestedCollateral < report.filledCollateral)
    || (report.filledShares ≠ .zero && report.filledShares ≠ report.requestedShares)
    || (report.filledShares = .zero && report.filledCollateral ≠ .zero)
    || (report.fills.any fun fill => trim fill.tradeId = "")
    || (pending.postSuccess = some true
      && (report.filledShares ≠ report.requestedShares || report.fills.isEmpty))
    || (pending.postSuccess = some false && (report.filledShares ≠ .zero || !report.fills.isEmpty))
    || (pending.phase = .reserved && (report.filledShares ≠ .zero || !report.fills.isEmpty))
    || (pending.postSuccess = none && pending.phase = .postInFlight && !report.fills.isEmpty
      && report.filledShares ≠ report.requestedShares)

def validateReport (pending : PendingAttempt) (report : ExactExecutionReport) :
    Except CanaryStateError Unit := do
  let fillCollateral ← sumAmounts (report.fills.map (·.collateralDebit))
  let fillShares ← sumAmounts (report.fills.map (·.shares))
  let fillFees ← sumAmounts (report.fills.map (·.fee))
  refuseIf (reportMismatch pending report fillCollateral fillShares fillFees) .admissionMismatch

/-! ## The reducer -/

namespace CanaryCampaignState

variable (hashes : CanaryHashes) (state : CanaryCampaignState)

def requireCampaign (campaignId : String) : Except CanaryStateError Unit :=
  refuseIf (state.campaignId ≠ some campaignId) .authorityMismatch

def commandReceipt (commandId : String) : Option CommandReceipt :=
  state.commandReceipts.find? fun receipt => receipt.commandId = commandId

def recordReceipt (receipt : CommandReceipt) : Except CanaryStateError CanaryCampaignState := do
  refuseIf (trim receipt.commandId = "" ∨ trim receipt.commandHash = "") .invalidAttempt
  match state.commandReceipt receipt.commandId with
  | some existing =>
    if existing.commandHash = receipt.commandHash then return state
    else throw .authorityMismatch
  | none => return { state with commandReceipts := state.commandReceipts ++ [receipt] }

def recordOptionalReceipt :
    Option CommandReceipt → Except CanaryStateError CanaryCampaignState
  | some receipt => state.recordReceipt receipt
  | none => .ok state

/-- `pending_mut`: the pending attempt, if it has this identity. -/
def pendingMut (identity : String) : Except CanaryStateError PendingAttempt :=
  okOr (state.pending.filter fun pending => pending.identity = identity) .invalidAttempt

/-- The probe that waits for its review. -/
def probeInReview : Option PendingAttempt :=
  state.pending.filter fun pending => pending.origin = .operatorProbe ∧ pending.phase = .review

def reviewableProbeHash : Except CanaryStateError (Option String) :=
  match state.probeInReview with
  | none => .ok none
  | some pending => do
    let reconciliation ← okOr state.lastReconciliation .invalidAttempt
    let hash ← okOr (hashes.probeEvidence
      ⟨pending.identity, pending.orderHash, pending.preparedBodyHash, pending.venueOrderId,
        pending.postSuccess, reconciliation.executionReport, reconciliation.evidenceHashes⟩) .encoding
    return some hash

def hasOpenDebit : Bool := state.attempts.any fun attempt => attempt.openDebit ≠ .zero

def armCampaign (authorization : CampaignAuthorization) (receipt : CommandReceipt) :
    Except CanaryStateError CanaryCampaignState := do
  refuseIf (state.stage ≠ .inactive) (.invalidStage state.stage)
  let hash ← okOr (hashes.campaignAuthorization authorization) .encoding
  recordReceipt
    { state with
      campaignId := some authorization.campaignId
      campaignAuthorizationHash := some hash
      stage := .probesArmed
      expiresAt := some authorization.expiresAt
      implementationCommit := some authorization.implementationCommit
      binaryHash := some authorization.binaryHash
      configHash := some authorization.configHash
      resolverInventoryHash := some authorization.resolverInventoryHash
      wallet := some authorization.wallet
      ownerSigner := some authorization.ownerSigner
      spender := some authorization.spender
      sdkArchiveSha256 := some authorization.sdkArchiveSha256
      sdkEffectiveVendorTreeSha256 := some authorization.sdkEffectiveVendorTreeSha256
      startingCollateral := authorization.startingCollateral
      freeCollateral := authorization.startingCollateral
      canaryBankroll := authorization.startingCollateral
      allowance := authorization.allowance } receipt

def acceptProbeReview (campaignId : String) (reviewedProbeOrdinal : Nat)
    (reviewedProbeHash : String) (receipt : CommandReceipt) :
    Except CanaryStateError CanaryCampaignState := do
  state.requireCampaign campaignId
  let pending ← okOr state.probeInReview (.invalidStage state.stage)
  refuseIf (state.stage ≠ .probesArmed ∨ reviewedProbeOrdinal ≠ state.probePosts)
    (.invalidStage state.stage)
  let reviewable ← state.reviewableProbeHash hashes
  refuseIf (reviewable ≠ some reviewedProbeHash ∨ pending.identity = "")
    (.invalidStage state.stage)
  recordReceipt
    { state with
      pending := none
      reviewedProbeHashes := state.reviewedProbeHashes ++ [reviewedProbeHash]
      stage := if state.probePosts = probePostLimit then .organicReady else .probesArmed } receipt

def armOrganicStage (authorization : OrganicStageAuthorization) (receipt : CommandReceipt) :
    Except CanaryStateError CanaryCampaignState := do
  state.requireCampaign authorization.campaignId
  refuseIf (state.stage ≠ .organicReady ∨ authorization.schemaVersion ≠ 1
      ∨ authorization.reviewedProbeCount.toNat ≠ probePostLimit
      ∨ state.campaignAuthorizationHash ≠ some authorization.campaignAuthorizationHash
      ∨ state.implementationCommit ≠ some authorization.implementationCommit) .authorityMismatch
  let bundle ← okOr (hashes.organicEvidenceBundle state.reviewedProbeHashes) .encoding
  refuseIf (bundle ≠ authorization.evidenceBundleHash) .authorityMismatch
  recordReceipt { state with stage := .organicArmed } receipt

/-- The slot of an origin: the counters after taking one more, at the stage the origin needs. -/
def takeSlot (origin : AttemptOrigin) : Except CanaryStateError CanaryCampaignState :=
  match origin with
  | .operatorProbe =>
    if state.stage = .probesArmed ∧ state.probePosts < probePostLimit then
      .ok { state with probePosts := state.probePosts + 1 }
    else .error (.invalidStage state.stage)
  | .organic =>
    if state.stage = .organicArmed ∧ state.organicPosts < organicPostLimit then
      .ok { state with organicPosts := state.organicPosts + 1 }
    else .error (.invalidStage state.stage)

def reserveAttempt (admission : CanaryAdmission) (prepared : PreparedPolymarketBuy)
    (receipt : CommandReceipt) : Except CanaryStateError CanaryCampaignState := do
  refuseIf (state.pending.isSome = true) .pendingAttempt
  refuseIf (trim admission.identity = "" ∨ prepared.worstCaseDebit = .zero) .invalidAttempt
  let state ← state.takeSlot admission.origin
  let committed ← (state.committedDebit.checkedAdd prepared.worstCaseDebit).mapError
    fun _ => .arithmetic
  refuseIf (campaignMaxCommitment < committed) .exhausted
  let bankroll ← (state.freeCollateral.checkedSub prepared.worstCaseDebit).mapError
    fun _ => .arithmetic
  recordReceipt
    { state with
      committedDebit := committed
      canaryBankroll := bankroll
      pending := some
        { identity := admission.identity
          origin := admission.origin
          worstCaseDebit := prepared.worstCaseDebit
          requestedShares := prepared.takerShares
          orderHash := prepared.orderHash
          preparedBodyHash := prepared.postBodyHash
          venueOrderId := none
          postSuccess := none
          phase := .reserved }
      attempts := state.attempts ++
        [{ identity := admission.identity
           origin := admission.origin
           attribution := admission.attribution
           shares := prepared.takerShares
           openDebit := prepared.worstCaseDebit }] } receipt

def startPost (identity orderHash postBodyHash : String) :
    Except CanaryStateError CanaryCampaignState := do
  let pending ← state.pendingMut identity
  refuseIf (pending.phase ≠ .reserved ∨ pending.preparedBodyHash ≠ postBodyHash
    ∨ pending.orderHash ≠ orderHash) .invalidAttempt
  return { state with pending := some { pending with phase := .postInFlight } }

def returnPost (identity : String) (success definitive : Bool) (orderId : String) :
    Except CanaryStateError CanaryCampaignState := do
  let pending ← state.pendingMut identity
  refuseIf (pending.phase ≠ .postInFlight) .invalidAttempt
  let venueOrderId := if trim orderId ≠ "" then some ⟨orderId⟩ else pending.venueOrderId
  refuseIf (definitive = true ∧ success = true ∧ venueOrderId = none) .invalidAttempt
  let postSuccess := if definitive then some success else none
  let state := { state with
    pending := some { pending with venueOrderId := venueOrderId, postSuccess := postSuccess } }
  if success then return state
  else
    return { state with
      stage := .closedObserving
      terminalReason := some <|
        if definitive then
          match pending.origin with
          | .operatorProbe => .probeFailed
          | .organic => .organicAttemptFailed
        else .venueAmbiguous }

/-- The stage of a campaign that takes no more orders. -/
def closing (stage : CampaignStage) : CampaignStage :=
  if stage = .closed then .closed else .closedObserving

def closeAdmission (reason : ClosureReason) (receipt : Option CommandReceipt) :
    Except CanaryStateError CanaryCampaignState :=
  recordOptionalReceipt
    { state with
      killLatched := true
      stage := closing state.stage
      terminalReason :=
        if reason ≠ .killed ∨ state.terminalReason = none then some reason else state.terminalReason
      pending := state.pending.filter fun attempt => attempt.phase ≠ .review } receipt

def requireRecovery (reason : ClosureReason) : CanaryCampaignState :=
  { state with
    killLatched := true
    stage := closing state.stage
    terminalReason := some reason }

def closeCampaign : Except CanaryStateError CanaryCampaignState := do
  refuseIf (state.stage ≠ .closedObserving ∨ state.pending.isSome = true
    ∨ state.hasOpenDebit = true) (.invalidStage state.stage)
  return { state with stage := .closed }

/-! ### Reconciliations -/

/-- An attempt whose position was held before and is not held now has nothing open. -/
def settleAttempt (previous current : List CanaryPosition) (attempt : CampaignAttemptRecord) :
    CampaignAttemptRecord :=
  if (previous.any (·.attributedTo attempt.attribution))
      && !(current.any (·.attributedTo attempt.attribution)) then
    { attempt with openDebit := .zero }
  else attempt

/-- The free collateral of a snapshot, less what the pending attempt may take. -/
def bankrollAfter (snapshot : CanaryReconciliation) : Except CanaryStateError CollateralAmount :=
  match state.pending with
  | some pending =>
    (snapshot.freeCollateral.checkedSub pending.worstCaseDebit).mapError fun _ => .arithmetic
  | none => .ok snapshot.freeCollateral

/-- What an authoritative snapshot replaces. -/
def adopt (snapshot : CanaryReconciliation) : Except CanaryStateError CanaryCampaignState := do
  let bankroll ← state.bankrollAfter snapshot
  return { state with
    attempts := state.attempts.map (settleAttempt state.previousPositions snapshot.positions)
    lastReconciliation := some snapshot
    lastReconciliationAt := some snapshot.observedAt
    freeCollateral := snapshot.freeCollateral
    allowance := snapshot.allowance
    canaryBankroll := bankroll }

def adoptIf (authoritative : Bool) (snapshot : CanaryReconciliation) :
    Except CanaryStateError CanaryCampaignState :=
  if authoritative then state.adopt snapshot else .ok state

/-- The pending attempt, while it still waits for a report. -/
def awaitingReport : Option PendingAttempt :=
  state.pending.filter fun pending => pending.phase ≠ .review

/-- The first attempt with the identity has the debit. -/
def setOpenDebit (identity : String) (debit : CollateralAmount) :
    List CampaignAttemptRecord → Option (List CampaignAttemptRecord)
  | [] => none
  | attempt :: rest =>
    if attempt.identity = identity then some ({ attempt with openDebit := debit } :: rest)
    else (setOpenDebit identity debit rest).map (attempt :: ·)

def learnTrades (known : List String) (fills : List VenueFill) : List String :=
  fills.foldl (fun known fill => if fill.tradeId ∈ known then known else known ++ [fill.tradeId]) known

/-- What a report does to the pending attempt and to the stage. -/
def concludeAttempt (pending : PendingAttempt) : CanaryCampaignState :=
  if state.stage ≠ .closedObserving then
    match pending.origin with
    | .operatorProbe => { state with pending := state.pending.map ({ · with phase := .review }) }
    | .organic =>
      if state.organicPosts < organicPostLimit then
        { state with pending := none, stage := .organicArmed }
      else
        { state with pending := none, stage := .closedObserving, terminalReason := some .exhausted }
  else { state with pending := none }

/-- The report of the pending attempt, applied. -/
def applyReport (snapshot : CanaryReconciliation) (pending : PendingAttempt)
    (report : ExactExecutionReport) : Except CanaryStateError CanaryCampaignState := do
  validateReport pending report
  let attempts ← okOr (setOpenDebit pending.identity report.filledCollateral state.attempts)
    .invalidAttempt
  return concludeAttempt
    { state with
      canaryBankroll := snapshot.freeCollateral
      attempts := attempts
      knownTradeIds := learnTrades state.knownTradeIds report.fills } pending

def applyReportIf (snapshot : CanaryReconciliation) :
    Option (PendingAttempt × ExactExecutionReport) → Except CanaryStateError CanaryCampaignState
  | some (pending, report) => state.applyReport snapshot pending report
  | none => .ok state

def designateShutdown (finalForShutdown succeeded : Bool) : CanaryCampaignState :=
  if finalForShutdown then
    { state with
      shutdownReconciliationDesignated := true
      shutdownReconciliationSucceeded := succeeded }
  else state

/-- The attempt and the report that a recorded snapshot applies to it, if it does. -/
def appliedReport (snapshot : CanaryReconciliation) : Option (PendingAttempt × ExactExecutionReport) :=
  if state.authoritative snapshot then do
    let pending ← state.awaitingReport
    let report ← snapshot.executionReport
    some (pending, report)
  else none

def recordReconciliation (snapshot : CanaryReconciliation) (receipt : Option CommandReceipt)
    (finalForShutdown : Bool) : Except CanaryStateError CanaryCampaignState := do
  let authoritative := state.authoritative snapshot
  let applied := state.appliedReport snapshot
  let state := { state with
    reconciliationFailed := !authoritative
    recoveryUnresolved := !authoritative }
  let state ← state.adoptIf authoritative snapshot
  let state := state.designateShutdown finalForShutdown authoritative
  let state ← state.applyReportIf snapshot applied
  state.recordOptionalReceipt receipt

def failReconciliation (finalForShutdown : Bool) : CanaryCampaignState :=
  let failed := { state with
    lastReconciliationAt := none
    reconciliationFailed := true
    recoveryUnresolved := true }
  let latched :=
    if state.pending.isSome || state.hasOpenDebit then
      { failed with
        killLatched := true
        stage := closing state.stage
        terminalReason := some .venueAmbiguous }
    else failed
  latched.designateShutdown finalForShutdown false

def apply : CanaryEvent → Except CanaryStateError CanaryCampaignState
  | .campaignArmed authorization receipt => state.armCampaign hashes authorization receipt
  | .probeReviewAccepted campaignId ordinal hash receipt =>
    state.acceptProbeReview hashes campaignId ordinal hash receipt
  | .organicStageArmed authorization receipt => state.armOrganicStage hashes authorization receipt
  | .preReservationSkipped receipt => state.recordReceipt receipt
  | .attemptReserved admission prepared receipt => state.reserveAttempt admission prepared receipt
  | .postInFlight identity orderHash postBodyHash => state.startPost identity orderHash postBodyHash
  | .httpResponseCaptured => .ok state
  | .httpTransportFailed => .ok state
  | .artifactCaptured => .ok state
  | .reconciliationRecorded snapshot receipt finalForShutdown =>
    state.recordReconciliation snapshot receipt finalForShutdown
  | .reconciliationFailed finalForShutdown => .ok (state.failReconciliation finalForShutdown)
  | .postReturned identity success definitive orderId =>
    state.returnPost identity success definitive orderId
  | .admissionClosed reason receipt => state.closeAdmission reason receipt
  | .recoveryRequired reason => .ok (state.requireRecovery reason)
  | .campaignClosed => state.closeCampaign

/-- The actor's `commit`: a refused event leaves the campaign as it was. -/
def commit (event : CanaryEvent) : CanaryCampaignState :=
  match state.apply hashes event with
  | .ok next => next
  | .error _ => state

def applyAll (events : List CanaryEvent) : Except CanaryStateError CanaryCampaignState :=
  events.foldlM (fun state event => state.apply hashes event) state

/-- The report that the event applies to an attempt, if it does. -/
def reportOf : CanaryEvent → Option ExactExecutionReport
  | .reconciliationRecorded snapshot _ _ => (state.appliedReport snapshot).map (·.2)
  | _ => none

/-- What is seen of the events of a run, each at the state that it meets. -/
def observed {B : Type} (see : CanaryCampaignState → CanaryEvent → Option B) :
    CanaryCampaignState → List CanaryEvent → List B
  | _, [] => []
  | state, event :: rest =>
    (see state event).toList ++
      match state.apply hashes event with
      | .ok next => observed see next rest
      | .error _ => []

/-- The execution reports that a run applies. -/
def appliedReports (events : List CanaryEvent) : List ExactExecutionReport :=
  observed hashes reportOf state events

end CanaryCampaignState

/-- `rebuild`: the state after a journal's events, if all of them are accepted. -/
def rebuild (hashes : CanaryHashes) (events : List CanaryEvent) :
    Except CanaryStateError CanaryCampaignState :=
  CanaryCampaignState.applyAll hashes {} events

end PredictionEdge.Canary
