import PredictionEdge.Live.RedemptionMachine

/-!
# One redemption pass

`run_redemption_pass`: at most one reconciliation of a transaction that was already submitted,
or one new submission. The pass asks the journal to append, the relayer to submit and the status
reader about a transaction; each may fail, and the pass may be cut off at any of them.
-/

namespace PredictionEdge

inductive CustodyKind where
  | depositWallet
  | proxy
  | safe
  | eoa
  deriving DecidableEq, Repr

structure RedemptionCall where
  callTo : String
  calldata : List UInt8
  conditionId : PolymarketConditionId
  negRisk : Bool
  deriving DecidableEq

structure SignedRedemptionRequest where
  call : RedemptionCall
  custody : CustodyKind
  signerAddress : String
  custodyWallet : String
  nonce : String
  signature : String
  deadlineUnix : Option UInt64
  metadata : String
  deriving DecidableEq

structure ConfirmedRedemption where
  transactionId : String
  transactionHash : String
  submitBodyHash : String
  evidence : List RawHttpResponse

/-- The failures of a submission, with what of them the pass reads. -/
inductive RedemptionTransportError where
  | configuration
  | unsupportedCustody
  | request
  | authentication
  | rejected
  | transport
  | ambiguousAfterSubmit (transactionId : Option String) (submitBodyHash : String)
      (evidence : List RawHttpResponse)
  | terminalFailure (transactionId : String) (evidence : List RawHttpResponse)
  | protocol

inductive RedemptionStatusObservation where
  | pending (evidence : List RawHttpAttempt)
  | confirmed (transactionHash : String) (evidence : List RawHttpAttempt)
  | terminalFailure (evidence : List RawHttpAttempt)
  | ambiguous (evidence : List RawHttpAttempt)

structure RedemptionStatusReadError where
  evidence : List RawHttpAttempt

structure RedemptionPassInput where
  attempt : RedemptionAttempt
  now : OffsetDateTime
  resolvedWinnerRedeemable : CollateralAmount
  signedRequest : Option SignedRedemptionRequest
  requestHash : Option String
  retryNotBeforeOnFailure : OffsetDateTime

structure RedemptionPassResult where
  attempt : RedemptionAttempt
  actions : List RedemptionAction
  failure : Option RedemptionFailureKind

inductive RedemptionDriverError where
  | journal (error : LiveJournalError)
  | missingRequest
  | identityMismatch

/-! ## Questions and answers -/

inductive RedemptionQuestion where
  | append (accountId : AccountId) (timestamp : OffsetDateTime) (payload : LiveJournalPayload)
  | submitAndConfirm (request : SignedRedemptionRequest)
  | reconcileTransaction (transactionId : String)

def RedemptionAnswer : RedemptionQuestion → Type
  | .append _ _ _ => Except LiveJournalError LiveJournalEvent
  | .submitAndConfirm _ => Except RedemptionTransportError ConfirmedRedemption
  | .reconcileTransaction _ => Except RedemptionStatusReadError RedemptionStatusObservation

abbrev RedemptionProgram (α : Type) :=
  Lib.Program RedemptionQuestion RedemptionAnswer RedemptionDriverError α

namespace RedemptionProgram

def append (accountId : AccountId) (timestamp : OffsetDateTime) (payload : LiveJournalPayload) :
    RedemptionProgram LiveJournalEvent :=
  .ask (.append accountId timestamp payload) fun answer =>
    .done (Except.mapError RedemptionDriverError.journal answer)

def submitAndConfirm (request : SignedRedemptionRequest) :
    RedemptionProgram (Except RedemptionTransportError ConfirmedRedemption) :=
  .ask (.submitAndConfirm request) fun answer => .done (.ok answer)

def reconcileTransaction (transactionId : String) :
    RedemptionProgram (Except RedemptionStatusReadError RedemptionStatusObservation) :=
  .ask (.reconcileTransaction transactionId) fun answer => .done (.ok answer)

/-- A step inside the process, with the journal's failures. -/
def ofJournal {α : Type} (result : Except LiveJournalError α) : RedemptionProgram α :=
  .done (result.mapError .journal)

end RedemptionProgram

open RedemptionProgram (append submitAndConfirm reconcileTransaction ofJournal)

/-! ## The pass -/

def validateRequestIdentity (identity : RedemptionAttemptIdentity) (request : SignedRedemptionRequest) :
    Except RedemptionDriverError Unit :=
  Lib.refuseIf (identity.conditionId ≠ request.call.conditionId
    ∨ eqIgnoreAsciiCase identity.adapter request.call.callTo = false
    ∨ eqIgnoreAsciiCase identity.custodyWallet request.custodyWallet = false) .identityMismatch

def CustodyKind.audit : CustodyKind → RedemptionCustodyAudit
  | depositWallet => .depositWallet
  | proxy => .proxy
  | safe => .safe
  | eoa => .eoa

def redemptionSchemaVersion : UInt16 := 1
def redemptionParserVersion : UInt16 := 1
def redemptionAdapterVersion : String := "polymarket-redemption-v1"

def redemptionRequestAudit (hashes : JournalHashes) (request : SignedRedemptionRequest)
    (requestHash : String) : RedemptionRequestAudit where
  callTo := request.call.callTo
  calldata := request.call.calldata
  conditionId := request.call.conditionId
  negRisk := request.call.negRisk
  custody := request.custody.audit
  signerAddress := request.signerAddress
  custodyWallet := request.custodyWallet
  deadlineUnix := request.deadlineUnix
  metadataHash := hashes.textHash request.metadata
  requestHash := requestHash
  schemaVersion := redemptionSchemaVersion
  parserVersion := redemptionParserVersion
  adapterVersion := redemptionAdapterVersion

section

variable (hashes : JournalHashes) (attempt : RedemptionAttempt) (now : OffsetDateTime)
  (transactionId : String)

include hashes

def journalTransaction (submitBodyHash : String) (evidence : List RawHttpAttempt) :
    RedemptionProgram Unit := do
  let evidenceHashes ← ofJournal (httpAttemptHashes hashes evidence)
  let _ ← append attempt.identity.accountId now (.redemptionTransactionIdentified
    ⟨attempt.identity, attempt.state.attemptCount, transactionId, submitBodyHash, evidence,
      evidenceHashes⟩)

def journalReceipt (transactionHash : Option String) (status : RedemptionReceiptStatusAudit)
    (evidence : List RawHttpAttempt) : RedemptionProgram Unit := do
  let evidenceHashes ← ofJournal (httpAttemptHashes hashes evidence)
  let _ ← append attempt.identity.accountId now (.redemptionReceiptTransition
    ⟨attempt.identity, attempt.state.attemptCount, transactionId, transactionHash, status, evidence,
      evidenceHashes⟩)

end

/-- The attempt after an event of the reducer, with its actions. -/
def RedemptionAttempt.advanced (attempt : RedemptionAttempt) (event : RedemptionEvent)
    (failure : Option RedemptionFailureKind) : RedemptionPassResult :=
  ⟨⟨attempt.identity, (advance attempt.state event).1⟩, (advance attempt.state event).2, failure⟩

def failAttempt (attempt : RedemptionAttempt) (retryNotBefore : OffsetDateTime)
    (failure : RedemptionFailureKind) : RedemptionPassResult :=
  attempt.advanced (.submissionFailed retryNotBefore failure) (some failure)

def handleSubmissionError (hashes : JournalHashes) (attempt : RedemptionAttempt)
    (input : RedemptionPassInput) : RedemptionTransportError → RedemptionProgram RedemptionPassResult
  | .ambiguousAfterSubmit transactionId submitBodyHash responses => do
    let evidence := responses.map RawHttpAttempt.response
    match transactionId with
    | some transactionId =>
      journalTransaction hashes attempt input.now transactionId submitBodyHash evidence
      journalReceipt hashes attempt input.now transactionId none .ambiguous evidence
    | none => pure ()
    return attempt.advanced (.submissionAmbiguous transactionId submitBodyHash) (some .transport)
  | .terminalFailure transactionId responses => do
    let evidence := responses.map RawHttpAttempt.response
    journalTransaction hashes attempt input.now transactionId "terminal-failure" evidence
    journalReceipt hashes attempt input.now transactionId none .terminalFailure evidence
    return failAttempt attempt input.retryNotBeforeOnFailure .terminal
  | .authentication => return failAttempt attempt input.retryNotBeforeOnFailure .authentication
  | .rejected => return failAttempt attempt input.retryNotBeforeOnFailure .rejected
  | .transport => return failAttempt attempt input.retryNotBeforeOnFailure .transport
  | .protocol => return failAttempt attempt input.retryNotBeforeOnFailure .protocol
  | .configuration | .unsupportedCustody | .request =>
    return failAttempt attempt input.retryNotBeforeOnFailure .invalidRequest

/-- What an observed status says: the event, the receipt's status and hash, its evidence and the
failure reported. -/
def statusTransition (input : RedemptionPassInput) :
    Except RedemptionStatusReadError RedemptionStatusObservation →
      RedemptionEvent × RedemptionReceiptStatusAudit × Option String × List RawHttpAttempt
        × Option RedemptionFailureKind
  | .ok (.pending evidence) => (.reconciliationPending, .pending, none, evidence, none)
  | .ok (.confirmed transactionHash evidence) =>
    (.reconciliationConfirmed transactionHash input.now, .confirmed, some transactionHash, evidence,
      none)
  | .ok (.terminalFailure evidence) =>
    (.reconciliationFailed input.retryNotBeforeOnFailure .terminal, .terminalFailure, none, evidence,
      some .terminal)
  | .ok (.ambiguous evidence) =>
    (.reconciliationAmbiguous, .ambiguous, none, evidence, some .transport)
  | .error error => (.reconciliationAmbiguous, .ambiguous, none, error.evidence, some .transport)

def handleStatusObservation (hashes : JournalHashes) (attempt : RedemptionAttempt)
    (input : RedemptionPassInput) (transactionId : String)
    (observation : Except RedemptionStatusReadError RedemptionStatusObservation) :
    RedemptionProgram RedemptionPassResult := do
  let (event, status, transactionHash, evidence, failure) := statusTransition input observation
  journalReceipt hashes attempt input.now transactionId transactionHash status evidence
  return attempt.advanced event failure

/-- A new submission: the request is journaled before it is sent. -/
def submitRequest (hashes : JournalHashes) (attempt : RedemptionAttempt) (input : RedemptionPassInput)
    (requestHash : String) : RedemptionProgram RedemptionPassResult := do
  let request ← .done (Lib.okOr input.signedRequest .missingRequest)
  if requestHash = "" then throw .missingRequest
  .done (validateRequestIdentity attempt.identity request)
  let _ ← append attempt.identity.accountId input.now (.redemptionRequested
    ⟨attempt.identity, attempt.state.attemptCount, input.resolvedWinnerRedeemable,
      redemptionRequestAudit hashes request requestHash⟩)
  match ← submitAndConfirm request with
  | .ok confirmed =>
    let evidence := confirmed.evidence.map RawHttpAttempt.response
    journalTransaction hashes attempt input.now confirmed.transactionId confirmed.submitBodyHash
      evidence
    journalReceipt hashes attempt input.now confirmed.transactionId (some confirmed.transactionHash)
      .confirmed evidence
    return attempt.advanced
      (.submissionConfirmed confirmed.transactionId confirmed.transactionHash input.now) none
  | .error error => handleSubmissionError hashes attempt input error

def runRedemptionPass (hashes : JournalHashes) (input : RedemptionPassInput) :
    RedemptionProgram RedemptionPassResult :=
  let (state, actions) := advance input.attempt.state (.resolvedWinnerBalanceObserved input.now
    input.resolvedWinnerRedeemable (input.requestHash.getD ""))
  let attempt : RedemptionAttempt := ⟨input.attempt.identity, state⟩
  match actions.head? with
  | some (.submitOnce requestHash) => submitRequest hashes attempt input requestHash
  | some (.reconcileExisting transactionId) => do
    handleStatusObservation hashes attempt input transactionId (← reconcileTransaction transactionId)
  | _ => return ⟨attempt, actions, none⟩

end PredictionEdge
