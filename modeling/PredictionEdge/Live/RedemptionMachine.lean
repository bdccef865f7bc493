import PredictionEdge.Activity.Parse
import PredictionEdge.Lib.Program
import PredictionEdge.Live.Journal

/-!
# The redemption machine

A family of redemption attempts, as `execution-core/src/redemption_machine.rs` has it: the state
of the family, the reducer `advance` that one pass steps with in memory, the state that the
journal's records rebuild, and the pass itself, which writes a request to the journal before it
submits it and an identity and a receipt after.
-/

namespace PredictionEdge

inductive RedemptionFailureKind where
  | authentication
  | rejected
  | transport
  | protocol
  | terminal
  | invalidRequest
  deriving DecidableEq, Repr

/-- Where a family of attempts stands. -/
inductive RedemptionAttemptState where
  | idle (attemptCount : UInt32)
  | submissionReserved (attemptCount : UInt32) (redeemableBalance : CollateralAmount)
      (requestHash : String) (deadlineUnix : Option UInt64)
  | inFlight (attemptCount : UInt32) (transactionId submitBodyHash : String)
  | ambiguous (attemptCount : UInt32) (transactionId : Option String) (submitBodyHash : String)
  | failed (attemptCount : UInt32) (retryNotBefore : OffsetDateTime) (failure : RedemptionFailureKind)
  | confirmedAwaitingBalance (attemptCount : UInt32) (transactionId transactionHash : String)
      (confirmedAt : OffsetDateTime)
  | complete (attemptCount : UInt32) (transactionId transactionHash : String)
      (reconciledAt : OffsetDateTime) (remainingRedeemable : CollateralAmount)
  deriving DecidableEq

namespace RedemptionAttemptState

def default : RedemptionAttemptState := idle 0

def attemptCount : RedemptionAttemptState → UInt32
  | idle n => n
  | submissionReserved n _ _ _ => n
  | inFlight n _ _ => n
  | ambiguous n _ _ => n
  | failed n _ _ => n
  | confirmedAwaitingBalance n _ _ _ => n
  | complete n _ _ _ _ => n

/-- The instant is past a signed deadline. -/
def deadlinePassed (now : OffsetDateTime) (deadline : UInt64) : Bool :=
  decide (0 ≤ now.unixTimestamp ∧ (deadline.toNat : Int) < now.unixTimestamp)

/-- A request without a transaction identity whose signed deadline has passed. -/
def submissionDeadlinePassed (state : RedemptionAttemptState) (now : OffsetDateTime) : Bool :=
  match state with
  | submissionReserved _ _ _ (some deadline) => deadlinePassed now deadline
  | _ => false

/-- The transaction a pass may ask about. -/
def transactionId : RedemptionAttemptState → Option String
  | inFlight _ transactionId _ => some transactionId
  | ambiguous _ transactionId _ => transactionId
  | _ => none

end RedemptionAttemptState

structure RedemptionAttempt where
  identity : RedemptionAttemptIdentity
  state : RedemptionAttemptState
  deriving DecidableEq

/-! ## What the journal rebuilds -/

/-- The latest recorded state of every family. -/
structure RedemptionAttempts where
  get : RedemptionAttemptIdentity → Option RedemptionAttempt

namespace RedemptionAttempts

def empty : RedemptionAttempts := ⟨fun _ => none⟩

def insert (attempts : RedemptionAttempts) (identity : RedemptionAttemptIdentity)
    (state : RedemptionAttemptState) : RedemptionAttempts :=
  ⟨fun key => if key = identity then some ⟨identity, state⟩ else attempts.get key⟩

/-- The state a receipt leaves behind; a confirmation without a hash stays ambiguous. -/
def receiptState (audit : RedemptionReceiptAudit) (timestamp : OffsetDateTime)
    (prior : RedemptionAttemptState) : RedemptionAttemptState :=
  let submitBodyHash := match prior with
    | .inFlight _ _ submitBodyHash => submitBodyHash
    | .ambiguous _ _ submitBodyHash => submitBodyHash
    | _ => ""
  match audit.status with
  | .pending => .inFlight audit.attemptCount audit.transactionId submitBodyHash
  | .ambiguous => .ambiguous audit.attemptCount (some audit.transactionId) submitBodyHash
  | .confirmed =>
    match audit.transactionHash with
    | some transactionHash =>
      if trim transactionHash = "" then
        .ambiguous audit.attemptCount (some audit.transactionId) submitBodyHash
      else .confirmedAwaitingBalance audit.attemptCount audit.transactionId transactionHash timestamp
    | none => .ambiguous audit.attemptCount (some audit.transactionId) submitBodyHash
  | .terminalFailure => .failed audit.attemptCount timestamp .terminal

/-- The state that balance evidence completes; any other is left as it is. -/
def custodyState (timestamp : OffsetDateTime) : RedemptionAttemptState → Option RedemptionAttemptState
  | .confirmedAwaitingBalance attemptCount transactionId transactionHash _ =>
    some (.complete attemptCount transactionId transactionHash timestamp .zero)
  | _ => none

def apply (attempts : RedemptionAttempts) (event : LiveJournalEvent) : RedemptionAttempts :=
  match event.payload with
  | .redemptionRequested audit =>
    attempts.insert audit.identity (.submissionReserved audit.attemptCount audit.redeemableBalance
      audit.request.requestHash audit.request.deadlineUnix)
  | .redemptionTransactionIdentified audit =>
    attempts.insert audit.identity
      (.inFlight audit.attemptCount audit.transactionId audit.submitBodyHash)
  | .redemptionReceiptTransition audit =>
    match attempts.get audit.identity with
    | none => attempts
    | some prior => attempts.insert audit.identity (receiptState audit event.timestamp prior.state)
  | .redemptionCustodyReconciled audit =>
    match attempts.get audit.identity with
    | none => attempts
    | some prior =>
      match custodyState event.timestamp prior.state with
      | none => attempts
      | some state => attempts.insert audit.identity state
  | _ => attempts

end RedemptionAttempts

/-- `reconstruct_redemption_attempts`. -/
def reconstructRedemptionAttempts (events : List LiveJournalEvent) : RedemptionAttempts :=
  events.foldl RedemptionAttempts.apply .empty

/-! ## The reducer -/

inductive RedemptionEvent where
  | resolvedWinnerBalanceObserved (now : OffsetDateTime) (redeemableBalance : CollateralAmount)
      (requestHash : String)
  | submissionAccepted (transactionId submitBodyHash : String)
  | submissionConfirmed (transactionId transactionHash : String) (confirmedAt : OffsetDateTime)
  | submissionAmbiguous (transactionId : Option String) (submitBodyHash : String)
  | submissionFailed (retryNotBefore : OffsetDateTime) (failure : RedemptionFailureKind)
  | reconciliationPending
  | reconciliationConfirmed (transactionHash : String) (confirmedAt : OffsetDateTime)
  | reconciliationAmbiguous
  | reconciliationFailed (retryNotBefore : OffsetDateTime) (failure : RedemptionFailureKind)
  | balanceReconciled (reconciledAt : OffsetDateTime)
      (creditedCollateral remainingRedeemable : CollateralAmount)

inductive RedemptionAction where
  | submitOnce (requestHash : String)
  | reconcileExisting (transactionId : String)
  | waitForBackoff (retryNotBefore : OffsetDateTime)
  | awaitTransactionIdentity
  | reconcileBalance
  | proceedsSpendable (creditedCollateral : CollateralAmount)
  deriving DecidableEq

/-- `u32::saturating_add(1)`. -/
def saturatingSuccU32 (n : UInt32) : UInt32 := if n.toNat + 1 < 2 ^ 32 then n + 1 else n

def reserveSubmission (attemptCount : UInt32) (redeemableBalance : CollateralAmount)
    (requestHash : String) : RedemptionAttemptState × List RedemptionAction :=
  (.submissionReserved (saturatingSuccU32 attemptCount) redeemableBalance requestHash none,
    [.submitOnce requestHash])

/-- The total reducer. An event that the current state does not expect changes nothing. -/
def advance (state : RedemptionAttemptState) (event : RedemptionEvent) :
    RedemptionAttemptState × List RedemptionAction :=
  match state, event with
  | .idle attemptCount, .resolvedWinnerBalanceObserved _ redeemableBalance requestHash =>
    if .zero < redeemableBalance then reserveSubmission attemptCount redeemableBalance requestHash
    else (state, [])
  | .complete attemptCount _ _ _ _, .resolvedWinnerBalanceObserved _ redeemableBalance requestHash =>
    if .zero < redeemableBalance then reserveSubmission attemptCount redeemableBalance requestHash
    else (state, [])
  | .failed attemptCount retryNotBefore _,
      .resolvedWinnerBalanceObserved now redeemableBalance requestHash =>
      if now < retryNotBefore then (state, [.waitForBackoff retryNotBefore])
      -- retried at any balance, so that a family that was started reaches custody
      else reserveSubmission attemptCount redeemableBalance requestHash
  | .submissionReserved attemptCount _ _ _,
      .resolvedWinnerBalanceObserved now redeemableBalance requestHash =>
      if state.submissionDeadlinePassed now then
        reserveSubmission attemptCount redeemableBalance requestHash
      else (state, [.awaitTransactionIdentity])
  | .inFlight _ transactionId _, .resolvedWinnerBalanceObserved _ _ _ =>
    (state, [.reconcileExisting transactionId])
  | .ambiguous _ (some transactionId) _, .resolvedWinnerBalanceObserved _ _ _ =>
    (state, [.reconcileExisting transactionId])
  | .ambiguous _ none _, .resolvedWinnerBalanceObserved _ _ _ => (state, [.awaitTransactionIdentity])
  | .confirmedAwaitingBalance _ _ _ _, .resolvedWinnerBalanceObserved _ _ _ =>
    (state, [.reconcileBalance])
  | .submissionReserved attemptCount _ _ _, .submissionAccepted transactionId submitBodyHash =>
    (.inFlight attemptCount transactionId submitBodyHash, [])
  | .submissionReserved attemptCount _ _ _,
      .submissionConfirmed transactionId transactionHash confirmedAt =>
      (.confirmedAwaitingBalance attemptCount transactionId transactionHash confirmedAt,
        [.reconcileBalance])
  | .inFlight attemptCount _ _, .submissionConfirmed transactionId transactionHash confirmedAt =>
    (.confirmedAwaitingBalance attemptCount transactionId transactionHash confirmedAt,
      [.reconcileBalance])
  | .ambiguous attemptCount _ _, .submissionConfirmed transactionId transactionHash confirmedAt =>
    (.confirmedAwaitingBalance attemptCount transactionId transactionHash confirmedAt,
      [.reconcileBalance])
  | .submissionReserved attemptCount _ _ _, .submissionAmbiguous transactionId submitBodyHash =>
    (.ambiguous attemptCount transactionId submitBodyHash,
      match transactionId with
      | none => [.awaitTransactionIdentity]
      | some transactionId => [.reconcileExisting transactionId])
  | .submissionReserved attemptCount _ _ _, .submissionFailed retryNotBefore failure =>
    (.failed attemptCount retryNotBefore failure, [.waitForBackoff retryNotBefore])
  | .inFlight attemptCount transactionId submitBodyHash, .reconciliationPending =>
    (.inFlight attemptCount transactionId submitBodyHash, [])
  | .ambiguous attemptCount (some transactionId) submitBodyHash, .reconciliationPending =>
    (.inFlight attemptCount transactionId submitBodyHash, [])
  | .inFlight attemptCount transactionId _, .reconciliationConfirmed transactionHash confirmedAt =>
    (.confirmedAwaitingBalance attemptCount transactionId transactionHash confirmedAt,
      [.reconcileBalance])
  | .ambiguous attemptCount (some transactionId) _,
      .reconciliationConfirmed transactionHash confirmedAt =>
      (.confirmedAwaitingBalance attemptCount transactionId transactionHash confirmedAt,
        [.reconcileBalance])
  | .inFlight attemptCount transactionId submitBodyHash, .reconciliationAmbiguous =>
    (.ambiguous attemptCount (some transactionId) submitBodyHash, [])
  | .ambiguous attemptCount (some transactionId) submitBodyHash, .reconciliationAmbiguous =>
    (.ambiguous attemptCount (some transactionId) submitBodyHash, [])
  | .inFlight attemptCount _ _, .reconciliationFailed retryNotBefore failure =>
    (.failed attemptCount retryNotBefore failure, [.waitForBackoff retryNotBefore])
  | .ambiguous attemptCount _ _, .reconciliationFailed retryNotBefore failure =>
    (.failed attemptCount retryNotBefore failure, [.waitForBackoff retryNotBefore])
  | .confirmedAwaitingBalance attemptCount transactionId transactionHash _,
      .balanceReconciled reconciledAt creditedCollateral remainingRedeemable =>
      (.complete attemptCount transactionId transactionHash reconciledAt remainingRedeemable,
        if .zero < creditedCollateral then [.proceedsSpendable creditedCollateral] else [])
  | state, _ => (state, [])

/-! ## Posture -/

def liveRedemptionSurfaceAfterAttempts : UInt32 := 3

structure RedemptionPosture where
  closesNewBuyAdmission : Bool
  surfaceProminently : Bool
  deriving DecidableEq

def redemptionPosture (state : RedemptionAttemptState) : RedemptionPosture :=
  let closesNewBuyAdmission := match state with
    | .submissionReserved .. | .inFlight .. | .ambiguous .. | .failed ..
    | .confirmedAwaitingBalance .. => true
    | .idle .. | .complete .. => false
  let isUnresolvedAttempt := match state with
    | .submissionReserved .. | .inFlight .. | .ambiguous .. | .failed .. => true
    | _ => false
  ⟨closesNewBuyAdmission,
    isUnresolvedAttempt && decide (liveRedemptionSurfaceAfterAttempts ≤ state.attemptCount)⟩

end PredictionEdge
