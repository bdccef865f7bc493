import PredictionEdge.Ledger.Effect
import PredictionEdge.Signal.Classifier

/-!
# The position ledger

Positions per wallet, and the checked arithmetic by which a mutation moves them. A
batch of mutations is applied to a disposable copy, so a failure anywhere leaves the
ledger as it was. One set lives only as long as a batch does: the market outcomes a
redemption has closed by clamping a small residual. Whatever would remove more shares
from such an outcome later in the batch fails.
-/

namespace PredictionEdge

/-- One four-decimal quantum: residuals of 1 to 99 clamp, 100 fences. -/
def redeemResidualLimitAtomic : Nat := 100

abbrev Positions := Finmap fun _ : MarketOutcomeId => PositionState

structure PositionLedger where
  snapshots : Finmap fun _ : WalletAddress => PositionSnapshot
  deriving DecidableEq

/-- A ledger in the middle of a batch, with the outcomes closed by a residual so far. -/
structure Batch where
  ledger : PositionLedger
  closed : Finset MarketOutcomeId
  deriving DecidableEq

namespace PositionLedger

def new : PositionLedger := ⟨∅⟩

section

variable (l : PositionLedger) (w : WalletAddress)

def position : Option PositionSnapshot :=
  l.snapshots.lookup w

/-- The stored state of one market outcome of a wallet. -/
def stateAt (k : MarketOutcomeId) : Option PositionState :=
  (l.position w).bind fun s => s.positions.lookup k

/-- The state a mutable borrow finds: a missing entry is created at zero. -/
def stateMut (k : MarketOutcomeId) : PositionState :=
  (l.stateAt w k).getD .default

/-- Write through that borrow: the wallet's snapshot and the entry exist afterwards. -/
def setState (k : MarketOutcomeId) (state : PositionState) : PositionLedger :=
  let snapshot := (l.position w).getD ⟨w, ∅⟩
  ⟨l.snapshots.insert w ⟨snapshot.wallet, snapshot.positions.insert k state⟩⟩

end

/-- Put one wallet's positions in the place of what it had. -/
def replaceWalletSnapshot (ledger : PositionLedger) (wallet : WalletAddress)
    (positions : Positions) : PositionLedger :=
  ⟨ledger.snapshots.insert wallet ⟨wallet, positions⟩⟩

end PositionLedger

/--
Buying covers a short before it adds to the long; selling trims a long before it adds
to the short.
-/
def applyTrade (state : PositionState) (side : Side) (amount : ShareAmount)
    (sourceTradeId : SourceTradeId) : Except LedgerError PositionState :=
  match side with
  | .buy => do
    let covered := state.shortContracts.min amount
    let short ← (state.shortContracts.checkedSub covered).mapError fun _ =>
      .underflow sourceTradeId
    let remainder ← (amount.checkedSub covered).mapError fun _ => .underflow sourceTradeId
    let long ← (state.longContracts.checkedAdd remainder).mapError fun _ =>
      .overflow sourceTradeId
    return ⟨long, short⟩
  | .sell => do
    let trimmed := state.longContracts.min amount
    let long ← (state.longContracts.checkedSub trimmed).mapError fun _ =>
      .underflow sourceTradeId
    let remainder ← (amount.checkedSub trimmed).mapError fun _ => .underflow sourceTradeId
    let short ← (state.shortContracts.checkedAdd remainder).mapError fun _ =>
      .overflow sourceTradeId
    return ⟨long, short⟩

/-- One outcome's half of a split. -/
def splitOutcome (mutation : LedgerMutation) (market : MarketId) (amount : ShareAmount)
    (ledger : PositionLedger) (outcome : OutcomeId) : Except LedgerError PositionLedger := do
  let state := ledger.stateMut mutation.wallet ⟨market, outcome⟩
  let long ← (state.longContracts.checkedAdd amount).mapError fun _ =>
    .overflow mutation.sourceTradeId
  return ledger.setState mutation.wallet ⟨market, outcome⟩ ⟨long, state.shortContracts⟩

def checkedRemainingLong (ledger : PositionLedger) (mutation : LedgerMutation)
    (market : MarketId) (outcome : OutcomeId) (amount : ShareAmount) :
    Except LedgerError ShareAmount :=
  let balance :=
    ((ledger.stateAt mutation.wallet ⟨market, outcome⟩).map (·.longContracts)).getD .zero
  (balance.checkedSub amount).mapError fun _ => .underflow mutation.sourceTradeId

/-- Overwrite the long side of one market outcome. -/
def PositionLedger.setLong (ledger : PositionLedger) (w : WalletAddress) (k : MarketOutcomeId)
    (long : ShareAmount) : PositionLedger :=
  ledger.setState w k ⟨long, (ledger.stateMut w k).shortContracts⟩

def checkedRemovePair (s : Batch) (mutation : LedgerMutation) (market : MarketId)
    (amount : ShareAmount) : Except LedgerError PositionLedger := do
  if amount ≠ .zero ∧ [OutcomeId.mk 0, ⟨1⟩].any (⟨market, ·⟩ ∈ s.closed) then
    throw (.underflow mutation.sourceTradeId)
  -- both balances are checked before either is written
  let outcomeZero ← checkedRemainingLong s.ledger mutation market ⟨0⟩ amount
  let outcomeOne ← checkedRemainingLong s.ledger mutation market ⟨1⟩ amount
  return (s.ledger.setLong mutation.wallet ⟨market, ⟨0⟩⟩ outcomeZero).setLong
    mutation.wallet ⟨market, ⟨1⟩⟩ outcomeOne

/-- A redemption may exceed the long by less than the limit; it then closes the outcome. -/
def checkedRemoveRedeem (s : Batch) (mutation : LedgerMutation) (market : MarketId)
    (outcome : OutcomeId) (amount : ShareAmount) : Except LedgerError (Batch × Option Nat) := do
  let key : MarketOutcomeId := ⟨market, outcome⟩
  if amount ≠ .zero ∧ key ∈ s.closed then throw (.underflow mutation.sourceTradeId)
  let state := s.ledger.stateMut mutation.wallet key
  if amount ≤ state.longContracts then
    let long ← (state.longContracts.checkedSub amount).mapError fun _ =>
      .underflow mutation.sourceTradeId
    return (⟨s.ledger.setState mutation.wallet key ⟨long, state.shortContracts⟩, s.closed⟩, none)
  -- the redemption exceeds the long: a small excess is clamped, a larger one fails
  let residual ← (amount.checkedSub state.longContracts).mapError fun _ =>
    .underflow mutation.sourceTradeId
  if redeemResidualLimitAtomic ≤ residual.atomic then throw (.underflow mutation.sourceTradeId)
  return (⟨s.ledger.setState mutation.wallet key ⟨.zero, state.shortContracts⟩,
    insert key s.closed⟩, some residual.atomic)

/-- One mutation of a batch. -/
def applyInPlace (mutation : LedgerMutation) (s : Batch) :
    Except LedgerError (Batch × AppliedEffect) :=
  match mutation.effect.effective with
  | .trade market outcome side amount _ =>
    if side = .sell ∧ amount ≠ .zero ∧ ⟨market, outcome⟩ ∈ s.closed then
      .error (.underflow mutation.sourceTradeId)
    else do
      let state := s.ledger.stateMut mutation.wallet ⟨market, outcome⟩
      let state ← applyTrade state side amount mutation.sourceTradeId
      return (⟨s.ledger.setState mutation.wallet ⟨market, outcome⟩ state, s.closed⟩,
        ⟨mutation.effect, none⟩)
  | .split market amount => do
    let ledger ← [OutcomeId.mk 0, ⟨1⟩].foldlM (splitOutcome mutation market amount) s.ledger
    return (⟨ledger, s.closed⟩, ⟨mutation.effect, none⟩)
  | .merge market amount => do
    let ledger ← checkedRemovePair s mutation market amount
    return (⟨ledger, s.closed⟩, ⟨mutation.effect, none⟩)
  | .redeem market outcome amount => do
    let (s, residual) ← checkedRemoveRedeem s mutation market outcome amount
    return (s, ⟨mutation.effect, residual⟩)
  -- what the ledger cannot express fails; what moves no shares passes
  | .conversion => .error (.conversion mutation.sourceTradeId)
  | .requiresAnchor | .rawOnly => .ok (s, ⟨mutation.effect, none⟩)
  | .unknownEffect => .error (.unknownEffect mutation.sourceTradeId)
  | .corrected _ _ => .ok (s, ⟨mutation.effect, none⟩)

def applyAllInPlace : List LedgerMutation → Batch → Except LedgerError (Batch × List AppliedEffect)
  | [], s => .ok (s, [])
  | mutation :: mutations, s => do
    let (s, applied) ← applyInPlace mutation s
    let (s, rest) ← applyAllInPlace mutations s
    return (s, applied :: rest)

namespace PositionLedger

/-- Apply a batch to a disposable copy. -/
def simulateAllOrNone (ledger : PositionLedger) (mutations : List LedgerMutation) :
    Except LedgerError (PositionLedger × List AppliedEffect) :=
  (applyAllInPlace mutations ⟨ledger, ∅⟩).map fun r => (r.1.ledger, r.2)

/-- Apply every group, or keep the ledger as it is and report the failure. -/
def applyAllOrNone (ledger : PositionLedger) (mutations : List LedgerMutation) :
    PositionLedger × Except LedgerError (List AppliedEffect) :=
  match ledger.simulateAllOrNone mutations with
  | .ok (candidate, applied) => (candidate, .ok applied)
  | .error e => (ledger, .error e)

end PositionLedger

end PredictionEdge
