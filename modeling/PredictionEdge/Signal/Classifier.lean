import Mathlib.Data.Finmap
import PredictionEdge.Core.Types

/-!
# Leader actions

A leader's trade is named by what it does to the position the leader already holds:
it opens one, adds to it, trims it, closes it or flips it. The classifier reads the
position before the trade and never the trade's price or time.
-/

namespace PredictionEdge

/-- A freshly observed trade of a leader wallet. -/
structure IncomingTrade where
  wallet : WalletAddress
  marketId : MarketId
  outcomeId : OutcomeId
  side : Side
  price : Price
  contracts : ShareAmount
  observedAt : SourceTimestamp
  sourceTradeId : SourceTradeId
  transactionHash : Option String

/-- Net exposure on each side for one market and outcome. -/
structure PositionState where
  longContracts : ShareAmount
  shortContracts : ShareAmount
  deriving DecidableEq

def PositionState.default : PositionState := ⟨.zero, .zero⟩

/-- A wallet's positions. -/
structure PositionSnapshot where
  wallet : WalletAddress
  positions : Finmap fun _ : MarketOutcomeId => PositionState
  deriving DecidableEq

structure SignalConfig where
  addHighConfidenceThresholdPpm : Nat
  exitHighConfidenceThresholdPpm : Nat
  nearCloseRemainingPct : Nat

def SignalConfig.default : SignalConfig := ⟨700000, 700000, 10⟩

/-- What remains is at most the configured share of what there was. -/
def isNearClose (remaining original : ShareAmount) (config : SignalConfig) : Bool :=
  if original = .zero then true
  else remaining.atomic * 100 ≤ original.atomic * config.nearCloseRemainingPct

/--
The action of a trade of `qty` against a holding of `opposing` shares on the other
side and `same` shares on the trade's own. The source writes this out once for each
side with the two holdings exchanged.
-/
def classifyAgainst (opposing same qty : ShareAmount) (config : SignalConfig) : LeaderAction :=
  if opposing = .zero then
    if same = .zero then .entry else .add
  else if opposing < qty then .flip
  else
    let remaining : ShareAmount :=
      ⟨opposing.atomic - qty.atomic, Nat.lt_of_le_of_lt (Nat.sub_le _ _) opposing.lt⟩
    if isNearClose remaining opposing config then .exit else .trim

def classifyLeaderAction (trade : IncomingTrade) (position : Option PositionSnapshot)
    (reconstructionQuality : ReconstructionQuality) (config : SignalConfig) : LeaderAction :=
  let key : MarketOutcomeId := ⟨trade.marketId, trade.outcomeId⟩
  let state := (position.bind fun p => p.positions.lookup key).getD .default
  -- without any history the action cannot be told
  if reconstructionQuality.val = 0 ∧ position.isNone then .unknown
  else
    match trade.side with
    | .buy => classifyAgainst state.shortContracts state.longContracts trade.contracts config
    | .sell => classifyAgainst state.longContracts state.shortContracts trade.contracts config

end PredictionEdge
