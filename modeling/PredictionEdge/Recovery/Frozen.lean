import Mathlib.Data.Prod.Lex
import Mathlib.Data.String.Basic
import PredictionEdge.Activity.Parse
import PredictionEdge.Ledger.Document
import PredictionEdge.Lib.Runs

/-!
# Replaying frozen records

A wallet's ledger is rebuilt from its anchor balances and the stored activity groups. Groups
of one second form a bucket: the effects of those that were applied are applied again, all or
none, and the residuals they clamp must be the recorded ones. A frame's admission replays the
records of one market alone.
-/

namespace PredictionEdge

open Lib

/-- One stored activity group. -/
structure ActivityGroupRow where
  sourceTradeId : SourceTradeId
  sourceEpoch : Int
  semanticRevision : String
  disposition : String
  proofJson : String
  deriving DecidableEq, Repr

/-- An anchor's balance of one market outcome. -/
structure AnchorBalance where
  market : String
  outcome : UInt16
  amount : ShareAmount

def AnchorBalance.key (b : AnchorBalance) : MarketOutcomeId := ⟨⟨⟨b.market⟩⟩, ⟨b.outcome⟩⟩

/-- The failures of a replay without the database. -/
inductive WalletLedgerReplayError where
  | effectDocument (sourceTradeId : SourceTradeId) (source : LedgerEffectDocumentError)
  | unknownDisposition (sourceTradeId : SourceTradeId) (disposition : String)
  | invalidSourceEpoch (sourceTradeId : SourceTradeId) (sourceEpoch : Int)
  | ledger (sourceTradeId : SourceTradeId) (message : String)
  | clampedResidualMismatch (wallet : WalletAddress) (sourceEpoch : Int)
      (expected actual : List (Option Nat))
  deriving DecidableEq, Repr

/-- Dispositions whose effect the ledger holds. -/
def appliedDispositions : List String :=
  ["applied", "wallet_fenced_applied", "decision_pending", "history_only_bracket",
    "not_copy_eligible", "not_an_entry", "not_first_entry", "not_buy", "wallet_history_incomplete",
    "ambiguous_first_entry_same_second", "order_dependent_equal_second_action",
    "stale_fallback_past_copy_budget", "stale_activity_ws_past_copy_budget"]

def notAppliedDispositions : List String :=
  ["raw_only", "scope_dropped", "reanchor_required_redemption", "reanchor_required_late_group",
    "anchor_covered", "anchor_covered_late", "wallet_fenced", "revised_applied_aggregate",
    "late_group_after_bucket_commit", "invalid_mapping", "position_underflow", "position_overflow",
    "conversion_unknown_conditions", "unknown_activity_effect", "order_dependent_equal_second"]

def appliedDisposition (sourceTradeId : SourceTradeId) (disposition : String) :
    Except WalletLedgerReplayError Bool :=
  if disposition ∈ appliedDispositions ∨ disposition ∈ notAppliedDispositions then
    .ok (disposition ∈ appliedDispositions)
  else .error (.unknownDisposition sourceTradeId disposition)

def ledgerErrorSourceId : LedgerError → SourceTradeId
  | .invalidMapping id => id
  | .underflow id => id
  | .overflow id => id
  | .conversion id => id
  | .unknownEffect id => id

/-! ## Buckets -/

/-- The mutations of the groups that were applied, with the residuals they left. -/
def replayedMutations (libs : DocumentLibraries) (wallet : WalletAddress)
    (sourceTime : SourceTimestamp) :
    List ActivityGroupRow → Except WalletLedgerReplayError (List (LedgerMutation × Option Nat))
  | [] => .ok []
  | group :: groups => do
    let (applied, _) ← (AppliedEffect.fromDocument libs group.proofJson).mapError
      (.effectDocument group.sourceTradeId)
    let isApplied ← appliedDisposition group.sourceTradeId group.disposition
    let rest ← replayedMutations libs wallet sourceTime groups
    let mutation : LedgerMutation :=
      ⟨group.sourceTradeId, group.sourceTradeId.val, wallet, sourceTime, applied.effect⟩
    return if isApplied then (mutation, applied.clampedResidual) :: rest else rest

section

variable (libs : DocumentLibraries) (wallet : WalletAddress) (ledger : PositionLedger)
  (groups : List ActivityGroupRow)

def applyReplayedBucket : Except WalletLedgerReplayError PositionLedger :=
  match groups with
  | [] => .ok ledger
  | first :: _ => do
    let sourceTime ← okOr (fromUnixTimestamp first.sourceEpoch)
      (.invalidSourceEpoch first.sourceTradeId first.sourceEpoch)
    let replayed ← replayedMutations libs wallet sourceTime groups
    let (ledger, applied) ← (ledger.simulateAllOrNone (replayed.map Prod.fst)).mapError fun e =>
      .ledger (ledgerErrorSourceId e) e.display
    let actual := applied.map (·.clampedResidual)
    let expected := replayed.map Prod.snd
    refuseIf (actual ≠ expected)
      (.clampedResidualMismatch wallet first.sourceEpoch expected actual)
    return ledger

/-- Bucket after bucket: the groups of one epoch that stand together. -/
def applyReplayedGroups : Except WalletLedgerReplayError PositionLedger :=
  (runs ActivityGroupRow.sourceEpoch groups).foldlM (applyReplayedBucket libs wallet) ledger

end

/-- The positions an anchor installs. -/
def anchorPositions (balances : List AnchorBalance) : Positions :=
  balances.foldl (fun positions b => positions.insert b.key ⟨b.amount, .zero⟩) ∅

/-- The ledger that holds an anchor's balances and nothing else. -/
def anchorLedger (wallet : WalletAddress) (balances : List AnchorBalance) : PositionLedger :=
  PositionLedger.new.replaceWalletSnapshot wallet (anchorPositions balances)

def replayFrozenRecords (libs : DocumentLibraries) (wallet : WalletAddress)
    (balances : List AnchorBalance) (groups : List ActivityGroupRow) :
    Except WalletLedgerReplayError PositionLedger :=
  applyReplayedGroups libs wallet (anchorLedger wallet balances) groups

/-! ## One market's prefix -/

inductive FrameAdmissionError where
  | invalidPrefix (message : String)
  | history (source : WalletLedgerReplayError)
  | effect (source : LedgerEffectDocumentError)
  deriving DecidableEq, Repr

/-- What a wallet's coverage says of its anchor. -/
structure WalletCoverage where
  activityCutoffUnix : Option Int
  anchorSeq : Option Int

/-- The part of an admission's frozen inputs that positions are rebuilt from. -/
structure FrameAdmissionInputs where
  anchorBalances : List (UInt16 × ShareAmount)
  ledgerGroups : List ActivityGroupRow
  coverage : WalletCoverage

/-- Does the group's effect move shares in the market? -/
def groupAffectsMarket (libs : DocumentLibraries) (group : ActivityGroupRow) (market : MarketId) :
    Except FrameAdmissionError Bool :=
  ((AppliedEffect.fromDocument libs group.proofJson).mapError .effect).map fun applied =>
    decide (applied.1.effect.effectMarket = some market)

/-- Where a group stands in the listing: by epoch, then by identity. -/
def ActivityGroupRow.place (g : ActivityGroupRow) : Int ×ₗ String :=
  toLex (g.sourceEpoch, g.sourceTradeId.val)

namespace FrameAdmissionInputs

/-- The balances, under the market they belong to. -/
def balances (inputs : FrameAdmissionInputs) (market : MarketId) : List AnchorBalance :=
  inputs.anchorBalances.map fun (outcome, amount) => ⟨market.text, outcome, amount⟩

/-- A group lies after the cutoff and moves shares in the market. -/
def checkGroup (libs : DocumentLibraries) (inputs : FrameAdmissionInputs) (market : MarketId)
    (group : ActivityGroupRow) : Except FrameAdmissionError Unit :=
  if inputs.coverage.activityCutoffUnix.any fun cutoff => group.sourceEpoch ≤ cutoff then
    .error (.invalidPrefix "ledger group outside frozen market prefix")
  else do
    let affects ← groupAffectsMarket libs group market
    refuseIf (affects = false) (.invalidPrefix "ledger group outside frozen market prefix")

/-- The wallet's positions in one market, from its balances and records alone. -/
def positions (libs : DocumentLibraries) (inputs : FrameAdmissionInputs) (wallet : WalletAddress)
    (market : MarketId) : Except FrameAdmissionError PositionSnapshot := do
  let balances := inputs.balances market
  refuseIf
    (¬ (inputs.anchorBalances.map Prod.fst).Nodup
      ∨ (inputs.coverage.anchorSeq.isNone ∧ balances ≠ [])
      ∨ ¬ inputs.ledgerGroups.IsChain fun a b => a.place < b.place)
    (.invalidPrefix "invalid market ledger prefix")
  inputs.ledgerGroups.forM (inputs.checkGroup libs market)
  let ledger ← (replayFrozenRecords libs wallet balances inputs.ledgerGroups).mapError .history
  okOr (ledger.position wallet) (.invalidPrefix "market ledger absent")

end FrameAdmissionInputs

end PredictionEdge
