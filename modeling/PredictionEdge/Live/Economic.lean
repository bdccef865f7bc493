import PredictionEdge.Execution.LadderAudit
import PredictionEdge.Live.Evidence
import PredictionEdge.Risk.Engine

/-!
# The economic record of an order

What paper, live and replay share of a prepared order, as `execution-core/src/economic.rs` has
it: the market selected, both halves of the admission evidence, the ladder, the sizes, the fees,
the risk decision and the cash it was made on.
-/

namespace PredictionEdge

/-! ## Admission evidence -/

inductive VenueResolutionStatus where
  | unresolved
  | resolvedWinner (outcomeIndex : UInt8)
  | resolvedAmbiguous
  deriving DecidableEq, Repr

/-- The venue's settlement half of the admission evidence. -/
structure VenueSettlementRecord where
  schemaVersion : UInt16
  conditionId : PolymarketConditionId
  status : VenueResolutionStatus
  rawEvidenceHash : String
  sourceTimestampUnix : Option Int
  observedAtUnix : Int
  parserVersion : UInt16
  freshnessWindowSecs : UInt64
  deriving DecidableEq

/-- The two outcome tokens of a binary market, in order. -/
structure OutcomeTokens where
  first : PolymarketTokenId
  second : PolymarketTokenId
  deriving DecidableEq

/-- The source's market half of the admission evidence. -/
structure LiveMarketEvidence where
  conditionId : PolymarketConditionId
  orderedOutcomeTokenIds : OutcomeTokens
  negRisk : Bool
  negRiskMarketId : Option String
  seriesRecurrence : Option String
  minimumTickSize : Price
  minimumOrderSize : ShareAmount
  scheduledEndUnix : Option Int
  observedAtUnix : Int
  schemaVersion : UInt32
  parserVersion : UInt32
  freshnessWindowSecs : UInt64
  deriving DecidableEq

/-- What of the market evidence is recorded. -/
structure LiveMarketEvidenceAudit where
  conditionId : PolymarketConditionId
  orderedOutcomeTokenIds : OutcomeTokens
  negRisk : Bool
  minimumTickSize : Price
  minimumOrderSize : ShareAmount
  observedAtUnix : Int
  schemaVersion : UInt32
  parserVersion : UInt32
  freshnessWindowSecs : UInt64
  deriving DecidableEq

/-- The three source responses that compose an admission. -/
structure AdmissionReceipts where
  gamma : AppendReceipt
  clobLong : AppendReceipt
  clobCompact : AppendReceipt
  deriving DecidableEq

/-- Both halves of an admission, as the service composes them. -/
structure LiveAdmissionArtifact where
  market : LiveMarketEvidence
  settlement : VenueSettlementRecord
  feeSchedule : CompactFeeSchedule
  receipts : AdmissionReceipts
  deriving DecidableEq

structure LiveAdmissionArtifactAudit where
  market : LiveMarketEvidenceAudit
  settlement : VenueSettlementRecord
  feeSchedule : CompactFeeSchedule
  scheduledEndUnix : Option Int
  receipts : AdmissionReceipts
  deriving DecidableEq

def LiveMarketEvidenceAudit.from (market : LiveMarketEvidence) : LiveMarketEvidenceAudit :=
  ⟨market.conditionId, market.orderedOutcomeTokenIds, market.negRisk, market.minimumTickSize,
    market.minimumOrderSize, market.observedAtUnix, market.schemaVersion, market.parserVersion,
    market.freshnessWindowSecs⟩

def LiveAdmissionArtifactAudit.new (market : LiveMarketEvidence) (settlement : VenueSettlementRecord)
    (feeSchedule : CompactFeeSchedule) (receipts : AdmissionReceipts) : LiveAdmissionArtifactAudit :=
  ⟨.from market, settlement, feeSchedule, market.scheduledEndUnix, receipts⟩

/-! ## Economics -/

structure MarketSelection where
  conditionId : PolymarketConditionId
  outcomeIndex : UInt8
  tokenId : PolymarketTokenId
  side : Side
  marketId : String
  deriving DecidableEq

inductive SizingModeAudit where
  | kelly (fraction probability : Decimal)
  | dollar (usd : Decimal)
  | contract (contracts : UInt64)
  deriving DecidableEq

structure SizingAudit where
  mode : SizingModeAudit
  budget : CollateralAmount
  principal : CollateralAmount
  minimumShares : ShareAmount
  expectedShares : ShareAmount
  expectedVwap : Price
  allInPrice : Price
  slippageRate : Decimal
  deriving DecidableEq

structure FeeAudit where
  schedule : CompactFeeSchedule
  expectedFee : CollateralAmount
  reserve : CollateralAmount
  deriving DecidableEq

structure RiskAudit where
  financialPrefix : AppendReceipt
  snapshot : RiskSnapshot
  decision : RiskDecision
  priceReceipts : List AppendReceipt
  evaluatedAtUnixMs : Int
  deriving DecidableEq

structure BalanceAudit where
  cashBefore : CollateralAmount
  worstCaseDebit : CollateralAmount
  priceImpactCapBps : Int32
  chaseCeiling : Price
  bandFloor : Price
  bandCeilingExclusive : Price
  deriving DecidableEq

structure ObservationEvidence where
  sourceReceipt : AppendReceipt
  completeBoundReceipt : AppendReceipt
  observedUnixMs : Int
  provenance : String
  deriving DecidableEq

/-- The canonical economic record of a prepared order. -/
structure EconomicPrepared where
  version : UInt16
  market : MarketSelection
  admission : LiveAdmissionArtifactAudit
  ladder : LadderPlanAudit
  bookReceipt : AppendReceipt
  observation : Option ObservationEvidence
  sizing : SizingAudit
  fee : FeeAudit
  risk : RiskAudit
  balance : BalanceAudit
  appliedConfigurationHash : String
  deriving DecidableEq

def EconomicPrepared.allInDebit (e : EconomicPrepared) : Except CoreError CollateralAmount :=
  e.sizing.principal.checkedAdd e.fee.expectedFee

def EconomicPrepared.worstCaseAllInDebit (e : EconomicPrepared) : Except CoreError CollateralAmount :=
  e.sizing.principal.checkedAdd e.fee.reserve

end PredictionEdge
