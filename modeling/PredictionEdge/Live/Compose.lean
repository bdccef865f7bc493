import PredictionEdge.Live.Economic

/-!
# Composing an economic record

The one composition that paper, live and replay share, as `execution-core/src/economic.rs` has
it. It reads no clock and asks nobody: it checks the evidence its caller holds against itself
and derives the fees, the reserve and the worst-case debit.
-/

namespace PredictionEdge

open Lib

def economicPreparedVersion : UInt16 := 1
def paperEconomicPreparedVersion : UInt16 := 2

/-- The evidence a composition is made from. -/
structure EconomicInputs where
  market : MarketSelection
  admission : LiveAdmissionArtifact
  plan : LadderPlan
  bookReceipt : AppendReceipt
  observation : Option ObservationEvidence
  sizingMode : SizingModeAudit
  budget : CollateralAmount
  slippageRate : Decimal
  risk : RiskAudit
  cashBefore : CollateralAmount
  priceImpactCapBps : Int32
  chaseCeiling : Price
  bandFloor : Price
  bandCeilingExclusive : Price
  appliedConfigurationHash : String
  deriving DecidableEq

/-- The failures of a composition: those of its ladder and its arithmetic, and those of its
identities. -/
inductive ComposeError where
  | economic (error : EconomicError)
  | invalidMarketIdentity
  | invalidRiskDecision
  | missingBookReceipt
  | invalidCurrentBookChase
  deriving DecidableEq, Repr

def OutcomeTokens.get? (tokens : OutcomeTokens) : Nat → Option PolymarketTokenId
  | 0 => some tokens.first
  | 1 => some tokens.second
  | _ => none

/-- The all-in price: the expected debit per signed share, with the slippage on top. -/
def composedAllInPrice (arith : DecimalArith) (expectedDebit : CollateralAmount)
    (shares : ShareAmount) (slippageRate : Decimal) : Except CoreError Price := do
  let slippageMultiplier ← okOr (arith.checkedAdd .one slippageRate)
    (.outOfRange "EconomicInputs.slippage_rate")
  let price ← okOr ((arith.checkedDiv expectedDebit.toDecimal shares.toDecimal).bind
    fun price => arith.checkedMul price slippageMultiplier)
    (.outOfRange "EconomicPrepared.all_in_price")
  Price.new price

section

variable (arith : DecimalArith) (inputs : EconomicInputs)

/-- Compose the canonical economic record. -/
def EconomicPrepared.compose : Except ComposeError EconomicPrepared := do
  refuseIf (inputs.risk.decision ≠ evaluateRisk inputs.risk.snapshot) .invalidRiskDecision
  refuseIf (inputs.bookReceipt.thisHash = .genesis) .missingBookReceipt
  refuseIf (inputs.market.side ≠ .buy
    ∨ inputs.market.conditionId ≠ inputs.admission.market.conditionId
    ∨ inputs.market.marketId ≠ inputs.admission.market.conditionId.val
    ∨ inputs.admission.market.orderedOutcomeTokenIds.get? inputs.market.outcomeIndex.toNat
      ≠ some inputs.market.tokenId) .invalidMarketIdentity
  let plan := inputs.plan
  let ladder := LadderPlanAudit.new plan
  (auditLadder arith plan).mapError .economic
  -- the audit has computed these figures; they are the same again
  let expectedShares ← ladder.expectedShares.mapError (.economic ∘ .arithmetic)
  let expectedVwap ← okOr (ladder.expectedVwap arith) (.economic .invalidLadderAudit)
  let actualSignedPrice ←
    (signedPrice arith plan.worstCaseDebit plan.shares).mapError (.economic ∘ .fee)
  let schedule := inputs.admission.feeSchedule
  let expectedFee ← (takerFee arith schedule plan.shares actualSignedPrice).mapError (.economic ∘ .fee)
  let reserve ← (feeReserve arith schedule plan.worstCaseDebit plan.bestAsk plan.limitPrice).mapError
    (.economic ∘ .fee)
  let expectedDebit ←
    (plan.worstCaseDebit.checkedAdd expectedFee).mapError (.economic ∘ .arithmetic)
  let allInPrice ← (composedAllInPrice arith expectedDebit plan.shares inputs.slippageRate).mapError
    (.economic ∘ .arithmetic)
  let worstCaseDebit ← (plan.worstCaseDebit.checkedAdd reserve).mapError (.economic ∘ .arithmetic)
  pure {
    version := economicPreparedVersion
    market := inputs.market
    admission := .new inputs.admission.market inputs.admission.settlement schedule
      inputs.admission.receipts
    ladder := ladder
    bookReceipt := inputs.bookReceipt
    observation := inputs.observation
    sizing := ⟨inputs.sizingMode, inputs.budget, plan.worstCaseDebit, plan.shares, expectedShares,
      expectedVwap, allInPrice, inputs.slippageRate⟩
    fee := ⟨schedule, expectedFee, reserve⟩
    risk := inputs.risk
    balance := ⟨inputs.cashBefore, worstCaseDebit, inputs.priceImpactCapBps, inputs.chaseCeiling,
      inputs.bandFloor, inputs.bandCeilingExclusive⟩
    appliedConfigurationHash := inputs.appliedConfigurationHash }

/-- Compose for the second wire, whose chase ceiling is neutral. -/
def EconomicPrepared.composeWireTwo : Except ComposeError EconomicPrepared := do
  refuseIf (inputs.chaseCeiling ≠ .one) .invalidCurrentBookChase
  let prepared ← EconomicPrepared.compose arith inputs
  pure { prepared with version := paperEconomicPreparedVersion }

/-- A record that one of the two compositions returned. -/
def EconomicPrepared.Composed (economic : EconomicPrepared) : Prop :=
  compose arith inputs = .ok economic ∨ composeWireTwo arith inputs = .ok economic

end

/-- What a composed record holds of the evidence it was composed from. -/
structure EconomicPrepared.IsOf (inputs : EconomicInputs) (economic : EconomicPrepared) : Prop where
  evaluated : inputs.risk.decision = evaluateRisk inputs.risk.snapshot
  market : economic.market = inputs.market
  admission : economic.admission = .new inputs.admission.market inputs.admission.settlement
    inputs.admission.feeSchedule inputs.admission.receipts
  ladder : economic.ladder = .new inputs.plan
  risk : economic.risk = inputs.risk

variable {economic : EconomicPrepared} {inputs : EconomicInputs}

theorem EconomicPrepared.compose_isOf {arith : DecimalArith}
    (h : compose arith inputs = .ok economic) : economic.IsOf inputs := by
  simp only [compose, bind_eq_ok, refuseIf_eq_ok, ne_eq, not_not, pure_eq_ok] at h
  obtain ⟨-, hrisk, -, -, -, -, -, -, _, -, _, -, _, -, _, -, _, -, _, -, _, -, _, -, rfl⟩ := h
  exact ⟨hrisk, rfl, rfl, rfl, rfl⟩

theorem EconomicPrepared.Composed.isOf {arith : DecimalArith} (h : Composed arith inputs economic) :
    economic.IsOf inputs := by
  rcases h with h | h
  · exact compose_isOf h
  · simp only [composeWireTwo, bind_eq_ok, pure_eq_ok] at h
    obtain ⟨-, -, prepared, hprepared, rfl⟩ := h
    obtain ⟨hevaluated, hmarket, hadmission, hladder, hrisk⟩ := compose_isOf hprepared
    exact ⟨hevaluated, hmarket, hadmission, hladder, hrisk⟩

/-- A composed record carries the decision that its own snapshot comes to. -/
theorem EconomicPrepared.IsOf.decision (h : economic.IsOf inputs) :
    economic.risk.decision = evaluateRisk economic.risk.snapshot := by
  rw [h.risk]
  exact h.evaluated

end PredictionEdge
