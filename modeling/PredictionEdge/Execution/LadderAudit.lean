import PredictionEdge.Venue.Ladder

/-!
# The ladder audit

Before an order is recorded, its plan is audited: the quantities are computed once more
from the plan's own asks, and the plan is refused unless they agree with it, its asks run
in order from the best ask to the limit price, and they cover what is signed.
-/

namespace PredictionEdge

structure LadderAskAudit where
  price : Price
  shares : ShareAmount
  deriving DecidableEq

structure LadderPlanAudit where
  usedAsks : List LadderAskAudit
  bestAsk : Price
  limitPrice : Price
  minimumShares : ShareAmount
  principal : CollateralAmount
  deriving DecidableEq

namespace LadderPlanAudit

def new (plan : LadderPlan) : LadderPlanAudit :=
  ⟨plan.usedAsks.map fun ask => ⟨ask.price, ask.shares⟩, plan.bestAsk, plan.limitPrice, plan.shares,
    plan.worstCaseDebit⟩

def expectedShares (audit : LadderPlanAudit) : Except CoreError ShareAmount :=
  audit.usedAsks.foldlM (fun total ask => total.checkedAdd ask.shares) .zero

def addCost (arith : DecimalArith) (total : Decimal) (ask : LadderAskAudit) :
    Except CoreError Decimal :=
  Lib.okOr ((arith.checkedMul ask.shares.toDecimal ask.price.val).bind (arith.checkedAdd total))
    (.outOfRange "LadderPlanAudit.expected_spend")

def expectedSpend (arith : DecimalArith) (audit : LadderPlanAudit) :
    Except CoreError CollateralAmount := do
  let spend ← audit.usedAsks.foldlM (addCost arith) .zero
  ExactAmount.fromDecimalExact arith (spend.roundDpWithStrategy 6 .toNegativeInfinity)

def expectedVwap (arith : DecimalArith) (audit : LadderPlanAudit) : Option Price := do
  let shares := (← audit.expectedShares.toOption).toDecimal
  if shares ≤ .zero then none
  else
    let spend := (← (audit.expectedSpend arith).toOption).toDecimal
    (Price.new (← arith.checkedDiv spend shares)).toOption

end LadderPlanAudit

/-- The failures the ladder audit can meet. -/
inductive EconomicError where
  | fee (error : FeeError)
  | arithmetic (error : CoreError)
  | invalidLadderAudit
  deriving DecidableEq, Repr

/-- The asks start at the best ask and end at the limit price. -/
def endpointsMatch (plan : LadderPlan) : Bool :=
  (plan.usedAsks.head?.any fun ask => ask.price = plan.bestAsk ∧ ask.shares ≠ .zero) &&
    (plan.usedAsks.getLast?.any fun ask => ask.price = plan.limitPrice ∧ ask.shares ≠ .zero)

/-- Two neighbouring asks in order, with nothing empty. -/
def pairOrdered (a b : AskLevel) : Bool :=
  a.price ≤ b.price ∧ a.price ≠ .zero ∧ b.price ≠ .zero ∧ a.shares ≠ .zero ∧ b.shares ≠ .zero

def asksAreOrdered : List AskLevel → Bool
  | a :: b :: rest => pairOrdered a b && asksAreOrdered (b :: rest)
  | _ => true

/-- The part of composing an economic record that audits the plan's ladder. -/
def auditLadder (arith : DecimalArith) (plan : LadderPlan) : Except EconomicError Unit := do
  let ladder := LadderPlanAudit.new plan
  let expectedShares ← ladder.expectedShares.mapError .arithmetic
  let expectedVwap ← Lib.okOr (ladder.expectedVwap arith) .invalidLadderAudit
  let expectedSpend ← (ladder.expectedSpend arith).mapError .arithmetic
  -- the plan's own figures are computed once more and compared
  let planExpectedShares ← plan.expectedShares.mapError fun _ => .invalidLadderAudit
  let planExpectedSpend ← (plan.expectedSpend arith).mapError fun _ => .invalidLadderAudit
  let planVwap ← Lib.okOr (plan.vwap arith) .invalidLadderAudit
  let actualSignedPrice ← (signedPrice arith plan.worstCaseDebit plan.shares).mapError .fee
  Lib.refuseIf (endpointsMatch plan = false ∨ asksAreOrdered plan.usedAsks = false
    ∨ expectedShares ≠ planExpectedShares ∨ expectedSpend ≠ planExpectedSpend
    ∨ expectedVwap ≠ planVwap ∨ expectedShares < plan.shares
    ∨ plan.worstCaseDebit < expectedSpend ∨ actualSignedPrice < plan.limitPrice)
    .invalidLadderAudit

end PredictionEdge
