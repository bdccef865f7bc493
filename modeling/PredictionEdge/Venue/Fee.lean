import PredictionEdge.Core.Types
import PredictionEdge.Lib.Fallible

/-!
# Fee economics

A market charges its takers nothing, or a share of `p * (1 - p)` for each share bought at
`p`, truncated to five decimals. Before an order is signed, a reserve for the fee is set
aside: the quantity that the signed principal buys at the worst walked ask, times the
maximum of the curve between the best ask and that ask, rounded up.
-/

namespace PredictionEdge

open Lib

inductive CompactFeeSchedule where
  | zero
  | taker (rate : Decimal)
  deriving DecidableEq

inductive FeeError where
  | arithmetic
  | band
  deriving DecidableEq, Repr

/-- The rate of a taker schedule, in `[0, 1)`. -/
def validatedRate : CompactFeeSchedule → Except FeeError (Option Decimal)
  | .zero => .ok none
  | .taker rate => if .zero ≤ rate ∧ rate < .one then .ok (some rate) else .error .arithmetic

def validateBand (floor ceiling : Price) : Except FeeError Unit :=
  refuseIf (ceiling < floor) .band

section

variable (arith : DecimalArith)

/-- An amount from a value of the arithmetic, all failures alike. -/
def feeAmount (value : Decimal) : Except FeeError CollateralAmount :=
  (ExactAmount.fromDecimalExact arith value).mapError fun _ => .arithmetic

/-- `shares * rate * p * (1 - p)`, multiplied in this order. -/
def feeValue (shares rate price : Decimal) : Option Decimal := do
  let value ← arith.checkedMul shares rate
  let value ← arith.checkedMul value price
  arith.checkedMul value (← arith.checkedSub .one price)

/-- The venue's taker fee: the curve, truncated to five decimals. -/
def takerFee (schedule : CompactFeeSchedule) (shares : ShareAmount) (price : Price) :
    Except FeeError CollateralAmount := do
  match ← validatedRate schedule with
  | none => return .zero
  | some rate =>
    let fee ← okOr (feeValue arith shares.toDecimal rate price.val) .arithmetic
    feeAmount arith (fee.roundDpWithStrategy 5 .toZero)

/-- The price that signed maker and taker amounts encode. -/
def signedPrice (makerCollateral : CollateralAmount) (takerShares : ShareAmount) :
    Except FeeError Price := do
  refuseIf (makerCollateral = .zero ∨ takerShares = .zero) .arithmetic
  let ratio ← okOr (arith.checkedDiv makerCollateral.toDecimal takerShares.toDecimal) .arithmetic
  (Price.new ratio).mapError fun _ => .arithmetic

/-- The quantity a principal buys at a price, not floored. -/
def principalImpliedShares (principal : CollateralAmount) (limitPrice : Price) :
    Except FeeError Decimal := do
  refuseIf (limitPrice = .zero) .arithmetic
  okOr (arith.checkedDiv principal.toDecimal limitPrice.val) .arithmetic

end

theorem representable_half : Representable (1 / 2) :=
  Decimal.representable_iff.mpr ⟨1, by decide, 5, by norm_num, by decide⟩

def half : Decimal := ⟨1 / 2, representable_half⟩

/-- The price of the band at which the curve is highest. -/
def maximumCurvePrice (floor ceiling : Price) : Decimal :=
  if floor.val ≤ half ∧ half ≤ ceiling.val then half
  else if ceiling.val < half then ceiling.val
  else floor.val

section

variable (arith : DecimalArith) (schedule : CompactFeeSchedule) (principal : CollateralAmount)

/-- The fee set aside for a principal over the walked band, rounded up to five decimals. -/
def feeReserve (bestAsk limitPrice : Price) : Except FeeError CollateralAmount := do
  validateBand bestAsk limitPrice
  match ← validatedRate schedule with
  | none => return .zero
  | some rate =>
    if principal = .zero then return .zero
    else
      -- the quantity at the worst ask, no more than what the walk takes at better ones
      let minimumShares ← principalImpliedShares arith principal limitPrice
      let curvePrice := maximumCurvePrice bestAsk limitPrice
      let complement ← okOr (arith.checkedSub .one curvePrice) .arithmetic
      let curve ← okOr (arith.checkedMul curvePrice complement) .arithmetic
      let value ← okOr (arith.checkedMul minimumShares rate) .arithmetic
      let reserve ← okOr (arith.checkedMul value curve) .arithmetic
      feeAmount arith (reserve.roundDpWithStrategy 5 .toPositiveInfinity)

/-- A principal together with the most that its fee can be from `floor` upwards. -/
def allInReserve (floor : Price) : Except FeeError CollateralAmount := do
  match ← validatedRate schedule with
  | none => return principal
  | some rate =>
    let value ← okOr (arith.checkedMul principal.toDecimal rate) .arithmetic
    let complement ← okOr (arith.checkedSub .one floor.val) .arithmetic
    let reserve ← okOr (arith.checkedMul value complement) .arithmetic
    let reserve ← feeAmount arith (reserve.roundDpWithStrategy 5 .toPositiveInfinity)
    (principal.checkedAdd reserve).mapError fun _ => .arithmetic

end

/-- Less by what the budget was exceeded, and not below zero. -/
def reducedPrincipal (principal budget rechecked : CollateralAmount) :
    Except FeeError CollateralAmount := do
  if budget < rechecked then
    let excess ← (rechecked.checkedSub budget).mapError fun _ => .arithmetic
    if principal ≤ excess then return .zero
    else (principal.checkedSub excess).mapError fun _ => .arithmetic
  else return principal

/-- A principal that fits the budget together with its fee reserve. -/
def principalForBudget (arith : DecimalArith) (schedule : CompactFeeSchedule)
    (budget : CollateralAmount) (floor ceiling : Price) : Except FeeError CollateralAmount := do
  validateBand floor ceiling
  match ← validatedRate schedule with
  | none => return budget
  | some rate =>
    let complement ← okOr (arith.checkedSub .one floor.val) .arithmetic
    let feeRatio ← okOr (arith.checkedMul rate complement) .arithmetic
    let divisor ← okOr (arith.checkedAdd .one feeRatio) .arithmetic
    let raw ← okOr (arith.checkedDiv budget.toDecimal divisor) .arithmetic
    let principal ← feeAmount arith (raw.roundDpWithStrategy 6 .toNegativeInfinity)
    -- the reserve is rounded up: reduce by the excess once, then insist on the budget
    let rechecked ← allInReserve arith schedule principal floor
    let principal ← reducedPrincipal principal budget rechecked
    refuseIf (budget < (← allInReserve arith schedule principal floor)) .arithmetic
    return principal

/-- The check at finality: the fee fits its reserve and lies on the venue's grid. -/
def feeWithinReserve (fee reserve : CollateralAmount) : Bool :=
  decide (fee ≤ reserve) && fee.atomic % 10 = 0

end PredictionEdge
