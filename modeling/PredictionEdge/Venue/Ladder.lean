import PredictionEdge.Venue.Fee

/-!
# Planning a purchase over an ask ladder

A purchase signs an exact collateral principal. Walking the asks spends it level by level
and sets the limit price, the worst ask that was reached; the signed minimum quantity is
what the principal buys at that limit, floored. Dollar, contract and Kelly sizing lead to
one principal each and share the walk and the caps.
-/

namespace PredictionEdge

open Lib

structure AskLevel where
  price : Price
  shares : ShareAmount
  deriving DecidableEq

inductive LadderError where
  | belowBandAsk
  | insufficientDepth
  | nothingAffordable
  | belowMinimum
  | capExceeded
  | noEdge
  | kellySizing
  | fee (error : FeeError)
  | amount
  deriving DecidableEq, Repr

/-- One collateral-path purchase. -/
structure LadderPlan where
  usedAsks : List AskLevel
  bestAsk : Price
  limitPrice : Price
  shares : ShareAmount
  worstCaseDebit : CollateralAmount
  deriving DecidableEq

/-- The prices a purchase may walk. -/
structure PriceBounds where
  minimumPrice : Price
  maximumPriceExclusive : Price
  chaseCeiling : Price
  impactCeiling : Price
  deriving DecidableEq

def PriceBounds.ceiling (bounds : PriceBounds) : Price :=
  bounds.chaseCeiling.min bounds.impactCeiling

/-- The level is past the end of the band. -/
def PriceBounds.isPast (bounds : PriceBounds) (level : AskLevel) : Prop :=
  bounds.maximumPriceExclusive ≤ level.price ∨ bounds.ceiling < level.price

instance (bounds : PriceBounds) (level : AskLevel) : Decidable (bounds.isPast level) :=
  inferInstanceAs (Decidable (_ ∨ _))

/-! ## Amounts -/

/-- An amount rounded down to `dp` decimals, all failures alike. -/
def floorAmount (arith : DecimalArith) {field : String} (dp : Nat) (value : Decimal) :
    Except LadderError (ExactAmount field) :=
  (ExactAmount.fromDecimalExact arith (value.roundDpWithStrategy dp .toNegativeInfinity)).mapError
    fun _ => .amount

def decimalToAtomicShares (arith : DecimalArith) (value : Decimal) :
    Except LadderError ShareAmount :=
  floorAmount arith 6 value

def collateralFloor (arith : DecimalArith) (value : Decimal) :
    Except LadderError CollateralAmount :=
  floorAmount arith 6 value

def sharesForPrincipal (arith : DecimalArith) (principal : CollateralAmount) (price : Price)
    (scale : Nat) : Except LadderError ShareAmount := do
  refuseIf (price = .zero) .amount
  let implied ← (principalImpliedShares arith principal price).mapError fun _ => .amount
  floorAmount arith scale implied

def wholeShares (value : Nat) : Except LadderError ShareAmount :=
  if h : value * 1000000 < 2 ^ 64 then .ok ⟨value * 1000000, h⟩ else .error .amount

/-! ## What a plan expects -/

/-- The cost of a level. -/
def levelCost (arith : DecimalArith) (level : AskLevel) : Option Decimal :=
  arith.checkedMul level.shares.toDecimal level.price.val

def addShares (total : ShareAmount) (ask : AskLevel) : Except LadderError ShareAmount :=
  (total.checkedAdd ask.shares).mapError fun _ => .amount

def addCost (arith : DecimalArith) (total : Decimal) (ask : AskLevel) :
    Except LadderError Decimal :=
  okOr ((levelCost arith ask).bind (arith.checkedAdd total)) .amount

def expectedSpendDecimal (arith : DecimalArith) (asks : List AskLevel) :
    Except LadderError Decimal :=
  asks.foldlM (addCost arith) .zero

namespace LadderPlan

def signedPrice (arith : DecimalArith) (plan : LadderPlan) : Except LadderError Price :=
  (PredictionEdge.signedPrice arith plan.worstCaseDebit plan.shares).mapError .fee

def expectedShares (plan : LadderPlan) : Except LadderError ShareAmount :=
  plan.usedAsks.foldlM addShares .zero

def expectedSpend (arith : DecimalArith) (plan : LadderPlan) :
    Except LadderError CollateralAmount := do
  collateralFloor arith (← expectedSpendDecimal arith plan.usedAsks)

def vwap (arith : DecimalArith) (plan : LadderPlan) : Option Price := do
  let shares := (← plan.expectedShares.toOption).toDecimal
  if shares ≤ .zero then none
  else
    let spend := (← (plan.expectedSpend arith).toOption).toDecimal
    (Price.new (← arith.checkedDiv spend shares)).toOption

end LadderPlan

/-! ## Walking a principal -/

/-- The variables of the walk. -/
structure WalkState where
  remaining : Decimal
  usedAsks : List AskLevel
  inBandCapacity : Decimal
  bestAsk : Option Price
  limitPrice : Option Price
  deriving DecidableEq

def validateLevelOrder (used : List AskLevel) (next : AskLevel) : Except LadderError Unit :=
  refuseIf (used.getLast?.any fun prior => next.price < prior.price) .amount

/-- The level is reached: it sets the limit price, and the first one the best ask. -/
def WalkState.reach (st : WalkState) (level : AskLevel) (capacity : Decimal) : WalkState :=
  { st with
    bestAsk := some (st.bestAsk.getD level.price)
    limitPrice := some level.price
    inBandCapacity := capacity }

/-- What the walk takes of the level it ends in: nothing when that floors to no share. -/
def WalkState.takePart (st : WalkState) (price : Price) (shares : ShareAmount) : WalkState :=
  if shares ≠ .zero then { st with usedAsks := st.usedAsks ++ [⟨price, shares⟩] } else st

def WalkState.takeWhole (st : WalkState) (level : AskLevel) (remaining : Decimal) : WalkState :=
  { st with usedAsks := st.usedAsks ++ [level], remaining := remaining }

def walkLevels (arith : DecimalArith) (bounds : PriceBounds) :
    List AskLevel → WalkState → Except LadderError WalkState
  | [], st => .ok st
  | level :: rest, st => do
    validateLevelOrder st.usedAsks level
    refuseIf (level.price < bounds.minimumPrice) .belowBandAsk
    -- the first level past the band ends the walk
    if bounds.isPast level then return st
    else
      refuseIf (level.price = .zero ∨ level.shares = .zero) .amount
      let cost ← okOr (levelCost arith level) .amount
      let capacity ← okOr (arith.checkedAdd st.inBandCapacity cost) .amount
      -- the limit moves before anything of the level is taken
      let st := st.reach level capacity
      if cost ≤ st.remaining then
        let remaining ← okOr (arith.checkedSub st.remaining cost) .amount
        let st := st.takeWhole level remaining
        if remaining = .zero then return st else walkLevels arith bounds rest st
      else
        -- the rest pays for a part of this level, and the walk ends here
        let part ← okOr (arith.checkedDiv st.remaining level.price.val) .amount
        let shares ← decimalToAtomicShares arith part
        return st.takePart level.price shares

structure PrincipalWalk where
  principal : CollateralAmount
  usedAsks : List AskLevel
  bestAsk : Price
  limitPrice : Price
  deriving DecidableEq

def WalkState.start (principal : CollateralAmount) : WalkState :=
  ⟨principal.toDecimal, [], .zero, none, none⟩

/-- The principal that the walked capacity leaves. -/
def walkedPrincipal (arith : DecimalArith) (principal : CollateralAmount) (acceptPartial : Bool)
    (capacity : Decimal) : Except LadderError CollateralAmount := do
  refuseIf (acceptPartial = false ∧ capacity < principal.toDecimal) .insufficientDepth
  -- a partial plan signs what the capacity holds
  if acceptPartial then return principal.min (← collateralFloor arith capacity)
  else return principal

def walkPrincipal (arith : DecimalArith) (asks : List AskLevel) (principal : CollateralAmount)
    (acceptPartial : Bool) (bounds : PriceBounds) : Except LadderError PrincipalWalk := do
  let st ← walkLevels arith bounds asks (.start principal)
  let principal ← walkedPrincipal arith principal acceptPartial st.inBandCapacity
  let bestAsk ← okOr st.bestAsk .nothingAffordable
  let limitPrice ← okOr st.limitPrice .nothingAffordable
  return ⟨principal, st.usedAsks, bestAsk, limitPrice⟩

/-! ## Plans -/

def planPrincipalBuyWithScale (arith : DecimalArith) (asks : List AskLevel)
    (principal : CollateralAmount) (signedShareScale : Nat) (partialMinimum : Option ShareAmount)
    (bounds : PriceBounds) : Except LadderError LadderPlan := do
  refuseIf (principal = .zero) .nothingAffordable
  let walked ← walkPrincipal arith asks principal partialMinimum.isSome bounds
  let shares ← sharesForPrincipal arith walked.principal walked.limitPrice signedShareScale
  -- partial capacity that rounds to zero shares is still below the admission minimum
  refuseIf (partialMinimum.any fun minimum => shares < minimum) .belowMinimum
  refuseIf (shares = .zero) .nothingAffordable
  let plan : LadderPlan :=
    ⟨walked.usedAsks, walked.bestAsk, walked.limitPrice, shares, walked.principal⟩
  refuseIf ((← plan.signedPrice arith) < plan.limitPrice) .amount
  return plan

/-- The principal at which the walked capacity first covers the requested shares. -/
def signedPrincipal (arith : DecimalArith) (requested : ShareAmount) (bounds : PriceBounds) :
    List AskLevel → Option Price → Decimal → Except LadderError CollateralAmount
  | [], _, _ => .error .insufficientDepth
  | level :: rest, priorPrice, available => do
    refuseIf (priorPrice.any fun prior => level.price < prior) .amount
    refuseIf (level.price < bounds.minimumPrice) .belowBandAsk
    -- the loop breaks with no principal found
    refuseIf (bounds.isPast level) .insufficientDepth
    refuseIf (level.price = .zero ∨ level.shares = .zero) .amount
    let cost ← okOr (levelCost arith level) .amount
    let available ← okOr (arith.checkedAdd available cost) .amount
    let required ← okOr (arith.checkedMul requested.toDecimal level.price.val) .amount
    if required ≤ available then
      (ExactAmount.fromDecimalExact arith required).mapError fun _ => .amount
    else signedPrincipal arith requested bounds rest (some level.price) available

def planShareBuy (arith : DecimalArith) (asks : List AskLevel) (requested : ShareAmount)
    (signedShareScale : Nat) (minimumOrderSize : ShareAmount) (bounds : PriceBounds) :
    Except LadderError LadderPlan := do
  refuseIf (requested < minimumOrderSize) .belowMinimum
  let principal ← signedPrincipal arith requested bounds asks none .zero
  planPrincipalBuyWithScale arith asks principal signedShareScale none bounds

def planContractBuy (arith : DecimalArith) (asks : List AskLevel) (contracts : Nat)
    (signedShareScale : Nat) (minimumOrderSize : ShareAmount) (bounds : PriceBounds) :
    Except LadderError LadderPlan := do
  let requested ← wholeShares contracts
  planShareBuy arith asks requested signedShareScale minimumOrderSize bounds

/-- The price per share with fee and slippage. -/
def aggregateAllInPrice (arith : DecimalArith) (plan : LadderPlan) (schedule : CompactFeeSchedule)
    (slippageRate : Decimal) : Except LadderError Price := do
  let fee ← (takerFee arith schedule plan.shares (← plan.signedPrice arith)).mapError .fee
  let debit ← (plan.worstCaseDebit.checkedAdd fee).mapError fun _ => .amount
  let price ← okOr (arith.checkedDiv debit.toDecimal plan.shares.toDecimal) .amount
  let slippage ← okOr (arith.checkedAdd .one slippageRate) .amount
  let allIn ← okOr (arith.checkedMul price slippage) .amount
  (Price.new allIn).mapError fun _ => .noEdge

/-- The caller's allocation from an all-in price per share. -/
abbrev KellyAllocator := Price → Except LadderError ShareAmount

/-- A first estimate at the price of one share, and a second at the price of the first. -/
structure KellyEstimate where
  first : ShareAmount
  candidate : LadderPlan
  accepted : ShareAmount

section

variable (arith : DecimalArith) (asks : List AskLevel) (schedule : CompactFeeSchedule)
  (allocate : KellyAllocator) (slippageRate : Decimal) (signedShareScale : Nat)
  (minimumOrderSize : ShareAmount) (bounds : PriceBounds)

def kellyEstimate : Except LadderError KellyEstimate := do
  refuseIf (slippageRate < .zero) .noEdge
  let oneSharePlan ← planShareBuy arith asks (← wholeShares 1) signedShareScale .zero bounds
  let firstPrice ← aggregateAllInPrice arith oneSharePlan schedule slippageRate
  let first ← allocate firstPrice
  refuseIf (first = .zero) .noEdge
  let candidate ← planShareBuy arith asks first signedShareScale minimumOrderSize bounds
  let aggregatePrice ← aggregateAllInPrice arith candidate schedule slippageRate
  let second ← allocate aggregatePrice
  -- a higher second result cannot expand the first allocation
  let accepted := first.min second
  refuseIf (accepted = .zero) .noEdge
  return ⟨first, candidate, accepted⟩

def planKellyBuy : Except LadderError LadderPlan := do
  let estimate ← kellyEstimate arith asks schedule allocate slippageRate signedShareScale
    minimumOrderSize bounds
  if estimate.accepted = estimate.first then return estimate.candidate
  else planShareBuy arith asks estimate.accepted signedShareScale minimumOrderSize bounds

end

inductive BuySizing where
  | dollar (budget : CollateralAmount)
  | dollarUpTo (budget : CollateralAmount)
  | contract (contracts : Nat)
  | kelly (allocate : KellyAllocator) (slippageRate : Decimal)

/-- A plan with the fee reserve that every cap is checked with. -/
structure SizedBuyPlan where
  ladder : LadderPlan
  budget : CollateralAmount
  reserve : CollateralAmount
  deriving DecidableEq

def SizedBuyPlan.worstCaseAllInDebit (plan : SizedBuyPlan) : Except LadderError CollateralAmount :=
  (plan.ladder.worstCaseDebit.checkedAdd plan.reserve).mapError fun _ => .amount

/-- The price of the first ask, if the band holds it. -/
def firstEligibleAsk (asks : List AskLevel) (bounds : PriceBounds) : Except LadderError Price :=
  match asks with
  | [] => .error .insufficientDepth
  | first :: _ =>
    if first.price < bounds.minimumPrice then .error .belowBandAsk
    else if bounds.isPast first then .error .insufficientDepth
    else .ok first.price

/-- The decimals of a signed quantity: two more than the tick's. -/
def signedShareScale (minimumTickSize : Price) : Except LadderError Nat :=
  let scale := minimumTickSize.val.normalizedScale + 2
  if scale ≤ 6 then .ok scale else .error .amount

def smallestCap : List CollateralAmount → CollateralAmount
  | [] => ⟨2 ^ 64 - 1, by decide⟩
  | cap :: caps => caps.foldl ExactAmount.min cap

/-- Nothing affordable counts as below a minimum that is set. -/
def dollarError (minimumOrderSize : ShareAmount) (e : LadderError) : LadderError :=
  if e = .nothingAffordable ∧ minimumOrderSize ≠ .zero then .belowMinimum else e

section

variable (arith : DecimalArith) (asks : List AskLevel) (schedule : CompactFeeSchedule)

def planDollarBuy (budget : CollateralAmount) (scale : Nat) (partialMinimum : Option ShareAmount)
    (minimumOrderSize : ShareAmount) (bestAsk : Price) (bounds : PriceBounds) :
    Except LadderError LadderPlan := do
  let principal ← (principalForBudget arith schedule budget bestAsk bounds.ceiling).mapError .fee
  (planPrincipalBuyWithScale arith asks principal scale partialMinimum bounds).mapError
    (dollarError minimumOrderSize)

/-- The budget a sizing is held to, and its plan. -/
def sizedLadder (sizing : BuySizing) (monetaryCaps : List CollateralAmount)
    (minimumOrderSize : ShareAmount) (scale : Nat) (bestAsk : Price) (bounds : PriceBounds) :
    Except LadderError (CollateralAmount × LadderPlan) :=
  match sizing with
  | .dollar budget => (planDollarBuy arith asks schedule budget scale none minimumOrderSize bestAsk
      bounds).map (Prod.mk budget)
  | .dollarUpTo budget => (planDollarBuy arith asks schedule budget scale (some minimumOrderSize)
      minimumOrderSize bestAsk bounds).map (Prod.mk budget)
  | .contract contracts => (planContractBuy arith asks contracts scale minimumOrderSize bounds).map
      (Prod.mk (smallestCap monetaryCaps))
  | .kelly allocate slippageRate => (planKellyBuy arith asks schedule allocate slippageRate scale
      minimumOrderSize bounds).map (Prod.mk (smallestCap monetaryCaps))

def planSizedBuy (sizing : BuySizing) (monetaryCaps : List CollateralAmount)
    (minimumOrderSize : ShareAmount) (minimumTickSize : Price) (bounds : PriceBounds) :
    Except LadderError SizedBuyPlan := do
  let scale ← signedShareScale minimumTickSize
  refuseIf (minimumTickSize = .zero) .amount
  let bestAsk ← firstEligibleAsk asks bounds
  let (budget, ladder) ← sizedLadder arith asks schedule sizing monetaryCaps minimumOrderSize scale
    bestAsk bounds
  let reserve ← (feeReserve arith schedule ladder.worstCaseDebit ladder.bestAsk
    ladder.limitPrice).mapError .fee
  let allIn ← (ladder.worstCaseDebit.checkedAdd reserve).mapError fun _ => .amount
  -- principal and reserve together are held to the budget and to every cap
  refuseIf (budget < allIn ∨ monetaryCaps.any fun cap => cap < allIn) .capExceeded
  refuseIf (ladder.shares < minimumOrderSize) .belowMinimum
  return ⟨ladder, budget, reserve⟩

end

end PredictionEdge
