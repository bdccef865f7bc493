import PredictionEdge.Execution.PlanAudit

/-!
# Which plans pass the audit

The plan of every sizing comes from one requested principal, and what the audit finds is
read off that principal's exact walk. The plan's asks start at the best ask and cover what is
signed whenever their quantities add up without overflow. They end at the limit price, and the
plan passes, exactly when the walk does not end in dust besides.
-/

namespace PredictionEdge

open Lib

variable {arith : DecimalArith} {asks : List AskLevel} {schedule : CompactFeeSchedule}
  {sizing : BuySizing} {monetaryCaps : List CollateralAmount} {minimumOrderSize : ShareAmount}
  {minimumTickSize : Price} {bounds : PriceBounds}

section

variable (arith : DecimalArith) (asks : List AskLevel) (schedule : CompactFeeSchedule)
  (sizing : BuySizing) (minimumOrderSize : ShareAmount)

/-- The principal of a sizing, once the scale and the best ask are known. -/
def sizedPrincipal (scale : Nat) (bestAsk : Price) (bounds : PriceBounds) :
    Except LadderError CollateralAmount := do
  match sizing with
  | .dollar budget | .dollarUpTo budget =>
    (principalForBudget arith schedule budget bestAsk bounds.ceiling).mapError .fee
  | .contract contracts =>
    let requested ← wholeShares contracts
    signedPrincipal arith requested bounds asks none .zero
  | .kelly allocate slippageRate =>
    let estimate ← kellyEstimate arith asks schedule allocate slippageRate scale
      minimumOrderSize bounds
    signedPrincipal arith estimate.accepted bounds asks none .zero

/-- The principal a purchase asks the walk for. -/
def requestedPrincipal (minimumTickSize : Price) (bounds : PriceBounds) :
    Except LadderError CollateralAmount := do
  let scale ← signedShareScale minimumTickSize
  let bestAsk ← firstEligibleAsk asks bounds
  sizedPrincipal arith asks schedule sizing minimumOrderSize scale bestAsk bounds

end

/-! ## From a sized plan to its principal -/

variable {bestAsk : Price} {scale : Nat} {plan : LadderPlan}

theorem planDollarBuy_ok {budget : CollateralAmount} {partialMinimum : Option ShareAmount}
    (h : planDollarBuy arith asks schedule budget scale partialMinimum minimumOrderSize bestAsk
      bounds = .ok plan) :
    ∃ principal, (principalForBudget arith schedule budget bestAsk bounds.ceiling).mapError
        LadderError.fee = .ok principal
      ∧ planPrincipalBuyWithScale arith asks principal scale partialMinimum bounds = .ok plan := by
  obtain ⟨principal, hprincipal, h⟩ := bind_eq_ok.mp h
  exact ⟨principal, hprincipal, mapError_eq_ok.mp h⟩

theorem planShareBuy_ok {requested : ShareAmount}
    (h : planShareBuy arith asks requested scale minimumOrderSize bounds = .ok plan) :
    ∃ principal, signedPrincipal arith requested bounds asks none .zero = .ok principal
      ∧ planPrincipalBuyWithScale arith asks principal scale none bounds = .ok plan := by
  obtain ⟨_, _, h⟩ := bind_eq_ok.mp h
  exact bind_eq_ok.mp h

/-- An estimate and its two allocations: at the price of one share, and at the price of the first. -/
structure Allocated (arith : DecimalArith) (asks : List AskLevel) (schedule : CompactFeeSchedule)
    (allocate : KellyAllocator) (slippageRate : Decimal) (scale : Nat) (minimumOrderSize : ShareAmount)
    (bounds : PriceBounds) (estimate : KellyEstimate) (second : ShareAmount) : Prop where
  first : ∃ one plan price, wholeShares 1 = .ok one
    ∧ planShareBuy arith asks one scale .zero bounds = .ok plan
    ∧ aggregateAllInPrice arith plan schedule slippageRate = .ok price
    ∧ allocate price = .ok estimate.first
  candidate : planShareBuy arith asks estimate.first scale minimumOrderSize bounds
    = .ok estimate.candidate
  resized : ∃ price, aggregateAllInPrice arith estimate.candidate schedule slippageRate = .ok price
    ∧ allocate price = .ok second
  accepted : estimate.accepted = estimate.first.min second

variable {allocate : KellyAllocator} {slippageRate : Decimal}

theorem kellyEstimate_ok {estimate : KellyEstimate}
    (h : kellyEstimate arith asks schedule allocate slippageRate scale minimumOrderSize bounds
      = .ok estimate) :
    ∃ second, Allocated arith asks schedule allocate slippageRate scale minimumOrderSize bounds
      estimate second := by
  obtain ⟨_, _, h⟩ := bind_eq_ok.mp h
  obtain ⟨one, hone, h⟩ := bind_eq_ok.mp h
  obtain ⟨plan, hplan, h⟩ := bind_eq_ok.mp h
  obtain ⟨price, hprice, h⟩ := bind_eq_ok.mp h
  obtain ⟨first, hfirst, h⟩ := bind_eq_ok.mp h
  obtain ⟨_, _, h⟩ := bind_eq_ok.mp h
  obtain ⟨candidate, hcandidate, h⟩ := bind_eq_ok.mp h
  obtain ⟨price', haggregate, h⟩ := bind_eq_ok.mp h
  obtain ⟨second, hsecond, h⟩ := bind_eq_ok.mp h
  obtain ⟨_, _, h⟩ := bind_eq_ok.mp h
  obtain rfl := pure_eq_ok.mp h
  exact ⟨second, ⟨one, plan, price, hone, hplan, hprice, hfirst⟩, hcandidate,
    ⟨price', haggregate, hsecond⟩, rfl⟩

/-- The plan of Kelly sizing is the plan of the accepted shares. -/
theorem planKellyBuy_ok
    (h : planKellyBuy arith asks schedule allocate slippageRate scale minimumOrderSize bounds
      = .ok plan) :
    ∃ estimate, kellyEstimate arith asks schedule allocate slippageRate scale minimumOrderSize
        bounds = .ok estimate
      ∧ planShareBuy arith asks estimate.accepted scale minimumOrderSize bounds = .ok plan := by
  obtain ⟨estimate, hestimate, h⟩ := bind_eq_ok.mp h
  refine ⟨estimate, hestimate, ?_⟩
  split at h
  · -- the candidate is already the plan of the accepted shares
    rename_i heq
    obtain ⟨_, hallocated⟩ := kellyEstimate_ok hestimate
    rw [heq, hallocated.candidate, ← pure_eq_ok.mp h]
  · exact h

/-- The budget a sizing is held to. -/
def BuySizing.budget (sizing : BuySizing) (monetaryCaps : List CollateralAmount) :
    CollateralAmount :=
  match sizing with
  | .dollar budget | .dollarUpTo budget => budget
  | .contract _ | .kelly _ _ => smallestCap monetaryCaps

/-- The minimum a partial plan is held to, for the one sizing that accepts a partial plan. -/
def BuySizing.partialMinimum (sizing : BuySizing) (minimumOrderSize : ShareAmount) :
    Option ShareAmount :=
  match sizing with
  | .dollarUpTo _ => some minimumOrderSize
  | .dollar _ | .contract _ | .kelly _ _ => none

theorem sizedLadder_ok {budget : CollateralAmount} {ladder : LadderPlan}
    (h : sizedLadder arith asks schedule sizing monetaryCaps minimumOrderSize scale bestAsk bounds
      = .ok (budget, ladder)) : budget = sizing.budget monetaryCaps ∧ ∃ principal,
      sizedPrincipal arith asks schedule sizing minimumOrderSize scale bestAsk bounds
        = .ok principal
      ∧ planPrincipalBuyWithScale arith asks principal scale
        (sizing.partialMinimum minimumOrderSize) bounds = .ok ladder := by
  cases sizing with
  | dollar budget | dollarUpTo budget =>
    obtain ⟨plan, hplan, he⟩ := map_eq_ok.mp h
    obtain ⟨principal, hprincipal, hplan⟩ := planDollarBuy_ok hplan
    exact ⟨(Prod.mk.inj he).1.symm, principal, hprincipal, (Prod.mk.inj he).2 ▸ hplan⟩
  | contract contracts =>
    obtain ⟨plan, hplan, he⟩ := map_eq_ok.mp h
    obtain ⟨requested, hrequested, hplan⟩ := bind_eq_ok.mp hplan
    obtain ⟨principal, hprincipal, hplan⟩ := planShareBuy_ok hplan
    exact ⟨(Prod.mk.inj he).1.symm, principal,
      bind_eq_ok.mpr ⟨requested, hrequested, hprincipal⟩, (Prod.mk.inj he).2 ▸ hplan⟩
  | kelly allocate slippageRate =>
    obtain ⟨plan, hplan, he⟩ := map_eq_ok.mp h
    obtain ⟨estimate, hestimate, hplan⟩ := planKellyBuy_ok hplan
    obtain ⟨principal, hprincipal, hplan⟩ := planShareBuy_ok hplan
    exact ⟨(Prod.mk.inj he).1.symm, principal,
      bind_eq_ok.mpr ⟨estimate, hestimate, hprincipal⟩, (Prod.mk.inj he).2 ▸ hplan⟩

theorem signedShareScale_ok (h : signedShareScale minimumTickSize = .ok scale) :
    scale = minimumTickSize.val.normalizedScale + 2 ∧ scale ≤ 6 := by
  unfold signedShareScale at h
  dsimp only at h
  split at h
  · obtain rfl := Except.ok.inj h
    exact ⟨rfl, ‹_›⟩
  · simp at h

/-- What a successful sizing went through. -/
structure Sized (arith : DecimalArith) (asks : List AskLevel) (schedule : CompactFeeSchedule)
    (sizing : BuySizing) (minimumOrderSize : ShareAmount) (minimumTickSize : Price)
    (bounds : PriceBounds) (plan : SizedBuyPlan) (principal : CollateralAmount) : Prop where
  requested : requestedPrincipal arith asks schedule sizing minimumOrderSize minimumTickSize bounds
    = .ok principal
  planned : ∃ scale ≤ 6, ∃ st, PlannedFrom arith asks bounds scale principal plan.ladder st
  reserve : feeReserve arith schedule plan.ladder.worstCaseDebit plan.ladder.bestAsk
    plan.ladder.limitPrice = .ok plan.reserve
  allIn : ∃ allIn, plan.worstCaseAllInDebit = .ok allIn

/-- **Every sized plan comes from its requested principal.** -/
theorem planSizedBuy_ok {plan : SizedBuyPlan}
    (h : planSizedBuy arith asks schedule sizing monetaryCaps minimumOrderSize minimumTickSize bounds
      = .ok plan) :
    ∃ principal, Sized arith asks schedule sizing minimumOrderSize minimumTickSize bounds plan
      principal := by
  obtain ⟨scale, hscale, h⟩ := bind_eq_ok.mp h
  obtain ⟨_, _, h⟩ := bind_eq_ok.mp h
  obtain ⟨bestAsk, hbest, h⟩ := bind_eq_ok.mp h
  obtain ⟨⟨budget, ladder⟩, hladder, h⟩ := bind_eq_ok.mp h
  obtain ⟨reserve, hreserve, h⟩ := bind_eq_ok.mp h
  obtain ⟨allIn, hallIn, h⟩ := bind_eq_ok.mp h
  obtain ⟨_, _, h⟩ := bind_eq_ok.mp h
  obtain ⟨_, _, h⟩ := bind_eq_ok.mp h
  obtain rfl := pure_eq_ok.mp h
  have hsix := (signedShareScale_ok hscale).2
  obtain ⟨_, principal, hrequested, hplan⟩ := sizedLadder_ok hladder
  obtain ⟨st, hst⟩ := planPrincipalBuyWithScale_ok hplan
  exact ⟨principal, bind_eq_ok.mpr ⟨scale, hscale, bind_eq_ok.mpr ⟨bestAsk, hbest, hrequested⟩⟩,
    ⟨scale, hsix, st, hst⟩, mapError_eq_ok.mp hreserve, ⟨allIn, hallIn⟩⟩

/-! ## The audit of a plan -/

/-- What the audit asks of a plan, but for the level that its last ask is at. -/
structure Covered (arith : DecimalArith) (plan : LadderPlan) : Prop where
  nonzero : ∀ a ∈ plan.usedAsks, a.price ≠ .zero ∧ a.shares ≠ .zero
  ordered : asksAreOrdered plan.usedAsks = true
  best : plan.usedAsks.head?.map AskLevel.price = some plan.bestAsk
  shares : ∃ shares, plan.expectedShares = .ok shares ∧ plan.shares ≤ shares
  spend : ∃ spend, plan.expectedSpend arith = .ok spend ∧ spend ≤ plan.worstCaseDebit
  vwap : (plan.vwap arith).isSome
  signed : ∃ price, signedPrice arith plan.worstCaseDebit plan.shares = .ok price
    ∧ plan.limitPrice ≤ price

section

variable {scale : Nat} {principal : CollateralAmount} {plan : LadderPlan} {st : WalkState}
  {s : Spent AskLevel ℚ}

/-- A walk that overflows nowhere makes a plan whose asks cover what is signed. -/
theorem PlanWalk.covered (law : arith.Lawful) (h : PlanWalk plan principal scale s)
    (hscale : scale ≤ 6) (hst : UsedOrdered st) (hused : plan.usedAsks = st.usedAsks)
    (hne : plan.shares ≠ .zero)
    (hsigned : ∃ price, signedPrice arith plan.worstCaseDebit plan.shares = .ok price
      ∧ plan.limitPrice ≤ price)
    (hfit : fillShares s < 2 ^ 64) : Covered arith plan := by
  have hnonzero : ∀ a ∈ plan.usedAsks, a.price ≠ .zero ∧ a.shares ≠ .zero := by
    rw [hused]; exact hst.nonzero
  -- the expected shares, and that they cover the signed quantity
  have hshares : plan.expectedShares = .ok ⟨fillShares s, hfit⟩ :=
    expectedShares_ok.mpr (by rw [h.used]; rfl)
  have htotal : (⟨fillShares s, hfit⟩ : ShareAmount).toRat = sharesSum (fills s) := by
    rw [sharesSum_eq]; rfl
  have hcover : plan.shares.toRat ≤ (⟨fillShares s, hfit⟩ : ShareAmount).toRat := by
    rw [htotal]; exact h.shares_le hscale
  have hpos : 0 < (⟨fillShares s, hfit⟩ : ShareAmount).toRat := by
    refine lt_of_lt_of_le (lt_of_le_of_ne plan.shares.toRat_nonneg fun he => hne ?_) hcover
    exact ExactAmount.toRat_eq_zero_iff.mp he.symm
  have hnonempty : fills s ≠ [] := by
    intro he
    rw [htotal, he] at hpos
    exact lt_irrefl 0 hpos
  -- the expected spend, and that it stays within the principal
  have hvenue : ∀ a ∈ plan.usedAsks, VenuePrice a.price := by rw [h.used]; exact h.venue
  obtain ⟨spend, hspend, hfloor⟩ := expectedSpend_ok law hvenue principal
    (by rw [h.used]; exact h.spend_le.2)
  rw [h.used] at hfloor
  have hone : costSum (fills s) ≤ sharesSum (fills s) * 1 :=
    costSum_le fun a ha => (h.venue a ha).le_one
  refine ⟨hnonzero, asksAreOrdered_of (by rw [hused]; exact hst.sorted) hnonzero,
    by rw [h.used, fills_head hnonempty]; exact h.best,
    ⟨_, hshares, ExactAmount.toRat_le_iff.mp hcover⟩,
    ⟨spend, hspend, ExactAmount.toRat_le_iff.mp (by rw [hfloor]; exact h.spend_le.1)⟩,
    vwap_isSome law hshares hspend ?_ hpos, hsigned⟩
  rw [hfloor, htotal]
  rw [mul_one] at hone
  exact (floorTo_le _ _).trans hone

/-- Such a plan ends at the limit price if the walk does not end in dust, and then it passes. -/
theorem PlanWalk.audited (h : PlanWalk plan principal scale s) (hcovered : Covered arith plan)
    (hdust : endsInDust s = false) : Audited arith plan := by
  have hlast := (fills_last h.part_lt).mpr hdust
  rw [h.limit, ← h.used] at hlast
  exact ⟨(endpointsMatch_iff hcovered.nonzero).mpr ⟨hcovered.best, hlast⟩, hcovered.ordered,
    hcovered.shares, hcovered.spend, hcovered.vwap, hcovered.signed⟩

/-- A plan that passes ends in no dust and overflows nowhere. -/
theorem PlanWalk.of_audited (h : PlanWalk plan principal scale s) (haudit : Audited arith plan)
    (hnonzero : ∀ a ∈ plan.usedAsks, a.price ≠ .zero ∧ a.shares ≠ .zero) :
    endsInDust s = false ∧ fillShares s < 2 ^ 64 := by
  constructor
  · refine (fills_last h.part_lt).mp ?_
    rw [h.limit, ← h.used]
    exact ((endpointsMatch_iff hnonzero).mp haudit.endpoints).2
  · obtain ⟨shares, hshares, _⟩ := haudit.shares
    rw [expectedShares_ok, h.used] at hshares
    rw [fillShares, hshares]
    exact shares.lt

end

/--
**What the audit finds of a plan.**

On ask prices of at most eight decimals, a plan that takes no more shares than an amount can
hold has everything the audit asks for, up to the level of its last ask. The plan passes
exactly when the walk of its principal does not end in dust besides.
-/
theorem planSizedBuy_audited (arith : DecimalArith) (law : arith.Lawful) (asks : List AskLevel)
    (schedule : CompactFeeSchedule) (sizing : BuySizing) (monetaryCaps : List CollateralAmount)
    (minimumOrderSize : ShareAmount) (minimumTickSize : Price) (bounds : PriceBounds)
    (plan : SizedBuyPlan)
    (hok : planSizedBuy arith asks schedule sizing monetaryCaps minimumOrderSize minimumTickSize
      bounds = .ok plan)
    (hprices : ∀ a ∈ asks, VenuePrice a.price) :
    ∃ principal, requestedPrincipal arith asks schedule sizing minimumOrderSize minimumTickSize
        bounds = .ok principal
      ∧ ((plan.ladder.usedAsks.map (·.shares.atomic)).sum < 2 ^ 64 → Covered arith plan.ladder)
      ∧ ((auditLadder arith plan.ladder = .ok ()
          ∧ ∀ a ∈ plan.ladder.usedAsks, a.price ≠ .zero ∧ a.shares ≠ .zero) ↔
        endsInDust (exactWalk bounds asks principal) = false
          ∧ (plan.ladder.usedAsks.map (·.shares.atomic)).sum < 2 ^ 64) := by
  obtain ⟨principal, hsized⟩ := planSizedBuy_ok hok
  obtain ⟨scale, hscale, st, hplanned⟩ := hsized.planned
  have hwalk := hplanned.planWalk law hprices hscale
  have hcovered := hwalk.covered law hscale hplanned.used_ordered hplanned.used hplanned.shares_ne
    hplanned.signed
  rw [show (plan.ladder.usedAsks.map (·.shares.atomic)).sum
    = fillShares (exactWalk bounds asks principal) by rw [hwalk.used]; rfl]
  refine ⟨principal, hsized.requested, hcovered, ?_⟩
  rw [auditLadder_ok]
  constructor
  · rintro ⟨haudit, hnonzero⟩
    exact hwalk.of_audited haudit hnonzero
  · rintro ⟨hdust, hfit⟩
    exact ⟨hwalk.audited (hcovered hfit) hdust, (hcovered hfit).nonzero⟩

/-! A budget of 25 over two levels: the first leaves half a millionth, which buys less than
a millionth of a share of the second. -/

theorem representable_cents (n : UInt64) : Representable (n.toNat / 10 ^ 2) :=
  Decimal.representable_div (Nat.lt_trans n.toNat_lt (by decide)) (by decide)

def cents (n : UInt64) : Price := ⟨⟨n.toNat / 10 ^ 2, representable_cents n⟩⟩

def atomics {field : String} (n : UInt64) : ExactAmount field := ⟨n.toNat, n.toNat_lt⟩

def askLevel (price n : UInt64) : AskLevel := ⟨cents price, atomics n⟩

def unitBounds : PriceBounds := ⟨.zero, .one, .one, .one⟩

def dustAsks : List AskLevel := [askLevel 50 49999999, askLevel 51 100000000]

theorem venuePrice_cents {n : UInt64} (h : n.toNat ≤ 100) : VenuePrice (cents n) where
  nonneg := div_nonneg (Nat.cast_nonneg _) (by positivity)
  le_one := (div_le_one (by positivity)).mpr (by
    norm_num
    exact h)
  grid := OnGrid.mono (by decide : 2 ≤ 8) ⟨n.toNat, rfl⟩

theorem dustAsks_venue : ∀ a ∈ dustAsks, VenuePrice a.price := by
  intro a ha
  rcases List.mem_pair.mp ha with rfl | rfl
  · exact venuePrice_cents (by decide)
  · exact venuePrice_cents (by decide)

theorem dustAsks_audited :
    ∃ plan, planSizedBuy .rounded dustAsks .zero (.dollar (atomics 25000000)) []
        (atomics 5000000) (cents 1) unitBounds = .ok plan
      ∧ ∃ principal, requestedPrincipal .rounded dustAsks .zero (.dollar (atomics 25000000))
          (atomics 5000000) (cents 1) unitBounds = .ok principal
        ∧ ((plan.ladder.usedAsks.map (·.shares.atomic)).sum < 2 ^ 64 →
          Covered .rounded plan.ladder)
        ∧ ((auditLadder .rounded plan.ladder = .ok ()
            ∧ ∀ a ∈ plan.ladder.usedAsks, a.price ≠ .zero ∧ a.shares ≠ .zero) ↔
          endsInDust (exactWalk unitBounds dustAsks principal) = false
            ∧ (plan.ladder.usedAsks.map (·.shares.atomic)).sum < 2 ^ 64) := by
  obtain ⟨plan, hok, _⟩ := exists_ok_of_any
    (x := planSizedBuy .rounded dustAsks .zero (.dollar (atomics 25000000)) []
      (atomics 5000000) (cents 1) unitBounds) (p := fun _ => true) (by decide +kernel)
  exact ⟨plan, hok, planSizedBuy_audited .rounded DecimalArith.rounded_lawful dustAsks .zero _ []
    _ _ unitBounds plan hok dustAsks_venue⟩

/-- The plan of a budget ends at its limit, and the audit refuses it. -/
def RefusedAtLimit (asks : List AskLevel) (budget : CollateralAmount) (tick : Price)
    (error : EconomicError) : Prop :=
  ∃ plan, planSizedBuy .rounded asks .zero (.dollar budget) [] (atomics 5000000) tick unitBounds
      = .ok plan
    ∧ plan.ladder.usedAsks.getLast?.map AskLevel.price = some plan.ladder.limitPrice
    ∧ auditLadder .rounded plan.ladder = .error error

theorem refusedAtLimit_of_any {asks : List AskLevel} {budget : CollateralAmount} {tick : Price}
    {error : EconomicError}
    (h : ((planSizedBuy .rounded asks .zero (.dollar budget) [] (atomics 5000000) tick
      unitBounds).toOption.any fun plan => decide (
        plan.ladder.usedAsks.getLast?.map AskLevel.price = some plan.ladder.limitPrice
        ∧ auditLadder .rounded plan.ladder = .error error)) = true) :
    RefusedAtLimit asks budget tick error := by
  obtain ⟨plan, hok, hplan⟩ := exists_ok_of_any h
  exact ⟨plan, hok, of_decide_eq_true hplan⟩

/-- The second level has a trillion shares taken of it, more than an amount can hold with the first. -/
def deepAsks : List AskLevel :=
  [askLevel 1 18000000000000000000, askLevel 90 18000000000000000000]

theorem representable_fine : Representable (37252902984619140625 / 10 ^ 28) :=
  Decimal.representable_div (by decide) (by decide)

/-- The price is `2 ^ -28`. The cost of the first level is rounded up in its last decimal, so the
rest buys a millionth less than it should. -/
def fineAsks : List AskLevel :=
  [⟨⟨⟨_, representable_fine⟩⟩, atomics 5000004⟩, ⟨⟨⟨_, representable_fine⟩⟩, atomics 10000000000000⟩]

theorem representable_tick : Representable (1 / 10 ^ 4) :=
  Decimal.representable_div (by decide) (by decide)

theorem deepAsks_fineAsks_refused : DecimalArith.rounded.Lawful
    ∧ RefusedAtLimit deepAsks (atomics 1080000000000000000) (cents 1)
      (.arithmetic (.outOfRange "ShareAmount"))
    ∧ RefusedAtLimit fineAsks (atomics 10000) ⟨⟨_, representable_tick⟩⟩ .invalidLadderAudit :=
  ⟨DecimalArith.rounded_lawful, refusedAtLimit_of_any (by decide +kernel),
    refusedAtLimit_of_any (by decide +kernel)⟩

end PredictionEdge
