import PredictionEdge.Execution.Closure

/-!
# What every sized plan is held to

A plan is within its budget and its caps, its signed quantity is at least the minimum and
on the grid of the tick, its prices are in the band, and its asks are the first asks of the
ladder, the last one perhaps in part. This holds whatever the prices are.

What the asks cost is a matter of rounding. On venue prices nothing is rounded and the
exact cost stays within the signed principal. A price of more decimals can round down what
a level costs, and then the exact cost is past the principal by the rounding error.
-/

namespace PredictionEdge

open Lib

variable {arith : DecimalArith} {bounds : PriceBounds}

/-! ## The band -/

/-- The band holds the price. -/
structure PriceBounds.Admits (bounds : PriceBounds) (p : Price) : Prop where
  minimum : bounds.minimumPrice ≤ p
  maximum : p < bounds.maximumPriceExclusive
  chase : p ≤ bounds.chaseCeiling
  impact : p ≤ bounds.impactCeiling

theorem PriceBounds.admits_of_not_past {level : AskLevel} (h : ¬ bounds.isPast level)
    (hmin : bounds.minimumPrice ≤ level.price) : bounds.Admits level.price := by
  rw [isPast, not_or, Price.le_iff, not_le] at h
  have hceiling : level.price ≤ bounds.ceiling := Price.le_of_not_lt h.2
  -- the ceiling is the lower of the two
  have hboth : bounds.ceiling ≤ bounds.chaseCeiling ∧ bounds.ceiling ≤ bounds.impactCeiling := by
    unfold PriceBounds.ceiling Price.min
    split
    · rename_i hlt
      exact ⟨le_of_lt (Price.lt_iff.mp hlt), le_refl (Price.toRat _)⟩
    · rename_i hlt
      exact ⟨le_refl (Price.toRat _), Price.le_of_not_lt hlt⟩
  exact ⟨hmin, h.1, le_trans (Price.le_iff.mp hceiling) hboth.1,
    le_trans (Price.le_iff.mp hceiling) hboth.2⟩

/-- Every price the walk has met is in the band. -/
structure WithinBand (bounds : PriceBounds) (st : WalkState) : Prop where
  used : ∀ a ∈ st.usedAsks, bounds.Admits a.price
  best : ∀ p, st.bestAsk = some p → bounds.Admits p
  limit : ∀ p, st.limitPrice = some p → bounds.Admits p

theorem WithinBand.start (principal : CollateralAmount) : WithinBand bounds (.start principal) := by
  refine ⟨?_, ?_, ?_⟩ <;> simp [WalkState.start]

variable {shares : ShareAmount} {st' : WalkState} {asks : List AskLevel}

section

variable {st : WalkState} {level : AskLevel} {cost capacity : Decimal}

/-- Only the first ask has to be compared with the minimum: no later one is cheaper. -/
theorem Reaches.admits (h : Reaches arith bounds st level cost capacity)
    (hst : WithinBand bounds st)
    (hfirst : st.usedAsks = [] → bounds.minimumPrice ≤ level.price) :
    bounds.Admits level.price := by
  refine PriceBounds.admits_of_not_past h.inBand ?_
  cases hlast : st.usedAsks.getLast? with
  | none => exact hfirst (List.getLast?_eq_none_iff.mp hlast)
  | some prior =>
    have hprior := (hst.used prior (List.mem_of_getLast? hlast)).minimum
    exact le_trans (Price.le_iff.mp hprior) (h.order prior hlast)

/-- Reaching a level of the band, and taking some of it, stays in the band. -/
theorem WithinBand.reach (hst : WithinBand bounds st) (hlevel : bounds.Admits level.price)
    (hused : ∀ a ∈ st'.usedAsks, a ∈ st.usedAsks ∨ a.price = level.price)
    (hbest : st'.bestAsk = some (st.bestAsk.getD level.price))
    (hlimit : st'.limitPrice = some level.price) : WithinBand bounds st' := by
  refine ⟨?_, ?_, ?_⟩
  · intro a ha
    rcases hused a ha with ha | ha
    · exact hst.used a ha
    · rw [ha]; exact hlevel
  · intro p hp
    rw [hbest, Option.some.injEq] at hp
    subst hp
    cases hb : st.bestAsk with
    | none => exact hlevel
    | some best => exact hst.best best hb
  · intro p hp
    rw [hlimit, Option.some.injEq] at hp
    exact hp ▸ hlevel

theorem mem_takeWhole {remaining : Decimal} :
    ∀ a ∈ ((st.reach level capacity).takeWhole level remaining).usedAsks,
      a ∈ st.usedAsks ∨ a.price = level.price := by
  intro a ha
  rcases List.mem_append.mp ha with ha | ha
  · exact .inl ha
  · rw [List.mem_singleton.mp ha]; exact .inr rfl

theorem mem_takePart :
    ∀ a ∈ ((st.reach level capacity).takePart level.price shares).usedAsks,
      a ∈ st.usedAsks ∨ a.price = level.price := by
  intro a ha
  unfold WalkState.takePart at ha
  split at ha
  · rcases List.mem_append.mp ha with ha | ha
    · exact .inl ha
    · rw [List.mem_singleton.mp ha]; exact .inr rfl
  · exact .inl ha

/-- **Every run stays in the band** when its first ask is not below it. -/
theorem Walks.withinBand (h : Walks arith bounds asks st st') (hst : WithinBand bounds st)
    (hfirst : st.usedAsks = [] → ∀ first ∈ asks.head?, bounds.minimumPrice ≤ first.price) :
    WithinBand bounds st' := by
  induction h with
  | done | past _ => exact hst
  | filled hreach _ _ _ =>
    exact hst.reach (hreach.admits hst fun hnil => hfirst hnil _ rfl) mem_takeWhole rfl rfl
  | further hreach _ _ _ _ ih =>
    have hlevel := hreach.admits hst fun hnil => hfirst hnil _ rfl
    refine ih (hst.reach hlevel mem_takeWhole rfl rfl) fun hnil => ?_
    simp [WalkState.takeWhole] at hnil
  | within hreach _ _ _ =>
    have hlevel := hreach.admits hst fun hnil => hfirst hnil _ rfl
    exact hst.reach hlevel mem_takePart (takePart_bestAsk _ _ _) (takePart_limitPrice _ _ _)

end

/-! ## What is taken of the ladder -/

/-- The asks taken are the first asks of the ladder, the last one perhaps in part. -/
def TakenFrom (asks used : List AskLevel) : Prop :=
  used <+: asks ∨ ∃ whole level shares, whole ++ [level] <+: asks ∧ shares ≤ level.shares
    ∧ used = whole ++ [⟨level.price, shares⟩]

theorem TakenFrom.cons {level : AskLevel} {rest used : List AskLevel} (h : TakenFrom rest used) :
    TakenFrom (level :: rest) (level :: used) := by
  rcases h with h | ⟨whole, last, shares, hfirst, hshares, hused⟩
  · exact .inl (List.cons_prefix_cons.mpr ⟨rfl, h⟩)
  · exact .inr ⟨level :: whole, last, shares, List.cons_prefix_cons.mpr ⟨rfl, hfirst⟩, hshares,
      by rw [hused]; rfl⟩

section

variable {st : WalkState} {level : AskLevel} {cost capacity remaining : Decimal}

/-- What remains after a level was paid for is not negative. -/
theorem remaining_nonneg (faithful : arith.Faithful) (pays : cost ≤ st.remaining)
    (sub : arith.checkedSub st.remaining cost = some remaining) : 0 ≤ remaining.val :=
  faithful.sub_nonneg _ _ _ sub pays

/-- The rest that does not pay for a level is short of its exact cost, and the price is
positive. -/
theorem Reaches.short (h : Reaches arith bounds st level cost capacity) (faithful : arith.Faithful)
    (h0 : 0 ≤ st.remaining.val) (stops : ¬ cost ≤ st.remaining) :
    st.remaining.val < level.cost ∧ 0 < level.price.toRat := by
  have hlt : st.remaining.val < level.cost := by
    refine lt_of_not_ge fun hle => stops ?_
    exact faithful.mul_le _ _ _ _ h.cost_eq hle
  refine ⟨hlt, lt_of_not_ge fun hp => ?_⟩
  have hcost : level.cost ≤ 0 := mul_nonpos_of_nonneg_of_nonpos level.shares.toRat_nonneg hp
  linarith

/-- **The part of the last level is no more than the level holds.** -/
theorem Reaches.part_le (h : Reaches arith bounds st level cost capacity) (law : arith.Lawful)
    (faithful : arith.Faithful) (h0 : 0 ≤ st.remaining.val) (stops : ¬ cost ≤ st.remaining)
    {part : Decimal} (hdiv : arith.checkedDiv st.remaining level.price.val = some part)
    (hfloor : decimalToAtomicShares arith part = .ok shares) : shares ≤ level.shares := by
  obtain ⟨hlt, hpos⟩ := h.short faithful h0 stops
  have hquot : st.remaining.val / level.price.val.val ≤ level.shares.toDecimal.val :=
    (div_le_iff₀ hpos).mpr hlt.le
  have hpart : part.val ≤ level.shares.toRat := faithful.div_le _ _ _ _ hdiv hquot
  refine ExactAmount.toRat_le_iff.mp ?_
  rw [(floorAmount_ok law le_rfl).mp hfloor]
  exact (floorTo_le _ _).trans hpart

/-- **Every run takes the first asks it is given.** -/
theorem Walks.takenFrom (law : arith.Lawful) (faithful : arith.Faithful)
    (h : Walks arith bounds asks st st') (h0 : 0 ≤ st.remaining.val) :
    ∃ taken, st'.usedAsks = st.usedAsks ++ taken ∧ TakenFrom asks taken := by
  induction h with
  | done => exact ⟨[], (List.append_nil _).symm, .inl (List.nil_prefix)⟩
  | past _ => exact ⟨[], (List.append_nil _).symm, .inl (List.nil_prefix)⟩
  | @filled st level rest cost capacity remaining _ _ _ _ =>
    exact ⟨[level], rfl, .inl (List.cons_prefix_cons.mpr ⟨rfl, List.nil_prefix⟩)⟩
  | @further st level rest cost capacity remaining st' _ pays sub _ _ ih =>
    obtain ⟨taken, hused, htaken⟩ := ih (remaining_nonneg faithful pays sub)
    refine ⟨level :: taken, ?_, htaken.cons⟩
    rw [hused]
    simp [WalkState.takeWhole, WalkState.reach]
  | @within st level rest cost capacity part shares hreach stops hdiv hfloor =>
    unfold WalkState.takePart
    split
    · refine ⟨[⟨level.price, shares⟩], rfl, .inr ⟨[], level, shares, ?_, ?_, rfl⟩⟩
      · exact List.cons_prefix_cons.mpr ⟨rfl, List.nil_prefix⟩
      · exact hreach.part_le law faithful h0 stops hdiv hfloor
    · exact ⟨[], (List.append_nil _).symm, .inl (List.nil_prefix)⟩

end

/-! ## What the asks cost, up to rounding -/

/-- The most an amount can be, rounded as the decimal library rounds. -/
theorem decimalError_amount {x : ℚ} (h0 : 0 ≤ x) (h : x ≤ 2 ^ 64 / 10 ^ 6) :
    decimalError x ≤ 2 / 10 ^ 15 := by
  have hle : |x| ≤ 2 ^ 64 / 10 ^ 6 := by rw [abs_of_nonneg h0]; exact h
  exact (decimalError_of_le (by norm_num) hle).trans (by norm_num)

/-- A rounded quotient by a price costs what was divided, up to rounding. -/
theorem quotient_mul_le (law : arith.Lawful) {a c : Decimal} {p : Price} (hp : p.InUnit)
    (ha : 0 ≤ a.val) (hle : a.val ≤ 2 ^ 64 / 10 ^ 6) (hc : arith.checkedDiv a p.val = some c) :
    c.val * p.toRat ≤ a.val + 2 / 10 ^ 15 := by
  obtain ⟨hne, hnear⟩ := law.div_near _ _ _ hc
  have hpos : 0 < p.toRat := lt_of_le_of_ne hp.1 (Ne.symm hne)
  have hquot0 : 0 ≤ a.val / p.toRat := div_nonneg ha hpos.le
  have herr : decimalError (a.val / p.toRat) * p.toRat ≤ 2 / 10 ^ 15 := by
    have hmax : max 1 (a.val / p.toRat) * p.toRat ≤ 2 ^ 64 / 10 ^ 6 := by
      rw [max_mul_of_nonneg _ _ hpos.le, one_mul, div_mul_cancel₀ _ hpos.ne']
      exact max_le (hp.2.trans (by norm_num)) hle
    rw [decimalError, abs_of_nonneg hquot0, div_mul_eq_mul_div]
    calc max 1 (a.val / p.toRat) * p.toRat / 10 ^ 28 ≤ 2 ^ 64 / 10 ^ 6 / 10 ^ 28 := by gcongr
      _ ≤ 2 / 10 ^ 15 := by norm_num
  have hup : c.val ≤ a.val / p.toRat + decimalError (a.val / p.toRat) := by
    have := (abs_le.mp hnear).2
    have hval : a.val / p.val.val = a.val / p.toRat := rfl
    rw [hval] at this
    linarith
  calc c.val * p.toRat ≤ (a.val / p.toRat + decimalError (a.val / p.toRat)) * p.toRat :=
        mul_le_mul_of_nonneg_right hup hpos.le
    _ = a.val + decimalError (a.val / p.toRat) * p.toRat := by
        rw [add_mul, div_mul_cancel₀ _ hpos.ne']
    _ ≤ a.val + 2 / 10 ^ 15 := by linarith

/-- What was paid and what remains are the principal, up to the rounding of each level. -/
structure PaidUp (total : ℚ) (st : WalkState) : Prop where
  remaining_nonneg : 0 ≤ st.remaining.val
  remaining_le : st.remaining.val ≤ total
  paid : costSum st.usedAsks + st.remaining.val ≤ total + st.usedAsks.length * (4 / 10 ^ 15)

theorem PaidUp.start (principal : CollateralAmount) :
    PaidUp principal.toRat (.start principal) where
  remaining_nonneg := principal.toRat_nonneg
  remaining_le := le_rfl
  paid := by simp [WalkState.start, costSum, ExactAmount.val_toDecimal]

section

variable {st st' : WalkState} {level : AskLevel} {cost capacity remaining : Decimal} {total : ℚ}

theorem AskLevel.cost_le (hp : level.price.InUnit) : level.cost ≤ 2 ^ 64 / 10 ^ 6 := by
  have hle : level.cost ≤ level.shares.toRat * 1 :=
    mul_le_mul_of_nonneg_left hp.2 level.shares.toRat_nonneg
  rw [mul_one] at hle
  exact hle.trans level.shares.toRat_le.le

theorem costSum_singleton (a : AskLevel) : costSum [a] = a.cost := by simp [costSum]

/-- A level taken whole rounds twice: its cost, and what remains. -/
theorem PaidUp.takeWhole (hst : PaidUp total st) (law : arith.Lawful) (faithful : arith.Faithful)
    (htotal : total < 2 ^ 64 / 10 ^ 6) (hp : level.price.InUnit)
    (hreach : Reaches arith bounds st level cost capacity) (pays : cost ≤ st.remaining)
    (sub : arith.checkedSub st.remaining cost = some remaining) :
    PaidUp total ((st.reach level capacity).takeWhole level remaining) := by
  have hcost0 : 0 ≤ cost.val :=
    law.mul_nonneg _ _ _ level.shares.toRat_nonneg hp.1 hreach.cost_eq
  have hcost : level.cost - 2 / 10 ^ 15 ≤ cost.val := by
    have hnear := (abs_le.mp (law.mul_near _ _ _ hreach.cost_eq)).1
    have herr := decimalError_amount (mul_nonneg level.shares.toRat_nonneg hp.1)
      (AskLevel.cost_le hp)
    have hval : level.shares.toDecimal.val * level.price.val.val = level.cost := rfl
    rw [hval] at hnear
    change decimalError level.cost ≤ _ at herr
    linarith
  have hpays : cost.val ≤ st.remaining.val := pays
  have hsub : remaining.val ≤ st.remaining.val - cost.val + 2 / 10 ^ 15 := by
    have hnear := (abs_le.mp (faithful.sub_near _ _ _ sub)).2
    have herr := decimalError_amount (sub_nonneg.mpr hpays) (by linarith [hst.remaining_le])
    linarith
  refine ⟨faithful.sub_nonneg _ _ _ sub pays, ?_, ?_⟩
  · exact (faithful.sub_le _ _ _ st.remaining sub (by linarith)).trans hst.remaining_le
  · have hpaid := hst.paid
    simp only [WalkState.takeWhole, WalkState.reach, costSum_append, costSum_singleton,
      List.length_append, List.length_singleton]
    push_cast
    linarith

/-- The part of a level costs what remained, up to rounding. -/
theorem PaidUp.part_le (hst : PaidUp total st) (law : arith.Lawful)
    (htotal : total < 2 ^ 64 / 10 ^ 6) (hp : level.price.InUnit) {part : Decimal}
    (hdiv : arith.checkedDiv st.remaining level.price.val = some part)
    (hfloor : decimalToAtomicShares arith part = .ok shares) :
    costSum (st.usedAsks ++ [⟨level.price, shares⟩])
      ≤ total + (st.usedAsks ++ [(⟨level.price, shares⟩ : AskLevel)]).length * (4 / 10 ^ 15) := by
  have hquot := quotient_mul_le law hp hst.remaining_nonneg (hst.remaining_le.trans htotal.le) hdiv
  have hshares : shares.toRat ≤ part.val := by
    rw [(floorAmount_ok law le_rfl).mp hfloor]
    exact floorTo_le _ _
  have hcost : shares.toRat * level.price.toRat ≤ part.val * level.price.toRat :=
    mul_le_mul_of_nonneg_right hshares hp.1
  have hpaid := hst.paid
  rw [costSum_append, costSum_singleton, List.length_append, List.length_singleton, AskLevel.cost]
  push_cast
  linarith

/-- **What a run takes costs the principal at most, up to rounding.** -/
theorem Walks.costSum_le (law : arith.Lawful) (faithful : arith.Faithful)
    (htotal : total < 2 ^ 64 / 10 ^ 6) (h : Walks arith bounds asks st st') (hst : PaidUp total st)
    (hprices : ∀ a ∈ asks, a.price.InUnit) :
    costSum st'.usedAsks ≤ total + st'.usedAsks.length * (4 / 10 ^ 15) := by
  have hend : ∀ {st : WalkState}, PaidUp total st →
      costSum st.usedAsks ≤ total + st.usedAsks.length * (4 / 10 ^ 15) := by
    intro st hst
    linarith [hst.paid, hst.remaining_nonneg]
  induction h with
  | done | past _ => exact hend hst
  | filled hreach pays sub _ =>
    exact hend (hst.takeWhole law faithful htotal (hprices _ (by simp)) hreach pays sub)
  | further hreach pays sub _ _ ih =>
    refine ih (hst.takeWhole law faithful htotal (hprices _ (by simp)) hreach pays sub) ?_
    intro a ha
    exact hprices a (List.mem_cons_of_mem _ ha)
  | within hreach _ hdiv hfloor =>
    unfold WalkState.takePart
    split
    · exact hst.part_le law htotal (hprices _ (by simp)) hdiv hfloor
    · exact hend ⟨hst.remaining_nonneg, hst.remaining_le, hst.paid⟩

end

/-! ## Plans -/

section

variable {asks : List AskLevel} {scale : Nat} {principal : CollateralAmount} {plan : LadderPlan}
  {st : WalkState}

/-- A plan that accepts no part signs the whole principal. -/
theorem planPrincipalBuyWithScale_debit
    (h : planPrincipalBuyWithScale arith asks principal scale none bounds = .ok plan) :
    plan.worstCaseDebit = principal := by
  obtain ⟨st, _, hdebit⟩ := planPrincipalBuyWithScale_run h
  obtain ⟨_, _, hdebit⟩ := bind_eq_ok.mp hdebit
  exact (pure_eq_ok.mp hdebit).symm

/-- The limit price is the price of one of the asks. -/
theorem Walks.limit_mem (h : Walks arith bounds asks st st') {p : Price}
    (hp : st'.limitPrice = some p) : st.limitPrice = some p ∨ ∃ a ∈ asks, a.price = p := by
  induction h with
  | done | past _ => exact .inl hp
  | @filled st level rest _ _ _ _ _ _ _ =>
    exact .inr ⟨level, by simp, Option.some.inj hp⟩
  | @further st level rest _ _ _ _ _ _ _ _ _ ih =>
    rcases ih hp with hlimit | ⟨a, ha, hprice⟩
    · exact .inr ⟨level, by simp, Option.some.inj hlimit⟩
    · exact .inr ⟨a, List.mem_cons_of_mem _ ha, hprice⟩
  | @within st level rest _ _ _ _ _ _ _ _ =>
    rw [takePart_limitPrice] at hp
    exact .inr ⟨level, by simp, Option.some.inj hp⟩

theorem PlannedFrom.limit_mem (h : PlannedFrom arith asks bounds scale principal plan st) :
    ∃ a ∈ asks, a.price = plan.limitPrice := by
  rcases h.walks.limit_mem h.limit with hlimit | hmem
  · simp [WalkState.start] at hlimit
  · exact hmem

end

theorem firstEligibleAsk_ok {best : Price} (h : firstEligibleAsk asks bounds = .ok best) :
    ∀ first ∈ asks.head?, bounds.minimumPrice ≤ first.price ∧ best = first.price := by
  intro first hfirst
  cases asks with
  | nil => simp at hfirst
  | cons level rest =>
    obtain rfl : level = first := Option.some.inj hfirst
    unfold firstEligibleAsk at h
    dsimp only at h
    split at h
    · simp at h
    · rename_i hlow
      split at h
      · simp at h
      · exact ⟨Price.le_of_not_lt hlow, (Except.ok.inj h).symm⟩

variable {asks : List AskLevel} {schedule : CompactFeeSchedule} {sizing : BuySizing}
  {monetaryCaps : List CollateralAmount} {minimumOrderSize : ShareAmount} {minimumTickSize : Price}

/-- The checks that a successful sizing has passed. -/
structure Checked (arith : DecimalArith) (asks : List AskLevel) (sizing : BuySizing)
    (monetaryCaps : List CollateralAmount) (minimumOrderSize : ShareAmount) (minimumTickSize : Price)
    (bounds : PriceBounds) (plan : SizedBuyPlan) (scale : Nat) (principal : CollateralAmount) :
    Prop where
  scale_eq : scale = minimumTickSize.val.normalizedScale + 2
  scale_le : scale ≤ 6
  first : ∀ first ∈ asks.head?, bounds.minimumPrice ≤ first.price
  budget : plan.budget = sizing.budget monetaryCaps
  planned : planPrincipalBuyWithScale arith asks principal scale
    (sizing.partialMinimum minimumOrderSize) bounds = .ok plan.ladder
  allIn : ∃ allIn, plan.ladder.worstCaseDebit.checkedAdd plan.reserve = .ok allIn
    ∧ allIn ≤ plan.budget ∧ ∀ cap ∈ monetaryCaps, allIn ≤ cap
  minimum : minimumOrderSize ≤ plan.ladder.shares

/-- **Every sized plan has passed every check.** -/
theorem planSizedBuy_checked {plan : SizedBuyPlan}
    (h : planSizedBuy arith asks schedule sizing monetaryCaps minimumOrderSize minimumTickSize bounds
      = .ok plan) :
    ∃ scale principal, Checked arith asks sizing monetaryCaps minimumOrderSize minimumTickSize bounds
      plan scale principal := by
  obtain ⟨scale, hscale, h⟩ := bind_eq_ok.mp h
  obtain ⟨_, _, h⟩ := bind_eq_ok.mp h
  obtain ⟨bestAsk, hbest, h⟩ := bind_eq_ok.mp h
  obtain ⟨⟨budget, ladder⟩, hladder, h⟩ := bind_eq_ok.mp h
  obtain ⟨reserve, _, h⟩ := bind_eq_ok.mp h
  obtain ⟨allIn, hallIn, h⟩ := bind_eq_ok.mp h
  obtain ⟨_, hcaps, h⟩ := bind_eq_ok.mp h
  obtain ⟨_, hminimum, h⟩ := bind_eq_ok.mp h
  obtain rfl := pure_eq_ok.mp h
  obtain ⟨hbudget, principal, _, hplan⟩ := sizedLadder_ok hladder
  rw [refuseIf_eq_ok, not_or] at hcaps
  exact ⟨scale, principal, {
    scale_eq := (signedShareScale_ok hscale).1
    scale_le := (signedShareScale_ok hscale).2
    first := fun first hfirst => (firstEligibleAsk_ok hbest first hfirst).1
    budget := hbudget
    planned := hplan
    allIn := by
      refine ⟨allIn, mapError_eq_ok.mp hallIn, Nat.le_of_not_lt hcaps.1, ?_⟩
      intro cap hcap
      refine Nat.le_of_not_lt fun hlt => hcaps.2 (List.any_eq_true.mpr ⟨cap, hcap, ?_⟩)
      exact decide_eq_true hlt
    minimum := Nat.le_of_not_lt (refuseIf_eq_ok.mp hminimum) }⟩

/-- What a plan is held to on every ladder. -/
structure SafePlan (asks : List AskLevel) (sizing : BuySizing) (monetaryCaps : List CollateralAmount)
    (minimumOrderSize : ShareAmount) (minimumTickSize : Price) (bounds : PriceBounds)
    (plan : SizedBuyPlan) : Prop where
  budget_eq : plan.budget = sizing.budget monetaryCaps
  budget : plan.ladder.worstCaseDebit.toRat + plan.reserve.toRat ≤ plan.budget.toRat
  caps : ∀ cap ∈ monetaryCaps, plan.ladder.worstCaseDebit.toRat + plan.reserve.toRat ≤ cap.toRat
  minimum : minimumOrderSize ≤ plan.ladder.shares
  grid : OnGrid (minimumTickSize.val.normalizedScale + 2) plan.ladder.shares.toRat
  best : bounds.Admits plan.ladder.bestAsk
  limit : bounds.Admits plan.ladder.limitPrice
  used : TakenFrom asks plan.ladder.usedAsks

/--
The signed quantity is paid for at the limit, and, where no partial plan is accepted, so are
the asks taken, but for an error of `ε` and of `ε` a level.
-/
structure PaidWithin (ε : ℚ) (sizing : BuySizing) (plan : LadderPlan) : Prop where
  signed : plan.shares.toRat * plan.limitPrice.toRat ≤ plan.worstCaseDebit.toRat + ε
  spent : (∀ budget, sizing ≠ .dollarUpTo budget) →
    costSum plan.usedAsks ≤ plan.worstCaseDebit.toRat + plan.usedAsks.length * ε

theorem BuySizing.partialMinimum_eq_none (h : ∀ budget, sizing ≠ .dollarUpTo budget) :
    sizing.partialMinimum minimumOrderSize = none := by
  cases sizing with
  | dollarUpTo budget => exact absurd rfl (h budget)
  | dollar budget | contract contracts | kelly allocate slippageRate => rfl

theorem ExactAmount.toRat_checkedAdd {field : String} {a b c : ExactAmount field}
    (h : a.checkedAdd b = .ok c) : a.toRat + b.toRat = c.toRat := by
  have hsum := ExactAmount.checkedAdd_ok.mp h
  unfold toRat
  rw [← add_div, ← hsum]
  push_cast
  rfl

section

variable {plan : SizedBuyPlan} {scale : Nat} {principal : CollateralAmount} (law : arith.Lawful)
  (h : Checked arith asks sizing monetaryCaps minimumOrderSize minimumTickSize bounds plan scale
    principal)

include law h

theorem Checked.safePlan (faithful : arith.Faithful) :
    SafePlan asks sizing monetaryCaps minimumOrderSize minimumTickSize bounds plan := by
  obtain ⟨st, hst⟩ := planPrincipalBuyWithScale_ok h.planned
  obtain ⟨allIn, hallIn, hbudget, hcaps⟩ := h.allIn
  obtain ⟨_, implied, _, hshares⟩ := sharesForPrincipal_floor law h.scale_le hst.shares
  obtain ⟨taken, hused, htaken⟩ := hst.walks.takenFrom law faithful principal.toRat_nonneg
  have hband := hst.walks.withinBand (.start principal) fun _ => h.first
  have hsum := ExactAmount.toRat_checkedAdd hallIn
  exact {
    budget_eq := h.budget
    budget := by rw [hsum]; exact ExactAmount.toRat_le_iff.mpr hbudget
    caps := fun cap hcap => by rw [hsum]; exact ExactAmount.toRat_le_iff.mpr (hcaps cap hcap)
    minimum := h.minimum
    grid := by rw [hshares, ← h.scale_eq]; exact onGrid_floorTo _ _
    best := hband.best _ hst.best
    limit := hband.limit _ hst.limit
    used := by rw [hst.used, hused]; exact htaken }

theorem Checked.paid_exactly (hprices : ∀ a ∈ asks, VenuePrice a.price) :
    PaidWithin 0 sizing plan.ladder := by
  obtain ⟨st, hst⟩ := planPrincipalBuyWithScale_ok h.planned
  have hwalk := hst.planWalk law hprices h.scale_le
  refine ⟨?_, fun hsizing => ?_⟩
  · rw [add_zero, hwalk.shares, ← le_div_iff₀ hwalk.limit_pos]
    exact floorTo_le _ _
  · have hplanned := h.planned
    rw [BuySizing.partialMinimum_eq_none hsizing] at hplanned
    rw [planPrincipalBuyWithScale_debit hplanned, hwalk.used, mul_zero, add_zero]
    exact hwalk.spend_le.2

theorem Checked.paid_rounded (faithful : arith.Faithful) (hprices : ∀ a ∈ asks, a.price.InUnit) :
    PaidWithin (4 / 10 ^ 15) sizing plan.ladder := by
  obtain ⟨st, hst⟩ := planPrincipalBuyWithScale_ok h.planned
  refine ⟨?_, fun hsizing => ?_⟩
  · obtain ⟨_, implied, himplied, hshares⟩ := sharesForPrincipal_floor law h.scale_le hst.shares
    obtain ⟨a, ha, hlimit⟩ := hst.limit_mem
    have hp : plan.ladder.limitPrice.InUnit := hlimit ▸ hprices a ha
    have hquot := quotient_mul_le law hp plan.ladder.worstCaseDebit.toRat_nonneg
      plan.ladder.worstCaseDebit.toRat_le.le himplied
    have hfloor : plan.ladder.shares.toRat * plan.ladder.limitPrice.toRat
        ≤ implied.val * plan.ladder.limitPrice.toRat := by
      rw [hshares]
      exact mul_le_mul_of_nonneg_right (floorTo_le _ _) hp.1
    rw [ExactAmount.val_toDecimal] at hquot
    linarith
  · have hplanned := h.planned
    rw [BuySizing.partialMinimum_eq_none hsizing] at hplanned
    rw [planPrincipalBuyWithScale_debit hplanned, hst.used]
    exact hst.walks.costSum_le law faithful principal.toRat_le (.start principal) hprices

end

/--
**Every sized plan is safe.**

Whatever the ladder, the plan is within its budget and caps, at least the minimum, on the
grid of the tick and in the band, and takes the first asks, the last perhaps in part. On
prices of at most eight decimals the signed quantity at the limit, and the exact cost of the
asks of a plan that accepts no part, are within the signed principal. On any other prices of
the unit interval they are past it by no more than the decimal library rounds.
-/
theorem planSizedBuy_safe (arith : DecimalArith) (law : arith.Lawful) (faithful : arith.Faithful)
    (asks : List AskLevel) (schedule : CompactFeeSchedule) (sizing : BuySizing)
    (monetaryCaps : List CollateralAmount) (minimumOrderSize : ShareAmount) (minimumTickSize : Price)
    (bounds : PriceBounds) (plan : SizedBuyPlan)
    (hok : planSizedBuy arith asks schedule sizing monetaryCaps minimumOrderSize minimumTickSize
      bounds = .ok plan) :
    SafePlan asks sizing monetaryCaps minimumOrderSize minimumTickSize bounds plan
      ∧ ((∀ a ∈ asks, VenuePrice a.price) → PaidWithin 0 sizing plan.ladder)
      ∧ ((∀ a ∈ asks, a.price.InUnit) → PaidWithin (4 / 10 ^ 15) sizing plan.ladder) := by
  obtain ⟨scale, principal, hchecked⟩ := planSizedBuy_checked hok
  exact ⟨hchecked.safePlan law faithful, hchecked.paid_exactly law,
    hchecked.paid_rounded law faithful⟩

theorem representable_longPrice : Representable (9900990099009900990099009901 / 10 ^ 28) :=
  Decimal.representable_div (by decide) (by decide)

/-- The least price of 28 decimals at which `1.01` shares cost more than one. -/
def longPrice : Price := ⟨⟨_, representable_longPrice⟩⟩

/-- The exact cost is `1 + 10⁻³⁰`, rounded down to one, and one is signed. -/
theorem longPrice_past_principal :
    DecimalArith.rounded.Lawful ∧ DecimalArith.rounded.Faithful ∧ longPrice.InUnit ∧ ∃ plan,
      planSizedBuy .rounded [⟨longPrice, atomics 1010000⟩] .zero (.dollar (atomics 1000000)) []
        (atomics 1000000) (cents 1) unitBounds = .ok plan
      ∧ plan.ladder.worstCaseDebit.toRat < plan.ladder.shares.toRat * plan.ladder.limitPrice.toRat
      ∧ plan.ladder.worstCaseDebit.toRat < costSum plan.ladder.usedAsks := by
  refine ⟨DecimalArith.rounded_lawful, DecimalArith.rounded_faithful, ?_, ?_⟩
  · exact ⟨by decide +kernel, by decide +kernel⟩
  obtain ⟨plan, hok, hp⟩ := exists_ok_of_any
    (x := planSizedBuy .rounded [⟨longPrice, atomics 1010000⟩] .zero (.dollar (atomics 1000000)) []
      (atomics 1000000) (cents 1) unitBounds)
    (p := fun plan => decide (plan.ladder.worstCaseDebit.toRat
        < plan.ladder.shares.toRat * plan.ladder.limitPrice.toRat
      ∧ plan.ladder.worstCaseDebit.toRat < costSum plan.ladder.usedAsks)) (by decide +kernel)
  exact ⟨plan, hok, of_decide_eq_true hp⟩

/-- A budget of 25 over two levels of the ladder. -/
theorem dustAsks_safe :
    ∃ plan, planSizedBuy .rounded dustAsks .zero (.dollar (atomics 25000000)) [atomics 30000000]
        (atomics 5000000) (cents 1) unitBounds = .ok plan
      ∧ SafePlan dustAsks (.dollar (atomics 25000000)) [atomics 30000000] (atomics 5000000) (cents 1)
        unitBounds plan
      ∧ ((∀ a ∈ dustAsks, VenuePrice a.price) →
        PaidWithin 0 (.dollar (atomics 25000000)) plan.ladder)
      ∧ ((∀ a ∈ dustAsks, a.price.InUnit) →
        PaidWithin (4 / 10 ^ 15) (.dollar (atomics 25000000)) plan.ladder) := by
  obtain ⟨plan, hok, _⟩ := exists_ok_of_any
    (x := planSizedBuy .rounded dustAsks .zero (.dollar (atomics 25000000)) [atomics 30000000]
      (atomics 5000000) (cents 1) unitBounds) (p := fun _ => true) (by decide +kernel)
  exact ⟨plan, hok, planSizedBuy_safe .rounded DecimalArith.rounded_lawful
    DecimalArith.rounded_faithful dustAsks .zero _ _ _ _ unitBounds plan hok⟩

end PredictionEdge
