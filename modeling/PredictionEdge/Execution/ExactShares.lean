import PredictionEdge.Execution.PlanSafety

/-!
# Plans of an exact quantity

A quantity is planned by two loops over the same asks. The first looks for the level at
which the levels so far are worth the quantity at that level's price; the second spends
that worth from the front. Prices only rise along the asks, so before the level the first
loop stops at something is left to spend, and at that level nothing is left over: the
second loop ends there too, and its limit is the price the quantity was paid at.
-/

namespace PredictionEdge

open Lib

/-- The first level at which the levels so far are worth the shares at its price. -/
structure FirstCovering (requested : ShareAmount) (levels before : List AskLevel)
    (level : AskLevel) : Prop where
  leads : before ++ [level] <+: levels
  covers : requested.toRat * level.price.toRat ≤ costSum (before ++ [level])
  first : ∀ earlier a, earlier ++ [a] <+: before →
    costSum (earlier ++ [a]) < requested.toRat * a.price.toRat

variable {arith : DecimalArith} {bounds : PriceBounds} {requested : ShareAmount}
  {asks : List AskLevel} {scale : Nat} {principal : CollateralAmount} {plan : LadderPlan}

/-! ## The search -/

theorem ExactAmount.fromDecimalExact_val {field : String} (law : arith.Lawful) {d : Decimal}
    {a : ExactAmount field} (hrep : Representable (d.val * atomicScale.val))
    (h : fromDecimalExact arith d = .ok a) : a.toRat = d.val := by
  obtain ⟨_, scaled, hscaled, hatomic⟩ := fromDecimalExact_eq_ok.mp h
  rw [law.mul_val hscaled hrep] at hatomic
  rw [toRat, ← hatomic]
  exact mul_div_cancel_right₀ _ (by norm_num [atomicScale])

/-- What the requested shares cost at a price, and the principal that is signed for it. -/
theorem required_exact (law : arith.Lawful) {price : Price} (hp : VenuePrice price)
    {required : Decimal} (hrequired : arith.checkedMul requested.toDecimal price.val = some required) :
    required.val = requested.toRat * price.toRat
      ∧ ∀ principal : CollateralAmount, ExactAmount.fromDecimalExact arith required = .ok principal →
        principal.toRat = requested.toRat * price.toRat := by
  have hcost : VenuePrice (AskLevel.mk price requested).price := hp
  have hval : required.val = requested.toRat * price.toRat := levelCost_eq law hcost hrequired
  refine ⟨hval, fun principal h => ?_⟩
  rw [← hval]
  refine ExactAmount.fromDecimalExact_val law ?_ h
  obtain ⟨n, hn⟩ := AskLevel.onGrid_cost hcost
  have hgrid : OnGrid 8 (required.val * ExactAmount.atomicScale.val) := by
    refine ⟨n, ?_⟩
    rw [hval, show requested.toRat * price.toRat = n / 10 ^ 14 from hn]
    simp only [ExactAmount.atomicScale]
    ring
  refine Decimal.representable_of_onGrid hgrid (by decide) ?_
  have h0 := AskLevel.cost_nonneg hcost
  have hlt := AskLevel.cost_lt hcost
  change 0 ≤ requested.toRat * price.toRat at h0
  change requested.toRat * price.toRat < _ at hlt
  rw [hval, abs_of_nonneg (mul_nonneg h0 (by simp [ExactAmount.atomicScale]))]
  simp only [ExactAmount.atomicScale]
  norm_num at hlt ⊢
  linarith

/-- **The level the search stops at**, with what was available before. -/
theorem signedPrincipal_covering (law : arith.Lawful) :
    ∀ {asks : List AskLevel} {prior : Option Price} {available : Decimal},
    (∀ a ∈ asks, VenuePrice a.price) → OnGrid 14 available.val → 0 ≤ available.val →
    available.val < 2 ^ 64 / 10 ^ 6 →
    signedPrincipal arith requested bounds asks prior available = .ok principal →
    ∃ before level, before ++ [level] <+: bounds.inBand asks
      ∧ requested.toRat * level.price.toRat ≤ available.val + costSum (before ++ [level])
      ∧ (∀ earlier a, earlier ++ [a] <+: before →
        available.val + costSum (earlier ++ [a]) < requested.toRat * a.price.toRat)
      ∧ (∀ a ∈ before, a.price ≤ level.price) ∧ (∀ p, prior = some p → p ≤ level.price)
      ∧ principal.toRat = requested.toRat * level.price.toRat
  | [], prior, available, _, _, _, _, h => absurd h (by simp [signedPrincipal])
  | level :: rest, prior, available, hprices, hgrid, h0, hlt, h => by
    rw [signedPrincipal] at h
    obtain ⟨_, horder, h⟩ := bind_eq_ok.mp h
    obtain ⟨_, _, h⟩ := bind_eq_ok.mp h
    obtain ⟨_, hband, h⟩ := bind_eq_ok.mp h
    obtain ⟨_, _, h⟩ := bind_eq_ok.mp h
    obtain ⟨cost, hcost, h⟩ := bind_eq_ok.mp h
    obtain ⟨sum, hsum, h⟩ := bind_eq_ok.mp h
    obtain ⟨required, hrequired, h⟩ := bind_eq_ok.mp h
    rw [okOr_eq_ok] at hcost hsum hrequired
    have hp := hprices level List.mem_cons_self
    have hcost := levelCost_eq law hp hcost
    have hcost0 := AskLevel.cost_nonneg hp
    have hgrid' : OnGrid 14 (available.val + cost.val) :=
      hgrid.add (hcost ▸ AskLevel.onGrid_cost hp)
    have hsum : sum.val = available.val + level.cost := by
      rw [law.add_val hsum, hcost]
      refine representable_cost hgrid' (by linarith) ?_
      have := AskLevel.cost_lt hp
      norm_num at *
      linarith
    obtain ⟨hvalue, hexact⟩ := required_exact law hp hrequired
    have hprior : ∀ p, prior = some p → p ≤ level.price := by
      rintro p rfl
      rw [refuseIf_eq_ok] at horder
      exact Price.le_of_not_lt (by simpa using horder)
    have hinBand : bounds.inBand (level :: rest) = level :: bounds.inBand rest := by
      simp [PriceBounds.inBand, refuseIf_eq_ok.mp hband]
    rw [hinBand]
    split at h
    · rename_i hcovers
      have hcovers : required.val ≤ sum.val := hcovers
      refine ⟨[], level, ⟨_, rfl⟩, ?_, by simp, by simp, hprior,
        hexact _ (mapError_eq_ok.mp h)⟩
      rw [List.nil_append, costSum_singleton, ← hsum, ← hvalue]
      exact hcovers
    · rename_i hshort
      have hshort : sum.val < required.val := lt_of_not_ge hshort
      rw [hvalue] at hshort
      have hbelow := AskLevel.cost_lt (show VenuePrice (AskLevel.mk level.price requested).price from hp)
      change requested.toRat * level.price.toRat < _ at hbelow
      obtain ⟨before, last, hleads, hcovers, hfirst, hsorted, hlevel, hprincipal⟩ :=
        signedPrincipal_covering law (fun a ha => hprices a (List.mem_cons_of_mem _ ha))
          (by rw [hsum, ← hcost]; exact hgrid') (by rw [hsum]; linarith) 
          (hshort.trans hbelow) h
      have hle := hlevel _ rfl
      refine ⟨level :: before, last, (List.prefix_cons_inj level).mpr hleads, ?_, ?_, ?_, ?_, hprincipal⟩
      · rw [hsum] at hcovers
        simp only [List.cons_append, costSum, List.map_cons, List.sum_cons] at hcovers ⊢
        linarith
      · intro earlier a hprefix
        cases earlier with
        | nil =>
          obtain rfl : a = level := by simpa using hprefix.head (by simp)
          rw [List.nil_append, costSum_singleton, ← hsum]
          exact hshort
        | cons b earlier =>
          obtain ⟨rfl, hbefore⟩ := List.cons_prefix_cons.mp hprefix
          have := hfirst earlier a hbefore
          rw [hsum] at this
          simp only [List.cons_append, costSum, List.map_cons, List.sum_cons] at this ⊢
          linarith
      · intro a ha
        rcases List.mem_cons.mp ha with rfl | ha
        · exact hle
        · exact hsorted a ha
      · intro p hp
        exact Price.le_iff.mpr (le_trans (Price.le_iff.mp (hprior p hp)) (Price.le_iff.mp hle))

/-! ## The walk meets the search -/

/-- What the requested shares cost buys the requested shares. -/
theorem sharesForPrincipal_requested (law : arith.Lawful) {debit : CollateralAmount} {price : Price}
    {shares : ShareAmount} (hdebit : debit.toRat = requested.toRat * price.toRat)
    (h : sharesForPrincipal arith debit price scale = .ok shares) :
    shares.toRat = floorTo scale requested.toRat := by
  obtain ⟨hne, implied, himplied, hfloor⟩ := sharesForPrincipal_quotient h
  have hquot : debit.toDecimal.val / price.val.val = requested.toDecimal.val := by
    change debit.toRat / price.toRat = requested.toRat
    rw [hdebit]
    exact mul_div_cancel_right₀ _ fun hz => hne (Price.toRat_injective hz)
  have hvalue : implied.val = requested.toRat :=
    (law.div_val himplied (hquot ▸ requested.toDecimal.repr)).trans hquot
  rw [← hvalue]
  refine (floorAmount_eq_ok law ?_).mp hfloor
  rw [hvalue]
  rcases le_total scale 6 with hscale | hscale
  · exact (onGrid_floorTo scale _).mono hscale
  · rw [floorTo_of_onGrid (requested.onGrid_toRat.mono hscale)]
    exact requested.onGrid_toRat

/-- Before the level that covers the shares, less was spent than they cost there. -/
theorem costSum_before_lt {before : List AskLevel} {level : AskLevel}
    (hpos : 0 < requested.toRat * level.price.toRat)
    (hfirst : ∀ earlier a, earlier ++ [a] <+: before →
      costSum (earlier ++ [a]) < requested.toRat * a.price.toRat)
    (hsorted : ∀ a ∈ before, a.price ≤ level.price) :
    costSum before < requested.toRat * level.price.toRat := by
  rcases List.eq_nil_or_concat' before with rfl | ⟨earlier, last, rfl⟩
  · exact hpos
  · refine (hfirst earlier last List.prefix_rfl).trans_le ?_
    exact mul_le_mul_of_nonneg_left (hsorted last (by simp)) requested.toRat_nonneg

/-- A plan of an exact quantity. -/
structure ExactPlan (asks : List AskLevel) (bounds : PriceBounds) (requested : ShareAmount)
    (scale : Nat) (plan : LadderPlan) : Prop where
  covering : ∃ before level, FirstCovering requested (bounds.inBand asks) before level
    ∧ plan.limitPrice = level.price
  debit : plan.worstCaseDebit.toRat = requested.toRat * plan.limitPrice.toRat
  shares : plan.shares.toRat = floorTo scale requested.toRat

theorem planShareBuy_exactPlan (law : arith.Lawful) {minimumOrderSize : ShareAmount}
    (hprices : ∀ a ∈ asks, VenuePrice a.price)
    (h : planShareBuy arith asks requested scale minimumOrderSize bounds = .ok plan) :
    ExactPlan asks bounds requested scale plan := by
  obtain ⟨principal, hsearch, hplan⟩ := planShareBuy_ok h
  obtain ⟨st, hfrom⟩ := planPrincipalBuyWithScale_ok hplan
  obtain ⟨before, level, hleads, hcovers, hfirst, hsorted, _, hprincipal⟩ :=
    signedPrincipal_covering law hprices ⟨0, by simp⟩ le_rfl (by norm_num [Decimal.zero]) hsearch
  simp only [Decimal.val_zero, zero_add] at hcovers hfirst
  have hdebit := planPrincipalBuyWithScale_debit hplan
  -- no shares are bought for nothing
  have hne : principal ≠ .zero := fun hzero => by
    simp [planPrincipalBuyWithScale, refuseIf, hzero, bind, Except.bind] at hplan
  have hpos : 0 < requested.toRat * level.price.toRat := by
    rw [← hprincipal]
    exact lt_of_le_of_ne principal.toRat_nonneg
      fun hzero => hne (ExactAmount.toRat_eq_zero_iff.mp hzero.symm)
  have hin : ∀ a ∈ before, a ∈ asks := fun a ha =>
    (List.takeWhile_prefix _).subset (hleads.subset (by simp [ha]))
  obtain ⟨after, hafter⟩ := hleads
  have hreached : (exactWalk bounds asks principal).reached = before ++ [level] := by
    rw [exactWalk, ← hafter, List.append_assoc, List.singleton_append]
    refine spend_reached_covering (fun a ha => AskLevel.cost_nonneg (hprices a (hin a ha))) ?_ ?_
    · rw [hprincipal]
      exact costSum_before_lt hpos hfirst hsorted
    · rw [hprincipal]
      simpa [costSum] using hcovers
  have hlimit : plan.limitPrice = level.price := by
    have hlast := hfrom.limitPrice_eq law hprices
    rw [hreached] at hlast
    simpa using hlast.symm
  have hworth : plan.worstCaseDebit.toRat = requested.toRat * plan.limitPrice.toRat := by
    rw [hdebit, hprincipal, hlimit]
  exact ⟨⟨before, level, ⟨⟨after, hafter⟩, hcovers, hfirst⟩, hlimit⟩, hworth,
    sharesForPrincipal_requested law hworth hfrom.shares⟩

theorem wholeShares_ok {n : Nat} {shares : ShareAmount} (h : wholeShares n = .ok shares) :
    shares.toRat = n := by
  unfold wholeShares at h
  split at h
  · rw [← Except.ok.inj h]
    simp only [ExactAmount.toRat]
    push_cast
    ring
  · simp at h

/--
**A quantity is planned exactly.**

On ask prices of at most eight decimals, every plan of a requested quantity has the price
of the first level that covers it as its limit, is paid at that price to the last digit,
and signs the requested shares floored to the scale. A contract order signs the contracts
it asks for, and a Kelly order no more than either allocation.
-/
theorem planShareBuy_exact (arith : DecimalArith) (law : arith.Lawful) (asks : List AskLevel)
    (scale : Nat) (minimumOrderSize : ShareAmount) (bounds : PriceBounds)
    (hprices : ∀ a ∈ asks, VenuePrice a.price) :
    (∀ requested plan, planShareBuy arith asks requested scale minimumOrderSize bounds = .ok plan →
      ExactPlan asks bounds requested scale plan)
    ∧ (∀ contracts plan,
      planContractBuy arith asks contracts scale minimumOrderSize bounds = .ok plan →
      plan.shares.toRat = contracts)
    ∧ ∀ schedule allocate slippageRate plan,
      planKellyBuy arith asks schedule allocate slippageRate scale minimumOrderSize bounds
        = .ok plan →
      ∃ estimate second, Allocated arith asks schedule allocate slippageRate scale minimumOrderSize
        bounds estimate second ∧ plan.shares ≤ estimate.first ∧ plan.shares ≤ second := by
  refine ⟨fun requested plan h => planShareBuy_exactPlan law hprices h, ?_, ?_⟩
  · intro contracts plan h
    obtain ⟨requested, hrequested, h⟩ := bind_eq_ok.mp h
    rw [(planShareBuy_exactPlan law hprices h).shares, wholeShares_ok hrequested]
    refine floorTo_of_onGrid ⟨contracts * 10 ^ scale, ?_⟩
    push_cast
    exact (mul_div_cancel_right₀ _ (ten_pow_pos scale).ne').symm
  · intro schedule allocate slippageRate plan h
    obtain ⟨estimate, hestimate, h⟩ := planKellyBuy_ok h
    obtain ⟨second, hallocated⟩ := kellyEstimate_ok hestimate
    have hshares : plan.shares ≤ estimate.accepted := by
      refine ExactAmount.toRat_le_iff.mp ?_
      rw [(planShareBuy_exactPlan law hprices h).shares]
      exact floorTo_le _ _
    have hmin := ExactAmount.atomic_min estimate.first second
    rw [← hallocated.accepted] at hmin
    refine ⟨estimate, second, hallocated, ?_, ?_⟩
    · exact Nat.le_trans hshares (hmin ▸ Nat.min_le_left _ _)
    · exact Nat.le_trans hshares (hmin ▸ Nat.min_le_right _ _)

/-- Sixty shares over two levels: the second covers them. -/
theorem dustAsks_exact :
    ∃ plan, planShareBuy .rounded dustAsks (atomics 60000000) 4 (atomics 1000000) unitBounds = .ok plan
      ∧ ExactPlan dustAsks unitBounds (atomics 60000000) 4 plan := by
  obtain ⟨plan, hok, _⟩ := exists_ok_of_any
    (x := planShareBuy .rounded dustAsks (atomics 60000000) 4 (atomics 1000000) unitBounds)
    (p := fun _ => true) (by decide +kernel)
  exact ⟨plan, hok, (planShareBuy_exact .rounded DecimalArith.rounded_lawful dustAsks 4
    (atomics 1000000) unitBounds dustAsks_venue).1 _ plan hok⟩

theorem representable_overHalf : Representable (5000000000000000000000000003 / 10 ^ 28) :=
  Decimal.representable_div (by decide) (by decide)

/-- Three units of the last decimal above a half. -/
def overHalf : Price := ⟨⟨_, representable_overHalf⟩⟩

/-- A tenth of a share at this price costs more than `0.05`, but the product drops the last
digit: `0.05` is signed, and it buys less than a tenth. -/
theorem overHalf_inexact :
    DecimalArith.rounded.Lawful ∧ overHalf.InUnit ∧ ∃ plan,
      planShareBuy .rounded [⟨overHalf, atomics 1000000⟩] (atomics 100000) 6 .zero unitBounds = .ok plan
      ∧ plan.worstCaseDebit.toRat < (atomics 100000 : ShareAmount).toRat * plan.limitPrice.toRat
      ∧ plan.shares.toRat < floorTo 6 (atomics 100000 : ShareAmount).toRat := by
  refine ⟨DecimalArith.rounded_lawful, ⟨by decide +kernel, by decide +kernel⟩, ?_⟩
  obtain ⟨plan, hok, hp⟩ := exists_ok_of_any
    (x := planShareBuy .rounded [⟨overHalf, atomics 1000000⟩] (atomics 100000) 6 .zero unitBounds)
    (p := fun plan => decide (plan.worstCaseDebit.toRat
        < (atomics 100000 : ShareAmount).toRat * plan.limitPrice.toRat
      ∧ plan.shares.toRat < floorTo 6 (atomics 100000 : ShareAmount).toRat)) (by decide +kernel)
  exact ⟨plan, hok, of_decide_eq_true hp⟩

end PredictionEdge
