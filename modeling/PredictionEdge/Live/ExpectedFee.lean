import PredictionEdge.Execution.FeeReserve
import PredictionEdge.Live.AdmissionReplay

/-!
# The expected fee and the reserve

A composed record holds two fees of one order: the fee of the signed shares at the signed
price, truncated, and the reserve, the fee of the principal at the limit price and at the
top of the curve over the walked band, rounded up. The signed price may lie above the band,
so the two are of different quantities at different prices. What relates them is the
principal: up to the rounding the first is `principal · rate · (1 - signed)`, the second at
least `principal · rate · (1 - limit)`, and the signed price is not below the limit.

The rounding matters for prices of a few units of the last digit, where the quantity at the
limit is large enough to bring the rounding of the curve into view.
-/

namespace PredictionEdge

open Lib

variable {arith : DecimalArith} {best limit : Price}

/-! ## The curve over the band -/

/-- The highest point of the curve is at one half, or at the end of the band next to it. -/
theorem maximumCurvePrice_cases (best limit : Price) :
    1 / 2 ≤ limit.toRat ∧ (maximumCurvePrice best limit).val = 1 / 2
      ∨ limit.toRat < 1 / 2 ∧ (maximumCurvePrice best limit).val = limit.toRat
      ∨ 1 / 2 < best.toRat ∧ (maximumCurvePrice best limit).val = best.toRat := by
  unfold maximumCurvePrice
  split
  · rename_i hhalf
    exact .inl ⟨hhalf.2, rfl⟩
  · rename_i hno
    split
    · rename_i hlow
      exact .inr (.inl ⟨hlow, rfl⟩)
    · rename_i hlow
      have hlimit : 1 / 2 ≤ limit.toRat := not_lt.mp hlow
      exact .inr (.inr ⟨not_le.mp fun hle => hno ⟨hle, hlimit⟩, rfl⟩)

/-- The limit's curve is not above the one that was taken. -/
theorem curve_limit_le (h : best.toRat ≤ limit.toRat) :
    limit.toRat * (1 - limit.toRat)
      ≤ (maximumCurvePrice best limit).val * (1 - (maximumCurvePrice best limit).val) := by
  rcases maximumCurvePrice_cases best limit with ⟨_, htop⟩ | ⟨_, htop⟩ | ⟨hhalf, htop⟩
  · nlinarith [sq_nonneg (limit.toRat - 1 / 2)]
  · rw [htop]
  · -- the band lies above one half, where the curve falls
    nlinarith

theorem maximumCurvePrice_unit (hband : best.toRat ≤ limit.toRat) (h : limit.InUnit) :
    0 ≤ (maximumCurvePrice best limit).val ∧ (maximumCurvePrice best limit).val ≤ 1 := by
  rcases maximumCurvePrice_cases best limit with ⟨_, htop⟩ | ⟨_, htop⟩ | ⟨hhalf, htop⟩
  · rw [htop]
    norm_num
  · rw [htop]
    exact h
  · rw [htop]
    exact ⟨by linarith, hband.trans h.2⟩

/-- A decimal half a unit from a value just below another decimal is that decimal. -/
theorem onGrid_eq_of_near {c l x : ℚ} (hc : OnGrid 28 c) (hl : OnGrid 28 l)
    (hnear : |c - (l - x)| ≤ 1 / 2 / 10 ^ 28) (hx0 : 0 ≤ x) (hx : x < 1 / 2 / 10 ^ 28) : c = l := by
  obtain ⟨m, rfl⟩ := hc
  obtain ⟨n, rfl⟩ := hl
  obtain ⟨hlow, hhigh⟩ := abs_le.mp hnear
  have hdiff : ((m - n : ℤ) : ℚ) = (m / 10 ^ 28 - n / 10 ^ 28) * 10 ^ 28 := by
    push_cast
    ring
  have hlt : ((m - n : ℤ) : ℚ) < 1 := by rw [hdiff]; linarith
  have hgt : (-1 : ℚ) < ((m - n : ℤ) : ℚ) := by rw [hdiff]; linarith
  have : m = n := by
    have h1 : m - n < 1 := by exact_mod_cast hlt
    have h2 : -1 < m - n := by exact_mod_cast hgt
    omega
  rw [this]

/-! ## The two exact fees -/

/-- The figures of a signed order: what is paid for how much, at a price that is the quotient
of the two up to its rounding. -/
structure SignedFigures (debit shares price : ℚ) : Prop where
  debit_nonneg : 0 ≤ debit
  debit_le : debit ≤ 2 * 10 ^ 13
  shares_nonneg : 0 ≤ shares
  shares_le : shares ≤ 2 * 10 ^ 13
  price_nonneg : 0 ≤ price
  price_le : price ≤ 1
  le_cost : debit ≤ shares * (price + 2 / 10 ^ 28)
  cost_le : shares * (price - 2 / 10 ^ 28) ≤ debit

theorem signedFigures (law : arith.Lawful) {debit : CollateralAmount} {shares : ShareAmount}
    {price : Price} (h : signedPrice arith debit shares = .ok price) :
    SignedFigures debit.toRat shares.toRat price.toRat := by
  obtain ⟨_, hne, h⟩ := bind_eq_ok.mp h
  obtain ⟨ratio, hratio, hprice⟩ := bind_eq_ok.mp h
  rw [refuseIf_eq_ok, not_or] at hne
  rw [okOr_eq_ok] at hratio
  obtain ⟨rfl, hp0, hp1⟩ := Price.new_ok.mp (mapError_eq_ok.mp hprice)
  have hshares : 0 < shares.toRat :=
    lt_of_le_of_ne shares.toRat_nonneg fun h0 => hne.2 (ExactAmount.toRat_eq_zero_iff.mp h0.symm)
  have hx0 : 0 ≤ debit.toRat / shares.toRat := div_nonneg debit.toRat_nonneg hshares.le
  have herror : |ratio.val - debit.toRat / shares.toRat|
      ≤ decimalError (debit.toRat / shares.toRat) := (law.div_near _ _ _ hratio).2
  -- the exact quotient is hardly above one, so the error is that of a number of that size
  have hbound := decimalError_le (debit.toRat / shares.toRat)
  rw [abs_of_nonneg hx0] at hbound
  have hle : debit.toRat / shares.toRat ≤ 2 := by
    have := (abs_le.mp (herror.trans hbound)).1
    linarith
  have herror := abs_le.mp (herror.trans (decimalError_of_le (b := 2) (by norm_num) (by
    rw [abs_of_nonneg hx0]
    exact hle)))
  refine ⟨debit.toRat_nonneg, debit.toRat_le.le.trans (by norm_num), hshares.le,
    shares.toRat_le.le.trans (by norm_num), hp0, hp1, ?_, ?_⟩
  · show debit.toRat ≤ shares.toRat * (ratio.val + 2 / 10 ^ 28)
    rw [mul_comm, ← div_le_iff₀ hshares]
    linarith
  · show shares.toRat * (ratio.val - 2 / 10 ^ 28) ≤ debit.toRat
    rw [mul_comm, ← le_div_iff₀ hshares]
    linarith

section

variable {debit shares price r : ℚ}

/-- The fee of the signed shares is that of the principal at the signed price. -/
theorem SignedFigures.fee_le (h : SignedFigures debit shares price) (hr0 : 0 ≤ r) (hr1 : r ≤ 1) :
    shares * r * price * (1 - price) ≤ debit * (r * (1 - price)) + 1 / 10 ^ 14 := by
  have hq0 : 0 ≤ r * (1 - price) := mul_nonneg hr0 (by linarith [h.price_le])
  have hq1 : r * (1 - price) ≤ 1 := mul_le_one₀ hr1 (by linarith [h.price_le])
    (by linarith [h.price_nonneg])
  have hcost : shares * price ≤ debit + 4 * 10 ^ 13 / 10 ^ 28 := by
    have hle := h.cost_le
    have hs := h.shares_le
    linarith
  calc shares * r * price * (1 - price) = shares * price * (r * (1 - price)) := by ring
    _ ≤ (debit + 4 * 10 ^ 13 / 10 ^ 28) * (r * (1 - price)) := by gcongr
    _ = debit * (r * (1 - price)) + 4 * 10 ^ 13 / 10 ^ 28 * (r * (1 - price)) := by ring
    _ ≤ debit * (r * (1 - price)) + 4 * 10 ^ 13 / 10 ^ 28 * 1 := by gcongr
    _ ≤ debit * (r * (1 - price)) + 1 / 10 ^ 14 := by
        gcongr
        norm_num

/-- Where the quantity at the limit is not out of all proportion, the curve's rounding is
small in the reserve. -/
theorem SignedFigures.le_reserve_of_shares {l curve : ℚ} (h : SignedFigures debit shares price)
    (hr0 : 0 ≤ r) (hr1 : r ≤ 1) (hl0 : 0 < l) (hlp : l ≤ price) (hl1 : debit / l ≤ 6 * 10 ^ 13)
    (hcurve : l * (1 - l) - 1 / 2 / 10 ^ 28 ≤ curve) :
    debit * (r * (1 - price)) ≤ debit / l * r * curve + 1 / 10 ^ 14 := by
  have hx0 : 0 ≤ debit / l := div_nonneg h.debit_nonneg hl0.le
  have hlose : debit / l * r * (1 / 2 / 10 ^ 28) ≤ 1 / 10 ^ 14 := by
    calc debit / l * r * (1 / 2 / 10 ^ 28) ≤ 6 * 10 ^ 13 * 1 * (1 / 2 / 10 ^ 28) := by gcongr
      _ ≤ 1 / 10 ^ 14 := by norm_num
  have hprincipal : debit / l * l = debit := div_mul_cancel₀ _ hl0.ne'
  calc debit * (r * (1 - price)) ≤ debit * (r * (1 - l)) := by
        have := h.debit_nonneg
        gcongr
    _ = debit / l * r * (l * (1 - l)) := by rw [← hprincipal]; field_simp
    _ ≤ debit / l * r * (curve + 1 / 2 / 10 ^ 28) := by
        gcongr
        linarith
    _ = debit / l * r * curve + debit / l * r * (1 / 2 / 10 ^ 28) := by ring
    _ ≤ debit / l * r * curve + 1 / 10 ^ 14 := by gcongr

/-- Where the curve is at least that of the limit at the signed price, nothing is lost. -/
theorem SignedFigures.le_reserve_of_curve {l curve : ℚ} (h : SignedFigures debit shares price)
    (hr0 : 0 ≤ r) (hl0 : 0 < l) (hcurve : l * (1 - price) ≤ curve) :
    debit * (r * (1 - price)) ≤ debit / l * r * curve := by
  have hx0 : 0 ≤ debit / l := div_nonneg h.debit_nonneg hl0.le
  calc debit * (r * (1 - price)) = debit / l * r * (l * (1 - price)) := by field_simp
    _ ≤ debit / l * r * curve := by gcongr

/--
**The fee of the principal at the signed price is in the reserve.**

The rounding of the curve can be seen only where the quantity at the limit is out of
proportion to the signed shares. There the limit is far below the signed price, and the
rounding is less than what that difference brings, or the limit is so small that its curve
is rounded to the limit itself.
-/
theorem SignedFigures.le_reserve {l top curve : ℚ} (h : SignedFigures debit shares price)
    (hr0 : 0 ≤ r) (hr1 : r ≤ 1) (hl0 : 0 < l) (hlp : l ≤ price) (hlgrid : OnGrid 28 l)
    (hgrid : OnGrid 28 curve) (htop : 1 / 2 ≤ l ∨ top = l)
    (hle : l * (1 - l) ≤ top * (1 - top))
    (hcurve : |curve - top * (1 - top)| ≤ 1 / 2 / 10 ^ 28) :
    debit * (r * (1 - price)) ≤ debit / l * r * curve + 1 / 10 ^ 14 := by
  have hlow : l * (1 - l) - 1 / 2 / 10 ^ 28 ≤ curve := by linarith [(abs_le.mp hcurve).1]
  rcases htop with hhalf | rfl
  · refine h.le_reserve_of_shares hr0 hr1 hl0 hlp ?_ hlow
    rw [div_le_iff₀ hl0]
    linarith [h.debit_le]
  · by_cases hsmall : top * top < 1 / 2 / 10 ^ 28
    · have heq : curve = top := onGrid_eq_of_near (x := top * top) hgrid hlgrid
        (by rw [mul_sub, mul_one] at hcurve; exact hcurve) (mul_self_nonneg top) hsmall
      refine (h.le_reserve_of_curve hr0 hl0 ?_).trans (le_add_of_nonneg_right (by norm_num))
      rw [heq]
      exact mul_le_of_le_one_right hl0.le (by linarith [h.price_nonneg])
    · by_cases hfar : 2 * top ≤ price
      · refine (h.le_reserve_of_curve hr0 hl0 ?_).trans (le_add_of_nonneg_right (by norm_num))
        have hgain : top * top ≤ top * (price - top) := by gcongr; linarith
        linarith
      · refine h.le_reserve_of_shares hr0 hr1 hl0 hlp ?_ hlow
        have htiny : 2 / 10 ^ 28 ≤ top := by
          by_contra hlt
          exact hsmall ((mul_self_lt_mul_self hl0.le (not_le.mp hlt)).trans (by norm_num))
        rw [div_le_iff₀ hl0]
        calc debit ≤ shares * (price + 2 / 10 ^ 28) := h.le_cost
          _ ≤ 2 * 10 ^ 13 * (3 * top) := by
              have := h.shares_le
              have := h.price_nonneg
              gcongr
              linarith
          _ = 6 * 10 ^ 13 * top := by ring

end

/-! ## The recorded fees -/

/-- **The expected fee fits into the reserve.** -/
theorem expectedFee_le_reserve (law : arith.Lawful) (nearest : arith.MulNearest) {rate : Decimal}
    {debit fee reserve : CollateralAmount} {shares : ShareAmount} {price : Price}
    (hlimit0 : 0 ≤ limit.toRat) (hlimit : limit.toRat ≤ price.toRat)
    (hprice : signedPrice arith debit shares = .ok price)
    (hfee : takerFee arith (.taker rate) shares price = .ok fee)
    (hreserve : feeReserve arith (.taker rate) debit best limit = .ok reserve) : fee ≤ reserve := by
  have hfigures := signedFigures law hprice
  obtain ⟨hr0, hr1, implied, complement, curve, value, z, hfrom⟩ :=
    feeReserve_ok (signedPrice_debit_ne hprice) hreserve
  have hband := feeReserve_band hreserve
  have hl0 : 0 < limit.toRat :=
    lt_of_le_of_ne hlimit0 fun h0 => (law.div_near _ _ _ hfrom.shares_eq).1 h0.symm
  have hunit : limit.InUnit := ⟨hlimit0, hlimit.trans hfigures.price_le⟩
  have hcases := maximumCurvePrice_cases best limit
  have hle := curve_limit_le hband
  obtain ⟨htop0, htop1⟩ := maximumCurvePrice_unit hband hunit
  generalize maximumCurvePrice best limit = top at *
  -- the curve is the nearest decimal
  obtain ⟨q, hq, hqv⟩ := checkedSub_one law htop0 htop1
  obtain rfl : q = complement := Option.some.inj (hq.symm.trans hfrom.complement_eq)
  have hq0 : 0 ≤ q.val := by rw [hqv]; linarith
  have hprod0 : 0 ≤ top.val * q.val := mul_nonneg htop0 hq0
  have hprod1 : top.val * q.val ≤ 1 / 4 := by
    nlinarith [sq_nonneg (top.val - 1 / 2)]
  have hcurve := nearest _ _ _ hfrom.curve_eq (by rw [abs_of_nonneg hprod0]; linarith)
  have hcurve0 : 0 ≤ curve.val := law.mul_nonneg _ _ _ htop0 hq0 hfrom.curve_eq
  have hcurve1 : curve.val ≤ 1 := by
    have := (abs_le.mp hcurve).2
    linarith
  rw [hqv] at hcurve
  have hnear := hfrom.near law hlimit0 hr0 hr1.le hcurve0 hcurve1
  have htop : 1 / 2 ≤ limit.toRat ∨ top.val = limit.toRat := by
    rcases hcases with ⟨h, _⟩ | ⟨_, h⟩ | ⟨h, _⟩
    · exact .inl h
    · exact .inr h
    · exact .inl (h.le.trans hband)
  have hcover := hfigures.le_reserve hr0 hr1.le hl0 hlimit limit.val.onGrid curve.onGrid htop hle hcurve
  have hexact := hfigures.fee_le hr0 hr1.le
  -- the fee is truncated to a multiple of the step the reserve is rounded up to
  have hunit : (AskLevel.mk price shares).price.InUnit :=
    ⟨hfigures.price_nonneg, hfigures.price_le⟩
  obtain ⟨fee', y, hfee', hfloor, hy, hynear⟩ := takerFee_eq law hr0 hr1 hunit
  obtain rfl : fee' = fee := Except.ok.inj (hfee'.symm.trans hfee)
  refine ExactAmount.toRat_le_iff.mp ?_
  rw [hfloor, hfrom.ceil law]
  refine le_ceilTo (onGrid_floorTo 5 y) ?_
  have hfloor := floorTo_le 5 y
  have hbound : debit.toRat * (rate.val * (1 - price.toRat)) ≤ 2 * 10 ^ 13 * 1 :=
    mul_le_mul hfigures.debit_le
      (mul_le_one₀ hr1.le (by linarith [hfigures.price_le]) (by linarith [hfigures.price_nonneg]))
      (mul_nonneg hr0 (by linarith [hfigures.price_le])) (by norm_num)
  have hup := (abs_le.mp hynear).2
  have hdown := (abs_le.mp hnear).1
  unfold AskLevel.exactFee at hup
  linarith

/-- What a composition recorded of an order's fees. -/
structure EconomicPrepared.FeesOf (arith : DecimalArith) (inputs : EconomicInputs)
    (economic : EconomicPrepared) (price : Price) : Prop where
  signed : signedPrice arith inputs.plan.worstCaseDebit inputs.plan.shares = .ok price
  limit : inputs.plan.limitPrice.toRat ≤ price.toRat
  expected : takerFee arith inputs.admission.feeSchedule inputs.plan.shares price
    = .ok economic.fee.expectedFee
  reserve : feeReserve arith inputs.admission.feeSchedule inputs.plan.worstCaseDebit
    inputs.plan.bestAsk inputs.plan.limitPrice = .ok economic.fee.reserve
  allIn : ∃ allIn, economic.allInDebit = .ok allIn
  worstCase : ∃ worst, economic.worstCaseAllInDebit = .ok worst

theorem auditLadder_signed {plan : LadderPlan} {u : Unit} (h : auditLadder arith plan = .ok u) :
    ∃ price, signedPrice arith plan.worstCaseDebit plan.shares = .ok price
      ∧ plan.limitPrice.toRat ≤ price.toRat := by
  simp only [auditLadder, bind_eq_ok, mapError_eq_ok, refuseIf_eq_ok, not_or] at h
  obtain ⟨_, -, _, -, _, -, _, -, _, -, _, -, price, hprice, -, -, -, -, -, -, -, hlimit⟩ := h
  exact ⟨price, hprice, Price.le_of_not_lt hlimit⟩

theorem EconomicPrepared.compose_feesOf {inputs : EconomicInputs} {economic : EconomicPrepared}
    (h : compose arith inputs = .ok economic) : ∃ price, economic.FeesOf arith inputs price := by
  simp only [compose, bind_eq_ok, mapError_eq_ok, pure_eq_ok] at h
  obtain ⟨_, -, _, -, _, -, _, haudit, _, -, _, -, price, hprice, fee, hfee, reserve, hreserve,
    allIn, hallIn, _, -, worst, hworst, rfl⟩ := h
  obtain ⟨price', hprice', hlimit⟩ := auditLadder_signed haudit
  obtain rfl : price' = price := Except.ok.inj (hprice'.symm.trans hprice)
  exact ⟨price', hprice, hlimit, hfee, hreserve, ⟨allIn, hallIn⟩, ⟨worst, hworst⟩⟩

theorem EconomicPrepared.Composed.feesOf {inputs : EconomicInputs} {economic : EconomicPrepared}
    (h : Composed arith inputs economic) : ∃ price, economic.FeesOf arith inputs price := by
  rcases h with h | h
  · exact compose_feesOf h
  · simp only [composeWireTwo, bind_eq_ok, pure_eq_ok] at h
    obtain ⟨_, -, prepared, hprepared, rfl⟩ := h
    obtain ⟨price, hfees⟩ := compose_feesOf hprepared
    exact ⟨price, hfees.signed, hfees.limit, hfees.expected, hfees.reserve, hfees.allIn,
      hfees.worstCase⟩

/--
**A composed record expects no more than it reserves.**

Whatever plan a composition accepts with a taker schedule, the expected fee is at most the
reserve, so what the order is expected to cost is at most its worst case. The limit is a price
as `Price::new` makes them; the audit alone would let one through that is below zero by so
little that its cost rounds to nothing.
-/
theorem composed_expectedFee_le_reserve (arith : DecimalArith) (law : arith.Lawful)
    (nearest : arith.MulNearest) (inputs : EconomicInputs) (economic : EconomicPrepared)
    (rate : Decimal) (hschedule : inputs.admission.feeSchedule = .taker rate)
    (hlimit : 0 ≤ inputs.plan.limitPrice.toRat)
    (hcomposed : EconomicPrepared.Composed arith inputs economic) :
    economic.fee.expectedFee ≤ economic.fee.reserve
      ∧ ∃ allIn worst, economic.allInDebit = .ok allIn ∧ economic.worstCaseAllInDebit = .ok worst
        ∧ allIn ≤ worst := by
  obtain ⟨price, hfees⟩ := hcomposed.feesOf
  have hexpected := hfees.expected
  have hreserve := hfees.reserve
  rw [hschedule] at hexpected hreserve
  have hle := expectedFee_le_reserve law nearest hlimit hfees.limit hfees.signed hexpected hreserve
  obtain ⟨allIn, hallIn⟩ := hfees.allIn
  obtain ⟨worst, hworst⟩ := hfees.worstCase
  refine ⟨hle, allIn, worst, hallIn, hworst, ?_⟩
  unfold EconomicPrepared.allInDebit at hallIn
  unfold EconomicPrepared.worstCaseAllInDebit at hworst
  rw [ExactAmount.checkedAdd_ok] at hallIn hworst
  have hle : economic.fee.expectedFee.atomic ≤ economic.fee.reserve.atomic := hle
  show allIn.atomic ≤ worst.atomic
  omega

/-- Ten shares at a half, at a rate of one percent. -/
def takerInputs : EconomicInputs :=
  { SlowRead.inputs with admission := { SlowRead.artifact with feeSchedule := .taker SlowRead.tick.val } }

theorem takerInputs_expected :
    ∃ economic, EconomicPrepared.Composed .rounded takerInputs economic
      ∧ economic.fee.expectedFee.atomic = 25000
      ∧ economic.fee.expectedFee ≤ economic.fee.reserve := by
  obtain ⟨economic, hok, hfee⟩ := exists_ok_of_any
    (x := EconomicPrepared.compose .rounded takerInputs)
    (p := fun economic => decide (economic.fee.expectedFee.atomic = 25000)) (by decide +kernel)
  exact ⟨economic, .inl hok, of_decide_eq_true hfee, (composed_expectedFee_le_reserve .rounded
    DecimalArith.rounded_lawful DecimalArith.rounded_mulNearest takerInputs economic
    SlowRead.tick.val rfl (by decide +kernel) (.inl hok)).1⟩

end PredictionEdge
