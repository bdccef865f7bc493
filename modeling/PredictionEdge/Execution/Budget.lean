import PredictionEdge.Execution.FeeReserve

/-!
# A principal for a budget

The principal of a dollar order is the budget divided by one plus the fee of a dollar at
the best ask, floored. Its own fee, rounded up to five decimals, may push it past the
budget again, by ten millionths at most; the excess is taken off once, and the fee of the
smaller principal is no larger. So the last check of `principal_for_budget` never fails,
and the principal is at most twelve millionths short of the quotient.

All of this survives the rounding of the decimals. What does not is the ceiling of the
exact fee: the check takes the ceiling of a product that was rounded, and a fee just above
a step of five decimals may have been rounded onto it.
-/

namespace PredictionEdge

open Lib

variable {arith : DecimalArith} {rate : Decimal} {floor ceiling : Price}

/-- `principal * rate * (1 - floor)`, as the decimals compute it. -/
def budgetFee (arith : DecimalArith) (principal rate floor : Decimal) : Option Decimal := do
  let value ← arith.checkedMul principal rate
  arith.checkedMul value (← arith.checkedSub .one floor)

/-- The fee of a dollar at the best price of the band. -/
def feeRatio (rate : Decimal) (floor : Price) : ℚ := rate.val * (1 - floor.toRat)

theorem feeRatio_nonneg (hr0 : 0 ≤ rate.val) (hf : floor.InUnit) : 0 ≤ feeRatio rate floor :=
  mul_nonneg hr0 (by linarith [hf.2])

theorem feeRatio_le_one (hr1 : rate.val < 1) (hf : floor.InUnit) : feeRatio rate floor ≤ 1 :=
  mul_le_one₀ hr1.le (by linarith [hf.2]) (by linarith [hf.1])

/-! ## The fee of a principal -/

/-- What the decimals make of the fee: near its exact value, and never more than the principal. -/
structure BudgetFee (arith : DecimalArith) (rate : Decimal) (floor : Price) (principal fee : Decimal) :
    Prop where
  eq_some : budgetFee arith principal rate floor.val = some fee
  nonneg : 0 ≤ fee.val
  le : fee.val ≤ principal.val
  near : NearBy 3 (principal.val * feeRatio rate floor) fee.val
  eq_of_fits : Representable (principal.val * rate.val) →
    Representable (principal.val * rate.val * (1 - floor.toRat)) →
    fee.val = principal.val * rate.val * (1 - floor.toRat)

theorem exists_budgetFee (law : arith.Lawful) (faithful : arith.Faithful) (hr0 : 0 ≤ rate.val)
    (hr1 : rate.val < 1) (hf : floor.InUnit) (amount : CollateralAmount) :
    ∃ fee, BudgetFee arith rate floor amount.toDecimal fee := by
  have hp0 : 0 ≤ amount.toDecimal.val := amount.toRat_nonneg
  have hp1 : amount.toDecimal.val ≤ 2 * 10 ^ 13 := amount.toRat_le.le.trans (by norm_num)
  generalize amount.toDecimal = principal at *
  have hx0 : 0 ≤ principal.val * rate.val := mul_nonneg hp0 hr0
  have hxle : principal.val * rate.val ≤ principal.val := mul_le_of_le_one_right hp0 hr1.le
  obtain ⟨value, hvalue⟩ := Option.isSome_iff_exists.mp (law.mul_some principal rate (by
    rw [abs_of_nonneg hx0]
    exact (hxle.trans hp1).trans_lt (by norm_num)))
  have hnear : NearBy 1 (principal.val * rate.val) value.val :=
    nearBy_of_error hx0 (law.mul_near _ _ _ hvalue)
  have hvalue0 : 0 ≤ value.val := law.mul_nonneg _ _ _ hp0 hr0 hvalue
  have hvalue1 : value.val ≤ principal.val := faithful.mul_le _ _ _ principal hvalue hxle
  obtain ⟨q, hsub, hq⟩ := checkedSub_one law hf.1 hf.2
  have hq : q.val = 1 - floor.toRat := hq
  have hq0 : 0 ≤ q.val := by rw [hq]; linarith [hf.2]
  have hq1 : q.val ≤ 1 := by rw [hq]; linarith [hf.1]
  obtain ⟨fee, hfee⟩ := Option.isSome_iff_exists.mp
    (hnear.mul_isSome law (by norm_num) hx0 (hxle.trans hp1) hq0 hq1)
  have hnear' : NearBy 3 (principal.val * rate.val * q.val) fee.val :=
    hnear.mul law (by norm_num) (by norm_num) (by norm_num) hx0 hq0 hq1 hfee
  refine ⟨fee, ?_, law.mul_nonneg value q fee hvalue0 hq0 hfee, ?_, ?_, ?_⟩
  · simp only [budgetFee, hvalue, hsub, Option.bind_eq_bind, Option.bind_some, hfee]
  · exact faithful.mul_le value q fee principal hfee
      ((mul_le_of_le_one_right hvalue0 hq1).trans hvalue1)
  · rw [hq, mul_assoc] at hnear'
    exact hnear'
  · intro hrep hrep'
    have hval : value.val = principal.val * rate.val := law.mul_val hvalue hrep
    rw [law.mul_val hfee (by rw [hval, hq]; exact hrep'), hval, hq]

variable {principal : CollateralAmount} {fee : Decimal}

/-- **A principal with its reserve.** It fits a `u64` while the principal is below `2 ^ 62`. -/
theorem allInReserve_eq (law : arith.Lawful) (hr0 : 0 ≤ rate.val) (hr1 : rate.val < 1)
    (hfee : BudgetFee arith rate floor principal.toDecimal fee)
    (hsmall : principal.toRat ≤ 5 * 10 ^ 12) :
    ∃ allIn, allInReserve arith (.taker rate) principal floor = .ok allIn
      ∧ allIn.toRat = principal.toRat + ceilTo 5 fee.val := by
  have hceil0 : 0 ≤ ceilTo 5 fee.val := hfee.nonneg.trans (le_ceilTo_self 5 _)
  have hceil1 : ceilTo 5 fee.val < 6 * 10 ^ 12 := by
    refine (ceilTo_lt_add 5 _).trans_le ?_
    have hle : fee.val ≤ principal.toRat := hfee.le
    linarith
  obtain ⟨reserve, hreserve⟩ : ∃ reserve : CollateralAmount,
      reserve.toRat = ceilTo 5 fee.val :=
    ExactAmount.exists_toRat ((onGrid_ceilTo 5 _).mono (by decide)) hceil0
      (hceil1.trans (by norm_num))
  obtain ⟨allIn, hallIn⟩ : ∃ allIn : CollateralAmount,
      allIn.toRat = principal.toRat + reserve.toRat :=
    ExactAmount.exists_toRat (principal.onGrid_toRat.add reserve.onGrid_toRat)
      (add_nonneg principal.toRat_nonneg reserve.toRat_nonneg) (by
        linarith)
  refine ⟨allIn, ?_, by rw [hallIn, hreserve]⟩
  have hsome := hfee.eq_some
  simp only [budgetFee, Option.bind_eq_bind, Option.bind_eq_some_iff] at hsome
  obtain ⟨value, hvalue, complement, hcomplement, hmul⟩ := hsome
  have hrate := validatedRate_taker.mpr ⟨rfl, hr0, hr1⟩
  rw [allInReserve, hrate]
  refine bind_eq_ok.mpr ⟨some rate, rfl, ?_⟩
  refine bind_eq_ok.mpr ⟨value, okOr_eq_ok.mpr hvalue, ?_⟩
  refine bind_eq_ok.mpr ⟨complement, okOr_eq_ok.mpr hcomplement, ?_⟩
  refine bind_eq_ok.mpr ⟨fee, okOr_eq_ok.mpr hmul, ?_⟩
  refine bind_eq_ok.mpr ⟨reserve, (feeAmount_ok law (onGrid_ceilTo 5 _)).mpr hreserve, ?_⟩
  rw [mapError_eq_ok, ExactAmount.checkedAdd_ok]
  unfold ExactAmount.toRat at hallIn
  rw [← add_div, div_left_inj' (by positivity)] at hallIn
  exact_mod_cast hallIn.symm

/-! ## The quotient -/

/-- The quotient that a principal is floored from, and how far it is from the exact one. -/
structure BudgetQuotient (arith : DecimalArith) (rate : Decimal) (floor : Price)
    (budget raw : Decimal) : Prop where
  chain : ∃ complement ratio divisor, arith.checkedSub .one floor.val = some complement
    ∧ arith.checkedMul rate complement = some ratio ∧ arith.checkedAdd .one ratio = some divisor
    ∧ arith.checkedDiv budget divisor = some raw
  nonneg : 0 ≤ raw.val
  le_budget : raw.val ≤ budget.val
  mul_le : raw.val * (1 + feeRatio rate floor) ≤ budget.val + 1 / 10 ^ 13
  div_le : budget.val / (1 + feeRatio rate floor) ≤ raw.val + 1 / 10 ^ 13

/-- Two divisors that differ in the last digit give quotients that are as near. -/
theorem quotient_near {b d s y : ℚ} (hb0 : 0 ≤ b) (hb1 : b ≤ 5 * 10 ^ 12) (hd1 : 1 ≤ d)
    (hs1 : 1 ≤ s) (hs2 : s ≤ 2) (hds : |d - s| ≤ 1 / 10 ^ 28)
    (hy : |y - b / d| ≤ (1 + b / d) / 10 ^ 28) :
    y * s ≤ b + 1 / 10 ^ 13 ∧ b / s ≤ y + 1 / 10 ^ 13 := by
  have hd0 : 0 < d := by linarith
  have hx : b / d * d = b := div_mul_cancel₀ b hd0.ne'
  have hx0 : 0 ≤ b / d := div_nonneg hb0 hd0.le
  have hx1 : b / d ≤ 5 * 10 ^ 12 := (div_le_self hb0 hd1).trans hb1
  generalize b / d = x at *
  -- the quotient, multiplied back with the other divisor
  have hback : |x * s - b| ≤ 1 / 10 ^ 15 := by
    rw [← hx, ← mul_sub, abs_mul, abs_of_nonneg hx0, abs_sub_comm]
    calc x * |d - s| ≤ 5 * 10 ^ 12 * (1 / 10 ^ 28) := by gcongr
      _ ≤ 1 / 10 ^ 15 := by norm_num
  have herr : |y - x| ≤ 1 / 10 ^ 15 := by
    refine hy.trans ?_
    calc (1 + x) / 10 ^ 28 ≤ (1 + 5 * 10 ^ 12) / 10 ^ 28 := by gcongr
      _ ≤ 1 / 10 ^ 15 := by norm_num
  obtain ⟨hback1, hback2⟩ := abs_le.mp hback
  obtain ⟨herr1, herr2⟩ := abs_le.mp herr
  constructor
  · have hstep : (y - x) * s ≤ 1 / 10 ^ 15 * 2 :=
      mul_le_mul herr2 hs2 (by linarith) (by norm_num)
    linarith
  · rw [div_le_iff₀ (by linarith)]
    have hstep : (x - y) * s ≤ 1 / 10 ^ 15 * 2 :=
      mul_le_mul (by linarith) hs2 (by linarith) (by norm_num)
    linarith

theorem exists_budgetQuotient (law : arith.Lawful) (faithful : arith.Faithful) (hr0 : 0 ≤ rate.val)
    (hr1 : rate.val < 1) (hf : floor.InUnit) {budget : Decimal}
    (hb0 : budget.val = 0 ∨ 1 / 10 ^ 6 ≤ budget.val) (hb1 : budget.val ≤ 5 * 10 ^ 12) :
    ∃ raw, BudgetQuotient arith rate floor budget raw := by
  have hρ0 := feeRatio_nonneg hr0 hf
  have hρ1 := feeRatio_le_one hr1 hf
  have hbn : 0 ≤ budget.val := by
    rcases hb0 with h | h
    · exact h.ge
    · exact le_trans (by norm_num) h
  obtain ⟨q, hsub, hq⟩ := checkedSub_one law hf.1 hf.2
  have hprod : rate.val * q.val = feeRatio rate floor := by rw [hq]; rfl
  obtain ⟨ratio, hratio⟩ := Option.isSome_iff_exists.mp (law.mul_some rate q (by
    rw [hprod, abs_of_nonneg hρ0]
    exact hρ1.trans_lt (by norm_num)))
  have hratio0 : 0 ≤ ratio.val :=
    law.mul_nonneg rate q ratio hr0 (by rw [hq]; exact sub_nonneg.mpr hf.2) hratio
  have hratio1 : ratio.val ≤ 1 := faithful.mul_le rate q ratio .one hratio (by rw [hprod]; exact hρ1)
  have hnear := law.mul_near rate q ratio hratio
  rw [hprod] at hnear
  have hratioErr : |ratio.val - feeRatio rate floor| ≤ 1 / 10 ^ 28 :=
    hnear.trans (decimalError_of_le le_rfl (by rw [abs_of_nonneg hρ0]; exact hρ1))
  -- one plus the ratio is exact
  have hrep : Representable (Decimal.one.val + ratio.val) :=
    Decimal.representable_one_add ratio.repr hratio0 hratio1
  have hdivisor := law.add_exact .one ratio hrep
  generalize hdiv : (⟨Decimal.one.val + ratio.val, hrep⟩ : Decimal) = divisor at hdivisor
  have hdval : divisor.val = 1 + ratio.val := by rw [← hdiv]; rfl
  have hd1 : 1 ≤ divisor.val := by rw [hdval]; linarith
  have hx0 : 0 ≤ budget.val / divisor.val := div_nonneg hbn (by linarith)
  have hxle : budget.val / divisor.val ≤ budget.val := div_le_self hbn hd1
  obtain ⟨raw, hraw⟩ := Option.isSome_iff_exists.mp
    (law.div_some budget divisor (by linarith) (by
      rw [abs_of_nonneg hx0]
      exact (hxle.trans hb1).trans_lt (by norm_num)))
  have hrawErr : |raw.val - budget.val / divisor.val| ≤ (1 + budget.val / divisor.val) / 10 ^ 28 := by
    have h := (law.div_near _ _ _ hraw).2.trans (decimalError_le _)
    rwa [abs_of_nonneg hx0] at h
  have hds : |divisor.val - (1 + feeRatio rate floor)| ≤ 1 / 10 ^ 28 := by
    rw [hdval, add_sub_add_left_eq_sub]
    exact hratioErr
  obtain ⟨hmul, hquot⟩ := quotient_near hbn hb1 hd1 (by linarith) (by linarith) hds hrawErr
  refine ⟨raw, ⟨q, ratio, divisor, hsub, hratio, hdivisor, hraw⟩, ?_,
    faithful.div_le _ _ _ budget hraw hxle, hmul, hquot⟩
  -- a budget of nothing is divided exactly; any other is far from the rounding error
  rcases hb0 with hzero | hpos
  · have hexact : budget.val / divisor.val = 0 := by rw [hzero, zero_div]
    have hval := law.div_val hraw (by rw [hexact]; exact Decimal.zero.repr)
    rw [hval, hexact]
  · have hhalf : 1 / 10 ^ 7 ≤ budget.val / divisor.val := by
      rw [le_div_iff₀ (by linarith)]
      linarith
    have hlow := (abs_le.mp hrawErr).1
    linarith

/-! ## Taking the excess off -/

theorem ExactAmount.atomic_lt_add {a b : CollateralAmount} {n : Nat}
    (h : a.toRat < b.toRat + n / 10 ^ 6) : a.atomic < b.atomic + n := by
  unfold ExactAmount.toRat at h
  rw [← add_div, div_lt_div_iff_of_pos_right (by positivity)] at h
  exact_mod_cast h

theorem ExactAmount.toRat_add_div {a b : CollateralAmount} {n : Nat}
    (h : a.atomic = b.atomic + n) : a.toRat = b.toRat + n / 10 ^ 6 := by
  unfold ExactAmount.toRat
  rw [h, ← add_div]
  push_cast
  rfl

/--
**A smaller principal has no larger reserve.**

Either a millionth of the principal changes the fee by more than the rounding does, or the
rate is so small that the fee is less than one step of five decimals anyway.
-/
theorem budgetFee_le_reserve (hr0 : 0 ≤ rate.val) (hf : floor.InUnit) {p p' fee' : Decimal}
    (h : BudgetFee arith rate floor p fee) (h' : BudgetFee arith rate floor p' fee')
    (hp1 : p.val ≤ 5 * 10 ^ 12) (hless : p'.val + 1 / 10 ^ 6 ≤ p.val) (hpos : 0 < ceilTo 5 fee.val) :
    fee'.val ≤ ceilTo 5 fee.val := by
  have hρ0 := feeRatio_nonneg hr0 hf
  have hx : p.val * feeRatio rate floor ≤ 5 * 10 ^ 12 * feeRatio rate floor := by gcongr
  have hgap : (p'.val + 1 / 10 ^ 6) * feeRatio rate floor ≤ p.val * feeRatio rate floor := by gcongr
  have hnear := (abs_le.mp h.near).1
  have hnear' := (abs_le.mp h'.near).2
  generalize feeRatio rate floor = ρ at *
  by_cases hsmall : ρ ≤ 1 / 10 ^ 21
  · have hstep : 1 / 10 ^ 5 ≤ ceilTo 5 fee.val := by
      obtain ⟨n, hn⟩ := onGrid_ceilTo 5 fee.val
      rw [hn] at hpos ⊢
      have hn1 : (0 : ℚ) < n := by
        by_contra hneg
        exact absurd hpos (not_lt.mpr (div_nonpos_of_nonpos_of_nonneg (not_lt.mp hneg) (by norm_num)))
      have hn2 : (1 : ℚ) ≤ n := by exact_mod_cast (show (0 : ℤ) < n by exact_mod_cast hn1)
      gcongr
    linarith
  · refine le_trans ?_ (le_ceilTo_self 5 fee.val)
    linarith

/-- What the one correction leaves: a principal that fits, at most ten millionths less. -/
theorem exists_reducedPrincipal (law : arith.Lawful) (faithful : arith.Faithful)
    (hr0 : 0 ≤ rate.val) (hr1 : rate.val < 1) (hf : floor.InUnit)
    {budget allIn : CollateralAmount} (hfee : BudgetFee arith rate floor principal.toDecimal fee)
    (hsmall : principal.toRat ≤ 5 * 10 ^ 12) (hle : principal.toRat ≤ budget.toRat)
    (hallIn : allIn.toRat = principal.toRat + ceilTo 5 fee.val)
    (hexcess : allIn.atomic ≤ budget.atomic + 10) :
    ∃ principal' fee', reducedPrincipal principal budget allIn = .ok principal'
      ∧ BudgetFee arith rate floor principal'.toDecimal fee'
      ∧ principal'.toRat + ceilTo 5 fee'.val ≤ budget.toRat
      ∧ principal'.toRat ≤ 5 * 10 ^ 12
      ∧ (principal' ≠ .zero → principal.atomic ≤ principal'.atomic + 10) := by
  by_cases hfits : budget < allIn
  · have hlt : budget.atomic < allIn.atomic := hfits
    obtain ⟨excess, hsub⟩ : ∃ excess : CollateralAmount, allIn.checkedSub budget = .ok excess :=
      ⟨_, if_pos hlt.le⟩
    have hexc := ExactAmount.checkedSub_ok.mp hsub
    by_cases hall : principal ≤ excess
    · -- the excess takes the whole principal
      obtain ⟨fee', hfee'⟩ := exists_budgetFee law faithful hr0 hr1 hf .zero
      have hzero : (ExactAmount.zero : CollateralAmount).toRat = 0 := ExactAmount.toRat_eq_zero_iff.mpr rfl
      have hfee0 : fee'.val = 0 := le_antisymm (hzero ▸ hfee'.le) hfee'.nonneg
      refine ⟨.zero, fee', ?_, hfee', ?_, by rw [hzero]; norm_num, fun h => absurd rfl h⟩
      · simp only [reducedPrincipal, if_pos hfits, hsub, Except.mapError, bind, Except.bind,
          if_pos hall]
        rfl
      · rw [hzero, hfee0, zero_add]
        simp only [ceilTo, zero_mul, Int.ceil_zero, Int.cast_zero, zero_div]
        exact budget.toRat_nonneg
    · have hlt' : excess.atomic < principal.atomic := Nat.lt_of_not_le hall
      obtain ⟨principal', hsub'⟩ : ∃ principal' : CollateralAmount,
          principal.checkedSub excess = .ok principal' := ⟨_, if_pos hlt'.le⟩
      have hred := ExactAmount.checkedSub_ok.mp hsub'
      obtain ⟨fee', hfee'⟩ := exists_budgetFee law faithful hr0 hr1 hf principal'
      have hprat := ExactAmount.toRat_add_div hred
      have harat := ExactAmount.toRat_add_div (hexc.trans (Nat.add_comm _ _))
      -- the reserve was positive, or there would have been no excess
      have hpos : 0 < ceilTo 5 fee.val := by
        have : budget.toRat < allIn.toRat := by
          have : (0 : ℚ) < excess.atomic := by exact_mod_cast (by omega : 0 < excess.atomic)
          linarith
        linarith
      have hone : (1 : ℚ) / 10 ^ 6 ≤ excess.atomic / 10 ^ 6 := by
        have : (1 : ℚ) ≤ excess.atomic := by exact_mod_cast (by omega : 1 ≤ excess.atomic)
        gcongr
      have hreserve : ceilTo 5 fee'.val ≤ ceilTo 5 fee.val :=
        ceilTo_le (onGrid_ceilTo 5 _)
          (budgetFee_le_reserve hr0 hf hfee hfee' hsmall
            (show principal'.toRat + 1 / 10 ^ 6 ≤ principal.toRat by rw [hprat]; linarith) hpos)
      refine ⟨principal', fee', ?_, hfee', by linarith, by linarith, fun _ => by omega⟩
      simp only [reducedPrincipal, if_pos hfits, hsub, Except.mapError, bind, Except.bind,
        if_neg hall, hsub']
  · refine ⟨principal, fee, ?_, hfee, ?_, hsmall, fun _ => by omega⟩
    · simp only [reducedPrincipal, if_neg hfits]
      rfl
    · rw [← hallIn]
      exact ExactAmount.toRat_le_iff.mpr (Nat.le_of_not_lt hfits)

/-! ## The principal -/

theorem principalForBudget_of {budget principal' allIn allIn' : CollateralAmount} {raw : Decimal}
    (hr0 : 0 ≤ rate.val) (hr1 : rate.val < 1) (hband : floor ≤ ceiling)
    (hraw : BudgetQuotient arith rate floor budget.toDecimal raw)
    (hprincipal : feeAmount arith (raw.roundDpWithStrategy 6 .toNegativeInfinity) = .ok principal)
    (hallIn : allInReserve arith (.taker rate) principal floor = .ok allIn)
    (hreduced : reducedPrincipal principal budget allIn = .ok principal')
    (hallIn' : allInReserve arith (.taker rate) principal' floor = .ok allIn')
    (hfits : allIn' ≤ budget) :
    principalForBudget arith (.taker rate) budget floor ceiling = .ok principal' := by
  obtain ⟨complement, ratio, divisor, hcomplement, hratio, hdivisor, hdiv⟩ := hraw.chain
  have hrate := validatedRate_taker.mpr ⟨rfl, hr0, hr1⟩
  rw [principalForBudget, hrate]
  refine bind_eq_ok.mpr ⟨(), refuseIf_of_not (show ¬ ceiling.toRat < floor.toRat from not_lt.mpr hband), ?_⟩
  refine bind_eq_ok.mpr ⟨some rate, rfl, ?_⟩
  refine bind_eq_ok.mpr ⟨complement, okOr_eq_ok.mpr hcomplement, ?_⟩
  refine bind_eq_ok.mpr ⟨ratio, okOr_eq_ok.mpr hratio, ?_⟩
  refine bind_eq_ok.mpr ⟨divisor, okOr_eq_ok.mpr hdivisor, ?_⟩
  refine bind_eq_ok.mpr ⟨raw, okOr_eq_ok.mpr hdiv, ?_⟩
  refine bind_eq_ok.mpr ⟨principal, hprincipal, ?_⟩
  refine bind_eq_ok.mpr ⟨allIn, hallIn, ?_⟩
  refine bind_eq_ok.mpr ⟨principal', hreduced, ?_⟩
  refine bind_eq_ok.mpr ⟨allIn', hallIn', ?_⟩
  exact bind_eq_ok.mpr ⟨(), refuseIf_of_not (Nat.not_lt.mpr hfits), rfl⟩

/--
**A principal for every budget.**

For every taker rate of `[0, 1)`, every band of the unit interval and every budget of at
most `2 ^ 62` there is a principal. With the ceiling of its fee, as the decimals compute
that fee, it fits the budget; the computed fee is the exact one whenever its products fit
a decimal. Unless it is zero, the principal is less than twelve millionths short of the
budget divided by one plus the fee of a dollar.
-/
theorem principalForBudget_fits (arith : DecimalArith) (law : arith.Lawful)
    (faithful : arith.Faithful) (rate : Decimal) (hr0 : 0 ≤ rate.val) (hr1 : rate.val < 1)
    (floor ceiling : Price) (hfloor : 0 ≤ floor.toRat) (hband : floor ≤ ceiling)
    (hceiling : ceiling.toRat ≤ 1) (budget : CollateralAmount) (hbudget : budget.atomic ≤ 2 ^ 62) :
    ∃ principal fee, principalForBudget arith (.taker rate) budget floor ceiling = .ok principal
      ∧ budgetFee arith principal.toDecimal rate floor.val = some fee
      ∧ principal.toRat + ceilTo 5 fee.val ≤ budget.toRat
      ∧ (Representable (principal.toRat * rate.val) →
          Representable (principal.toRat * rate.val * (1 - floor.toRat)) →
          fee.val = principal.toRat * rate.val * (1 - floor.toRat))
      ∧ (principal ≠ .zero →
          budget.toRat / (1 + rate.val * (1 - floor.toRat)) - principal.toRat < 12 / 10 ^ 6) := by
  have hf : floor.InUnit := ⟨hfloor, le_trans hband hceiling⟩
  have hρ0 := feeRatio_nonneg hr0 hf
  have hρ1 := feeRatio_le_one hr1 hf
  have hsmall : budget.toRat ≤ 5 * 10 ^ 12 := by
    have hcast : (budget.atomic : ℚ) ≤ 2 ^ 62 := by exact_mod_cast hbudget
    unfold ExactAmount.toRat
    rw [div_le_iff₀ (by positivity)]
    exact hcast.trans (by norm_num)
  have hgrid : budget.toDecimal.val = 0 ∨ 1 / 10 ^ 6 ≤ budget.toDecimal.val := by
    rw [ExactAmount.val_toDecimal, ExactAmount.toRat_eq_zero_iff, ExactAmount.eq_zero_iff]
    by_cases hzero : budget.atomic = 0
    · exact Or.inl hzero
    · right
      have : (1 : ℚ) ≤ budget.atomic := by exact_mod_cast Nat.one_le_iff_ne_zero.mpr hzero
      unfold ExactAmount.toRat
      gcongr
  obtain ⟨raw, hraw⟩ := exists_budgetQuotient law faithful hr0 hr1 hf hgrid hsmall
  have hraw1 : raw.val ≤ budget.toRat := hraw.le_budget
  have hrawMul : raw.val * (1 + feeRatio rate floor) ≤ budget.toRat + 1 / 10 ^ 13 := hraw.mul_le
  have hrawDiv : budget.toRat / (1 + feeRatio rate floor) ≤ raw.val + 1 / 10 ^ 13 := hraw.div_le
  -- the floored quotient
  obtain ⟨p, hp⟩ : ∃ p : CollateralAmount, p.toRat = floorTo 6 raw.val :=
    ExactAmount.exists_toRat (onGrid_floorTo 6 _) (floorTo_nonneg hraw.nonneg)
      (((floorTo_le 6 _).trans hraw1).trans_lt budget.toRat_le)
  have hple := floorTo_le 6 raw.val
  have hpgt := lt_floorTo_add 6 raw.val
  rw [← hp] at hple hpgt
  have hpAmount : feeAmount arith (raw.roundDpWithStrategy 6 .toNegativeInfinity) = .ok p := by
    rw [feeAmount, mapError_eq_ok, ExactAmount.fromDecimalExact_ok law (onGrid_floorTo 6 _)]
    exact hp
  obtain ⟨fee, hfee⟩ := exists_budgetFee law faithful hr0 hr1 hf p
  obtain ⟨allIn, hallIn, hallInVal⟩ := allInReserve_eq law hr0 hr1 hfee (by linarith)
  -- the ceiling adds less than a step of five decimals to what fits
  have hexcess : allIn.atomic ≤ budget.atomic + 10 := by
    refine Nat.le_of_lt_succ (ExactAmount.atomic_lt_add (n := 11) ?_)
    have hceil := ceilTo_lt_add 5 fee.val
    have hnear : fee.val - p.toRat * feeRatio rate floor
        ≤ 3 * (1 + p.toRat * feeRatio rate floor) / 10 ^ 28 := (abs_le.mp hfee.near).2
    have hmul : p.toRat * (1 + feeRatio rate floor) ≤ raw.val * (1 + feeRatio rate floor) := by
      gcongr
    have hx : p.toRat * feeRatio rate floor ≤ 5 * 10 ^ 12 * 1 :=
      mul_le_mul (by linarith) hρ1 hρ0 (by norm_num)
    linarith
  obtain ⟨p', fee', hreduced, hfee', hfits, hsmall', hshort⟩ :=
    exists_reducedPrincipal law faithful hr0 hr1 hf hfee (by linarith) (hple.trans hraw1) hallInVal
      hexcess
  obtain ⟨allIn', hallIn', hallInVal'⟩ := allInReserve_eq law hr0 hr1 hfee' hsmall'
  refine ⟨p', fee', ?_, hfee'.eq_some, hfits, hfee'.eq_of_fits, fun hne => ?_⟩
  · refine principalForBudget_of hr0 hr1 hband hraw hpAmount hallIn hreduced hallIn' ?_
    exact ExactAmount.toRat_le_iff.mp (by rw [hallInVal']; exact hfits)
  · have hten : p.toRat ≤ p'.toRat + 10 / 10 ^ 6 := by
      have hcast : (p.atomic : ℚ) ≤ p'.atomic + 10 := by exact_mod_cast hshort hne
      unfold ExactAmount.toRat
      rw [← add_div]
      gcongr
    show budget.toRat / (1 + feeRatio rate floor) - p'.toRat < 12 / 10 ^ 6
    linarith

/-! A rate whose last digit is lost in the product with a principal of ten cents. -/

def fineRate : Decimal :=
  ⟨(1000000000000000000000000001 : Nat) / 10 ^ 28,
    Decimal.representable_div (by decide) (by decide)⟩

def fineBudget : CollateralAmount := ⟨110001, by decide⟩

theorem fineBudget_fits :
    ∃ principal fee,
      principalForBudget .rounded (.taker fineRate) fineBudget .zero ⟨.one⟩ = .ok principal
        ∧ budgetFee .rounded principal.toDecimal fineRate Price.zero.val = some fee
        ∧ principal.toRat + ceilTo 5 fee.val ≤ fineBudget.toRat := by
  obtain ⟨principal, fee, hprincipal, hfee, hfits, _⟩ := principalForBudget_fits .rounded
    DecimalArith.rounded_lawful DecimalArith.rounded_faithful fineRate (by decide +kernel)
    (by decide +kernel) .zero ⟨.one⟩ (by decide +kernel) (by decide +kernel) (by decide +kernel)
    fineBudget (by decide +kernel)
  exact ⟨principal, fee, hprincipal, hfee, hfits⟩

/-- With the ceiling of the exact fee, one cent and a thousandth, the principal does not fit. -/
theorem fineBudget_exceeded :
    principalForBudget .rounded (.taker fineRate) fineBudget .zero ⟨.one⟩ = .ok ⟨100000, by decide⟩
      ∧ fineBudget.toRat < (⟨100000, by decide⟩ : CollateralAmount).toRat
        + ceilTo 5 ((⟨100000, by decide⟩ : CollateralAmount).toRat * fineRate.val
          * (1 - Price.zero.toRat)) := by
  decide +kernel

end PredictionEdge
