import PredictionEdge.Venue.Ladder

/-!
# The fee of a fill and the reserve

The fee of a fill is a chain of products that is truncated to five decimals, the reserve of
an order a quotient and a chain of products that is rounded up to five. Each step of a
chain rounds to the nearest decimal, and the errors stay within a few units of the last
place.
-/

namespace PredictionEdge

open Lib

variable {arith : DecimalArith}

/-- The fee of a fill before it is truncated. -/
def AskLevel.exactFee (rate : ℚ) (a : AskLevel) : ℚ :=
  a.shares.toRat * rate * a.price.toRat * (1 - a.price.toRat)

/-! ## The fee of a fill -/

theorem feeAmount_ok (law : arith.Lawful) {value : Decimal} (h : OnGrid 5 value.val)
    {amount : CollateralAmount} : feeAmount arith value = .ok amount ↔ amount.toRat = value.val := by
  rw [feeAmount, mapError_eq_ok, ExactAmount.fromDecimalExact_ok law (h.mono (by decide))]

variable {rate : Decimal}

theorem validatedRate_taker {r : Option Decimal} :
    validatedRate (.taker rate) = .ok r ↔ r = some rate ∧ 0 ≤ rate.val ∧ rate.val < 1 := by
  simp only [validatedRate]
  split
  · rename_i h
    rw [Except.ok.injEq]
    exact ⟨fun hr => ⟨hr.symm, h⟩, fun hr => hr.1.symm⟩
  · rename_i h
    simp only [reduceCtorEq, false_iff]
    exact fun hr => h hr.2

/-- The complement of a price is exact. -/
theorem checkedSub_one (law : arith.Lawful) {p : Decimal} (h0 : 0 ≤ p.val) (h1 : p.val ≤ 1) :
    ∃ q, arith.checkedSub .one p = some q ∧ q.val = 1 - p.val :=
  ⟨_, law.sub_exact .one p (Decimal.representable_one_sub p.repr h0 h1), rfl⟩

/-- The three products of a fee stay within five units of the exact value. -/
theorem feeValue_near (law : arith.Lawful) {shares price : Decimal} (hs0 : 0 ≤ shares.val)
    (hs1 : shares.val ≤ 2 * 10 ^ 13) (hr0 : 0 ≤ rate.val) (hr1 : rate.val ≤ 1) (hp0 : 0 ≤ price.val)
    (hp1 : price.val ≤ 1) : ∃ y, feeValue arith shares rate price = some y ∧ 0 ≤ y.val
      ∧ NearBy 5 (shares.val * rate.val * price.val * (1 - price.val)) y.val := by
  have hx1 : 0 ≤ shares.val * rate.val := mul_nonneg hs0 hr0
  have hx1' : shares.val * rate.val ≤ 2 * 10 ^ 13 :=
    (mul_le_of_le_one_right hs0 hr1).trans hs1
  obtain ⟨y1, hy1⟩ := Option.isSome_iff_exists.mp (law.mul_some shares rate (by
    rw [abs_of_nonneg hx1]
    exact hx1'.trans_lt (by norm_num)))
  have hn1 : NearBy 1 (shares.val * rate.val) y1.val :=
    nearBy_of_error hx1 (law.mul_near _ _ _ hy1)
  have hx2 : 0 ≤ shares.val * rate.val * price.val := mul_nonneg hx1 hp0
  have hx2' : shares.val * rate.val * price.val ≤ 2 * 10 ^ 13 :=
    (mul_le_of_le_one_right hx1 hp1).trans hx1'
  obtain ⟨y2, hy2⟩ := Option.isSome_iff_exists.mp
    (hn1.mul_isSome law (by norm_num) hx1 hx1' hp0 hp1)
  have hn2 : NearBy 3 (shares.val * rate.val * price.val) y2.val :=
    hn1.mul law (by norm_num) (by norm_num) (by norm_num) hx1 hp0 hp1 hy2
  obtain ⟨q, hsub, hq⟩ := checkedSub_one law hp0 hp1
  have hq0 : 0 ≤ q.val := by rw [hq]; exact sub_nonneg.mpr hp1
  have hq1 : q.val ≤ 1 := by rw [hq]; exact sub_le_self _ hp0
  obtain ⟨y3, hy3⟩ := Option.isSome_iff_exists.mp
    (hn2.mul_isSome law (by norm_num) hx2 hx2' hq0 hq1)
  have hn3 : NearBy 5 (shares.val * rate.val * price.val * q.val) y3.val :=
    hn2.mul law (by norm_num) (by norm_num) (by norm_num) hx2 hq0 hq1 hy3
  rw [hq] at hn3
  refine ⟨y3, ?_, ?_, hn3⟩
  · simp only [feeValue, hy1, hy2, hsub, Option.bind_eq_bind, Option.bind_some, hy3]
  · exact law.mul_nonneg y2 q y3
      (law.mul_nonneg y1 price y2 (law.mul_nonneg shares rate y1 hs0 hr0 hy1) hp0 hy2) hq0 hy3

section

variable {rate : Decimal} {ask : AskLevel}

theorem exactFee_le (rate : Decimal) (hr1 : rate.val < 1) (hp : ask.price.InUnit) :
    ask.exactFee rate.val ≤ ask.shares.toRat / 2 := by
  have hs := ask.shares.toRat_nonneg
  have hq : 0 ≤ 1 - ask.price.toRat := by linarith [hp.2]
  have hcurve : ask.price.toRat * (1 - ask.price.toRat) ≤ 1 / 2 := by
    nlinarith [sq_nonneg (ask.price.toRat - 1 / 2)]
  have hcurve0 : 0 ≤ ask.price.toRat * (1 - ask.price.toRat) := mul_nonneg hp.1 hq
  calc ask.exactFee rate.val
      = ask.shares.toRat * rate.val * (ask.price.toRat * (1 - ask.price.toRat)) := by
        unfold AskLevel.exactFee; ring
    _ ≤ ask.shares.toRat * 1 * (1 / 2) := by gcongr
    _ = ask.shares.toRat / 2 := by ring

/-- **The fee of a fill** is its exact value, near enough, floored to five decimals. -/
theorem takerFee_eq (law : arith.Lawful) (hr0 : 0 ≤ rate.val) (hr1 : rate.val < 1)
    (hp : ask.price.InUnit) : ∃ (fee : CollateralAmount) (y : ℚ),
    takerFee arith (.taker rate) ask.shares ask.price = .ok fee
      ∧ fee.toRat = floorTo 5 y ∧ 0 ≤ y ∧ NearBy 5 (ask.exactFee rate.val) y := by
  have hs1 := ask.shares.toRat_le
  obtain ⟨y, hvalue, hpos, hnear⟩ := feeValue_near law ask.shares.toRat_nonneg
    (show ask.shares.toDecimal.val ≤ 2 * 10 ^ 13 from hs1.le.trans (by norm_num)) hr0 hr1.le
    hp.1 hp.2
  have hnear : NearBy 5 (ask.exactFee rate.val) y.val := hnear
  -- the floored value fits an amount
  have hfits : floorTo 5 y.val < 2 ^ 64 / 10 ^ 6 := by
    refine (floorTo_le _ _).trans_lt ?_
    have hle := exactFee_le rate hr1 hp
    have hup := (abs_le.mp hnear).2
    linarith
  obtain ⟨fee, hfee⟩ : ∃ fee : CollateralAmount, fee.toRat = floorTo 5 y.val :=
    ExactAmount.exists_toRat ((onGrid_floorTo 5 _).mono (by decide)) (floorTo_nonneg hpos)
      hfits
  have hrate := validatedRate_taker.mpr ⟨rfl, hr0, hr1⟩
  have hround := Decimal.val_truncate hpos 5
  refine ⟨fee, y.val, ?_, hfee, hpos, hnear⟩
  rw [takerFee, hrate]
  refine bind_eq_ok.mpr ⟨some rate, rfl, bind_eq_ok.mpr ⟨y, okOr_eq_ok.mpr hvalue, ?_⟩⟩
  exact (feeAmount_ok law (by rw [hround]; exact onGrid_floorTo 5 _)).mpr (by rw [hround, hfee])

end

/-! ## The reserve -/

variable {best limit : Price}

/-- What a reserve was computed from. -/
structure ReservedFrom (arith : DecimalArith) (rate top : Decimal) (debit : CollateralAmount)
    (limit : Price) (reserve : CollateralAmount) (shares complement curve value z : Decimal) :
    Prop where
  shares_eq : arith.checkedDiv debit.toDecimal limit.val = some shares
  complement_eq : arith.checkedSub .one top = some complement
  curve_eq : arith.checkedMul top complement = some curve
  value_eq : arith.checkedMul shares rate = some value
  z_eq : arith.checkedMul value curve = some z
  reserve_eq : feeAmount arith (z.roundDpWithStrategy 5 .toPositiveInfinity) = .ok reserve

variable {reserve debit : CollateralAmount}

theorem feeReserve_ok (hdebit : debit ≠ .zero)
    (h : feeReserve arith (.taker rate) debit best limit = .ok reserve) :
    0 ≤ rate.val ∧ rate.val < 1 ∧ ∃ shares complement curve value z,
      ReservedFrom arith rate (maximumCurvePrice best limit) debit limit reserve shares complement
        curve value z := by
  obtain ⟨_, _, h⟩ := bind_eq_ok.mp h
  obtain ⟨rate', hrate, h⟩ := bind_eq_ok.mp h
  obtain ⟨rfl, hr⟩ := validatedRate_taker.mp hrate
  dsimp only at h
  rw [if_neg hdebit] at h
  obtain ⟨shares, hshares, h⟩ := bind_eq_ok.mp h
  obtain ⟨complement, hcomplement, h⟩ := bind_eq_ok.mp h
  obtain ⟨curve, hcurve, h⟩ := bind_eq_ok.mp h
  obtain ⟨value, hvalue, h⟩ := bind_eq_ok.mp h
  obtain ⟨z, hz, h⟩ := bind_eq_ok.mp h
  obtain ⟨_, _, hshares⟩ := bind_eq_ok.mp hshares
  rw [okOr_eq_ok] at hshares hcomplement hcurve hvalue hz
  exact ⟨hr.1, hr.2, shares, complement, curve, value, z, hshares, hcomplement, hcurve, hvalue, hz, h⟩

theorem feeReserve_band {schedule : CompactFeeSchedule}
    (h : feeReserve arith schedule debit best limit = .ok reserve) : best.toRat ≤ limit.toRat := by
  obtain ⟨_, hband, _⟩ := bind_eq_ok.mp h
  exact Price.le_of_not_lt (refuseIf_eq_ok.mp hband)

namespace ReservedFrom

variable {rate top shares complement curve value z : Decimal} {limit : Price}

section

variable (law : arith.Lawful)
  (h : ReservedFrom arith rate top debit limit reserve shares complement curve value z)

include law h

/-- The quotient and the two products stay within five units of the exact value. -/
theorem near (hlimit : 0 ≤ limit.toRat) (hr0 : 0 ≤ rate.val) (hr1 : rate.val ≤ 1)
    (hcurve0 : 0 ≤ curve.val) (hcurve1 : curve.val ≤ 1) :
    NearBy 5 (debit.toRat / limit.toRat * rate.val * curve.val) z.val := by
  have hx0 : 0 ≤ debit.toRat / limit.toRat := div_nonneg debit.toRat_nonneg hlimit
  have hn1 : NearBy 1 (debit.toRat / limit.toRat) shares.val :=
    nearBy_of_error hx0 (law.div_near _ _ _ h.shares_eq).2
  have hn2 : NearBy 3 (debit.toRat / limit.toRat * rate.val) value.val :=
    hn1.mul law (by norm_num) (by norm_num) (by norm_num) hx0 hr0 hr1 h.value_eq
  exact hn2.mul law (by norm_num) (by norm_num) (by norm_num) (mul_nonneg hx0 hr0) hcurve0 hcurve1
    h.z_eq

theorem ceil : reserve.toRat = ceilTo 5 z.val :=
  (feeAmount_ok law (onGrid_ceilTo 5 z.val)).mp h.reserve_eq

end

end ReservedFrom

theorem signedPrice_debit_ne {shares : ShareAmount} {price : Price}
    (h : signedPrice arith debit shares = .ok price) : debit ≠ .zero := by
  obtain ⟨_, hne, _⟩ := bind_eq_ok.mp h
  rw [refuseIf_eq_ok, not_or] at hne
  exact hne.1

end PredictionEdge
