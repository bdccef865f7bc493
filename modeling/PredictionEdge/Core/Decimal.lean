import PredictionEdge.Lib.Grid

/-!
# Decimals

The arithmetic library keeps a decimal as a sign, a 96-bit coefficient and a scale of
at most 28. Two decimals with the same value are equal and compare equal whatever
their scales, so a decimal is modelled by its value together with the evidence that
some coefficient and scale represent it.

Sums, differences, products and quotients round when the exact result does not fit.
The rounding belongs to the library, so the four operations are a parameter of every
model that uses them, `DecimalArith`. What its documentation promises is
`DecimalArith.Lawful`: a result that fits is exact, any other is the nearest at the
largest scale that fits. `DecimalArith.rounded` computes just that.
-/

namespace PredictionEdge

open Lib

/-- Some coefficient below `2 ^ 96` and some scale of at most 28 represent `q`. -/
def Representable (q : ℚ) : Prop :=
  ∃ s < 29, (q * 10 ^ s).den = 1 ∧ (q * 10 ^ s).num.natAbs < 2 ^ 96

instance (q : ℚ) : Decidable (Representable q) :=
  inferInstanceAs (Decidable (∃ s < 29, (q * 10 ^ s).den = 1 ∧ (q * 10 ^ s).num.natAbs < 2 ^ 96))

/-- A value of the decimal library. -/
structure Decimal where
  val : ℚ
  repr : Representable val
  deriving DecidableEq

variable {x : ℚ} {d : Decimal}

namespace Decimal

instance : LE Decimal := ⟨fun a b => a.val ≤ b.val⟩
instance : LT Decimal := ⟨fun a b => a.val < b.val⟩
instance (a b : Decimal) : Decidable (a ≤ b) := inferInstanceAs (Decidable (a.val ≤ b.val))
instance (a b : Decimal) : Decidable (a < b) := inferInstanceAs (Decidable (a.val < b.val))

/-- A quotient by a power of ten, when numerator and exponent fit. -/
theorem representable_div {n s : Nat} (h : n < 2 ^ 96) (hs : s < 29) :
    Representable ((n : ℚ) / 10 ^ s) := by
  have he : (n : ℚ) / 10 ^ s * 10 ^ s = n := div_mul_cancel₀ _ (by positivity)
  exact ⟨s, hs, by rw [he]; rfl, by rw [he]; simpa using h⟩

theorem representable_iff {q : ℚ} :
    Representable q ↔ ∃ s < 29, ∃ c : ℤ, q = c / 10 ^ s ∧ |c| < 2 ^ 96 := by
  refine exists_congr fun s => and_congr_right fun _ => ?_
  have hpos := ten_pow_pos s
  constructor
  · rintro ⟨hden, hnum⟩
    refine ⟨(q * 10 ^ s).num, ?_, by rw [Int.abs_eq_natAbs]; omega⟩
    rw [eq_div_iff hpos.ne']
    exact ((Rat.den_eq_one_iff _).mp hden).symm
  · rintro ⟨c, hq, hc⟩
    have hcast : q * 10 ^ s = (c : ℚ) := by rw [hq, div_mul_cancel₀ _ hpos.ne']
    rw [hcast]
    exact ⟨rfl, by rw [Rat.num_intCast]; rw [Int.abs_eq_natAbs] at hc; omega⟩

/-- A value on a grid of at most 28 decimals, when its coefficient fits. -/
theorem representable_of_onGrid {dp : Nat} (h : OnGrid dp x) (hdp : dp < 29)
    (hx : |x| * 10 ^ dp < 2 ^ 96) : Representable x := by
  obtain ⟨n, rfl⟩ := h
  refine representable_iff.mpr ⟨dp, hdp, n, rfl, ?_⟩
  rw [abs_div, abs_of_pos (ten_pow_pos dp), div_mul_cancel₀ _ (ten_pow_pos dp).ne'] at hx
  exact_mod_cast hx

def zero : Decimal := ⟨0, 0, by decide, by simp, by simp⟩
def one : Decimal := ⟨1, 0, by decide, by simp, by simp⟩

@[simp] theorem val_zero : zero.val = 0 := rfl
@[simp] theorem val_one : one.val = 1 := rfl

theorem ext_val {a b : Decimal} (h : a.val = b.val) : a = b := by
  cases a; cases b; simp only at h; subst h; rfl

theorem lt_iff {a b : Decimal} : a < b ↔ a.val < b.val := Iff.rfl

/-- The complement of a price is a decimal. -/
theorem representable_one_sub {p : ℚ} (h : Representable p) (h0 : 0 ≤ p) (h1 : p ≤ 1) :
    Representable (1 - p) := by
  obtain ⟨s, hs, c, hp, _⟩ := representable_iff.mp h
  have hgrid : OnGrid s (1 - p) := by
    refine ⟨10 ^ s - c, ?_⟩
    rw [hp]
    push_cast
    field_simp
  refine representable_of_onGrid hgrid hs ?_
  have hle : (10 : ℚ) ^ s ≤ 10 ^ 28 := pow_le_pow_right₀ (by norm_num) (by omega)
  rw [abs_of_nonneg (by linarith)]
  calc (1 - p) * 10 ^ s ≤ 1 * 10 ^ 28 :=
        mul_le_mul (by linarith) hle (by positivity) (by norm_num)
    _ < 2 ^ 96 := by norm_num

/-- One and a fraction is a decimal. -/
theorem representable_one_add {p : ℚ} (h : Representable p) (h0 : 0 ≤ p) (h1 : p ≤ 1) :
    Representable (1 + p) := by
  obtain ⟨s, hs, c, hp, _⟩ := representable_iff.mp h
  have hgrid : OnGrid s (1 + p) := OnGrid.add ⟨10 ^ s, by simp⟩ ⟨c, hp⟩
  refine representable_of_onGrid hgrid hs ?_
  have hle : (10 : ℚ) ^ s ≤ 10 ^ 28 := pow_le_pow_right₀ (by norm_num) (by omega)
  rw [abs_of_nonneg (by linarith)]
  calc (1 + p) * 10 ^ s ≤ 2 * 10 ^ 28 :=
        mul_le_mul (by linarith) hle (by positivity) (by norm_num)
    _ < 2 ^ 96 := by norm_num

/-! ## Rounding to a number of decimals -/

/-- Rounding a decimal to fewer decimals leaves a decimal. -/
theorem representable_round {q : ℚ} (h : Representable q) (dp : Nat) {n : ℤ}
    (hlow : ⌊q * 10 ^ dp⌋ ≤ n) (hhigh : n ≤ ⌈q * 10 ^ dp⌉) :
    Representable ((n : ℚ) / 10 ^ dp) := by
  obtain ⟨s, hs, c, hq, hc⟩ := representable_iff.mp h
  by_cases hdp : s ≤ dp
  · -- no decimal is lost
    have hint : q * 10 ^ dp = ((c * 10 ^ (dp - s) : ℤ) : ℚ) := by
      have hpow : (10 : ℚ) ^ dp = 10 ^ s * 10 ^ (dp - s) := by
        rw [← pow_add, Nat.add_sub_cancel' hdp]
      rw [hq, hpow]
      push_cast
      field_simp
    rw [hint, Int.floor_intCast] at hlow
    rw [hint, Int.ceil_intCast] at hhigh
    have hn : (n : ℚ) = q * 10 ^ dp := by rw [hint, le_antisymm hhigh hlow]
    rw [hn, mul_div_cancel_right₀ _ (ten_pow_pos dp).ne']
    exact h
  · refine representable_iff.mpr ⟨dp, by omega, n, rfl, ?_⟩
    -- dividing the coefficient by a power of ten brings it nearer to zero
    have hpow : (10 : ℚ) ^ s = 10 ^ dp * 10 ^ (s - dp) := by
      rw [← pow_add, Nat.add_sub_cancel' (by omega)]
    have hval : q * 10 ^ dp = c / 10 ^ (s - dp) := by
      rw [hq, hpow]
      field_simp
    have hone : (1 : ℚ) ≤ 10 ^ (s - dp) := one_le_pow₀ (by norm_num)
    have habs : |(c : ℚ) / 10 ^ (s - dp)| ≤ ((|c| : ℤ) : ℚ) := by
      rw [abs_div, abs_of_pos (ten_pow_pos (s - dp)), Int.cast_abs]
      exact div_le_self (abs_nonneg _) hone
    have hb := abs_le.mp habs
    rw [hval] at hlow hhigh
    have h1 : -|c| ≤ ⌊(c : ℚ) / 10 ^ (s - dp)⌋ := Int.le_floor.mpr (by push_cast at hb ⊢; exact hb.1)
    have h2 : ⌈(c : ℚ) / 10 ^ (s - dp)⌉ ≤ |c| := Int.ceil_le.mpr hb.2
    exact lt_of_le_of_lt (abs_le.mpr ⟨h1.trans hlow, hhigh.trans h2⟩) hc

inductive RoundingStrategy where
  | toZero
  | toPositiveInfinity
  | toNegativeInfinity
  deriving DecidableEq, Repr

/-- The integer a strategy takes for a value. -/
def RoundingStrategy.integer (strategy : RoundingStrategy) (x : ℚ) : ℤ :=
  match strategy with
  | toZero => if 0 ≤ x then ⌊x⌋ else ⌈x⌉
  | toPositiveInfinity => ⌈x⌉
  | toNegativeInfinity => ⌊x⌋

theorem RoundingStrategy.integer_between (strategy : RoundingStrategy) (x : ℚ) :
    ⌊x⌋ ≤ strategy.integer x ∧ strategy.integer x ≤ ⌈x⌉ := by
  cases strategy with
  | toZero =>
    simp only [integer]
    split
    · exact ⟨le_rfl, Int.floor_le_ceil x⟩
    · exact ⟨Int.floor_le_ceil x, le_rfl⟩
  | toPositiveInfinity => exact ⟨Int.floor_le_ceil x, le_rfl⟩
  | toNegativeInfinity => exact ⟨le_rfl, Int.floor_le_ceil x⟩

def roundDpWithStrategy (d : Decimal) (dp : Nat) (strategy : RoundingStrategy) : Decimal :=
  ⟨strategy.integer (d.val * 10 ^ dp) / 10 ^ dp,
    representable_round d.repr dp (strategy.integer_between _).1 (strategy.integer_between _).2⟩

theorem val_truncate (h : 0 ≤ d.val) (dp : Nat) :
    (d.roundDpWithStrategy dp .toZero).val = floorTo dp d.val := by
  have hpos : 0 ≤ d.val * 10 ^ dp := mul_nonneg h (ten_pow_pos dp).le
  simp only [roundDpWithStrategy, RoundingStrategy.integer, if_pos hpos, floorTo]

/-- The scale that remains once trailing zeros are stripped. -/
def normalizedScale (d : Decimal) : Nat :=
  ((List.range 29).find? fun s => (d.val * 10 ^ s).den = 1).getD 28

end Decimal

/--
The checked operations of the decimal library. `none` is the overflow, or a
division by zero, on which the library's own checked functions return nothing.
-/
structure DecimalArith where
  checkedAdd : Decimal → Decimal → Option Decimal
  checkedSub : Decimal → Decimal → Option Decimal
  checkedMul : Decimal → Decimal → Option Decimal
  checkedDiv : Decimal → Decimal → Option Decimal

/-- One unit in the last of the 28 digits after the point that every result keeps. -/
def decimalError (x : ℚ) : ℚ := max 1 |x| / 10 ^ 28

theorem decimalError_of_le {b : ℚ} (hb : 1 ≤ b) (h : |x| ≤ b) : decimalError x ≤ b / 10 ^ 28 := by
  unfold decimalError
  gcongr
  exact max_le hb h

theorem decimalError_le (x : ℚ) : decimalError x ≤ (1 + |x|) / 10 ^ 28 := by
  unfold decimalError
  gcongr
  exact max_le (by linarith [abs_nonneg x]) (by linarith)

/--
**What the decimal library promises.**

An operation whose exact result fits returns it. Any other result is near the exact one,
and there is a result unless it would overflow.
-/
structure DecimalArith.Lawful (arith : DecimalArith) : Prop where
  add_exact : ∀ a b (h : Representable (a.val + b.val)), arith.checkedAdd a b = some ⟨_, h⟩
  sub_exact : ∀ a b (h : Representable (a.val - b.val)), arith.checkedSub a b = some ⟨_, h⟩
  mul_exact : ∀ a b (h : Representable (a.val * b.val)), arith.checkedMul a b = some ⟨_, h⟩
  div_exact : ∀ a b (h : Representable (a.val / b.val)), b.val ≠ 0 →
    arith.checkedDiv a b = some ⟨_, h⟩
  mul_near : ∀ a b c, arith.checkedMul a b = some c →
    |c.val - a.val * b.val| ≤ decimalError (a.val * b.val)
  div_near : ∀ a b c, arith.checkedDiv a b = some c → b.val ≠ 0
    ∧ |c.val - a.val / b.val| ≤ decimalError (a.val / b.val)
  mul_nonneg : ∀ a b c, 0 ≤ a.val → 0 ≤ b.val → arith.checkedMul a b = some c → 0 ≤ c.val
  mul_some : ∀ a b, |a.val * b.val| < 2 ^ 95 → (arith.checkedMul a b).isSome
  div_some : ∀ a b, b.val ≠ 0 → |a.val / b.val| < 2 ^ 95 → (arith.checkedDiv a b).isSome

namespace DecimalArith.Lawful

variable {arith : DecimalArith} {a b c : Decimal}

theorem add_val (law : arith.Lawful) (h : arith.checkedAdd a b = some c)
    (hrep : Representable (a.val + b.val)) : c.val = a.val + b.val := by
  rw [law.add_exact a b hrep, Option.some.injEq] at h
  rw [← h]

theorem sub_val (law : arith.Lawful) (h : arith.checkedSub a b = some c)
    (hrep : Representable (a.val - b.val)) : c.val = a.val - b.val := by
  rw [law.sub_exact a b hrep, Option.some.injEq] at h
  rw [← h]

theorem mul_val (law : arith.Lawful) (h : arith.checkedMul a b = some c)
    (hrep : Representable (a.val * b.val)) : c.val = a.val * b.val := by
  rw [law.mul_exact a b hrep, Option.some.injEq] at h
  rw [← h]

theorem div_val (law : arith.Lawful) (h : arith.checkedDiv a b = some c)
    (hrep : Representable (a.val / b.val)) : c.val = a.val / b.val := by
  rw [law.div_exact a b hrep (law.div_near a b c h).1, Option.some.injEq] at h
  rw [← h]

end DecimalArith.Lawful

/-! ## Chains of products -/

/-- The value is within `k` units in the last digit of `x`. -/
def NearBy (k x y : ℚ) : Prop := |y - x| ≤ k * (1 + x) / 10 ^ 28

theorem nearBy_of_error {y : ℚ} (hx : 0 ≤ x) (h : |y - x| ≤ decimalError x) : NearBy 1 x y := by
  have := decimalError_le x
  rw [abs_of_nonneg hx] at this
  rw [NearBy, one_mul]
  exact h.trans this

/-- **Multiplying by a factor of the unit interval** adds two units to the error. -/
theorem NearBy.mul {arith : DecimalArith} (law : arith.Lawful) {k k' : ℚ} {y b c : Decimal}
    (h : NearBy k x y.val) (hk : k + 2 ≤ k') (hk0 : 0 ≤ k) (hk1 : k ≤ 100) (hx : 0 ≤ x)
    (hb0 : 0 ≤ b.val) (hb1 : b.val ≤ 1) (hc : arith.checkedMul y b = some c) :
    NearBy k' (x * b.val) c.val := by
  have hxb : 0 ≤ x * b.val := mul_nonneg hx hb0
  -- the factor shrinks the error that was there
  have hold : |y.val * b.val - x * b.val| ≤ k * (1 + x * b.val) / 10 ^ 28 := by
    rw [← sub_mul, abs_mul, abs_of_nonneg hb0]
    calc |y.val - x| * b.val ≤ k * (1 + x) / 10 ^ 28 * b.val :=
          mul_le_mul_of_nonneg_right h hb0
      _ = k * (b.val + x * b.val) / 10 ^ 28 := by ring
      _ ≤ k * (1 + x * b.val) / 10 ^ 28 := by gcongr
  have hsmall : k * (1 + x * b.val) / 10 ^ 28 ≤ 1 + x * b.val := by
    rw [div_le_iff₀ (by positivity), mul_comm]
    refine mul_le_mul_of_nonneg_left (hk1.trans (by norm_num)) (by linarith)
  have hy : |y.val * b.val| ≤ 1 + 2 * (x * b.val) := by
    have := abs_le.mp (hold.trans hsmall)
    rw [abs_le]
    constructor <;> linarith
  have hnew : |c.val - y.val * b.val| ≤ 2 * (1 + x * b.val) / 10 ^ 28 := by
    refine (law.mul_near y b c hc).trans ((decimalError_le _).trans ?_)
    linarith
  have htri := abs_add_le (c.val - y.val * b.val) (y.val * b.val - x * b.val)
  rw [sub_add_sub_cancel] at htri
  calc |c.val - x * b.val|
      ≤ 2 * (1 + x * b.val) / 10 ^ 28 + k * (1 + x * b.val) / 10 ^ 28 := htri.trans (add_le_add hnew hold)
    _ = (k + 2) * (1 + x * b.val) / 10 ^ 28 := by ring
    _ ≤ k' * (1 + x * b.val) / 10 ^ 28 := by gcongr

/-- A product by a factor of the unit interval is far from overflowing. -/
theorem NearBy.mul_isSome {arith : DecimalArith} (law : arith.Lawful) {k : ℚ} {y b : Decimal}
    (h : NearBy k x y.val) (hk1 : k ≤ 100) (hx : 0 ≤ x) (hx1 : x ≤ 2 * 10 ^ 13) (hb0 : 0 ≤ b.val)
    (hb1 : b.val ≤ 1) : (arith.checkedMul y b).isSome := by
  have hy : |y.val| ≤ 3 * 10 ^ 13 := by
    have hbound : k * (1 + x) / 10 ^ 28 ≤ 100 * (1 + 2 * 10 ^ 13) / 10 ^ 28 := by gcongr
    have := abs_le.mp (h.trans hbound)
    rw [abs_le]
    constructor <;> linarith
  refine law.mul_some y b ?_
  rw [abs_mul, abs_of_nonneg hb0]
  calc |y.val| * b.val ≤ 3 * 10 ^ 13 * 1 := mul_le_mul hy hb1 hb0 (by norm_num)
    _ < 2 ^ 95 := by norm_num

/-! ## The library's rounding -/

/-- The nearest decimal of a scale of at most `s`, at the largest that fits. -/
def fitTo (x : ℚ) (s : Nat) : Option Decimal :=
  if h : s < 29 ∧ |nearest (x * 10 ^ s)| < 2 ^ 96 then
    some ⟨nearest (x * 10 ^ s) / 10 ^ s,
      Decimal.representable_iff.mpr ⟨s, h.1, _, rfl, h.2⟩⟩
  else
    match s with
    | 0 => none
    | s + 1 => fitTo x s

/-- The nearest decimal at the largest scale that fits. -/
def fit (x : ℚ) : Option Decimal := fitTo x 28

theorem fitTo_exact (hx : Representable x) {k : Nat} {c : ℤ} (hc : x = c / 10 ^ k)
    (hfit : |c| < 2 ^ 96) : ∀ s, k ≤ s → s < 29 → fitTo x s = some ⟨x, hx⟩ := by
  have hint : ∀ s, k ≤ s → x * 10 ^ s = ((c * 10 ^ (s - k) : ℤ) : ℚ) := by
    intro s hs
    have hpow : (10 : ℚ) ^ s = 10 ^ k * 10 ^ (s - k) := by rw [← pow_add, Nat.add_sub_cancel' hs]
    rw [hc, hpow]
    push_cast
    field_simp
  intro s
  induction s with
  | zero =>
    intro hs h29
    obtain rfl : k = 0 := Nat.le_zero.mp hs
    rw [fitTo, dif_pos ⟨h29, by rw [hint 0 le_rfl, nearest_intCast]; simpa using hfit⟩]
    exact congrArg some (Decimal.ext_val (by
      simp only
      rw [hint 0 le_rfl, nearest_intCast, ← hint 0 le_rfl]
      simp))
  | succ s ih =>
    intro hs h29
    rw [fitTo]
    split
    · refine congrArg some (Decimal.ext_val ?_)
      simp only
      rw [hint _ hs, nearest_intCast, ← hint _ hs,
        mul_div_cancel_right₀ _ (ten_pow_pos _).ne']
    · rename_i hno
      -- at its own scale the value fits, so the search has not passed it
      have hk : k ≤ s := by
        rcases Nat.lt_or_ge s k with hlt | hge
        · obtain rfl : k = s + 1 := by omega
          refine absurd ⟨h29, ?_⟩ hno
          rw [hint _ le_rfl, nearest_intCast]
          simpa using hfit
        · exact hge
      exact ih hk (by omega)

theorem fit_exact (hx : Representable x) : fit x = some ⟨x, hx⟩ := by
  obtain ⟨k, hk, c, hc, hfit⟩ := Decimal.representable_iff.mp hx
  exact fitTo_exact hx hc hfit 28 (by omega) (by decide)

/-- The scale that was taken is the largest that fits. -/
theorem fitTo_eq_some : ∀ {s}, s < 29 → fitTo x s = some d →
    ∃ t ≤ s, d.val = nearest (x * 10 ^ t) / 10 ^ t
      ∧ (t < s → 2 ^ 96 ≤ |nearest (x * 10 ^ (t + 1))|) := by
  intro s
  induction s with
  | zero =>
    intro _ h
    rw [fitTo] at h
    split at h
    · rw [Option.some.injEq] at h
      exact ⟨0, le_rfl, by rw [← h], fun hlt => absurd hlt (by simp)⟩
    · simp at h
  | succ s ih =>
    intro hs h
    rw [fitTo] at h
    split at h
    · rw [Option.some.injEq] at h
      exact ⟨s + 1, le_rfl, by rw [← h], fun hlt => absurd hlt (Nat.lt_irrefl _)⟩
    · rename_i hno
      obtain ⟨t, ht, hval, hnext⟩ := ih (by omega) h
      refine ⟨t, by omega, hval, fun hlt => ?_⟩
      rcases Nat.lt_or_ge t s with hts | hts
      · exact hnext hts
      · -- the search came from the next larger scale, where nothing fitted
        obtain rfl : t = s := by omega
        exact not_lt.mp fun hfit => hno ⟨hs, hfit⟩

/-- Where the next larger scale overflows, half a unit is within the relative error. -/
theorem halfUnit_le {t : Nat} (h : 2 ^ 96 ≤ |nearest (x * 10 ^ (t + 1))|) :
    1 / 2 / 10 ^ t ≤ |x| / 10 ^ 28 := by
  have hbig : (2 : ℚ) ^ 96 ≤ |x| * 10 ^ (t + 1) + 1 / 2 := by
    have h96 : ((2 ^ 96 : ℤ) : ℚ) ≤ ((|nearest (x * 10 ^ (t + 1))| : ℤ) : ℚ) := Int.cast_le.mpr h
    have herr := nearest_error (x * 10 ^ (t + 1))
    have habs : |x * 10 ^ (t + 1)| = |x| * 10 ^ (t + 1) := by
      rw [abs_mul, abs_of_pos (ten_pow_pos (t + 1))]
    have htri := abs_add_le ((nearest (x * 10 ^ (t + 1)) : ℚ) - x * 10 ^ (t + 1))
      (x * 10 ^ (t + 1))
    rw [sub_add_cancel, habs] at htri
    push_cast at h96
    linarith
  rw [div_le_div_iff₀ (ten_pow_pos t) (by positivity)]
  rw [pow_succ (10 : ℚ) t, ← mul_assoc] at hbig
  linarith

theorem fit_near (h : fit x = some d) : |d.val - x| ≤ decimalError x := by
  obtain ⟨t, ht, hval, hnext⟩ := fitTo_eq_some (by decide) h
  rw [hval]
  refine (nearest_scaled_error x t).trans ?_
  unfold decimalError
  rcases Nat.lt_or_ge t 28 with hlt | hge
  · refine (halfUnit_le (hnext hlt)).trans ?_
    gcongr
    exact le_max_right _ _
  · obtain rfl : t = 28 := by omega
    rw [div_le_div_iff_of_pos_right (by positivity)]
    exact (by norm_num : (1 : ℚ) / 2 ≤ 1).trans (le_max_left _ _)

theorem fit_nonneg (hx : 0 ≤ x) (h : fit x = some d) : 0 ≤ d.val := by
  obtain ⟨t, _, hval, _⟩ := fitTo_eq_some (by decide) h
  rw [hval]
  exact div_nonneg (Int.cast_nonneg (nearest_nonneg (mul_nonneg hx (ten_pow_pos t).le)))
    (ten_pow_pos t).le

/-- What a decimal of a finer scale than `t` can be. -/
theorem abs_le_of_finer {t s : Nat} (hs : t < s) {n : ℤ} (hn : |n| < 2 ^ 96) :
    |(n : ℚ) / 10 ^ s * 10 ^ t| * 10 ≤ 2 ^ 96 - 1 := by
  have hcast : |(n : ℚ)| ≤ 2 ^ 96 - 1 := by
    have : |n| ≤ 2 ^ 96 - 1 := by omega
    exact_mod_cast this
  have hpow : (10 : ℚ) ^ s = 10 ^ t * 10 * 10 ^ (s - t - 1) := by
    rw [← pow_succ, ← pow_add]
    congr 1
    omega
  have hone : (1 : ℚ) ≤ 10 ^ (s - t - 1) := one_le_pow₀ (by norm_num)
  have hval : |(n : ℚ) / 10 ^ s * 10 ^ t| * 10 = |(n : ℚ)| / 10 ^ (s - t - 1) := by
    rw [abs_mul, abs_div, abs_of_pos (ten_pow_pos s), abs_of_pos (ten_pow_pos t), hpow]
    field_simp
  rw [hval]
  exact (div_le_self (abs_nonneg _) hone).trans hcast

/-- **The rounded value is not above a decimal that bounds the exact one.** -/
theorem fit_le {c : Decimal} (h : fit x = some c) (hd : x ≤ d.val) : c.val ≤ d.val := by
  obtain ⟨t, ht, hval, hnext⟩ := fitTo_eq_some (by decide) h
  obtain ⟨s, hs, n, hn, hfit⟩ := Decimal.representable_iff.mp d.repr
  have hpos := ten_pow_pos t
  rw [hval, div_le_iff₀ hpos]
  have hscaled : x * 10 ^ t ≤ d.val * 10 ^ t := mul_le_mul_of_nonneg_right hd hpos.le
  by_cases hts : s ≤ t
  · -- the bound is on the grid of the scale that was taken
    obtain ⟨m, hm⟩ : ∃ m : ℤ, d.val * 10 ^ t = m := by
      have hpow : (10 : ℚ) ^ t = 10 ^ s * 10 ^ (t - s) := by rw [← pow_add, Nat.add_sub_cancel' hts]
      refine ⟨n * 10 ^ (t - s), ?_⟩
      rw [hn, hpow]
      push_cast
      field_simp
    rw [hm] at hscaled ⊢
    have hle : nearest (x * 10 ^ t) ≤ m := nearest_le (by linarith)
    exact Int.cast_le.mpr hle
  · -- the bound is finer, so the next scale, where the value overflowed, holds it
    have hsmall := abs_le_of_finer (by omega : t < s) hfit
    rw [← hn] at hsmall
    have hbig := hnext (by omega)
    rw [pow_succ (10 : ℚ) t, ← mul_assoc] at hbig
    have herr := abs_le.mp (nearest_error (x * 10 ^ t * 10))
    generalize x * 10 ^ t = y at *
    have hz := abs_le.mp (le_div_iff₀ (by norm_num : (0 : ℚ) < 10) |>.mpr hsmall)
    rcases le_abs'.mp hbig with hneg | hposi
    · -- far below zero the coarser value is the lower one
      have hk : (nearest (y * 10) : ℚ) ≤ -2 ^ 96 := by exact_mod_cast hneg
      have hy : nearest y ≤ -7922816251426433759354395034 := by
        refine nearest_le ?_
        linarith
      have hcast : (nearest y : ℚ) ≤ -7922816251426433759354395034 := by exact_mod_cast hy
      linarith [hz.1]
    · have hk : (2 : ℚ) ^ 96 ≤ nearest (y * 10) := by exact_mod_cast hposi
      linarith [hz.2]

theorem fitTo_some (h : |x| < 2 ^ 95) : ∀ s, (fitTo x s).isSome
  | 0 => by
    have hb : |nearest (x * 10 ^ 0)| ≤ 2 ^ 95 := abs_nearest_le (by
      rw [pow_zero, mul_one]
      exact h.le)
    rw [fitTo, dif_pos ⟨by decide, by omega⟩]
    rfl
  | s + 1 => by
    rw [fitTo]
    split
    · rfl
    · exact fitTo_some h s

/-- The operations, rounded to the nearest decimal at the largest scale that fits. -/
def DecimalArith.rounded : DecimalArith where
  checkedAdd a b := fit (a.val + b.val)
  checkedSub a b := fit (a.val - b.val)
  checkedMul a b := fit (a.val * b.val)
  checkedDiv a b := if b.val = 0 then none else fit (a.val / b.val)

/--
**What rounding to the nearest promises beside its error.**

A rounded result is not above a decimal that bounds the exact one, and a difference of at
least zero does not fall below zero.
-/
structure DecimalArith.Faithful (arith : DecimalArith) : Prop where
  sub_near : ∀ a b c, arith.checkedSub a b = some c →
    |c.val - (a.val - b.val)| ≤ decimalError (a.val - b.val)
  sub_le : ∀ a b c d : Decimal, arith.checkedSub a b = some c → a.val - b.val ≤ d.val →
    c.val ≤ d.val
  sub_nonneg : ∀ a b c, arith.checkedSub a b = some c → b.val ≤ a.val → 0 ≤ c.val
  mul_le : ∀ a b c d : Decimal, arith.checkedMul a b = some c → a.val * b.val ≤ d.val →
    c.val ≤ d.val
  div_le : ∀ a b c d : Decimal, arith.checkedDiv a b = some c → a.val / b.val ≤ d.val →
    c.val ≤ d.val

theorem DecimalArith.rounded_lawful : DecimalArith.rounded.Lawful where
  add_exact _ _ h := fit_exact h
  sub_exact _ _ h := fit_exact h
  mul_exact _ _ h := fit_exact h
  div_exact a b h hb := by simp only [rounded, if_neg hb]; exact fit_exact h
  mul_near _ _ _ h := fit_near h
  div_near a b c h := by
    simp only [rounded] at h
    split at h
    · simp at h
    · rename_i hb; exact ⟨hb, fit_near h⟩
  mul_nonneg _ _ _ ha hb h := fit_nonneg (mul_nonneg ha hb) h
  mul_some _ _ h := fitTo_some h 28
  div_some a b hb h := by simp only [rounded, if_neg hb]; exact fitTo_some h 28

theorem DecimalArith.rounded_faithful : DecimalArith.rounded.Faithful where
  sub_near _ _ _ h := fit_near h
  sub_le _ _ _ _ h hd := fit_le h hd
  sub_nonneg _ _ _ h hle := fit_nonneg (sub_nonneg.mpr hle) h
  mul_le _ _ _ _ h hd := fit_le h hd
  div_le a b c d h hd := by
    simp only [rounded] at h
    split at h
    · simp at h
    · exact fit_le h hd

/--
**Products below one are rounded to the nearest.** They keep all 28 digits after the point,
so their error is at most half a unit of the last one.
-/
def DecimalArith.MulNearest (arith : DecimalArith) : Prop :=
  ∀ a b c, arith.checkedMul a b = some c → |a.val * b.val| ≤ 1 →
    |c.val - a.val * b.val| ≤ 1 / 2 / 10 ^ 28

theorem DecimalArith.rounded_mulNearest : DecimalArith.rounded.MulNearest := by
  intro a b c h hone
  obtain ⟨t, ht, hval, hnext⟩ := fitTo_eq_some (by decide) h
  rcases Nat.lt_or_ge t 28 with hlt | hge
  · -- a smaller scale is taken only where the next one overflows
    have hscaled : |a.val * b.val * 10 ^ (t + 1)| ≤ ((10 ^ 28 : ℤ) : ℚ) := by
      rw [abs_mul, abs_of_pos (ten_pow_pos (t + 1))]
      calc |a.val * b.val| * 10 ^ (t + 1) ≤ 1 * 10 ^ 28 := by
            gcongr
            · norm_num
            · omega
        _ = 10 ^ 28 := one_mul _
    have := abs_nearest_le hscaled
    omega
  · obtain rfl : t = 28 := by omega
    rw [hval]
    exact nearest_scaled_error _ 28

/-- Every decimal is a multiple of the last digit after the point. -/
theorem Decimal.onGrid (d : Decimal) : OnGrid 28 d.val := by
  obtain ⟨s, hs, n, hn, _⟩ := Decimal.representable_iff.mp d.repr
  exact OnGrid.mono (by omega) ⟨n, hn⟩

end PredictionEdge
