import Mathlib.Algebra.Order.Floor.Ring
import Mathlib.Data.Rat.Floor
import Mathlib.Algebra.Order.Field.Basic
import Mathlib.Tactic.Linarith
import Mathlib.Tactic.FieldSimp
import Mathlib.Tactic.Ring
import Mathlib.Tactic.Positivity
import Mathlib.Tactic.NormNum

/-!
# Rounding to a decimal grid

The multiples of `10 ^ -dp` are a grid. Rounding down or up to it keeps order against
grid points, which is all that most uses of rounding need. A value that is known only
approximately is rounded down correctly as soon as its exact value lies on the grid or
further from it than the error.
-/

namespace PredictionEdge.Lib

/-- The value is a multiple of `10 ^ -dp`. -/
def OnGrid (dp : Nat) (x : ℚ) : Prop := ∃ n : ℤ, x = n / 10 ^ dp

/-- Round down to `dp` decimals. -/
def floorTo (dp : Nat) (x : ℚ) : ℚ := ⌊x * 10 ^ dp⌋ / 10 ^ dp

/-- Round up to `dp` decimals. -/
def ceilTo (dp : Nat) (x : ℚ) : ℚ := ⌈x * 10 ^ dp⌉ / 10 ^ dp

/-- The nearest integer, and of two equally near ones the even one. -/
def nearest (x : ℚ) : ℤ :=
  if x - ⌊x⌋ < 1 / 2 then ⌊x⌋
  else if 1 / 2 < x - ⌊x⌋ then ⌊x⌋ + 1
  else if ⌊x⌋ % 2 = 0 then ⌊x⌋ else ⌊x⌋ + 1

variable {dp : Nat} {x y : ℚ}

theorem ten_pow_pos (dp : Nat) : (0 : ℚ) < 10 ^ dp := by positivity

theorem onGrid_floorTo (dp : Nat) (x : ℚ) : OnGrid dp (floorTo dp x) := ⟨_, rfl⟩

theorem onGrid_ceilTo (dp : Nat) (x : ℚ) : OnGrid dp (ceilTo dp x) := ⟨_, rfl⟩

theorem OnGrid.add (hx : OnGrid dp x) (hy : OnGrid dp y) : OnGrid dp (x + y) := by
  obtain ⟨n, rfl⟩ := hx
  obtain ⟨m, rfl⟩ := hy
  exact ⟨n + m, by push_cast; ring⟩

theorem OnGrid.mul {dp' : Nat} (hx : OnGrid dp x) (hy : OnGrid dp' y) :
    OnGrid (dp + dp') (x * y) := by
  obtain ⟨n, rfl⟩ := hx
  obtain ⟨m, rfl⟩ := hy
  exact ⟨n * m, by push_cast; rw [pow_add, div_mul_div_comm]⟩

theorem OnGrid.sub (hx : OnGrid dp x) (hy : OnGrid dp y) : OnGrid dp (x - y) := by
  obtain ⟨n, rfl⟩ := hx
  obtain ⟨m, rfl⟩ := hy
  exact ⟨n - m, by push_cast; ring⟩

/-- A coarser grid lies in a finer one. -/
theorem OnGrid.mono {dp' : Nat} (h : dp ≤ dp') (hx : OnGrid dp x) : OnGrid dp' x := by
  obtain ⟨n, rfl⟩ := hx
  refine ⟨n * 10 ^ (dp' - dp), ?_⟩
  have hpow : (10 : ℚ) ^ dp' = 10 ^ dp * 10 ^ (dp' - dp) := by
    rw [← pow_add, Nat.add_sub_cancel' h]
  have h1 := ten_pow_pos dp
  have h2 := ten_pow_pos (dp' - dp)
  rw [hpow]
  push_cast
  field_simp

theorem floorTo_le (dp : Nat) (x : ℚ) : floorTo dp x ≤ x := by
  rw [floorTo, div_le_iff₀ (ten_pow_pos dp)]
  exact Int.floor_le _

theorem lt_floorTo_add (dp : Nat) (x : ℚ) : x < floorTo dp x + 1 / 10 ^ dp := by
  rw [floorTo, ← add_div, lt_div_iff₀ (ten_pow_pos dp)]
  exact Int.lt_floor_add_one _

/-- **A grid point below the value is below the value rounded down.** -/
theorem le_floorTo (hy : OnGrid dp y) : y ≤ floorTo dp x ↔ y ≤ x := by
  refine ⟨fun h => h.trans (floorTo_le dp x), fun h => ?_⟩
  obtain ⟨n, rfl⟩ := hy
  rw [floorTo, div_le_div_iff_of_pos_right (ten_pow_pos dp)]
  rw [div_le_iff₀ (ten_pow_pos dp)] at h
  exact_mod_cast Int.le_floor.mpr h

theorem floorTo_of_onGrid (h : OnGrid dp x) : floorTo dp x = x :=
  le_antisymm (floorTo_le dp x) ((le_floorTo h).mpr le_rfl)

theorem floorTo_nonneg (h : 0 ≤ x) : 0 ≤ floorTo dp x :=
  (le_floorTo ⟨0, by simp⟩).mpr h

/-- **A grid point less than one step above the value is below the value rounded up.** -/
theorem le_ceilTo (hy : OnGrid dp y) (h : y - 1 / 10 ^ dp < x) : y ≤ ceilTo dp x := by
  obtain ⟨n, rfl⟩ := hy
  rw [ceilTo, div_le_div_iff_of_pos_right (ten_pow_pos dp)]
  rw [← sub_div, div_lt_iff₀ (ten_pow_pos dp)] at h
  have hlt : ((n - 1 : ℤ) : ℚ) < x * 10 ^ dp := by push_cast; exact h
  have := Int.lt_ceil.mpr hlt
  exact_mod_cast (by omega : n ≤ ⌈x * 10 ^ dp⌉)

theorem ceilTo_lt_add (dp : Nat) (x : ℚ) : ceilTo dp x < x + 1 / 10 ^ dp := by
  rw [ceilTo, div_lt_iff₀ (ten_pow_pos dp), add_mul, one_div_mul_cancel (ten_pow_pos dp).ne']
  exact Int.ceil_lt_add_one _

theorem ceilTo_le (hy : OnGrid dp y) (h : x ≤ y) : ceilTo dp x ≤ y := by
  obtain ⟨n, rfl⟩ := hy
  rw [ceilTo, div_le_div_iff_of_pos_right (ten_pow_pos dp), Int.cast_le, Int.ceil_le]
  rwa [le_div_iff₀ (ten_pow_pos dp)] at h

theorem le_ceilTo_self (dp : Nat) (x : ℚ) : x ≤ ceilTo dp x := by
  rw [ceilTo, le_div_iff₀ (ten_pow_pos dp)]
  exact Int.le_ceil _

/-- Adding a grid point commutes with rounding down. -/
theorem floorTo_add (hx : OnGrid dp x) (y : ℚ) : floorTo dp (x + y) = x + floorTo dp y := by
  obtain ⟨n, rfl⟩ := hx
  have hpos := (ten_pow_pos dp).ne'
  rw [floorTo, floorTo, add_mul, div_mul_cancel₀ _ hpos, Int.floor_intCast_add]
  push_cast
  rw [add_div]

variable {n : ℤ}

/-- A quotient that is no integer is at least one denominator away from the next ones. -/
theorem ediv_gap {d : Nat} (hd : 0 < d) (hne : n % (d : ℤ) ≠ 0) :
    ((n / (d : ℤ) : ℤ) : ℚ) + 1 / d ≤ n / d ∧ (n : ℚ) / d + 1 / d ≤ ((n / (d : ℤ) : ℤ) : ℚ) + 1 := by
  have hdq : (0 : ℚ) < d := by exact_mod_cast hd
  have hdiv := Int.emod_add_mul_ediv n d
  have hmod0 := Int.emod_nonneg n (by exact_mod_cast hd.ne' : (d : ℤ) ≠ 0)
  have hmodlt := Int.emod_lt_of_pos n (by exact_mod_cast hd : (0 : ℤ) < d)
  have hnq : (n : ℚ) = ((n % (d : ℤ) : ℤ) : ℚ) + d * ((n / (d : ℤ) : ℤ) : ℚ) := by
    exact_mod_cast hdiv.symm
  -- the remainder is neither zero nor the whole denominator
  have hone : (1 : ℚ) ≤ ((n % (d : ℤ) : ℤ) : ℚ) := by exact_mod_cast (by omega : 1 ≤ n % (d : ℤ))
  have hlast : ((n % (d : ℤ) : ℤ) : ℚ) + 1 ≤ d := by
    exact_mod_cast (by omega : n % (d : ℤ) + 1 ≤ d)
  have hlow : 1 / (d : ℚ) ≤ ((n % (d : ℤ) : ℤ) : ℚ) / d := by gcongr
  have hhigh : ((n % (d : ℤ) : ℤ) : ℚ) / d + 1 / d ≤ 1 := by
    rw [← add_div, div_le_one hdq]; exact hlast
  rw [hnq, add_div, mul_div_cancel_left₀ _ hdq.ne']
  constructor <;> linarith

theorem onGrid_of_emod_eq_zero {d : Nat} (hd : 0 < d) (h : n % (d : ℤ) = 0) :
    OnGrid dp (n / (d * 10 ^ dp)) := by
  have hdq : (0 : ℚ) < d := by exact_mod_cast hd
  have hdiv := Int.emod_add_mul_ediv n d
  rw [h, zero_add] at hdiv
  have hnq : (n : ℚ) = d * ((n / (d : ℤ) : ℤ) : ℚ) := by exact_mod_cast hdiv.symm
  refine ⟨n / d, ?_⟩
  rw [hnq]
  field_simp

/--
**Rounding an approximation down.**

`x` is `n / (d * 10 ^ dp)`, so off the grid it is at least `1 / (d * 10 ^ dp)` away from
it. An approximation closer than that, and exact on the grid, rounds down to the same.
-/
theorem floorTo_approx {c e : ℚ} {d : Nat} (hd : 0 < d) (hx : x = n / (d * 10 ^ dp))
    (hexact : OnGrid dp x → c = x) (he : |c - x| ≤ e) (hsmall : e < 1 / (d * 10 ^ dp)) :
    floorTo dp c = floorTo dp x := by
  by_cases hgrid : OnGrid dp x
  · rw [hexact hgrid]
  have hpow := ten_pow_pos dp
  have hdq : (0 : ℚ) < d := by exact_mod_cast hd
  have hscaled : x * 10 ^ dp = n / d := by rw [hx]; field_simp
  obtain ⟨hlow, hhigh⟩ := ediv_gap hd fun hz => hgrid (hx ▸ onGrid_of_emod_eq_zero hd hz)
  have hfloor : ⌊x * 10 ^ dp⌋ = n / (d : ℤ) := by
    rw [hscaled]
    exact_mod_cast Rat.floor_intCast_div_natCast n d
  have herr : |c * 10 ^ dp - x * 10 ^ dp| < 1 / d := by
    rw [← sub_mul, abs_mul, abs_of_pos hpow]
    have : e * 10 ^ dp < 1 / d := by
      rw [lt_div_iff₀ (by positivity)] at hsmall
      rw [lt_div_iff₀ hdq]
      linarith [mul_comm e ((d : ℚ) * 10 ^ dp), mul_comm (e * 10 ^ dp) (d : ℚ)]
    exact (mul_le_mul_of_nonneg_right he hpow.le).trans_lt this
  have hcfloor : ⌊c * 10 ^ dp⌋ = n / (d : ℤ) := by
    rw [Int.floor_eq_iff]
    have := abs_lt.mp herr
    rw [hscaled] at this
    constructor <;> linarith
  rw [floorTo, floorTo, hcfloor, hfloor]

/-! ## The nearest integer -/

theorem nearest_error (x : ℚ) : |(nearest x : ℚ) - x| ≤ 1 / 2 := by
  have hlow := Int.floor_le x
  have hhigh := Int.lt_floor_add_one x
  unfold nearest
  rw [abs_le]
  split_ifs <;> push_cast <;> constructor <;> linarith

theorem nearest_scaled_error (x : ℚ) (dp : Nat) :
    |(nearest (x * 10 ^ dp) : ℚ) / 10 ^ dp - x| ≤ 1 / 2 / 10 ^ dp := by
  have hpos := ten_pow_pos dp
  have he : (nearest (x * 10 ^ dp) : ℚ) / 10 ^ dp - x
      = (nearest (x * 10 ^ dp) - x * 10 ^ dp) / 10 ^ dp := by field_simp
  rw [he, abs_div, abs_of_pos hpos]
  gcongr
  exact nearest_error _

@[simp] theorem nearest_intCast (n : ℤ) : nearest n = n := by simp [nearest]

theorem nearest_nonneg (h : 0 ≤ x) : 0 ≤ nearest x := by
  have := Int.floor_nonneg.mpr h
  unfold nearest
  split_ifs <;> omega

/-- A value short of the middle between two integers rounds to the lower one at most. -/
theorem nearest_le (h : x < n + 1 / 2) : nearest x ≤ n := by
  have herr := abs_le.mp (nearest_error x)
  have : (nearest x : ℚ) < ((n + 1 : ℤ) : ℚ) := by push_cast; linarith
  have := Int.cast_lt.mp this
  omega

/-- A value between integers rounds to nothing beyond them. -/
theorem abs_nearest_le (h : |x| ≤ n) : |nearest x| ≤ n := by
  have herr := abs_le.mp (nearest_error x)
  have hx := abs_le.mp h
  rw [abs_le]
  constructor
  · have : ((-n - 1 : ℤ) : ℚ) < nearest x := by push_cast; linarith
    have := Int.cast_lt.mp this
    omega
  · exact nearest_le (by linarith)

end PredictionEdge.Lib
