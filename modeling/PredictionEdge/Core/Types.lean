import PredictionEdge.Core.Decimal

/-!
# Core types

The identifiers, sides, times and exact amounts that every other part of the
repository speaks in. Identifiers are texts under distinct types; an amount is a
`u64` count of millionths that carries its own bound.
-/

namespace PredictionEdge

open Lib

/-- The failures of the core constructors that the modelled code can meet. -/
inductive CoreError where
  | outOfRange (field : String)
  | scaleError (maxDp : Nat)
  deriving DecidableEq, Repr

inductive Side where
  | buy
  | sell
  deriving DecidableEq, Repr

structure VenueMarketId where
  val : String
  deriving DecidableEq, Repr

structure MarketId where
  val : VenueMarketId
  deriving DecidableEq, Repr

/-- A market's text: what displaying a market prints. -/
def MarketId.text (m : MarketId) : String := m.val.val

theorem MarketId.text_injective {m n : MarketId} (h : m.text = n.text) : m = n := by
  obtain ⟨⟨a⟩⟩ := m
  obtain ⟨⟨b⟩⟩ := n
  simp only [text] at h
  rw [h]

structure OutcomeId where
  val : UInt16
  deriving DecidableEq, Repr

/-- A market and one of its outcomes. -/
structure MarketOutcomeId where
  market : MarketId
  outcome : OutcomeId
  deriving DecidableEq, Repr

structure SourceTradeId where
  val : String
  deriving DecidableEq, Repr

theorem SourceTradeId.val_injective {a b : SourceTradeId} (h : a.val = b.val) : a = b := by
  cases a; cases b; simp only at h; rw [h]

structure PolymarketConditionId where
  val : String
  deriving DecidableEq, Repr

structure PolymarketTokenId where
  val : String
  deriving DecidableEq, Repr

/-- A 20-byte address. -/
structure WalletAddress where
  val : BitVec 160
  deriving DecidableEq, Repr

/-- The source's own time of an event, in nanoseconds since the epoch. -/
structure SourceTimestamp where
  nanos : Int
  deriving DecidableEq, Repr

/-- The whole second an instant falls in. -/
def SourceTimestamp.unixTimestamp (t : SourceTimestamp) : Int := t.nanos / 1000000000

structure Price where
  val : Decimal
  deriving DecidableEq

instance : LE Price := ⟨fun a b => a.val ≤ b.val⟩
instance : LT Price := ⟨fun a b => a.val < b.val⟩
instance (a b : Price) : Decidable (a ≤ b) := inferInstanceAs (Decidable (a.val ≤ b.val))
instance (a b : Price) : Decidable (a < b) := inferInstanceAs (Decidable (a.val < b.val))

def Price.zero : Price := ⟨.zero⟩
def Price.one : Price := ⟨.one⟩

def Price.min (a b : Price) : Price := if b < a then b else a

/-- The value of a price. -/
def Price.toRat (p : Price) : ℚ := p.val.val

/-- A price of the unit interval. -/
def Price.InUnit (p : Price) : Prop := 0 ≤ p.toRat ∧ p.toRat ≤ 1

variable {p q : Price}

theorem Price.toRat_injective (h : p.toRat = q.toRat) : p = q := by
  obtain ⟨a⟩ := p
  obtain ⟨b⟩ := q
  exact congrArg Price.mk (Decimal.ext_val h)

theorem Price.lt_iff : p < q ↔ p.toRat < q.toRat := Iff.rfl
theorem Price.le_iff : p ≤ q ↔ p.toRat ≤ q.toRat := Iff.rfl
theorem Price.le_of_not_lt (h : ¬ p < q) : q ≤ p := le_of_not_gt (Price.lt_iff.not.mp h)

/-- A price lies between zero and one. -/
def Price.new (d : Decimal) : Except CoreError Price :=
  if d < .zero ∨ .one < d then .error (.outOfRange "Price") else .ok ⟨d⟩

theorem Price.new_ok {d : Decimal} : Price.new d = .ok p ↔ p = ⟨d⟩ ∧ 0 ≤ d.val ∧ d.val ≤ 1 := by
  simp only [Price.new, Decimal.lt_iff, Decimal.val_zero, Decimal.val_one]
  split
  · rename_i h
    simp only [reduceCtorEq, false_iff]
    intro hp
    rcases h with h | h
    · exact absurd hp.2.1 (not_le.mpr h)
    · exact absurd hp.2.2 (not_le.mpr h)
  · rename_i h
    rw [not_or, not_lt, not_lt] at h
    rw [Except.ok.injEq]
    exact ⟨fun hp => ⟨hp.symm, h⟩, fun hp => hp.1.symm⟩

/-- Confidence, out of a hundred, in a reconstructed wallet history. -/
structure ReconstructionQuality where
  val : Nat
  le : val ≤ 100
  deriving DecidableEq

inductive LeaderAction where
  | entry
  | add
  | trim
  | exit
  | flip
  | unknown
  deriving DecidableEq, Repr

/-! ## Exact amounts -/

/--
A count of millionths that fits a `u64`. The source writes the share and the
collateral type from one template, with the type's name in its errors.
-/
structure ExactAmount (field : String) where
  atomic : Nat
  lt : atomic < 2 ^ 64
  deriving DecidableEq

abbrev ShareAmount := ExactAmount "ShareAmount"
abbrev CollateralAmount := ExactAmount "CollateralAmount"

namespace ExactAmount

variable {field : String}

instance : LE (ExactAmount field) := ⟨fun a b => a.atomic ≤ b.atomic⟩
instance : LT (ExactAmount field) := ⟨fun a b => a.atomic < b.atomic⟩
instance (a b : ExactAmount field) : Decidable (a ≤ b) :=
  inferInstanceAs (Decidable (a.atomic ≤ b.atomic))
instance (a b : ExactAmount field) : Decidable (a < b) :=
  inferInstanceAs (Decidable (a.atomic < b.atomic))

def zero : ExactAmount field := ⟨0, by decide⟩

def min (a b : ExactAmount field) : ExactAmount field := if a ≤ b then a else b

def checkedAdd (a b : ExactAmount field) : Except CoreError (ExactAmount field) :=
  if h : a.atomic + b.atomic < 2 ^ 64 then .ok ⟨a.atomic + b.atomic, h⟩
  else .error (.outOfRange field)

def checkedSub (a b : ExactAmount field) : Except CoreError (ExactAmount field) :=
  if b.atomic ≤ a.atomic then .ok ⟨a.atomic - b.atomic, Nat.lt_of_le_of_lt (Nat.sub_le _ _) a.lt⟩
  else .error (.outOfRange field)

/-- The amount in whole units: at most six decimals and a `u64` coefficient, so exact. -/
def toDecimal (a : ExactAmount field) : Decimal :=
  ⟨a.atomic / 10 ^ 6, Decimal.representable_div (Nat.lt_trans a.lt (by decide)) (by decide)⟩

/-- The value of an amount. -/
def toRat (a : ExactAmount field) : ℚ := a.atomic / 10 ^ 6

theorem val_toDecimal (a : ExactAmount field) : a.toDecimal.val = a.toRat := rfl

/-- The number of millionths in a unit. -/
def atomicScale : Decimal := ⟨10 ^ 6, Decimal.representable_iff.mpr ⟨0, by decide, 10 ^ 6, by norm_num, by decide⟩⟩

/-- An amount of at most six decimals that fits. -/
def fromDecimalExact (arith : DecimalArith) (value : Decimal) :
    Except CoreError (ExactAmount field) :=
  if value < .zero then .error (.outOfRange field)
  else
    match arith.checkedMul value atomicScale with
    | none => .error (.outOfRange field)
    | some scaled =>
      if scaled.val.den ≠ 1 then .error (.scaleError 6)
      else if h : 0 ≤ scaled.val.num ∧ scaled.val.num.toNat < 2 ^ 64 then
        .ok ⟨scaled.val.num.toNat, h.2⟩
      else .error (.outOfRange field)

variable {a b : ExactAmount field}

theorem ext_atomic (h : a.atomic = b.atomic) : a = b := by
  cases a; cases b; simp only at h; subst h; rfl

@[simp] theorem atomic_zero : (zero : ExactAmount field).atomic = 0 := rfl

theorem eq_zero_iff : a = zero ↔ a.atomic = 0 :=
  ⟨fun h => by rw [h]; rfl, fun h => ext_atomic h⟩

theorem le_iff : a ≤ b ↔ a.atomic ≤ b.atomic := Iff.rfl

@[simp] theorem atomic_min (a b : ExactAmount field) :
    (min a b).atomic = Nat.min a.atomic b.atomic := by
  unfold min
  split
  · rename_i h; exact (Nat.min_eq_left h).symm
  · rename_i h; exact (Nat.min_eq_right (Nat.le_of_lt (Nat.lt_of_not_le h))).symm

theorem checkedAdd_ok {c : ExactAmount field} :
    a.checkedAdd b = .ok c ↔ a.atomic + b.atomic = c.atomic := by
  unfold checkedAdd
  constructor
  · intro h
    split at h
    · injection h with h; rw [← h]
    · simp at h
  · intro h
    rw [dif_pos (h ▸ c.lt)]
    exact congrArg _ (ext_atomic h)

theorem checkedAdd_error {e : CoreError} (h : a.checkedAdd b = .error e) :
    2 ^ 64 ≤ a.atomic + b.atomic := by
  unfold checkedAdd at h
  split at h
  · simp at h
  · omega

theorem checkedSub_ok {c : ExactAmount field} :
    a.checkedSub b = .ok c ↔ a.atomic = c.atomic + b.atomic := by
  unfold checkedSub
  constructor
  · intro h
    split at h
    · injection h with h; rw [← h]; simp only; omega
    · simp at h
  · intro h
    rw [if_pos (by omega)]
    exact congrArg _ (ext_atomic (by simp only; omega))

/-! ## Amounts as values -/

theorem toRat_nonneg (a : ExactAmount field) : 0 ≤ a.toRat := by unfold toRat; positivity

theorem toRat_le (a : ExactAmount field) : a.toRat < 2 ^ 64 / 10 ^ 6 := by
  unfold toRat
  gcongr
  exact_mod_cast a.lt

theorem onGrid_toRat (a : ExactAmount field) : OnGrid 6 a.toRat := ⟨a.atomic, by simp [toRat]⟩

theorem toRat_le_iff {field' : String} {b : ExactAmount field'} :
    a.toRat ≤ b.toRat ↔ a.atomic ≤ b.atomic := by
  unfold toRat
  rw [div_le_div_iff_of_pos_right (by positivity), Nat.cast_le]

theorem toRat_eq_zero_iff : a.toRat = 0 ↔ a = zero := by
  rw [eq_zero_iff, toRat, div_eq_zero_iff]
  simp

/-- A value on the grid that fits is the value of an amount. -/
theorem exists_toRat {x : ℚ} (h : OnGrid 6 x) (hx : 0 ≤ x) (hlt : x < 2 ^ 64 / 10 ^ 6) :
    ∃ a : ExactAmount field, a.toRat = x := by
  obtain ⟨n, rfl⟩ := h
  rw [div_lt_div_iff_of_pos_right (by positivity)] at hlt
  have hn : 0 ≤ n := by
    by_contra hneg
    have : (n : ℚ) < 0 := by exact_mod_cast not_le.mp hneg
    have := div_neg_of_neg_of_pos this (ten_pow_pos 6)
    linarith
  obtain ⟨m, rfl⟩ := Int.eq_ofNat_of_zero_le hn
  refine ⟨⟨m, by exact_mod_cast hlt⟩, ?_⟩
  simp [toRat]

theorem fromDecimalExact_eq_ok {arith : DecimalArith} {d : Decimal} :
    fromDecimalExact arith d = .ok a ↔
      0 ≤ d.val ∧ ∃ scaled, arith.checkedMul d atomicScale = some scaled ∧ scaled.val = a.atomic := by
  unfold fromDecimalExact
  split
  · rename_i hneg
    simp only [reduceCtorEq, false_iff]
    exact fun h => absurd h.1 (not_le.mpr hneg)
  rename_i hneg
  have hpos : 0 ≤ d.val := not_lt.mp hneg
  cases arith.checkedMul d atomicScale with
  | none => simp
  | some scaled =>
    simp only [Option.some.injEq, exists_eq_left', and_iff_right hpos]
    split
    · rename_i hden
      simp only [reduceCtorEq, false_iff]
      exact fun h => hden (by rw [h]; rfl)
    rename_i hden
    have hnum : (scaled.val.num : ℚ) = scaled.val :=
      (Rat.den_eq_one_iff _).mp (not_not.mp hden)
    split
    · rename_i hfit
      rw [Except.ok.injEq]
      constructor
      · intro h
        have hat : a.atomic = scaled.val.num.toNat := by rw [← h]
        have : scaled.val.num = a.atomic := by omega
        rw [← hnum, this]
        simp
      · intro h
        have : scaled.val.num = a.atomic := by rw [← hnum] at h; exact_mod_cast h
        exact ext_atomic (by simp only; omega)
    · rename_i hfit
      simp only [reduceCtorEq, false_iff]
      intro h
      have : scaled.val.num = a.atomic := by rw [← hnum] at h; exact_mod_cast h
      exact hfit ⟨by omega, by have := a.lt; omega⟩

/-- A product that is an amount of millionths was exact. -/
theorem eq_of_near_atomic {n : ℤ} {x : ℚ} (hn : 0 ≤ n) (hx : |x - n| ≤ decimalError n)
    (ha : x = a.atomic) : |n| < 2 ^ 96 := by
  by_contra hbig
  rw [abs_of_nonneg hn, not_lt] at hbig
  have hbig : (2 : ℚ) ^ 96 ≤ n := by exact_mod_cast hbig
  have hn : (0 : ℚ) ≤ n := by exact_mod_cast hn
  have herr := decimalError_le n
  rw [abs_of_nonneg hn] at herr
  have hlow := (abs_le.mp (hx.trans herr)).1
  have hlt : x < 2 ^ 64 := by rw [ha]; exact_mod_cast a.lt
  norm_num at hlow hbig hlt
  linarith

/-- **A value of at most six decimals becomes an amount exactly when it is one.** -/
theorem fromDecimalExact_ok {arith : DecimalArith} (law : arith.Lawful) {d : Decimal}
    (hd : OnGrid 6 d.val) : fromDecimalExact arith d = .ok a ↔ a.toRat = d.val := by
  obtain ⟨n, hn⟩ := hd
  have hscaled : d.val * atomicScale.val = n := by
    rw [hn]
    exact div_mul_cancel₀ _ (by positivity)
  have hexact : |n| < 2 ^ 96 → ∃ scaled, arith.checkedMul d atomicScale = some scaled
      ∧ scaled.val = n := by
    intro hsmall
    have hrep : Representable (d.val * atomicScale.val) :=
      Decimal.representable_iff.mpr ⟨0, by decide, n, by rw [hscaled]; simp, hsmall⟩
    exact ⟨_, law.mul_exact d atomicScale hrep, hscaled⟩
  have hval : a.toRat = d.val ↔ n = a.atomic := by
    rw [toRat, hn, div_left_inj' (by positivity)]
    constructor
    · intro h; exact_mod_cast h.symm
    · intro h; rw [h]; simp
  rw [fromDecimalExact_eq_ok, hval]
  constructor
  · rintro ⟨hpos, scaled, hm, ha⟩
    have hn0 : 0 ≤ n := by
      rw [hn, le_div_iff₀ (by positivity), zero_mul] at hpos
      exact_mod_cast hpos
    have hnear := law.mul_near d atomicScale scaled hm
    rw [hscaled] at hnear
    obtain ⟨scaled', hm', hv⟩ := hexact (eq_of_near_atomic hn0 hnear ha)
    rw [hm, Option.some.injEq] at hm'
    subst hm'
    rw [ha] at hv
    exact_mod_cast hv.symm
  · intro h
    have hlt := a.lt
    obtain ⟨scaled, hm, hv⟩ := hexact (by rw [h, abs_of_nonneg (by omega)]; omega)
    refine ⟨?_, scaled, hm, by rw [hv, h]; simp⟩
    rw [hn, h]
    positivity

end ExactAmount

end PredictionEdge
