import PredictionEdge.Execution.LadderAudit
import PredictionEdge.Venue.Planned

/-!
# Planner and audit

The audit asks of a plan that its asks run from the best ask to the limit price. The walk
sets the limit at every level it reaches, but takes nothing of a level of which the rest
of the principal buys no millionth of a share. A plan that ends in such *dust* names a
limit price that none of its asks has, and the audit refuses it. Apart from dust, and from
quantities that overflow, the audit passes every plan.
-/

namespace PredictionEdge

open Lib

variable {arith : DecimalArith}

/-! ## What the audit computes once more -/

theorem audit_expectedShares (plan : LadderPlan) :
    plan.expectedShares = (LadderPlanAudit.new plan).expectedShares.mapError fun _ => .amount := by
  rw [LadderPlan.expectedShares, LadderPlanAudit.expectedShares, LadderPlanAudit.new,
    List.foldlM_map]
  exact foldlM_mapError

theorem audit_expectedSpend (plan : LadderPlan) :
    plan.expectedSpend arith
      = ((LadderPlanAudit.new plan).expectedSpend arith).mapError fun _ => .amount := by
  have hcost : addCost arith = fun total ask => (LadderPlanAudit.addCost arith total
      ⟨ask.price, ask.shares⟩).mapError fun _ => .amount := by
    funext total ask
    rw [LadderPlanAudit.addCost, okOr_mapError]
    rfl
  rw [LadderPlan.expectedSpend, LadderPlanAudit.expectedSpend, LadderPlanAudit.new,
    List.foldlM_map, expectedSpendDecimal, hcost, foldlM_mapError]
  cases plan.usedAsks.foldlM (fun x y => LadderPlanAudit.addCost arith x ⟨y.price, y.shares⟩)
    Decimal.zero <;> rfl

theorem audit_vwap (plan : LadderPlan) :
    plan.vwap arith = (LadderPlanAudit.new plan).expectedVwap arith := by
  rw [LadderPlan.vwap, LadderPlanAudit.expectedVwap, audit_expectedShares, audit_expectedSpend,
    toOption_mapError, toOption_mapError]

/-- **What the audit asks of a plan.** -/
structure Audited (arith : DecimalArith) (plan : LadderPlan) : Prop where
  endpoints : endpointsMatch plan = true
  ordered : asksAreOrdered plan.usedAsks = true
  shares : ∃ shares, plan.expectedShares = .ok shares ∧ plan.shares ≤ shares
  spend : ∃ spend, plan.expectedSpend arith = .ok spend ∧ spend ≤ plan.worstCaseDebit
  vwap : (plan.vwap arith).isSome
  signed : ∃ price, signedPrice arith plan.worstCaseDebit plan.shares = .ok price
    ∧ plan.limitPrice ≤ price

variable {plan : LadderPlan}

theorem auditLadder_ok : auditLadder arith plan = .ok () ↔ Audited arith plan := by
  constructor
  · intro h
    obtain ⟨shares, hshares, h⟩ := bind_eq_ok.mp h
    obtain ⟨vwap, hvwap, h⟩ := bind_eq_ok.mp h
    obtain ⟨spend, hspend, h⟩ := bind_eq_ok.mp h
    obtain ⟨planShares, hplanShares, h⟩ := bind_eq_ok.mp h
    obtain ⟨planSpend, hplanSpend, h⟩ := bind_eq_ok.mp h
    obtain ⟨planVwap, hplanVwap, h⟩ := bind_eq_ok.mp h
    obtain ⟨price, hprice, h⟩ := bind_eq_ok.mp h
    simp only [refuseIf_eq_ok, not_or, Bool.not_eq_false, not_not] at h
    obtain ⟨hend, horder, rfl, rfl, rfl, hcover, hdebit, hsigned⟩ := h
    exact ⟨hend, horder, ⟨_, mapError_eq_ok.mp hplanShares, Nat.le_of_not_lt hcover⟩,
      ⟨_, mapError_eq_ok.mp hplanSpend, Nat.le_of_not_lt hdebit⟩,
      by rw [okOr_eq_ok.mp hplanVwap]; rfl,
      ⟨price, mapError_eq_ok.mp hprice, Price.le_of_not_lt hsigned⟩⟩
  · rintro ⟨hend, horder, ⟨shares, hshares, hcover⟩, ⟨spend, hspend, hdebit⟩, hvwap, price, hprice,
      hsigned⟩
    obtain ⟨vwap, hvwap⟩ := Option.isSome_iff_exists.mp hvwap
    -- the audit's figures are the plan's, so one of each is enough
    have hshares' := hshares
    have hspend' := hspend
    have hvwap' := hvwap
    rw [audit_expectedShares, mapError_eq_ok] at hshares'
    rw [audit_expectedSpend, mapError_eq_ok] at hspend'
    rw [audit_vwap] at hvwap'
    refine bind_eq_ok.mpr ⟨shares, mapError_eq_ok.mpr hshares', ?_⟩
    refine bind_eq_ok.mpr ⟨vwap, okOr_eq_ok.mpr hvwap', ?_⟩
    refine bind_eq_ok.mpr ⟨spend, mapError_eq_ok.mpr hspend', ?_⟩
    refine bind_eq_ok.mpr ⟨shares, mapError_eq_ok.mpr hshares, ?_⟩
    refine bind_eq_ok.mpr ⟨spend, mapError_eq_ok.mpr hspend, ?_⟩
    refine bind_eq_ok.mpr ⟨vwap, okOr_eq_ok.mpr hvwap, ?_⟩
    refine bind_eq_ok.mpr ⟨price, mapError_eq_ok.mpr hprice, ?_⟩
    simp only [refuseIf_eq_ok, not_or, Bool.not_eq_false, not_not, hend, horder]
    exact ⟨trivial, trivial, trivial, trivial, trivial, Nat.not_lt_of_le hcover,
      Nat.not_lt_of_le hdebit, fun h => absurd (Price.le_iff.mp hsigned) (not_le.mpr (Price.lt_iff.mp h))⟩

/-! ## Expected quantities -/

theorem foldlM_addShares_ok {s : ShareAmount} : ∀ {asks : List AskLevel} {t : ShareAmount},
    asks.foldlM addShares t = .ok s ↔
      t.atomic + (asks.map fun a => a.shares.atomic).sum = s.atomic
  | [], t => by
    rw [List.foldlM_nil, pure_eq_ok]
    exact ⟨fun h => by rw [h]; simp, fun h => ExactAmount.ext_atomic (by simpa using h)⟩
  | a :: asks, t => by
    rw [foldlM_cons_ok, List.map_cons, List.sum_cons]
    constructor
    · rintro ⟨t', ht', h⟩
      rw [addShares, mapError_eq_ok, ExactAmount.checkedAdd_ok] at ht'
      rw [foldlM_addShares_ok] at h
      omega
    · intro h
      -- the sum so far fits because the whole sum does
      have hlt := s.lt
      refine ⟨⟨t.atomic + a.shares.atomic, by omega⟩, ?_, foldlM_addShares_ok.mpr (by
        simp only; omega)⟩
      rw [addShares, mapError_eq_ok, ExactAmount.checkedAdd_ok]

theorem expectedShares_ok {s : ShareAmount} :
    plan.expectedShares = .ok s ↔ (plan.usedAsks.map fun a => a.shares.atomic).sum = s.atomic := by
  rw [LadderPlan.expectedShares, foldlM_addShares_ok, ExactAmount.atomic_zero, Nat.zero_add]

/-- The sum of the shares of the asks. -/
def sharesSum (asks : List AskLevel) : ℚ := (asks.map fun a => a.shares.toRat).sum

/-- The sum of the costs of the asks. -/
def costSum (asks : List AskLevel) : ℚ := (asks.map AskLevel.cost).sum

theorem sharesSum_eq (asks : List AskLevel) :
    sharesSum asks = ((asks.map fun a => a.shares.atomic).sum : ℕ) / 10 ^ 6 := by
  induction asks with
  | nil => simp [sharesSum]
  | cons a asks ih =>
    rw [sharesSum] at ih ⊢
    rw [List.map_cons, List.sum_cons, ih, List.map_cons, List.sum_cons, ExactAmount.toRat]
    push_cast
    ring

theorem costSum_nonneg {asks : List AskLevel} (h : ∀ a ∈ asks, VenuePrice a.price) :
    0 ≤ costSum asks := by
  refine List.sum_nonneg fun x hx => ?_
  obtain ⟨a, ha, rfl⟩ := List.mem_map.mp hx
  exact AskLevel.cost_nonneg (h a ha)

theorem costSum_le {asks : List AskLevel} {p : ℚ}
    (h : ∀ a ∈ asks, a.price.toRat ≤ p) : costSum asks ≤ sharesSum asks * p := by
  induction asks with
  | nil => simp [costSum, sharesSum]
  | cons a asks ih =>
    have hrest := ih fun b hb => h b (List.mem_cons_of_mem _ hb)
    have ha : a.cost ≤ a.shares.toRat * p :=
      mul_le_mul_of_nonneg_left (h a List.mem_cons_self) a.shares.toRat_nonneg
    rw [costSum, sharesSum] at hrest ⊢
    rw [List.map_cons, List.sum_cons, List.map_cons, List.sum_cons, add_mul]
    exact add_le_add ha hrest

/-- On venue prices the spend adds up exactly. -/
theorem foldlM_addCost (law : arith.Lawful) : ∀ {asks : List AskLevel} {t : Decimal},
    (∀ a ∈ asks, VenuePrice a.price) → OnGrid 14 t.val → 0 ≤ t.val →
    t.val + costSum asks < 10 ^ 14 →
    ∃ d, asks.foldlM (addCost arith) t = .ok d ∧ d.val = t.val + costSum asks
  | [], t, _, _, _, _ => ⟨t, rfl, by simp [costSum]⟩
  | a :: asks, t, hp, hgrid, h0, hlt => by
    have ha := hp a List.mem_cons_self
    have hrest : ∀ b ∈ asks, VenuePrice b.price := fun b hb => hp b (List.mem_cons_of_mem _ hb)
    have hsum : costSum (a :: asks) = a.cost + costSum asks := by
      simp [costSum]
    have hrest0 := costSum_nonneg hrest
    have ha0 := AskLevel.cost_nonneg ha
    rw [hsum] at hlt ⊢
    have hrep : Representable (a.shares.toDecimal.val * a.price.val.val) :=
      representable_cost (AskLevel.onGrid_cost ha) ha0 ((AskLevel.cost_lt ha).trans (by norm_num))
    have hgrid' : OnGrid 14 (t.val + a.cost) := hgrid.add (AskLevel.onGrid_cost ha)
    have hrep' : Representable (t.val + a.cost) :=
      representable_cost hgrid' (add_nonneg h0 ha0) (by linarith)
    obtain ⟨d, hd, hval⟩ := foldlM_addCost law (t := ⟨_, hrep'⟩) hrest hgrid' (add_nonneg h0 ha0)
      (by simp only; linarith)
    refine ⟨d, foldlM_cons_ok.mpr ⟨⟨_, hrep'⟩, ?_, hd⟩, by rw [hval]; simp only; ring⟩
    rw [addCost, okOr_eq_ok, levelCost, law.mul_exact _ _ hrep, Option.bind_some]
    exact law.add_exact t _ hrep'

theorem expectedSpend_ok (law : arith.Lawful) (hp : ∀ a ∈ plan.usedAsks, VenuePrice a.price)
    (bound : CollateralAmount) (hle : costSum plan.usedAsks ≤ bound.toRat) :
    ∃ spend, plan.expectedSpend arith = .ok spend
      ∧ spend.toRat = floorTo 6 (costSum plan.usedAsks) := by
  have h0 := costSum_nonneg hp
  have hlt := hle.trans_lt bound.toRat_le
  obtain ⟨d, hd, hval⟩ := foldlM_addCost law (t := .zero) hp ⟨0, by simp⟩ le_rfl (by
    rw [Decimal.val_zero, zero_add]
    exact hlt.trans (by norm_num))
  rw [Decimal.val_zero, zero_add] at hval
  -- the floored sum fits into an amount because its bound does
  obtain ⟨spend, hspend⟩ : ∃ spend : CollateralAmount,
      spend.toRat = floorTo 6 (costSum plan.usedAsks) :=
    ExactAmount.exists_toRat (onGrid_floorTo 6 _) (floorTo_nonneg h0)
      ((floorTo_le _ _).trans_lt hlt)
  refine ⟨spend, ?_, hspend⟩
  rw [LadderPlan.expectedSpend, expectedSpendDecimal, hd]
  exact (floorAmount_ok law le_rfl).mpr (by rw [hspend, hval])

/--
An approximation of a proper fraction stays in the unit interval when it is exact at the
ends: off the ends the fraction is further from them than the error.
-/
theorem unit_of_near {a b : Nat} {c : ℚ} (hab : a ≤ b) (hb0 : 0 < b) (hb : b < 2 ^ 64)
    (hnear : |c - a / b| ≤ 1 / 10 ^ 28) (hzero : a = 0 → c = 0) (hone : a = b → c = 1) :
    0 ≤ c ∧ c ≤ 1 := by
  have hbq : (0 : ℚ) < b := by exact_mod_cast hb0
  have hsmall : (1 : ℚ) / 10 ^ 28 < 1 / b := by
    rw [div_lt_div_iff₀ (by positivity) hbq]
    have : (b : ℚ) < 2 ^ 64 := by exact_mod_cast hb
    linarith
  obtain ⟨hlow, hhigh⟩ := abs_le.mp hnear
  constructor
  · by_cases hz : a = 0
    · rw [hzero hz]
    · have ha : (1 : ℚ) ≤ a := by exact_mod_cast Nat.one_le_iff_ne_zero.mpr hz
      have : 1 / (b : ℚ) ≤ a / b := by gcongr
      linarith
  · by_cases he : a = b
    · rw [hone he]
    · have ha : (a : ℚ) + 1 ≤ b := by exact_mod_cast (by omega : a + 1 ≤ b)
      have : (a : ℚ) / b + 1 / b ≤ 1 := by
        rw [← add_div, div_le_one hbq]
        exact ha
      linarith

variable {spend : CollateralAmount} {shares : ShareAmount}

/-- The quotient of a spend by at least as many shares is a price. -/
theorem checkedDiv_price (law : arith.Lawful) (hle : spend.toRat ≤ shares.toRat)
    (hpos : 0 < shares.toRat) :
    ∃ c price, arith.checkedDiv spend.toDecimal shares.toDecimal = some c
      ∧ Price.new c = .ok price := by
  have hq0 : 0 ≤ spend.toRat / shares.toRat := div_nonneg spend.toRat_nonneg hpos.le
  have hq1 : |spend.toRat / shares.toRat| ≤ 1 := by
    rw [abs_of_nonneg hq0]
    exact (div_le_one hpos).mpr hle
  obtain ⟨c, hc⟩ := Option.isSome_iff_exists.mp (law.div_some spend.toDecimal shares.toDecimal
    hpos.ne' (by
      exact hq1.trans_lt (by norm_num)))
  have hnear := (law.div_near _ _ _ hc).2
  have hexact : ∀ q : ℚ, spend.toRat / shares.toRat = q → Representable q → c.val = q := by
    intro q hq hrep
    rw [← hq] at hrep ⊢
    exact law.div_val hc hrep
  have hatomic : 0 < shares.atomic := by
    refine Nat.pos_of_ne_zero fun hz => hpos.ne' ?_
    rw [ExactAmount.toRat, hz, Nat.cast_zero, zero_div]
  have hratio : spend.toRat / shares.toRat = spend.atomic / shares.atomic := by
    unfold ExactAmount.toRat
    field_simp
  obtain ⟨hc0, hc1⟩ := unit_of_near (ExactAmount.toRat_le_iff.mp hle) hatomic shares.lt
    (hratio ▸ hnear.trans (decimalError_of_le le_rfl hq1))
    (fun hz => hexact 0 (by rw [hratio, hz]; simp) Decimal.zero.repr)
    (fun he => hexact 1 (by
      rw [hratio, he]
      exact div_self (by exact_mod_cast hatomic.ne')) Decimal.one.repr)
  exact ⟨c, ⟨c⟩, hc, Price.new_ok.mpr ⟨rfl, hc0, hc1⟩⟩

theorem vwap_isSome (law : arith.Lawful) (hshares : plan.expectedShares = .ok shares)
    (hspend : plan.expectedSpend arith = .ok spend) (hle : spend.toRat ≤ shares.toRat)
    (hpos : 0 < shares.toRat) : (plan.vwap arith).isSome := by
  obtain ⟨c, price, hc, hprice⟩ := checkedDiv_price law hle hpos
  have hdec : ¬ shares.toDecimal ≤ .zero := not_le.mpr hpos
  simp [LadderPlan.vwap, hshares, hspend, Except.toOption, hdec, hc, hprice]

/-! ## Dust -/

/--
The walk stops at a level of which the rest buys no millionth of a share, and which is
dearer than everything it took.
-/
def endsInDust (s : Spent AskLevel ℚ) : Bool :=
  s.stop.any fun level => partShares s.left level.price = 0
    ∧ s.whole.getLast?.map AskLevel.price ≠ some level.price

/-- The millionths of a share that a walk takes. -/
def fillShares (s : Spent AskLevel ℚ) : Nat := ((fills s).map fun a => a.shares.atomic).sum

section

variable {s : Spent AskLevel ℚ}

theorem fills_of_none (h : s.stop = none) : fills s = s.whole := by simp [fills, h]

variable {level : AskLevel}

theorem fills_of_some (h : s.stop = some level) :
    fills s = s.whole ++ partFill s.left level := by simp [fills, h]

theorem partFill_eq_nil {left : ℚ} (h : partShares left level.price = 0) :
    partFill left level = [] := by
  unfold partFill
  rw [dif_neg (by omega)]

theorem partFill_eq_singleton {left : ℚ} (h : partShares left level.price ≠ 0)
    (hlt : partShares left level.price < 2 ^ 64) :
    partFill left level = [⟨level.price, ⟨partShares left level.price, hlt⟩⟩] := by
  unfold partFill
  rw [dif_pos ⟨by omega, hlt⟩]

/-- The first ask taken is the first level reached. -/
theorem fills_head (hne : fills s ≠ []) :
    (fills s).head?.map AskLevel.price = s.reached.head?.map AskLevel.price := by
  cases hw : s.whole with
  | cons a l =>
    unfold fills Spent.reached
    rw [hw]
    rfl
  | nil =>
    cases hs : s.stop with
    | none => exact absurd (by rw [fills_of_none hs, hw]) hne
    | some level =>
      rw [fills_of_some hs, hw, List.nil_append] at hne ⊢
      unfold partFill at hne ⊢
      split
      · simp [Spent.reached, hw, hs]
      · rename_i h
        exact absurd (by rw [dif_neg h]) hne

/-- **The last ask taken is the last level reached unless the walk ends in dust.** -/
theorem fills_last
    (hpart : ∀ level, s.stop = some level → partShares s.left level.price < 2 ^ 64) :
    (fills s).getLast?.map AskLevel.price = s.reached.getLast?.map AskLevel.price
      ↔ endsInDust s = false := by
  cases hs : s.stop with
  | none => simp [fills_of_none hs, Spent.reached, endsInDust, hs]
  | some level =>
    rw [fills_of_some hs]
    by_cases hz : partShares s.left level.price = 0
    · rw [partFill_eq_nil hz, List.append_nil]
      simp [Spent.reached, endsInDust, hs, hz]
    · rw [partFill_eq_singleton hz (hpart level hs)]
      simp [Spent.reached, endsInDust, hs, hz]

end

theorem asksAreOrdered_of : ∀ {asks : List AskLevel},
    (asks.Pairwise fun a b => a.price.toRat ≤ b.price.toRat) →
    (∀ a ∈ asks, a.price ≠ .zero ∧ a.shares ≠ .zero) → asksAreOrdered asks = true
  | [], _, _ => rfl
  | [_], _, _ => rfl
  | a :: b :: rest, hsorted, hne => by
    obtain ⟨ha, hrest⟩ := List.pairwise_cons.mp hsorted
    have hna := hne a List.mem_cons_self
    have hnb := hne b (by simp)
    rw [asksAreOrdered, asksAreOrdered_of hrest fun c hc => hne c (List.mem_cons_of_mem _ hc),
      Bool.and_true]
    simp only [pairOrdered, decide_eq_true_eq]
    exact ⟨ha b (by simp), hna.1, hnb.1, hna.2, hnb.2⟩

/-- The asks run from the best ask to the limit price, none of them without shares. -/
theorem endpointsMatch_iff (hne : ∀ a ∈ plan.usedAsks, a.price ≠ .zero ∧ a.shares ≠ .zero) :
    endpointsMatch plan = true ↔
      plan.usedAsks.head?.map AskLevel.price = some plan.bestAsk
        ∧ plan.usedAsks.getLast?.map AskLevel.price = some plan.limitPrice := by
  unfold endpointsMatch
  rw [Bool.and_eq_true]
  refine and_congr ?_ ?_
  · cases hh : plan.usedAsks.head? with
    | none => simp
    | some a =>
      have := (hne a (List.mem_of_mem_head? hh)).2
      simp [this]
  · cases hl : plan.usedAsks.getLast? with
    | none => simp
    | some a =>
      have := (hne a (List.mem_of_getLast? hl)).2
      simp [this]

/-! ## What a plan expects covers what it signs -/

theorem sharesSum_append (l l' : List AskLevel) : sharesSum (l ++ l') = sharesSum l + sharesSum l' := by
  simp [sharesSum]

theorem costSum_append (l l' : List AskLevel) : costSum (l ++ l') = costSum l + costSum l' := by
  simp [costSum]

theorem onGrid_sharesSum (l : List AskLevel) : OnGrid 6 (sharesSum l) :=
  ⟨_, by rw [sharesSum_eq, Int.cast_natCast]⟩

section

variable {left : ℚ} {level : AskLevel}

/-- What is left floors to the shares of the part. -/
theorem floorTo_left (h0 : 0 ≤ left / level.price.toRat) :
    floorTo 6 (left / level.price.toRat) = (partShares left level.price : ℚ) / 10 ^ 6 := by
  have hfloor : 0 ≤ ⌊left / level.price.toRat * 10 ^ 6⌋ :=
    Int.floor_nonneg.mpr (mul_nonneg h0 (by positivity))
  rw [floorTo, partShares]
  congr 1
  exact_mod_cast (Int.toNat_of_nonneg hfloor).symm

variable (hlt : partShares left level.price < 2 ^ 64)
include hlt

theorem sharesSum_partFill :
    sharesSum (partFill left level) = (partShares left level.price : ℚ) / 10 ^ 6 := by
  by_cases hz : partShares left level.price = 0
  · rw [partFill_eq_nil hz, hz]; simp [sharesSum]
  · rw [partFill_eq_singleton hz hlt]; simp [sharesSum, ExactAmount.toRat]

theorem costSum_partFill :
    costSum (partFill left level)
      = (partShares left level.price : ℚ) / 10 ^ 6 * level.price.toRat := by
  by_cases hz : partShares left level.price = 0
  · rw [partFill_eq_nil hz, hz]; simp [costSum]
  · rw [partFill_eq_singleton hz hlt]; simp [costSum, AskLevel.cost, ExactAmount.toRat]

end

/-- The rest of the principal buys less than the level it stops at holds. -/
theorem partShares_lt {left : ℚ} {level : AskLevel} (hpos : 0 < level.price.toRat)
    (hstop : left < level.cost) : partShares left level.price < 2 ^ 64 := by
  have hquot : left / level.price.toRat * 10 ^ 6 < level.shares.atomic := by
    have hlt : left / level.price.toRat < level.shares.toRat := by
      rw [div_lt_iff₀ hpos]; exact hstop
    rw [ExactAmount.toRat, lt_div_iff₀ (by positivity)] at hlt
    exact hlt
  have hfloor : ⌊left / level.price.toRat * 10 ^ 6⌋ < (level.shares.atomic : ℤ) :=
    Int.floor_lt.mpr (by exact_mod_cast hquot)
  have := level.shares.lt
  unfold partShares
  omega

section

variable {bounds : PriceBounds} {asks : List AskLevel} {scale : Nat} {principal : CollateralAmount}
  {plan : LadderPlan} {st : WalkState}

/-- The facts about a plan's exact walk that the audit rests on. -/
structure PlanWalk (plan : LadderPlan) (principal : CollateralAmount) (scale : Nat)
    (s : Spent AskLevel ℚ) : Prop where
  used : plan.usedAsks = fills s
  best : s.reached.head?.map AskLevel.price = some plan.bestAsk
  limit : s.reached.getLast?.map AskLevel.price = some plan.limitPrice
  limit_pos : 0 < plan.limitPrice.toRat
  venue : ∀ a ∈ fills s, VenuePrice a.price
  whole_le : ∀ a ∈ s.whole, a.price.toRat ≤ plan.limitPrice.toRat
  stop_price : ∀ level, s.stop = some level → level.price = plan.limitPrice
  stop_cost : ∀ level, s.stop = some level → s.left < level.cost
  left_nonneg : 0 ≤ s.left
  total : costSum s.whole + s.left = principal.toRat
  debit : plan.worstCaseDebit.toRat = min principal.toRat (floorTo 6 (costSum s.reached))
  shares : plan.shares.toRat
    = floorTo scale (plan.worstCaseDebit.toRat / plan.limitPrice.toRat)

theorem PlannedFrom.planWalk (law : arith.Lawful)
    (h : PlannedFrom arith asks bounds scale principal plan st)
    (hprices : ∀ a ∈ asks, VenuePrice a.price) (hscale : scale ≤ 6) :
    PlanWalk plan principal scale (exactWalk bounds asks principal) := by
  have hused := h.usedAsks_eq law hprices
  have hlimit := h.limit_venue law hprices
  obtain ⟨hne, hshares⟩ := sharesForPrincipal_ok law hlimit hscale h.shares
  have hpos := hlimit.pos hne
  have hord := h.used_ordered
  exact {
    used := hused
    best := h.bestAsk_eq law hprices
    limit := h.limitPrice_eq law hprices
    limit_pos := hpos
    venue := by
      intro a ha
      rcases List.mem_append.mp ha with ha | ha
      · exact hprices a (mem_of_reached (List.mem_append_left _ ha))
      · obtain ⟨level, hlevel, ha⟩ := List.mem_flatMap.mp ha
        have hlevel := hprices level (mem_of_reached (List.mem_append_right _ hlevel))
        unfold partFill at ha
        split at ha
        · rw [List.mem_singleton.mp ha]; exact hlevel
        · simp at ha
    whole_le := by
      intro a ha
      refine hord.limit _ h.limit a ?_
      rw [← h.used, hused]
      exact List.mem_append_left _ ha
    stop_price := fun level hs => h.stop_price law hprices hs
    stop_cost := fun level hs => spend_stop _ _ level hs
    left_nonneg := spend_left_nonneg _ _ principal.toRat_nonneg
    total := spend_total _ _
    debit := h.debit_eq law hprices
    shares := hshares }

namespace PlanWalk

variable {s : Spent AskLevel ℚ}

section

variable (h : PlanWalk plan principal scale s)

include h

theorem part_lt : ∀ level, s.stop = some level → partShares s.left level.price < 2 ^ 64 := by
  intro level hs
  refine partShares_lt ?_ (h.stop_cost level hs)
  rw [h.stop_price level hs]
  exact h.limit_pos

/-- When the walk stops inside a level, the whole principal is signed. -/
theorem debit_of_some {level : AskLevel} (hs : s.stop = some level) :
    plan.worstCaseDebit.toRat = principal.toRat := by
  rw [h.debit]
  refine min_eq_left ((le_floorTo principal.onGrid_toRat).mpr ?_)
  have hreached : costSum s.reached = costSum s.whole + level.cost := by
    rw [Spent.reached, hs, costSum_append]
    simp [costSum]
  rw [hreached, ← h.total]
  exact add_le_add le_rfl (h.stop_cost level hs).le

/-- When it does not, what was taken is signed, floored. -/
theorem debit_of_none (hs : s.stop = none) :
    plan.worstCaseDebit.toRat = floorTo 6 (costSum s.whole) := by
  have hreached : s.reached = s.whole := by simp [Spent.reached, hs]
  rw [h.debit, hreached]
  refine min_eq_right ((floorTo_le _ _).trans ?_)
  have := h.left_nonneg
  have := h.total
  linarith

theorem costSum_whole_le : costSum s.whole ≤ sharesSum s.whole * plan.limitPrice.toRat :=
  costSum_le h.whole_le

/-- **The expected shares cover the signed quantity.** -/
theorem shares_le (hscale : scale ≤ 6) : plan.shares.toRat ≤ sharesSum (fills s) := by
  have hpos := h.limit_pos
  rw [h.shares]
  cases hs : s.stop with
  | none =>
    -- everything reached was taken whole, at the limit or below
    rw [fills_of_none hs]
    refine (floorTo_le _ _).trans ?_
    rw [div_le_iff₀ hpos, h.debit_of_none hs]
    exact (floorTo_le _ _).trans h.costSum_whole_le
  | some level =>
    -- the part is floored to millionths, the signed quantity to no finer a grid
    have hprice := h.stop_price level hs
    have hquot0 : 0 ≤ s.left / level.price.toRat := by
      rw [hprice]
      exact div_nonneg h.left_nonneg hpos.le
    rw [fills_of_some hs, sharesSum_append, sharesSum_partFill (h.part_lt level hs),
      ← floorTo_left hquot0, ← floorTo_add (onGrid_sharesSum s.whole)]
    refine (le_floorTo ((onGrid_floorTo scale _).mono hscale)).mpr
      ((floorTo_le _ _).trans ?_)
    rw [div_le_iff₀ hpos, h.debit_of_some hs, ← h.total, add_mul, hprice,
      div_mul_cancel₀ _ hpos.ne']
    exact add_le_add h.costSum_whole_le le_rfl

/-- **The expected spend stays within the signed principal.** -/
theorem spend_le : floorTo 6 (costSum (fills s)) ≤ plan.worstCaseDebit.toRat
      ∧ costSum (fills s) ≤ principal.toRat := by
  cases hs : s.stop with
  | none =>
    rw [fills_of_none hs, h.debit_of_none hs]
    have := h.left_nonneg
    have := h.total
    exact ⟨le_rfl, by linarith⟩
  | some level =>
    have hpos := h.limit_pos
    have hprice := h.stop_price level hs
    have hquot0 : 0 ≤ s.left / level.price.toRat := by
      rw [hprice]
      exact div_nonneg h.left_nonneg hpos.le
    have hle : costSum (fills s) ≤ principal.toRat := by
      rw [fills_of_some hs, costSum_append, costSum_partFill (h.part_lt level hs),
        ← floorTo_left hquot0, ← h.total]
      refine add_le_add le_rfl ?_
      rw [← le_div_iff₀ (by rw [hprice]; exact hpos)]
      exact floorTo_le _ _
    rw [h.debit_of_some hs]
    exact ⟨(floorTo_le _ _).trans hle, hle⟩

end

end PlanWalk

end

end PredictionEdge
