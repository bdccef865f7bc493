import PredictionEdge.Venue.Ladder
import PredictionEdge.Lib.Spend

/-!
# The exact walk

In exact arithmetic the walk is a budget spent along the asks of the band. On prices of
at most eight decimals the decimal library makes no difference: costs, remainders and
capacities are exact, and a quotient is near enough to its exact value to floor to the
same. There the code's walk takes exactly what the exact walk takes.
-/

namespace PredictionEdge

open Lib

/-- A price of a unit interval in at most eight decimals. -/
structure VenuePrice (p : Price) : Prop where
  nonneg : 0 ≤ p.toRat
  le_one : p.toRat ≤ 1
  grid : OnGrid 8 p.toRat

theorem VenuePrice.pos {p : Price} (hp : VenuePrice p) (hp0 : p ≠ .zero) : 0 < p.toRat :=
  lt_of_le_of_ne hp.nonneg fun h => hp0 (Price.toRat_injective h.symm)

/-- What a level costs. -/
def AskLevel.cost (a : AskLevel) : ℚ := a.shares.toRat * a.price.toRat

/-- The asks before the first one past the band. -/
def PriceBounds.inBand (bounds : PriceBounds) (asks : List AskLevel) : List AskLevel :=
  asks.takeWhile fun a => ¬ bounds.isPast a

/-- The millionths of a share that a value buys at a price, rounded down. -/
def partShares (left : ℚ) (price : Price) : Nat := ⌊left / price.toRat * 10 ^ 6⌋.toNat

/-- What the walk takes of the level it ends in. -/
def partFill (left : ℚ) (level : AskLevel) : List AskLevel :=
  if h : 0 < partShares left level.price ∧ partShares left level.price < 2 ^ 64 then
    [⟨level.price, ⟨partShares left level.price, h.2⟩⟩]
  else []

/-- Everything a walk takes. -/
def fills (s : Spent AskLevel ℚ) : List AskLevel :=
  s.whole ++ s.stop.toList.flatMap (partFill s.left)

/-- The walk of a principal, in exact arithmetic. -/
def exactWalk (bounds : PriceBounds) (asks : List AskLevel) (principal : CollateralAmount) :
    Spent AskLevel ℚ :=
  spend AskLevel.cost (bounds.inBand asks) principal.toRat

/-! ## Exact costs and floored quotients -/

variable {value : Decimal} {field : String} {dp : Nat} {amount : ExactAmount field}

section

variable {arith : DecimalArith} {level : AskLevel}

theorem AskLevel.cost_nonneg (hp : VenuePrice level.price) : 0 ≤ level.cost :=
  mul_nonneg level.shares.toRat_nonneg hp.nonneg

theorem AskLevel.cost_lt (hp : VenuePrice level.price) : level.cost < 2 ^ 64 / 10 ^ 6 := by
  have hle : level.cost ≤ level.shares.toRat * 1 :=
    mul_le_mul_of_nonneg_left hp.le_one level.shares.toRat_nonneg
  rw [mul_one] at hle
  exact hle.trans_lt level.shares.toRat_le

theorem AskLevel.onGrid_cost (hp : VenuePrice level.price) : OnGrid 14 level.cost :=
  level.shares.onGrid_toRat.mul hp.grid

/-- A value on the grid of costs that is far from overflowing. -/
theorem representable_cost {x : ℚ} (h : OnGrid 14 x) (h0 : 0 ≤ x) (hx : x < 10 ^ 14) :
    Representable x := by
  refine Decimal.representable_of_onGrid h (by decide) ?_
  rw [abs_of_nonneg h0]
  linarith

theorem levelCost_eq (law : arith.Lawful) (hp : VenuePrice level.price) {cost : Decimal}
    (h : levelCost arith level = some cost) : cost.val = level.cost := by
  have hrep : Representable (level.shares.toDecimal.val * level.price.val.val) :=
    representable_cost (AskLevel.onGrid_cost hp) (AskLevel.cost_nonneg hp)
      ((AskLevel.cost_lt hp).trans (by norm_num))
  exact law.mul_val h hrep

/-- **A quotient by a price floors as the exact quotient does.** -/
theorem floorTo_checkedDiv (law : arith.Lawful) {a c : Decimal} {p : Price} (ha : OnGrid 14 a.val)
    (hp : VenuePrice p) (hp0 : p ≠ .zero) (hc : arith.checkedDiv a p.val = some c)
    (hx : |a.val / p.toRat| ≤ 2 * 10 ^ 13) (hdp : dp ≤ 6) :
    floorTo dp c.val = floorTo dp (a.val / p.toRat) := by
  obtain ⟨n, hn⟩ := ha
  obtain ⟨k, hk⟩ := hp.grid
  have hpos := hp.pos hp0
  have hk0 : 0 < k := by
    rw [hk, lt_div_iff₀ (by positivity), zero_mul] at hpos
    exact_mod_cast hpos
  have hk1 : k ≤ 10 ^ 8 := by
    have := hp.le_one
    rw [hk, div_le_one (by positivity)] at this
    exact_mod_cast this
  obtain ⟨K, rfl⟩ := Int.eq_ofNat_of_zero_le hk0.le
  have hK0 : 0 < K := by exact_mod_cast hk0
  have hK1 : (K : ℚ) ≤ 10 ^ 8 := by exact_mod_cast hk1
  have hsix : (10 : ℚ) ^ 6 = 10 ^ (6 - dp) * 10 ^ dp := by
    rw [← pow_add, Nat.sub_add_cancel hdp]
  have hquot : a.val / p.toRat = n / (((K * 10 ^ (6 - dp) : Nat) : ℚ) * 10 ^ dp) := by
    push_cast
    rw [mul_assoc, ← hsix, hn, hk]
    push_cast
    field_simp
  refine floorTo_approx (by positivity) hquot ?_ (law.div_near _ _ _ hc).2 ?_
  · intro hgrid
    have hrep : Representable (a.val / p.val.val) := by
      refine Decimal.representable_of_onGrid (hgrid.mono hdp) (by decide) ?_
      refine lt_of_le_of_lt (mul_le_mul_of_nonneg_right hx (by positivity)) (by norm_num)
    exact law.div_val hc hrep
  · refine lt_of_le_of_lt (decimalError_of_le (by norm_num) hx) ?_
    rw [div_lt_div_iff₀ (by positivity) (by positivity)]
    have hd : ((K * 10 ^ (6 - dp) : Nat) : ℚ) * 10 ^ dp = K * 10 ^ 6 := by
      push_cast
      rw [mul_assoc, ← hsix]
    have hle : 2 * 10 ^ 13 * ((K : ℚ) * 10 ^ 6) ≤ 2 * 10 ^ 13 * (10 ^ 8 * 10 ^ 6) := by gcongr
    rw [hd]
    exact hle.trans_lt (by norm_num)

theorem floorAmount_eq_ok (law : arith.Lawful) (h : OnGrid 6 (floorTo dp value.val)) :
    floorAmount arith dp value = .ok amount ↔ amount.toRat = floorTo dp value.val := by
  rw [floorAmount, mapError_eq_ok, ExactAmount.fromDecimalExact_ok law]
  · rfl
  · exact h

theorem floorAmount_ok (law : arith.Lawful) (hdp : dp ≤ 6) :
    floorAmount arith dp value = .ok amount ↔ amount.toRat = floorTo dp value.val :=
  floorAmount_eq_ok law ((onGrid_floorTo dp value.val).mono hdp)

end

/-! ## The runs of the loop -/

/-- A level that the walk reaches, with its cost and the capacity up to it. -/
structure Reaches (arith : DecimalArith) (bounds : PriceBounds) (st : WalkState) (level : AskLevel)
    (cost capacity : Decimal) : Prop where
  order : ∀ prior, st.usedAsks.getLast? = some prior → prior.price ≤ level.price
  inBand : ¬ bounds.isPast level
  price_ne : level.price ≠ .zero
  shares_ne : level.shares ≠ .zero
  cost_eq : levelCost arith level = some cost
  capacity_eq : arith.checkedAdd st.inBandCapacity cost = some capacity

/-- The successful runs of the walk, by the way they end. -/
inductive Walks (arith : DecimalArith) (bounds : PriceBounds) :
    List AskLevel → WalkState → WalkState → Prop
  | done {st} : Walks arith bounds [] st st
  | past {st level rest} (h : bounds.isPast level) : Walks arith bounds (level :: rest) st st
  | filled {st level rest cost capacity remaining}
      (reaches : Reaches arith bounds st level cost capacity) (pays : cost ≤ st.remaining)
      (sub : arith.checkedSub st.remaining cost = some remaining) (nothing : remaining = .zero) :
      Walks arith bounds (level :: rest) st ((st.reach level capacity).takeWhole level remaining)
  | further {st level rest cost capacity remaining st'}
      (reaches : Reaches arith bounds st level cost capacity) (pays : cost ≤ st.remaining)
      (sub : arith.checkedSub st.remaining cost = some remaining) (something : remaining ≠ .zero)
      (walks : Walks arith bounds rest ((st.reach level capacity).takeWhole level remaining) st') :
      Walks arith bounds (level :: rest) st st'
  | within {st level rest cost capacity part shares}
      (reaches : Reaches arith bounds st level cost capacity) (stops : ¬ cost ≤ st.remaining)
      (div : arith.checkedDiv st.remaining level.price.val = some part)
      (floor : decimalToAtomicShares arith part = .ok shares) :
      Walks arith bounds (level :: rest) st ((st.reach level capacity).takePart level.price shares)

theorem validateLevelOrder_ok {used : List AskLevel} {next : AskLevel} :
    validateLevelOrder used next = .ok () ↔
      ∀ prior, used.getLast? = some prior → prior.price ≤ next.price := by
  rw [validateLevelOrder, refuseIf_eq_ok]
  cases used.getLast? with
  | none => simp
  | some prior =>
    simp only [Option.any_some, decide_eq_true_eq, Option.some.injEq, forall_eq', Price.lt_iff,
      Price.le_iff, not_lt]

variable {bounds : PriceBounds}

/-- **A success of the loop is one of its runs.** -/
theorem walks_of_ok {arith : DecimalArith} : ∀ {asks : List AskLevel} {st st' : WalkState},
    walkLevels arith bounds asks st = .ok st' → Walks arith bounds asks st st'
  | [], st, st', h => by
    rw [walkLevels, Except.ok.injEq] at h
    subst h
    exact .done
  | level :: rest, st, st', h => by
    obtain ⟨_, horder, h⟩ := bind_eq_ok.mp h
    obtain ⟨_, _, h⟩ := bind_eq_ok.mp h
    split at h
    · rename_i hpast
      rw [← pure_eq_ok.mp h]
      exact .past hpast
    rename_i hband
    obtain ⟨_, hvalid, h⟩ := bind_eq_ok.mp h
    rw [refuseIf_eq_ok, not_or] at hvalid
    obtain ⟨cost, hcost, h⟩ := bind_eq_ok.mp h
    obtain ⟨capacity, hcapacity, h⟩ := bind_eq_ok.mp h
    have hreach : Reaches arith bounds st level cost capacity :=
      ⟨validateLevelOrder_ok.mp horder, hband, hvalid.1, hvalid.2, okOr_eq_ok.mp hcost,
        okOr_eq_ok.mp hcapacity⟩
    dsimp only at h
    split at h
    · rename_i hpays
      obtain ⟨remaining, hsub, h⟩ := bind_eq_ok.mp h
      split at h
      · rename_i hzero
        rw [← pure_eq_ok.mp h]
        exact .filled hreach hpays (okOr_eq_ok.mp hsub) hzero
      · rename_i hzero
        exact .further hreach hpays (okOr_eq_ok.mp hsub) hzero (walks_of_ok h)
    · rename_i hstop
      obtain ⟨part, hdiv, h⟩ := bind_eq_ok.mp h
      obtain ⟨shares, hshares, h⟩ := bind_eq_ok.mp h
      rw [← pure_eq_ok.mp h]
      exact .within hreach hstop (okOr_eq_ok.mp hdiv) hshares

/-! ## The code's walk is the exact walk -/

section

variable (st : WalkState) (price : Price) (shares : ShareAmount)

theorem takePart_inBandCapacity :
    (st.takePart price shares).inBandCapacity = st.inBandCapacity := by
  unfold WalkState.takePart; split <;> rfl

theorem takePart_bestAsk : (st.takePart price shares).bestAsk = st.bestAsk := by
  unfold WalkState.takePart; split <;> rfl

theorem takePart_limitPrice : (st.takePart price shares).limitPrice = st.limitPrice := by
  unfold WalkState.takePart; split <;> rfl

end

theorem PriceBounds.inBand_past {level : AskLevel} {rest : List AskLevel} (h : bounds.isPast level) :
    bounds.inBand (level :: rest) = [] := by
  simp [PriceBounds.inBand, h]

/-- What holds of the walk's variables between two levels, on venue prices. -/
structure WalkInv (total : ℚ) (st : WalkState) : Prop where
  remaining_grid : OnGrid 14 st.remaining.val
  capacity_grid : OnGrid 14 st.inBandCapacity.val
  remaining_nonneg : 0 ≤ st.remaining.val
  capacity_nonneg : 0 ≤ st.inBandCapacity.val
  sum_eq : st.inBandCapacity.val + st.remaining.val = total

theorem WalkInv.start (principal : CollateralAmount) :
    WalkInv principal.toRat (.start principal) where
  remaining_grid := principal.onGrid_toRat.mono (by decide)
  capacity_grid := ⟨0, by simp [WalkState.start]⟩
  remaining_nonneg := principal.toRat_nonneg
  capacity_nonneg := le_rfl
  sum_eq := by simp [WalkState.start, ExactAmount.val_toDecimal]

variable {shares : ShareAmount}

section

variable {arith : DecimalArith} {bounds : PriceBounds} {st : WalkState} {level : AskLevel}
  {cost capacity remaining : Decimal} {total : ℚ}

section

variable (h : Reaches arith bounds st level cost capacity) (law : arith.Lawful)
  (hp : VenuePrice level.price)

include h law hp

theorem Reaches.cost_val : cost.val = level.cost :=
  levelCost_eq law hp h.cost_eq

theorem Reaches.capacity_val (hinv : WalkInv total st) (htotal : total < 2 ^ 64 / 10 ^ 6) :
    capacity.val = st.inBandCapacity.val + level.cost := by
  have hcost := h.cost_val law hp
  have hsum : st.inBandCapacity.val + cost.val < 10 ^ 14 := by
    have := AskLevel.cost_lt hp
    have := hinv.sum_eq
    have := hinv.remaining_nonneg
    linarith
  have hrep : Representable (st.inBandCapacity.val + cost.val) := by
    refine representable_cost (hinv.capacity_grid.add (hcost ▸ AskLevel.onGrid_cost hp)) ?_ hsum
    exact add_nonneg hinv.capacity_nonneg (hcost ▸ AskLevel.cost_nonneg hp)
  rw [law.add_val h.capacity_eq hrep, hcost]

/-- Paying for a level takes its exact cost from what remains. -/
theorem Reaches.paid (hinv : WalkInv total st) (htotal : total < 2 ^ 64 / 10 ^ 6)
    (hpays : cost ≤ st.remaining) (hsub : arith.checkedSub st.remaining cost = some remaining) :
    level.cost ≤ st.remaining.val ∧ remaining.val = st.remaining.val - level.cost := by
  have hcost := h.cost_val law hp
  have hle : level.cost ≤ st.remaining.val := hcost ▸ hpays
  have hrep : Representable (st.remaining.val - cost.val) := by
    rw [hcost]
    refine representable_cost (hinv.remaining_grid.sub (AskLevel.onGrid_cost hp))
      (sub_nonneg.mpr hle) ?_
    have := AskLevel.cost_nonneg hp
    have := hinv.sum_eq
    have := hinv.capacity_nonneg
    linarith
  exact ⟨hle, by rw [law.sub_val hsub hrep, hcost]⟩

end

theorem Reaches.inBand_cons (h : Reaches arith bounds st level cost capacity)
    (rest : List AskLevel) : bounds.inBand (level :: rest) = level :: bounds.inBand rest := by
  simp [PriceBounds.inBand, h.inBand]

/-- A level taken whole keeps the invariant. -/
theorem WalkInv.takeWhole (hinv : WalkInv total st) (hp : VenuePrice level.price)
    (hcapacity : capacity.val = st.inBandCapacity.val + level.cost)
    (hremaining : remaining.val = st.remaining.val - level.cost)
    (hpays : level.cost ≤ st.remaining.val) :
    WalkInv total ((st.reach level capacity).takeWhole level remaining) where
  remaining_grid := by
    simp only [WalkState.takeWhole, hremaining]
    exact hinv.remaining_grid.sub (AskLevel.onGrid_cost hp)
  capacity_grid := by
    simp only [WalkState.takeWhole, WalkState.reach, hcapacity]
    exact hinv.capacity_grid.add (AskLevel.onGrid_cost hp)
  remaining_nonneg := by
    simp only [WalkState.takeWhole, hremaining]
    linarith
  capacity_nonneg := by
    simp only [WalkState.takeWhole, WalkState.reach, hcapacity]
    exact add_nonneg hinv.capacity_nonneg (AskLevel.cost_nonneg hp)
  sum_eq := by
    simp only [WalkState.takeWhole, WalkState.reach, hcapacity, hremaining]
    linarith [hinv.sum_eq]

/-- The part of the last level is the exact part. -/
theorem takePart_usedAsks (st : WalkState) (law : arith.Lawful) (hp : VenuePrice level.price)
    (hp0 : level.price ≠ .zero) {part : Decimal} (hgrid : OnGrid 14 st.remaining.val)
    (h0 : 0 ≤ st.remaining.val) (hstop : st.remaining.val < level.cost)
    (hdiv : arith.checkedDiv st.remaining level.price.val = some part)
    (hfloor : decimalToAtomicShares arith part = .ok shares) :
    (st.takePart level.price shares).usedAsks
      = st.usedAsks ++ partFill st.remaining.val level := by
  have hpos := hp.pos hp0
  have hquot0 : 0 ≤ st.remaining.val / level.price.toRat := div_nonneg h0 hpos.le
  have hquot : st.remaining.val / level.price.toRat < level.shares.toRat := by
    rw [div_lt_iff₀ hpos]
    exact hstop
  have hlt := level.shares.toRat_le
  have hbound : |st.remaining.val / level.price.toRat| ≤ 2 * 10 ^ 13 := by
    rw [abs_of_nonneg hquot0]
    linarith
  have hshares : shares.toRat = floorTo 6 (st.remaining.val / level.price.toRat) := by
    rw [(floorAmount_ok law le_rfl).mp hfloor,
      floorTo_checkedDiv law hgrid hp hp0 hdiv hbound le_rfl]
  -- the floor of the quotient counts the same millionths
  have hatomic : shares.atomic = partShares st.remaining.val level.price := by
    rw [ExactAmount.toRat, floorTo, div_left_inj' (by positivity)] at hshares
    have : (shares.atomic : ℤ) = ⌊st.remaining.val / level.price.toRat * 10 ^ 6⌋ := by
      exact_mod_cast hshares
    unfold partShares
    omega
  unfold WalkState.takePart partFill
  by_cases hz : shares = .zero
  · have : shares.atomic = 0 := ExactAmount.eq_zero_iff.mp hz
    rw [if_neg (not_not.mpr hz), dif_neg (by omega), List.append_nil]
  · have : shares.atomic ≠ 0 := fun h => hz (ExactAmount.eq_zero_iff.mpr h)
    have hlt := shares.lt
    rw [if_pos hz, dif_pos (by omega)]
    simp only [List.append_cancel_left_eq, List.cons.injEq, AskLevel.mk.injEq, true_and, and_true]
    exact ExactAmount.ext_atomic hatomic

end

/-- The walk's variables after a run that took what `s` says. -/
structure Takes (st : WalkState) (s : Spent AskLevel ℚ) (st' : WalkState) : Prop where
  usedAsks : st'.usedAsks = st.usedAsks ++ fills s
  capacity : st'.inBandCapacity.val = st.inBandCapacity.val + (s.reached.map AskLevel.cost).sum
  bestAsk : st'.bestAsk = st.bestAsk.or (s.reached.head?.map AskLevel.price)
  limitPrice : st'.limitPrice = (s.reached.getLast?.map AskLevel.price).or st.limitPrice

section

variable {st st' : WalkState} {level : AskLevel} {capacity remaining : Decimal}
  {s : Spent AskLevel ℚ}

/-- A walk that takes nothing changes nothing. -/
theorem Takes.nothing (st : WalkState) (left : ℚ) : Takes st ⟨[], left, none⟩ st := by
  refine ⟨?_, ?_, ?_, ?_⟩ <;> simp [fills, Spent.reached]

/-- A level taken whole comes before what the rest of the walk takes. -/
theorem Takes.whole (hcapacity : capacity.val = st.inBandCapacity.val + level.cost)
    (h : Takes ((st.reach level capacity).takeWhole level remaining) s st') :
    Takes st ⟨level :: s.whole, s.left, s.stop⟩ st' := by
  have hreached : (⟨level :: s.whole, s.left, s.stop⟩ : Spent AskLevel ℚ).reached
      = level :: s.reached := rfl
  refine ⟨?_, ?_, ?_, ?_⟩
  · rw [h.usedAsks]
    simp [fills, WalkState.takeWhole, WalkState.reach]
  · rw [h.capacity, hreached]
    simp only [WalkState.takeWhole, WalkState.reach, hcapacity, List.map_cons, List.sum_cons]
    ring
  · rw [h.bestAsk, hreached]
    cases hb : st.bestAsk <;> simp [WalkState.takeWhole, WalkState.reach, hb]
  · rw [h.limitPrice, hreached, List.getLast?_cons]
    cases s.reached.getLast? <;> simp [WalkState.takeWhole, WalkState.reach]

/-- The level a walk ends in is reached, and its part is taken. -/
theorem Takes.part {left : ℚ} (hcapacity : capacity.val = st.inBandCapacity.val + level.cost)
    (hused : ((st.reach level capacity).takePart level.price shares).usedAsks
      = st.usedAsks ++ partFill left level) :
    Takes st ⟨[], left, some level⟩ ((st.reach level capacity).takePart level.price shares) := by
  have hreached : (⟨[], left, some level⟩ : Spent AskLevel ℚ).reached = [level] := rfl
  refine ⟨?_, ?_, ?_, ?_⟩
  · rw [hused]
    simp [fills]
  · rw [hreached, takePart_inBandCapacity]
    simp [WalkState.reach, hcapacity]
  · rw [hreached, takePart_bestAsk]
    cases hb : st.bestAsk <;> simp [WalkState.reach, hb]
  · rw [hreached, takePart_limitPrice]
    simp [WalkState.reach]

end

/--
**The code's walk takes what the exact walk takes.**
-/
theorem Walks.takes {arith : DecimalArith} (law : arith.Lawful) {asks : List AskLevel}
    {st st' : WalkState} {total : ℚ} (htotal : total < 2 ^ 64 / 10 ^ 6)
    (h : Walks arith bounds asks st st') (hprices : ∀ a ∈ asks, VenuePrice a.price)
    (hinv : WalkInv total st) :
    Takes st (spend AskLevel.cost (bounds.inBand asks) st.remaining.val) st' := by
  induction h with
  | done => exact .nothing _ _
  | past hpast =>
    rw [PriceBounds.inBand_past hpast]
    exact .nothing _ _
  | @filled st level rest cost capacity remaining hreach hpays hsub hzero =>
    have hp := hprices level List.mem_cons_self
    obtain ⟨hle, hremaining⟩ := hreach.paid law hp hinv htotal hpays hsub
    have hz : st.remaining.val - level.cost = 0 := by
      rw [← hremaining, hzero]; rfl
    rw [hreach.inBand_cons, spend_cons_filled hle hz]
    exact .whole (hreach.capacity_val law hp hinv htotal) (.nothing _ 0)
  | @further st level rest cost capacity remaining st' hreach hpays hsub hsome hwalks ih =>
    have hp := hprices level List.mem_cons_self
    have hcapacity := hreach.capacity_val law hp hinv htotal
    obtain ⟨hle, hremaining⟩ := hreach.paid law hp hinv htotal hpays hsub
    have hz : st.remaining.val - level.cost ≠ 0 := by
      intro hz
      rw [← hremaining] at hz
      exact hsome (Decimal.ext_val hz)
    have hrest := ih (fun a ha => hprices a (List.mem_cons_of_mem _ ha))
      (hinv.takeWhole hp hcapacity hremaining hle)
    -- the rest of the walk goes on with what this level leaves
    have hleft : ((st.reach level capacity).takeWhole level remaining).remaining.val
        = st.remaining.val - level.cost := hremaining
    rw [hleft] at hrest
    rw [hreach.inBand_cons, spend_cons_further hle hz]
    exact .whole hcapacity hrest
  | @within st level rest cost capacity part shares hreach hstop hdiv hfloor =>
    have hp := hprices level List.mem_cons_self
    have hstop : ¬ level.cost ≤ st.remaining.val := hreach.cost_val law hp ▸ hstop
    have hused := takePart_usedAsks (st.reach level capacity) law hp hreach.price_ne
      hinv.remaining_grid hinv.remaining_nonneg (not_le.mp hstop) hdiv hfloor
    rw [hreach.inBand_cons, spend_cons_stop hstop]
    exact .part (hreach.capacity_val law hp hinv htotal) hused

end PredictionEdge
