import PredictionEdge.Venue.ExactWalk

/-!
# What a plan was made from

Every plan comes from one principal and one run of the walk. Its asks are ordered, none of
them is empty and none is dearer than the limit price. On venue prices they are the fills
of the exact walk, and the signed principal is what the walked capacity leaves of the
requested one.
-/

namespace PredictionEdge

open Lib

variable {arith : DecimalArith} {bounds : PriceBounds}

/-! ## The asks of a run -/

/-- The asks taken so far are ordered, not empty, and not dearer than the limit. -/
structure UsedOrdered (st : WalkState) : Prop where
  sorted : st.usedAsks.Pairwise fun a b => a.price.toRat ≤ b.price.toRat
  nonzero : ∀ a ∈ st.usedAsks, a.price ≠ .zero ∧ a.shares ≠ .zero
  limit : ∀ p, st.limitPrice = some p → ∀ a ∈ st.usedAsks, a.price.toRat ≤ p.toRat

theorem UsedOrdered.start (principal : CollateralAmount) : UsedOrdered (.start principal) :=
  ⟨List.Pairwise.nil, by simp [WalkState.start], by simp [WalkState.start]⟩

variable {shares : ShareAmount}

section

variable {st : WalkState} {level : AskLevel} {cost capacity : Decimal}

/-- A level that is reached costs at least what was taken before. -/
theorem UsedOrdered.le_level (hst : UsedOrdered st)
    (h : Reaches arith bounds st level cost capacity) :
    ∀ a ∈ st.usedAsks, a.price.toRat ≤ level.price.toRat := by
  intro a ha
  obtain ⟨last, hlast⟩ := Option.isSome_iff_exists.mp
    (List.getLast?_isSome.mpr (List.ne_nil_of_mem ha))
  have hle := h.order last hlast
  obtain ⟨init, hinit⟩ := List.getLast?_eq_some_iff.mp hlast
  have hsorted := hst.sorted
  rw [hinit] at ha hsorted
  rcases List.mem_append.mp ha with ha | ha
  · exact ((List.pairwise_append.mp hsorted).2.2 a ha last (by simp)).trans hle
  · rw [List.mem_singleton.mp ha]
    exact hle

/-- Taking shares of a level that is reached keeps the order. -/
theorem UsedOrdered.take (hst : UsedOrdered st) (h : Reaches arith bounds st level cost capacity)
    (hne : shares ≠ .zero) {st' : WalkState}
    (hused : st'.usedAsks = st.usedAsks ++ [⟨level.price, shares⟩])
    (hlimit : st'.limitPrice = some level.price) : UsedOrdered st' := by
  have hle := hst.le_level h
  refine ⟨?_, ?_, ?_⟩
  · rw [hused]
    refine List.pairwise_append.mpr ⟨hst.sorted, List.pairwise_singleton _ _, ?_⟩
    intro a ha b hb
    rw [List.mem_singleton.mp hb]
    exact hle a ha
  · intro a ha
    rw [hused] at ha
    rcases List.mem_append.mp ha with ha | ha
    · exact hst.nonzero a ha
    · rw [List.mem_singleton.mp ha]
      exact ⟨h.price_ne, hne⟩
  · intro p hp a ha
    rw [hlimit, Option.some.injEq] at hp
    rw [hused] at ha
    subst hp
    rcases List.mem_append.mp ha with ha | ha
    · exact hle a ha
    · rw [List.mem_singleton.mp ha]

/-- **Every run leaves its asks ordered.** -/
theorem Walks.usedOrdered {asks : List AskLevel} {st' : WalkState}
    (h : Walks arith bounds asks st st') (hst : UsedOrdered st) : UsedOrdered st' := by
  induction h with
  | done | past _ => exact hst
  | filled hreach _ _ _ => exact hst.take hreach hreach.shares_ne rfl rfl
  | further hreach _ _ _ _ ih => exact ih (hst.take hreach hreach.shares_ne rfl rfl)
  | @within st level rest cost capacity part shares hreach _ _ _ =>
    unfold WalkState.takePart
    split
    · rename_i hne
      exact hst.take hreach hne rfl rfl
    · -- nothing is taken, but the level sets the limit
      refine ⟨hst.sorted, hst.nonzero, fun p hp a ha => ?_⟩
      simp only [WalkState.reach, Option.some.injEq] at hp
      subst hp
      exact hst.le_level hreach a ha

end

/-! ## The run behind a plan -/

/-- The principal and the run that a plan comes from. -/
structure PlannedFrom (arith : DecimalArith) (asks : List AskLevel) (bounds : PriceBounds)
    (scale : Nat) (principal : CollateralAmount) (plan : LadderPlan) (st : WalkState) : Prop where
  walks : Walks arith bounds asks (.start principal) st
  used : plan.usedAsks = st.usedAsks
  best : st.bestAsk = some plan.bestAsk
  limit : st.limitPrice = some plan.limitPrice
  debit : ∃ acceptPartial,
    walkedPrincipal arith principal acceptPartial st.inBandCapacity = .ok plan.worstCaseDebit
  shares : sharesForPrincipal arith plan.worstCaseDebit plan.limitPrice scale = .ok plan.shares
  shares_ne : plan.shares ≠ .zero
  signed : ∃ price, signedPrice arith plan.worstCaseDebit plan.shares = .ok price
    ∧ plan.limitPrice ≤ price

section

variable {asks : List AskLevel} {principal : CollateralAmount} {scale : Nat}
  {partialMinimum : Option ShareAmount} {plan : LadderPlan}

section

variable (h : planPrincipalBuyWithScale arith asks principal scale partialMinimum bounds = .ok plan)

include h

theorem planPrincipalBuyWithScale_run : ∃ st, PlannedFrom arith asks bounds scale principal plan st
      ∧ walkedPrincipal arith principal partialMinimum.isSome st.inBandCapacity
        = .ok plan.worstCaseDebit := by
  unfold planPrincipalBuyWithScale at h
  obtain ⟨_, _, h⟩ := bind_eq_ok.mp h
  obtain ⟨walked, hwalked, h⟩ := bind_eq_ok.mp h
  obtain ⟨shares, hshares, h⟩ := bind_eq_ok.mp h
  obtain ⟨_, _, h⟩ := bind_eq_ok.mp h
  obtain ⟨_, hne, h⟩ := bind_eq_ok.mp h
  obtain ⟨price, hprice, h⟩ := bind_eq_ok.mp h
  obtain ⟨_, hle, h⟩ := bind_eq_ok.mp h
  obtain rfl := pure_eq_ok.mp h
  unfold walkPrincipal at hwalked
  obtain ⟨st, hst, hwalked⟩ := bind_eq_ok.mp hwalked
  obtain ⟨debit, hdebit, hwalked⟩ := bind_eq_ok.mp hwalked
  obtain ⟨best, hbest, hwalked⟩ := bind_eq_ok.mp hwalked
  obtain ⟨limit, hlimit, hwalked⟩ := bind_eq_ok.mp hwalked
  obtain rfl := pure_eq_ok.mp hwalked
  exact ⟨st, {
    walks := walks_of_ok hst
    used := rfl
    best := okOr_eq_ok.mp hbest
    limit := okOr_eq_ok.mp hlimit
    debit := ⟨_, hdebit⟩
    shares := hshares
    shares_ne := refuseIf_eq_ok.mp hne
    signed := ⟨price, mapError_eq_ok.mp hprice, Price.le_of_not_lt (refuseIf_eq_ok.mp hle)⟩ },
    hdebit⟩

theorem planPrincipalBuyWithScale_ok :
    ∃ st, PlannedFrom arith asks bounds scale principal plan st := by
  obtain ⟨st, hfrom, _⟩ := planPrincipalBuyWithScale_run h
  exact ⟨st, hfrom⟩

end

end

variable {debit : CollateralAmount}

/-- **The signed principal**: what the capacity leaves, floored, of the requested one. -/
theorem walkedPrincipal_ok (law : arith.Lawful) {principal : CollateralAmount}
    {acceptPartial : Bool} {capacity : Decimal}
    (h : walkedPrincipal arith principal acceptPartial capacity = .ok debit) :
    debit.toRat = min principal.toRat (floorTo 6 capacity.val) := by
  unfold walkedPrincipal at h
  obtain ⟨_, hdepth, h⟩ := bind_eq_ok.mp h
  rw [refuseIf_eq_ok, not_and, Decimal.lt_iff, not_lt] at hdepth
  cases acceptPartial with
  | true =>
    obtain ⟨floor, hfloor, h⟩ := bind_eq_ok.mp h
    rw [← pure_eq_ok.mp h, ← (floorAmount_ok law le_rfl).mp hfloor]
    unfold ExactAmount.min
    split
    · rename_i hle
      exact (min_eq_left (ExactAmount.toRat_le_iff.mpr hle)).symm
    · rename_i hle
      exact (min_eq_right (ExactAmount.toRat_le_iff.mpr (Nat.le_of_lt (Nat.lt_of_not_le hle)))).symm
  | false =>
    rw [← pure_eq_ok.mp h]
    exact (min_eq_left ((le_floorTo principal.onGrid_toRat).mpr (hdepth rfl))).symm

/-! ## Plans on venue prices -/

section

variable {asks : List AskLevel} {scale : Nat} {principal : CollateralAmount} {plan : LadderPlan}
  {st : WalkState}

theorem mem_of_reached {a : AskLevel} (ha : a ∈ (exactWalk bounds asks principal).reached) :
    a ∈ asks :=
  (List.takeWhile_prefix _).subset ((spend_reached _ _).subset ha)

theorem PlannedFrom.used_ordered (h : PlannedFrom arith asks bounds scale principal plan st) :
    UsedOrdered st :=
  h.walks.usedOrdered (.start principal)

section

variable (law : arith.Lawful) (h : PlannedFrom arith asks bounds scale principal plan st)
  (hprices : ∀ a ∈ asks, VenuePrice a.price)

include law h hprices

theorem PlannedFrom.takes :
    Takes (.start principal) (exactWalk bounds asks principal) st :=
  h.walks.takes law principal.toRat_le hprices (.start principal)

/-- The plan's asks are the fills of the exact walk. -/
theorem PlannedFrom.usedAsks_eq :
    plan.usedAsks = fills (exactWalk bounds asks principal) := by
  rw [h.used, (h.takes law hprices).usedAsks]
  rfl

theorem PlannedFrom.bestAsk_eq :
    (exactWalk bounds asks principal).reached.head?.map AskLevel.price = some plan.bestAsk := by
  have hbest := (h.takes law hprices).bestAsk
  rw [h.best] at hbest
  exact hbest.symm

theorem PlannedFrom.limitPrice_eq :
    (exactWalk bounds asks principal).reached.getLast?.map AskLevel.price
      = some plan.limitPrice := by
  have hlimit := (h.takes law hprices).limitPrice
  rw [h.limit] at hlimit
  cases hr : (exactWalk bounds asks principal).reached.getLast? with
  | none => rw [hr] at hlimit; simp [WalkState.start] at hlimit
  | some level => rw [hr] at hlimit; simpa using hlimit.symm

theorem PlannedFrom.debit_eq :
    plan.worstCaseDebit.toRat = min principal.toRat
      (floorTo 6 ((exactWalk bounds asks principal).reached.map AskLevel.cost).sum) := by
  obtain ⟨acceptPartial, hdebit⟩ := h.debit
  rw [walkedPrincipal_ok law hdebit, (h.takes law hprices).capacity]
  simp [WalkState.start]

theorem PlannedFrom.limit_venue : VenuePrice plan.limitPrice := by
  obtain ⟨level, hlevel, hprice⟩ := Option.map_eq_some_iff.mp (h.limitPrice_eq law hprices)
  rw [← hprice]
  exact hprices level (mem_of_reached (List.mem_of_getLast? hlevel))

/-- The level a plan's walk stops at is at the limit price. -/
theorem PlannedFrom.stop_price {level : AskLevel}
    (hs : (exactWalk bounds asks principal).stop = some level) : level.price = plan.limitPrice := by
  have hlimit := h.limitPrice_eq law hprices
  simpa [Spent.reached, hs] using hlimit

end

variable {price : Price}

/-- The signed quantity is the library's quotient, floored. -/
theorem sharesForPrincipal_quotient (h : sharesForPrincipal arith debit price scale = .ok shares) :
    price ≠ .zero ∧ ∃ implied, arith.checkedDiv debit.toDecimal price.val = some implied
      ∧ floorAmount arith scale implied = .ok shares := by
  unfold sharesForPrincipal at h
  obtain ⟨_, hne, h⟩ := bind_eq_ok.mp h
  obtain ⟨implied, himplied, h⟩ := bind_eq_ok.mp h
  rw [mapError_eq_ok] at himplied
  unfold principalImpliedShares at himplied
  obtain ⟨_, _, himplied⟩ := bind_eq_ok.mp himplied
  exact ⟨refuseIf_eq_ok.mp hne, implied, okOr_eq_ok.mp himplied, h⟩

theorem sharesForPrincipal_floor (law : arith.Lawful) (hscale : scale ≤ 6)
    (h : sharesForPrincipal arith debit price scale = .ok shares) :
    price ≠ .zero ∧ ∃ implied, arith.checkedDiv debit.toDecimal price.val = some implied
      ∧ shares.toRat = floorTo scale implied.val := by
  obtain ⟨hne, implied, himplied, hfloor⟩ := sharesForPrincipal_quotient h
  exact ⟨hne, implied, himplied, (floorAmount_ok law hscale).mp hfloor⟩

/-- **The signed quantity** is what the principal buys at the limit, floored. -/
theorem sharesForPrincipal_ok (law : arith.Lawful) (hp : VenuePrice price) (hscale : scale ≤ 6)
    (h : sharesForPrincipal arith debit price scale = .ok shares) :
    price ≠ .zero ∧ shares.toRat = floorTo scale (debit.toRat / price.toRat) := by
  obtain ⟨hne, implied, himplied, hshares⟩ := sharesForPrincipal_floor law hscale h
  refine ⟨hne, ?_⟩
  rw [hshares]
  refine floorTo_checkedDiv law (debit.onGrid_toRat.mono (by decide)) hp hne himplied ?_ hscale
  -- the quotient is near a quantity that fits
  have hquot0 : 0 ≤ debit.toRat / price.toRat := div_nonneg debit.toRat_nonneg hp.nonneg
  have hnear := (law.div_near _ _ _ himplied).2
  have herr := decimalError_le (debit.toDecimal.val / price.val.val)
  have hquot : debit.toDecimal.val / price.val.val = debit.toRat / price.toRat := rfl
  rw [hquot, abs_of_nonneg hquot0] at herr
  rw [hquot] at hnear
  have hlow := (abs_le.mp (hnear.trans herr)).1
  have hup := lt_floorTo_add scale implied.val
  rw [← hshares] at hup
  have hone : (1 : ℚ) / 10 ^ scale ≤ 1 := by
    rw [div_le_one (ten_pow_pos scale)]
    exact one_le_pow₀ (by norm_num)
  have hfit := shares.toRat_le
  rw [ExactAmount.val_toDecimal, abs_of_nonneg hquot0]
  norm_num at hfit hlow ⊢
  linarith

end

end PredictionEdge
