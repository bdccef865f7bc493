import PredictionEdge.Ledger.Cells
import PredictionEdge.Ledger.Second

/-!
# Trades on one side

A trade first eats into the opposing holding and then adds to its own. Trades on one
side of one outcome therefore only ever shrink the one and grow the other, and after
any number of them both depend on nothing but the sum of the amounts: the fold over
them is the same in every order, and so is whether it overflows.
-/

namespace PredictionEdge

/-- The holding a trade on this side reduces. -/
def PositionState.opposing (st : PositionState) : Side → ShareAmount
  | .buy => st.shortContracts
  | .sell => st.longContracts

/-- The holding a trade on this side adds to. -/
def PositionState.own (st : PositionState) : Side → ShareAmount
  | .buy => st.longContracts
  | .sell => st.shortContracts

variable {st : PositionState}

theorem PositionState.ext_side {st' : PositionState} (side : Side)
    (ho : (st.opposing side).atomic = (st'.opposing side).atomic)
    (hs : (st.own side).atomic = (st'.own side).atomic) : st = st' := by
  obtain ⟨l, s⟩ := st
  obtain ⟨l', s'⟩ := st'
  cases side with
  | buy => rw [PositionState.mk.injEq]; exact ⟨ExactAmount.ext_atomic hs, ExactAmount.ext_atomic ho⟩
  | sell => rw [PositionState.mk.injEq]; exact ⟨ExactAmount.ext_atomic ho, ExactAmount.ext_atomic hs⟩

/-- The state with these holdings, seen from one side. -/
def PositionState.ofSide (side : Side) (opposing own : ShareAmount) : PositionState :=
  match side with
  | .buy => ⟨own, opposing⟩
  | .sell => ⟨opposing, own⟩

section

variable (st : PositionState) (side : Side) (amount : ShareAmount) (id : SourceTradeId)

/-- Both sides' trades are one computation on the two holdings. -/
theorem applyTrade_eq : applyTrade st side amount id = do
      let taken := (st.opposing side).min amount
      let opposing ← ((st.opposing side).checkedSub taken).mapError fun _ =>
        LedgerError.underflow id
      let remainder ← (amount.checkedSub taken).mapError fun _ => LedgerError.underflow id
      let own ← ((st.own side).checkedAdd remainder).mapError fun _ => LedgerError.overflow id
      return PositionState.ofSide side opposing own := by
  cases side <;> rfl

/--
**One trade, in numbers.**

It takes what it can from the opposing holding and adds the rest to its own; the only
way to fail is for that sum not to fit.
-/
theorem applyTrade_spec : (∃ st', applyTrade st side amount id = .ok st'
        ∧ (st'.opposing side).atomic = (st.opposing side).atomic - amount.atomic
        ∧ (st'.own side).atomic
          = (st.own side).atomic + (amount.atomic - (st.opposing side).atomic))
      ∨ (applyTrade st side amount id = .error (.overflow id)
        ∧ 2 ^ 64 ≤ (st.own side).atomic + (amount.atomic - (st.opposing side).atomic)) := by
  rw [applyTrade_eq]
  have ht := ExactAmount.atomic_min (st.opposing side) amount
  generalize hop : st.opposing side = opposing at *
  generalize how : st.own side = own at *
  generalize opposing.min amount = taken at *
  have hmin : Nat.min opposing.atomic amount.atomic ≤ opposing.atomic
      ∧ Nat.min opposing.atomic amount.atomic ≤ amount.atomic :=
    ⟨Nat.min_le_left _ _, Nat.min_le_right _ _⟩
  -- neither subtraction can fail: what is taken is at most either amount
  have h1 : opposing.checkedSub taken = .ok ⟨opposing.atomic - taken.atomic,
      Nat.lt_of_le_of_lt (Nat.sub_le _ _) opposing.lt⟩ := by
    rw [ExactAmount.checkedSub_ok]; simp only; omega
  have h2 : amount.checkedSub taken = .ok ⟨amount.atomic - taken.atomic,
      Nat.lt_of_le_of_lt (Nat.sub_le _ _) amount.lt⟩ := by
    rw [ExactAmount.checkedSub_ok]; simp only; omega
  simp only [h1, h2, Except.mapError, bind, Except.bind]
  have hrem : amount.atomic - taken.atomic = amount.atomic - opposing.atomic := by
    rw [ht]; simp only [Nat.min_def]; split <;> omega
  have hopp : opposing.atomic - taken.atomic = opposing.atomic - amount.atomic := by
    rw [ht]; simp only [Nat.min_def]; split <;> omega
  cases hadd : own.checkedAdd ⟨amount.atomic - taken.atomic,
      Nat.lt_of_le_of_lt (Nat.sub_le _ _) amount.lt⟩ with
  | error e =>
    right
    have hb := ExactAmount.checkedAdd_error hadd
    simp only [hrem] at hb
    exact ⟨rfl, hb⟩
  | ok v =>
    left
    have hv := ExactAmount.checkedAdd_ok.mp hadd
    simp only [hrem] at hv
    refine ⟨_, rfl, ?_, ?_⟩
    · cases side <;> simp only [PositionState.ofSide, PositionState.opposing] <;> exact hopp
    · cases side <;> simp only [PositionState.ofSide, PositionState.own] <;> exact hv.symm

end

/-! ## The fold -/

/-- The shares a trade moves. -/
def tradeAmount (m : LedgerMutation) : Nat :=
  match m.effect.effective with
  | .trade _ _ _ amount _ => amount.atomic
  | _ => 0

def isTrade (m : LedgerMutation) : Bool :=
  match m.effect.effective with
  | .trade .. => true
  | _ => false

variable {m : LedgerMutation}

theorem isTrade_iff : isTrade m = true ↔
    ∃ market outcome side amount price,
      m.effect.effective = .trade market outcome side amount price := by
  unfold isTrade
  cases m.effect.effective <;> simp

/--
**The fold depends on the sum alone.**

It succeeds in a state with these two holdings exactly when they are what the sum of
the amounts makes of the holdings before; the intermediate sums are smaller, so they
fit if the last one does.
-/
theorem foldSameSide_ok_iff (side : Side) : ∀ (c : List LedgerMutation) (st st' : PositionState),
    (∀ m ∈ c, isTrade m = true) →
    (foldSameSide side c st = .ok st' ↔
      (st'.opposing side).atomic = (st.opposing side).atomic - (c.map tradeAmount).sum
        ∧ (st'.own side).atomic
          = (st.own side).atomic + ((c.map tradeAmount).sum - (st.opposing side).atomic))
  | [], st, st', _ => by
    simp only [foldSameSide, List.map_nil, List.sum_nil, Nat.sub_zero, Nat.zero_sub,
      Nat.add_zero, Except.ok.injEq]
    exact ⟨fun h => by rw [h]; exact ⟨rfl, rfl⟩,
      fun h => PositionState.ext_side side h.1.symm h.2.symm⟩
  | m :: c, st, st', hc => by
    obtain ⟨market, outcome, sd, amount, price, he⟩ := isTrade_iff.mp (hc m List.mem_cons_self)
    have ih := fun st1 => foldSameSide_ok_iff side c st1 st'
      fun x hx => hc x (List.mem_cons_of_mem _ hx)
    have ha : tradeAmount m = amount.atomic := by simp only [tradeAmount, he]
    simp only [foldSameSide, he, List.map_cons, List.sum_cons, ha]
    rcases applyTrade_spec st side amount m.sourceTradeId with ⟨st1, h1, ho, hs⟩ | ⟨h1, hb⟩
    · rw [h1]
      simp only [bind, Except.bind]
      rw [ih st1, ho, hs]
      omega
    · rw [h1]
      simp only [bind, Except.bind, reduceCtorEq, false_iff]
      rintro ⟨_, h⟩
      have := (st'.own side).lt
      omega

theorem foldSameSide_perm {side : Side} {c c' : List LedgerMutation} {st' : PositionState}
    (hp : c'.Perm c) (hc : ∀ m ∈ c, isTrade m = true) :
    foldSameSide side c' st = .ok st' ↔ foldSameSide side c st = .ok st' := by
  rw [foldSameSide_ok_iff side c st st' hc,
    foldSameSide_ok_iff side c' st st' fun m hm => hc m (hp.mem_iff.mp hm),
    (hp.map tradeAmount).sum_eq]

/-! ## Running the trades -/

section

variable {w : WalletAddress} {market : MarketId} {outcome : OutcomeId} {side : Side}

theorem isSameSideTrade_iff :
    isSameSideTrade w market outcome side m = true ↔
      m.wallet = w ∧ ∃ amount price, m.effect.effective = .trade market outcome side amount price := by
  unfold isSameSideTrade
  cases m.effect.effective with
  | trade a b c d e =>
    simp only [Bool.and_eq_true, decide_eq_true_eq, LedgerEffect.trade.injEq]
    refine and_congr_right fun _ => ⟨?_, ?_⟩
    · rintro ⟨rfl, rfl, rfl⟩; exact ⟨d, e, rfl, rfl, rfl, rfl, rfl⟩
    · rintro ⟨_, _, rfl, rfl, rfl, _⟩; exact ⟨rfl, rfl, rfl⟩
  | _ => simp

theorem isTrade_of_isSameSideTrade (h : isSameSideTrade w market outcome side m = true) :
    isTrade m = true := by
  obtain ⟨_, amount, price, he⟩ := isSameSideTrade_iff.mp h
  exact isTrade_iff.mpr ⟨_, _, _, _, _, he⟩

theorem step_sameSide {s : Batch} {amount : ShareAmount} {price : Price} (hw : m.wallet = w)
    (he : m.effect.effective = .trade market outcome side amount price)
    (hc : (s.cell w ⟨market, outcome⟩).closed = false)
    (ht : applyTrade (s.cell w ⟨market, outcome⟩).stateMut side amount m.sourceTradeId = .ok st) :
    ∃ s', (walletSystem w).step m s = .ok (s', ⟨m.effect, none⟩)
      ∧ s'.cell w ⟨market, outcome⟩ = ⟨some st, false⟩ := by
  subst hw
  refine ⟨s.writeCell m.wallet (⟨market, outcome⟩, st, false), ?_, ?_⟩
  · simp only [walletSystem, if_true]
    rw [applyInPlace_eq_cellStep]
    simp only [cellStep, LedgerMutation.touchedKeys, he, List.map_cons, List.map_nil, hc, ht]
    simp [Except.map, Batch.writeCells]
  · rw [Batch.cell_writeCell, if_pos rfl, hc]; rfl

/-- A trade on an open outcome steps exactly when its arithmetic succeeds. -/
theorem step_sameSide_inv {s s' : Batch} {a : AppliedEffect} {amount : ShareAmount} {price : Price}
    (he : m.effect.effective = .trade market outcome side amount price)
    (hc : (s.cell w ⟨market, outcome⟩).closed = false)
    (h : (walletSystem w).step m s = .ok (s', a)) :
    ∃ st, applyTrade (s.cell w ⟨market, outcome⟩).stateMut side amount m.sourceTradeId = .ok st
      ∧ s'.cell w ⟨market, outcome⟩ = ⟨some st, false⟩ := by
  obtain ⟨hw, ha⟩ := walletSystem_step_ok h
  subst hw
  cases ht : applyTrade (s.cell m.wallet ⟨market, outcome⟩).stateMut side amount
      m.sourceTradeId with
  | error e =>
    rw [applyInPlace_eq_cellStep] at ha
    simp only [cellStep, LedgerMutation.touchedKeys, he, List.map_cons, List.map_nil, hc,
      ht] at ha
    simp [Except.map] at ha
  | ok st =>
    obtain ⟨s1, hs1, hcell⟩ := step_sameSide rfl he hc ht
    rw [h, Except.ok.injEq, Prod.mk.injEq] at hs1
    exact ⟨st, rfl, by rw [hs1.1, hcell]⟩

/-- The trades of one side run as their fold says, and clamp nothing. -/
theorem run_sameSide : ∀ {c : List LedgerMutation} {s : Batch} {st : PositionState},
    (∀ m ∈ c, isSameSideTrade w market outcome side m = true) →
    (s.cell w ⟨market, outcome⟩).closed = false →
    foldSameSide side c (s.cell w ⟨market, outcome⟩).stateMut = .ok st →
    ∃ s' os, (walletSystem w).run c s = .ok (s', os)
      ∧ (c ≠ [] → s'.cell w ⟨market, outcome⟩ = ⟨some st, false⟩)
      ∧ ∀ o ∈ os, o.2.clampedResidual = none
  | [], s, st, _, _, _ => ⟨s, [], rfl, fun h => absurd rfl h, fun o ho => absurd ho (by simp)⟩
  | m :: c, s, st, hm, hc, hf => by
    obtain ⟨hw, amount, price, he⟩ := isSameSideTrade_iff.mp (hm m List.mem_cons_self)
    have hm' := fun x hx => hm x (List.mem_cons_of_mem m hx)
    simp only [foldSameSide, he] at hf
    cases ht : applyTrade (s.cell w ⟨market, outcome⟩).stateMut side amount m.sourceTradeId with
    | error e => rw [ht] at hf; simp [bind, Except.bind] at hf
    | ok st1 =>
      rw [ht] at hf
      have hf' : foldSameSide side c st1 = .ok st := hf
      obtain ⟨s1, hs, hcell⟩ := step_sameSide hw he hc ht
      have hf1 : foldSameSide side c (s1.cell w ⟨market, outcome⟩).stateMut = .ok st := by
        rw [hcell]; exact hf'
      obtain ⟨s', os, hr, hlast, hos⟩ := run_sameSide hm' (by rw [hcell]) hf1
      refine ⟨s', (m, ⟨m.effect, none⟩) :: os, ?_, fun _ => ?_, ?_⟩
      · rw [Lib.LocalSystem.run_cons_of_ok hs, hr]; rfl
      · by_cases hnil : c = []
        · subst hnil
          have hst : st1 = st := by simpa [foldSameSide] using hf'
          simp only [Lib.LocalSystem.run_nil, Except.ok.injEq, Prod.mk.injEq] at hr
          rw [← hr.1, hcell, hst]
        · exact hlast hnil
      · intro o ho
        rcases List.mem_cons.mp ho with rfl | ho
        · rfl
        · exact hos o ho

/-- A run of same-side trades is a success of their fold. -/
theorem foldSameSide_of_run : ∀ {c : List LedgerMutation} {s t : Batch}
    {os : List (LedgerMutation × AppliedEffect)},
    (∀ m ∈ c, isSameSideTrade w market outcome side m = true) →
    (s.cell w ⟨market, outcome⟩).closed = false → (walletSystem w).run c s = .ok (t, os) →
    ∃ st, foldSameSide side c (s.cell w ⟨market, outcome⟩).stateMut = .ok st
  | [], s, t, os, _, _, _ => ⟨_, rfl⟩
  | m :: c, s, t, os, hm, hc, h => by
    obtain ⟨_, amount, price, he⟩ := isSameSideTrade_iff.mp (hm m List.mem_cons_self)
    obtain ⟨s1, a, os', hs, hr, _⟩ := Lib.LocalSystem.run_cons_ok.mp h
    obtain ⟨st1, ht, hcell⟩ := step_sameSide_inv he hc hs
    obtain ⟨st, hst⟩ := foldSameSide_of_run (fun x hx => hm x (List.mem_cons_of_mem _ hx))
      (by rw [hcell]) hr
    refine ⟨st, ?_⟩
    simp only [foldSameSide, he, ht]
    rw [hcell] at hst
    exact hst

end

end PredictionEdge
