import PredictionEdge.Ledger.Residual

/-!
# Shares are conserved

Long minus short moves by exactly what a mutation names: buys and splits add to it, sells,
merges and redemptions take from it, whichever of the two holdings the arithmetic reaches
for. The one exception is a redemption of more than is held: the excess it was clamped by
was never taken, and it is the residual the batch reports. A clamp also closes the market
outcome, and a closed outcome gives nothing more away; so a batch clamps an outcome once,
and less than `redeemResidualLimitAtomic`.
-/

namespace PredictionEdge

open Lib

namespace LedgerMutation

/-- The shares a buy or a split adds to each outcome it touches. -/
def added (m : LedgerMutation) : Nat :=
  match m.effect.effective with
  | .trade _ _ .buy amount _ => amount.atomic
  | .split _ amount => amount.atomic
  | _ => 0

/-- The shares a sell, a merge or a redemption asks of each outcome it touches. -/
def removed (m : LedgerMutation) : Nat :=
  match m.effect.effective with
  | .trade _ _ .sell amount _ => amount.atomic
  | .merge _ amount => amount.atomic
  | .redeem _ _ amount => amount.atomic
  | _ => 0

def addedAt (k : MarketOutcomeId) (m : LedgerMutation) : Nat :=
  if k ∈ m.touchedKeys then m.added else 0

def removedAt (k : MarketOutcomeId) (m : LedgerMutation) : Nat :=
  if k ∈ m.touchedKeys then m.removed else 0

end LedgerMutation

/-- A position as one signed number. -/
def PositionState.net (state : PositionState) : Int :=
  state.longContracts.atomic - state.shortContracts.atomic

def PositionLedger.netAt (ledger : PositionLedger) (w : WalletAddress) (k : MarketOutcomeId) :
    Int :=
  (ledger.stateMut w k).net

/-- A redemption of this outcome that was clamped. -/
def clampsAt (k : MarketOutcomeId) (o : LedgerMutation × AppliedEffect) : Bool :=
  o.1.isRedeem && decide (k ∈ o.1.touchedKeys) && o.2.clampedResidual.isSome

/-- The residual reported for a redemption of this outcome. -/
def residualAt (k : MarketOutcomeId) (o : LedgerMutation × AppliedEffect) : Nat :=
  if o.1.isRedeem ∧ k ∈ o.1.touchedKeys then o.2.clampedResidual.getD 0 else 0

/-! ## One mutation, at one of the outcomes it touches -/

/-- What a mutation that touches an outcome does there. -/
structure CellMove (m : LedgerMutation) (c c' : Cell) (residual : Option Nat) : Prop where
  balance : c'.stateMut.net = c.stateMut.net + m.added - m.removed + residual.getD 0
  -- only a clamp closes an outcome, and nothing opens it again
  closed : c'.closed = (residual.isSome || c.closed)
  -- a closed outcome gives nothing away, and clamps nothing
  fenced : c.closed = true → m.removed = 0 ∧ residual = none
  small : ∀ r, residual = some r → r < redeemResidualLimitAtomic

variable {amount : ShareAmount} {id : SourceTradeId} {st : PositionState}

theorem applyTrade_net {st' : PositionState} {side : Side}
    (h : applyTrade st side amount id = .ok st') :
    st'.net = match side with
      | .buy => st.net + amount.atomic
      | .sell => st.net - amount.atomic := by
  rcases applyTrade_spec st side amount id with ⟨st1, h1, hopp, hown⟩ | ⟨h1, _⟩
  · rw [h, Except.ok.injEq] at h1
    subst h1
    simp only [PositionState.net]
    cases side with
    | buy | sell => simp only [PositionState.opposing, PositionState.own] at hopp hown ⊢; omega
  · rw [h] at h1
    simp at h1

variable {c : Cell}

theorem addLong_net (h : addLong c amount id = .ok st) :
    st.net = c.stateMut.net + amount.atomic := by
  obtain ⟨long, hlong, rfl⟩ := map_eq_ok.mp h
  have hsum := ExactAmount.checkedAdd_ok.mp (mapError_eq_ok.mp hlong)
  simp only [PositionState.net]
  omega

theorem removeLong_net (h : removeLong c amount id = .ok st) :
    st.net = c.stateMut.net - amount.atomic := by
  obtain ⟨long, hlong, rfl⟩ := map_eq_ok.mp h
  have hsum := ExactAmount.checkedSub_ok.mp (mapError_eq_ok.mp hlong)
  simp only [PositionState.net]
  omega

/-- A redemption takes its amount, less the residual it was clamped by. -/
theorem redeemCell_net {r : (PositionState × Bool) × Option Nat}
    (h : redeemCell c amount id = .ok r) :
    r.1.1.net = c.stateMut.net - amount.atomic + r.2.getD 0
      ∧ r.1.2 = r.2.isSome
      ∧ (c.closed = true → amount.atomic = 0 ∧ r.2 = none)
      ∧ ∀ n, r.2 = some n → n < redeemResidualLimitAtomic := by
  obtain ⟨hzero, ⟨long, hlong, rfl⟩ | ⟨hlt, hlimit, rfl⟩⟩ := redeemCell_ok h
  · refine ⟨?_, rfl, fun hcl => ⟨hzero hcl, rfl⟩, fun n hn => absurd hn (by simp)⟩
    simp only [PositionState.net, Option.getD_none]
    omega
  · refine ⟨?_, rfl, ?_, ?_⟩
    · simp only [PositionState.net, ExactAmount.atomic_zero, Option.getD_some]
      omega
    · intro hcl
      have := hzero hcl
      omega
    · intro n hn
      rw [Option.some.injEq] at hn
      omega

variable {m : LedgerMutation} {a : AppliedEffect}

section

variable {w : WalletAddress} {k : MarketOutcomeId}

/-- The cells after writing the two outcomes of a market. -/
theorem cell_writeCells_pair (s : Batch) (market : MarketId) (zero one : PositionState)
    (hk : k ∈ [(⟨market, ⟨0⟩⟩ : MarketOutcomeId), ⟨market, ⟨1⟩⟩]) :
    (s.writeCells w [(⟨market, ⟨0⟩⟩, zero, false), (⟨market, ⟨1⟩⟩, one, false)]).cell w k
      = ⟨some (if k = ⟨market, ⟨0⟩⟩ then zero else one), (s.cell w k).closed⟩ := by
  simp only [Batch.writeCells, List.foldl_cons, List.foldl_nil, Batch.cell_writeCell]
  rcases List.mem_cons.mp hk with rfl | hk
  · simp [Ne.symm (outcome_ne market)]
  · rw [List.mem_singleton.mp hk]
    simp [outcome_ne market]

/-- A move of the two outcomes of a market, each by what the mutation names. -/
theorem cellMove_pair {s : Batch} {market : MarketId} {zero one : PositionState}
    (hk : k ∈ [(⟨market, ⟨0⟩⟩ : MarketOutcomeId), ⟨market, ⟨1⟩⟩])
    (hzero : zero.net = (s.cell w ⟨market, ⟨0⟩⟩).stateMut.net + m.added - m.removed)
    (hone : one.net = (s.cell w ⟨market, ⟨1⟩⟩).stateMut.net + m.added - m.removed)
    (hfenced : (s.cell w k).closed = true → m.removed = 0) :
    CellMove m (s.cell w k)
      ((s.writeCells w [(⟨market, ⟨0⟩⟩, zero, false), (⟨market, ⟨1⟩⟩, one, false)]).cell w k) none := by
  rw [cell_writeCells_pair s market zero one hk]
  refine ⟨?_, by simp, fun hcl => ⟨hfenced hcl, rfl⟩, by simp⟩
  rw [Cell.stateMut, Option.getD_some]
  rcases List.mem_cons.mp hk with rfl | hk
  · rw [if_pos rfl, hzero]
    simp
  · rw [List.mem_singleton.mp hk, if_neg (outcome_ne market), hone]
    simp

/-- **A mutation at an outcome it touches.** The cases follow the effect. -/
theorem cellMove_of_step {s s' : Batch} (h : (walletSystem w).step m s = .ok (s', a))
    (hk : k ∈ m.touchedKeys) : CellMove m (s.cell w k) (s'.cell w k) a.clampedResidual := by
  obtain ⟨hw, ha⟩ := walletSystem_step_ok h
  subst hw
  obtain ⟨r, hr, rfl, rfl⟩ := applyInPlace_ok ha
  unfold cellStep at hr
  cases he : m.effect.effective with
  | trade market outcome side amount price =>
    simp only [LedgerMutation.touchedKeys, he, List.mem_singleton] at hk
    subst hk
    simp only [LedgerMutation.touchedKeys, he, List.map_cons, List.map_nil] at hr ⊢
    split at hr
    · simp at hr
    · rename_i hopen
      obtain ⟨st, hst, rfl⟩ := map_eq_ok.mp hr
      have hnet := applyTrade_net hst
      simp only [List.zip_cons_cons, List.zip_nil_right, Batch.writeCells, List.foldl_cons,
        List.foldl_nil, Batch.cell_writeCell, if_true]
      refine ⟨?_, by simp, ?_, by simp⟩
      · rw [Cell.stateMut, Option.getD_some, hnet]
        cases side with
        | buy | sell => simp [LedgerMutation.added, LedgerMutation.removed, he]
      · intro hcl
        refine ⟨?_, rfl⟩
        cases side with
        | buy => simp [LedgerMutation.removed, he]
        | sell =>
          simp only [LedgerMutation.removed, he]
          by_contra hne
          exact hopen ⟨rfl, fun h0 => hne (ExactAmount.eq_zero_iff.mp h0), hcl⟩
  | redeem market outcome amount =>
    simp only [LedgerMutation.touchedKeys, he, List.mem_singleton] at hk
    subst hk
    simp only [LedgerMutation.touchedKeys, he, List.map_cons, List.map_nil] at hr ⊢
    obtain ⟨x, hx, rfl⟩ := map_eq_ok.mp hr
    obtain ⟨hnet, hclosed, hfenced, hsmall⟩ := redeemCell_net hx
    simp only [List.zip_cons_cons, List.zip_nil_right, Batch.writeCells, List.foldl_cons,
      List.foldl_nil, Batch.cell_writeCell, if_true]
    refine ⟨?_, by rw [hclosed], ?_, hsmall⟩
    · rw [Cell.stateMut, Option.getD_some, hnet]
      simp [LedgerMutation.added, LedgerMutation.removed, he]
    · simpa only [LedgerMutation.removed, he] using hfenced
  | split market amount =>
    simp only [LedgerMutation.touchedKeys, he, List.map_cons, List.map_nil] at hr hk ⊢
    obtain ⟨zero, hzero, hr⟩ := bind_eq_ok.mp hr
    obtain ⟨one, hone, hr⟩ := bind_eq_ok.mp hr
    rw [← pure_eq_ok.mp hr]
    have hadded : m.added = amount.atomic := by simp [LedgerMutation.added, he]
    have hremoved : m.removed = 0 := by simp [LedgerMutation.removed, he]
    have h0 := addLong_net hzero
    have h1 := addLong_net hone
    exact cellMove_pair hk (by omega) (by omega) fun _ => hremoved
  | merge market amount =>
    simp only [LedgerMutation.touchedKeys, he, List.map_cons, List.map_nil] at hr hk ⊢
    split at hr
    · simp at hr
    · rename_i hopen
      obtain ⟨zero, hzero, hr⟩ := bind_eq_ok.mp hr
      obtain ⟨one, hone, hr⟩ := bind_eq_ok.mp hr
      rw [← pure_eq_ok.mp hr]
      have hadded : m.added = 0 := by simp [LedgerMutation.added, he]
      have hremoved : m.removed = amount.atomic := by simp [LedgerMutation.removed, he]
      have h0 := removeLong_net hzero
      have h1 := removeLong_net hone
      refine cellMove_pair hk (by omega) (by omega) fun hcl => ?_
      rw [hremoved]
      by_contra hne
      refine hopen ⟨fun h0 => hne (ExactAmount.eq_zero_iff.mp h0), ?_⟩
      rcases List.mem_cons.mp hk with rfl | hk
      · exact Or.inl hcl
      · rw [List.mem_singleton.mp hk] at hcl
        exact Or.inr hcl
  | requiresAnchor | conversion | rawOnly | unknownEffect =>
    simp [LedgerMutation.touchedKeys, he] at hk
  | corrected e c => exact absurd he (LedgerEffect.effective_ne_corrected _ _ _)

/-- What a mutation does to an outcome, whether it touches it or not. -/
structure OutcomeMove (k : MarketOutcomeId) (o : LedgerMutation × AppliedEffect) (c c' : Cell) :
    Prop where
  balance : c'.stateMut.net
    = c.stateMut.net + o.1.addedAt k - o.1.removedAt k + residualAt k o
  closed : c'.closed = (clampsAt k o || c.closed)
  fenced : c.closed = true → o.1.removedAt k = 0 ∧ clampsAt k o = false
  small : residualAt k o < redeemResidualLimitAtomic
  silent : clampsAt k o = false → residualAt k o = 0

/-- **Step.** -/
theorem outcomeMove_of_step {s s' : Batch} (h : (walletSystem w).step m s = .ok (s', a))
    (k : MarketOutcomeId) : OutcomeMove k (m, a) (s.cell w k) (s'.cell w k) := by
  by_cases hk : k ∈ m.touchedKeys
  · have hmove := cellMove_of_step h hk
    -- a residual of anything but a redemption does not exist
    have hres : residualAt k (m, a) = a.clampedResidual.getD 0 := by
      simp only [residualAt, hk, and_true]
      split
      · rfl
      · rename_i hm
        cases hc : a.clampedResidual with
        | none => rfl
        | some r => exact absurd ((step_output h).2 (by simp [hc])) hm
    have hclamps : clampsAt k (m, a) = a.clampedResidual.isSome := by
      simp only [clampsAt, hk, decide_true, Bool.and_true]
      cases hc : a.clampedResidual with
      | none => simp
      | some r => simp [(step_output h).2 (by simp [hc])]
    refine ⟨?_, ?_, ?_, ?_, ?_⟩
    · rw [hmove.balance, hres]
      simp only [LedgerMutation.addedAt, LedgerMutation.removedAt, hk, if_true]
    · rw [hmove.closed, hclamps]
    · intro hcl
      obtain ⟨hzero, hnone⟩ := hmove.fenced hcl
      simp only [LedgerMutation.removedAt, hk, if_true, hclamps]
      exact ⟨hzero, by rw [hnone]; rfl⟩
    · rw [hres]
      cases hc : a.clampedResidual with
      | none => decide
      | some r => exact hmove.small r hc
    · intro hno
      rw [hclamps] at hno
      rw [hres, Option.isSome_eq_false_iff.mp hno |> Option.isNone_iff_eq_none.mp]
      rfl
  · have hsame : s'.cell w k = s.cell w k := (walletSystem w).frame h k hk
    have hclamps : clampsAt k (m, a) = false := by simp [clampsAt, hk]
    have hres : residualAt k (m, a) = 0 := by simp [residualAt, hk]
    rw [hsame]
    refine ⟨?_, by simp [hclamps], fun _ => ⟨?_, hclamps⟩, by rw [hres]; decide, fun _ => hres⟩
    · simp [LedgerMutation.addedAt, LedgerMutation.removedAt, hk, hres]
    · simp [LedgerMutation.removedAt, hk]

/-! ## A whole batch -/

variable {l : List LedgerMutation} {s t : Batch} {os : List (LedgerMutation × AppliedEffect)}

section

variable (h : (walletSystem w).run l s = .ok (t, os))

include h

/-- **Run.** What the mutations name is what the position moves by. -/
theorem run_conserves : (t.cell w k).stateMut.net = (s.cell w k).stateMut.net
      + (l.map (LedgerMutation.addedAt k)).sum - (l.map (LedgerMutation.removedAt k)).sum
      + (os.map (residualAt k)).sum := by
  induction h using LocalSystem.run_induction with
  | nil s => simp
  | cons m l s s' t a os _ hs hr ih =>
    have hmove := (outcomeMove_of_step hs k).balance
    simp only [List.map_cons, List.sum_cons] at hmove ih ⊢
    omega

/-- From a closed outcome nothing is taken any more, and nothing clamps. -/
theorem run_fenced :
    (s.cell w k).closed = true → ∀ o ∈ os, o.1.removedAt k = 0 ∧ clampsAt k o = false := by
  induction h using LocalSystem.run_induction with
  | nil s => simp
  | cons m l s s' t a os _ hs hr ih =>
    intro hcl
    have hmove := outcomeMove_of_step hs k
    have hcl' : (s'.cell w k).closed = true := by rw [hmove.closed, hcl, Bool.or_true]
    rw [List.forall_mem_cons]
    exact ⟨hmove.fenced hcl, ih hcl'⟩

/-- After a clamp nothing is taken from the outcome later in the batch, and nothing clamps. -/
theorem run_after_clamp :
    os.Pairwise fun p q => clampsAt k p = true → q.1.removedAt k = 0 ∧ clampsAt k q = false := by
  induction h using LocalSystem.run_induction with
  | nil s => exact .nil
  | cons m l s s' t a os _ hs hr ih =>
    refine List.pairwise_cons.mpr ⟨fun q hq hclamp => ?_, ih⟩
    have hcl : (s'.cell w k).closed = true := by
      rw [(outcomeMove_of_step hs k).closed, hclamp, Bool.true_or]
    exact run_fenced hr hcl q hq

/-- What a run reports as residual is one clamp's, if there is a clamp. -/
theorem run_residual : ∀ o ∈ os, residualAt k o < redeemResidualLimitAtomic
      ∧ (clampsAt k o = false → residualAt k o = 0) := by
  induction h using LocalSystem.run_induction with
  | nil s => simp
  | cons m l s s' t a os _ hs hr ih =>
    have hmove := outcomeMove_of_step hs k
    exact List.forall_mem_cons.mpr ⟨⟨hmove.small, hmove.silent⟩, ih⟩

end

/-- Of outputs that clamp one outcome at most once, the residuals stay below the limit. -/
theorem sum_residualAt_lt (hafter : os.Pairwise fun p q => clampsAt k p = true → clampsAt k q = false)
    (hres : ∀ o ∈ os, residualAt k o < redeemResidualLimitAtomic
      ∧ (clampsAt k o = false → residualAt k o = 0)) :
    (os.filter (clampsAt k)).length ≤ 1
      ∧ (os.map (residualAt k)).sum < redeemResidualLimitAtomic := by
  induction os with
  | nil => exact ⟨by simp, by simp [redeemResidualLimitAtomic]⟩
  | cons o os ih =>
    obtain ⟨hfirst, hafter⟩ := List.pairwise_cons.mp hafter
    obtain ⟨⟨hsmall, hsilent⟩, hres⟩ := List.forall_mem_cons.mp hres
    rw [List.map_cons, List.sum_cons]
    cases hclamp : clampsAt k o with
    | false =>
      rw [List.filter_cons_of_neg (by simp [hclamp]), hsilent hclamp, Nat.zero_add]
      exact ih hafter hres
    | true =>
      -- nothing else clamps
      have hnil : os.filter (clampsAt k) = [] :=
        List.filter_eq_nil_iff.mpr fun q hq => by simp [hfirst q hq hclamp]
      have hzero : (os.map (residualAt k)).sum = 0 := by
        refine List.sum_eq_zero fun n hn => ?_
        obtain ⟨q, hq, rfl⟩ := List.mem_map.mp hn
        exact (hres q hq).2 (hfirst q hq hclamp)
      rw [List.filter_cons_of_pos hclamp, hnil, hzero, Nat.add_zero]
      exact ⟨by simp, hsmall⟩

end

/--
**A batch conserves shares.**

At every market outcome, what is held afterwards is what was held before, with what the
batch's buys and splits add, without what its sells, merges and redemptions ask for, and
with the residuals it reports. These amount to at most 99, since at most one redemption of
an outcome is clamped; whatever comes after that one in the batch takes nothing from the
outcome.
-/
theorem applyAllOrNone_conserves (ledger final : PositionLedger) (w : WalletAddress)
    (mutations : List LedgerMutation) (applied : List AppliedEffect)
    (hw : ∀ m ∈ mutations, m.wallet = w)
    (h : ledger.applyAllOrNone mutations = (final, .ok applied)) (k : MarketOutcomeId) :
    final.netAt w k = ledger.netAt w k + (mutations.map (LedgerMutation.addedAt k)).sum
        - (mutations.map (LedgerMutation.removedAt k)).sum
        + ((mutations.zip applied).map (residualAt k)).sum
      ∧ ((mutations.zip applied).map (residualAt k)).sum ≤ 99
      ∧ ((mutations.zip applied).filter (clampsAt k)).length ≤ 1
      ∧ (mutations.zip applied).Pairwise fun p q => clampsAt k p = true → q.1.removedAt k = 0 := by
  have hsim : ledger.simulateAllOrNone mutations = .ok (final, applied) := by
    rw [PositionLedger.applyAllOrNone] at h
    split at h
    · rename_i candidate effects hok
      rw [Prod.mk.injEq, Except.ok.injEq] at h
      rw [hok, h.1, h.2]
    · exact absurd (Prod.mk.inj h).2 (by simp)
  obtain ⟨s, os, hrun, hfinal, happlied⟩ := (simulateAllOrNone_ok_iff hw).mp hsim
  have hzip : mutations.zip applied = os := by
    rw [← happlied]
    exact (List.zip_of_prod (LocalSystem.run_tags hrun) rfl).symm
  have hbalance := run_conserves (k := k) hrun
  have hafter := run_after_clamp (k := k) hrun
  have honce := sum_residualAt_lt (hafter.imp fun hpq hp => (hpq hp).2) (run_residual hrun)
  rw [hzip]
  refine ⟨?_, Nat.le_of_lt_succ honce.2, honce.1, hafter.imp fun hpq hp => (hpq hp).1⟩
  rw [← hfinal]
  exact hbalance

/-- Two redemptions of 60 from a long of 100: the position falls by 120 less the residual 20. -/
theorem redeemSecond_conserves :
    redeemLedger.applyAllOrNone redeemSecond
        = (redeemLedger.setState sampleWallet redeemKey ⟨.zero, .zero⟩,
            .ok [⟨redeemEffect, none⟩, ⟨redeemEffect, some 20⟩])
      ∧ (redeemLedger.setState sampleWallet redeemKey ⟨.zero, .zero⟩).netAt sampleWallet redeemKey
        = redeemLedger.netAt sampleWallet redeemKey + (0 : Nat) - (120 : Nat) + (20 : Nat) :=
  ⟨by decide +kernel,
    (applyAllOrNone_conserves redeemLedger _ sampleWallet redeemSecond
      [⟨redeemEffect, none⟩, ⟨redeemEffect, some 20⟩] (by decide +kernel) (by decide +kernel)
      redeemKey).1⟩

end PredictionEdge
