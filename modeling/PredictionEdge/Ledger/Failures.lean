import PredictionEdge.Ledger.OrderProof

/-!
# How a component fails

A component of several mutations never fails with an error, only by not being free of
its order. A single mutation may fail, and unless its effect is one the ledger refuses,
it fails by underflow or overflow. And a component never spans two markets: mutations
that meet, meet in a market outcome.
-/

namespace PredictionEdge

open Lib

variable {w : WalletAddress} {ledger : PositionLedger}

/-- The failures of checked arithmetic. -/
def LedgerError.IsArithmetic : LedgerError → Prop
  | .underflow _ | .overflow _ => True
  | _ => False

/-- The ledger refuses conversions and unknown effects outright. -/
def LedgerMutation.IsRefused (m : LedgerMutation) : Prop :=
  m.effect.effective = .conversion ∨ m.effect.effective = .unknownEffect

variable {st : PositionState} {side : Side}

section

variable {c : Cell} {amount : ShareAmount} {id : SourceTradeId} {e : LedgerError}

theorem removeLong_error (h : removeLong c amount id = .error e) : e = .underflow id := by
  obtain ⟨_, _, he⟩ := mapError_eq_error.mp (map_eq_error.mp h)
  exact he.symm

theorem addLong_error (h : addLong c amount id = .error e) : e = .overflow id := by
  obtain ⟨_, _, he⟩ := mapError_eq_error.mp (map_eq_error.mp h)
  exact he.symm

theorem applyTrade_error (h : applyTrade st side amount id = .error e) : e = .overflow id := by
  rcases applyTrade_spec st side amount id with ⟨st', hok, _⟩ | ⟨herr, _⟩
  · rw [hok] at h; simp at h
  · rw [herr, Except.error.injEq] at h; exact h.symm

theorem redeemCell_error (h : redeemCell c amount id = .error e) : e = .underflow id := by
  unfold redeemCell at h
  split at h
  · exact (Except.error.inj h).symm
  · split at h
    · exact removeLong_error (map_eq_error.mp h)
    · split at h
      · exact (Except.error.inj h).symm
      · simp at h

end

variable {m : LedgerMutation} {e : LedgerError}

theorem cellStep_error {f : MarketOutcomeId → Cell}
    (h : cellStep m (m.touchedKeys.map f) = .error e) : e.IsArithmetic ∨ m.IsRefused := by
  unfold cellStep at h
  unfold LedgerMutation.touchedKeys at h
  unfold LedgerMutation.IsRefused
  cases he : m.effect.effective <;> rw [he] at h <;> simp only [List.map_cons, List.map_nil] at h
  case trade market outcome side amount price =>
    left
    split at h
    · rw [← Except.error.inj h]; trivial
    · rw [applyTrade_error (map_eq_error.mp h)]; trivial
  case redeem market outcome amount =>
    left
    rw [redeemCell_error (map_eq_error.mp h)]; trivial
  case split market amount =>
    left
    rcases bind_eq_error.mp h with hz | ⟨zero, _, h⟩
    · rw [addLong_error hz]; trivial
    · rcases bind_eq_error.mp h with ho | ⟨one, _, h⟩
      · rw [addLong_error ho]; trivial
      · simp [pure, Except.pure] at h
  case merge market amount =>
    left
    split at h
    · rw [← Except.error.inj h]; trivial
    · rcases bind_eq_error.mp h with hz | ⟨zero, _, h⟩
      · rw [removeLong_error hz]; trivial
      · rcases bind_eq_error.mp h with ho | ⟨one, _, h⟩
        · rw [removeLong_error ho]; trivial
        · simp [pure, Except.pure] at h
  case conversion => exact Or.inr (Or.inl rfl)
  case unknownEffect => exact Or.inr (Or.inr rfl)
  case requiresAnchor | rawOnly | corrected => exact absurd h (by simp)

/-- A single mutation fails by arithmetic unless the ledger refuses it. -/
theorem simulate_single_error (h : ledger.simulateAllOrNone [m] = .error e) :
    e.IsArithmetic ∨ m.IsRefused := by
  simp only [PositionLedger.simulateAllOrNone, applyAllInPlace, applyInPlace_eq_cellStep] at h
  cases hc : cellStep m (m.touchedKeys.map ((⟨ledger, ∅⟩ : Batch).cell m.wallet)) with
  | ok r => rw [hc] at h; simp [Except.map, bind, Except.bind, pure, Except.pure] at h
  | error x =>
    rw [hc] at h
    simp only [Except.map, bind, Except.bind, Except.error.injEq] at h
    rw [← h]
    exact cellStep_error hc

theorem ordersMatch_error {single : Bool} : ∀ {expected : Option OrderResult}
    {sequences : List (List LedgerMutation)} {e : LedgerError},
    ordersMatch ledger w single expected sequences = .error e →
      single = true ∧ ∃ c ∈ sequences, ledger.simulateAllOrNone c = .error e
  | expected, [], e, h => absurd h (by simp [ordersMatch])
  | expected, c :: rest, e, h => by
    simp only [ordersMatch] at h
    cases hs : ledger.simulateAllOrNone c with
    | error x =>
      rw [hs] at h
      cases single with
      | false => simp at h
      | true =>
        simp only [if_true, Except.error.injEq] at h
        exact ⟨rfl, c, List.mem_cons_self, by rw [hs, h]⟩
    | ok r =>
      rw [hs] at h
      simp only at h
      split at h
      · simp at h
      · obtain ⟨hsingle, d, hd, he⟩ := ordersMatch_error h
        exact ⟨hsingle, d, List.mem_cons_of_mem _ hd, he⟩

theorem foldSameSide_single_error (h : foldSameSide side [m] st = .error e) : e.IsArithmetic := by
  simp only [foldSameSide] at h
  split at h
  · rename_i amount _ _
    cases ht : applyTrade st side amount m.sourceTradeId with
    | ok st' => rw [ht] at h; simp [bind, Except.bind] at h
    | error x =>
      rw [ht, applyTrade_error ht] at h
      simp only [bind, Except.bind, Except.error.injEq] at h
      rw [← h]; trivial
  · simp at h

/--
**What the check of a component can fail with.**

Only a single mutation makes the check fail, and if the ledger does not refuse the
mutation, the failure is an underflow or an overflow.
-/
theorem componentOrderIndependent_error {c : List LedgerMutation}
    (h : componentOrderIndependent ledger w c .repaired = .error e) :
    ∃ m, c = [m] ∧ (e.IsArithmetic ∨ m.IsRefused) := by
  simp only [componentOrderIndependent] at h
  cases hv : sameSideComponentValidity ledger w c with
  | none =>
    rw [hv] at h
    simp only at h
    split at h
    · obtain ⟨hone, d, hd, he⟩ := ordersMatch_error h
      obtain ⟨m, rfl⟩ := List.length_eq_one_iff.mp (of_decide_eq_true hone)
      rw [enumerateMutationOrders, mem_enumerateOrders_nil] at hd
      rw [List.perm_singleton.mp hd] at he
      exact ⟨m, rfl, simulate_single_error he⟩
    · simp at h
  | some v =>
    rw [hv] at h
    cases v with
    | ok _ => simp at h
    | error x =>
      simp only at h
      split at h
      · rename_i hone
        obtain ⟨m, rfl⟩ := List.length_eq_one_iff.mp hone
        obtain ⟨hne, market, outcome, side, hs⟩ := sameSideComponentValidity_eq_some hv
        rw [sameSideComponentValidity_of_sameSide hne hs, Option.some.injEq] at hv
        cases hf : foldSameSide side [m] ((ledger.stateAt w ⟨market, outcome⟩).getD .default) with
        | ok st => rw [hf] at hv; simp [Except.map] at hv
        | error y =>
          rw [hf] at hv
          simp only [Except.map, Except.error.injEq] at hv
          rw [← Except.error.inj h, ← hv]
          exact ⟨m, rfl, Or.inl (foldSameSide_single_error hf)⟩
      · simp at h

/-- A mutation that touches nothing and is not refused always passes. -/
theorem componentOrderIndependent_keyless (hk : m.touchedKeys = []) (hr : ¬ m.IsRefused) :
    componentOrderIndependent ledger w [m] .repaired = .ok true := by
  refine componentOrderIndependent_ok_true_iff.mpr ⟨?_, Or.inl (by simp)⟩
  have hsim : ∃ r, ledger.simulateAllOrNone [m] = .ok r := by
    simp only [PositionLedger.simulateAllOrNone, applyAllInPlace, applyInPlace_eq_cellStep, hk]
    cases hc : cellStep m (([] : List MarketOutcomeId).map
        ((⟨ledger, ∅⟩ : Batch).cell m.wallet)) with
    | ok r => exact ⟨_, rfl⟩
    | error e =>
      -- with no cells to read only a refusal can fail
      exfalso
      unfold cellStep at hc
      unfold LedgerMutation.touchedKeys at hk
      unfold LedgerMutation.IsRefused at hr
      cases he : m.effect.effective <;> rw [he] at hc hk hr <;> simp_all
  obtain ⟨r, hsim⟩ := hsim
  refine ⟨(r.1.position w, r.2.map (·.clampedResidual)), fun c' hp => ?_⟩
  rw [List.perm_singleton.mp hp, orderResult, hsim]
  rfl

/-! ## Components stay inside a market -/

/-- **The mutations of a component share one market.** -/
theorem component_market {l c : List LedgerMutation} (hc : c ∈ mutationComponents l)
    {m' : LedgerMutation} (hm : m ∈ c) (hm' : m' ∈ c) (hk : m.touchedKeys ≠ []) :
    m'.touchedKeys ≠ [] ∧ m'.effect.effectMarket = m.effect.effectMarket := by
  obtain ⟨k, hkm⟩ := List.exists_mem_of_ne_nil _ hk
  -- every mutation lies inside or outside the keys of this market
  have huncut : Uncut LedgerMutation.touchedKeys {x | x.market = k.market} c := by
    intro x _
    by_cases hx : x.effect.effectMarket = some k.market
    · left
      intro k' hk'
      have := LedgerMutation.touchedKeys_market hk'
      rw [hx, Option.some.injEq] at this
      exact this.symm
    · right
      intro k' hk' hmem
      refine hx ?_
      have hmarket : k'.market = k.market := hmem
      rw [LedgerMutation.touchedKeys_market hk', hmarket]
  have hne' : m'.touchedKeys ≠ [] := by
    intro hnil
    rw [components_keyless hc hm' hnil, List.mem_singleton] at hm
    exact hk (hm ▸ hnil)
  obtain ⟨k', hkm'⟩ := List.exists_mem_of_ne_nil _ hne'
  refine ⟨hne', ?_⟩
  rcases components_uncut hc huncut with hin | hout
  · have hmarket : k'.market = k.market := hin m' hm' k' hkm'
    rw [LedgerMutation.touchedKeys_market hkm', LedgerMutation.touchedKeys_market hkm, hmarket]
  · exact absurd rfl (hout m hm k hkm)

end PredictionEdge
