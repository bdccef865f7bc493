import PredictionEdge.Ledger.OrderProof

/-!
# The same-side shortcut is exact

Trades on one side of one market outcome are not tried in every order: one fold over them,
in the order they came, stands for all. It decides as trying every order would. The batch
of such trades writes their one entry and nothing else, so simulating it is the fold; and
the fold depends on the sum of the amounts, so that either every order succeeds, in one
ledger, or none does.
-/

namespace PredictionEdge

/-- Writing an entry twice leaves the second state. -/
theorem PositionLedger.setState_setState (ledger : PositionLedger) (w : WalletAddress)
    (k : MarketOutcomeId) (st st' : PositionState) :
    (ledger.setState w k st).setState w k st' = ledger.setState w k st' := by
  simp only [PositionLedger.setState, PositionLedger.position, Finmap.lookup_insert,
    Option.getD_some, Finmap.insert_insert]

theorem PositionLedger.stateMut_setState (ledger : PositionLedger) (w : WalletAddress)
    (k : MarketOutcomeId) (st : PositionState) : (ledger.setState w k st).stateMut w k = st := by
  rw [PositionLedger.stateMut, PositionLedger.stateAt_setState, if_pos rfl, Option.getD_some]

section

variable {w : WalletAddress} {market : MarketId} {outcome : OutcomeId} {side : Side}

/-- One trade of the component in a batch that has closed nothing. -/
theorem applyInPlace_sameSide {m : LedgerMutation} {amount : ShareAmount} {price : Price}
    (ledger : PositionLedger) (hw : m.wallet = w)
    (he : m.effect.effective = .trade market outcome side amount price) :
    applyInPlace m ⟨ledger, ∅⟩
      = (applyTrade (ledger.stateMut w ⟨market, outcome⟩) side amount m.sourceTradeId).map
          fun st => (⟨ledger.setState w ⟨market, outcome⟩ st, ∅⟩, ⟨m.effect, none⟩) := by
  subst hw
  simp only [applyInPlace, he]
  rw [if_neg (by simp)]
  cases applyTrade (ledger.stateMut m.wallet ⟨market, outcome⟩) side amount m.sourceTradeId <;> rfl

/-- Once their entry exists, the trades of a component do to it what their fold does. -/
theorem applyAllInPlace_sameSide (ledger : PositionLedger) :
    ∀ (c : List LedgerMutation) (st : PositionState), SameSide w market outcome side c →
      applyAllInPlace c ⟨ledger.setState w ⟨market, outcome⟩ st, ∅⟩
        = (foldSameSide side c st).map fun st' =>
            (⟨ledger.setState w ⟨market, outcome⟩ st', ∅⟩, c.map fun m => ⟨m.effect, none⟩)
  | [], st, _ => rfl
  | m :: c, st, h => by
    obtain ⟨hw, amount, price, he⟩ := isSameSideTrade_iff.mp (h m List.mem_cons_self)
    have hc : SameSide w market outcome side c := fun x hx => h x (List.mem_cons_of_mem _ hx)
    simp only [applyAllInPlace, foldSameSide, he]
    rw [applyInPlace_sameSide _ hw he, PositionLedger.stateMut_setState]
    cases applyTrade st side amount m.sourceTradeId with
    | error e => rfl
    | ok st1 =>
      simp only [Except.map, bind, Except.bind, PositionLedger.setState_setState]
      rw [applyAllInPlace_sameSide ledger c st1 hc]
      cases foldSameSide side c st1 <;> rfl

/-- **Simulating a same-side component is its fold.** -/
theorem simulateAllOrNone_sameSide (ledger : PositionLedger) {c : List LedgerMutation}
    (hne : c ≠ []) (h : SameSide w market outcome side c) :
    ledger.simulateAllOrNone c
      = (foldSameSide side c (ledger.stateMut w ⟨market, outcome⟩)).map fun st =>
          (ledger.setState w ⟨market, outcome⟩ st, c.map fun m => ⟨m.effect, none⟩) := by
  cases c with
  | nil => exact absurd rfl hne
  | cons m c =>
    obtain ⟨hw, amount, price, he⟩ := isSameSideTrade_iff.mp (h m List.mem_cons_self)
    have hc : SameSide w market outcome side c := fun x hx => h x (List.mem_cons_of_mem _ hx)
    simp only [PositionLedger.simulateAllOrNone, applyAllInPlace, foldSameSide, he]
    rw [applyInPlace_sameSide _ hw he]
    cases applyTrade (ledger.stateMut w ⟨market, outcome⟩) side amount m.sourceTradeId with
    | error e => rfl
    | ok st =>
      simp only [Except.map, bind, Except.bind]
      rw [applyAllInPlace_sameSide ledger c st hc]
      cases foldSameSide side c st <;> rfl

/--
**The fold decides for every order.**

Its success is the success of every order of the component, in one and the same ledger;
its failure is the failure of every order.
-/
theorem sameSideComponentValidity_exact (ledger : PositionLedger) (w : WalletAddress)
    (market : MarketId) (outcome : OutcomeId) (side : Side) (c : List LedgerMutation)
    (hne : c ≠ []) (h : SameSide w market outcome side c) :
    (sameSideComponentValidity ledger w c = some (.ok ()) ↔
        ∃ final, ∀ c', c'.Perm c → ∃ applied, ledger.simulateAllOrNone c' = .ok (final, applied))
      ∧ ((∃ e, sameSideComponentValidity ledger w c = some (.error e)) ↔
        ∀ c', c'.Perm c → ∃ e, ledger.simulateAllOrNone c' = .error e) := by
  have hvalid : sameSideComponentValidity ledger w c = some ((foldSameSide side c
      ((ledger.stateAt w ⟨market, outcome⟩).getD .default)).map fun _ => ()) :=
    sameSideComponentValidity_of_sameSide hne h
  have hfold : ∀ c', c'.Perm c → ledger.simulateAllOrNone c'
      = (foldSameSide side c' (ledger.stateMut w ⟨market, outcome⟩)).map fun st =>
          (ledger.setState w ⟨market, outcome⟩ st, c'.map fun m => ⟨m.effect, none⟩) := by
    intro c' hp
    exact simulateAllOrNone_sameSide ledger (fun h0 => hne (by simpa [h0] using hp.symm))
      (h.perm hp)
  have hperm : ∀ c', c'.Perm c → ∀ st,
      foldSameSide side c' (ledger.stateMut w ⟨market, outcome⟩) = .ok st
        ↔ foldSameSide side c (ledger.stateMut w ⟨market, outcome⟩) = .ok st :=
    fun c' hp st => foldSameSide_perm hp fun m hm => isTrade_of_isSameSideTrade (h m hm)
  rw [hvalid]
  change (some ((foldSameSide side c (ledger.stateMut w ⟨market, outcome⟩)).map fun _ => ())
      = some (.ok ()) ↔ _)
    ∧ ((∃ e, some ((foldSameSide side c (ledger.stateMut w ⟨market, outcome⟩)).map fun _ => ())
      = some (.error e)) ↔ _)
  cases hc : foldSameSide side c (ledger.stateMut w ⟨market, outcome⟩) with
  | ok st =>
    have hall : ∀ c', c'.Perm c → ledger.simulateAllOrNone c'
        = .ok (ledger.setState w ⟨market, outcome⟩ st, c'.map fun m => ⟨m.effect, none⟩) := by
      intro c' hp
      rw [hfold c' hp, (hperm c' hp st).mpr hc]
      rfl
    refine ⟨⟨fun _ => ⟨_, fun c' hp => ⟨_, hall c' hp⟩⟩, fun _ => rfl⟩, ?_, ?_⟩
    · intro herr
      obtain ⟨e, he⟩ := herr
      simp [Except.map] at he
    · intro herr
      obtain ⟨e, he⟩ := herr c (.refl c)
      rw [hall c (.refl c)] at he
      simp at he
  | error e =>
    have hall : ∀ c', c'.Perm c → ∃ e', ledger.simulateAllOrNone c' = .error e' := by
      intro c' hp
      rw [hfold c' hp]
      cases hc' : foldSameSide side c' (ledger.stateMut w ⟨market, outcome⟩) with
      | ok st =>
        rw [(hperm c' hp st).mp hc'] at hc
        simp at hc
      | error e' => exact ⟨e', rfl⟩
    refine ⟨⟨fun hok => absurd hok (by simp [Except.map]), ?_⟩, fun _ => hall, fun _ => ⟨e, rfl⟩⟩
    intro hok
    obtain ⟨final, hfinal⟩ := hok
    obtain ⟨applied, happlied⟩ := hfinal c (.refl c)
    obtain ⟨e', he'⟩ := hall c (.refl c)
    rw [happlied] at he'
    simp at he'

end

/-! Two sales of 60 from a long of 100: the second one, whichever it is, opens a short of 20. -/

def saleKey : MarketOutcomeId := ⟨⟨⟨"0xa1"⟩⟩, ⟨0⟩⟩

def saleLedger : PositionLedger :=
  PositionLedger.new.setState sampleWallet saleKey ⟨shares 100, .zero⟩

def saleEffect : LedgerEffect :=
  .trade saleKey.market saleKey.outcome .sell (shares 60) samplePrice

def saleSecond : List LedgerMutation :=
  [sampleMutation "g2:1" saleEffect, sampleMutation "g2:2" saleEffect]

theorem saleSecond_exact :
    sameSideComponentValidity saleLedger sampleWallet saleSecond = some (.ok ())
      ∧ ∃ final, ∀ c', c'.Perm saleSecond →
        ∃ applied, saleLedger.simulateAllOrNone c' = .ok (final, applied) :=
  ⟨by decide +kernel,
    (sameSideComponentValidity_exact saleLedger sampleWallet saleKey.market saleKey.outcome .sell
      saleSecond (by decide) (by unfold SameSide; decide +kernel)).1.mp (by decide +kernel)⟩

end PredictionEdge
