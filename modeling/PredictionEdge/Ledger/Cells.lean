import PredictionEdge.Ledger.Apply
import PredictionEdge.Lib.Fallible
import PredictionEdge.Lib.Local

/-!
# The ledger as a local system

A mutation reads and writes the market outcomes it touches and nothing else: the state
held there and whether a residual has closed the outcome. `cellStep` is that reading,
with the rest of the ledger cut away, and `applyInPlace_eq_cellStep` says that applying
a mutation is exactly this. What a batch does to a wallet is then a run of a local
system, and everything known of those holds of it.
-/

namespace PredictionEdge

open Lib

/-- What a batch knows of one market outcome of a wallet. -/
structure Cell where
  state : Option PositionState
  closed : Bool
  deriving DecidableEq

def Batch.cell (w : WalletAddress) (s : Batch) (k : MarketOutcomeId) : Cell :=
  ⟨s.ledger.stateAt w k, k ∈ s.closed⟩

/-- Write a state, and close the outcome if asked to. -/
def Batch.writeCell (w : WalletAddress) (s : Batch) (u : MarketOutcomeId × PositionState × Bool) :
    Batch :=
  ⟨s.ledger.setState w u.1 u.2.1, if u.2.2 then insert u.1 s.closed else s.closed⟩

def Batch.writeCells (w : WalletAddress) (s : Batch)
    (us : List (MarketOutcomeId × PositionState × Bool)) : Batch :=
  us.foldl (Batch.writeCell w) s

def Cell.stateMut (c : Cell) : PositionState := c.state.getD .default

section

variable (c : Cell) (amount : ShareAmount) (id : SourceTradeId)

/-- Remove shares from a long, or fail. -/
def removeLong : Except LedgerError PositionState :=
  ((c.stateMut.longContracts.checkedSub amount).mapError fun _ => .underflow id).map fun long =>
    ⟨long, c.stateMut.shortContracts⟩

def addLong : Except LedgerError PositionState :=
  ((c.stateMut.longContracts.checkedAdd amount).mapError fun _ => .overflow id).map fun long =>
    ⟨long, c.stateMut.shortContracts⟩

def redeemCell : Except LedgerError ((PositionState × Bool) × Option Nat) :=
  if amount ≠ .zero ∧ c.closed then .error (.underflow id)
  else if amount ≤ c.stateMut.longContracts then
    (removeLong c amount id).map fun st => ((st, false), none)
  else if redeemResidualLimitAtomic ≤ amount.atomic - c.stateMut.longContracts.atomic then
    .error (.underflow id)
  else .ok ((⟨.zero, c.stateMut.shortContracts⟩, true),
    some (amount.atomic - c.stateMut.longContracts.atomic))

end

/--
A mutation as a function of the cells it touches: the states to write, whether to close
the outcome, and the clamped residual.
-/
def cellStep (m : LedgerMutation) (cells : List Cell) :
    Except LedgerError (List (PositionState × Bool) × Option Nat) :=
  match m.effect.effective, cells with
  | .trade _ _ side amount _, [c] =>
    if side = .sell ∧ amount ≠ .zero ∧ c.closed then .error (.underflow m.sourceTradeId)
    else (applyTrade c.stateMut side amount m.sourceTradeId).map fun st => ([(st, false)], none)
  | .redeem _ _ amount, [c] =>
    (redeemCell c amount m.sourceTradeId).map fun r => ([r.1], r.2)
  | .split _ amount, [c, d] => do
    let zero ← addLong c amount m.sourceTradeId
    let one ← addLong d amount m.sourceTradeId
    return ([(zero, false), (one, false)], none)
  | .merge _ amount, [c, d] =>
    if amount ≠ .zero ∧ (c.closed ∨ d.closed) then .error (.underflow m.sourceTradeId)
    else do
      let zero ← removeLong c amount m.sourceTradeId
      let one ← removeLong d amount m.sourceTradeId
      return ([(zero, false), (one, false)], none)
  | .conversion, _ => .error (.conversion m.sourceTradeId)
  | .unknownEffect, _ => .error (.unknownEffect m.sourceTradeId)
  | _, _ => .ok ([], none)

/-! ## Reading what was written -/

namespace PositionLedger

section

variable (l : PositionLedger) (w : WalletAddress)

theorem stateAt_setState (k k' : MarketOutcomeId) (st : PositionState) :
    (l.setState w k st).stateAt w k' = if k' = k then some st else l.stateAt w k' := by
  simp only [stateAt, position, setState, Finmap.lookup_insert, Option.bind_some]
  split
  · rename_i h; subst h; exact Finmap.lookup_insert _
  · rename_i h
    rw [Finmap.lookup_insert_of_ne _ h]
    cases l.snapshots.lookup w with
    | none | some s => simp

/-- The wallet a stored snapshot names. -/
def owner : Option WalletAddress :=
  (l.position w).map (·.wallet)

theorem owner_setState (k : MarketOutcomeId) (st : PositionState) :
    (l.setState w k st).owner w = some ((l.owner w).getD w) := by
  simp only [owner, position, setState, Finmap.lookup_insert]
  cases l.snapshots.lookup w <;> rfl

end

/-- A snapshot is its owner and its states. -/
theorem position_ext {l l' : PositionLedger} {w : WalletAddress} (ho : l.owner w = l'.owner w)
    (hs : ∀ k, l.stateAt w k = l'.stateAt w k) : l.position w = l'.position w := by
  simp only [owner, stateAt] at ho hs
  cases h : l.position w with
  | none =>
    rw [h] at ho
    cases h' : l'.position w with
    | none => rfl
    | some s' => rw [h'] at ho; simp at ho
  | some s =>
    rw [h] at ho hs
    cases h' : l'.position w with
    | none => rw [h'] at ho; simp at ho
    | some s' =>
      rw [h'] at ho hs
      obtain ⟨a, p⟩ := s
      obtain ⟨b, q⟩ := s'
      simp only [Option.map_some, Option.some.injEq, Option.bind_some] at ho hs
      have hpq : p = q := Finmap.ext_lookup hs
      rw [ho, hpq]

end PositionLedger

variable {k : MarketOutcomeId} {l : List LedgerMutation} {s : Batch}

namespace Batch

variable {w : WalletAddress}

theorem cell_writeCell (s : Batch) (u : MarketOutcomeId × PositionState × Bool)
    (k : MarketOutcomeId) :
    (s.writeCell w u).cell w k =
      if k = u.1 then ⟨some u.2.1, u.2.2 || (s.cell w k).closed⟩ else s.cell w k := by
  obtain ⟨k', st, b⟩ := u
  simp only [cell, writeCell, PositionLedger.stateAt_setState]
  by_cases h : k = k'
  · subst h
    cases b <;> simp
  · cases b <;> simp [h]

theorem cell_writeCells_of_not_mem :
    ∀ (us : List (MarketOutcomeId × PositionState × Bool)) (s : Batch), k ∉ us.map Prod.fst →
      (s.writeCells w us).cell w k = s.cell w k
  | [], _, _ => rfl
  | u :: us, s, h => by
    rw [List.map_cons, List.mem_cons, not_or] at h
    have ih := cell_writeCells_of_not_mem us (s.writeCell w u) h.2
    rw [writeCells, List.foldl_cons]
    rw [writeCells] at ih
    rw [ih, cell_writeCell, if_neg h.1]

/-- Writing the same cells into two batches that agree on a cell leaves them agreeing there. -/
theorem cell_writeCells_congr :
    ∀ (us : List (MarketOutcomeId × PositionState × Bool)) (s t : Batch),
      s.cell w k = t.cell w k → (s.writeCells w us).cell w k = (t.writeCells w us).cell w k
  | [], _, _, h => h
  | u :: us, s, t, h =>
    cell_writeCells_congr us (s.writeCell w u) (t.writeCell w u) (by
      rw [cell_writeCell, cell_writeCell, h])

end Batch

/-! ## Applying a mutation is a step on its cells -/

variable {m : LedgerMutation}

section

variable {w : WalletAddress}

theorem stateMut_setState_of_ne {k' : MarketOutcomeId} (h : k' ≠ k) (l : PositionLedger)
    (st : PositionState) : (l.setState w k st).stateMut w k' = l.stateMut w k' := by
  rw [PositionLedger.stateMut, PositionLedger.stateAt_setState, if_neg h]; rfl

theorem outcome_ne (market : MarketId) :
    (⟨market, ⟨1⟩⟩ : MarketOutcomeId) ≠ ⟨market, ⟨0⟩⟩ := by
  intro h
  injection h with _ h
  injection h with h
  exact absurd h (by decide)

theorem splitOutcome_eq {market : MarketId} {l : PositionLedger} {o : OutcomeId}
    (amount : ShareAmount)
    (h : l.stateMut m.wallet ⟨market, o⟩ = (s.cell m.wallet ⟨market, o⟩).stateMut) :
    splitOutcome m market amount l o =
      (addLong (s.cell m.wallet ⟨market, o⟩) amount m.sourceTradeId).map
        (l.setState m.wallet ⟨market, o⟩) := by
  simp only [splitOutcome, addLong, h]
  cases (s.cell m.wallet ⟨market, o⟩).stateMut.longContracts.checkedAdd amount <;> rfl

section

variable (s : Batch) (m : LedgerMutation) (market : MarketId) (o : OutcomeId) (amount : ShareAmount)

theorem checkedRemainingLong_eq : (checkedRemainingLong s.ledger m market o amount).map
        (fun long => ⟨long, (s.cell m.wallet ⟨market, o⟩).stateMut.shortContracts⟩) =
      removeLong (s.cell m.wallet ⟨market, o⟩) amount m.sourceTradeId := by
  have hb : ((s.ledger.stateAt m.wallet ⟨market, o⟩).map (·.longContracts)).getD .zero
      = (s.cell m.wallet ⟨market, o⟩).stateMut.longContracts := by
    simp only [Cell.stateMut, Batch.cell]
    cases s.ledger.stateAt m.wallet ⟨market, o⟩ <;> rfl
  simp only [checkedRemainingLong, removeLong, hb]

theorem checkedRemoveRedeem_eq : checkedRemoveRedeem s m market o amount =
      (redeemCell (s.cell m.wallet ⟨market, o⟩) amount m.sourceTradeId).map fun r =>
        (s.writeCell m.wallet (⟨market, o⟩, r.1), r.2) := by
  have hst : s.ledger.stateMut m.wallet ⟨market, o⟩
      = (s.cell m.wallet ⟨market, o⟩).stateMut := rfl
  simp only [checkedRemoveRedeem, redeemCell, hst]
  have hcl : (amount ≠ .zero ∧ ⟨market, o⟩ ∈ s.closed)
      ↔ amount ≠ .zero ∧ (s.cell m.wallet ⟨market, o⟩).closed = true := by simp [Batch.cell]
  by_cases hc : amount ≠ .zero ∧ ⟨market, o⟩ ∈ s.closed
  · rw [if_pos hc, if_pos (hcl.mp hc)]; rfl
  · rw [if_neg hc, if_neg (hcl.not.mp hc)]
    by_cases hle : amount ≤ (s.cell m.wallet ⟨market, o⟩).stateMut.longContracts
    · simp only [if_pos hle, removeLong]
      cases (s.cell m.wallet ⟨market, o⟩).stateMut.longContracts.checkedSub amount <;> rfl
    · simp only [if_neg hle]
      -- the residual's subtraction cannot fail: the amount exceeds the long
      have hsub : (s.cell m.wallet ⟨market, o⟩).stateMut.longContracts.atomic ≤ amount.atomic :=
        Nat.le_of_lt (Nat.lt_of_not_le hle)
      rw [ExactAmount.checkedSub, if_pos hsub]
      simp only [Except.mapError, bind, Except.bind, pure, Except.pure]
      split <;> rfl

end

/--
**Applying a mutation is its step on the cells it touches.**

The cases follow the effect; a split and a merge read the second outcome after the
first was written, which is another cell.
-/
theorem applyInPlace_eq_cellStep (m : LedgerMutation) (s : Batch) :
    applyInPlace m s = (cellStep m (m.touchedKeys.map (s.cell m.wallet))).map fun r =>
      (s.writeCells m.wallet (m.touchedKeys.zip r.1), ⟨m.effect, r.2⟩) := by
  cases he : m.effect.effective with
  | trade market outcome side amount price =>
    simp only [applyInPlace, cellStep, LedgerMutation.touchedKeys, he, List.map_cons,
      List.map_nil]
    by_cases hc : side = .sell ∧ amount ≠ .zero ∧ ⟨market, outcome⟩ ∈ s.closed
    · rw [if_pos hc, if_pos (by simpa [Batch.cell] using hc)]; rfl
    · rw [if_neg hc, if_neg (by simpa [Batch.cell] using hc)]
      have hst : s.ledger.stateMut m.wallet ⟨market, outcome⟩
          = (s.cell m.wallet ⟨market, outcome⟩).stateMut := rfl
      rw [hst]
      cases applyTrade (s.cell m.wallet ⟨market, outcome⟩).stateMut side amount
        m.sourceTradeId <;> rfl
  | split market amount =>
    simp only [applyInPlace, cellStep, LedgerMutation.touchedKeys, he, List.map_cons,
      List.map_nil, List.foldlM_cons, List.foldlM_nil]
    rw [splitOutcome_eq amount rfl]
    cases addLong (s.cell m.wallet ⟨market, ⟨0⟩⟩) amount m.sourceTradeId with
    | error e => rfl
    | ok zero =>
      simp only [Except.map, bind, Except.bind]
      rw [splitOutcome_eq amount (stateMut_setState_of_ne (outcome_ne market) _ _)]
      cases addLong (s.cell m.wallet ⟨market, ⟨1⟩⟩) amount m.sourceTradeId <;> rfl
  | merge market amount =>
    simp only [applyInPlace, cellStep, LedgerMutation.touchedKeys, he, List.map_cons,
      List.map_nil, checkedRemovePair]
    by_cases hc : amount ≠ .zero ∧ [OutcomeId.mk 0, ⟨1⟩].any (⟨market, ·⟩ ∈ s.closed)
    · rw [if_pos hc, if_pos (by simpa [Batch.cell] using hc)]; rfl
    · rw [if_neg hc, if_neg (by simpa [Batch.cell] using hc)]
      rw [← checkedRemainingLong_eq s m market ⟨0⟩, ← checkedRemainingLong_eq s m market ⟨1⟩]
      cases checkedRemainingLong s.ledger m market ⟨0⟩ amount with
      | error e => rfl
      | ok zero =>
        cases checkedRemainingLong s.ledger m market ⟨1⟩ amount with
        | error e => rfl
        | ok one =>
          simp only [PositionLedger.setLong, stateMut_setState_of_ne (outcome_ne market)]
          rfl
  | redeem market outcome amount =>
    simp only [applyInPlace, cellStep, LedgerMutation.touchedKeys, he, List.map_cons,
      List.map_nil, checkedRemoveRedeem_eq]
    cases redeemCell (s.cell m.wallet ⟨market, outcome⟩) amount m.sourceTradeId <;> rfl
  | requiresAnchor =>
    simp [applyInPlace, cellStep, he, LedgerMutation.touchedKeys, Batch.writeCells, Except.map]
  | rawOnly =>
    simp [applyInPlace, cellStep, he, LedgerMutation.touchedKeys, Batch.writeCells, Except.map]
  | conversion | unknownEffect => simp [applyInPlace, cellStep, he, Except.map]
  | corrected e c => exact absurd he (LedgerEffect.effective_ne_corrected _ _ _)

variable {a : AppliedEffect}

/-- What is left of a mutation that was applied: the cells it wrote, and its own effect. -/
theorem applyInPlace_ok {s' : Batch} (h : applyInPlace m s = .ok (s', a)) :
    ∃ r, cellStep m (m.touchedKeys.map (s.cell m.wallet)) = .ok r
      ∧ s' = s.writeCells m.wallet (m.touchedKeys.zip r.1) ∧ a = ⟨m.effect, r.2⟩ := by
  rw [applyInPlace_eq_cellStep] at h
  obtain ⟨r, hr, heq⟩ := map_eq_ok.mp h
  obtain ⟨rfl, rfl⟩ := Prod.mk.inj heq
  exact ⟨r, hr, rfl, rfl⟩

theorem stateAt_replaceWalletSnapshot (ledger : PositionLedger) (w : WalletAddress)
    (positions : Positions) (k : MarketOutcomeId) :
    (ledger.replaceWalletSnapshot w positions).stateAt w k = positions.lookup k := by
  simp [PositionLedger.stateAt, PositionLedger.position, PositionLedger.replaceWalletSnapshot,
    Finmap.lookup_insert]

/-! ## The wallet's local system -/

theorem mem_of_mem_zip_fst {α β : Type} {k : α} {ks : List α} {vs : List β}
    (h : k ∈ (ks.zip vs).map Prod.fst) : k ∈ ks := by
  obtain ⟨⟨a, b⟩, hm, rfl⟩ := List.mem_map.mp h
  exact (List.of_mem_zip hm).1

theorem applyInPlace_frame {s' : Batch} (h : applyInPlace m s = .ok (s', a))
    (hk : k ∉ m.touchedKeys) : s'.cell m.wallet k = s.cell m.wallet k := by
  obtain ⟨r, -, rfl, -⟩ := applyInPlace_ok h
  exact Batch.cell_writeCells_of_not_mem _ _ fun hm => hk (mem_of_mem_zip_fst hm)

theorem applyInPlace_cong {t : Batch}
    (h : ∀ k ∈ m.touchedKeys, s.cell m.wallet k = t.cell m.wallet k) :
    Matches (fun x y => x.2 = y.2 ∧
        ∀ k ∈ m.touchedKeys, x.1.cell m.wallet k = y.1.cell m.wallet k)
      (applyInPlace m s) (applyInPlace m t) := by
  have hcells : m.touchedKeys.map (s.cell m.wallet) = m.touchedKeys.map (t.cell m.wallet) :=
    List.map_congr_left h
  rw [applyInPlace_eq_cellStep, applyInPlace_eq_cellStep, hcells]
  cases cellStep m (m.touchedKeys.map (t.cell m.wallet)) with
  | error e => exact .error e
  | ok r => exact .ok ⟨rfl, fun k hk => Batch.cell_writeCells_congr _ _ _ (h k hk)⟩

/--
The batch as a local system over one wallet's market outcomes. A mutation of another
wallet has no place in it; the batches of interest hold none.
-/
def walletSystem (w : WalletAddress) :
    LocalSystem Batch MarketOutcomeId Cell LedgerMutation AppliedEffect LedgerError where
  get := Batch.cell w
  touch := LedgerMutation.touchedKeys
  step m s := if m.wallet = w then applyInPlace m s else .error (.invalidMapping m.sourceTradeId)
  frame := by
    intro m s s' a h k hk
    split at h
    · rename_i hw
      subst hw
      exact applyInPlace_frame h hk
    · simp at h
  cong := by
    intro m s t h
    by_cases hw : m.wallet = w
    · subst hw
      simp only [if_true]
      exact applyInPlace_cong h
    · simp only [if_neg hw]
      exact .error _

theorem walletSystem_step_ok {r : Batch × AppliedEffect} (h : (walletSystem w).step m s = .ok r) :
    m.wallet = w ∧ applyInPlace m s = .ok r := by
  simp only [walletSystem] at h
  split at h
  · rename_i hw; exact ⟨hw, h⟩
  · simp at h

/-- The batch a second starts from: nothing closed. -/
def freshBatch (ledger : PositionLedger) : Batch := ⟨ledger, ∅⟩

theorem cell_freshBatch (l : PositionLedger) (k : MarketOutcomeId) :
    (freshBatch l).cell w k = ⟨l.stateAt w k, false⟩ := by simp [freshBatch, Batch.cell]

theorem applyAllInPlace_eq_run : ∀ {l : List LedgerMutation} (s : Batch),
    (∀ m ∈ l, m.wallet = w) →
    applyAllInPlace l s = ((walletSystem w).run l s).map fun r => (r.1, r.2.map Prod.snd)
  | [], s, _ => rfl
  | m :: l, s, h => by
    have hstep : (walletSystem w).step m s = applyInPlace m s := if_pos (h m List.mem_cons_self)
    have hl : ∀ m ∈ l, m.wallet = w := fun x hx => h x (List.mem_cons_of_mem _ hx)
    rw [applyAllInPlace]
    cases ha : applyInPlace m s with
    | error e =>
      rw [LocalSystem.run_cons_of_error (hstep.trans ha)]
      rfl
    | ok p =>
      obtain ⟨s', a⟩ := p
      rw [LocalSystem.run_cons_of_ok (hstep.trans ha)]
      simp only [bind, Except.bind]
      rw [applyAllInPlace_eq_run s' hl]
      cases (walletSystem w).run l s' <;> rfl

/-- Simulating a wallet's batch is running its system from a fresh batch. -/
theorem simulateAllOrNone_eq_run (ledger : PositionLedger) (h : ∀ m ∈ l, m.wallet = w) :
    ledger.simulateAllOrNone l = ((walletSystem w).run l (freshBatch ledger)).map fun r =>
      (r.1.ledger, r.2.map Prod.snd) := by
  rw [PositionLedger.simulateAllOrNone, applyAllInPlace_eq_run _ h, freshBatch]
  cases (walletSystem w).run l ⟨ledger, ∅⟩ <;> rfl

theorem simulateAllOrNone_ok_iff {ledger ledger' : PositionLedger} {applied : List AppliedEffect}
    (h : ∀ m ∈ l, m.wallet = w) :
    ledger.simulateAllOrNone l = .ok (ledger', applied) ↔
      ∃ s os, (walletSystem w).run l (freshBatch ledger) = .ok (s, os) ∧ s.ledger = ledger'
        ∧ os.map Prod.snd = applied := by
  rw [simulateAllOrNone_eq_run ledger h]
  cases (walletSystem w).run l (freshBatch ledger) with
  | error e => simp [Except.map]
  | ok r => simp [Except.map, Prod.ext_iff]

/-! ## Who owns the snapshot afterwards -/

theorem owner_writeCells : ∀ (us : List (MarketOutcomeId × PositionState × Bool)) (s : Batch),
    us ≠ [] → (s.writeCells w us).ledger.owner w = some ((s.ledger.owner w).getD w)
  | [], _, h => absurd rfl h
  | [u], s, _ => PositionLedger.owner_setState _ _ _ _
  | u :: v :: us, s, _ => by
    have ih := owner_writeCells (v :: us) (s.writeCell w u) (by simp)
    rw [Batch.writeCells, List.foldl_cons]
    rw [Batch.writeCells] at ih
    rw [ih, Batch.writeCell, PositionLedger.owner_setState]
    rfl

/--
A redemption that goes through takes its amount and closes nothing, or it clamps and closes the
outcome; from a closed outcome it takes nothing.
-/
theorem redeemCell_ok {c : Cell} {amount : ShareAmount} {id : SourceTradeId}
    {r : (PositionState × Bool) × Option Nat} (h : redeemCell c amount id = .ok r) :
    (c.closed = true → amount.atomic = 0)
    ∧ ((∃ long, c.stateMut.longContracts.atomic = long.atomic + amount.atomic
        ∧ r = ((⟨long, c.stateMut.shortContracts⟩, false), none))
      ∨ (c.stateMut.longContracts.atomic < amount.atomic
        ∧ amount.atomic - c.stateMut.longContracts.atomic < redeemResidualLimitAtomic
        ∧ r = ((⟨.zero, c.stateMut.shortContracts⟩, true),
          some (amount.atomic - c.stateMut.longContracts.atomic)))) := by
  unfold redeemCell at h
  split at h
  · simp at h
  rename_i hopen
  refine ⟨fun hcl => ?_, ?_⟩
  · by_contra hne
    exact hopen ⟨fun h0 => hne (ExactAmount.eq_zero_iff.mp h0), hcl⟩
  split at h
  · obtain ⟨st, hst, rfl⟩ := map_eq_ok.mp h
    obtain ⟨long, hlong, rfl⟩ := map_eq_ok.mp hst
    exact .inl ⟨long, ExactAmount.checkedSub_ok.mp (mapError_eq_ok.mp hlong), rfl⟩
  · rename_i hle
    split at h
    · simp at h
    · rename_i hlimit
      exact .inr ⟨Nat.lt_of_not_le hle, Nat.lt_of_not_le hlimit, (Except.ok.inj h).symm⟩

/-- A step writes every cell it touches, and leaves no residual but that of a redemption. -/
theorem cellStep_ok {f : MarketOutcomeId → Cell} {r : List (PositionState × Bool) × Option Nat}
    (h : cellStep m (m.touchedKeys.map f) = .ok r) :
    r.1.length = m.touchedKeys.length
    ∧ (r.2 = none ∨ ∃ market outcome amount c x, m.effect.effective = .redeem market outcome amount
      ∧ redeemCell c amount m.sourceTradeId = .ok x ∧ r.2 = x.2) := by
  unfold cellStep at h
  unfold LedgerMutation.touchedKeys at h ⊢
  cases he : m.effect.effective <;> rw [he] at h <;> simp only [List.map_cons, List.map_nil] at h
  case trade =>
    split at h
    · simp at h
    · obtain ⟨st, _, rfl⟩ := map_eq_ok.mp h
      simp
  case redeem =>
    obtain ⟨x, hx, rfl⟩ := map_eq_ok.mp h
    exact ⟨rfl, .inr ⟨_, _, _, _, x, rfl, hx, rfl⟩⟩
  case split =>
    obtain ⟨zero, _, h⟩ := bind_eq_ok.mp h
    obtain ⟨one, _, h⟩ := bind_eq_ok.mp h
    rw [← pure_eq_ok.mp h]
    simp
  case merge =>
    split at h
    · simp at h
    · obtain ⟨zero, _, h⟩ := bind_eq_ok.mp h
      obtain ⟨one, _, h⟩ := bind_eq_ok.mp h
      rw [← pure_eq_ok.mp h]
      simp
  case requiresAnchor | rawOnly => injection h with h; rw [← h]; simp
  case corrected e c => exact absurd he (LedgerEffect.effective_ne_corrected _ _ _)
  all_goals exact absurd h (by simp)

theorem applyInPlace_owner {s' : Batch} (h : applyInPlace m s = .ok (s', a)) :
    s'.ledger.owner m.wallet = if m.touchedKeys = [] then s.ledger.owner m.wallet
      else some ((s.ledger.owner m.wallet).getD m.wallet) := by
  obtain ⟨r, hr, rfl, -⟩ := applyInPlace_ok h
  split
  · rename_i hk
    rw [hk]; rfl
  · rename_i hk
    refine owner_writeCells _ _ fun hz => hk ?_
    have hlen := (cellStep_ok hr).1
    have hzl := congrArg List.length hz
    rw [List.length_zip, hlen, Nat.min_self] at hzl
    exact List.length_eq_zero_iff.mp hzl

/-- The snapshot of a wallet exists after a run if it did before or a cell was touched. -/
theorem run_owner : ∀ {l : List LedgerMutation} {s s' : Batch}
    {os : List (LedgerMutation × AppliedEffect)}, (walletSystem w).run l s = .ok (s', os) →
    s'.ledger.owner w = if ∀ m ∈ l, m.touchedKeys = [] then s.ledger.owner w
      else some ((s.ledger.owner w).getD w)
  | [], s, s', os, h => by
    simp only [LocalSystem.run_nil, Except.ok.injEq, Prod.mk.injEq] at h
    rw [← h.1]; simp
  | m :: l, s, s', os, h => by
    obtain ⟨s1, a, os', hs, hr, _⟩ := LocalSystem.run_cons_ok.mp h
    obtain ⟨hw, ha⟩ := walletSystem_step_ok hs
    have ho := applyInPlace_owner ha
    rw [hw] at ho
    rw [run_owner hr, ho]
    by_cases h1 : m.touchedKeys = [] <;> by_cases h2 : ∀ x ∈ l, x.touchedKeys = [] <;>
      simp [h1, h2]

/-- Two orders of a batch leave one snapshot when they agree on what they touch. -/
theorem run_position_perm {l' : List LedgerMutation} {t t' : Batch}
    {os os' : List (LedgerMutation × AppliedEffect)} (hp : l'.Perm l)
    (h' : (walletSystem w).run l' s = .ok (t', os')) (h : (walletSystem w).run l s = .ok (t, os))
    (hstates : ∀ k ∈ (walletSystem w).keys l, t'.ledger.stateAt w k = t.ledger.stateAt w k) :
    t'.ledger.position w = t.ledger.position w := by
  refine PositionLedger.position_ext ?_ fun k => ?_
  · rw [run_owner h', run_owner h]
    simp only [hp.mem_iff]
  · by_cases hk : k ∈ (walletSystem w).keys l
    · exact hstates k hk
    · -- no other cell is touched in any order
      have hk' : k ∉ (walletSystem w).keys l' := by rwa [LocalSystem.keys_perm hp]
      exact congrArg Cell.state ((LocalSystem.run_frame h' k hk').trans
        (LocalSystem.run_frame h k hk).symm)

end

end PredictionEdge
