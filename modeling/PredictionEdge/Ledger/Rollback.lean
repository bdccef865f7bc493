import PredictionEdge.Ledger.OrderProof
import PredictionEdge.Ledger.SameSide

/-!
# Rolling an admission back

A trade that was ingested but never committed is taken back: the orchestrator captured
what its market outcome held before, and `restore` writes that again. The entry is then
exactly what it was. The wallet's snapshot is not: `ingest` creates one for a wallet it
has never seen, and `restore` leaves it there, empty. Only a classification at quality
zero can tell an empty snapshot from none, and it does.
-/

namespace PredictionEdge

/-- The mutation one observed trade stands for. -/
def IncomingTrade.mutation (trade : IncomingTrade) : LedgerMutation where
  sourceTradeId := trade.sourceTradeId
  transactionHash := trade.transactionHash.getD trade.sourceTradeId.val
  wallet := trade.wallet
  sourceTime := trade.observedAt
  effect := .trade trade.marketId trade.outcomeId trade.side trade.contracts trade.price

/-- The market outcome a trade is on. -/
def IncomingTrade.key (trade : IncomingTrade) : MarketOutcomeId :=
  ⟨trade.marketId, trade.outcomeId⟩

variable {ledger : PositionLedger} {trade : IncomingTrade}

namespace PositionLedger

section

variable (ledger : PositionLedger)

/-- Apply one mutation to a copy, and keep the copy if that succeeds. -/
def apply (mutation : LedgerMutation) : PositionLedger × Except LedgerError Unit :=
  match applyInPlace mutation ⟨ledger, ∅⟩ with
  | .ok (candidate, _) => (candidate.ledger, .ok ())
  | .error e => (ledger, .error e)

def ingest (trade : IncomingTrade) : PositionLedger × Except LedgerError Unit :=
  ledger.apply trade.mutation

/-- Put back what a market outcome held; `none` means that the trade created the entry. -/
def restore (wallet : WalletAddress) (key : MarketOutcomeId)
    (prev : Option (ShareAmount × ShareAmount)) : PositionLedger :=
  match ledger.position wallet with
  | none => ledger
  | some snap =>
    let positions := match prev with
      | some (long, short) => snap.positions.insert key ⟨long, short⟩
      | none => snap.positions.erase key
    ⟨ledger.snapshots.insert wallet ⟨snap.wallet, positions⟩⟩

/-- The pair the caller captures before it ingests. -/
def held (wallet : WalletAddress) (key : MarketOutcomeId) : Option (ShareAmount × ShareAmount) :=
  (ledger.stateAt wallet key).map fun state => (state.longContracts, state.shortContracts)

/-- Ingest a trade and take it back. -/
def rolledBack (trade : IncomingTrade) : PositionLedger :=
  (ledger.ingest trade).1.restore trade.wallet trade.key (ledger.held trade.wallet trade.key)

end

/-! ## What a rollback leaves -/

/-- A trade that was ingested wrote its own market outcome. -/
theorem ingest_ok (h : (ledger.ingest trade).2 = .ok ()) :
    ∃ state, (ledger.ingest trade).1 = ledger.setState trade.wallet trade.key state := by
  simp only [ingest, apply] at h ⊢
  cases ht : applyTrade (ledger.stateMut trade.wallet ⟨trade.marketId, trade.outcomeId⟩) trade.side
      trade.contracts trade.sourceTradeId with
  | error e =>
    simp [applyInPlace, IncomingTrade.mutation, LedgerEffect.effective, ht, bind, Except.bind] at h
  | ok state =>
    refine ⟨state, ?_⟩
    simp [applyInPlace, IncomingTrade.mutation, LedgerEffect.effective, ht, bind, Except.bind,
      pure, Except.pure, IncomingTrade.key]

/-- The entry that was written over is again what it was; no other was touched. -/
theorem stateAt_restore_setState (ledger : PositionLedger) (w : WalletAddress)
    (k k' : MarketOutcomeId) (state : PositionState) :
    ((ledger.setState w k state).restore w k (ledger.held w k)).stateAt w k'
      = ledger.stateAt w k' := by
  have hpos : (ledger.setState w k state).position w
      = some ⟨((ledger.position w).getD ⟨w, ∅⟩).wallet,
          ((ledger.position w).getD ⟨w, ∅⟩).positions.insert k state⟩ := by
    simp only [position, setState, Finmap.lookup_insert]
  have hrest := stateAt_setState ledger w k k' state
  simp only [restore, hpos]
  simp only [stateAt, position, Finmap.lookup_insert, Option.bind_some]
  simp only [stateAt, hpos, Option.bind_some] at hrest
  by_cases hk : k' = k
  · subst hk
    simp only [held, stateAt, position]
    cases hheld : (ledger.snapshots.lookup w).bind fun s => s.positions.lookup k' with
    | none => simp only [Option.map_none]; exact Finmap.lookup_erase _ _
    | some st => simp only [Option.map_some]; exact Finmap.lookup_insert _
  · rw [if_neg hk] at hrest
    cases ledger.held w k with
    | none =>
      simp only
      rw [Finmap.lookup_erase_ne hk]
      exact hrest
    | some pair =>
      simp only
      rw [Finmap.lookup_insert_of_ne _ hk]
      exact hrest

/-- After a rollback the wallet has a snapshot, whether it had one before or not. -/
theorem isSome_position_rolledBack (h : (ledger.ingest trade).2 = .ok ()) :
    ((ledger.rolledBack trade).position trade.wallet).isSome = true := by
  obtain ⟨state, hstate⟩ := ingest_ok h
  simp only [rolledBack, hstate]
  simp only [restore, position, setState, Finmap.lookup_insert, Option.isSome_some]

theorem stateAt_rolledBack (h : (ledger.ingest trade).2 = .ok ()) (k : MarketOutcomeId) :
    (ledger.rolledBack trade).stateAt trade.wallet k = ledger.stateAt trade.wallet k := by
  obtain ⟨state, hstate⟩ := ingest_ok h
  rw [rolledBack, hstate]
  exact stateAt_restore_setState ledger trade.wallet trade.key k state

end PositionLedger

/-! ## Classifying after a rollback -/

theorem classifyAgainst_ne_unknown (opposing same qty : ShareAmount) (config : SignalConfig) :
    classifyAgainst opposing same qty config ≠ .unknown := by
  simp only [classifyAgainst]
  split
  · split <;> simp
  · split
    · simp
    · split <;> simp

/-- Only a wallet without a snapshot has an action that cannot be told. -/
theorem classifyLeaderAction_ne_unknown (trade : IncomingTrade) {position : Option PositionSnapshot}
    (quality : ReconstructionQuality) (config : SignalConfig) (h : position.isSome = true) :
    classifyLeaderAction trade position quality config ≠ .unknown := by
  obtain ⟨snapshot, rfl⟩ := Option.isSome_iff_exists.mp h
  unfold classifyLeaderAction
  rw [if_neg (fun hc => by simp at hc)]
  cases trade.side with
  | buy | sell => exact classifyAgainst_ne_unknown _ _ _ _

/-- Beyond its existence, a snapshot counts by the entry the trade is on. -/
theorem classifyLeaderAction_congr (trade : IncomingTrade) {p q : Option PositionSnapshot}
    (quality : ReconstructionQuality) (config : SignalConfig) (hsome : p.isNone = q.isNone)
    (hentry : (p.bind fun s => s.positions.lookup trade.key)
      = q.bind fun s => s.positions.lookup trade.key) :
    classifyLeaderAction trade p quality config = classifyLeaderAction trade q quality config := by
  simp only [IncomingTrade.key] at hentry
  simp only [classifyLeaderAction, hsome, hentry]

/--
**A rollback is seen by no later trade, provided the wallet was known.**

Every entry is again what it was, so the classifications agree wherever both snapshots
exist. A wallet that was seen for the first time keeps an empty snapshot: at quality zero
its next trade had no action that could be told before, and has one now.
-/
theorem rolledBack_classifies_iff (ledger : PositionLedger) (trade : IncomingTrade)
    (h : (ledger.ingest trade).2 = .ok ()) :
    (∀ later quality config,
        classifyLeaderAction later ((ledger.rolledBack trade).position trade.wallet) quality config
          = classifyLeaderAction later (ledger.position trade.wallet) quality config)
      ↔ (ledger.position trade.wallet).isSome = true := by
  have hafter := PositionLedger.isSome_position_rolledBack h
  constructor
  · intro hall
    by_contra hnone
    have hbefore : ledger.position trade.wallet = none := by simpa using hnone
    have hzero : classifyLeaderAction trade none ⟨0, by decide⟩ .default = .unknown := rfl
    have heq := hall trade ⟨0, by decide⟩ .default
    rw [hbefore, hzero] at heq
    exact classifyLeaderAction_ne_unknown trade _ _ hafter heq
  · intro hbefore later quality config
    apply classifyLeaderAction_congr
    · rw [Option.isNone_eq_false_iff.mpr hafter, Option.isNone_eq_false_iff.mpr hbefore]
    · exact PositionLedger.stateAt_rolledBack h later.key

/-! ## A wallet's first trade -/

def firstTrade : IncomingTrade :=
  ⟨sampleWallet, ⟨⟨"0xm"⟩⟩, ⟨0⟩, .buy, samplePrice, shares 10, ⟨0⟩, ⟨"t"⟩, none⟩

/-- A ledger that already follows the wallet, with another market outcome. -/
def knownLedger : PositionLedger :=
  PositionLedger.new.setState sampleWallet ⟨⟨⟨"0xm"⟩⟩, ⟨1⟩⟩ ⟨shares 4, .zero⟩

theorem knownLedger_rolledBack : (knownLedger.ingest firstTrade).2 = .ok ()
    ∧ ((∀ later quality config,
        classifyLeaderAction later ((knownLedger.rolledBack firstTrade).position sampleWallet)
            quality config
          = classifyLeaderAction later (knownLedger.position sampleWallet) quality config)
      ↔ (knownLedger.position sampleWallet).isSome = true) :=
  ⟨by decide +kernel, rolledBack_classifies_iff knownLedger firstTrade (by decide +kernel)⟩

/-- Rolled back, the first trade of a wallet is redelivered as an entry; it was unknown. -/
theorem firstTrade_redelivered : (PositionLedger.new.ingest firstTrade).2 = .ok ()
    ∧ classifyLeaderAction firstTrade (PositionLedger.new.position sampleWallet)
        ⟨0, by decide⟩ .default = .unknown
    ∧ classifyLeaderAction firstTrade
        ((PositionLedger.new.rolledBack firstTrade).position sampleWallet)
        ⟨0, by decide⟩ .default = .entry := by
  decide +kernel

end PredictionEdge
