import PredictionEdge.Ledger.Locality
import PredictionEdge.Recovery.Parity

/-!
# One market's records

The records that move shares in a market are a part of every bucket, and a bucket acts on the
market as that part does: with the same residuals, from any ledger that agrees on the market.
So a frame's admission, which replays that part from the market's balances, finds the
positions that the whole replay has there.
-/

namespace PredictionEdge

open Lib

variable {libs : DocumentLibraries} {w : WalletAddress} {market : MarketId}

/-! ## A batch and a market's part of it -/

variable {ms : List LedgerMutation}

/-- The wallet's snapshot outlives a batch. -/
theorem owner_simulate {ledger ledger' : PositionLedger} {applied : List AppliedEffect}
    (hw : ∀ m ∈ ms, m.wallet = w) (h : ledger.simulateAllOrNone ms = .ok (ledger', applied))
    (hsome : (ledger.owner w).isSome) : (ledger'.owner w).isSome := by
  obtain ⟨t, os, hrun, rfl, _⟩ := (simulateAllOrNone_ok_iff hw).mp h
  rw [run_owner hrun]
  split
  · exact hsome
  · rfl

variable {ledger₁ ledger₂ ledger₁' : PositionLedger}

/-- **The market's part of a batch, from a ledger that agrees on the market.** -/
theorem AgreeOn.simulate_filter {applied : List AppliedEffect}
    (h : AgreeOn w market ledger₁ ledger₂) (hw : ∀ m ∈ ms, m.wallet = w)
    (hsim : ledger₁.simulateAllOrNone ms = .ok (ledger₁', applied)) :
    ∃ ledger₂', ledger₂.simulateAllOrNone (ms.filter (LedgerMutation.isIn market))
        = .ok (ledger₂', ((ms.zip applied).filter fun p => p.1.isIn market).map Prod.snd)
      ∧ AgreeOn w market ledger₁' ledger₂' := by
  obtain ⟨t, os, hrun, rfl, rfl⟩ := (simulateAllOrNone_ok_iff hw).mp hsim
  obtain ⟨t', os', hrun', hsame, rfl⟩ := run_market market hrun
  have hpairs : ms.zip (os.map Prod.snd) = os := by
    rw [← LocalSystem.run_tags hrun]
    exact (List.zip_of_prod rfl rfl).symm
  have hw' : ∀ m ∈ ms.filter (LedgerMutation.isIn market), m.wallet = w :=
    fun m hm => hw m (List.mem_of_mem_filter hm)
  have hpart : ledger₁.simulateAllOrNone (ms.filter (LedgerMutation.isIn market))
      = .ok (t'.ledger, (os.filter fun o => o.1.isIn market).map Prod.snd) :=
    (simulateAllOrNone_ok_iff hw').mpr ⟨t', _, hrun', rfl, rfl⟩
  have hkeys : (walletSystem w).keys (ms.filter (LedgerMutation.isIn market))
      ⊆ {k | k.market = market} := by
    intro k ⟨m, hm, hk⟩
    exact (isIn_of_mem_touchedKeys hk).mp (List.mem_filter.mp hm).2
  have hmatch := SameAt.simulate (S := {k | k.market = market}) h hw' hkeys
  rw [hpart] at hmatch
  obtain ⟨⟨ledger₂', applied₂⟩, hsim₂, happlied, hagree⟩ := hmatch.ok_left
  simp only at happlied
  refine ⟨ledger₂', by rw [hpairs, hsim₂, happlied], ?_⟩
  intro k hk
  have hcell : t.ledger.stateAt w k = t'.ledger.stateAt w k := congrArg Cell.state (hsame k hk)
  exact hcell.trans (hagree k hk)

/-! ## A bucket and a market's part of it -/

/-- The row's effect moves shares in the market. -/
def ActivityGroupRow.affects (libs : DocumentLibraries) (market : MarketId) (row : ActivityGroupRow) :
    Bool :=
  (groupAffectsMarket libs row market).toOption.getD false

variable {block : List ActivityGroupRow} {epoch : Int} {t : SourceTimestamp}

theorem Readable.groupAffectsMarket {row : ActivityGroupRow} (h : Readable libs row) :
    groupAffectsMarket libs row market = .ok (row.affects libs market) := by
  obtain ⟨decoded, hdecoded⟩ := h.decodes
  simp [ActivityGroupRow.affects, PredictionEdge.groupAffectsMarket, hdecoded, Except.mapError, Except.map,
    Except.toOption]

/-- The rows that affect the market give the mutations in it. -/
theorem filterMap_affects (hblock : ∀ row ∈ block, Readable libs row) :
    (block.filter (ActivityGroupRow.affects libs market)).filterMap (replayedOf libs w t)
      = (block.filterMap (replayedOf libs w t)).filter fun p => p.1.isIn market := by
  rw [List.filterMap_filter, List.filter_filterMap]
  refine List.filterMap_congr fun row hrow => ?_
  obtain ⟨decoded, hdecoded⟩ := (hblock row hrow).decodes
  have haffects : row.affects libs market = decide (decoded.1.effect.effectMarket = some market) := by
    simp [ActivityGroupRow.affects, groupAffectsMarket, hdecoded, Except.mapError, Except.map,
      Except.toOption]
  unfold replayedOf
  rw [haffects, hdecoded]
  cases row.isApplied with
  | false => simp
  | true =>
    simp only [if_true, Except.toOption, Option.map_some, LedgerMutation.isIn, Option.filter_some]

theorem replayedOf_wallet {row : ActivityGroupRow} {p : LedgerMutation × Option Nat}
    (h : replayedOf libs w t row = some p) : p.1.wallet = w := by
  unfold replayedOf at h
  split at h
  · obtain ⟨applied, _, rfl⟩ := Option.map_eq_some_iff.mp h
    rfl
  · simp at h

/-- What goes through as a whole goes through on the market alone, with its residuals. -/
theorem applyReplayed_filter {replayed : List (LedgerMutation × Option Nat)}
    (hw : ∀ p ∈ replayed, p.1.wallet = w) (hagree : AgreeOn w market ledger₁ ledger₂)
    (hsome : (ledger₂.owner w).isSome) (h : applyReplayed w epoch ledger₁ replayed = .ok ledger₁') :
    ∃ ledger₂', applyReplayed w epoch ledger₂ (replayed.filter fun p => p.1.isIn market) = .ok ledger₂'
      ∧ AgreeOn w market ledger₁' ledger₂' ∧ (ledger₂'.owner w).isSome := by
  obtain ⟨⟨ledger, applied⟩, hsim, h⟩ := bind_eq_ok.mp h
  obtain ⟨_, hresiduals, h⟩ := bind_eq_ok.mp h
  obtain rfl := pure_eq_ok.mp h
  rw [mapError_eq_ok] at hsim
  rw [refuseIf_eq_ok, not_not] at hresiduals
  have hwm : ∀ m ∈ replayed.map Prod.fst, m.wallet = w := by
    intro m hm
    obtain ⟨p, hp, rfl⟩ := List.mem_map.mp hm
    exact hw p hp
  obtain ⟨ledger₂', hsim₂, hagree'⟩ := hagree.simulate_filter hwm hsim
  have hfst : (replayed.filter fun p => p.1.isIn market).map Prod.fst
      = (replayed.map Prod.fst).filter (LedgerMutation.isIn market) := by
    rw [List.filter_map]
    rfl
  -- the residuals that are left over are those of the market's mutations
  have hsnd : ((((replayed.map Prod.fst).zip applied).filter fun p => p.1.isIn market).map Prod.snd).map
      (·.clampedResidual) = (replayed.filter fun p => p.1.isIn market).map Prod.snd := by
    have hpairs : ((replayed.map Prod.fst).zip applied).map (fun p => (p.1, p.2.clampedResidual))
        = replayed := by
      have hzip : ((replayed.map Prod.fst).zip applied).map (fun p => (p.1, p.2.clampedResidual))
          = (replayed.map Prod.fst).zip (applied.map (·.clampedResidual)) := by
        rw [List.zip_map_right]
        rfl
      rw [hzip, hresiduals]
      exact (List.zip_of_prod rfl rfl).symm
    conv_rhs => rw [← hpairs]
    rw [List.filter_map, List.map_map, List.map_map]
    rfl
  refine ⟨ledger₂', ?_, hagree', owner_simulate (fun m hm => hwm m (List.mem_of_mem_filter hm)) hsim₂ hsome⟩
  rw [applyReplayed, hfst, hsim₂]
  simp only [Except.mapError, ok_bind]
  rw [hsnd]
  simp [refuseIf, bind, Except.bind, pure, Except.pure]

/-- **A bucket's rows of one market, from a ledger that agrees on it.** -/
theorem applyReplayedBucket_market (hblock : ∀ row ∈ block, Readable libs row)
    (hepoch : ∀ row ∈ block, row.sourceEpoch = epoch) (hagree : AgreeOn w market ledger₁ ledger₂)
    (hsome : (ledger₂.owner w).isSome)
    (h : applyReplayedBucket libs w ledger₁ block = .ok ledger₁') :
    ∃ ledger₂', applyReplayedBucket libs w ledger₂ (block.filter (ActivityGroupRow.affects libs market))
        = .ok ledger₂'
      ∧ AgreeOn w market ledger₁' ledger₂' ∧ (ledger₂'.owner w).isSome := by
  rw [applyReplayedBucket_eq epoch hblock hepoch] at h
  rw [applyReplayedBucket_eq epoch (fun row hrow => hblock row (List.mem_of_mem_filter hrow))
    (fun row hrow => hepoch row (List.mem_of_mem_filter hrow)), filterMap_affects hblock]
  refine applyReplayed_filter (fun p hp => ?_) hagree hsome h
  obtain ⟨row, _, hrow⟩ := List.mem_filterMap.mp hp
  exact replayedOf_wallet hrow

/-! ## Anchors -/

/-- An anchor's position of a key is told by the balances of that key. -/
theorem lookup_anchorPositions (balances : List AnchorBalance) (k : MarketOutcomeId) :
    (anchorPositions balances).lookup k
      = (balances.filter fun b => b.key = k).getLast?.map fun b => ⟨b.amount, .zero⟩ := by
  induction balances using List.reverseRecOn with
  | nil => simp [anchorPositions]
  | append_singleton balances b ih =>
    have hsnoc : anchorPositions (balances ++ [b])
        = (anchorPositions balances).insert b.key ⟨b.amount, .zero⟩ := by
      simp [anchorPositions]
    rw [hsnoc, List.filter_append]
    by_cases hk : b.key = k
    · subst hk
      simp
    · rw [Finmap.lookup_insert_of_ne _ (Ne.symm hk), List.filter_cons_of_neg (by simpa using hk)]
      simpa using ih

/-- The balances of one market. -/
def marketBalances (market : MarketId) (balances : List AnchorBalance) : List AnchorBalance :=
  balances.filter fun b => b.market = market.text

theorem agreeOn_anchorLedger (w : WalletAddress) (market : MarketId) (balances : List AnchorBalance) :
    AgreeOn w market (anchorLedger w balances) (anchorLedger w (marketBalances market balances)) := by
  intro k hk
  rw [anchorLedger, anchorLedger, stateAt_replaceWalletSnapshot, stateAt_replaceWalletSnapshot,
    lookup_anchorPositions, lookup_anchorPositions, marketBalances, List.filter_filter]
  congr 2
  refine List.filter_congr fun b _ => ?_
  rw [← Bool.decide_and, decide_eq_decide]
  constructor
  · intro hkey
    refine ⟨hkey, ?_⟩
    rw [← hk, ← hkey]
    rfl
  · exact fun h => h.1

theorem owner_anchorLedger (w : WalletAddress) (balances : List AnchorBalance) :
    ((anchorLedger w balances).owner w).isSome := by
  simp [anchorLedger, PositionLedger.owner, PositionLedger.replaceWalletSnapshot,
    PositionLedger.position]

/-! ## Ledgers with the same snapshot of the wallet -/

/-- A wallet's batch reads and writes its snapshot only. -/
theorem simulate_position {applied : List AppliedEffect}
    (h : ledger₁.position w = ledger₂.position w) (hw : ∀ m ∈ ms, m.wallet = w)
    (hsim : ledger₁.simulateAllOrNone ms = .ok (ledger₁', applied)) :
    ∃ ledger₂', ledger₂.simulateAllOrNone ms = .ok (ledger₂', applied)
      ∧ ledger₁'.position w = ledger₂'.position w := by
  have hsame : SameAt w Set.univ ledger₁ ledger₂ := by
    intro k _
    rw [PositionLedger.stateAt, PositionLedger.stateAt, h]
  have hmatch := hsame.simulate hw (Set.subset_univ _)
  rw [hsim] at hmatch
  obtain ⟨⟨ledger₂', applied₂⟩, hsim₂, happlied, hagree⟩ := hmatch.ok_left
  subst happlied
  refine ⟨ledger₂', hsim₂, PositionLedger.position_ext ?_ fun k => hagree k (Set.mem_univ k)⟩
  obtain ⟨t₁, os₁, hrun₁, rfl, _⟩ := (simulateAllOrNone_ok_iff hw).mp hsim
  obtain ⟨t₂, os₂, hrun₂, rfl, _⟩ := (simulateAllOrNone_ok_iff hw).mp hsim₂
  have howner : ledger₁.owner w = ledger₂.owner w := by
    rw [PositionLedger.owner, PositionLedger.owner, h]
  rw [run_owner hrun₁, run_owner hrun₂]
  simp only [freshBatch, howner]

variable {blake3 : List UInt8 → String} {arith : DecimalArith}

theorem commitSeconds_position : ∀ {seconds : List (CommittedSecond blake3 arith w)}
    {ledger₁ ledger₂ ledger₁' : PositionLedger} {effects : List (List AppliedEffect)},
    ledger₁.position w = ledger₂.position w → commitSeconds seconds ledger₁ = .ok (ledger₁', effects) →
    ∃ ledger₂', commitSeconds seconds ledger₂ = .ok (ledger₂', effects)
      ∧ ledger₁'.position w = ledger₂'.position w
  | [], ledger₁, ledger₂, ledger₁', effects, h, hrun => by
    obtain ⟨rfl, rfl⟩ := Prod.mk.inj (Except.ok.inj hrun)
    exact ⟨ledger₂, rfl, h⟩
  | second :: seconds, ledger₁, ledger₂, ledger₁', effects, h, hrun => by
    obtain ⟨⟨mid₁, applied⟩, hsim, hrun⟩ := bind_eq_ok.mp hrun
    obtain ⟨⟨last₁, rest⟩, hrest, hrun⟩ := bind_eq_ok.mp hrun
    obtain ⟨rfl, rfl⟩ := Prod.mk.inj (pure_eq_ok.mp hrun)
    obtain ⟨mid₂, hsim₂, hmid⟩ := simulate_position h second.own hsim
    obtain ⟨last₂, hrest₂, hlast⟩ := commitSeconds_position hmid hrest
    refine ⟨last₂, ?_, hlast⟩
    simp only [commitSeconds, hsim₂, ok_bind, hrest₂]
    rfl

/-! ## Parity -/

/-- The frozen inputs of a market: its balances, the rows that affect it, and a coverage. -/
def marketInputs (libs : DocumentLibraries) (market : MarketId) (balances : List AnchorBalance)
    (rows : List ActivityGroupRow) (coverage : WalletCoverage) : FrameAdmissionInputs where
  anchorBalances := (marketBalances market balances).map fun b => (b.outcome, b.amount)
  ledgerGroups := rows.filter (ActivityGroupRow.affects libs market)
  coverage := coverage

theorem balances_marketInputs (market : MarketId) (balances : List AnchorBalance)
    (rows : List ActivityGroupRow) (coverage : WalletCoverage) :
    (marketInputs libs market balances rows coverage).balances market = marketBalances market balances := by
  rw [FrameAdmissionInputs.balances, marketInputs, List.map_map]
  conv_rhs => rw [← List.map_id (marketBalances market balances)]
  refine List.map_congr_left fun b hb => ?_
  have hmarket : b.market = market.text := by simpa using (List.mem_filter.mp hb).2
  simp only [Function.comp_apply, ← hmarket, id]

variable {seconds : List (CommittedSecond blake3 arith w)} {effects : List (List AppliedEffect)}

section

variable (table : StoredRows libs seconds effects)
  (hblocks : SecondBlocks libs seconds table.stored)

include table hblocks

/-- The market's rows are replayed to where the whole replay ends, on the market. -/
theorem StoredRows.replay_market (hagree : AgreeOn w market ledger₁ ledger₂)
    (hsome : (ledger₂.owner w).isSome)
    (h : applyReplayedGroups libs w ledger₁ table.rows = .ok ledger₁') :
    ∃ ledger₂', applyReplayedGroups libs w ledger₂
        (table.rows.filter (ActivityGroupRow.affects libs market)) = .ok ledger₂'
      ∧ AgreeOn w market ledger₁' ledger₂' ∧ (ledger₂'.owner w).isSome := by
  rw [applyReplayedGroups, foldlM_runs_filter (fun _ => rfl) _ table.epochs_ordered]
  refine foldlM_follows (fun l₁ l₂ => AgreeOn w market l₁ l₂ ∧ (l₂.owner w).isSome) ?_
    ⟨hagree, hsome⟩ h
  intro l₁ l₂ block hblock l₁' hrel hstep
  obtain ⟨hl, hl₂⟩ := hrel
  obtain ⟨hreadable, epoch, hepoch⟩ := table.run_readable hblocks hblock
  exact applyReplayedBucket_market hreadable hepoch hl hl₂ hstep

/-- The frozen inputs of a market pass their checks. -/
theorem positions_marketInputs {balances : List AnchorBalance}
    (hdistinct : (balances.map AnchorBalance.key).Nodup) {coverage : WalletCoverage}
    (hanchor : marketBalances market balances ≠ [] → coverage.anchorSeq.isSome)
    (hcutoff : ∀ cutoff ∈ coverage.activityCutoffUnix, ∀ row ∈ table.rows, row.affects libs market = true → cutoff < row.sourceEpoch) :
    (marketInputs libs market balances table.rows coverage).positions libs w market
      = ((replayFrozenRecords libs w (marketBalances market balances)
        (table.rows.filter (ActivityGroupRow.affects libs market))).mapError .history >>= fun ledger =>
          okOr (ledger.position w) (.invalidPrefix "market ledger absent")) := by
  have hnodup : ((marketInputs libs market balances table.rows coverage).anchorBalances.map
      Prod.fst).Nodup := by
    rw [marketInputs, List.map_map]
    refine List.Nodup.map_on ?_ ((hdistinct.of_map _).filter _)
    intro a ha b hb houtcome
    have hkey : a.key = b.key := by
      have hma : a.market = market.text := by simpa using (List.mem_filter.mp ha).2
      have hmb : b.market = market.text := by simpa using (List.mem_filter.mp hb).2
      have ho : a.outcome = b.outcome := houtcome
      rw [AnchorBalance.key, AnchorBalance.key, hma, hmb, ho]
    exact List.inj_on_of_nodup_map hdistinct (List.mem_of_mem_filter ha) (List.mem_of_mem_filter hb) hkey
  have hchain : (marketInputs libs market balances table.rows coverage).ledgerGroups.IsChain
      fun a b => a.place < b.place := (table.listed.sublist List.filter_sublist).isChain
  have hgroups : (marketInputs libs market balances table.rows coverage).ledgerGroups.forM
      ((marketInputs libs market balances table.rows coverage).checkGroup libs market) = .ok () := by
    refine forM_eq_ok fun row hrow => ?_
    obtain ⟨hmem, haffects⟩ := List.mem_filter.mp hrow
    rw [FrameAdmissionInputs.checkGroup, if_neg, (table.readable hblocks hmem).groupAffectsMarket, haffects]
    · rfl
    · intro hany
      cases hcut : coverage.activityCutoffUnix with
      | none =>
        simp only [marketInputs, hcut] at hany
        simp at hany
      | some cutoff =>
        simp only [marketInputs, hcut, Option.any_some, decide_eq_true_eq] at hany
        exact absurd (hcutoff cutoff hcut row hmem haffects) (not_lt.mpr hany)
  have hpassed : refuseIf
      (¬ ((marketInputs libs market balances table.rows coverage).anchorBalances.map Prod.fst).Nodup
        ∨ ((marketInputs libs market balances table.rows coverage).coverage.anchorSeq.isNone
          ∧ marketBalances market balances ≠ [])
        ∨ ¬ (marketInputs libs market balances table.rows coverage).ledgerGroups.IsChain
          fun a b => a.place < b.place)
      (FrameAdmissionError.invalidPrefix "invalid market ledger prefix") = .ok () := by
    rw [refuseIf_eq_ok]
    intro hbad
    rcases hbad with hbad | ⟨hnone, hne⟩ | hbad
    · exact hbad hnodup
    · have hnone : coverage.anchorSeq.isNone = true := hnone
      rw [Option.isNone_iff_eq_none] at hnone
      have hsome := hanchor hne
      rw [hnone] at hsome
      simp at hsome
    · exact hbad hchain
  rw [FrameAdmissionInputs.positions, balances_marketInputs]
  rw [hpassed, ok_bind, hgroups, ok_bind]
  rfl

end

/--
**A durable replay ends where the running ledger did.**

Replaying the stored rows from the anchor's balances gives the wallet the snapshot it has
after the seconds were applied. The rows that affect one market, replayed by a frame's
admission from that market's balances, give the positions that snapshot has in the market.
Epochs are seconds of the calendar, since a replay refuses others; and a coverage is one that
an admission takes: it names the anchor of the market's balances, and its cutoff is before the
market's rows.
-/
theorem replayFrozenRecords_parity (hlibs : libs.Lawful) {balances : List AnchorBalance}
    (hdistinct : (balances.map AnchorBalance.key).Nodup)
    (hepochs : seconds.Pairwise fun a b => a.epoch < b.epoch) {start finish : PositionLedger}
    (hstart : start.position w = (anchorLedger w balances).position w)
    (hrun : commitSeconds seconds start = .ok (finish, effects)) (table : StoredRows libs seconds effects) :
    ∃ replayed, replayFrozenRecords libs w balances table.rows = .ok replayed
      ∧ replayed.position w = finish.position w
      ∧ ∀ market coverage, (marketBalances market balances ≠ [] → coverage.anchorSeq.isSome) →
        (∀ cutoff ∈ coverage.activityCutoffUnix, ∀ row ∈ table.rows,
          row.affects libs market = true → cutoff < row.sourceEpoch) →
        ∃ snapshot, (marketInputs libs market balances table.rows coverage).positions libs w market
            = .ok snapshot
          ∧ ∀ k, k.market = market → snapshot.positions.lookup k = replayed.stateAt w k := by
  obtain ⟨replayed, hcommit, hposition⟩ := commitSeconds_position hstart hrun
  have hblocks := secondBlocks hlibs hepochs hrun table.stored_rows
  have hreplay : replayFrozenRecords libs w balances table.rows = .ok replayed := by
    rw [replayFrozenRecords, table.applyReplayedGroups_eq hblocks]
    exact foldlM_seconds hlibs hcommit table.stored_rows
  refine ⟨replayed, hreplay, hposition.symm, fun market coverage hanchor hcutoff => ?_⟩
  obtain ⟨part, hpart, hagree, hsome⟩ := table.replay_market hblocks
    (agreeOn_anchorLedger w market balances) (owner_anchorLedger w _) hreplay
  obtain ⟨owner, howner⟩ := Option.isSome_iff_exists.mp hsome
  obtain ⟨snapshot, hsnapshot, _⟩ := Option.map_eq_some_iff.mp howner
  refine ⟨snapshot, ?_, fun k hk => ?_⟩
  · have hpart : replayFrozenRecords libs w (marketBalances market balances)
        (table.rows.filter (ActivityGroupRow.affects libs market)) = .ok part := hpart
    rw [positions_marketInputs table hblocks hdistinct hanchor hcutoff, hpart]
    simp only [Except.mapError, ok_bind]
    rw [hsnapshot]
    rfl
  · rw [hagree k hk, PositionLedger.stateAt, hsnapshot]
    rfl

/-! ## Purchases in two markets, stored and replayed -/

namespace StoredPurchase

def digest (bytes : List UInt8) : String :=
  String.ofList (hexDigits 2 (bytes.map UInt8.toNat).sum)

def aggregate (key hash market : String) : ActivityAggregate :=
  { BoughtGroup.aggregate with
    groupId := ⟨⟨key⟩, ⟨.trade, ⟨0xaa⟩, hash, some ⟨market⟩, none, some ⟨0⟩, some .buy⟩⟩ }

/-- One share of the first outcome of a market, bought at a half. -/
def bought (key hash market : String) : LedgerMutation :=
  ⟨⟨key⟩, hash, ⟨0xaa⟩, ⟨0⟩, .trade ⟨⟨market⟩⟩ ⟨0⟩ .buy BoughtGroup.aggregate.shareSum BoughtGroup.price⟩

def first : LedgerMutation := bought "g2:4c" "0x01" "0xa1"

def elsewhere : LedgerMutation := bought "g2:4e" "0x01" "0xb2"

def later : LedgerMutation := bought "g2:4d" "0x02" "0xa1"

/-- What was bought, as the ledger applies it. -/
def applied (m : LedgerMutation) : AppliedEffect := ⟨m.effect, none⟩

theorem bought_source {key hash market : String} (h : LedgerMutation.fromActivity digest .rounded
      (aggregate key hash market) = .ok (bought key hash market)) :
    ∃ aggregate bound bindings, LedgerMutation.fromActivity digest .rounded aggregate = .ok bound
      ∧ List.length bindings ≤ 1 ∧ bought key hash market = bound.rebind bindings :=
  ⟨_, _, [], h, by simp, rfl⟩

def opening : CommittedSecond digest .rounded ⟨0xaa⟩ where
  epoch := 0
  mutations := [first, elsewhere]
  epoch_valid := by decide
  own := by decide
  source := List.forall_mem_cons.mpr ⟨bought_source (by decide +kernel),
    List.forall_mem_singleton.mpr (bought_source (by decide +kernel))⟩
  ordered := List.pairwise_pair.mpr (by decide)

def closing : CommittedSecond digest .rounded ⟨0xaa⟩ where
  epoch := 1
  mutations := [later]
  epoch_valid := by decide
  own := by decide
  source := List.forall_mem_singleton.mpr (bought_source (by decide +kernel))
  ordered := List.pairwise_singleton _ _

/-- Five shares of the other outcome are held before, and five in the other market. -/
def balances : List AnchorBalance :=
  [⟨"0xa1", 1, ⟨5000000, by decide⟩⟩, ⟨"0xb2", 0, ⟨5000000, by decide⟩⟩]

def row (epoch : Int) (m : LedgerMutation) : ActivityGroupRow :=
  ⟨m.sourceTradeId, epoch, "revision", "applied",
    DocumentStandIn.libraries.toText (((applied m).document (some 1)).toValue DocumentStandIn.libraries)⟩

/-- A group that moved nothing. -/
def rawRow : ActivityGroupRow :=
  ⟨⟨"g2:0"⟩, 0, "revision", "raw_only", DocumentStandIn.libraries.toText
    (((AppliedEffect.mk .rawOnly none).document none).toValue DocumentStandIn.libraries)⟩

theorem rawRow_decodes : ∃ decoded,
    AppliedEffect.fromDocument DocumentStandIn.libraries rawRow.proofJson = .ok decoded := by
  have hresidual : validateClampedResidual (AppliedEffect.mk .rawOnly none).effect none = .ok () := rfl
  have hround : ∃ text, (AppliedEffect.mk .rawOnly none).toDocument DocumentStandIn.libraries none = .ok text
      ∧ AppliedEffect.fromDocument DocumentStandIn.libraries text = .ok (⟨.rawOnly, none⟩, none) :=
    AppliedEffect.fromDocument_toDocument DocumentStandIn.libraries_lawful (.plain rfl) rfl hresidual
  obtain ⟨text, htext, hread⟩ := hround
  obtain rfl := Except.ok.inj htext
  exact ⟨_, hread⟩

theorem row_stores (epoch : Int) (key hash market : String) :
    RowStores DocumentStandIn.libraries epoch
      (bought key hash market, applied (bought key hash market)) (row epoch (bought key hash market)) :=
  ⟨rfl, rfl, show "applied" ∈ appliedDispositions by decide, some 1,
    ⟨1, rfl, BoughtGroup.price_fits⟩, rfl⟩

def stored : List (List ActivityGroupRow) := [[row 0 first, row 0 elsewhere], [row 1 later]]

theorem rows_listed : ([rawRow] ++ stored.flatten).Pairwise fun a b => a.place < b.place := by
  refine List.IsChain.pairwise ?_
  simp only [stored, List.flatten_cons, List.flatten_nil, List.cons_append, List.nil_append,
    List.isChain_cons_cons, List.isChain_singleton, place_lt_iff]
  decide

def table : StoredRows DocumentStandIn.libraries [opening, closing]
    [[applied first, applied elsewhere], [applied later]] where
  rows := [rawRow] ++ stored.flatten
  stored := stored
  others := [rawRow]
  rows_perm := List.perm_append_comm
  listed := rows_listed
  stored_rows := .cons (.cons (row_stores ..) (.cons (row_stores ..) .nil))
    (.cons (.cons (row_stores ..) .nil) .nil)
  others_not_applied := by decide
  others_decode := List.forall_mem_singleton.mpr rawRow_decodes
  others_epoch := by decide

/-- The stored rows lead to the positions that the purchases left; those of the first market,
replayed alone, lead to its two shares. -/
theorem purchases_replayed : ∃ finish replayed snapshot,
    commitSeconds [opening, closing] (anchorLedger ⟨0xaa⟩ balances)
        = .ok (finish, [[applied first, applied elsewhere], [applied later]])
      ∧ replayFrozenRecords DocumentStandIn.libraries ⟨0xaa⟩ balances table.rows = .ok replayed
      ∧ replayed.position ⟨0xaa⟩ = finish.position ⟨0xaa⟩
      ∧ (marketInputs DocumentStandIn.libraries ⟨⟨"0xa1"⟩⟩ balances table.rows
          ⟨some (-1), some 0⟩).positions DocumentStandIn.libraries ⟨0xaa⟩ ⟨⟨"0xa1"⟩⟩ = .ok snapshot
      ∧ (snapshot.positions.lookup BoughtGroup.stamped).map (·.longContracts.atomic) = some 2000000 := by
  obtain ⟨⟨finish, effects⟩, hrun, heq⟩ := exists_ok_of_any
    (x := commitSeconds [opening, closing] (anchorLedger ⟨0xaa⟩ balances))
    (p := fun r => decide (r.2 = [[applied first, applied elsewhere], [applied later]]
      ∧ (r.1.stateAt ⟨0xaa⟩ BoughtGroup.stamped).map (·.longContracts.atomic) = some 2000000))
    (by decide +kernel)
  obtain ⟨rfl, hshares⟩ := of_decide_eq_true heq
  obtain ⟨replayed, hreplayed, hposition, hmarket⟩ := replayFrozenRecords_parity
    DocumentStandIn.libraries_lawful (by decide) (List.pairwise_pair.mpr (by decide)) rfl hrun table
  have hepochs : ∀ row ∈ table.rows, (-1 : Int) < row.sourceEpoch := by decide
  obtain ⟨snapshot, hsnapshot, hlookup⟩ := hmarket ⟨⟨"0xa1"⟩⟩ ⟨some (-1), some 0⟩ (fun _ => rfl)
    fun cutoff hcutoff row hrow _ => Option.some.inj hcutoff ▸ hepochs row hrow
  refine ⟨finish, replayed, snapshot, hrun, hreplayed, hposition, hsnapshot, ?_⟩
  rw [hlookup _ rfl, PositionLedger.stateAt, hposition]
  exact hshares

end StoredPurchase

end PredictionEdge
