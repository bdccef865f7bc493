import PredictionEdge.Ledger.Isolation
import PredictionEdge.Ledger.Rebound
import PredictionEdge.Recovery.Frozen

/-!
# Durable replay parity

Seconds that a running ledger applied, stored effect by effect and replayed from the same
balances, lead to the same positions. A replay goes by the runs of equal epochs; what is not
applied only has to decode, so the runs of the applied rows are the seconds. One market's rows
alone are a part of every bucket, and a bucket acts on a market as that part does.
-/

namespace PredictionEdge

open Lib

variable {libs : DocumentLibraries} {w : WalletAddress}

/-! ## What was committed and how it was stored -/

/-- A second of one wallet: mutations of activity groups, rebound at most once, in order. -/
structure CommittedSecond (blake3 : List UInt8 → String) (arith : DecimalArith)
    (w : WalletAddress) where
  epoch : Int
  mutations : List LedgerMutation
  epoch_valid : firstSecond ≤ epoch ∧ epoch ≤ lastSecond
  own : ∀ m ∈ mutations, m.wallet = w
  source : ∀ m ∈ mutations, ∃ aggregate bound bindings,
    LedgerMutation.fromActivity blake3 arith aggregate = .ok bound
      ∧ List.length bindings ≤ 1 ∧ m = bound.rebind bindings
  ordered : mutations.Pairwise fun a b => a.sourceTradeId.val < b.sourceTradeId.val

variable {blake3 : List UInt8 → String} {arith : DecimalArith}

/-- Apply the seconds one after the other, each all or none, and keep what each applied. -/
def commitSeconds : List (CommittedSecond blake3 arith w) → PositionLedger →
    Except LedgerError (PositionLedger × List (List AppliedEffect))
  | [], ledger => .ok (ledger, [])
  | second :: seconds, ledger => do
    let (ledger, applied) ← ledger.simulateAllOrNone second.mutations
    let (ledger, effects) ← commitSeconds seconds ledger
    return (ledger, applied :: effects)

/-- A row that stores what one mutation of a second did. -/
structure RowStores (libs : DocumentLibraries) (epoch : Int) (p : LedgerMutation × AppliedEffect)
    (row : ActivityGroupRow) : Prop where
  id : row.sourceTradeId = p.1.sourceTradeId
  epoch : row.sourceEpoch = epoch
  disposition : row.disposition ∈ appliedDispositions
  document : ∃ scale, p.2.effect.WrittenAt scale ∧ p.2.toDocument libs scale = .ok row.proofJson

/--
The rows of a wallet: one for each effect that was applied, and others that were not applied,
listed by epoch and then by identity.
-/
structure StoredRows (libs : DocumentLibraries) (seconds : List (CommittedSecond blake3 arith w))
    (effects : List (List AppliedEffect)) where
  rows : List ActivityGroupRow
  stored : List (List ActivityGroupRow)
  others : List ActivityGroupRow
  rows_perm : rows.Perm (stored.flatten ++ others)
  listed : rows.Pairwise fun a b => a.place < b.place
  stored_rows : List.Forall₂ (fun p block =>
    List.Forall₂ (RowStores libs p.1.epoch) (p.1.mutations.zip p.2) block) (seconds.zip effects) stored
  others_not_applied : ∀ row ∈ others, row.disposition ∈ notAppliedDispositions
  others_decode : ∀ row ∈ others, ∃ decoded, AppliedEffect.fromDocument libs row.proofJson = .ok decoded
  others_epoch : ∀ row ∈ others, firstSecond ≤ row.sourceEpoch ∧ row.sourceEpoch ≤ lastSecond

/-! ## Dispositions -/

def ActivityGroupRow.isApplied (row : ActivityGroupRow) : Bool := row.disposition ∈ appliedDispositions

variable {row : ActivityGroupRow} {applied : List AppliedEffect} {m : LedgerMutation}
  {ms : List LedgerMutation} {epoch : Int}

theorem isApplied_of_not_applied (h : row.disposition ∈ notAppliedDispositions) :
    row.isApplied = false := by
  have hdisjoint : ∀ d ∈ notAppliedDispositions, d ∉ appliedDispositions := by decide
  simpa [ActivityGroupRow.isApplied] using hdisjoint _ h

/-- A row that a replay can read: its document decodes and its disposition is known. -/
structure Readable (libs : DocumentLibraries) (row : ActivityGroupRow) : Prop where
  decodes : ∃ decoded, AppliedEffect.fromDocument libs row.proofJson = .ok decoded
  known : row.disposition ∈ appliedDispositions ∨ row.disposition ∈ notAppliedDispositions
  epoch : firstSecond ≤ row.sourceEpoch ∧ row.sourceEpoch ≤ lastSecond

theorem Readable.appliedDisposition (h : Readable libs row) :
    appliedDisposition row.sourceTradeId row.disposition = .ok row.isApplied := by
  rw [PredictionEdge.appliedDisposition, if_pos h.known]
  rfl

theorem Readable.fromUnixTimestamp (h : Readable libs row) :
    fromUnixTimestamp row.sourceEpoch = some ⟨row.sourceEpoch * 1000000000⟩ := by
  rw [PredictionEdge.fromUnixTimestamp, if_pos h.epoch]

/-! ## Buckets and their parts -/

variable {rows block : List ActivityGroupRow} {t : SourceTimestamp} {p : ActivityGroupRow → Bool}

/-- What a row of a bucket adds to the batch. -/
def replayedOf (libs : DocumentLibraries) (w : WalletAddress) (t : SourceTimestamp)
    (row : ActivityGroupRow) : Option (LedgerMutation × Option Nat) :=
  if row.isApplied then
    ((AppliedEffect.fromDocument libs row.proofJson).toOption).map fun applied =>
      (⟨row.sourceTradeId, row.sourceTradeId.val, w, t, applied.1.effect⟩, applied.1.clampedResidual)
  else none

/-- A bucket of readable rows is read row by row. -/
theorem replayedMutations_eq : ∀ (block : List ActivityGroupRow), (∀ row ∈ block, Readable libs row) →
    replayedMutations libs w t block = .ok (block.filterMap (replayedOf libs w t))
  | [], _ => rfl
  | row :: block, h => by
    have hrow := h row List.mem_cons_self
    obtain ⟨decoded, hdecoded⟩ := hrow.decodes
    have ih := replayedMutations_eq block fun r hr => h r (List.mem_cons_of_mem _ hr)
    rw [replayedMutations, hdecoded, hrow.appliedDisposition, ih]
    cases happlied : row.isApplied with
    | false =>
      have hnone : replayedOf libs w t row = none := by simp [replayedOf, happlied]
      rw [List.filterMap_cons_none hnone]
      rfl
    | true =>
      have hsome : replayedOf libs w t row = some (⟨row.sourceTradeId, row.sourceTradeId.val, w, t,
          decoded.1.effect⟩, decoded.1.clampedResidual) := by
        simp [replayedOf, happlied, hdecoded, Except.toOption]
      rw [List.filterMap_cons_some hsome]
      rfl

/-- Apply again what was applied, and compare the residuals. -/
def applyReplayed (w : WalletAddress) (epoch : Int) (ledger : PositionLedger)
    (replayed : List (LedgerMutation × Option Nat)) : Except WalletLedgerReplayError PositionLedger := do
  let (ledger, applied) ← (ledger.simulateAllOrNone (replayed.map Prod.fst)).mapError fun e =>
    .ledger (ledgerErrorSourceId e) e.display
  refuseIf (applied.map (·.clampedResidual) ≠ replayed.map Prod.snd)
    (.clampedResidualMismatch w epoch (replayed.map Prod.snd) (applied.map (·.clampedResidual)))
  return ledger

/-- A bucket of readable rows of one epoch. -/
theorem applyReplayedBucket_eq (epoch : Int) (h : ∀ row ∈ block, Readable libs row)
    (hepoch : ∀ row ∈ block, row.sourceEpoch = epoch) (ledger : PositionLedger) :
    applyReplayedBucket libs w ledger block
      = applyReplayed w epoch ledger (block.filterMap (replayedOf libs w ⟨epoch * 1000000000⟩)) := by
  cases block with
  | nil => rfl
  | cons first rest =>
    have hfirst := h first List.mem_cons_self
    rw [applyReplayedBucket, hfirst.fromUnixTimestamp, hepoch first List.mem_cons_self]
    simp only [okOr, ok_bind]
    rw [replayedMutations_eq _ h]
    rfl

/-! ## A second read back -/

/-- The mutation that a replay makes of a stored effect. -/
def LedgerMutation.frozen (w : WalletAddress) (t : SourceTimestamp) (m : LedgerMutation) :
    LedgerMutation :=
  ⟨m.sourceTradeId, m.sourceTradeId.val, w, t, m.effect⟩

theorem applyInPlace_frozen (hw : m.wallet = w) (s : Batch) :
    applyInPlace (m.frozen w t) s = applyInPlace m s := by
  subst hw
  rfl

theorem applyAllInPlace_frozen : ∀ {ms : List LedgerMutation}, (∀ m ∈ ms, m.wallet = w) →
    ∀ s, applyAllInPlace (ms.map (LedgerMutation.frozen w t)) s = applyAllInPlace ms s
  | [], _, _ => rfl
  | m :: ms, hw, s => by
    rw [List.map_cons, applyAllInPlace, applyAllInPlace, applyInPlace_frozen (hw m List.mem_cons_self)]
    cases applyInPlace m s with
    | error e => rfl
    | ok r =>
      simp only [ok_bind]
      rw [applyAllInPlace_frozen fun m hm => hw m (List.mem_cons_of_mem _ hm)]

theorem simulateAllOrNone_frozen (hw : ∀ m ∈ ms, m.wallet = w) (ledger : PositionLedger) :
    ledger.simulateAllOrNone (ms.map (LedgerMutation.frozen w t)) = ledger.simulateAllOrNone ms := by
  rw [PositionLedger.simulateAllOrNone, PositionLedger.simulateAllOrNone, applyAllInPlace_frozen hw]

/-- What an applied effect says of its mutation. -/
def AppliedEffect.Of (m : LedgerMutation) (applied : AppliedEffect) : Prop :=
  applied.effect = m.effect ∧ validateClampedResidual applied.effect applied.clampedResidual = .ok ()

theorem applyAllInPlace_applied : ∀ {ms : List LedgerMutation} {s s' : Batch}
    {applied : List AppliedEffect}, applyAllInPlace ms s = .ok (s', applied) →
    List.Forall₂ AppliedEffect.Of ms applied
  | [], s, s', applied, h => by
    obtain ⟨_, rfl⟩ := Prod.mk.inj (Except.ok.inj h)
    exact .nil
  | m :: ms, s, s', applied, h => by
    obtain ⟨⟨s₁, a⟩, ha, h⟩ := bind_eq_ok.mp h
    obtain ⟨⟨s₂, rest⟩, hrest, h⟩ := bind_eq_ok.mp h
    obtain ⟨_, rfl⟩ := Prod.mk.inj (pure_eq_ok.mp h)
    exact .cons (applyInPlace_applied ha) (applyAllInPlace_applied hrest)

theorem simulateAllOrNone_applied {ledger ledger' : PositionLedger}
    (h : ledger.simulateAllOrNone ms = .ok (ledger', applied)) :
    List.Forall₂ AppliedEffect.Of ms applied := by
  obtain ⟨r, hr, h⟩ := map_eq_ok.mp h
  obtain ⟨_, rfl⟩ := Prod.mk.inj h
  exact applyAllInPlace_applied hr

/-- An effect that was rebound at most once can be read back. -/
theorem CommittedSecond.recordable (second : CommittedSecond blake3 arith w)
    (hm : m ∈ second.mutations) : m.effect.Recordable := by
  obtain ⟨aggregate, bound, bindings, hbound, hlength, rfl⟩ := second.source m hm
  refine LedgerMutation.recordable_rebind (LedgerMutation.effective_fromActivity hbound) ?_
  intro ⟨stamped, _, ⟨b, hb, hne⟩, hlast⟩
  obtain ⟨b', rfl⟩ : ∃ b', bindings = [b'] :=
    List.length_eq_one_iff.mp (Nat.le_antisymm hlength (List.length_pos_of_mem hb))
  obtain rfl := List.mem_singleton.mp hb
  exact hne (Option.some.inj hlast)

/-- A stored effect is read back as it was applied. -/
theorem RowStores.fromDocument {applied : AppliedEffect} (h : RowStores libs epoch (m, applied) row)
    (hlibs : libs.Lawful) (hm : m.effect.Recordable) (hof : applied.Of m) :
    ∃ scale, AppliedEffect.fromDocument libs row.proofJson = .ok (applied, scale) := by
  obtain ⟨scale, hscale, hdocument⟩ := h.document
  obtain ⟨text, htext, hread⟩ :=
    AppliedEffect.fromDocument_toDocument hlibs (by rw [hof.1]; exact hm) hscale hof.2
  rw [hdocument] at htext
  exact ⟨scale, by rw [Except.ok.inj htext]; exact hread⟩

theorem RowStores.replayedOf {applied : AppliedEffect} (h : RowStores libs epoch (m, applied) row)
    (hlibs : libs.Lawful) (hm : m.effect.Recordable) (hof : applied.Of m) :
    replayedOf libs w t row = some (m.frozen w t, applied.clampedResidual) := by
  obtain ⟨scale, hread⟩ := h.fromDocument hlibs hm hof
  have happlied : row.isApplied = true := decide_eq_true h.disposition
  simp only [PredictionEdge.replayedOf, happlied, if_true, hread, Except.toOption, Option.map_some]
  rw [h.id, hof.1]
  rfl

/-- The rows of a second are read as its mutations. -/
theorem filterMap_stored (hlibs : libs.Lawful)
    (hepoch : firstSecond ≤ epoch ∧ epoch ≤ lastSecond) : ∀ {ms : List LedgerMutation}
    {applied : List AppliedEffect} {block : List ActivityGroupRow},
    List.Forall₂ (RowStores libs epoch) (ms.zip applied) block →
    List.Forall₂ AppliedEffect.Of ms applied → (∀ m ∈ ms, m.effect.Recordable) →
    block.filterMap (replayedOf libs w t)
        = (ms.map (LedgerMutation.frozen w t)).zip (applied.map (·.clampedResidual))
      ∧ ∀ row ∈ block, row.sourceEpoch = epoch ∧ row.isApplied = true ∧ Readable libs row
  | [], applied, block, hrows, _, _ => by
    obtain rfl := List.forall₂_nil_left_iff.mp hrows
    exact ⟨rfl, by simp⟩
  | m :: ms, a :: applied, block, hrows, .cons hof hofs, hm => by
    obtain ⟨row, block', hrow, hblock, rfl⟩ := List.forall₂_cons_left_iff.mp hrows
    obtain ⟨ih, ihrows⟩ := filterMap_stored hlibs hepoch hblock hofs fun x hx => hm x (List.mem_cons_of_mem _ hx)
    have hrecordable := hm m List.mem_cons_self
    refine ⟨?_, fun r hr => ?_⟩
    · rw [List.filterMap_cons_some (hrow.replayedOf hlibs hrecordable hof), ih]
      rfl
    · rcases List.mem_cons.mp hr with rfl | hr
      · obtain ⟨scale, hread⟩ := hrow.fromDocument hlibs hrecordable hof
        exact ⟨hrow.epoch, decide_eq_true hrow.disposition, ⟨_, hread⟩, .inl hrow.disposition,
          hrow.epoch ▸ hepoch⟩
      · exact ihrows r hr

/-- **The rows of a second take the ledger where the second took it.** -/
theorem applyReplayedBucket_second (hlibs : libs.Lawful) (second : CommittedSecond blake3 arith w)
    {ledger ledger' : PositionLedger}
    (hsim : ledger.simulateAllOrNone second.mutations = .ok (ledger', applied))
    (hrows : List.Forall₂ (RowStores libs second.epoch) (second.mutations.zip applied) block) :
    applyReplayedBucket libs w ledger block = .ok ledger' := by
  have hof := simulateAllOrNone_applied hsim
  obtain ⟨hread, hall⟩ := filterMap_stored (w := w) (t := ⟨second.epoch * 1000000000⟩) hlibs
    second.epoch_valid hrows hof fun m hm => second.recordable hm
  have hlength : (second.mutations.map (LedgerMutation.frozen w ⟨second.epoch * 1000000000⟩)).length
      = (applied.map (·.clampedResidual)).length := by
    rw [List.length_map, List.length_map, hof.length_eq]
  rw [applyReplayedBucket_eq _ (fun row hrow => (hall row hrow).2.2)
    (fun row hrow => (hall row hrow).1), hread, applyReplayed,
    List.map_fst_zip (Nat.le_of_eq hlength), List.map_snd_zip (Nat.le_of_eq hlength.symm),
    simulateAllOrNone_frozen second.own, hsim]
  simp [Except.mapError, refuseIf, bind, Except.bind, pure, Except.pure]

/-- All seconds, block by block. -/
theorem foldlM_seconds (hlibs : libs.Lawful) : ∀ {seconds : List (CommittedSecond blake3 arith w)}
    {ledger ledger' : PositionLedger} {effects : List (List AppliedEffect)}
    {stored : List (List ActivityGroupRow)},
    commitSeconds seconds ledger = .ok (ledger', effects) →
    List.Forall₂ (fun p block => List.Forall₂ (RowStores libs p.1.epoch) (p.1.mutations.zip p.2) block)
      (seconds.zip effects) stored →
    stored.foldlM (applyReplayedBucket libs w) ledger = .ok ledger'
  | [], ledger, ledger', effects, stored, h, hrows => by
    obtain ⟨rfl, rfl⟩ := Prod.mk.inj (Except.ok.inj h)
    obtain rfl := List.forall₂_nil_left_iff.mp hrows
    rfl
  | second :: seconds, ledger, ledger', effects, stored, h, hrows => by
    obtain ⟨⟨ledger₁, applied⟩, hsim, h⟩ := bind_eq_ok.mp h
    obtain ⟨⟨ledger₂, rest⟩, hrest, h⟩ := bind_eq_ok.mp h
    obtain ⟨rfl, rfl⟩ := Prod.mk.inj (pure_eq_ok.mp h)
    obtain ⟨block, stored', hblock, hstored, rfl⟩ := List.forall₂_cons_left_iff.mp hrows
    refine foldlM_cons_ok.mpr ⟨ledger₁, applyReplayedBucket_second hlibs second hsim hblock, ?_⟩
    exact foldlM_seconds hlibs hrest hstored

/-! ## The rows of all seconds -/

theorem place_lt_iff {a b : ActivityGroupRow} : a.place < b.place ↔
    a.sourceEpoch < b.sourceEpoch
      ∨ (a.sourceEpoch = b.sourceEpoch ∧ a.sourceTradeId.val < b.sourceTradeId.val) :=
  Prod.Lex.toLex_lt_toLex

/-- The rows of a second stand in the order of its mutations. -/
theorem pairwise_block (hrows : List.Forall₂ (RowStores libs epoch) (ms.zip applied) block)
    (hlength : ms.length = applied.length)
    (hordered : ms.Pairwise fun a b => a.sourceTradeId.val < b.sourceTradeId.val) :
    block.Pairwise fun a b => a.place < b.place := by
  have hzip : (ms.zip applied).Pairwise fun p q => p.1.sourceTradeId.val < q.1.sourceTradeId.val := by
    have hfst : ((ms.zip applied).map Prod.fst).Pairwise
        fun a b => a.sourceTradeId.val < b.sourceTradeId.val := by
      rw [List.map_fst_zip (Nat.le_of_eq hlength)]
      exact hordered
    rw [List.pairwise_map] at hfst
    exact hfst
  refine pairwise_of_forall₂ (fun p q row row' hp hq hlt => ?_) hrows hzip
  exact place_lt_iff.mpr (Or.inr ⟨hp.epoch.trans hq.epoch.symm, by rw [hp.id, hq.id]; exact hlt⟩)

/-- What the stored rows of committed seconds are. -/
structure SecondBlocks (libs : DocumentLibraries) (seconds : List (CommittedSecond blake3 arith w))
    (stored : List (List ActivityGroupRow)) : Prop where
  readable : ∀ block ∈ stored, ∀ row ∈ block, Readable libs row
  applied : ∀ block ∈ stored, ∀ row ∈ block, row.isApplied = true
  epochs : ∀ block ∈ stored, ∃ second ∈ seconds, ∀ row ∈ block, row.sourceEpoch = second.epoch
  ordered : ∀ block ∈ stored, block.Pairwise fun a b => a.place < b.place
  increasing : stored.Pairwise (BlockBefore ActivityGroupRow.sourceEpoch)

theorem secondBlocks (hlibs : libs.Lawful) : ∀ {seconds : List (CommittedSecond blake3 arith w)}
    {ledger ledger' : PositionLedger} {effects : List (List AppliedEffect)}
    {stored : List (List ActivityGroupRow)},
    (seconds.Pairwise fun a b => a.epoch < b.epoch) →
    commitSeconds seconds ledger = .ok (ledger', effects) →
    List.Forall₂ (fun p block => List.Forall₂ (RowStores libs p.1.epoch) (p.1.mutations.zip p.2) block)
      (seconds.zip effects) stored →
    SecondBlocks libs seconds stored
  | [], ledger, ledger', effects, stored, _, h, hrows => by
    obtain rfl := List.forall₂_nil_left_iff.mp hrows
    exact ⟨by simp, by simp, by simp, by simp, .nil⟩
  | second :: seconds, ledger, ledger', effects, stored, hinc, h, hrows => by
    obtain ⟨⟨ledger₁, applied⟩, hsim, h⟩ := bind_eq_ok.mp h
    obtain ⟨⟨ledger₂, rest⟩, hrest, h⟩ := bind_eq_ok.mp h
    obtain ⟨_, rfl⟩ := Prod.mk.inj (pure_eq_ok.mp h)
    obtain ⟨block, stored', hblock, hstored, rfl⟩ := List.forall₂_cons_left_iff.mp hrows
    have ih := secondBlocks hlibs (List.pairwise_cons.mp hinc).2 hrest hstored
    obtain ⟨_, hall⟩ := filterMap_stored (w := w) (t := ⟨0⟩) hlibs second.epoch_valid hblock
      (simulateAllOrNone_applied hsim) fun m hm => second.recordable hm
    refine ⟨List.forall_mem_cons.mpr ⟨fun row hrow => (hall row hrow).2.2, ih.readable⟩,
      List.forall_mem_cons.mpr ⟨fun row hrow => (hall row hrow).2.1, ih.applied⟩,
      List.forall_mem_cons.mpr ⟨⟨second, List.mem_cons_self, fun row hrow => (hall row hrow).1⟩, ?_⟩,
      List.forall_mem_cons.mpr ⟨pairwise_block hblock (simulateAllOrNone_applied hsim).length_eq
        second.ordered, ih.ordered⟩, ?_⟩
    · intro b hb
      obtain ⟨second', hmem, hepochs⟩ := ih.epochs b hb
      exact ⟨second', List.mem_cons_of_mem _ hmem, hepochs⟩
    · refine List.pairwise_cons.mpr ⟨fun b hb x hx y hy => ?_, ih.increasing⟩
      obtain ⟨second', hmem, hepochs⟩ := ih.epochs b hb
      rw [(hall x hx).1, hepochs y hy]
      exact (List.pairwise_cons.mp hinc).1 second' hmem

namespace StoredRows

variable {seconds : List (CommittedSecond blake3 arith w)} {effects : List (List AppliedEffect)}
  {ledger ledger' : PositionLedger}

theorem mem_rows (table : StoredRows libs seconds effects) :
    row ∈ table.rows ↔ row ∈ table.stored.flatten ∨ row ∈ table.others := by
  rw [table.rows_perm.mem_iff, List.mem_append]

theorem readable (table : StoredRows libs seconds effects)
    (hblocks : SecondBlocks libs seconds table.stored) (h : row ∈ table.rows) :
    Readable libs row := by
  rcases table.mem_rows.mp h with h | h
  · obtain ⟨block, hblock, hrow⟩ := List.mem_flatten.mp h
    exact hblocks.readable block hblock row hrow
  · exact ⟨table.others_decode row h, Or.inr (table.others_not_applied row h), table.others_epoch row h⟩

theorem epochs_ordered (table : StoredRows libs seconds effects) :
    table.rows.Pairwise fun a b => a.sourceEpoch ≤ b.sourceEpoch := by
  refine table.listed.imp fun h => ?_
  rcases place_lt_iff.mp h with h | h
  · exact le_of_lt h
  · exact le_of_eq h.1

/-- The applied rows are the rows of the seconds, one second after the other. -/
theorem filter_applied (table : StoredRows libs seconds effects)
    (hblocks : SecondBlocks libs seconds table.stored) :
    table.rows.filter ActivityGroupRow.isApplied = table.stored.flatten := by
  have hperm : (table.rows.filter ActivityGroupRow.isApplied).Perm table.stored.flatten := by
    refine (table.rows_perm.filter _).trans (List.Perm.of_eq ?_)
    have hstored : table.stored.flatten.filter ActivityGroupRow.isApplied = table.stored.flatten := by
      refine List.filter_eq_self.mpr fun row hrow => ?_
      obtain ⟨block, hblock, hrow⟩ := List.mem_flatten.mp hrow
      exact hblocks.applied block hblock row hrow
    have hothers : table.others.filter ActivityGroupRow.isApplied = [] := by
      refine List.filter_eq_nil_iff.mpr fun row hrow => ?_
      rw [isApplied_of_not_applied (table.others_not_applied row hrow)]
      simp
    rw [List.filter_append, hstored, hothers, List.append_nil]
  have hflatten : table.stored.flatten.Pairwise fun a b => a.place < b.place := by
    refine List.pairwise_flatten.mpr ⟨hblocks.ordered, hblocks.increasing.imp fun h a ha b hb => ?_⟩
    exact place_lt_iff.mpr (Or.inl (h a ha b hb))
  refine List.Perm.eq_of_pairwise (fun a b _ _ h h' => ?_)
    (table.listed.sublist List.filter_sublist) hflatten hperm
  exact absurd (h.trans h') (lt_irrefl _)

/-- Rows that were not applied make no difference. -/
theorem bucket_filter_applied (hblock : ∀ row ∈ block, Readable libs row)
    (hepoch : ∀ row ∈ block, row.sourceEpoch = epoch) (ledger : PositionLedger) :
    applyReplayedBucket libs w ledger (block.filter ActivityGroupRow.isApplied)
      = applyReplayedBucket libs w ledger block := by
  rw [applyReplayedBucket_eq epoch hblock hepoch, applyReplayedBucket_eq epoch
    (fun row hrow => hblock row (List.mem_of_mem_filter hrow))
    (fun row hrow => hepoch row (List.mem_of_mem_filter hrow)), List.filterMap_filter]
  congr 1
  refine List.filterMap_congr fun row _ => ?_
  unfold replayedOf
  cases row.isApplied <;> rfl

/-- What a replay takes at once is readable, and of one epoch. -/
theorem run_readable (table : StoredRows libs seconds effects)
    (hblocks : SecondBlocks libs seconds table.stored)
    (h : block ∈ runs ActivityGroupRow.sourceEpoch table.rows) :
    (∀ row ∈ block, Readable libs row) ∧ ∃ epoch, ∀ row ∈ block, row.sourceEpoch = epoch := by
  constructor
  · intro row hrow
    refine table.readable hblocks ?_
    rw [← flatten_runs ActivityGroupRow.sourceEpoch table.rows]
    exact List.mem_flatten.mpr ⟨block, h, hrow⟩
  · cases block with
    | nil => exact ⟨0, by simp⟩
    | cons first rest => exact ⟨_, fun row hrow => runs_constant h hrow List.mem_cons_self⟩

/-- **A replay of the rows is a replay of the seconds.** -/
theorem applyReplayedGroups_eq (table : StoredRows libs seconds effects)
    (hblocks : SecondBlocks libs seconds table.stored) (ledger : PositionLedger) :
    applyReplayedGroups libs w ledger table.rows
      = table.stored.foldlM (applyReplayedBucket libs w) ledger := by
  have hnil : ∀ l, applyReplayedBucket libs w l [] = .ok l := fun _ => rfl
  have hconst : ∀ block ∈ table.stored, ∀ a ∈ block, ∀ b ∈ block, a.sourceEpoch = b.sourceEpoch := by
    intro block hblock a ha b hb
    obtain ⟨second, _, hepoch⟩ := hblocks.epochs block hblock
    rw [hepoch a ha, hepoch b hb]
  rw [← foldlM_runs_flatten hnil hconst hblocks.increasing, ← table.filter_applied hblocks,
    foldlM_runs_filter hnil _ table.epochs_ordered, applyReplayedGroups]
  refine foldlM_congr fun block hblock l => ?_
  obtain ⟨hreadable, epoch, hepoch⟩ := table.run_readable hblocks hblock
  exact (bucket_filter_applied hreadable hepoch l).symm

end StoredRows

end PredictionEdge
