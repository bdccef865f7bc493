import PredictionEdge.Ledger.Locality

/-!
# Markets are isolated

Two runs of complete seconds of one wallet that show the same records of a market leave
the same positions in that market, whatever else happened in either run, as long as the
market is dropped in neither. The verdict on a component depends on the component's own
cells (`SameAt.component_eq`), so the market's surviving mutations are the same in both runs
second by second; and a batch acts on a market as those of its mutations alone.
-/

namespace PredictionEdge

open Lib LedgerMutation

variable {lookups : ScopeLookups} {w : WalletAddress} {market : MarketId}

/-! ## A market's share of a batch -/

/-- The mutation moves shares of the market. -/
def LedgerMutation.isIn (market : MarketId) (m : LedgerMutation) : Bool :=
  m.effect.effectMarket = some market

variable {m : LedgerMutation}

theorem isIn_of_mem_touchedKeys {k : MarketOutcomeId} (h : k ∈ m.touchedKeys) :
    m.isIn market = true ↔ k.market = market := by
  rw [isIn, decide_eq_true_eq, LedgerMutation.touchedKeys_market h,
    Option.some.injEq]

theorem keys_filter_isIn {l : List LedgerMutation} :
    (walletSystem w).keys (l.filter (isIn market)) ⊆ {k | k.market = market} := by
  rintro k ⟨m, hm, hk⟩
  exact (isIn_of_mem_touchedKeys hk).mp (List.mem_filter.mp hm).2

/-- A batch acts on a market as the mutations of that market alone. -/
theorem run_market (market : MarketId) {l : List LedgerMutation} {s t : Batch}
    {os : List (LedgerMutation × AppliedEffect)} (h : (walletSystem w).run l s = .ok (t, os)) :
    ∃ t' os', (walletSystem w).run (l.filter (isIn market)) s = .ok (t', os')
      ∧ (walletSystem w).SameOn {k | k.market = market} t t'
      ∧ os' = os.filter fun o => o.1.isIn market := by
  have houtside : ∀ k ∈ (walletSystem w).keys (l.filter fun m => !m.isIn market),
      k.market ≠ market := by
    rintro k ⟨m, hm, hk⟩ hmarket
    have hin := (isIn_of_mem_touchedKeys hk).mpr hmarket
    have hout := (List.mem_filter.mp hm).2
    rw [hin] at hout
    simp at hout
  have hapart : (walletSystem w).Apart (l.filter (isIn market))
      (l.filter fun m => !m.isIn market) :=
    fun k hk hk' => houtside k hk' (keys_filter_isIn hk)
  obtain ⟨t', os', _, os'', hrun, hrun', hmerged, hsame, _⟩ :=
    LocalSystem.run_merged (Merged.filter (isIn market) l) hapart h
  refine ⟨t', os', hrun, fun k hk => hsame k fun hkeys => houtside k hkeys hk, ?_⟩
  refine hmerged.eq_filter (fun o ho => ?_) fun o ho => ?_
  · have hmem := List.mem_map_of_mem (f := Prod.fst) ho
    rw [LocalSystem.run_tags hrun] at hmem
    exact (List.mem_filter.mp hmem).2
  · have hmem := List.mem_map_of_mem (f := Prod.fst) ho
    rw [LocalSystem.run_tags hrun'] at hmem
    simpa using (List.mem_filter.mp hmem).2

/-- Two ledgers hold the same positions of the wallet in the market. -/
def AgreeOn (w : WalletAddress) (market : MarketId) (ledger₁ ledger₂ : PositionLedger) : Prop :=
  ∀ k : MarketOutcomeId, k.market = market → ledger₁.stateAt w k = ledger₂.stateAt w k

/-- **Batches with the same mutations of a market keep ledgers agreeing there.** -/
theorem AgreeOn.simulate {l₁ l₂ : List LedgerMutation}
    {ledger₁ ledger₂ ledger₁' ledger₂' : PositionLedger} {a₁ a₂ : List AppliedEffect}
    (h : AgreeOn w market ledger₁ ledger₂) (hw₁ : ∀ m ∈ l₁, m.wallet = w)
    (hw₂ : ∀ m ∈ l₂, m.wallet = w)
    (hsame : l₁.filter (isIn market) = l₂.filter (isIn market))
    (h₁ : ledger₁.simulateAllOrNone l₁ = .ok (ledger₁', a₁))
    (h₂ : ledger₂.simulateAllOrNone l₂ = .ok (ledger₂', a₂)) :
    AgreeOn w market ledger₁' ledger₂' := by
  obtain ⟨t₁, os₁, hrun₁, rfl, _⟩ := (simulateAllOrNone_ok_iff hw₁).mp h₁
  obtain ⟨t₂, os₂, hrun₂, rfl, _⟩ := (simulateAllOrNone_ok_iff hw₂).mp h₂
  obtain ⟨u₁, p₁, hm₁, hs₁, _⟩ := run_market market hrun₁
  obtain ⟨u₂, p₂, hm₂, hs₂, _⟩ := run_market market hrun₂
  have hmatch := LocalSystem.run_sameOn (keys_filter_isIn (l := l₁)) (SameAt.sameOn (w := w) h)
  rw [hm₁, hsame, hm₂] at hmatch
  obtain ⟨_, heq, _, hu⟩ := hmatch.ok_left
  rw [Except.ok.injEq] at heq
  subst heq
  intro k hk
  calc t₁.ledger.stateAt w k = u₁.ledger.stateAt w k := congrArg Cell.state (hs₁ k hk)
    _ = u₂.ledger.stateAt w k := congrArg Cell.state (hu k hk)
    _ = t₂.ledger.stateAt w k := (congrArg Cell.state (hs₂ k hk)).symm

/-! ## The market's surviving mutations -/

/-- The market a record moves shares in, after any rebinding. -/
def SecondRecord.effectiveMarket (r : SecondRecord) : Option MarketId :=
  match r.mutation with
  | .ok m => m.effect.effectMarket
  | .error _ => none

def SecondRecord.isOf (market : MarketId) (r : SecondRecord) : Bool :=
  r.effectiveMarket = some market

theorem pushed_isOf {dropped : Finset Scope} {r : SecondRecord}
    (h : r.pushed lookups dropped = some m) : m.isIn market = r.isOf market := by
  simp only [isIn, SecondRecord.isOf, SecondRecord.effectiveMarket,
    pushed_mutation h]

theorem pushedMutations_filter (dropped : Finset Scope) (records : List SecondRecord) :
    (pushedMutations lookups dropped records).filter (isIn market) =
      ((orderedRecords records).filter (SecondRecord.isOf market)).filterMap
        (SecondRecord.pushed lookups dropped) := by
  rw [pushedMutations, List.filter_filterMap, List.filterMap_filter]
  refine List.filterMap_congr fun r _ => ?_
  cases hp : r.pushed lookups dropped with
  | none => simp
  | some m => simp [Option.filter, pushed_isOf hp]

/-- What a record of a market pushes does not depend on the drops of others. -/
theorem pushed_congr {dropped₁ dropped₂ : Finset Scope} {r : SecondRecord}
    (hr : r.isOf market = true) (h₁ : marketIsDropped market.text dropped₁ lookups = false)
    (h₂ : marketIsDropped market.text dropped₂ lookups = false) :
    r.pushed lookups dropped₁ = r.pushed lookups dropped₂ := by
  have hrecorded : r.recorded lookups dropped₁ = r.recorded lookups dropped₂ := by
    unfold SecondRecord.recorded
    cases hroute : r.route with
    | error e => rfl
    | ok route =>
      cases route with
      | effective m =>
        have hmarket : m.effect.effectMarket = some market := by
          have hm := hr
          simp only [SecondRecord.isOf, SecondRecord.effectiveMarket,
            (route_ok hroute).1, decide_eq_true_eq] at hm
          exact hm
        have hrec : recordMarket m r.aggregate = some market.text := by
          rw [recordMarket, hmarket]
        simp only [hrec, Option.any_some, h₁, h₂]
      | raw m | tokenless | problem cause => rfl
  unfold SecondRecord.pushed
  rw [hrecorded]

/-- Complete seconds with the same records of a kind hold them in one order. -/
theorem orderedRecords_filter {records₁ records₂ : List SecondRecord} {p : SecondRecord → Bool}
    (hc : OwnKeys records₁) (hp : (records₁.filter p).Perm (records₂.filter p)) :
    (orderedRecords records₁).filter p = (orderedRecords records₂).filter p := by
  have hperm : ((orderedRecords records₁).filter p).Perm ((orderedRecords records₂).filter p) :=
    ((sortOn_perm _ records₁).filter p).trans
      (hp.trans ((sortOn_perm _ records₂).filter p).symm)
  refine @List.Perm.eq_of_pairwise _
    (fun a b : SecondRecord => a.aggregate.groupId.key.val ≤ b.aggregate.groupId.key.val) _ _
    (fun a b ha hb hab hba => ?_) ((sortOn_pairwise _ records₁).filter p)
    ((sortOn_pairwise _ records₂).filter p) hperm
  have hmem : ∀ {x : SecondRecord}, x ∈ (orderedRecords records₁).filter p → x ∈ records₁ :=
    fun hx => mem_orderedRecords.mp (List.mem_filter.mp hx).1
  exact hc.eq_of_key (hmem ha) (hmem (hperm.mem_iff.mpr hb))
    (SourceTradeId.val_injective (Std.le_antisymm hab hba))

theorem touchedKeys_ne_nil_of_isIn (h : m.isIn market = true) : m.touchedKeys ≠ [] := by
  rw [isIn, decide_eq_true_eq] at h
  rw [LedgerMutation.touchedKeys_ne_nil_iff, h]
  rfl

section

variable {ledger : PositionLedger} {dropped : Finset Scope} {records : List SecondRecord}
  {anomalies : List ActivityRowAnomaly} {s : Scan}

/-- In a market that is not dropped, what survives is what has not failed. -/
theorem survives_of_isIn (hc : OwnKeys records)
    (hs : scanSecond lookups ledger w dropped records anomalies = .ok s)
    (hd : marketIsDropped market.text s.newDrops lookups = false)
    (hm : m ∈ pushedMutations lookups dropped records) (hin : m.isIn market = true) :
    s.survives lookups s.newDrops m = decide (m.sourceTradeId.val ∉ s.failed) := by
  have hmarket : m.effect.effectMarket = some market := by
    rwa [isIn, decide_eq_true_eq] at hin
  simp only [Scan.survives, evidenceMarket_of_keyed hc hs hm (touchedKeys_ne_nil_of_isIn hin),
    hmarket, Option.map_some, Option.all_some, hd, Bool.not_false, Bool.and_true]

/-- The component of a market's mutation, among the market's mutations alone. -/
theorem component_of_market {c d : List LedgerMutation} (hc : c ∈ mutationComponents
      ((pushedMutations lookups dropped records).filter (isIn market)))
    (hd : d ∈ mutationComponents (pushedMutations lookups dropped records)) (hmc : m ∈ c)
    (hmd : m ∈ d) : c.Perm d := by
  have hin : m.isIn market = true := (List.mem_filter.mp (mem_of_mem_components hc hmc)).2
  refine components_unique (.refl _) hd (fun x hx => ?_) hc hmd hmc
  have hmarket := (component_market hd hmd hx (touchedKeys_ne_nil_of_isIn hin)).2
  rw [isIn, hmarket]
  exact hin

/-- A mutation of a market has failed when its component among the market's does not pass. -/
theorem mem_failed_market (hr : OwnKeys records)
    (hs : scanSecond lookups ledger w dropped records anomalies = .ok s) {c : List LedgerMutation}
    (hc : c ∈ mutationComponents
      ((pushedMutations lookups dropped records).filter (isIn market)))
    (hmc : m ∈ c) : m.sourceTradeId.val ∈ s.failed ↔ ¬ Passes ledger w c := by
  have hm := (List.mem_filter.mp (mem_of_mem_components hc hmc)).1
  obtain ⟨d, hd, hmd⟩ := exists_component LedgerMutation.touchedKeys hm
  rw [mem_failed_iff hr hs hd hmd, Passes.perm (component_of_market hc hd hmc hmd)]

end

/--
**The surviving mutations of a market depend on the market alone.**

Two seconds with the same records of the market, over ledgers that agree on it and with
the market dropped in neither, let the same of its mutations survive.
-/
theorem applied_market_eq {ledger₁ ledger₂ : PositionLedger} {dropped₁ dropped₂ : Finset Scope}
    {records₁ records₂ : List SecondRecord} {anomalies₁ anomalies₂ : List ActivityRowAnomaly}
    {s₁ s₂ : Scan} (hc₁ : CompleteRecords w records₁) (hc₂ : CompleteRecords w records₂)
    (hs₁ : scanSecond lookups ledger₁ w dropped₁ records₁ anomalies₁ = .ok s₁)
    (hs₂ : scanSecond lookups ledger₂ w dropped₂ records₂ anomalies₂ = .ok s₂)
    (hp : (records₁.filter (SecondRecord.isOf market)).Perm
      (records₂.filter (SecondRecord.isOf market)))
    (hagree : AgreeOn w market ledger₁ ledger₂)
    (hd₁ : marketIsDropped market.text (dropped₁ ∪ s₁.newDrops) lookups = false)
    (hd₂ : marketIsDropped market.text (dropped₂ ∪ s₂.newDrops) lookups = false) :
    (s₁.applied lookups).filter (isIn market)
      = (s₂.applied lookups).filter (isIn market) := by
  have hold₁ := not_marketIsDropped_mono Finset.subset_union_left hd₁
  have hold₂ := not_marketIsDropped_mono Finset.subset_union_left hd₂
  have hnew₁ := not_marketIsDropped_mono Finset.subset_union_right hd₁
  have hnew₂ := not_marketIsDropped_mono Finset.subset_union_right hd₂
  have hpushed : (pushedMutations lookups dropped₁ records₁).filter (isIn market)
      = (pushedMutations lookups dropped₂ records₂).filter (isIn market) := by
    rw [pushedMutations_filter, pushedMutations_filter, orderedRecords_filter hc₁.toOwnKeys hp]
    refine List.filterMap_congr fun r hr => ?_
    exact pushed_congr (List.mem_filter.mp hr).2 hold₁ hold₂
  rw [Scan.applied, Scan.applied, (scanSecond_fields hs₁).1, (scanSecond_fields hs₂).1,
    List.filter_comm, List.filter_comm (p := isIn market), ← hpushed]
  refine List.filter_congr fun m hm => ?_
  have hm₂ := hm
  rw [hpushed] at hm₂
  rw [survives_of_isIn hc₁.toOwnKeys hs₁ hnew₁ (List.mem_filter.mp hm).1 (List.mem_filter.mp hm).2,
    survives_of_isIn hc₂.toOwnKeys hs₂ hnew₂ (List.mem_filter.mp hm₂).1 (List.mem_filter.mp hm₂).2]
  obtain ⟨c, hc, hmc⟩ := exists_component LedgerMutation.touchedKeys hm
  have hc' := hc
  rw [hpushed] at hc'
  have hpass : Passes ledger₁ w c ↔ Passes ledger₂ w c := by
    have hcells : SameAt w ((walletSystem w).keys c) ledger₁ ledger₂ := by
      rintro k ⟨x, hx, hk⟩
      exact hagree k (keys_filter_isIn ⟨x, mem_of_mem_components hc hx, hk⟩)
    rw [Passes, Passes, hcells.component_eq fun x hx =>
      pushed_wallet hc₁.wallet (List.mem_filter.mp (mem_of_mem_components hc hx)).1]
  have hfailed : m.sourceTradeId.val ∈ s₁.failed ↔ m.sourceTradeId.val ∈ s₂.failed := by
    rw [mem_failed_market hc₁.toOwnKeys hs₁ hc hmc,
      mem_failed_market hc₂.toOwnKeys hs₂ hc' hmc, hpass]
  simp only [hfailed]

/-! ## Runs -/

/-- A complete second of a wallet, as a run meets it. -/
structure ScopedInput where
  config : SecondConfig
  sourceSecond : Int
  records : List SecondRecord
  anomalies : List ActivityRowAnomaly
  certifiedProblemSecond : Bool

/-- What a run carries from second to second. -/
structure ScopedState where
  ledger : PositionLedger
  dropped : Finset Scope

/-- Classify a second, apply what it hands back and keep its drops. -/
def scopedStep (lookups : ScopeLookups) (w : WalletAddress) (s : ScopedState) (i : ScopedInput) :
    Except LedgerError ScopedState := do
  let r ← classifyScopedSecondWithAnomalies i.config lookups s.ledger w i.sourceSecond i.records
    i.anomalies s.dropped i.certifiedProblemSecond
  let _ ← (s.ledger.applyAllOrNone r.apply).2
  return ⟨(s.ledger.applyAllOrNone r.apply).1, s.dropped ∪ r.problemScopes⟩

def scopedRun (lookups : ScopeLookups) (w : WalletAddress) (s : ScopedState)
    (inputs : List ScopedInput) : Except LedgerError ScopedState :=
  inputs.foldlM (scopedStep lookups w) s

theorem scopedStep_inv {s s' : ScopedState} {i : ScopedInput}
    (h : scopedStep lookups w s i = .ok s') :
    ∃ scan applied, scanSecond lookups s.ledger w s.dropped i.records i.anomalies = .ok scan
      ∧ s.ledger.simulateAllOrNone (scan.applied lookups) = .ok (s'.ledger, applied)
      ∧ s'.dropped = s.dropped ∪ scan.newDrops := by
  obtain ⟨r, hr, h⟩ := bind_eq_ok.mp h
  obtain ⟨applied, happly, h⟩ := bind_eq_ok.mp h
  obtain ⟨_, scan, hscan, hconclude⟩ := classifyScoped_eq_ok.mp hr
  obtain ⟨_, decisions, _, _, rfl⟩ := concludeSecond_eq_ok.mp hconclude
  have hs' := pure_eq_ok.mp h
  rw [problemScopes_eq hscan] at hs'
  change (s.ledger.applyAllOrNone (scan.applied lookups)).2 = .ok applied at happly
  change ScopedState.mk (s.ledger.applyAllOrNone (scan.applied lookups)).1
    (s.dropped ∪ scan.newDrops) = s' at hs'
  subst hs'
  refine ⟨scan, applied, hscan, ?_, rfl⟩
  unfold PositionLedger.applyAllOrNone at happly ⊢
  cases hsim : s.ledger.simulateAllOrNone (scan.applied lookups) with
  | error e => rw [hsim] at happly; simp at happly
  | ok p =>
    rw [hsim] at happly
    simp only [Except.ok.injEq] at happly ⊢
    rw [← happly]

theorem scopedRun_dropped {s s' : ScopedState} {inputs : List ScopedInput}
    (h : scopedRun lookups w s inputs = .ok s') : s.dropped ⊆ s'.dropped := by
  refine foldlM_rel (R := fun s s' : ScopedState => s.dropped ⊆ s'.dropped)
    (fun s => Finset.Subset.refl s.dropped) (fun h h' => Finset.Subset.trans h h') ?_ h
  intro s i _ s' hs
  obtain ⟨_, _, _, _, hdropped⟩ := scopedStep_inv hs
  rw [hdropped]
  exact Finset.subset_union_left

/-- The two seconds show the same records of the market. -/
def SameRecordsOf (market : MarketId) (i j : ScopedInput) : Prop :=
  (i.records.filter (SecondRecord.isOf market)).Perm (j.records.filter (SecondRecord.isOf market))

/-- **One second keeps the runs agreeing on the market.** -/
theorem scopedStep_agree {s₁ s₂ t₁ t₂ : ScopedState} {i j : ScopedInput}
    (hc₁ : CompleteRecords w i.records) (hc₂ : CompleteRecords w j.records)
    (hsame : SameRecordsOf market i j) (hagree : AgreeOn w market s₁.ledger s₂.ledger)
    (h₁ : scopedStep lookups w s₁ i = .ok t₁) (h₂ : scopedStep lookups w s₂ j = .ok t₂)
    (hd₁ : marketIsDropped market.text t₁.dropped lookups = false)
    (hd₂ : marketIsDropped market.text t₂.dropped lookups = false) :
    AgreeOn w market t₁.ledger t₂.ledger := by
  obtain ⟨scan₁, a₁, hscan₁, hsim₁, hdrop₁⟩ := scopedStep_inv h₁
  obtain ⟨scan₂, a₂, hscan₂, hsim₂, hdrop₂⟩ := scopedStep_inv h₂
  rw [hdrop₁] at hd₁
  rw [hdrop₂] at hd₂
  exact hagree.simulate (applied_wallet hc₁.wallet hscan₁) (applied_wallet hc₂.wallet hscan₂)
    (applied_market_eq hc₁ hc₂ hscan₁ hscan₂ hsame hagree hd₁ hd₂) hsim₁ hsim₂

/-- The same over whole runs. -/
theorem scopedRun_agree {inputs₁ inputs₂ : List ScopedInput}
    (hsame : List.Forall₂ (SameRecordsOf market) inputs₁ inputs₂) :
    ∀ {s₁ s₂ t₁ t₂ : ScopedState}, (∀ i ∈ inputs₁, CompleteRecords w i.records) →
    (∀ i ∈ inputs₂, CompleteRecords w i.records) → AgreeOn w market s₁.ledger s₂.ledger →
    scopedRun lookups w s₁ inputs₁ = .ok t₁ → scopedRun lookups w s₂ inputs₂ = .ok t₂ →
    marketIsDropped market.text t₁.dropped lookups = false →
    marketIsDropped market.text t₂.dropped lookups = false →
    AgreeOn w market t₁.ledger t₂.ledger := by
  induction hsame with
  | nil =>
    intro s₁ s₂ t₁ t₂ _ _ hagree h₁ h₂ _ _
    rwa [← pure_eq_ok.mp h₁, ← pure_eq_ok.mp h₂]
  | @cons i j is js hij _ ih =>
    intro s₁ s₂ t₁ t₂ hc₁ hc₂ hagree h₁ h₂ hd₁ hd₂
    obtain ⟨u₁, hu₁, h₁⟩ := foldlM_cons_ok.mp h₁
    obtain ⟨u₂, hu₂, h₂⟩ := foldlM_cons_ok.mp h₂
    -- drops only grow, so the market is not dropped after the first second either
    have hmid := scopedStep_agree (hc₁ i List.mem_cons_self) (hc₂ j List.mem_cons_self) hij hagree
      hu₁ hu₂ (not_marketIsDropped_mono (scopedRun_dropped h₁) hd₁)
      (not_marketIsDropped_mono (scopedRun_dropped h₂) hd₂)
    exact ih (fun x hx => hc₁ x (List.mem_cons_of_mem _ hx))
      (fun x hx => hc₂ x (List.mem_cons_of_mem _ hx)) hmid h₁ h₂ hd₁ hd₂

/--
**Market isolation.**

Two runs over complete seconds of one wallet, from ledgers that agree on a market and
any drops, that show second by second the same records of that market: after every
second up to which the market is dropped in neither run, the ledgers agree on it.
-/
theorem scopedRun_isolated (lookups : ScopeLookups) (w : WalletAddress) (market : MarketId)
    (inputs₁ inputs₂ : List ScopedInput) (s₁ s₂ : ScopedState)
    (hc₁ : ∀ i ∈ inputs₁, CompleteRecords w i.records)
    (hc₂ : ∀ i ∈ inputs₂, CompleteRecords w i.records)
    (hsame : List.Forall₂ (SameRecordsOf market) inputs₁ inputs₂)
    (hagree : AgreeOn w market s₁.ledger s₂.ledger) :
    ∀ n t₁ t₂, scopedRun lookups w s₁ (inputs₁.take n) = .ok t₁ →
      scopedRun lookups w s₂ (inputs₂.take n) = .ok t₂ →
      marketIsDropped market.text t₁.dropped lookups = false →
      marketIsDropped market.text t₂.dropped lookups = false →
      ∀ k : MarketOutcomeId, k.market = market →
        t₁.ledger.stateAt w k = t₂.ledger.stateAt w k := by
  intro n t₁ t₂ h₁ h₂ hd₁ hd₂
  exact scopedRun_agree (List.forall₂_take n hsame)
    (fun i hi => hc₁ i (List.mem_of_mem_take hi)) (fun i hi => hc₂ i (List.mem_of_mem_take hi))
    hagree h₁ h₂ hd₁ hd₂

/-! One run sees the whole sample second, the other only its purchase in `0xa1`. -/

def busyInput : ScopedInput := ⟨sampleConfig, 0, sampleRecords, sampleAnomalies, false⟩

def quietInput : ScopedInput :=
  ⟨sampleConfig, 0, sampleRecords.filter (SecondRecord.isOf ⟨⟨"0xa1"⟩⟩), [], false⟩

theorem sampleRuns_isolated :
    ∃ t₁ t₂, scopedRun sampleLookups sampleWallet ⟨.new, ∅⟩ [busyInput] = .ok t₁
      ∧ scopedRun sampleLookups sampleWallet ⟨.new, ∅⟩ [quietInput] = .ok t₂
      ∧ ∀ k : MarketOutcomeId, k.market = ⟨⟨"0xa1"⟩⟩ →
        t₁.ledger.stateAt sampleWallet k = t₂.ledger.stateAt sampleWallet k := by
  have hcomplete : ∀ {records : List SecondRecord}, records.Sublist sampleRecords →
      CompleteRecords sampleWallet records := by
    intro records hsub
    have hall : ∀ r ∈ sampleRecords, ∀ m, r.mutation = .ok m →
        m.wallet = sampleWallet ∧ m.sourceTradeId = r.aggregate.groupId.key := by
      simp [sampleRecords, sampleAggregate, sampleMutation]
    exact ⟨⟨List.Nodup.sublist (hsub.map _) (by decide +kernel),
      fun r hr m hm => (hall r (hsub.mem hr) m hm).2⟩,
      fun r hr m hm => (hall r (hsub.mem hr) m hm).1⟩
  obtain ⟨t₁, h₁, hd₁⟩ := exists_ok_of_any
    (x := scopedRun sampleLookups sampleWallet ⟨.new, ∅⟩ [busyInput])
    (p := fun t => !marketIsDropped "0xa1" t.dropped sampleLookups) (by decide +kernel)
  obtain ⟨t₂, h₂, hd₂⟩ := exists_ok_of_any
    (x := scopedRun sampleLookups sampleWallet ⟨.new, ∅⟩ [quietInput])
    (p := fun t => !marketIsDropped "0xa1" t.dropped sampleLookups) (by decide +kernel)
  refine ⟨t₁, t₂, h₁, h₂, ?_⟩
  exact scopedRun_isolated sampleLookups sampleWallet ⟨⟨"0xa1"⟩⟩ [busyInput] [quietInput]
    ⟨.new, ∅⟩ ⟨.new, ∅⟩ (List.forall_mem_singleton.mpr (hcomplete (.refl _)))
    (List.forall_mem_singleton.mpr (hcomplete List.filter_sublist))
    (.cons (by simp [SameRecordsOf, busyInput, quietInput, List.filter_filter]) .nil)
    (fun _ _ => rfl) 1 t₁ t₂ h₁ h₂ (by simpa [MarketId.text] using hd₁)
    (by simpa [MarketId.text] using hd₂)

/-! ## A dropped market stands still -/

theorem marketIsDropped_union {market : String} {a b : Finset Scope} :
    marketIsDropped market (a ∪ b) lookups =
      (marketIsDropped market a lookups || marketIsDropped market b lookups) := by
  unfold marketIsDropped
  cases lookups.market market <;> simp [Bool.or_assoc, Bool.or_left_comm]

/-- **The second that drops a market, and every later one, leaves its positions.** An earlier
drop keeps the market's mutations from the batch, and a new one takes them out of it. -/
theorem scopedStep_frozen {s s' : ScopedState} {i : ScopedInput} (hc : CompleteRecords w i.records)
    (h : scopedStep lookups w s i = .ok s')
    (hd : marketIsDropped market.text s'.dropped lookups = true) :
    AgreeOn w market s.ledger s'.ledger := by
  obtain ⟨scan, applied, hscan, hsim, hdropped⟩ := scopedStep_inv h
  rw [hdropped, marketIsDropped_union, Bool.or_eq_true] at hd
  have hnone : (scan.applied lookups).filter (isIn market) = [] := by
    refine List.filter_eq_nil_iff.mpr fun m hm hin => ?_
    obtain ⟨hm, hsurvives⟩ := List.mem_filter.mp hm
    rw [(scanSecond_fields hscan).1] at hm
    have hkeyed := touchedKeys_ne_nil_of_isIn hin
    have hmarket : m.effect.effectMarket = some market := of_decide_eq_true hin
    rcases hd with hd | hd
    · obtain ⟨r, _, hrecorded⟩ := recorded_of_keyed hm hkeyed
      have hopen := (recorded_eq_some.mp hrecorded).2
      rw [recordMarket_of_keyed hkeyed, hmarket, Option.map_some, Option.any_some, hd] at hopen
      simp at hopen
    · rw [Scan.survives, evidenceMarket_of_keyed hc.toOwnKeys hscan hm hkeyed, hmarket,
        Option.map_some, Option.all_some, hd] at hsurvives
      simp at hsurvives
  have hempty : s.ledger.simulateAllOrNone [] = .ok (s.ledger, []) := rfl
  exact AgreeOn.simulate (fun _ _ => rfl) (by simp) (applied_wallet hc.wallet hscan) (by simp [hnone])
    hempty hsim

/--
**A dropped market is never touched again.**

In a run over complete seconds, the positions of a market stay to the end what they were
before the second that dropped it, whatever records of the market come in that second or
in any later one.
-/
theorem scopedRun_frozen (lookups : ScopeLookups) (w : WalletAddress) (market : MarketId)
    (i : ScopedInput) (later : List ScopedInput) (s t u : ScopedState)
    (hc : ∀ j ∈ i :: later, CompleteRecords w j.records)
    (hi : scopedStep lookups w s i = .ok t)
    (hd : marketIsDropped market.text t.dropped lookups = true)
    (hlater : scopedRun lookups w t later = .ok u) : AgreeOn w market s.ledger u.ledger := by
  have hfirst := scopedStep_frozen (hc i List.mem_cons_self) hi hd
  have hrest := foldlM_rel (R := fun t u : ScopedState =>
      marketIsDropped market.text t.dropped lookups = true →
        marketIsDropped market.text u.dropped lookups = true ∧ AgreeOn w market t.ledger u.ledger)
    (fun t hd => ⟨hd, fun _ _ => rfl⟩)
    (fun h h' hd => ⟨(h' (h hd).1).1, fun k hk => ((h hd).2 k hk).trans ((h' (h hd).1).2 k hk)⟩)
    (fun t j hj u hstep hd => by
      have hrun : scopedRun lookups w t [j] = .ok u := foldlM_cons_ok.mpr ⟨u, hstep, rfl⟩
      have hd' := marketIsDropped_mono (scopedRun_dropped hrun) hd
      exact ⟨hd', scopedStep_frozen (hc j (List.mem_cons_of_mem _ hj)) hstep hd'⟩) hlater hd
  exact fun k hk => (hfirst k hk).trans (hrest.2 k hk)

/-- The sample second drops `0xb2`, and comes again. -/
theorem sampleRun_frozen :
    ∃ t u, scopedStep sampleLookups sampleWallet ⟨.new, ∅⟩ busyInput = .ok t
      ∧ scopedRun sampleLookups sampleWallet t [busyInput] = .ok u
      ∧ AgreeOn sampleWallet ⟨⟨"0xb2"⟩⟩ .new u.ledger := by
  obtain ⟨t, ht, hany⟩ := exists_ok_of_any
    (x := scopedStep sampleLookups sampleWallet ⟨.new, ∅⟩ busyInput)
    (p := fun t => marketIsDropped "0xb2" t.dropped sampleLookups &&
      (scopedRun sampleLookups sampleWallet t [busyInput]).toOption.any fun _ => true)
    (by decide +kernel)
  rw [Bool.and_eq_true] at hany
  obtain ⟨u, hu, _⟩ := exists_ok_of_any hany.2
  have hc : CompleteRecords sampleWallet busyInput.records :=
    ⟨⟨by decide +kernel, by simp [busyInput, sampleRecords, sampleAggregate, sampleMutation]⟩,
      by simp [busyInput, sampleRecords, sampleMutation]⟩
  exact ⟨t, u, ht, hu, scopedRun_frozen sampleLookups sampleWallet ⟨⟨"0xb2"⟩⟩ busyInput [busyInput]
    ⟨.new, ∅⟩ t u (by simpa using hc) ht hany.1 hu⟩

end PredictionEdge
