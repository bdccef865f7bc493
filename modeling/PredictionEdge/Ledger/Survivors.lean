import PredictionEdge.Ledger.Scan

/-!
# What survives a scoped second

A scan removes whole components: a failing one by its identifiers, a dropped one by its
market, and a component has one verdict and one market. So the components of what
survives are components that passed, and the second check of the surviving list cannot
disagree with the first.
-/

namespace PredictionEdge

open Lib

variable {lookups : ScopeLookups} {dropped : Finset Scope} {ledger : PositionLedger}
  {w : WalletAddress} {records : List SecondRecord} {anomalies : List ActivityRowAnomaly}

/-- Records of distinct groups, each mapped under its own key. -/
structure OwnKeys (records : List SecondRecord) : Prop where
  distinct : (records.map fun r => r.aggregate.groupId.key).Nodup
  own : ∀ r ∈ records, ∀ m, r.mutation = .ok m → m.sourceTradeId = r.aggregate.groupId.key

/-- The records of a complete second of a wallet. -/
structure CompleteRecords (w : WalletAddress) (records : List SecondRecord) : Prop
    extends OwnKeys records where
  wallet : ∀ r ∈ records, ∀ m, r.mutation = .ok m → m.wallet = w

variable {m : LedgerMutation}

theorem mem_pushedMutations :
    m ∈ pushedMutations lookups dropped records ↔
      ∃ r ∈ records, r.pushed lookups dropped = some m := by
  simp only [pushedMutations, List.mem_filterMap, mem_orderedRecords]

namespace OwnKeys

theorem ordered_distinct (h : OwnKeys records) :
    ((orderedRecords records).map fun r => r.aggregate.groupId.key).Nodup :=
  ((sortOn_perm _ records).map _).nodup_iff.mpr h.distinct

/-- A record is found again by its key. -/
theorem eq_of_key (h : OwnKeys records) {r r' : SecondRecord} (hr : r ∈ records)
    (hr' : r' ∈ records) (hk : r.aggregate.groupId.key = r'.aggregate.groupId.key) : r = r' :=
  List.inj_on_of_nodup_map h.distinct hr hr' hk

theorem distinctIds (h : OwnKeys records) :
    DistinctIds (pushedMutations lookups dropped records) := by
  refine List.Sublist.nodup (map_filterMap_sublist fun r hr m hm => ?_) h.ordered_distinct
  exact h.own r (mem_orderedRecords.mp hr) m (pushed_mutation hm)

/-- The evidence under a recorded mutation's id is its own record's. -/
theorem lookup_evidence (h : OwnKeys records) {r : SecondRecord} (hr : r ∈ records)
    (hrec : r.recorded lookups dropped = some m) :
    (evidence lookups dropped records).lookup m.sourceTradeId.val = some r.aggregate := by
  have hsome : ((evidence lookups dropped records).lookup m.sourceTradeId.val).isSome :=
    lookup_evidence_isSome (Or.inr ⟨r, mem_orderedRecords.mpr hr, m, hrec, rfl⟩)
  obtain ⟨a, ha⟩ := Option.isSome_iff_exists.mp hsome
  rcases mem_of_lookup_evidence ha with hempty | ⟨r', hr', rfl, m', hrec', hid⟩
  · simp at hempty
  · have hr' := mem_orderedRecords.mp hr'
    have hk' := h.own r' hr' m' (pushed_mutation (pushed_eq_some.mpr (Or.inr hrec')))
    have hk := h.own r hr m (pushed_mutation (pushed_eq_some.mpr (Or.inr hrec)))
    have heq : r'.aggregate.groupId.key = r.aggregate.groupId.key := by
      rw [← hk', ← hk, SourceTradeId.val_injective hid]
    rw [ha, h.eq_of_key hr' hr heq]

end OwnKeys

theorem pushed_wallet (hw : ∀ r ∈ records, ∀ m, r.mutation = .ok m → m.wallet = w)
    (hm : m ∈ pushedMutations lookups dropped records) : m.wallet = w := by
  obtain ⟨r, hr, hp⟩ := mem_pushedMutations.mp hm
  exact hw r hr m (pushed_mutation hp)

/-- A mutation of a market was recorded with its evidence. -/
theorem recorded_of_keyed (hm : m ∈ pushedMutations lookups dropped records)
    (hk : m.touchedKeys ≠ []) : ∃ r ∈ records, r.recorded lookups dropped = some m := by
  obtain ⟨r, hr, hp⟩ := mem_pushedMutations.mp hm
  rcases pushed_eq_some.mp hp with hraw | hrec
  · refine absurd ?_ hk
    simp only [LedgerMutation.touchedKeys, (route_ok hraw).2]
  · exact ⟨r, hr, hrec⟩

theorem recordMarket_of_keyed (hk : m.touchedKeys ≠ []) (a : ActivityAggregate) :
    recordMarket m a = m.effect.effectMarket.map MarketId.text := by
  obtain ⟨market, hm⟩ := Option.isSome_iff_exists.mp (LedgerMutation.touchedKeys_ne_nil_iff.mp hk)
  rw [recordMarket, hm]
  rfl

/-! ## Whole components -/

section

variable {s : Scan} {c : List LedgerMutation}

section

variable (h : OwnKeys records) (hs : scanSecond lookups ledger w dropped records anomalies = .ok s)

include h hs

/-- A mutation has failed exactly when its component did. -/
theorem mem_failed_iff (hc : c ∈ mutationComponents (pushedMutations lookups dropped records))
    (hm : m ∈ c) : m.sourceTradeId.val ∈ s.failed ↔ ¬ Passes ledger w c := by
  rw [(scanSecond_fields hs).2.2]
  constructor
  · rintro ⟨d, hd, hfail, m', hm', hid⟩ hpass
    -- distinct identifiers name the mutation, and the mutation its component
    have heq : m' = m := h.distinctIds.inj (mem_of_mem_components hd hm')
      (mem_of_mem_components hc hm) (SourceTradeId.val_injective hid)
    subst heq
    have hperm : d.Perm c := components_unique (p := fun _ => true) (by simp)
      hc (fun _ _ => rfl) hd hm hm'
    exact hfail ((Passes.perm hperm).mpr hpass)
  · intro hfail
    exact ⟨c, hc, hfail, m, hm, rfl⟩

/-- The scope test of a mutation of a market asks for that market. -/
theorem evidenceMarket_of_keyed (hm : m ∈ pushedMutations lookups dropped records)
    (hk : m.touchedKeys ≠ []) :
    (s.effectiveRecords.lookup m.sourceTradeId.val).bind (recordMarket m)
      = m.effect.effectMarket.map MarketId.text := by
  obtain ⟨r, hr, hrec⟩ := recorded_of_keyed hm hk
  rw [(scanSecond_fields hs).2.1, h.lookup_evidence hr hrec, Option.bind_some,
    recordMarket_of_keyed hk]

/-- **A component survives whole or not at all.** -/
theorem survives_component (hc : c ∈ mutationComponents (pushedMutations lookups dropped records))
    (drops : Finset Scope) {m' : LedgerMutation} (hm : m ∈ c) (hm' : m' ∈ c) :
    s.survives lookups drops m = s.survives lookups drops m' := by
  by_cases hk : m.touchedKeys = []
  · rw [components_keyless hc hm hk, List.mem_singleton] at hm'
    rw [hm']
  · obtain ⟨hk', hmarket⟩ := component_market hc hm hm' hk
    have hfailed : m.sourceTradeId.val ∈ s.failed ↔ m'.sourceTradeId.val ∈ s.failed :=
      (mem_failed_iff h hs hc hm).trans (mem_failed_iff h hs hc hm').symm
    simp only [Scan.survives, hfailed,
      evidenceMarket_of_keyed h hs (mem_of_mem_components hc hm) hk,
      evidenceMarket_of_keyed h hs (mem_of_mem_components hc hm') hk', hmarket]

end

/-- The mutations outside every failure and drop. -/
def Scan.applied (lookups : ScopeLookups) (s : Scan) : List LedgerMutation :=
  s.mutations.filter (s.survives lookups s.newDrops)

/-- **The components of what survives have passed.** -/
theorem applied_component_passes (h : OwnKeys records)
    (hs : scanSecond lookups ledger w dropped records anomalies = .ok s)
    (hc : c ∈ mutationComponents (s.applied lookups)) : Passes ledger w c := by
  have hmut := (scanSecond_fields hs).1
  have hsub : (s.applied lookups).Perm
      ((pushedMutations lookups dropped records).filter (s.survives lookups s.newDrops)) := by
    rw [Scan.applied, hmut]
  obtain ⟨d, hd, hperm⟩ := components_filter hsub
    (fun d hd m hm hp m' hm' => by rw [survives_component h hs hd _ hm' hm]; exact hp) hc
  refine (Passes.perm hperm).mpr ?_
  obtain ⟨m, hm⟩ := List.exists_mem_of_ne_nil _ (mutationComponents_ne_nil hc)
  have hsurv : s.survives lookups s.newDrops m = true :=
    (List.mem_filter.mp (mem_of_mem_components hc hm)).2
  simp only [Scan.survives, Bool.and_eq_true, decide_eq_true_eq] at hsurv
  by_contra hfail
  exact hsurv.1 ((mem_failed_iff h hs hd (hperm.mem_iff.mp hm)).mpr hfail)

theorem applied_wallet (hw : ∀ r ∈ records, ∀ m, r.mutation = .ok m → m.wallet = w)
    (hs : scanSecond lookups ledger w dropped records anomalies = .ok s) :
    ∀ m ∈ s.applied lookups, m.wallet = w := by
  intro m hm
  have hpushed := (List.mem_filter.mp hm).1
  rw [(scanSecond_fields hs).1] at hpushed
  exact pushed_wallet hw hpushed

/-- The surviving list simulates in every order. -/
theorem applied_simulates (h : CompleteRecords w records)
    (hs : scanSecond lookups ledger w dropped records anomalies = .ok s) {l : List LedgerMutation}
    (hp : l.Perm (s.applied lookups)) : ∃ r, ledger.simulateAllOrNone l = .ok r := by
  have hw := applied_wallet h.wallet hs
  obtain ⟨t, os, hrun, _⟩ := batch_run hw (fun c hc =>
    (componentOrderIndependent_ok_true_iff.mp (applied_component_passes h.toOwnKeys hs hc)).1) hp
  exact ⟨(t.ledger, os.map Prod.snd), (simulateAllOrNone_ok_iff fun m hm =>
    hw m (hp.mem_iff.mp hm)).mpr ⟨t, os, hrun, rfl, rfl⟩⟩

end

/-! ## The scoped second is total -/

variable {sourceSecond : Int} {certified : Bool} {r : ScopedSecond}

theorem checkAnomalies_ok : ∀ {l : List ActivityRowAnomaly},
    checkAnomalies w sourceSecond l = .ok () ↔
      ∀ a ∈ l, a.wallet = w ∧ a.sourceTime.unixTimestamp = sourceSecond
  | [] => by simp [checkAnomalies]
  | a :: l => by
    rw [checkAnomalies, List.forall_mem_cons]
    split
    · rename_i hbad
      simp only [reduceCtorEq, false_iff]
      rintro ⟨⟨hw, ht⟩, _⟩
      rcases hbad with hbad | hbad
      · exact hbad hw
      · exact hbad ht
    · rename_i hgood
      rw [not_or, not_not, not_not] at hgood
      rw [checkAnomalies_ok]
      exact ⟨fun h => ⟨hgood, h⟩, fun h => h.2⟩

/-- What a scoped second returns, once the surviving list is classified. -/
def scopedResult (lookups : ScopeLookups) (certifiedProblemSecond : Bool) (s : Scan)
    (decisions : List TradeDecision) : ScopedSecond :=
  let problemSecond := certifiedProblemSecond || !s.problems.isEmpty
  ⟨problemSecond, intoValues s.problems, sortOn (fun e => e.1.val) s.ignored,
    s.applied lookups,
    if problemSecond then decisions.map TradeDecision.unscored else decisions,
    consumedMarkets s.consumed⟩

variable {config : SecondConfig}

theorem concludeSecond_eq_ok {s : Scan} :
    concludeSecond config lookups ledger w certified s = .ok r ↔
      ∃ applied decisions firstEntries,
        classifyCompleteSecond config ledger w (s.applied lookups)
          = .ok (.orderIndependent applied decisions firstEntries)
        ∧ r = scopedResult lookups certified s decisions := by
  unfold concludeSecond
  cases h : classifyCompleteSecond config ledger w (s.applied lookups) with
  | error e =>
    rw [Scan.applied] at h
    simp [h, bind, Except.bind]
  | ok v =>
    rw [Scan.applied] at h
    cases v with
    | orderDependent trigger =>
      simp [h, bind, Except.bind, throw, throwThe, MonadExceptOf.throw]
    | orderIndependent applied decisions firstEntries =>
      simp only [h, bind, Except.bind, pure, Except.pure, Except.ok.injEq,
        SecondVerdict.orderIndependent.injEq]
      constructor
      · rintro rfl
        exact ⟨applied, decisions, firstEntries, ⟨rfl, rfl, rfl⟩, rfl⟩
      · rintro ⟨_, _, _, ⟨rfl, rfl, rfl⟩, rfl⟩
        rfl

theorem classifyScoped_eq_ok :
    classifyScopedSecondWithAnomalies config lookups ledger w sourceSecond records anomalies dropped
        certified = .ok r ↔
      (∀ a ∈ anomalies, a.wallet = w ∧ a.sourceTime.unixTimestamp = sourceSecond)
        ∧ ∃ s, scanSecond lookups ledger w dropped records anomalies = .ok s
          ∧ concludeSecond config lookups ledger w certified s = .ok r := by
  unfold classifyScopedSecondWithAnomalies
  simp only [bind_eq_ok, ← checkAnomalies_ok]
  exact ⟨fun ⟨_, h⟩ => h, fun h => ⟨(), h⟩⟩

/-- What touches nothing passes, so a failing component starts with a mutation of a market. -/
theorem keyed_of_componentCause {first : LedgerMutation} {more : List LedgerMutation}
    {cause : DropCause}
    (hc : first :: more ∈ mutationComponents (pushedMutations lookups dropped records))
    (hcause : componentCause ledger w (first :: more) = .ok (some cause)) :
    first.touchedKeys ≠ [] := by
  intro hk
  obtain ⟨r, _, hp⟩ := mem_pushedMutations.mp (mem_of_mem_components hc List.mem_cons_self)
  have hsingle := components_keyless hc List.mem_cons_self hk
  rw [hsingle, componentCause_eq_none.mpr
    (componentOrderIndependent_keyless hk (not_refused_of_pushed hp))] at hcause
  simp at hcause

/-- A component of the pushed mutations is judged without error, and the evidence stays. -/
theorem componentStep_ok (ledger : PositionLedger) (h : OwnKeys records) {c : List LedgerMutation}
    (hc : c ∈ mutationComponents (pushedMutations lookups dropped records)) {s : Scan}
    (hev : s.effectiveRecords = evidence lookups dropped records) :
    ∃ s', componentStep lookups dropped ledger w s c = .ok s'
      ∧ s'.effectiveRecords = evidence lookups dropped records := by
  have hmem : ∀ m ∈ c, m ∈ pushedMutations lookups dropped records :=
    fun m hmc => mem_of_mem_components hc hmc
  have hrefused : ∀ m ∈ c, ¬ m.IsRefused := by
    intro m hmc
    obtain ⟨r, _, hp⟩ := mem_pushedMutations.mp (hmem m hmc)
    exact not_refused_of_pushed hp
  obtain ⟨cause, hcause⟩ := componentCause_ok ledger w hrefused
  cases c with
  | nil => exact absurd rfl (mutationComponents_ne_nil hc)
  | cons first more =>
    simp only [componentStep, hcause, bind, Except.bind]
    cases cause with
    | none => exact ⟨s, rfl, hev⟩
    | some cause =>
      have hk := keyed_of_componentCause hc hcause
      obtain ⟨r, hr, hrec⟩ := recorded_of_keyed (hmem first List.mem_cons_self) hk
      have ha := h.lookup_evidence hr hrec
      rw [hev, ha]
      refine ⟨_, rfl, ?_⟩
      rw [(failComponent_keeps lookups dropped s (first :: more) r.aggregate cause
        first.sourceTradeId).2.1]
      exact hev

/-- The passes over a second succeed. -/
theorem scanSecond_ok (ledger : PositionLedger) (lookups : ScopeLookups) (dropped : Finset Scope)
    (anomalies : List ActivityRowAnomaly) (h : OwnKeys records)
    (hfail : ∀ r ∈ records, ∀ e, r.mutation = .error e → ∃ id, e = .invalidMapping id) :
    ∃ s, scanSecond lookups ledger w dropped records anomalies = .ok s := by
  obtain ⟨t, ht, _⟩ := foldlM_succeeds (f := recordStep lookups dropped) (fun _ => True)
    (l := orderedRecords records) (s := anomalies.foldl (anomalyStep lookups dropped) .empty)
    trivial (by
      intro s r hr _
      obtain ⟨route, hroute⟩ := exists_route (hfail r (mem_orderedRecords.mp hr))
      exact ⟨_, map_eq_ok.mpr ⟨route, hroute, rfl⟩, trivial⟩)
  obtain ⟨hm, he, _⟩ := scanRecords_fields ht
  obtain ⟨s, hs, _⟩ := foldlM_succeeds (f := componentStep lookups dropped ledger w)
    (fun s => s.effectiveRecords = evidence lookups dropped records)
    (l := mutationComponents t.mutations) (s := t) he
    (fun s c hc hev => componentStep_ok ledger h (hm ▸ hc) hev)
  exact ⟨s, scanSecond_eq_ok.mpr ⟨t, ht, hs⟩⟩

/--
**A scoped second has a result, and its result applies.**

Whatever the records of a complete second hold, no failure of one of them escapes as an
error, and the mutations handed back apply to the ledger in every order.
-/
theorem scopedSecond_total (config : SecondConfig) (lookups : ScopeLookups)
    (ledger : PositionLedger) (w : WalletAddress) (sourceSecond : Int)
    (records : List SecondRecord) (anomalies : List ActivityRowAnomaly) (dropped : Finset Scope)
    (certified : Bool) (hdistinct : (records.map fun r => r.aggregate.groupId.key).Nodup)
    (hown : ∀ r ∈ records, ∀ m, r.mutation = .ok m →
      m.wallet = w ∧ m.sourceTradeId = r.aggregate.groupId.key)
    (hfail : ∀ r ∈ records, ∀ e, r.mutation = .error e → ∃ id, e = .invalidMapping id)
    (hanomalies : ∀ a ∈ anomalies, a.wallet = w ∧ a.sourceTime.unixTimestamp = sourceSecond) :
    ∃ r, classifyScopedSecondWithAnomalies config lookups ledger w sourceSecond records anomalies
        dropped certified = .ok r
      ∧ ∀ l, l.Perm r.apply → ∃ ledger' applied,
        ledger.applyAllOrNone l = (ledger', .ok applied) := by
  have h : CompleteRecords w records :=
    ⟨⟨hdistinct, fun r hr m hm => (hown r hr m hm).2⟩, fun r hr m hm => (hown r hr m hm).1⟩
  obtain ⟨s, hs⟩ := scanSecond_ok ledger lookups dropped anomalies h.toOwnKeys hfail
  have hvalid : orderIndependentValidity ledger w (s.applied lookups) .repaired = .ok none :=
    orderIndependentValidity_eq_none.mpr fun c hc => applied_component_passes h.toOwnKeys hs hc
  obtain ⟨⟨ledger', applied⟩, hsim⟩ := applied_simulates h hs (.refl _)
  refine ⟨_, classifyScoped_eq_ok.mpr ⟨hanomalies, s, hs, concludeSecond_eq_ok.mpr
    ⟨_, _, _, classifyCompleteSecond_of hvalid hsim, rfl⟩⟩, fun l hp => ?_⟩
  obtain ⟨⟨ledger', applied⟩, hsim⟩ := applied_simulates h hs (l := l) hp
  exact ⟨ledger', applied, by rw [PositionLedger.applyAllOrNone, hsim]⟩

/-! A second of one good purchase, one redemption of shares never held, one record that
could not be mapped and two anomalous rows, the second of no market at all. -/

def sampleAggregate (key : String) (kind : ActivityType) (condition : String) :
    ActivityAggregate :=
  ⟨⟨⟨key⟩, ⟨kind, sampleWallet, "0xabc", some ⟨condition⟩, some ⟨"7"⟩, some ⟨0⟩, none⟩⟩,
    shares 500, .zero, ⟨0⟩, false⟩

def sampleRecords : List SecondRecord :=
  [⟨sampleAggregate "g2:3" .redeem "0xb2",
      .ok (sampleMutation "g2:3" (.redeem ⟨⟨"0xb2"⟩⟩ ⟨0⟩ (shares 500)))⟩,
   ⟨sampleAggregate "g2:1" .trade "0xa1",
      .ok (sampleMutation "g2:1" (.trade ⟨⟨"0xa1"⟩⟩ ⟨0⟩ .buy (shares 500) samplePrice))⟩,
   ⟨sampleAggregate "g2:2" .trade "0xc3", .error (.invalidMapping ⟨"g2:2"⟩)⟩]

def sampleAnomalies : List ActivityRowAnomaly :=
  [⟨sampleWallet, ⟨0⟩, .conversion, some ⟨"0xd4"⟩, none, "ff"⟩,
   ⟨sampleWallet, ⟨0⟩, .trade, none, none, "ee"⟩]

def sampleLookups : ScopeLookups := ⟨fun _ => .ungrouped, fun _ => none, fun _ => false⟩

theorem sampleRecords_scoped_total :
    ∃ r, classifyScopedSecondWithAnomalies sampleConfig sampleLookups .new sampleWallet 0
        sampleRecords sampleAnomalies ∅ false = .ok r
      ∧ ∀ l, l.Perm r.apply → ∃ ledger' applied,
        PositionLedger.new.applyAllOrNone l = (ledger', .ok applied) :=
  scopedSecond_total sampleConfig sampleLookups .new sampleWallet 0 sampleRecords sampleAnomalies ∅
    false (by decide +kernel) (by simp [sampleRecords, sampleAggregate, sampleMutation])
    (by simp [sampleRecords]) (by decide +kernel)

example : (classifyScopedSecondWithAnomalies sampleConfig sampleLookups .new sampleWallet 0
    sampleRecords sampleAnomalies ∅ false).map (fun r => (r.problems, r.apply.length)) =
      .ok ([⟨⟨.market, "0xb2"⟩, .underflow, ⟨"g2:3"⟩⟩, ⟨⟨.market, "0xc3"⟩, .unmapped, ⟨"g2:2"⟩⟩,
        ⟨⟨.market, "0xd4"⟩, .unrepresentable, ⟨"activity-row-anomaly:v1:ff"⟩⟩], 1) := by
  decide +kernel

end PredictionEdge
