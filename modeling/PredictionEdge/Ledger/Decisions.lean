import PredictionEdge.Ledger.Entries

/-!
# Decisions in every order

Settling entries reads no indices, so it reads no order. A second that is proved
order-independent is so in every order of its mutations, decides every trade the same
way and records the same first entries.
-/

namespace PredictionEdge

open Lib

variable {config : SecondConfig} {ledger : PositionLedger} {w : WalletAddress}
  {l l' ms ms' : List LedgerMutation} {D D' : List TradeDecision}

/-! ## The decisions of a batch -/

variable {d : TradeDecision}

theorem tradeDecision_sourceTradeId {m : LedgerMutation}
    (h : tradeDecision config ledger w ms m = some d) : d.sourceTradeId = m.sourceTradeId := by
  unfold tradeDecision at h
  split at h
  · simp only [Option.some.injEq] at h
    rw [← h]
  · simp at h

theorem openDecisions_nodup (config : SecondConfig) (ledger : PositionLedger)
    (w : WalletAddress) (h : DistinctIds l) :
    ((openDecisions config ledger w l).map TradeDecision.sourceTradeId).Nodup :=
  (map_filterMap_sublist fun _ _ _ => tradeDecision_sourceTradeId).nodup h

theorem tradeDecision_perm (hp : ms'.Perm ms) :
    tradeDecision config ledger w ms' = tradeDecision config ledger w ms := by
  have hcount : touchedCount ms' = touchedCount ms := by
    funext k
    exact (hp.flatMap_right LedgerMutation.touchedKeys).count_eq k
  funext m
  simp only [tradeDecision, hcount]

theorem openDecisions_perm (config : SecondConfig) (ledger : PositionLedger)
    (w : WalletAddress) (hp : l'.Perm l) :
    (openDecisions config ledger w l').Perm (openDecisions config ledger w l) := by
  rw [openDecisions, tradeDecision_perm hp]
  exact hp.filterMap _

/-! ## Settling does not see the order -/

theorem onlyPurchases_iff {market : MarketId} : onlyPurchases w ms market = true ↔
    ∀ m ∈ ms, m.wallet = w ∧ (∀ m' ∈ ms, m.sourceTime = m'.sourceTime)
      ∧ (m.touchedKeys.any (fun k => k.market = market) = false ∨ m.effect.isBuyTrade = true) := by
  unfold onlyPurchases
  cases ms with
  | nil => simp
  | cons first rest =>
    simp only [List.all_eq_true, Bool.and_eq_true, decide_eq_true_eq, List.head?_cons,
      Option.any_some, Bool.or_eq_true, Bool.not_eq_true', and_assoc]
    constructor
    · intro h m hm
      obtain ⟨h1, h2, h3⟩ := h m hm
      exact ⟨h1, fun m' hm' => h2.trans (h m' hm').2.1.symm, h3⟩
    · intro h m hm
      obtain ⟨h1, h2, h3⟩ := h m hm
      exact ⟨h1, h2 first List.mem_cons_self, h3⟩

theorem onlyPurchases_perm (hp : ms'.Perm ms) (market : MarketId) :
    onlyPurchases w ms' market = onlyPurchases w ms market := by
  rw [Bool.eq_iff_iff, onlyPurchases_iff, onlyPurchases_iff]
  simp only [hp.mem_iff]

theorem all_perm {α : Type} {a b : List α} (hp : a.Perm b) (p : α → Bool) : a.all p = b.all p := by
  rw [Bool.eq_iff_iff, List.all_eq_true, List.all_eq_true]
  simp only [hp.mem_iff]

theorem settled_perm (hm : ms'.Perm ms) (hD : D'.Perm D) :
    settled config w ms' D' = settled config w ms D := by
  funext d
  have hcand : (marketCandidates D' d.marketId).Perm (marketCandidates D d.marketId) :=
    hD.filter _
  simp only [settled, poolsPieces, isFirst, onlyPurchases_perm hm, all_perm hD, all_perm hcand,
    hcand.length_eq]

theorem minBy_perm {α : Type} {f : α → String} (hf : ∀ a b, f a = f b → a = b) {a b : List α}
    (hp : a.Perm b) : minBy f a = minBy f b := by
  by_cases ha : a = []
  · subst ha
    rw [hp.symm.eq_nil]
  · have hb : b ≠ [] := fun h => ha (by rw [h] at hp; exact hp.eq_nil)
    obtain ⟨x, hx⟩ := minBy_isSome (f := f) ha
    obtain ⟨y, hy⟩ := minBy_isSome (f := f) hb
    obtain ⟨hxm, hxle⟩ := minBy_spec hx
    obtain ⟨hym, hyle⟩ := minBy_spec hy
    rw [hx, hy, hf x y (String.le_antisymm (hxle y (hp.mem_iff.mpr hym))
      (hyle x (hp.mem_iff.mp hxm)))]

/-- The identifiers read back through a market's group are those of its candidates. -/
theorem ids_marketGroup (D : List TradeDecision) (market : MarketId) :
    (marketGroup D market).2.filterMap (fun i => (D[i]?).map (·.sourceTradeId))
      = (marketCandidates D market).map (·.sourceTradeId) := by
  rw [marketGroup, ← map_fst_candidatesAt, List.filterMap_map, List.map_map]
  have hsome : ∀ p ∈ candidatesAt D market.text,
      ((fun i => (D[i]?).map (·.sourceTradeId)) ∘ Prod.snd) p
        = some (((·.sourceTradeId) ∘ Prod.fst) p) := by
    rintro ⟨d, i⟩ hp
    simp only [Function.comp_apply, (mem_candidatesAt.mp hp).1, Option.map_some]
  rw [List.filterMap_congr hsome]
  exact congrFun List.filterMap_eq_map' _

/-- A market's first entry, from its candidates alone. -/
def marketFirstEntry (config : SecondConfig) (D : List TradeDecision) (market : MarketId) :
    Option (MarketId × SourceTradeId) :=
  if config.hasMarket market then none
  else (minBy SourceTradeId.val ((marketCandidates D market).map (·.sourceTradeId))).map
    fun id => (market, id)

theorem groupFirstEntry_marketGroup (config : SecondConfig) (D : List TradeDecision)
    (market : MarketId) :
    groupFirstEntry config D (marketGroup D market) = marketFirstEntry config D market := by
  rw [groupFirstEntry, ids_marketGroup, marketFirstEntry]
  rfl

theorem mem_firstEntriesOf {e : MarketId × SourceTradeId} : e ∈ firstEntriesOf config D ↔
    ∃ d ∈ D, d.isCandidate = true ∧ marketFirstEntry config D d.marketId = some e := by
  simp only [firstEntriesOf, List.mem_filterMap]
  constructor
  · rintro ⟨g, hg, he⟩
    obtain ⟨d, hd, hc, rfl⟩ := mem_groups.mp hg
    exact ⟨d, hd, hc, by rwa [groupFirstEntry_marketGroup] at he⟩
  · rintro ⟨d, hd, hc, he⟩
    exact ⟨_, mem_groups.mpr ⟨d, hd, hc, rfl⟩, by rwa [groupFirstEntry_marketGroup]⟩

theorem firstEntriesOf_perm (hD : D'.Perm D) :
    firstEntriesOf config D' = firstEntriesOf config D := by
  have hval : ∀ D : List TradeDecision, firstEntriesOf config D
      = intoValues ((candidateGroups D).filterMap fun _ g => groupFirstEntry config D g) := by
    intro D
    rw [intoValues_filterMap, firstEntriesOf, intoValues, List.filterMap_map]
    rfl
  have hfirst : ∀ market, marketFirstEntry config D' market = marketFirstEntry config D market := by
    intro market
    have hids : ((marketCandidates D' market).map (·.sourceTradeId)).Perm
        ((marketCandidates D market).map (·.sourceTradeId)) := (hD.filter _).map _
    rw [marketFirstEntry, marketFirstEntry,
      minBy_perm (fun _ _ => SourceTradeId.val_injective) hids]
  rw [hval, hval]
  refine congrArg intoValues (Std.ExtTreeMap.ext_getElem? fun text => ?_)
  rw [Std.ExtTreeMap.getElem?_filterMap', Std.ExtTreeMap.getElem?_filterMap']
  -- under a market's text either list has that market's group, or neither has any
  by_cases h : ∃ d ∈ D, d.isCandidate = true ∧ d.marketId.text = text
  · obtain ⟨d, hd, hc, ht⟩ := h
    rw [getElem?_candidateGroups_eq_some.mpr ⟨d, hD.mem_iff.mpr hd, hc, ht, rfl⟩,
      getElem?_candidateGroups_eq_some.mpr ⟨d, hd, hc, ht, rfl⟩]
    simp only [Option.bind_some, groupFirstEntry_marketGroup, hfirst]
  · have hnone : ∀ E : List TradeDecision, E.Perm D → (candidateGroups E)[text]? = none := by
      intro E hE
      cases hg : (candidateGroups E)[text]? with
      | none => rfl
      | some g =>
        obtain ⟨d, hd, hc, ht, _⟩ := getElem?_candidateGroups_eq_some.mp hg
        exact absurd ⟨d, hE.mem_iff.mp hd, hc, ht⟩ h
    rw [hnone D' hD, hnone D (.refl D)]
    rfl

/-! ## The verdict in every order -/

theorem orderIndependentValidity_perm (hp : l'.Perm l)
    (h : orderIndependentValidity ledger w l .repaired = .ok none) :
    orderIndependentValidity ledger w l' .repaired = .ok none := by
  rw [orderIndependentValidity_eq_none] at h ⊢
  intro c' hc'
  obtain ⟨c, hc, hcp⟩ := components_perm hp hc'
  exact componentOrderIndependent_perm hcp (h c hc)

/--
**Decisions do not depend on the order.**

If a second is proved order-independent in one order, then it is in every order, with
the same decision on every trade and the same first entries.
-/
theorem orderIndependent_decisions_perm (config : SecondConfig) (ledger : PositionLedger)
    (w : WalletAddress) (l : List LedgerMutation) (hw : ∀ m ∈ l, m.wallet = w)
    (hid : DistinctIds l) (applied : List AppliedEffect) (decisions : List TradeDecision)
    (firstEntries : List (MarketId × SourceTradeId))
    (h : classifyCompleteSecond config ledger w l
      = .ok (.orderIndependent applied decisions firstEntries)) :
    ∀ l', l'.Perm l → ∃ applied' decisions',
      classifyCompleteSecond config ledger w l'
        = .ok (.orderIndependent applied' decisions' firstEntries)
        ∧ decisions'.Perm decisions := by
  intro l' hp
  obtain ⟨hv, _, hset⟩ := classifyCompleteSecond_inv h
  obtain ⟨s, os, hr, _⟩ := batch_run hw (fun c hc => (componentOrderIndependent_ok_true_iff.mp
    (orderIndependentValidity_eq_none.mp hv c hc)).1) hp
  have hs : ledger.simulateAllOrNone l' = .ok (s.ledger, os.map Prod.snd) :=
    (simulateAllOrNone_ok_iff fun m hm => hw m (hp.mem_iff.mp hm)).mpr ⟨s, os, hr, rfl, rfl⟩
  have hD := openDecisions_perm config ledger w hp
  rw [settleEntries_eq config w l (openDecisions_nodup config ledger w hid), Prod.mk.injEq] at hset
  have hset' := settleEntries_eq config w l'
    (openDecisions_nodup config ledger w (hid.perm hp))
  refine ⟨os.map Prod.snd, (openDecisions config ledger w l').map
    (settled config w l' (openDecisions config ledger w l')), ?_, ?_⟩
  · rw [classifyCompleteSecond_of (orderIndependentValidity_perm hp hv) hs, hset',
      firstEntriesOf_perm hD, hset.2]
  · rw [← hset.1, settled_perm hp hD]
    exact hD.map _

theorem sampleSecond_decisions_perm :
    ∃ applied' decisions',
      classifyCompleteSecond sampleConfig .new sampleWallet sampleSecond.reverse
        = .ok (.orderIndependent applied' decisions' [(⟨⟨"0xa1"⟩⟩, ⟨"g2:1"⟩)])
        ∧ decisions'.Perm sampleDecisions :=
  orderIndependent_decisions_perm sampleConfig .new sampleWallet sampleSecond (by decide +kernel)
    (by unfold DistinctIds; decide +kernel) (sampleSecond.map fun m => ⟨m.effect, none⟩)
    sampleDecisions [(⟨⟨"0xa1"⟩⟩, ⟨"g2:1"⟩)] (by decide +kernel) sampleSecond.reverse
    sampleSecond.reverse_perm

/-! ## One second's admissions -/

theorem groupEntry_eq_admitted {count : Nat} {pools : Bool}
    (h : groupEntry config count pools = .admitted) :
    config.historyComplete = true ∧ (count < 2 ∨ pools = true) := by
  unfold groupEntry at h
  split at h
  · simp at h
  · rename_i hc
    split at h
    · simp at h
    · rename_i hn
      refine ⟨by simpa using hc, ?_⟩
      by_cases hlt : count < 2
      · exact Or.inl hlt
      · refine Or.inr ?_
        by_contra hp
        exact hn ⟨by omega, hp⟩

/-- What an admission says: an opening buy, the first of its market, with a full history. -/
theorem settled_admitted (hd : d ∈ D) (h : (settled config w ms D d).entry = .admitted) :
    d.isCandidate = true ∧ config.hasMarket d.marketId = false ∧ config.historyComplete = true
      ∧ isFirst D d = true := by
  unfold settled at h
  split at h
  · exfalso
    unfold TradeDecision.withInitialEntry at h
    split at h <;> exact absurd h (by simp)
  · rename_i hcand
    have hcand' : d.isCandidate = true := by simpa using hcand
    split at h
    · simp at h
    · rename_i hm
      refine ⟨hcand', by simpa using hm, ?_⟩
      simp only [settleCandidate] at h
      split at h
      · rename_i hp
        have hg := groupEntry_eq_admitted hp.2
        split at h
        · rename_i hf; exact ⟨hg.1, hf⟩
        · simp at h
      · rename_i hp
        have hg := groupEntry_eq_admitted h
        refine ⟨hg.1, ?_⟩
        rcases hg.2 with hlt | hpool
        · -- alone in its market, it is the first
          have hmem : d ∈ marketCandidates D d.marketId := by
            rw [marketCandidates, List.mem_filter]
            exact ⟨hd, by simp [hcand']⟩
          have hone : ∀ e ∈ marketCandidates D d.marketId, e = d := by
            obtain ⟨x, hx⟩ := List.length_eq_one_iff.mp
              (Nat.le_antisymm (Nat.le_of_lt_succ hlt) (List.length_pos_of_mem hmem))
            rw [hx, List.mem_singleton] at hmem
            intro e he
            rw [hx, List.mem_singleton] at he
            rw [he, hmem]
          rw [isFirst, List.all_eq_true]
          intro e he
          rw [hone e he]
          simp
        · exact absurd ⟨hpool, h⟩ hp

/-- Settling keeps what a trade is. -/
theorem settled_keeps (config : SecondConfig) (w : WalletAddress) (ms : List LedgerMutation)
    (D : List TradeDecision) (d : TradeDecision) :
    (settled config w ms D d).side = d.side ∧ (settled config w ms D d).action = d.action
      ∧ (settled config w ms D d).marketId = d.marketId
      ∧ (settled config w ms D d).sourceTradeId = d.sourceTradeId := by
  unfold settled
  split
  · unfold TradeDecision.withInitialEntry
    split <;> exact ⟨rfl, rfl, rfl, rfl⟩
  · split
    · exact ⟨rfl, rfl, rfl, rfl⟩
    · simp only [settleCandidate]
      split
      · split <;> exact ⟨rfl, rfl, rfl, rfl⟩
      · exact ⟨rfl, rfl, rfl, rfl⟩

theorem isFirst_unique {e : TradeDecision} (hd : d ∈ D) (he : e ∈ D) (hdc : d.isCandidate = true)
    (hec : e.isCandidate = true) (hm : d.marketId = e.marketId) (hdf : isFirst D d = true)
    (hef : isFirst D e = true) : d.sourceTradeId = e.sourceTradeId := by
  simp only [isFirst, List.all_eq_true, marketCandidates, List.mem_filter, Bool.and_eq_true,
    decide_eq_true_eq] at hdf hef
  exact SourceTradeId.val_injective (String.le_antisymm (hdf e ⟨he, hec, hm.symm⟩)
    (hef d ⟨hd, hdc, hm⟩))

/-- The first candidate of a market is its recorded first entry. -/
theorem isFirst_mem_firstEntries (hd : d ∈ D) (hc : d.isCandidate = true)
    (hm : config.hasMarket d.marketId = false) (hf : isFirst D d = true) :
    (d.marketId, d.sourceTradeId) ∈ firstEntriesOf config D := by
  refine mem_firstEntriesOf.mpr ⟨d, hd, hc, ?_⟩
  have hdm : d ∈ marketCandidates D d.marketId := by
    rw [marketCandidates, List.mem_filter]; exact ⟨hd, by simp [hc]⟩
  have hidm : d.sourceTradeId ∈ (marketCandidates D d.marketId).map (·.sourceTradeId) :=
    List.mem_map.mpr ⟨d, hdm, rfl⟩
  obtain ⟨i, hi⟩ := minBy_isSome (f := SourceTradeId.val) (List.ne_nil_of_mem hidm)
  obtain ⟨him, hle⟩ := minBy_spec hi
  obtain ⟨e, hem, rfl⟩ := List.mem_map.mp him
  rw [isFirst, List.all_eq_true] at hf
  have h1 : d.sourceTradeId.val ≤ e.sourceTradeId.val := by simpa using hf e hem
  have heq : e.sourceTradeId = d.sourceTradeId :=
    SourceTradeId.val_injective (String.le_antisymm (hle _ hidm) h1)
  rw [marketFirstEntry, hm, hi, heq]
  rfl

end PredictionEdge
