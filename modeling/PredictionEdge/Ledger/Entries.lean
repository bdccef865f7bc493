import PredictionEdge.Ledger.OrderProof

/-!
# First entries

The classifier groups the opening buys of a second by market, settles each group and
writes the outcome back by index. This file says what comes out without the indices:
a decision's entry depends on the decision, on the other decisions in its market and on
the batch, and on none of their places (`settleEntries_eq`).
-/

namespace PredictionEdge

open Lib TradeDecision

variable {config : SecondConfig} {w : WalletAddress} {ms : List LedgerMutation}

/-! ## The least of a list -/

variable {α : Type}

theorem foldl_min_spec (f : α → String) : ∀ (xs : List α) (x : α),
    xs.foldl (fun a b => if f b < f a then b else a) x ∈ x :: xs
      ∧ ∀ y ∈ x :: xs, f (xs.foldl (fun a b => if f b < f a then b else a) x) ≤ f y
  | [], x => by simp
  | z :: xs, x => by
    rw [List.foldl_cons]
    obtain ⟨hm, hle⟩ := foldl_min_spec f xs (if f z < f x then z else x)
    constructor
    · rcases List.mem_cons.mp hm with h | h
      · rw [h]; split <;> simp
      · exact List.mem_cons_of_mem _ (List.mem_cons_of_mem _ h)
    · have hhead := hle _ List.mem_cons_self
      intro y hy
      rcases List.mem_cons.mp hy with rfl | hy
      · refine String.le_trans hhead ?_
        split
        · rename_i h; exact Std.le_of_lt h
        · exact String.le_refl _
      · rcases List.mem_cons.mp hy with rfl | hy
        · refine String.le_trans hhead ?_
          split
          · exact String.le_refl _
          · rename_i h; exact String.not_lt.mp h
        · exact hle y (List.mem_cons_of_mem _ hy)

/-- The chosen element is in the list and none has a smaller text. -/
theorem minBy_spec {f : α → String} {l : List α} {a : α} (h : minBy f l = some a) :
    a ∈ l ∧ ∀ y ∈ l, f a ≤ f y := by
  cases l with
  | nil => simp [minBy] at h
  | cons x xs =>
    simp only [minBy, Option.some.injEq] at h
    rw [← h]
    exact foldl_min_spec f xs x

theorem minBy_isSome {f : α → String} {l : List α} (h : l ≠ []) : ∃ a, minBy f l = some a := by
  cases l with
  | nil => exact absurd rfl h
  | cons x xs => exact ⟨_, rfl⟩

/-! ## What settling reads of a decision -/

/-- A decision without what settling writes. -/
def TradeDecision.strip (d : TradeDecision) : TradeDecision :=
  { d with actionOrderDependent := false, entry := .notAnEntry }

theorem strip_withInitialEntry (d : TradeDecision) : d.withInitialEntry.strip = d.strip := by
  unfold withInitialEntry
  split <;> rfl

variable {ds ds' : List TradeDecision} {g : MarketId × List Nat} {i : Nat}

theorem idAt_strip (ds : List TradeDecision) : idAt (ds.map strip) = idAt ds := by
  funext i
  rw [idAt, List.getElem?_map, Option.map_map]
  rfl

/-- What the homogeneity of a market asks of its decisions. -/
def sameOpening (market : MarketId) (outcome : OutcomeId) (d : TradeDecision) : Bool :=
  !decide (d.marketId = market) || (d.isCandidate && decide (d.outcomeId = outcome))

theorem isHomogeneous_eq (w : WalletAddress) (ms : List LedgerMutation)
    (ds : List TradeDecision) (market : MarketId) (representative : Option Nat) :
    isHomogeneous w ms ds market representative =
      (((representative.bind (ds[·]?)).map outcomeId).any (fun outcome =>
        ds.all (sameOpening market outcome)) &&
      ms.all fun m => decide (m.wallet = w) &&
        ms.head?.any (fun first => m.sourceTime = first.sourceTime) &&
        (!m.touchedKeys.any (fun k => k.market = market) || m.effect.isBuyTrade)) := by
  unfold isHomogeneous
  congr 1
  cases representative.bind (ds[·]?) with
  | none => rfl
  | some first =>
    simp only [Option.any_some, Option.map_some]
    rw [Bool.eq_iff_iff, List.all_eq_true, List.all_eq_true]
    simp only [List.mem_filter, decide_eq_true_eq, sameOpening, isCandidate,
      Bool.or_eq_true, Bool.not_eq_true', decide_eq_false_iff_not, Bool.and_eq_true]
    constructor
    · intro h d hd
      by_cases hm : d.marketId = market
      · obtain ⟨h1, h2, h3⟩ := h d ⟨hd, hm⟩
        exact Or.inr ⟨⟨h1, h2⟩, h3⟩
      · exact Or.inl hm
    · rintro h d ⟨hd, hm⟩
      rcases h d hd with h' | ⟨⟨h1, h2⟩, h3⟩
      · exact absurd hm h'
      · exact ⟨h1, h2, h3⟩

theorem isHomogeneous_strip (ds : List TradeDecision) :
    isHomogeneous w ms (ds.map strip) = isHomogeneous w ms ds := by
  funext market representative
  have hout : (representative.bind ((ds.map strip)[·]?)).map outcomeId
      = (representative.bind (ds[·]?)).map outcomeId := by
    cases representative with
    | none => rfl
    | some i =>
      rw [Option.bind_some, List.getElem?_map, Option.map_map]
      rfl
  simp only [isHomogeneous_eq, hout, List.all_map]
  rfl

/-! ## Settling one market -/

/-- The settled form of the candidate in place `i` of a market's group. -/
def ruling (config : SecondConfig) (w : WalletAddress) (ms : List LedgerMutation)
    (ds : List TradeDecision) (group : MarketId × List Nat) (i : Nat) (d : TradeDecision) :
    TradeDecision :=
  if config.hasMarket group.1 then { d with entry := .notFirstEntry }
  else
    let representative := minBy (idAt ds) group.2
    let homogeneous := decide (config.entryPolicy = .homogeneousPieces) &&
      isHomogeneous w ms ds group.1 representative
    settleCandidate homogeneous (groupEntry config group.2.length homogeneous)
      (some i = representative) d

/-- The first entry a market's group records. -/
def groupFirstEntry (config : SecondConfig) (ds : List TradeDecision)
    (group : MarketId × List Nat) : Option (MarketId × SourceTradeId) :=
  if config.hasMarket group.1 then none
  else (minBy SourceTradeId.val
    (group.2.filterMap fun i => (ds[i]?).map (·.sourceTradeId))).map fun id => (group.1, id)

theorem strip_ruling (ds : List TradeDecision) (g : MarketId × List Nat) (i : Nat)
    (d : TradeDecision) : (ruling config w ms ds g i d).strip = d.strip := by
  unfold ruling
  split
  · rfl
  · simp only [settleCandidate]
    split
    · split <;> rfl
    · rfl

theorem ruling_strip (h : ds.map strip = ds'.map strip) :
    ruling config w ms ds = ruling config w ms ds' := by
  have hi : ∀ l, ruling config w ms (l.map strip) = ruling config w ms l := by
    intro l
    funext g i d
    simp only [ruling, idAt_strip, isHomogeneous_strip]
  rw [← hi ds, h, hi]

theorem groupFirstEntry_strip (h : ds.map strip = ds'.map strip) :
    groupFirstEntry config ds = groupFirstEntry config ds' := by
  have hi : ∀ l, groupFirstEntry config (l.map strip) = groupFirstEntry config l := by
    intro l
    funext g
    simp only [groupFirstEntry, List.getElem?_map, Option.map_map]
    rfl
  rw [← hi ds, h, hi]

/-- Writing through distinct indices changes each of those places once. -/
theorem getElem?_foldl_modify (f : Nat → α → α) : ∀ (is : List Nat) (ds : List α)
    (j : Nat), is.Nodup → (is.foldl (fun ds i => ds.modify i (f i)) ds)[j]?
      = (ds[j]?).map fun d => if j ∈ is then f j d else d
  | [], ds, j, _ => by simp
  | i :: is, ds, j, h => by
    rw [List.nodup_cons] at h
    rw [List.foldl_cons, getElem?_foldl_modify f is _ j h.2, List.getElem?_modify]
    cases ds[j]? with
    | none => rfl
    | some d =>
      by_cases hij : i = j
      · subst hij
        simp [h.1]
      · have hji : j ≠ i := fun he => hij he.symm
        simp [hij, hji]

theorem settleMarket_eq (config : SecondConfig) (w : WalletAddress) (ms : List LedgerMutation)
    (ds : List TradeDecision) (fe : List (MarketId × SourceTradeId)) (hg : g.2.Nodup) :
    (∀ j, (settleMarket config w ms (ds, fe) g).1[j]?
        = (ds[j]?).map fun d => if j ∈ g.2 then ruling config w ms ds g j d else d)
      ∧ (settleMarket config w ms (ds, fe) g).2
        = fe ++ (groupFirstEntry config ds g).toList := by
  obtain ⟨market, indices⟩ := g
  by_cases hm : config.hasMarket market
  · simp only [settleMarket, ruling, groupFirstEntry, hm, if_true]
    exact ⟨fun j => getElem?_foldl_modify _ _ _ _ hg, by simp⟩
  · simp only [settleMarket, ruling, groupFirstEntry, hm]
    exact ⟨fun j => getElem?_foldl_modify _ _ _ _ hg, rfl⟩

theorem map_strip_of_getElem? {f : Nat → TradeDecision → TradeDecision}
    (h : ∀ j, ds'[j]? = (ds[j]?).map (f j)) (hf : ∀ j d, (f j d).strip = d.strip) :
    ds'.map strip = ds.map strip := by
  refine List.ext_getElem? fun j => ?_
  rw [List.getElem?_map, List.getElem?_map, h, Option.map_map]
  congr 1
  funext d
  exact hf j d

variable {D : List TradeDecision} {d : TradeDecision}

/--
**Settling all markets settles each place by its own group.**

The groups share no index and settling reads nothing that settling writes, so each
group can be judged against the decisions as they were at the start.
-/
theorem settleMarkets_eq (config : SecondConfig) (w : WalletAddress) (ms : List LedgerMutation) :
    ∀ (gs : List (MarketId × List Nat))
    (ds : List TradeDecision) (fe : List (MarketId × SourceTradeId)),
    (∀ g ∈ gs, g.2.Nodup) → gs.Pairwise (fun g g' => ∀ i ∈ g.2, i ∉ g'.2) →
    ds.map strip = D.map strip →
    (∀ j, (gs.foldl (settleMarket config w ms) (ds, fe)).1[j]? = (ds[j]?).map fun d =>
        match gs.find? (fun g => j ∈ g.2) with
        | some g => ruling config w ms D g j d
        | none => d)
      ∧ (gs.foldl (settleMarket config w ms) (ds, fe)).2
        = fe ++ gs.filterMap (groupFirstEntry config D)
  | [], ds, fe, _, _, _ => by simp
  | g :: gs, ds, fe, hn, hd, hs => by
    rw [List.pairwise_cons] at hd
    obtain ⟨h1, h2⟩ := settleMarket_eq config w ms ds fe (hn g List.mem_cons_self)
    rw [List.foldl_cons]
    generalize settleMarket config w ms (ds, fe) g = st at h1 h2 ⊢
    obtain ⟨ds1, fe1⟩ := st
    simp only at h1 h2
    have hs1 : ds1.map strip = D.map strip := by
      refine (map_strip_of_getElem? h1 fun j d => ?_).trans hs
      split
      · exact strip_ruling _ _ _ _
      · rfl
    obtain ⟨ih1, ih2⟩ := settleMarkets_eq config w ms gs ds1 fe1
      (fun x hx => hn x (List.mem_cons_of_mem _ hx)) hd.2 hs1
    constructor
    · intro j
      rw [ih1, h1, Option.map_map]
      congr 1
      funext d
      simp only [Function.comp_apply]
      by_cases hj : j ∈ g.2
      · -- no later group holds the place
        have hnone : gs.find? (fun g => decide (j ∈ g.2)) = none :=
          List.find?_eq_none.mpr fun g' hg' => by simpa using hd.1 g' hg' j hj
        rw [List.find?_cons_of_pos (by simpa using hj), hnone, if_pos hj, ruling_strip hs]
      · rw [List.find?_cons_of_neg (by simpa using hj), if_neg hj]
    · rw [ih2, h2, groupFirstEntry_strip hs, List.filterMap_cons, List.append_assoc]
      cases groupFirstEntry config D g <;> rfl

/-! ## The groups -/

/-- The candidates of one market, with their places. -/
def candidatesAt (D : List TradeDecision) (text : String) : List (TradeDecision × Nat) :=
  (D.zipIdx.filter fun p => p.1.isCandidate).filter fun p => p.1.marketId.text = text

theorem foldl_pushCandidate : ∀ (ps : List (TradeDecision × Nat)) (market : MarketId)
    (is : List Nat),
    ps.foldl (fun o p => some (pushCandidate p o)) (some (market, is))
      = some (market, is ++ ps.map Prod.snd)
  | [], market, is => by simp
  | p :: ps, market, is => by
    rw [List.foldl_cons, pushCandidate, foldl_pushCandidate ps, List.map_cons,
      List.append_assoc]
    rfl

theorem getElem?_candidateGroups (D : List TradeDecision) (text : String) :
    (candidateGroups D)[text]? = (candidatesAt D text).head?.map fun p =>
      (p.1.marketId, (candidatesAt D text).map Prod.snd) := by
  rw [candidateGroups, getElem?_foldInto]
  change (candidatesAt D text).foldl _ none = _
  cases candidatesAt D text with
  | nil => rfl
  | cons p ps =>
    rw [List.foldl_cons, pushCandidate, foldl_pushCandidate]
    rfl

theorem mem_candidatesAt {text : String} :
    (d, i) ∈ candidatesAt D text ↔
      D[i]? = some d ∧ d.isCandidate = true ∧ d.marketId.text = text := by
  simp only [candidatesAt, List.mem_filter, List.mem_zipIdx_iff_getElem?, decide_eq_true_eq,
    and_assoc]

/-- The group of a market: its candidates' places. -/
def marketGroup (D : List TradeDecision) (market : MarketId) : MarketId × List Nat :=
  (market, (candidatesAt D market.text).map Prod.snd)

theorem mem_marketGroup {market : MarketId} :
    i ∈ (marketGroup D market).2 ↔
      ∃ d, D[i]? = some d ∧ d.isCandidate = true ∧ d.marketId = market := by
  simp only [marketGroup, List.mem_map, Prod.exists, exists_eq_right, mem_candidatesAt]
  constructor
  · rintro ⟨d, h1, h2, h3⟩; exact ⟨d, h1, h2, MarketId.text_injective h3⟩
  · rintro ⟨d, h1, h2, rfl⟩; exact ⟨d, h1, h2, rfl⟩

/-- The groups are those of the markets with candidates. -/
theorem getElem?_candidateGroups_eq_some {text : String} :
    (candidateGroups D)[text]? = some g ↔
      ∃ d ∈ D, d.isCandidate = true ∧ d.marketId.text = text ∧ g = marketGroup D d.marketId := by
  rw [getElem?_candidateGroups]
  constructor
  · intro h
    obtain ⟨⟨d, i⟩, hp, hg⟩ := Option.map_eq_some_iff.mp h
    obtain ⟨h1, h2, h3⟩ := mem_candidatesAt.mp (List.mem_of_mem_head? hp)
    exact ⟨d, List.mem_of_getElem? h1, h2, h3, by rw [← hg, marketGroup, h3]⟩
  · rintro ⟨d, hd, h2, rfl, rfl⟩
    obtain ⟨i, hi⟩ := List.getElem?_of_mem hd
    have hm : (d, i) ∈ candidatesAt D d.marketId.text := mem_candidatesAt.mpr ⟨hi, h2, rfl⟩
    cases hc : candidatesAt D d.marketId.text with
    | nil => rw [hc] at hm; simp at hm
    | cons p ps =>
      obtain ⟨e, j⟩ := p
      have hp : (e, j) ∈ candidatesAt D d.marketId.text := by rw [hc]; exact List.mem_cons_self
      obtain ⟨_, _, h3⟩ := mem_candidatesAt.mp hp
      rw [List.head?_cons, Option.map_some, MarketId.text_injective h3, marketGroup, hc]

theorem mem_groups :
    g ∈ intoValues (candidateGroups D) ↔
      ∃ d ∈ D, d.isCandidate = true ∧ g = marketGroup D d.marketId := by
  rw [mem_intoValues]
  constructor
  · rintro ⟨text, h⟩
    obtain ⟨d, hd, h2, _, rfl⟩ := getElem?_candidateGroups_eq_some.mp h
    exact ⟨d, hd, h2, rfl⟩
  · rintro ⟨d, hd, h2, rfl⟩
    exact ⟨d.marketId.text, getElem?_candidateGroups_eq_some.mpr ⟨d, hd, h2, rfl, rfl⟩⟩

theorem groups_nodup : ∀ g ∈ intoValues (candidateGroups D), g.2.Nodup := by
  intro g hg
  obtain ⟨d, _, _, rfl⟩ := mem_groups.mp hg
  have hsub : ((candidatesAt D d.marketId.text).map Prod.snd).Sublist
      (D.zipIdx.map Prod.snd) :=
    (List.filter_sublist.trans List.filter_sublist).map Prod.snd
  refine hsub.nodup ?_
  rw [List.zipIdx_map_snd]
  exact List.nodup_range'

theorem groups_disjoint :
    (intoValues (candidateGroups D)).Pairwise fun g g' => ∀ i ∈ g.2, i ∉ g'.2 := by
  refine pairwise_intoValues fun t t' g g' hne hg hg' i hi hi' => hne ?_
  obtain ⟨d, _, _, rfl, rfl⟩ := getElem?_candidateGroups_eq_some.mp hg
  obtain ⟨d', _, _, rfl, rfl⟩ := getElem?_candidateGroups_eq_some.mp hg'
  obtain ⟨x, hx, _, hxm⟩ := mem_marketGroup.mp hi
  obtain ⟨y, hy, _, hym⟩ := mem_marketGroup.mp hi'
  rw [hx, Option.some.injEq] at hy
  rw [← hxm, ← hym, hy]

/-- A place is in the group of its market if it holds a candidate, and in no group if not. -/
theorem find?_group (hi : D[i]? = some d) :
    (intoValues (candidateGroups D)).find? (fun g => i ∈ g.2) =
      if d.isCandidate then some (marketGroup D d.marketId) else none := by
  have huniq : ∀ g ∈ intoValues (candidateGroups D), i ∈ g.2 →
      d.isCandidate = true ∧ g = marketGroup D d.marketId := by
    intro g hg hig
    obtain ⟨e, _, _, rfl⟩ := mem_groups.mp hg
    obtain ⟨x, hx, hc, hm⟩ := mem_marketGroup.mp hig
    rw [hi, Option.some.injEq] at hx
    subst hx
    exact ⟨hc, by rw [hm]⟩
  split
  · rename_i hc
    have hmem : marketGroup D d.marketId ∈ intoValues (candidateGroups D) :=
      mem_groups.mpr ⟨d, List.mem_of_getElem? hi, hc, rfl⟩
    cases hf : (intoValues (candidateGroups D)).find? (fun g => decide (i ∈ g.2)) with
    | none =>
      have := List.find?_eq_none.mp hf _ hmem
      exact absurd (mem_marketGroup.mpr ⟨d, hi, hc, rfl⟩) (by simpa using this)
    | some g =>
      have hg := huniq g (List.mem_of_find?_eq_some hf) (by simpa using List.find?_some hf)
      rw [hg.2]
  · rename_i hc
    refine List.find?_eq_none.mpr fun g hg hig => hc ?_
    exact (huniq g hg (by simpa using hig)).1

/-! ## Settling without indices -/

/-- The candidates of a market. -/
def marketCandidates (D : List TradeDecision) (market : MarketId) : List TradeDecision :=
  D.filter fun e => e.isCandidate && decide (e.marketId = market)

theorem map_fst_candidatesAt (D : List TradeDecision) (market : MarketId) :
    (candidatesAt D market.text).map Prod.fst = marketCandidates D market := by
  have hf : candidatesAt D market.text
      = D.zipIdx.filter ((fun e => e.isCandidate && decide (e.marketId = market)) ∘ Prod.fst) := by
    rw [candidatesAt, List.filter_filter]
    refine List.filter_congr fun p _ => ?_
    have ht : p.1.marketId.text = market.text ↔ p.1.marketId = market :=
      ⟨MarketId.text_injective, fun h => by rw [h]⟩
    simp only [Function.comp_apply, decide_eq_decide.mpr ht, Bool.and_comm]
  rw [hf, ← List.filter_map, List.zipIdx_map_fst, marketCandidates]

/-- One wallet, one time, and nothing but purchases in the market. -/
def onlyPurchases (w : WalletAddress) (ms : List LedgerMutation) (market : MarketId) : Bool :=
  ms.all fun m => decide (m.wallet = w) &&
    ms.head?.any (fun first => m.sourceTime = first.sourceTime) &&
    (!m.touchedKeys.any (fun k => k.market = market) || m.effect.isBuyTrade)

/-- The market's trades are opening buys of one outcome, and the policy pools such pieces. -/
def poolsPieces (config : SecondConfig) (w : WalletAddress) (ms : List LedgerMutation)
    (D : List TradeDecision) (d : TradeDecision) : Bool :=
  decide (config.entryPolicy = .homogeneousPieces) &&
    (D.all (sameOpening d.marketId d.outcomeId) && onlyPurchases w ms d.marketId)

/-- No candidate of the market has a smaller identifier. -/
def isFirst (D : List TradeDecision) (d : TradeDecision) : Bool :=
  (marketCandidates D d.marketId).all fun e => d.sourceTradeId.val ≤ e.sourceTradeId.val

/-- A decision, settled among the decisions `D` of its second. -/
def settled (config : SecondConfig) (w : WalletAddress) (ms : List LedgerMutation)
    (D : List TradeDecision) (d : TradeDecision) : TradeDecision :=
  if !d.isCandidate then d.withInitialEntry
  else if config.hasMarket d.marketId then { d with entry := .notFirstEntry }
  else
    let pools := poolsPieces config w ms D d
    settleCandidate pools (groupEntry config (marketCandidates D d.marketId).length pools)
      (isFirst D d) d

/-- The first entries of a second, in the order of the markets' texts. -/
def firstEntriesOf (config : SecondConfig) (D : List TradeDecision) :
    List (MarketId × SourceTradeId) :=
  (intoValues (candidateGroups D)).filterMap (groupFirstEntry config D)

theorem withInitialEntry_of_isCandidate (h : d.isCandidate = true) :
    d.withInitialEntry = { d with entry := .notAnEntry } := by
  simp only [isCandidate, Bool.decide_and, Bool.and_eq_true,
    decide_eq_true_eq] at h
  rw [withInitialEntry, if_neg (by simp [h.1])]

/-- Distinct identifiers pick out places. -/
theorem getElem?_inj_of_nodup (hD : (D.map sourceTradeId).Nodup) {j : Nat}
    {e : TradeDecision} (hi : D[i]? = some d) (hj : D[j]? = some e)
    (h : d.sourceTradeId = e.sourceTradeId) : i = j := by
  obtain ⟨hil, rfl⟩ := List.getElem?_eq_some_iff.mp hi
  obtain ⟨hjl, rfl⟩ := List.getElem?_eq_some_iff.mp hj
  have hil' : i < (D.map sourceTradeId).length := by rwa [List.length_map]
  have hjl' : j < (D.map sourceTradeId).length := by rwa [List.length_map]
  refine (@List.Nodup.getElem_inj_iff _ _ hD i hil' j hjl').mp ?_
  rw [List.getElem_map, List.getElem_map, h]

theorem idAt_eq (h : D[i]? = some d) : idAt D i = d.sourceTradeId.val := by
  rw [idAt, h]; rfl

/-- The representative of a market's group is its candidate with the least identifier. -/
theorem representative_iff (hD : (D.map sourceTradeId).Nodup) (hi : D[i]? = some d)
    (hc : d.isCandidate = true) :
    some i = minBy (idAt D) (marketGroup D d.marketId).2 ↔ isFirst D d = true := by
  have hmem : i ∈ (marketGroup D d.marketId).2 := mem_marketGroup.mpr ⟨d, hi, hc, rfl⟩
  obtain ⟨r, hr⟩ := minBy_isSome (f := idAt D) (List.ne_nil_of_mem hmem)
  obtain ⟨hrm, hmin⟩ := minBy_spec hr
  obtain ⟨e, he, hec, hem⟩ := mem_marketGroup.mp hrm
  rw [hr, Option.some.injEq]
  simp only [isFirst, List.all_eq_true, marketCandidates, List.mem_filter, Bool.and_eq_true,
    decide_eq_true_eq]
  constructor
  · rintro rfl x ⟨hx, hxc, hxm⟩
    obtain ⟨j, hj⟩ := List.getElem?_of_mem hx
    have := hmin j (mem_marketGroup.mpr ⟨x, hj, hxc, hxm⟩)
    rwa [idAt_eq hi, idAt_eq hj] at this
  · intro h
    have h1 := h e ⟨List.mem_of_getElem? he, hec, hem⟩
    have h2 := hmin i hmem
    rw [idAt_eq he, idAt_eq hi] at h2
    exact getElem?_inj_of_nodup hD hi he
      (SourceTradeId.val_injective (String.le_antisymm h1 h2))

/-- Homogeneity can be read off any candidate of the market. -/
theorem isHomogeneous_group (hi : D[i]? = some d) (hc : d.isCandidate = true) :
    isHomogeneous w ms D d.marketId (minBy (idAt D) (marketGroup D d.marketId).2)
      = (D.all (sameOpening d.marketId d.outcomeId) && onlyPurchases w ms d.marketId) := by
  have hmem : i ∈ (marketGroup D d.marketId).2 := mem_marketGroup.mpr ⟨d, hi, hc, rfl⟩
  obtain ⟨r, hr⟩ := minBy_isSome (f := idAt D) (List.ne_nil_of_mem hmem)
  obtain ⟨e, he, hec, hem⟩ := mem_marketGroup.mp (minBy_spec hr).1
  rw [isHomogeneous_eq, hr]
  simp only [Option.bind_some, he, Option.map_some, Option.any_some, onlyPurchases]
  congr 1
  -- both `d` and the representative are in the market, so their outcomes agree or neither side holds
  have hself : ∀ x ∈ D, x.marketId = d.marketId → ∀ o, D.all (sameOpening d.marketId o) = true →
      x.outcomeId = o := by
    intro x hx hxm o ho
    have := List.all_eq_true.mp ho x hx
    simp only [sameOpening, hxm, decide_true, Bool.not_true, Bool.false_or, Bool.and_eq_true,
      decide_eq_true_eq] at this
    exact this.2
  rw [Bool.eq_iff_iff]
  constructor
  · intro h
    rw [hself d (List.mem_of_getElem? hi) rfl _ h]; exact h
  · intro h
    rw [hself e (List.mem_of_getElem? he) hem _ h]; exact h

/--
**The entries of a second, without indices.**

With distinct identifiers every decision is settled as `settled` says, in its place.
-/
theorem settleEntries_eq (config : SecondConfig) (w : WalletAddress) (ms : List LedgerMutation)
    (hD : (D.map sourceTradeId).Nodup) :
    settleEntries config w ms D = (D.map (settled config w ms D), firstEntriesOf config D) := by
  have hstrip : (D.map withInitialEntry).map strip
      = D.map strip := by
    rw [List.map_map]
    exact List.map_congr_left fun d _ => strip_withInitialEntry d
  obtain ⟨h1, h2⟩ := settleMarkets_eq config w ms
    (intoValues (candidateGroups D)) (D.map withInitialEntry) []
    groups_nodup groups_disjoint hstrip
  refine Prod.ext (List.ext_getElem? fun i => ?_) h2
  rw [settleEntries, h1, List.getElem?_map, List.getElem?_map]
  cases hi : D[i]? with
  | none => rfl
  | some d =>
    simp only [Option.map_some, Option.some.injEq, find?_group hi]
    by_cases hc : d.isCandidate = true
    · rw [if_pos hc]
      have hrep : decide (some i = minBy (idAt D) (marketGroup D d.marketId).2) = isFirst D d := by
        rw [Bool.eq_iff_iff, decide_eq_true_eq]
        exact representative_iff hD hi hc
      have hlen : (marketGroup D d.marketId).2.length
          = (marketCandidates D d.marketId).length := by
        rw [marketGroup, List.length_map, ← map_fst_candidatesAt, List.length_map]
      have hmarket : (marketGroup D d.marketId).1 = d.marketId := rfl
      simp only [settled, ruling, hc, hmarket, isHomogeneous_group hi hc, hlen, hrep, poolsPieces,
        withInitialEntry_of_isCandidate hc, Bool.not_true, Bool.false_eq_true, if_false]
      rfl
    · simp [hc, settled]

end PredictionEdge
