import PredictionEdge.Ledger.OrderProof

/-!
# Whose residual it is

A redemption may exceed the long it redeems by a little; the excess is clamped and
kept with the group as a residual. The order proof compares the residuals of two orders
as lists, place by place. When several redemptions share an outcome and together exceed
its long, the last one clamps, whichever it is: the lists agree and the groups do not.

This file works out exactly when that happens.
-/

namespace PredictionEdge

open Lib

variable {w : WalletAddress} {ledger : PositionLedger} {k : MarketOutcomeId}
  {c l : List LedgerMutation} {os : List (LedgerMutation × AppliedEffect)} {m : LedgerMutation}
  {res : List (Option Nat)}

namespace LedgerMutation

/-- The shares a redemption asks for. -/
def redeemAmount (m : LedgerMutation) : Nat :=
  match m.effect.effective with
  | .redeem _ _ amount => amount.atomic
  | _ => 0

theorem isRedeem_iff : m.isRedeem = true ↔
    ∃ market outcome amount, m.effect.effective = .redeem market outcome amount := by
  unfold isRedeem
  cases m.effect.effective <;> simp

/-- A redemption of one market outcome. -/
theorem effective_of_isRedeem (h : m.isRedeem = true) (hk : k ∈ m.touchedKeys) :
    ∃ amount, m.effect.effective = .redeem k.market k.outcome amount
      ∧ m.redeemAmount = amount.atomic := by
  obtain ⟨market, outcome, amount, he⟩ := isRedeem_iff.mp h
  simp only [touchedKeys, he, List.mem_singleton] at hk
  subst hk
  exact ⟨amount, he, by simp only [redeemAmount, he]⟩

theorem touchedKeys_of_isRedeem (h : m.isRedeem = true) (hk : k ∈ m.touchedKeys) :
    m.touchedKeys = [k] := by
  obtain ⟨amount, he, _⟩ := effective_of_isRedeem h hk
  simp only [touchedKeys, he]

end LedgerMutation

/-! ## Redemptions of one outcome -/

/-- The long side of a cell. -/
def Cell.long (c : Cell) : Nat := c.stateMut.longContracts.atomic

variable {a : AppliedEffect} {s t : Batch} {v : Option Nat}

/--
**One redemption.**

Within the long it takes its amount and closes nothing; beyond it, it clamps and closes
the outcome. From a closed outcome it never clamps.
-/
theorem step_redeem {s' : Batch} (hm : m.isRedeem = true) (hk : k ∈ m.touchedKeys)
    (h : (walletSystem w).step m s = .ok (s', a)) :
    (m.redeemAmount ≤ (s.cell w k).long ∧ a.clampedResidual = none
        ∧ (s'.cell w k).long = (s.cell w k).long - m.redeemAmount)
      ∨ ((s.cell w k).long < m.redeemAmount ∧ a.clampedResidual ≠ none
        ∧ (s.cell w k).closed = false ∧ (s'.cell w k).closed = true) := by
  obtain ⟨hw, ha⟩ := walletSystem_step_ok h
  subst hw
  obtain ⟨amount, he, hamt⟩ := LedgerMutation.effective_of_isRedeem hm hk
  have hkk : (⟨k.market, k.outcome⟩ : MarketOutcomeId) = k := rfl
  obtain ⟨r, hr, rfl, rfl⟩ := applyInPlace_ok ha
  simp only [cellStep, LedgerMutation.touchedKeys, he, List.map_cons, List.map_nil, hkk] at hr ⊢
  obtain ⟨x, hx, rfl⟩ := map_eq_ok.mp hr
  have hcell : (s.writeCells m.wallet [(k, x.1)]).cell m.wallet k
      = ⟨some x.1.1, x.1.2 || (s.cell m.wallet k).closed⟩ := by
    rw [Batch.writeCells, List.foldl_cons, List.foldl_nil, Batch.cell_writeCell, if_pos rfl]
  rw [List.zip_cons_cons, List.zip_nil_right, hcell, hamt]
  obtain ⟨hzero, ⟨long, hlong, rfl⟩ | ⟨hlt, -, rfl⟩⟩ := redeemCell_ok hx
  · exact .inl ⟨Nat.le.intro ((Nat.add_comm _ _).trans hlong.symm), rfl,
      (Nat.sub_eq_of_eq_add hlong).symm⟩
  · refine .inr ⟨hlt, by simp, Bool.eq_false_iff.mpr fun hcl => ?_, rfl⟩
    have := hzero hcl
    omega

/-- **Nothing clamps exactly when the redemptions fit.** -/
theorem run_redeem_none_iff : ∀ {c : List LedgerMutation} {s t : Batch}
    {os : List (LedgerMutation × AppliedEffect)},
    (∀ m ∈ c, m.isRedeem = true ∧ k ∈ m.touchedKeys) →
    (walletSystem w).run c s = .ok (t, os) →
    ((∀ o ∈ os, o.2.clampedResidual = none) ↔
      (c.map LedgerMutation.redeemAmount).sum ≤ (s.cell w k).long)
  | [], s, t, os, _, h => by
    simp only [LocalSystem.run_nil, Except.ok.injEq, Prod.mk.injEq] at h
    simp [← h.2]
  | m :: c, s, t, os, hc, h => by
    obtain ⟨s1, a, os', hs, hr, ho⟩ := LocalSystem.run_cons_ok.mp h
    have ho' : os = (m, a) :: os' := ho
    have hm := hc m List.mem_cons_self
    have ih := run_redeem_none_iff (fun x hx => hc x (List.mem_cons_of_mem _ hx)) hr
    rw [ho', List.forall_mem_cons, ih, List.map_cons, List.sum_cons]
    rcases step_redeem hm.1 hm.2 hs with ⟨hle, hn, hl⟩ | ⟨hlt, hn, _, _⟩
    · simp only [hn, true_and]
      omega
    · simp only [hn, false_and, false_iff]
      omega

/-- After a clamp the next redemption of the outcome does not clamp. -/
theorem run_redeem_second {m₁ m₂ : LedgerMutation} {o₁ o₂ : LedgerMutation × AppliedEffect}
    (h₁ : m₁.isRedeem = true ∧ k ∈ m₁.touchedKeys) (h₂ : m₂.isRedeem = true ∧ k ∈ m₂.touchedKeys)
    (h : (walletSystem w).run (m₁ :: m₂ :: c) s = .ok (t, o₁ :: o₂ :: os))
    (hcl : o₁.2.clampedResidual ≠ none) : o₂.2.clampedResidual = none := by
  obtain ⟨s1, a₁, os₁, hs₁, hr₁, ho₁⟩ := LocalSystem.run_cons_ok.mp h
  obtain ⟨s2, a₂, os₂, hs₂, _, ho₂⟩ := LocalSystem.run_cons_ok.mp hr₁
  simp only [List.cons.injEq] at ho₁ ho₂
  obtain ⟨rfl, ho₁⟩ := ho₁
  rw [ho₂, List.cons.injEq] at ho₁
  obtain ⟨rfl, _⟩ := ho₁
  rcases step_redeem h₁.1 h₁.2 hs₁ with ⟨_, hn, _⟩ | ⟨_, _, _, hclosed⟩
  · exact absurd hn hcl
  · rcases step_redeem h₂.1 h₂.2 hs₂ with ⟨_, hn, _⟩ | ⟨_, _, hopen, _⟩
    · exact hn
    · exact absurd hclosed (by rw [hopen]; simp)

/-! ## What a run puts out -/

/-- What a step puts out: its own effect, and a residual only if it redeems. -/
theorem step_output {s' : Batch} (h : (walletSystem w).step m s = .ok (s', a)) :
    a.effect = m.effect ∧ (a.clampedResidual ≠ none → m.isRedeem = true) := by
  obtain ⟨_, ha⟩ := walletSystem_step_ok h
  obtain ⟨r, hr, -, rfl⟩ := applyInPlace_ok ha
  refine ⟨rfl, fun hresidual => ?_⟩
  obtain ⟨market, outcome, amount, _, _, he, -⟩ := (cellStep_ok hr).2.resolve_left hresidual
  exact LedgerMutation.isRedeem_iff.mpr ⟨market, outcome, amount, he⟩

theorem run_output : ∀ {l : List LedgerMutation} {s t : Batch}
    {os : List (LedgerMutation × AppliedEffect)}, (walletSystem w).run l s = .ok (t, os) →
    ∀ o ∈ os, o.2.effect = o.1.effect ∧ (o.2.clampedResidual ≠ none → o.1.isRedeem = true)
  | [], s, t, os, h => by
    simp only [LocalSystem.run_nil, Except.ok.injEq, Prod.mk.injEq] at h
    simp [← h.2]
  | m :: l, s, t, os, h => by
    obtain ⟨s1, a, os', hs, hr, ho⟩ := LocalSystem.run_cons_ok.mp h
    have ho' : os = (m, a) :: os' := ho
    rw [ho', List.forall_mem_cons]
    exact ⟨step_output hs, run_output hr⟩

/-- The effect recorded for one group among the effects of a batch. -/
def appliedTo (id : SourceTradeId) (l : List LedgerMutation) (applied : List AppliedEffect) :
    Option AppliedEffect :=
  ((l.zip applied).find? fun p => p.1.sourceTradeId = id).map Prod.snd

theorem appliedTo_run (hid : DistinctIds l) (h : (walletSystem w).run l s = .ok (t, os))
    {o : LedgerMutation × AppliedEffect} (ho : o ∈ os) :
    appliedTo o.1.sourceTradeId l (os.map Prod.snd) = some o.2 := by
  have htags := LocalSystem.run_tags h
  have hzip : l.zip (os.map Prod.snd) = os := (List.zip_of_prod htags rfl).symm
  rw [appliedTo, hzip]
  have hnd : (os.map fun p => p.1.sourceTradeId).Nodup := by
    have h1 : (os.map fun p => p.1.sourceTradeId)
        = (os.map Prod.fst).map LedgerMutation.sourceTradeId := by rw [List.map_map]; rfl
    rw [h1, htags]; exact hid
  cases hf : os.find? fun p => decide (p.1.sourceTradeId = o.1.sourceTradeId) with
  | none => exact absurd (List.find?_eq_none.mp hf o ho) (by simp)
  | some p =>
    have hp := List.find?_some hf
    have heq : p = o := List.inj_on_of_nodup_map hnd (List.mem_of_find?_eq_some hf) ho
      (by simpa using hp)
    rw [heq]; rfl

/-! ## Components of redemptions -/

/-- The mutations of a batch that touch a market outcome. -/
def touching (l : List LedgerMutation) (k : MarketOutcomeId) : List LedgerMutation :=
  l.filter fun m => k ∈ m.touchedKeys

/-- A component of redemptions redeems one outcome. -/
theorem component_redeem_key (hc : c ∈ mutationComponents l) (h : ∀ m ∈ c, m.isRedeem = true) :
    ∃ k, ∀ m ∈ c, k ∈ m.touchedKeys := by
  obtain ⟨x, hx⟩ := List.exists_mem_of_ne_nil _ (mutationComponents_ne_nil hc)
  obtain ⟨market, outcome, amount, he⟩ := LedgerMutation.isRedeem_iff.mp (h x hx)
  have hxk : (⟨market, outcome⟩ : MarketOutcomeId) ∈ x.touchedKeys := by
    simp [LedgerMutation.touchedKeys, he]
  refine ⟨⟨market, outcome⟩, fun m hm => ?_⟩
  -- a redemption has one key, so no member straddles the set of `x`'s key
  have hu : Uncut LedgerMutation.touchedKeys {⟨market, outcome⟩} c := by
    intro y hy
    obtain ⟨m', o', a', hy'⟩ := LedgerMutation.isRedeem_iff.mp (h y hy)
    simp only [LedgerMutation.touchedKeys, hy', List.mem_singleton, forall_eq,
      Set.mem_singleton_iff]
    exact em _
  rcases components_uncut hc hu with hin | hout
  · obtain ⟨m', o', a', hm'⟩ := LedgerMutation.isRedeem_iff.mp (h m hm)
    have hmk : (⟨m', o'⟩ : MarketOutcomeId) ∈ m.touchedKeys := by
      simp [LedgerMutation.touchedKeys, hm']
    have := hin m hm _ hmk
    rwa [← this]
  · exact absurd rfl (hout x hx _ hxk)

/-- A component of redemptions of `k` is all that touches `k`. -/
theorem component_perm_touching (hc : c ∈ mutationComponents l)
    (h : ∀ m ∈ c, m.isRedeem = true ∧ k ∈ m.touchedKeys) : c.Perm (touching l k) := by
  have hkeys : ∀ m ∈ c, m.touchedKeys = [k] := fun m hm =>
    LedgerMutation.touchedKeys_of_isRedeem (h m hm).1 (h m hm).2
  have hf := components_eq_filter hc fun m hm => by simp [hkeys m hm]
  refine hf.trans (List.Perm.of_eq (List.filter_congr fun m _ => ?_))
  rw [Bool.eq_iff_iff, hits_iff, decide_eq_true_eq]
  obtain ⟨x, hx⟩ := List.exists_mem_of_ne_nil _ (mutationComponents_ne_nil hc)
  constructor
  · rintro ⟨q, hq, y, hy, hqy⟩
    rw [hkeys y hy, List.mem_singleton] at hqy
    rwa [← hqy]
  · intro hk
    exact ⟨k, hk, x, hx, (h x hx).2⟩

/-- Where only redemptions touch `k`, the component of one of them is all of them. -/
theorem exists_component_touching (hne : touching l k ≠ [])
    (h : ∀ m ∈ touching l k, m.isRedeem = true) :
    ∃ c ∈ mutationComponents l, ∀ m ∈ c, m.isRedeem = true ∧ k ∈ m.touchedKeys := by
  obtain ⟨x, hx⟩ := List.exists_mem_of_ne_nil _ hne
  obtain ⟨hxl, hxk⟩ := List.mem_filter.mp hx
  rw [decide_eq_true_eq] at hxk
  obtain ⟨c, hc, hxc⟩ := exists_component LedgerMutation.touchedKeys hxl
  have hred : ∀ m ∈ c, k ∈ m.touchedKeys → m.isRedeem = true := fun m hm hk =>
    h m (List.mem_filter.mpr ⟨mem_of_mem_components hc hm, by simpa using hk⟩)
  have hu : Uncut LedgerMutation.touchedKeys {k} c := by
    intro m hm
    by_cases hk : k ∈ m.touchedKeys
    · left
      intro q hq
      rw [LedgerMutation.touchedKeys_of_isRedeem (hred m hm hk) hk, List.mem_singleton] at hq
      exact hq
    · right
      intro q hq hqk
      exact hk (hqk ▸ hq)
  refine ⟨c, hc, fun m hm => ?_⟩
  have hmk : k ∈ m.touchedKeys := by
    rcases components_uncut hc hu with hin | hout
    · by_cases hnil : m.touchedKeys = []
      · rw [components_keyless hc hm hnil, List.mem_singleton] at hxc
        rw [← hxc]; exact hxk
      · obtain ⟨q, hq⟩ := List.exists_mem_of_ne_nil _ hnil
        have : q = k := hin m hm q hq
        rwa [← this]
    · exact absurd rfl (hout x hxc k hxk)
  exact ⟨hred m hm hmk, hmk⟩

/-! ## Residuals by place and by mutation -/

/-- Any member of a list can be put in any place. -/
theorem exists_perm_getElem? {α : Type} {c : List α} {x : α} (hx : x ∈ c) {j : Nat}
    (hj : j < c.length) : ∃ d : List α, d.Perm c ∧ d[j]? = some x := by
  obtain ⟨a, b, rfl⟩ := List.append_of_mem hx
  refine ⟨(a ++ b).take j ++ x :: (a ++ b).drop j, ?_, ?_⟩
  · refine List.perm_middle.trans ?_
    rw [List.take_append_drop]
    exact List.perm_middle.symm
  · have hlen : ((a ++ b).take j).length = j := by
      rw [List.length_take]
      simp only [List.length_append, List.length_cons] at hj ⊢
      omega
    rw [List.getElem?_append_right (by rw [hlen]), hlen, Nat.sub_self, List.getElem?_cons_zero]

/-- Every order of a component runs, with these residuals place by place. -/
def RunsWith (ledger : PositionLedger) (w : WalletAddress) (c : List LedgerMutation)
    (res : List (Option Nat)) : Prop :=
  ∀ d, d.Perm c → ∃ t os, (walletSystem w).run d (freshBatch ledger) = .ok (t, os)
    ∧ os.map (fun o => o.2.clampedResidual) = res

/-- The residuals of an order-free component, place by place, are the same in every order. -/
theorem OrderFree.residuals (hw : ∀ m ∈ c, m.wallet = w) (h : OrderFree ledger w c) :
    ∃ res, res.length = c.length ∧ RunsWith ledger w c res := by
  obtain ⟨⟨p, res⟩, hr⟩ := h
  have hrun : RunsWith ledger w c res := by
    intro d hd
    obtain ⟨t, os, h1, _, h2⟩ :=
      (orderResult_ok_iff fun m hm => hw m (hd.mem_iff.mp hm)).mp (hr d hd)
    exact ⟨t, os, h1, h2⟩
  refine ⟨res, ?_, hrun⟩
  obtain ⟨t, os, h1, h2⟩ := hrun c (.refl c)
  rw [← h2, List.length_map, ← LocalSystem.run_tags h1, List.length_map]

variable {d : List LedgerMutation}

/-- In an order with `x` in place `j`, `x` is applied with the residual of that place. -/
theorem output_at {x : LedgerMutation} {j : Nat} (h : (walletSystem w).run d s = .ok (t, os))
    (hres : os.map (fun o => o.2.clampedResidual) = res) (hx : d[j]? = some x)
    (hv : res[j]? = some v) : (x, (⟨x.effect, v⟩ : AppliedEffect)) ∈ os := by
  rw [← LocalSystem.run_tags h, List.getElem?_map] at hx
  rw [← hres, List.getElem?_map] at hv
  cases ho : os[j]? with
  | none => rw [ho] at hx; simp at hx
  | some o =>
    rw [ho] at hx hv
    simp only [Option.map_some, Option.some.injEq] at hx hv
    have hmem := List.mem_of_getElem? ho
    have heff := (run_output h o hmem).1
    rw [← hx, ← hv, ← heff]
    exact hmem

/-! ## When the residual belongs to the mutation -/

/-- In every order of the batch each mutation is applied with the same outcome. -/
def AppliedPerMutation (ledger : PositionLedger) (l : List LedgerMutation) : Prop :=
  ∀ l₁ l₂, l₁.Perm l → l₂.Perm l → ∀ ledger₁ applied₁ ledger₂ applied₂,
    ledger.simulateAllOrNone l₁ = .ok (ledger₁, applied₁) →
    ledger.simulateAllOrNone l₂ = .ok (ledger₂, applied₂) →
    ∀ m ∈ l, appliedTo m.sourceTradeId l₁ applied₁ = appliedTo m.sourceTradeId l₂ applied₂

/--
Where two or more mutations touch an outcome and all of them redeem, together they ask
for no more than its long.
-/
def RedeemsFit (ledger : PositionLedger) (w : WalletAddress) (l : List LedgerMutation) : Prop :=
  ∀ k, 2 ≤ (touching l k).length → (∀ m ∈ touching l k, m.isRedeem = true) →
    ((touching l k).map LedgerMutation.redeemAmount).sum
      ≤ ((ledger.stateAt w k).getD .default).longContracts.atomic

theorem long_freshBatch (k : MarketOutcomeId) : ((freshBatch ledger).cell w k).long
    = ((ledger.stateAt w k).getD .default).longContracts.atomic := by
  rw [cell_freshBatch]; rfl

/-- A clamp in some place of an order-free component makes all of it redemptions. -/
theorem RunsWith.all_redeem (hres : RunsWith ledger w c res) (hlen : res.length = c.length)
    (hv : v ∈ res) (hne : v ≠ none) : ∀ m ∈ c, m.isRedeem = true := by
  intro m hm
  obtain ⟨j, hj, hvj⟩ := List.mem_iff_getElem.mp hv
  obtain ⟨d, hd, hdj⟩ := exists_perm_getElem? hm (hlen ▸ hj)
  obtain ⟨t, os, hr, ho⟩ := hres d hd
  have hmem := output_at hr ho hdj (by rw [List.getElem?_eq_getElem hj, hvj])
  exact (run_output hr _ hmem).2 hne

/-- Where the redemptions fit, a component of several mutations clamps nothing. -/
theorem RedeemsFit.no_clamp (hfit : RedeemsFit ledger w l) (hc : c ∈ mutationComponents l)
    (h2 : 2 ≤ c.length) (hres : RunsWith ledger w c res) (hlen : res.length = c.length) :
    ∀ v ∈ res, v = none := by
  intro v hv
  by_contra hne
  have hred := hres.all_redeem hlen hv hne
  obtain ⟨k, hk⟩ := component_redeem_key hc hred
  have hrk : ∀ m ∈ c, m.isRedeem = true ∧ k ∈ m.touchedKeys := fun m hm => ⟨hred m hm, hk m hm⟩
  have hp := component_perm_touching hc hrk
  have hsum := hfit k (hp.length_eq ▸ h2) fun m hm => hred m (hp.mem_iff.mpr hm)
  rw [← (hp.map LedgerMutation.redeemAmount).sum_eq, ← long_freshBatch] at hsum
  obtain ⟨t, os, hr, ho⟩ := hres c (.refl c)
  have hnone := (run_redeem_none_iff hrk hr).mpr hsum
  rw [← ho] at hv
  obtain ⟨o, hom, rfl⟩ := List.mem_map.mp hv
  exact hne (hnone o hom)

section

variable (hw : ∀ m ∈ l, m.wallet = w) (hfree : ∀ c ∈ mutationComponents l, OrderFree ledger w c)

include hw hfree

/-- Then each mutation is applied with one residual, whatever the order of the batch. -/
theorem RedeemsFit.output (hfit : RedeemsFit ledger w l) (hm : m ∈ l) :
    ∃ v, ∀ l', l'.Perm l → ∀ s os, (walletSystem w).run l' (freshBatch ledger) = .ok (s, os) →
      (m, (⟨m.effect, v⟩ : AppliedEffect)) ∈ os := by
  obtain ⟨c, hc, hmc⟩ := exists_component LedgerMutation.touchedKeys hm
  obtain ⟨res, hlen, hres⟩ := (hfree c hc).residuals fun x hx =>
    hw x (mem_of_mem_components hc hx)
  have hpos : 0 < res.length := by rw [hlen]; exact List.length_pos_of_mem hmc
  refine ⟨res[0], fun l' hl s os hr => ?_⟩
  obtain ⟨s', os', hr', hb⟩ := batch_run hw hfree hl
  rw [hr, Except.ok.injEq, Prod.mk.injEq] at hr'
  obtain ⟨rfl, rfl⟩ := hr'
  obtain ⟨c', t, oc, hcp, hrc, _, hsub⟩ := hb c hc
  obtain ⟨t', oc', hrc', ho⟩ := hres c' hcp
  rw [hrc, Except.ok.injEq, Prod.mk.injEq] at hrc'
  obtain ⟨rfl, rfl⟩ := hrc'
  obtain ⟨j, hj, hmj⟩ := List.mem_iff_getElem.mp (hcp.mem_iff.mpr hmc)
  have hjr : j < res.length := by rw [hlen, ← hcp.length_eq]; exact hj
  -- alone in its component it has the one place; among others every place is unclamped
  have hv : res[j] = res[0] := by
    by_cases h2 : 2 ≤ c.length
    · have hn := hfit.no_clamp hc h2 hres hlen
      rw [hn _ (List.getElem_mem hjr), hn _ (List.getElem_mem hpos)]
    · have hj0 : j = 0 := by omega
      subst hj0; rfl
  refine hsub.subset (output_at hrc ho (j := j) ?_ ?_)
  · rw [List.getElem?_eq_getElem hj, hmj]
  · rw [List.getElem?_eq_getElem hjr, hv]

/-- An order of one component is the start of an order of the batch. -/
theorem exists_order_starting (hc : c ∈ mutationComponents l) (hd : d.Perm c)
    {od : List (LedgerMutation × AppliedEffect)}
    (hr : (walletSystem w).run d (freshBatch ledger) = .ok (t, od)) :
    ∃ l', l'.Perm l ∧ ∃ s os, (walletSystem w).run l' (freshBatch ledger) = .ok (s, od ++ os) := by
  obtain ⟨pre, post, he⟩ := List.append_of_mem hc
  have hl : (d ++ (pre.flatten ++ post.flatten)).Perm l := by
    refine List.Perm.trans ?_ (components_flatten LedgerMutation.touchedKeys l)
    have he' : components LedgerMutation.touchedKeys l = pre ++ c :: post := he
    rw [he', List.flatten_append, List.flatten_cons, ← List.append_assoc, ← List.append_assoc]
    exact (List.perm_append_comm.trans (hd.append_left _)).append_right _
  obtain ⟨s, os, hrun, _⟩ := batch_run hw hfree hl
  rw [LocalSystem.run_append hr] at hrun
  obtain ⟨r, _, hr2⟩ := map_eq_ok.mp hrun
  refine ⟨_, hl, r.1, r.2, ?_⟩
  rw [LocalSystem.run_append hr]
  exact map_eq_ok.mpr ⟨r, by assumption, rfl⟩

end

/-- Where each mutation has one outcome, a component's places all have one residual. -/
theorem AppliedPerMutation.residual_const (hw : ∀ m ∈ l, m.wallet = w) (hid : DistinctIds l)
    (hfree : ∀ c ∈ mutationComponents l, OrderFree ledger w c) (happ : AppliedPerMutation ledger l)
    (hc : c ∈ mutationComponents l) (hlen : res.length = c.length)
    (hres : RunsWith ledger w c res) : ∀ u ∈ res, ∀ v ∈ res, u = v := by
  intro u hu v hv
  obtain ⟨i, hi, hui⟩ := List.mem_iff_getElem.mp hu
  obtain ⟨j, hj, hvj⟩ := List.mem_iff_getElem.mp hv
  obtain ⟨x, hx⟩ := List.exists_mem_of_ne_nil _ (mutationComponents_ne_nil hc)
  have hxl : x ∈ l := mem_of_mem_components hc hx
  -- an order of the batch in which `x` is applied with the residual of a given place
  have hplace : ∀ {n : Nat} {z : Option Nat}, res[n]? = some z → ∃ l', l'.Perm l ∧
      ∃ ledger' applied, ledger.simulateAllOrNone l' = .ok (ledger', applied)
        ∧ appliedTo x.sourceTradeId l' applied = some ⟨x.effect, z⟩ := by
    intro n z hz
    have hn : n < c.length := hlen ▸ (List.getElem?_eq_some_iff.mp hz).1
    obtain ⟨d, hd, hdn⟩ := exists_perm_getElem? hx hn
    obtain ⟨t, od, hr, ho⟩ := hres d hd
    have hmem := output_at hr ho hdn hz
    obtain ⟨l', hl', s, os, hrun⟩ := exists_order_starting hw hfree hc hd hr
    refine ⟨l', hl', s.ledger, (od ++ os).map Prod.snd, ?_, ?_⟩
    · exact (simulateAllOrNone_ok_iff fun m hm => hw m (hl'.mem_iff.mp hm)).mpr
        ⟨s, od ++ os, hrun, rfl, rfl⟩
    · exact appliedTo_run (hid.perm hl') hrun (List.mem_append_left _ hmem)
  obtain ⟨l₁, hl₁, L₁, a₁, hs₁, ha₁⟩ := hplace (List.getElem?_eq_some_iff.mpr ⟨hi, hui⟩)
  obtain ⟨l₂, hl₂, L₂, a₂, hs₂, ha₂⟩ := hplace (List.getElem?_eq_some_iff.mpr ⟨hj, hvj⟩)
  have heq := happ l₁ l₂ hl₁ hl₂ L₁ a₁ L₂ a₂ hs₁ hs₂ x hxl
  rw [ha₁, ha₂, Option.some.injEq, AppliedEffect.mk.injEq] at heq
  exact heq.2

/--
**Each group has its own residual exactly when the redemptions fit.**

In a second proved order-independent, every mutation is applied with the same outcome
in every order if and only if no outcome is touched by several redemptions alone that
together exceed its long.
-/
theorem appliedPerMutation_iff_redeemsFit (config : SecondConfig) (ledger : PositionLedger)
    (w : WalletAddress) (l : List LedgerMutation) (hw : ∀ m ∈ l, m.wallet = w)
    (hid : DistinctIds l) (applied : List AppliedEffect) (decisions : List TradeDecision)
    (firstEntries : List (MarketId × SourceTradeId))
    (h : classifyCompleteSecond config ledger w l
      = .ok (.orderIndependent applied decisions firstEntries)) :
    AppliedPerMutation ledger l ↔ RedeemsFit ledger w l := by
  have hfree : ∀ c ∈ mutationComponents l, OrderFree ledger w c := fun c hc =>
    (componentOrderIndependent_ok_true_iff.mp
      (orderIndependentValidity_eq_none.mp (classifyCompleteSecond_inv h).1 c hc)).1
  constructor
  · intro happ k h2 hred
    have hne : touching l k ≠ [] := by intro h0; rw [h0] at h2; simp at h2
    obtain ⟨c, hc, hrk⟩ := exists_component_touching hne hred
    have hp := component_perm_touching hc hrk
    obtain ⟨res, hlen, hres⟩ := (hfree c hc).residuals fun x hx =>
      hw x (mem_of_mem_components hc hx)
    have hconst := happ.residual_const hw hid hfree hc hlen hres
    obtain ⟨t, os, hr, ho⟩ := hres c (.refl c)
    rw [← (hp.map LedgerMutation.redeemAmount).sum_eq, ← long_freshBatch]
    refine (run_redeem_none_iff hrk hr).mp fun o hom => ?_
    -- one clamp would make every place a clamp, and the second place cannot be
    rw [← hp.length_eq] at h2
    match c, os, hr, ho, h2, hrk with
    | m₁ :: m₂ :: c, [], hr, _, _, _ => simp at hom
    | m₁ :: m₂ :: c, [o₁], hr, _, _, _ =>
      exact absurd (LocalSystem.run_tags hr) (by simp)
    | m₁ :: m₂ :: c, o₁ :: o₂ :: os, hr, ho, _, hrk =>
      by_contra hn
      have hin : ∀ z ∈ o₁ :: o₂ :: os, z.2.clampedResidual ∈ res := fun z hz =>
        ho ▸ List.mem_map.mpr ⟨z, hz, rfl⟩
      have h1 : o₁.2.clampedResidual ≠ none := by
        rw [hconst _ (hin o₁ (by simp)) _ (hin o hom)]; exact hn
      have h2' := run_redeem_second (hrk m₁ (by simp)) (hrk m₂ (by simp)) hr h1
      exact h1 (hconst _ (hin o₁ (by simp)) _ (hin o₂ (by simp)) ▸ h2')
  · intro hfit l₁ l₂ hl₁ hl₂ L₁ a₁ L₂ a₂ hs₁ hs₂ m hm
    obtain ⟨v, hv⟩ := hfit.output hw hfree hm
    have hone : ∀ {l' : List LedgerMutation} {L : PositionLedger} {a : List AppliedEffect},
        l'.Perm l → ledger.simulateAllOrNone l' = .ok (L, a) →
        appliedTo m.sourceTradeId l' a = some ⟨m.effect, v⟩ := by
      intro l' L a hl hs
      obtain ⟨s, os, hr, _, ha⟩ :=
        (simulateAllOrNone_ok_iff fun x hx => hw x (hl.mem_iff.mp hx)).mp hs
      rw [← ha]
      exact appliedTo_run (hid.perm hl) hr (hv l' hl s os hr)
    rw [hone hl₁ hs₁, hone hl₂ hs₂]

/-! Two redemptions of 60 against a long of 100: the second one, whichever it is, clamps 20. -/

def redeemKey : MarketOutcomeId := ⟨⟨⟨"0xa1"⟩⟩, ⟨0⟩⟩

def redeemLedger : PositionLedger :=
  PositionLedger.new.setState sampleWallet redeemKey ⟨shares 100, .zero⟩

def redeemEffect : LedgerEffect := .redeem redeemKey.market redeemKey.outcome (shares 60)

def redeemSecond : List LedgerMutation :=
  [sampleMutation "g2:1" redeemEffect, sampleMutation "g2:2" redeemEffect]

/-- A long of 150 takes them both. -/
def fittingLedger : PositionLedger :=
  PositionLedger.new.setState sampleWallet redeemKey ⟨shares 150, .zero⟩

theorem redeemSecond_appliedPerMutation :
    AppliedPerMutation fittingLedger redeemSecond ↔ RedeemsFit fittingLedger sampleWallet redeemSecond :=
  appliedPerMutation_iff_redeemsFit sampleConfig fittingLedger sampleWallet redeemSecond
    (by decide +kernel) (by unfold DistinctIds; decide +kernel)
    [⟨redeemEffect, none⟩, ⟨redeemEffect, none⟩] [] [] (by decide +kernel)

theorem redeemSecond_residual_moves :
    (∀ m ∈ redeemSecond, m.wallet = sampleWallet)
      ∧ (redeemSecond.map LedgerMutation.sourceTradeId).Nodup
      ∧ classifyCompleteSecond sampleConfig redeemLedger sampleWallet redeemSecond
        = .ok (.orderIndependent [⟨redeemEffect, none⟩, ⟨redeemEffect, some 20⟩] [] [])
      ∧ ¬ AppliedPerMutation redeemLedger redeemSecond := by
  refine ⟨by decide +kernel, by decide +kernel, by decide +kernel, fun h => ?_⟩
  have hmoved := h redeemSecond redeemSecond.reverse (.refl _) (List.reverse_perm _)
    (redeemLedger.setState sampleWallet redeemKey ⟨.zero, .zero⟩)
    [⟨redeemEffect, none⟩, ⟨redeemEffect, some 20⟩]
    (redeemLedger.setState sampleWallet redeemKey ⟨.zero, .zero⟩)
    [⟨redeemEffect, none⟩, ⟨redeemEffect, some 20⟩]
    (by decide +kernel) (by decide +kernel) (sampleMutation "g2:1" redeemEffect) (by decide +kernel)
  exact absurd hmoved (by decide +kernel)

end PredictionEdge
