import PredictionEdge.Ledger.Drops

/-!
# What a second reads of the ledger

Classifying a complete second of one wallet reads the market outcomes that its mutations
touch and no other: two ledgers that agree there give the same result or the same failure,
whatever else they hold. The order proof compares whole snapshots, but two orders of one
component leave everything else as it was, so the comparison is one of the touched cells.
With a reconstruction quality of zero a wallet without any snapshot is told apart from one
without positions; any other quality makes no difference between them.
-/

namespace PredictionEdge

open Lib

variable {w : WalletAddress} {ledger₁ ledger₂ : PositionLedger}

/-- Two ledgers hold the same states of the wallet at the given market outcomes. -/
def SameAt (w : WalletAddress) (S : Set MarketOutcomeId) (ledger₁ ledger₂ : PositionLedger) : Prop :=
  ∀ k ∈ S, ledger₁.stateAt w k = ledger₂.stateAt w k

variable {S : Set MarketOutcomeId}

theorem SameAt.mono {T : Set MarketOutcomeId} (h : SameAt w T ledger₁ ledger₂) (hST : S ⊆ T) :
    SameAt w S ledger₁ ledger₂ :=
  fun k hk => h k (hST hk)

theorem SameAt.sameOn (h : SameAt w S ledger₁ ledger₂) :
    (walletSystem w).SameOn S (freshBatch ledger₁) (freshBatch ledger₂) := by
  intro k hk
  have hcell₁ := cell_freshBatch (w := w) ledger₁ k
  have hcell₂ := cell_freshBatch (w := w) ledger₂ k
  rw [h k hk] at hcell₁
  exact hcell₁.trans hcell₂.symm

/-- **A batch reads and writes the cells it touches.** -/
theorem SameAt.simulate {l : List LedgerMutation} (h : SameAt w S ledger₁ ledger₂)
    (hw : ∀ m ∈ l, m.wallet = w) (hl : (walletSystem w).keys l ⊆ S) :
    Matches (fun x y => x.2 = y.2 ∧ SameAt w S x.1 y.1)
      (ledger₁.simulateAllOrNone l) (ledger₂.simulateAllOrNone l) := by
  have hmatch := LocalSystem.run_sameOn hl h.sameOn
  rw [simulateAllOrNone_eq_run ledger₁ hw, simulateAllOrNone_eq_run ledger₂ hw]
  generalize (walletSystem w).run l (freshBatch ledger₁) = x at hmatch ⊢
  generalize (walletSystem w).run l (freshBatch ledger₂) = y at hmatch ⊢
  cases hmatch with
  | error e => exact .error e
  | ok hxy =>
    refine .ok ⟨congrArg (List.map Prod.snd) hxy.1, fun k hk => ?_⟩
    exact congrArg Cell.state (hxy.2 k hk)

/-! ## The order proof -/

section

variable {c : List LedgerMutation}

/-- Two orders of a component end alike over one ledger if they do over the other. -/
theorem position_transfer {c' c'' : List LedgerMutation} (hp' : c'.Perm c) (hp'' : c''.Perm c)
    {s₁ t₁ s₂ t₂ : Batch} {os ps : List (LedgerMutation × AppliedEffect)}
    (hs₂ : (walletSystem w).run c' (freshBatch ledger₂) = .ok (s₂, os))
    (ht₂ : (walletSystem w).run c'' (freshBatch ledger₂) = .ok (t₂, ps))
    (hs : (walletSystem w).SameOn ((walletSystem w).keys c) s₁ s₂)
    (ht : (walletSystem w).SameOn ((walletSystem w).keys c) t₁ t₂)
    (heq : s₁.ledger.position w = t₁.ledger.position w) :
    s₂.ledger.position w = t₂.ledger.position w := by
  refine run_position_perm (hp'.trans hp''.symm) hs₂ ht₂ fun k hk => ?_
  rw [LocalSystem.keys_perm hp''] at hk
  have hstate : s₁.ledger.stateAt w k = t₁.ledger.stateAt w k := by
    rw [PositionLedger.stateAt, PositionLedger.stateAt, heq]
  calc s₂.ledger.stateAt w k = s₁.ledger.stateAt w k := (congrArg Cell.state (hs k hk)).symm
    _ = t₁.ledger.stateAt w k := hstate
    _ = t₂.ledger.stateAt w k := congrArg Cell.state (ht k hk)

/-- The results that one order of the component has over the two ledgers. -/
def Judged (ledger₁ ledger₂ : PositionLedger) (w : WalletAddress) (c : List LedgerMutation)
    (e₁ e₂ : OrderResult) : Prop :=
  ∃ c' s₁ s₂ os, c'.Perm c ∧ (walletSystem w).run c' (freshBatch ledger₁) = .ok (s₁, os)
    ∧ (walletSystem w).run c' (freshBatch ledger₂) = .ok (s₂, os)
    ∧ (walletSystem w).SameOn ((walletSystem w).keys c) s₁ s₂
    ∧ e₁ = (s₁.ledger.position w, os.map fun o => o.2.clampedResidual)
    ∧ e₂ = (s₂.ledger.position w, os.map fun o => o.2.clampedResidual)

variable {e₁ e₂ : OrderResult}

theorem Judged.symm (h : Judged ledger₁ ledger₂ w c e₁ e₂) : Judged ledger₂ ledger₁ w c e₂ e₁ := by
  obtain ⟨c', s₁, s₂, os, hp, h₁, h₂, hs, he₁, he₂⟩ := h
  exact ⟨c', s₂, s₁, os, hp, h₂, h₁, fun k hk => (hs k hk).symm, he₂, he₁⟩

theorem Judged.eq_of_eq {r₁ r₂ : OrderResult} (he : Judged ledger₁ ledger₂ w c e₁ e₂)
    (hr : Judged ledger₁ ledger₂ w c r₁ r₂) (h : e₁ = r₁) : e₂ = r₂ := by
  obtain ⟨c', s₁, s₂, os, hp, _, hs₂, hs, rfl, rfl⟩ := he
  obtain ⟨c'', t₁, t₂, ps, hp', _, ht₂, ht, rfl, rfl⟩ := hr
  rw [Prod.mk.injEq] at h ⊢
  exact ⟨position_transfer hp hp' hs₂ ht₂ hs ht h.1, h.2⟩

/-- Whether two orders end alike does not depend on the ledger. -/
theorem Judged.eq_iff {r₁ r₂ : OrderResult} (he : Judged ledger₁ ledger₂ w c e₁ e₂)
    (hr : Judged ledger₁ ledger₂ w c r₁ r₂) : e₁ = r₁ ↔ e₂ = r₂ :=
  ⟨he.eq_of_eq hr, he.symm.eq_of_eq hr.symm⟩

variable (hw : ∀ m ∈ c, m.wallet = w)
  (h : SameAt w ((walletSystem w).keys c) ledger₁ ledger₂)

include hw h

/-- One order fails alike over both ledgers, or is judged over both. -/
theorem SameAt.order_matches {c' : List LedgerMutation} (hp : c'.Perm c) :
    Matches (Judged ledger₁ ledger₂ w c) (orderResult ledger₁ w c')
      (orderResult ledger₂ w c') := by
  have hw' : ∀ m ∈ c', m.wallet = w := fun m hm => hw m (hp.mem_iff.mp hm)
  have hmatch := LocalSystem.run_sameOn (l := c') (by rw [LocalSystem.keys_perm hp])
    h.sameOn
  rw [orderResult, orderResult, simulateAllOrNone_eq_run ledger₁ hw',
    simulateAllOrNone_eq_run ledger₂ hw']
  rcases hmatch.split with ⟨e, h₁, h₂⟩ | ⟨⟨s₁, os₁⟩, ⟨s₂, os₂⟩, h₁, h₂, hos, hsame⟩
  · rw [h₁, h₂]
    exact .error e
  · obtain rfl : os₁ = os₂ := hos
    rw [h₁, h₂]
    refine .ok ⟨c', s₁, s₂, os₁, hp, h₁, h₂, hsame, ?_, ?_⟩ <;> simp [Function.comp_def]

end

/-- One order of a component, judged against the one before it. -/
theorem ordersMatch_cons (ledger : PositionLedger) (single : Bool) (expected : Option OrderResult)
    (sequence : List LedgerMutation) (rest : List (List LedgerMutation)) :
    ordersMatch ledger w single expected (sequence :: rest) =
      match orderResult ledger w sequence with
      | .error e => if single then .error e else .ok false
      | .ok result =>
        if expected.any (· ≠ result) then .ok false
        else ordersMatch ledger w single (some result) rest := by
  rw [ordersMatch, orderResult]
  cases ledger.simulateAllOrNone sequence with
  | error e | ok p => rfl

section

variable {c : List LedgerMutation} (hw : ∀ m ∈ c, m.wallet = w)
  (h : SameAt w ((walletSystem w).keys c) ledger₁ ledger₂)

include hw h

theorem SameAt.orders_eq (single : Bool) : ∀ {sequences : List (List LedgerMutation)}
    {e₁ e₂ : Option OrderResult}, (∀ c' ∈ sequences, c'.Perm c) →
    Option.Rel (Judged ledger₁ ledger₂ w c) e₁ e₂ →
    ordersMatch ledger₁ w single e₁ sequences = ordersMatch ledger₂ w single e₂ sequences
  | [], _, _, _, _ => rfl
  | c' :: rest, e₁, e₂, hp, he => by
    have hmatch := h.order_matches hw (hp c' List.mem_cons_self)
    rw [ordersMatch_cons, ordersMatch_cons]
    generalize orderResult ledger₁ w c' = x at hmatch ⊢
    generalize orderResult ledger₂ w c' = y at hmatch ⊢
    cases hmatch with
    | error e => rfl
    | @ok r₁ r₂ hr =>
      have hany : (e₁.any fun e => e ≠ r₁) = e₂.any fun e => e ≠ r₂ := by
        cases he with
        | none => rfl
        | some hj => simp only [Option.any_some, ne_eq, hj.eq_iff hr]
      dsimp only
      rw [hany, SameAt.orders_eq single
        (fun d hd => hp d (List.mem_cons_of_mem _ hd)) (.some hr)]

/-- **The check of a component reads its own cells**, in success and in failure. -/
theorem SameAt.component_eq (proof : SecondProof) :
    componentOrderIndependent ledger₁ w c proof = componentOrderIndependent ledger₂ w c proof := by
  have horders : allComponentOrdersMatch ledger₁ w c = allComponentOrdersMatch ledger₂ w c := by
    refine h.orders_eq hw _ (fun c' hc' => ?_) .none
    exact mem_enumerateOrders_nil.mp hc'
  have hsame : sameSideComponentValidity ledger₁ w c = sameSideComponentValidity ledger₂ w c := by
    cases c with
    | nil => rfl
    | cons first rest =>
      unfold sameSideComponentValidity
      dsimp only
      split
      · rename_i market outcome side amount price he
        have hk : (⟨market, outcome⟩ : MarketOutcomeId)
            ∈ (walletSystem w).keys (first :: rest) := by
          refine ⟨first, List.mem_cons_self, ?_⟩
          simp [walletSystem, LedgerMutation.touchedKeys, he]
        rw [h _ hk]
      · rfl
  unfold componentOrderIndependent
  rw [horders, hsame]

end

theorem keys_component_subset {l c : List LedgerMutation} (hc : c ∈ mutationComponents l) :
    (walletSystem w).keys c ⊆ (walletSystem w).keys l := by
  rintro k ⟨m, hm, hk⟩
  exact ⟨m, mem_of_mem_components hc hm, hk⟩

variable {config : SecondConfig}

section

variable {l : List LedgerMutation} (hw : ∀ m ∈ l, m.wallet = w)
  (h : SameAt w ((walletSystem w).keys l) ledger₁ ledger₂)

include hw h

theorem SameAt.component_eq_of_mem {c : List LedgerMutation} (hc : c ∈ mutationComponents l)
    (proof : SecondProof) :
    componentOrderIndependent ledger₁ w c proof = componentOrderIndependent ledger₂ w c proof :=
  (h.mono (keys_component_subset hc)).component_eq
    (fun m hm => hw m (mem_of_mem_components hc hm)) proof

theorem SameAt.validity_eq (proof : SecondProof) :
    orderIndependentValidity ledger₁ w l proof = orderIndependentValidity ledger₂ w l proof := by
  have hfirst : ∀ cs, (∀ c ∈ cs, c ∈ mutationComponents l) →
      firstOrderDependent ledger₁ w proof cs = firstOrderDependent ledger₂ w proof cs := by
    intro cs
    induction cs with
    | nil => intro _; rfl
    | cons c rest ih =>
      intro hcs
      have hrest := ih fun d hd => hcs d (List.mem_cons_of_mem _ hd)
      cases c with
      | nil => exact hrest
      | cons first more =>
        rw [firstOrderDependent, firstOrderDependent,
          h.component_eq_of_mem hw (hcs _ List.mem_cons_self) proof, hrest]
  exact hfirst _ fun c hc => hc

omit hw in
/-- The action of a trade is read off its own cell, once there is any quality. -/
theorem SameAt.tradeDecision_eq (hq : 0 < config.reconstructionQuality.val)
    {ms : List LedgerMutation} {m : LedgerMutation} (hm : m ∈ l) :
    tradeDecision config ledger₁ w ms m = tradeDecision config ledger₂ w ms m := by
  unfold tradeDecision
  split
  · rename_i market outcome side amount price he
    have hk : (⟨market, outcome⟩ : MarketOutcomeId) ∈ (walletSystem w).keys l :=
      ⟨m, hm, by simp [walletSystem, LedgerMutation.touchedKeys, he]⟩
    have hstate := h _ hk
    rw [PositionLedger.stateAt, PositionLedger.stateAt] at hstate
    have hq' : ∀ p : Option PositionSnapshot,
        ¬ (config.reconstructionQuality.val = 0 ∧ p.isNone = true) := by
      intro p hp
      omega
    simp only [classifyLeaderAction, if_neg (hq' _), hstate]
  · rfl

/-- **A complete second is classified by the cells it touches.** -/
theorem SameAt.classifyCompleteSecond_eq (hq : 0 < config.reconstructionQuality.val) :
    classifyCompleteSecond config ledger₁ w l = classifyCompleteSecond config ledger₂ w l := by
  unfold classifyCompleteSecond classifyWithSecondProof
  rw [h.validity_eq hw]
  have hdecisions : openDecisions config ledger₁ w l = openDecisions config ledger₂ w l :=
    List.filterMap_congr fun m hm => h.tradeDecision_eq hq hm
  have hsim := h.simulate hw (Set.Subset.refl _)
  cases orderIndependentValidity ledger₂ w l .repaired with
  | error e => rfl
  | ok verdict =>
    cases verdict with
    | some trigger => rfl
    | none =>
      simp only [ok_bind, hdecisions]
      generalize ledger₁.simulateAllOrNone l = x at hsim ⊢
      generalize ledger₂.simulateAllOrNone l = y at hsim ⊢
      cases hsim with
      | error e => rfl
      | @ok a b hab =>
        obtain ⟨candidate₁, applied₁⟩ := a
        obtain ⟨candidate₂, applied₂⟩ := b
        have happlied : applied₁ = applied₂ := hab.1
        rw [ok_bind, ok_bind, happlied]

end

/-! ## Scoped seconds -/

/-- The market outcomes that the mutations of the records touch. -/
def recordKeys (records : List SecondRecord) : Set MarketOutcomeId :=
  {k | ∃ r ∈ records, ∃ m, r.mutation = .ok m ∧ k ∈ m.touchedKeys}

section

variable {lookups : ScopeLookups} {dropped : Finset Scope} {records : List SecondRecord}
  {anomalies : List ActivityRowAnomaly}
  (hw : ∀ r ∈ records, ∀ m, r.mutation = .ok m → m.wallet = w)
  (h : SameAt w (recordKeys records) ledger₁ ledger₂)

theorem keys_pushedMutations :
    (walletSystem w).keys (pushedMutations lookups dropped records) ⊆ recordKeys records := by
  rintro k ⟨m, hm, hk⟩
  obtain ⟨r, hr, hp⟩ := mem_pushedMutations.mp hm
  exact ⟨r, hr, m, pushed_mutation hp, hk⟩

theorem keys_applied {ledger : PositionLedger} {s : Scan}
    (hs : scanSecond lookups ledger w dropped records anomalies = .ok s) :
    (walletSystem w).keys (s.applied lookups) ⊆ recordKeys records := by
  rintro k ⟨m, hm, hk⟩
  have hm' := (List.mem_filter.mp hm).1
  rw [(scanSecond_fields hs).1] at hm'
  exact keys_pushedMutations ⟨m, hm', hk⟩

include hw h

/-- The scan of a second reads the cells its records touch. -/
theorem SameAt.scanSecond_eq :
    scanSecond lookups ledger₁ w dropped records anomalies
      = scanSecond lookups ledger₂ w dropped records anomalies := by
  unfold scanSecond
  cases ht : (orderedRecords records).foldlM (recordStep lookups dropped)
      (anomalies.foldl (anomalyStep lookups dropped) .empty) with
  | error e =>
    rw [orderedRecords] at ht
    dsimp only
    rw [ht]
    rfl
  | ok t =>
    have hm := (scanRecords_fields ht).1
    rw [orderedRecords] at ht
    dsimp only
    rw [ht, ok_bind, ok_bind]
    refine foldlM_congr fun c hc s => ?_
    rw [hm] at hc
    have hcomponent := (h.mono keys_pushedMutations).component_eq_of_mem
      (fun m hm => pushed_wallet hw hm) hc .repaired
    unfold componentStep componentCause
    rw [hcomponent]

/-- **A scoped second is classified by the cells its records touch.** -/
theorem SameAt.classifyScoped_eq (hq : 0 < config.reconstructionQuality.val) (sourceSecond : Int)
    (certified : Bool) :
    classifyScopedSecondWithAnomalies config lookups ledger₁ w sourceSecond records anomalies
        dropped certified
      = classifyScopedSecondWithAnomalies config lookups ledger₂ w sourceSecond records anomalies
        dropped certified := by
  unfold classifyScopedSecondWithAnomalies
  rw [h.scanSecond_eq hw]
  cases hs : scanSecond lookups ledger₂ w dropped records anomalies with
  | error e => rfl
  | ok s =>
    have hcomplete := (h.mono (keys_applied hs)).classifyCompleteSecond_eq
      (applied_wallet hw hs) hq
    rw [Scan.applied] at hcomplete
    simp only [ok_bind]
    unfold concludeSecond
    dsimp only
    rw [hcomplete]

end

end PredictionEdge
