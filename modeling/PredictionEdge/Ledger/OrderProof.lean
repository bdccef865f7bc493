import PredictionEdge.Ledger.SameSide

/-!
# What the order proof proves

The classifier looks at components one at a time, at most four mutations of each in
every order, and folds same-side trades once. Here that evidence is turned into the
statement it stands for: a component that passes is free of its order (`OrderFree`),
components share no market outcome, and a batch all of whose components are order-free
runs in every order of the whole batch and ends with one snapshot.
-/

namespace PredictionEdge

open Lib

variable {w : WalletAddress} {ledger : PositionLedger}

/-- What one order of a component is judged by. -/
def orderResult (ledger : PositionLedger) (w : WalletAddress) (sequence : List LedgerMutation) :
    Except LedgerError OrderResult :=
  (ledger.simulateAllOrNone sequence).map fun r => (r.1.position w, r.2.map (·.clampedResidual))

/-- Every order of the component succeeds with one and the same result. -/
def OrderFree (ledger : PositionLedger) (w : WalletAddress) (c : List LedgerMutation) : Prop :=
  ∃ r, ∀ c', c'.Perm c → orderResult ledger w c' = .ok r

variable {c l : List LedgerMutation} {outcome : OutcomeId} {market : MarketId} {side : Side}
  {c' l' : List LedgerMutation} {applied : List AppliedEffect} {config : SecondConfig}
  {m : LedgerMutation}

theorem OrderFree.perm (hp : c'.Perm c) (h : OrderFree ledger w c) : OrderFree ledger w c' := by
  obtain ⟨r, hr⟩ := h
  exact ⟨r, fun d hd => hr d (hd.trans hp)⟩

theorem orderResult_ok_iff {p : Option PositionSnapshot} {res : List (Option Nat)}
    (hw : ∀ m ∈ c, m.wallet = w) :
    orderResult ledger w c = .ok (p, res) ↔
      ∃ s os, (walletSystem w).run c (freshBatch ledger) = .ok (s, os) ∧ s.ledger.position w = p
        ∧ os.map (fun o => o.2.clampedResidual) = res := by
  rw [orderResult, simulateAllOrNone_eq_run ledger hw]
  cases (walletSystem w).run c (freshBatch ledger) with
  | error e => simp [Except.map]
  | ok r => simp [Except.map, Prod.ext_iff, Function.comp_def]

/-! ## Enumerated components -/

theorem ordersMatch_ok_true_iff {single : Bool} : ∀ {expected : Option OrderResult}
    {sequences : List (List LedgerMutation)},
    ordersMatch ledger w single expected sequences = .ok true ↔
      ∃ r, (∀ e ∈ expected, e = r) ∧ ∀ c ∈ sequences, orderResult ledger w c = .ok r
  | expected, [] => by
    simp only [ordersMatch, true_iff]
    cases expected with
    | none => exact ⟨(none, []), by simp, by simp⟩
    | some e => exact ⟨e, by simp, by simp⟩
  | expected, c :: rest => by
    cases hs : ledger.simulateAllOrNone c with
    | error e =>
      -- an order that fails leaves no common result
      simp only [ordersMatch, hs]
      have hne : ∀ r, orderResult ledger w c ≠ .ok r := by
        intro r; rw [orderResult, hs]; simp [Except.map]
      cases single <;> simp [hne]
    | ok p =>
      obtain ⟨candidate, applied⟩ := p
      have hr : orderResult ledger w c
          = .ok (candidate.position w, applied.map (·.clampedResidual)) := by
        rw [orderResult, hs]; rfl
      simp only [ordersMatch, hs]
      generalize (candidate.position w, applied.map (·.clampedResidual)) = r0 at *
      split
      · -- an earlier order ended elsewhere
        rename_i hne
        simp only [Except.ok.injEq, Bool.false_eq_true, false_iff]
        rintro ⟨r, he, hc⟩
        have hrr := hc c List.mem_cons_self
        rw [hr, Except.ok.injEq] at hrr
        cases expected with
        | none => simp at hne
        | some e => simp [he e rfl, hrr] at hne
      · rename_i hne
        rw [ordersMatch_ok_true_iff]
        constructor
        · rintro ⟨r, he, hc⟩
          have hr0 : r0 = r := he r0 rfl
          subst hr0
          refine ⟨r0, ?_, List.forall_mem_cons.mpr ⟨hr, hc⟩⟩
          cases expected with
          | none => simp
          | some e => simpa using hne
        · rintro ⟨r, _, hc⟩
          have hrr := hc c List.mem_cons_self
          rw [hr, Except.ok.injEq] at hrr
          exact ⟨r, by simp [hrr], fun d hd => hc d (List.mem_cons_of_mem _ hd)⟩

/-- **The enumeration passes exactly when the component is free of its order.** -/
theorem allComponentOrdersMatch_ok_true_iff :
    allComponentOrdersMatch ledger w c = .ok true ↔ OrderFree ledger w c := by
  rw [allComponentOrdersMatch, ordersMatch_ok_true_iff]
  simp only [enumerateMutationOrders, mem_enumerateOrders_nil]
  constructor
  · rintro ⟨r, _, h⟩; exact ⟨r, h⟩
  · rintro ⟨r, h⟩; exact ⟨r, by simp, h⟩

/-! ## Same-side components -/

/-- All of the component trades on one side of one market outcome of the wallet. -/
def SameSide (w : WalletAddress) (market : MarketId) (outcome : OutcomeId) (side : Side)
    (c : List LedgerMutation) : Prop :=
  ∀ m ∈ c, isSameSideTrade w market outcome side m = true

theorem sameSideComponentValidity_of_sameSide (hne : c ≠ [])
    (h : SameSide w market outcome side c) :
    sameSideComponentValidity ledger w c =
      some ((foldSameSide side c ((ledger.stateAt w ⟨market, outcome⟩).getD .default)).map
        fun _ => ()) := by
  cases c with
  | nil => exact absurd rfl hne
  | cons m c =>
    obtain ⟨_, amount, price, he⟩ := isSameSideTrade_iff.mp (h m List.mem_cons_self)
    simp only [sameSideComponentValidity, he]
    rw [if_pos (List.all_eq_true.mpr h)]

/-- The fold is tried on exactly the nonempty same-side components. -/
theorem sameSideComponentValidity_eq_some {v : Except LedgerError Unit}
    (h : sameSideComponentValidity ledger w c = some v) :
    c ≠ [] ∧ ∃ market outcome side, SameSide w market outcome side c := by
  cases c with
  | nil => simp [sameSideComponentValidity] at h
  | cons m c =>
    refine ⟨by simp, ?_⟩
    simp only [sameSideComponentValidity] at h
    split at h
    · rename_i market outcome side _ _ _
      split at h
      · rename_i hall
        exact ⟨market, outcome, side, List.all_eq_true.mp hall⟩
      · simp at h
    · simp at h

/-- The keys of a same-side component are its one market outcome. -/
theorem SameSide.touchedKeys (h : SameSide w market outcome side c) (hm : m ∈ c) :
    m.touchedKeys = [⟨market, outcome⟩] := by
  obtain ⟨_, amount, price, he⟩ := isSameSideTrade_iff.mp (h m hm)
  simp only [LedgerMutation.touchedKeys, he]

theorem SameSide.wallet (h : SameSide w market outcome side c) (hm : m ∈ c) :
    m.wallet = w := (isSameSideTrade_iff.mp (h m hm)).1

theorem SameSide.perm (hp : c'.Perm c) (h : SameSide w market outcome side c) :
    SameSide w market outcome side c' := fun m hm => h m (hp.mem_iff.mp hm)

/-- **A same-side component whose fold succeeds is free of its order.** -/
theorem SameSide.orderFree (h : SameSide w market outcome side c) {st : PositionState}
    (hf : foldSameSide side c ((ledger.stateAt w ⟨market, outcome⟩).getD .default) = .ok st) :
    OrderFree ledger w c := by
  have hcell := cell_freshBatch (w := w) ledger ⟨market, outcome⟩
  have hrun : ∀ c', c'.Perm c → ∃ s os, (walletSystem w).run c' (freshBatch ledger) = .ok (s, os)
      ∧ (c' ≠ [] → s.cell w ⟨market, outcome⟩ = ⟨some st, false⟩)
      ∧ ∀ o ∈ os, o.2.clampedResidual = none := by
    intro c' hp
    refine run_sameSide (h.perm hp) (by rw [hcell]) ?_
    rw [hcell, foldSameSide_perm hp fun m hm => isTrade_of_isSameSideTrade (h m hm)]
    exact hf
  obtain ⟨s0, os0, hr0, hc0, ho0⟩ := hrun c (.refl c)
  refine ⟨(s0.ledger.position w, List.replicate c.length none), fun c' hp => ?_⟩
  obtain ⟨s, os, hr, hc, ho⟩ := hrun c' hp
  refine (orderResult_ok_iff fun m hm => (h.perm hp).wallet hm).mpr ⟨s, os, hr, ?_, ?_⟩
  · refine run_position_perm hp hr hr0 fun k ⟨m, hm, hkm⟩ => ?_
    -- the one cell of the component ends in the state of the fold
    have hkey : k = ⟨market, outcome⟩ := by
      have : k ∈ m.touchedKeys := hkm
      rw [h.touchedKeys hm] at this
      exact List.mem_singleton.mp this
    have hne : c ≠ [] := List.ne_nil_of_mem hm
    have hne' : c' ≠ [] := List.ne_nil_of_mem (hp.mem_iff.mpr hm)
    subst hkey
    exact congrArg Cell.state ((hc hne').trans (hc0 hne).symm)
  · have hlen : os.length = c.length := by
      rw [← hp.length_eq, ← LocalSystem.run_tags hr, List.length_map]
    refine List.eq_replicate_iff.mpr ⟨by rw [List.length_map, hlen], fun x hx => ?_⟩
    obtain ⟨o, hom, rfl⟩ := List.mem_map.mp hx
    exact ho o hom

/-! ## One component -/

/-- A same-side component is free of its order exactly when its fold succeeds. -/
theorem SameSide.orderFree_iff (h : SameSide w market outcome side c) :
    OrderFree ledger w c ↔ ∃ st, foldSameSide side c
      ((ledger.stateAt w ⟨market, outcome⟩).getD .default) = .ok st := by
  constructor
  · rintro ⟨⟨p, res⟩, hr⟩
    obtain ⟨t, os, hrun, _⟩ := (orderResult_ok_iff fun m hm => h.wallet hm).mp (hr c (.refl c))
    have hf := foldSameSide_of_run h (by rw [cell_freshBatch]) hrun
    rwa [cell_freshBatch] at hf
  · rintro ⟨st, hf⟩
    exact h.orderFree hf

/--
**What the repaired proof accepts.**

A component passes exactly when it is free of its order and the proof can see it: it
is small enough to enumerate, or all of it trades on one side of one outcome.
-/
theorem componentOrderIndependent_ok_true_iff :
    componentOrderIndependent ledger w c .repaired = .ok true ↔
      OrderFree ledger w c
        ∧ (c.length ≤ 4 ∨ ∃ market outcome side, SameSide w market outcome side c) := by
  simp only [componentOrderIndependent]
  cases hv : sameSideComponentValidity ledger w c with
  | none =>
    -- the fold says nothing only of a component that is empty or not same-side
    have hno : c.length ≤ 4 ∨ ¬ ∃ market outcome side, SameSide w market outcome side c := by
      by_cases hnil : c = []
      · left; rw [hnil]; simp
      · right
        rintro ⟨market, outcome, side, hs⟩
        rw [sameSideComponentValidity_of_sameSide hnil hs] at hv
        simp at hv
    by_cases hlen : c.length ≤ 4
    · rw [if_pos hlen, allComponentOrdersMatch_ok_true_iff]
      exact ⟨fun h => ⟨h, Or.inl hlen⟩, fun h => h.1⟩
    · rcases hno with hno | hno
      · exact absurd hno hlen
      · simp [hlen, hno]
  | some v =>
    obtain ⟨hne, market, outcome, side, hs⟩ := sameSideComponentValidity_eq_some hv
    rw [sameSideComponentValidity_of_sameSide hne hs, Option.some.injEq] at hv
    rw [hs.orderFree_iff]
    cases hf : foldSameSide side c ((ledger.stateAt w ⟨market, outcome⟩).getD .default) with
    | ok st =>
      rw [hf] at hv
      rw [← hv]
      simp only [Except.map, true_iff]
      exact ⟨⟨st, rfl⟩, Or.inr ⟨market, outcome, side, hs⟩⟩
    | error e =>
      rw [hf] at hv
      rw [← hv]
      simp only [Except.map]
      split <;> simp

/-- The verdict on a component does not depend on its order. -/
theorem componentOrderIndependent_perm (hp : c'.Perm c)
    (h : componentOrderIndependent ledger w c .repaired = .ok true) :
    componentOrderIndependent ledger w c' .repaired = .ok true := by
  rw [componentOrderIndependent_ok_true_iff] at h ⊢
  refine ⟨h.1.perm hp, ?_⟩
  rcases h.2 with hlen | ⟨market, outcome, side, hs⟩
  · exact Or.inl (hp.length_eq ▸ hlen)
  · exact Or.inr ⟨market, outcome, side, hs.perm hp⟩

/-! ## The whole batch -/

/-- The check passes when it passes on every component. -/
theorem firstOrderDependent_eq_none (proof : SecondProof) : ∀ (cs : List (List LedgerMutation)),
    firstOrderDependent ledger w proof cs = .ok none ↔
      ∀ c ∈ cs, c ≠ [] → componentOrderIndependent ledger w c proof = .ok true
  | [] => by simp [firstOrderDependent]
  | [] :: rest => by
    rw [firstOrderDependent, firstOrderDependent_eq_none]
    simp
  | (m :: c) :: rest => by
    have ih := firstOrderDependent_eq_none proof rest
    cases h : componentOrderIndependent ledger w (m :: c) proof with
    | error e => simp [firstOrderDependent, h, bind, Except.bind]
    | ok b =>
      cases b with
      | false => simp [firstOrderDependent, h, bind, Except.bind, pure, Except.pure]
      | true => simp [firstOrderDependent, h, bind, Except.bind, ih]

theorem mutationComponents_ne_nil (hc : c ∈ mutationComponents l) :
    c ≠ [] := components_ne_nil hc

theorem orderIndependentValidity_eq_none {proof : SecondProof} :
    orderIndependentValidity ledger w l proof = .ok none ↔
      ∀ c ∈ mutationComponents l, componentOrderIndependent ledger w c proof = .ok true := by
  rw [orderIndependentValidity, firstOrderDependent_eq_none]
  exact ⟨fun h c hc => h c hc (mutationComponents_ne_nil hc), fun h c hc _ => h c hc⟩

/-- The components of a batch touch no cell in common. -/
theorem mutationComponents_apart (w : WalletAddress) (l : List LedgerMutation) :
    (mutationComponents l).Pairwise (walletSystem w).Apart :=
  components_disjoint LedgerMutation.touchedKeys l

theorem OrderFree.runsInEveryOrder (hw : ∀ m ∈ c, m.wallet = w) (h : OrderFree ledger w c) :
    (walletSystem w).RunsInEveryOrder (freshBatch ledger) c := by
  obtain ⟨⟨p, res⟩, hr⟩ := h
  intro c' hp
  obtain ⟨s, os, hrun, _⟩ :=
    (orderResult_ok_iff fun m hm => hw m (hp.mem_iff.mp hm)).mp (hr c' hp)
  exact ⟨_, hrun⟩

/-- The states an order-free component ends in do not depend on its order. -/
theorem OrderFree.stateAt_eq {c₁ c₂ : List LedgerMutation} (hw : ∀ m ∈ c, m.wallet = w)
    (h : OrderFree ledger w c) (h₁ : c₁.Perm c) (h₂ : c₂.Perm c) {s₁ s₂ : Batch}
    {o₁ o₂ : List (LedgerMutation × AppliedEffect)}
    (hr₁ : (walletSystem w).run c₁ (freshBatch ledger) = .ok (s₁, o₁))
    (hr₂ : (walletSystem w).run c₂ (freshBatch ledger) = .ok (s₂, o₂)) (k : MarketOutcomeId) :
    s₁.ledger.stateAt w k = s₂.ledger.stateAt w k := by
  obtain ⟨⟨p, res⟩, hr⟩ := h
  have hpos : ∀ {c' : List LedgerMutation} {s : Batch} {o : List (LedgerMutation × AppliedEffect)},
      c'.Perm c → (walletSystem w).run c' (freshBatch ledger) = .ok (s, o) →
      s.ledger.position w = p := by
    intro c' s o hp hrun
    obtain ⟨s', o', hrun', hpos, _⟩ :=
      (orderResult_ok_iff fun m hm => hw m (hp.mem_iff.mp hm)).mp (hr c' hp)
    rw [hrun, Except.ok.injEq, Prod.mk.injEq] at hrun'
    rw [hrun'.1, hpos]
  simp only [PositionLedger.stateAt, hpos h₁ hr₁, hpos h₂ hr₂]

section

variable (hw : ∀ m ∈ l, m.wallet = w) (h : ∀ c ∈ mutationComponents l, OrderFree ledger w c)

include hw h

/--
**A batch of order-free components runs in every order.**

The components are disjoint blocks of a local system, so any interleaving of any of
their orders runs, ends on a component's cells where that component ends in some order
of its own, and carries that order's outputs.
-/
theorem batch_run (hp : l'.Perm l) :
    ∃ s os, (walletSystem w).run l' (freshBatch ledger) = .ok (s, os)
      ∧ ∀ c ∈ mutationComponents l, ∃ c' t oc, c'.Perm c
        ∧ (walletSystem w).run c' (freshBatch ledger) = .ok (t, oc)
        ∧ (walletSystem w).SameOn ((walletSystem w).keys c) s t ∧ oc.Sublist os := by
  refine LocalSystem.run_blocks (mutationComponents_apart w l) (fun c hc => ?_)
    (hp.trans (components_flatten LedgerMutation.touchedKeys l).symm)
  exact (h c hc).runsInEveryOrder fun m hm => hw m (mem_of_mem_components hc hm)

theorem batch_snapshot :
    ∃ p, ∀ l', l'.Perm l → ∃ s os, (walletSystem w).run l' (freshBatch ledger) = .ok (s, os)
      ∧ s.ledger.position w = p := by
  have hwc : ∀ c ∈ mutationComponents l, ∀ m ∈ c, m.wallet = w :=
    fun c hc m hm => hw m (mem_of_mem_components hc hm)
  have hflat := components_flatten LedgerMutation.touchedKeys l
  obtain ⟨s₀, o₀, hr₀, hb₀⟩ := batch_run hw h (.refl l)
  refine ⟨s₀.ledger.position w, fun l' hp => ?_⟩
  obtain ⟨s, o, hr, hb⟩ := batch_run hw h hp
  refine ⟨s, o, hr, run_position_perm hp hr hr₀ fun k hk => ?_⟩
  rw [← LocalSystem.keys_perm hflat, LocalSystem.keys_flatten] at hk
  obtain ⟨c, hc, hkc⟩ := hk
  obtain ⟨c₁, t₁, _, hp₁, hr₁, hs₁, _⟩ := hb c hc
  obtain ⟨c₂, t₂, _, hp₂, hr₂, hs₂, _⟩ := hb₀ c hc
  calc s.ledger.stateAt w k = t₁.ledger.stateAt w k := congrArg Cell.state (hs₁ k hkc)
    _ = t₂.ledger.stateAt w k := (h c hc).stateAt_eq (hwc c hc) hp₁ hp₂ hr₁ hr₂ k
    _ = s₀.ledger.stateAt w k := (congrArg Cell.state (hs₂ k hkc)).symm

end

/-! ## The verdict -/

/-- Pairwise distinct identifiers. -/
def DistinctIds (l : List LedgerMutation) : Prop := (l.map LedgerMutation.sourceTradeId).Nodup

theorem DistinctIds.perm (hp : l'.Perm l) (h : DistinctIds l) :
    DistinctIds l' := (hp.map _).nodup_iff.mpr h

theorem DistinctIds.inj (h : DistinctIds l) {a b : LedgerMutation} (ha : a ∈ l) (hb : b ∈ l)
    (he : a.sourceTradeId = b.sourceTradeId) : a = b :=
  List.inj_on_of_nodup_map h ha hb he

/-- What an order-independent verdict was built from. -/
theorem classifyCompleteSecond_inv {decisions : List TradeDecision}
    {firstEntries : List (MarketId × SourceTradeId)} (h : classifyCompleteSecond config ledger w l
      = .ok (.orderIndependent applied decisions firstEntries)) :
    orderIndependentValidity ledger w l .repaired = .ok none
      ∧ (∃ ledger', ledger.simulateAllOrNone l = .ok (ledger', applied))
      ∧ settleEntries config w l (openDecisions config ledger w l)
        = (decisions, firstEntries) := by
  simp only [classifyCompleteSecond, classifyWithSecondProof, bind, Except.bind] at h
  cases hv : orderIndependentValidity ledger w l .repaired with
  | error e => rw [hv] at h; simp at h
  | ok o =>
    rw [hv] at h
    cases o with
    | some t => simp [pure, Except.pure] at h
    | none =>
      cases hs : ledger.simulateAllOrNone l with
      | error e => rw [hs] at h; simp at h
      | ok p =>
        rw [hs] at h
        simp only [pure, Except.pure, Except.ok.injEq,
          SecondVerdict.orderIndependent.injEq] at h
        exact ⟨rfl, ⟨p.1, by rw [← h.1]⟩, Prod.ext h.2.1 h.2.2⟩

/-- How an order-independent verdict is put together. -/
theorem classifyCompleteSecond_of {ledger' : PositionLedger}
    (hv : orderIndependentValidity ledger w l .repaired = .ok none)
    (hs : ledger.simulateAllOrNone l = .ok (ledger', applied)) :
    classifyCompleteSecond config ledger w l = .ok (.orderIndependent applied
      (settleEntries config w l (openDecisions config ledger w l)).1
      (settleEntries config w l (openDecisions config ledger w l)).2) := by
  simp only [classifyCompleteSecond, classifyWithSecondProof, hv, hs, bind, Except.bind, pure,
    Except.pure]

/--
**An order-independent second is independent of its order.**

Every permutation of the batch, across components as well as inside them, succeeds,
and the wallet's snapshot is the same after each.
-/
theorem orderIndependent_every_order (config : SecondConfig) (ledger : PositionLedger)
    (w : WalletAddress) (l : List LedgerMutation) (hw : ∀ m ∈ l, m.wallet = w)
    (applied : List AppliedEffect) (decisions : List TradeDecision)
    (firstEntries : List (MarketId × SourceTradeId))
    (h : classifyCompleteSecond config ledger w l
      = .ok (.orderIndependent applied decisions firstEntries)) :
    ∃ snapshot, ∀ l', l'.Perm l → ∃ ledger' applied',
      ledger.simulateAllOrNone l' = .ok (ledger', applied')
        ∧ ledger'.position w = snapshot := by
  obtain ⟨hv, _, _⟩ := classifyCompleteSecond_inv h
  obtain ⟨p, hp⟩ := batch_snapshot hw fun c hc =>
    (componentOrderIndependent_ok_true_iff.mp (orderIndependentValidity_eq_none.mp hv c hc)).1
  refine ⟨p, fun l' hl => ?_⟩
  obtain ⟨s, os, hr, hpos⟩ := hp l' hl
  exact ⟨s.ledger, os.map Prod.snd, (simulateAllOrNone_ok_iff fun m hm =>
    hw m (hl.mem_iff.mp hm)).mpr ⟨s, os, hr, rfl, rfl⟩, hpos⟩

/-! A second of two purchases of one outcome and a split of another market. -/

def sampleWallet : WalletAddress := ⟨0xaa⟩

theorem half_representable : Representable (1 / 2) := by decide +kernel

def samplePrice : Price := ⟨⟨1 / 2, half_representable⟩⟩

def shares (n : UInt64) : ShareAmount := ⟨n.toNat, n.toNat_lt⟩

def sampleMutation (id : String) (effect : LedgerEffect) : LedgerMutation :=
  ⟨⟨id⟩, "0xabc", sampleWallet, ⟨0⟩, effect⟩

def sampleConfig : SecondConfig :=
  ⟨.homogeneousPieces, ⟨100, by decide⟩, .default, true, fun _ => false⟩

def sampleSecond : List LedgerMutation :=
  [sampleMutation "g2:1" (.trade ⟨⟨"0xa1"⟩⟩ ⟨0⟩ .buy (shares 10) samplePrice),
   sampleMutation "g2:2" (.split ⟨⟨"0xb2"⟩⟩ (shares 5)),
   sampleMutation "g2:3" (.trade ⟨⟨"0xa1"⟩⟩ ⟨0⟩ .buy (shares 7) samplePrice)]

def sampleDecisions : List TradeDecision :=
  [⟨⟨"g2:1"⟩, ⟨⟨"0xa1"⟩⟩, ⟨0⟩, .buy, shares 10, samplePrice, .entry, false, .admitted⟩,
   ⟨⟨"g2:3"⟩, ⟨⟨"0xa1"⟩⟩, ⟨0⟩, .buy, shares 7, samplePrice, .entry, true, .notFirstEntry⟩]

theorem sampleSecond_every_order :
    ∃ snapshot, ∀ l', l'.Perm sampleSecond → ∃ ledger' applied',
      PositionLedger.new.simulateAllOrNone l' = .ok (ledger', applied')
        ∧ ledger'.position sampleWallet = snapshot :=
  orderIndependent_every_order sampleConfig .new sampleWallet sampleSecond (by decide +kernel)
    (sampleSecond.map fun m => ⟨m.effect, none⟩) sampleDecisions [(⟨⟨"0xa1"⟩⟩, ⟨"g2:1"⟩)]
    (by decide +kernel)

end PredictionEdge
