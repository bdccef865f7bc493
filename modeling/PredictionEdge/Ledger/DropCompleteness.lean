import PredictionEdge.Ledger.Isolation

/-!
# Nothing is left out silently

A record that moves shares ends in one of four ways: its mutation is applied, its key is
ignored and counted, its market is dropped, or the scope that the recorded evidence
resolves to is dropped. The last two differ: a drop goes to the market that the *stamped*
condition or token names, for a failing component the stamp of its first record, while a
record belongs to the market it was *rebound* to.
-/

namespace PredictionEdge

open Lib

variable {lookups : ScopeLookups} {dropped : Finset Scope} {ledger : PositionLedger}
  {w : WalletAddress} {records : List SecondRecord} {anomalies : List ActivityRowAnomaly}

/-! ## Where mutations come from -/

/-- A mutation of an aggregate, after any number of verified rebindings. -/
def MappedFrom (blake3 : List UInt8 → String) (arith : DecimalArith) (a : ActivityAggregate)
    (m : LedgerMutation) : Prop :=
  ∃ m₀, LedgerMutation.fromActivity blake3 arith a = .ok m₀
    ∧ ∃ bindings : List (MarketOutcomeId × String),
      m = bindings.foldl (fun m b => m.withVerifiedIdentity b.1 b.2) m₀

theorem foldl_withVerifiedIdentity_sourceTradeId : ∀ (bindings : List (MarketOutcomeId × String))
    (m : LedgerMutation), (bindings.foldl (fun m b => m.withVerifiedIdentity b.1 b.2) m).sourceTradeId
      = m.sourceTradeId
  | [], _ => rfl
  | b :: bindings, m => by
    rw [List.foldl_cons, foldl_withVerifiedIdentity_sourceTradeId]
    exact (m.withVerifiedIdentity_keeps b.1 b.2).1

variable {a : ActivityAggregate} {blake3 : List UInt8 → String} {c : List LedgerMutation}
  {arith : DecimalArith} {m : LedgerMutation}

theorem MappedFrom.sourceTradeId (h : MappedFrom blake3 arith a m) :
    m.sourceTradeId = a.groupId.key := by
  obtain ⟨m₀, h₀, bindings, rfl⟩ := h
  rw [foldl_withVerifiedIdentity_sourceTradeId, (LedgerMutation.fromActivity_ok h₀).1]

/-! ## Dropped scopes -/

variable {scope : Scope} {cause : DropCause}

theorem scopeIsDropped_of_mem (h : scope ∈ dropped) :
    scopeIsDropped scope dropped lookups = true := by
  obtain ⟨kind, id⟩ := scope
  cases kind with
  | event => simpa [scopeIsDropped] using h
  | market => simp [scopeIsDropped, marketIsDropped, h]

theorem scopeIsDropped_mono {dropped' : Finset Scope} (hsub : dropped ⊆ dropped')
    (h : scopeIsDropped scope dropped lookups = true) :
    scopeIsDropped scope dropped' lookups = true := by
  obtain ⟨kind, id⟩ := scope
  cases kind with
  | event =>
    simp only [scopeIsDropped, decide_eq_true_eq] at h ⊢
    exact hsub h
  | market => exact marketIsDropped_mono hsub h

/-! ## How each record ends -/

/-- The scan ignores a group. -/
def Scan.Ignores (s : Scan) (key : SourceTradeId) : Prop := key ∈ s.ignored.map Prod.fst

theorem Scan.Grows.ignores {s s' : Scan} (h : s.Grows s') {key : SourceTradeId}
    (hk : s.Ignores key) : s'.Ignores key := by
  obtain ⟨e, he, rfl⟩ := List.mem_map.mp hk
  exact List.mem_map.mpr ⟨e, h.ignored he, rfl⟩

/-- The scope is dropped, before this second or by what it has found. -/
def Scan.Drops (lookups : ScopeLookups) (dropped : Finset Scope) (s : Scan) (scope : Scope) : Prop :=
  scopeIsDropped scope (dropped ∪ s.newDrops) lookups = true

theorem Scan.Grows.drops {s s' : Scan} (h : s.Grows s') (hd : s.Drops lookups dropped scope) :
    s'.Drops lookups dropped scope := by
  refine scopeIsDropped_mono (Finset.union_subset_union_right fun x hx => ?_) hd
  exact mem_newDrops.mpr (h.problems x (mem_newDrops.mp hx))

theorem ignores_ignore (s : Scan) (key : SourceTradeId) (kind : ActivityType) :
    (s.ignore key kind).Ignores key :=
  List.mem_map.mpr ⟨(key, kind), List.mem_append_right _ (by simp), rfl⟩

theorem drops_report (s : Scan) (p : ScopeProblem) : (s.report p).Drops lookups dropped p.scope :=
  scopeIsDropped_of_mem (Finset.mem_union_right _ (mem_newDrops.mpr (report_isSome s p)))

theorem drops_of_old {s : Scan} (h : scopeIsDropped scope dropped lookups = true) :
    s.Drops lookups dropped scope :=
  scopeIsDropped_mono Finset.subset_union_left h

/-- The group is ignored, or the scope that the evidence resolves to is dropped. -/
def Scan.LeavesOut (lookups : ScopeLookups) (dropped : Finset Scope) (s : Scan)
    (key : SourceTradeId) (a : ActivityAggregate) (cause : DropCause) : Prop :=
  s.Ignores key
    ∨ ∃ scope, resolveProblemScope a cause lookups = some scope ∧ s.Drops lookups dropped scope

theorem Scan.Grows.leavesOut {s s' : Scan} (h : s.Grows s') {key : SourceTradeId} :
    s.LeavesOut lookups dropped key a cause → s'.LeavesOut lookups dropped key a cause :=
  Or.imp h.ignores fun ⟨scope, hres, hd⟩ => ⟨scope, hres, h.drops hd⟩

/-- A problem record is ignored, or its scope is dropped. -/
theorem problemStep_outcome (r : SecondRecord) (cause : DropCause) (s : Scan) :
    (problemStep lookups dropped r cause s).LeavesOut lookups dropped r.aggregate.groupId.key
      r.aggregate cause := by
  unfold problemStep
  cases hres : resolveProblemScope r.aggregate cause lookups with
  | none => exact Or.inl (ignores_ignore _ _ _)
  | some scope =>
    refine Or.inr ⟨scope, hres, ?_⟩
    simp only
    split
    · rename_i hd
      exact drops_of_old hd
    · exact drops_report _ _

theorem ignores_retract : ∀ (c : List LedgerMutation) (s : Scan), m ∈ c →
    s.effectiveRecords.lookup m.sourceTradeId.val = some a → (retract s c).Ignores m.sourceTradeId
  | x :: c, s, hm, ha => by
    rcases List.mem_cons.mp hm with rfl | hm
    · refine (retract_notes c (retractStep s m)).grows.ignores ?_
      simp only [retractStep, ha]
      exact ignores_ignore s m.sourceTradeId a.groupId.components.activityType
    · refine ignores_retract c (retractStep s x) hm ?_
      rw [(retractStep_notes s x).keeps.2.1]
      exact ha

/-- A failing component is ignored, or the scope of its first record is dropped. -/
theorem failComponent_outcome (s : Scan) (c : List LedgerMutation) (a : ActivityAggregate)
    (cause : DropCause) (id : SourceTradeId) {b : ActivityAggregate} (hm : m ∈ c)
    (hb : s.effectiveRecords.lookup m.sourceTradeId.val = some b) :
    (failComponent lookups dropped s c a cause id).LeavesOut lookups dropped m.sourceTradeId a
      cause := by
  unfold failComponent
  cases hres : resolveProblemScope a cause lookups with
  | none => exact Or.inl (ignores_retract c s hm hb)
  | some scope =>
    refine Or.inr ⟨scope, hres, ?_⟩
    simp only
    split
    · rename_i hd
      exact drops_of_old (scopeIsDropped_of_mem hd)
    · exact Scan.Grows.drops (.of_eq rfl rfl) (drops_report s ⟨scope, cause, id⟩)

/-- The stamped condition is a canonical scope id. -/
def stampIsCanonical (a : ActivityAggregate) : Bool :=
  a.groupId.components.conditionId.any fun c => canonicalScopeId c.val

/-- A record that moves shares and is a problem by itself has a stamp that is not canonical. -/
theorem mutationCause_of_effectMarket {market : MarketId}
    (hmarket : m.effect.effectMarket = some market) (h : mutationCause a m = some cause) :
    cause = .unmapped ∧ stampIsCanonical a = false := by
  unfold LedgerEffect.effectMarket at hmarket
  unfold mutationCause at h
  unfold stampIsCanonical
  cases he : m.effect.effective <;> rw [he] at h hmarket <;>
    simp_all [LedgerEffect.effectMarket, LedgerEffect.effective]

/-- How the records pass routes a record that moves shares. -/
theorem route_of_effectMarket {r : SecondRecord} {market : MarketId} (hm : r.mutation = .ok m)
    (hmarket : m.effect.effectMarket = some market) : r.route = .ok .tokenless
      ∨ (r.route = .ok (.problem .unmapped) ∧ stampIsCanonical r.aggregate = false)
      ∨ r.route = .ok (.effective m) := by
  have hraw : m.effect.effective ≠ .rawOnly := by
    intro he
    rw [LedgerEffect.effectMarket, he] at hmarket
    simp at hmarket
  simp only [SecondRecord.route, hm, if_neg hraw]
  split
  · exact Or.inl rfl
  · cases hc : mutationCause r.aggregate m with
    | none => exact Or.inr (Or.inr rfl)
    | some cause =>
      obtain ⟨rfl, hstamp⟩ := mutationCause_of_effectMarket hmarket hc
      exact Or.inr (Or.inl ⟨rfl, hstamp⟩)

section

variable {s : Scan} {r : SecondRecord}

/-- What a record's own step brings about, and no later step undoes, holds of the finished scan. -/
theorem reached_of_record {Q : Scan → Prop}
    (hs : scanSecond lookups ledger w dropped records anomalies = .ok s) (hr : r ∈ records)
    (hstep : ∀ s s', recordStep lookups dropped s r = .ok s' → Q s')
    (hkeep : ∀ {s s'}, s.Grows s' → Q s → Q s') : Q s := by
  obtain ⟨t, ht, hs⟩ := scanSecond_eq_ok.mp hs
  refine hkeep (scanComponents_grows (fun c hc => mutationComponents_ne_nil hc) hs) ?_
  exact foldlM_reaches (I := fun _ => True) (mem_orderedRecords.mpr hr)
    (fun _ _ _ _ _ _ => trivial) (fun s s' h _ => hstep s s' h)
    (fun s x _ s' h hq => hkeep (recordStep_grows h) hq) trivial ht

/-- A tokenless record is ignored. -/
theorem ignores_of_tokenless (hs : scanSecond lookups ledger w dropped records anomalies = .ok s)
    (hr : r ∈ records) (hroute : r.route = .ok .tokenless) : s.Ignores r.aggregate.groupId.key := by
  refine reached_of_record hs hr (fun s s' h => ?_) (fun hgrows => hgrows.ignores)
  rw [recordStep, hroute] at h
  rw [← Except.ok.inj h]
  exact ignores_ignore _ _ _

/-- A problem record is ignored or its scope is dropped. -/
theorem outcome_of_problem (hs : scanSecond lookups ledger w dropped records anomalies = .ok s)
    (hr : r ∈ records) (hroute : r.route = .ok (.problem cause)) :
    s.LeavesOut lookups dropped r.aggregate.groupId.key r.aggregate cause := by
  refine reached_of_record hs hr (fun s s' h => ?_) (fun hgrows => hgrows.leavesOut)
  rw [recordStep, hroute] at h
  rw [← Except.ok.inj h]
  exact problemStep_outcome r cause s

/-- A mutation of a failing component is ignored, or its first record's scope is dropped. -/
theorem outcome_of_failed (h : OwnKeys records)
    (hs : scanSecond lookups ledger w dropped records anomalies = .ok s)
    (hc : c ∈ mutationComponents (pushedMutations lookups dropped records)) (hm : m ∈ c)
    (hk : m.touchedKeys ≠ []) (hfail : ¬ Passes ledger w c) :
    ∃ r ∈ records, ∃ first cause, c.head? = some first ∧ r.mutation = .ok first
      ∧ componentCause ledger w c = .ok (some cause)
      ∧ s.LeavesOut lookups dropped m.sourceTradeId r.aggregate cause := by
  obtain ⟨t, ht, hs⟩ := scanSecond_eq_ok.mp hs
  obtain ⟨hmut, hev, _⟩ := scanRecords_fields ht
  have hne : ∀ c ∈ mutationComponents t.mutations, c ≠ [] :=
    fun c hc => mutationComponents_ne_nil hc
  refine foldlM_reaches
    (I := fun s => s.effectiveRecords = evidence lookups dropped records)
    (Q := fun s => ∃ r ∈ records, ∃ first cause, c.head? = some first ∧ r.mutation = .ok first
      ∧ componentCause ledger w c = .ok (some cause)
      ∧ s.LeavesOut lookups dropped m.sourceTradeId r.aggregate cause)
    (x := c) (hmut ▸ hc) ?_ ?_ ?_ hev hs
  · intro s d hd s' hstep hI
    rw [(componentStep_keeps hstep (hne d hd)).2]
    exact hI
  · intro s s' hstep hI
    rcases componentStep_inv hstep (mutationComponents_ne_nil hc) with
      ⟨hpass, _⟩ | ⟨first, more, cause, a, rfl, hcause, ha, rfl⟩
    · exact absurd (componentCause_eq_none.mp hpass) hfail
    · -- the evidence under the first id is the first record's own
      have hfirst := List.mem_cons_self (a := first) (l := more)
      have hkfirst := (component_market hc hm hfirst hk).1
      obtain ⟨r, hr, hrec⟩ := recorded_of_keyed (mem_of_mem_components hc hfirst) hkfirst
      rw [hI, h.lookup_evidence hr hrec, Option.some.injEq] at ha
      subst ha
      obtain ⟨r', hr', hrec'⟩ := recorded_of_keyed (mem_of_mem_components hc hm) hk
      have hb : s.effectiveRecords.lookup m.sourceTradeId.val = some r'.aggregate := by
        rw [hI]; exact h.lookup_evidence hr' hrec'
      exact ⟨r, hr, first, cause, rfl, (route_ok (recorded_eq_some.mp hrec).1).1, hcause,
        failComponent_outcome s (first :: more) r.aggregate cause first.sourceTradeId hm hb⟩
  · intro s d hd s' hstep hq
    obtain ⟨r, hr, first, cause, hf, hm, hc, hout⟩ := hq
    exact ⟨r, hr, first, cause, hf, hm, hc, (componentStep_grows hstep (hne d hd)).leavesOut hout⟩

end

/-! ## Every record is accounted for -/

/--
A record that moves shares is left out under its evidence: its own stamp is not canonical
and resolves to a dropped scope, or its component fails and the evidence of the
component's first record resolves to a dropped scope.
-/
def DroppedByEvidence (lookups : ScopeLookups) (ledger : PositionLedger) (w : WalletAddress)
    (dropped : Finset Scope) (records : List SecondRecord) (drops : Finset Scope)
    (r : SecondRecord) (m : LedgerMutation) : Prop :=
  (stampIsCanonical r.aggregate = false
    ∧ ∃ scope, resolveProblemScope r.aggregate .unmapped lookups = some scope
      ∧ scopeIsDropped scope drops lookups = true)
  ∨ ∃ c ∈ mutationComponents (pushedMutations lookups dropped records), m ∈ c
    ∧ ∃ r' ∈ records, ∃ first cause scope, c.head? = some first ∧ r'.mutation = .ok first
      ∧ componentCause ledger w c = .ok (some cause)
      ∧ resolveProblemScope r'.aggregate cause lookups = some scope
      ∧ scopeIsDropped scope drops lookups = true

/-- The evidence of every record of the market resolves to that market or to nothing. -/
def EvidenceNames (lookups : ScopeLookups) (records : List SecondRecord) (market : MarketId) :
    Prop :=
  ∀ r ∈ records, ∀ m, r.mutation = .ok m → m.effect.effectMarket = some market →
    ∀ scope, resolveProblemScope r.aggregate .unmapped lookups = some scope →
      scope = ⟨.market, market.text⟩

/-- A failing component resolves its first record's scope as an unmapped record does. -/
theorem resolveProblemScope_of_componentCause (h : componentCause ledger w c = .ok (some cause))
    (a : ActivityAggregate) :
    resolveProblemScope a cause lookups = resolveProblemScope a .unmapped lookups := by
  rcases componentCause_eq_some h with rfl | rfl | rfl <;> rfl

section

variable {s : Scan} {r : SecondRecord} {m : LedgerMutation} {market : MarketId}

/-- What becomes of a record that moves shares, in a finished scan. -/
theorem record_outcome (h : OwnKeys records)
    (hs : scanSecond lookups ledger w dropped records anomalies = .ok s) (hr : r ∈ records)
    (hm : r.mutation = .ok m) (hmarket : m.effect.effectMarket = some market) :
    m ∈ s.applied lookups ∨ s.Ignores r.aggregate.groupId.key
      ∨ marketIsDropped market.text (dropped ∪ s.newDrops) lookups = true
      ∨ DroppedByEvidence lookups ledger w dropped records (dropped ∪ s.newDrops) r m := by
  rcases route_of_effectMarket hm hmarket with hroute | ⟨hroute, hstamp⟩ | hroute
  · exact Or.inr (Or.inl (ignores_of_tokenless hs hr hroute))
  · rcases outcome_of_problem hs hr hroute with hi | hd
    · exact Or.inr (Or.inl hi)
    · exact Or.inr (Or.inr (Or.inr (Or.inl ⟨hstamp, hd⟩)))
  -- an effective record: its market may be dropped already, else it reaches the order proof
  have hk : m.touchedKeys ≠ [] := LedgerMutation.touchedKeys_ne_nil_iff.mpr (by rw [hmarket]; rfl)
  by_cases hold : marketIsDropped market.text dropped lookups = true
  · exact Or.inr (Or.inr (Or.inl (marketIsDropped_mono Finset.subset_union_left hold)))
  have hrec : r.recorded lookups dropped = some m := by
    refine recorded_eq_some.mpr ⟨hroute, ?_⟩
    rw [recordMarket_of_keyed hk, hmarket]
    simpa using hold
  have hpushed : m ∈ pushedMutations lookups dropped records :=
    mem_pushedMutations.mpr ⟨r, hr, pushed_eq_some.mpr (Or.inr hrec)⟩
  obtain ⟨c, hc, hmc⟩ := exists_component LedgerMutation.touchedKeys hpushed
  by_cases hpass : Passes ledger w c
  · -- outside every failure only a new drop of the market keeps the mutation back
    by_cases hnew : marketIsDropped market.text s.newDrops lookups = true
    · exact Or.inr (Or.inr (Or.inl (marketIsDropped_mono Finset.subset_union_right hnew)))
    · left
      have hfailed : m.sourceTradeId.val ∉ s.failed :=
        fun hf => (mem_failed_iff h hs hc hmc).mp hf hpass
      refine List.mem_filter.mpr ⟨by rw [(scanSecond_fields hs).1]; exact hpushed, ?_⟩
      simp only [Scan.survives, evidenceMarket_of_keyed h hs hpushed hk, hmarket]
      simp [hfailed, hnew]
  · obtain ⟨r', hr', first, cause, hf, hm', hcause, hi | ⟨scope, hres, hd⟩⟩ :=
      outcome_of_failed h hs hc hmc hk hpass
    · rw [h.own r hr m hm] at hi
      exact Or.inr (Or.inl hi)
    · exact Or.inr (Or.inr (Or.inr (Or.inr
        ⟨c, hc, hmc, r', hr', first, cause, scope, hf, hm', hcause, hres, hd⟩)))

/-- Evidence that names the record's own market drops that market. -/
theorem DroppedByEvidence.marketIsDropped {drops : Finset Scope}
    (h : DroppedByEvidence lookups ledger w dropped records drops r m) (hr : r ∈ records)
    (hm : r.mutation = .ok m) (hmarket : m.effect.effectMarket = some market)
    (hnames : EvidenceNames lookups records market) :
    marketIsDropped market.text drops lookups = true := by
  rcases h with ⟨_, scope, hres, hd⟩ | ⟨c, hc, hmc, r', hr', first, cause, scope, hf, hm', hcause,
    hres, hd⟩
  · rw [hnames r hr m hm hmarket scope hres] at hd
    exact hd
  · have hk : m.touchedKeys ≠ [] :=
      LedgerMutation.touchedKeys_ne_nil_iff.mpr (by rw [hmarket]; rfl)
    -- a component stays in one market, so the first record's market is this one's
    have hfirst := (component_market hc hmc (List.mem_of_mem_head? hf) hk).2
    rw [resolveProblemScope_of_componentCause hcause] at hres
    rw [hnames r' hr' first hm' (hfirst.trans hmarket) scope hres] at hd
    exact hd

end

/-- The mutation is applied, its group is ignored, or its market is dropped. -/
def ScopedSecond.Accounts (lookups : ScopeLookups) (dropped : Finset Scope) (result : ScopedSecond)
    (r : SecondRecord) (m : LedgerMutation) (market : MarketId) : Prop :=
  m ∈ result.apply ∨ r.aggregate.groupId.key ∈ result.ignored.map Prod.fst
    ∨ marketIsDropped market.text (dropped ∪ result.problemScopes) lookups = true

/--
**Every record that moves shares is accounted for.**

It is applied, ignored and counted, or left out because its market is dropped or because
the scope its recorded evidence resolves to is dropped. Where the evidence of the market's
records names that market, the last case is a drop of the market too.
-/
theorem scopedSecond_dropComplete (blake3 : List UInt8 → String) (arith : DecimalArith)
    (config : SecondConfig) (lookups : ScopeLookups) (ledger : PositionLedger) (w : WalletAddress)
    (sourceSecond : Int) (records : List SecondRecord) (anomalies : List ActivityRowAnomaly)
    (dropped : Finset Scope) (certified : Bool) (result : ScopedSecond)
    (hdistinct : (records.map fun r => r.aggregate.groupId.key).Nodup)
    (hmapped : ∀ r ∈ records, ∀ m, r.mutation = .ok m → MappedFrom blake3 arith r.aggregate m)
    (hok : classifyScopedSecondWithAnomalies config lookups ledger w sourceSecond records anomalies
      dropped certified = .ok result) :
    ∀ r ∈ records, ∀ m, r.mutation = .ok m → ∀ market, m.effect.effectMarket = some market →
      (result.Accounts lookups dropped r m market
        ∨ DroppedByEvidence lookups ledger w dropped records (dropped ∪ result.problemScopes) r m)
      ∧ (EvidenceNames lookups records market → result.Accounts lookups dropped r m market) := by
  have h : OwnKeys records := ⟨hdistinct, fun r hr m hm => (hmapped r hr m hm).sourceTradeId⟩
  obtain ⟨_, s, hs, hconclude⟩ := classifyScoped_eq_ok.mp hok
  obtain ⟨_, decisions, _, _, rfl⟩ := concludeSecond_eq_ok.mp hconclude
  intro r hr m hm market hmarket
  have hignored : s.Ignores r.aggregate.groupId.key → r.aggregate.groupId.key ∈
      (scopedResult lookups certified s decisions).ignored.map Prod.fst :=
    ((sortOn_perm _ s.ignored).map Prod.fst).mem_iff.mpr
  have hmain : (scopedResult lookups certified s decisions).Accounts lookups dropped r m market
      ∨ DroppedByEvidence lookups ledger w dropped records
        (dropped ∪ (scopedResult lookups certified s decisions).problemScopes) r m := by
    rw [ScopedSecond.Accounts, problemScopes_eq hs]
    rcases record_outcome h hs hr hm hmarket with ha | hi | hd | he
    · exact Or.inl (Or.inl ha)
    · exact Or.inl (Or.inr (Or.inl (hignored hi)))
    · exact Or.inl (Or.inr (Or.inr hd))
    · exact Or.inr he
  refine ⟨hmain, fun hnames => hmain.elim id fun he => ?_⟩
  exact Or.inr (Or.inr (he.marketIsDropped hr hm hmarket hnames))

/-! A redemption stamped with one market and rebound to another, of shares never held. -/

def reboundAggregate : ActivityAggregate :=
  ⟨⟨⟨"g2:8bab7cad9488f5bb2d3cd572e061e9338cc81c81b86a8a7142dee9cfa7deeed1"⟩,
      ⟨.redeem, sampleWallet, "0xabc", some ⟨"0xa1"⟩, some ⟨"7"⟩, some ⟨0⟩, none⟩⟩,
    shares 500, .zero, ⟨0⟩, false⟩

/-- The digest of the aggregate's canonical components. -/
def reboundDigest : List UInt8 → String :=
  fun _ => "8bab7cad9488f5bb2d3cd572e061e9338cc81c81b86a8a7142dee9cfa7deeed1"

def stampedRedemption : LedgerMutation :=
  ⟨reboundAggregate.groupId.key, "0xabc", sampleWallet, ⟨0⟩, .redeem ⟨⟨"0xa1"⟩⟩ ⟨0⟩ (shares 500)⟩

def reboundRedemption : LedgerMutation :=
  stampedRedemption.withVerifiedIdentity ⟨⟨⟨"0xb2"⟩⟩, ⟨0⟩⟩ "ev"

def reboundRecord : SecondRecord := ⟨reboundAggregate, .ok reboundRedemption⟩

theorem reboundRecord_mapped :
    ∀ r ∈ [reboundRecord], ∀ m, r.mutation = .ok m →
      MappedFrom reboundDigest .rounded r.aggregate m := by
  intro r hr m hm
  obtain rfl := List.mem_singleton.mp hr
  obtain rfl : reboundRedemption = m := by simpa [reboundRecord] using hm
  exact ⟨stampedRedemption, by decide +kernel, [(⟨⟨⟨"0xb2"⟩⟩, ⟨0⟩⟩, "ev")], rfl⟩

/-- The redemption of market `0xb2` is neither applied nor ignored, and only `0xa1` is dropped. -/
theorem reboundRecord_left_out :
    (∀ r ∈ [reboundRecord], ∀ m, r.mutation = .ok m →
      MappedFrom reboundDigest .rounded r.aggregate m)
    ∧ reboundRedemption.effect.effectMarket = some ⟨⟨"0xb2"⟩⟩
    ∧ ∃ result, classifyScopedSecondWithAnomalies sampleConfig sampleLookups .new sampleWallet 0
        [reboundRecord] [] ∅ false = .ok result
      ∧ ¬ result.Accounts sampleLookups ∅ reboundRecord reboundRedemption ⟨⟨"0xb2"⟩⟩ := by
  refine ⟨reboundRecord_mapped, by decide +kernel, ?_⟩
  obtain ⟨result, hok, hp⟩ := exists_ok_of_any
    (x := classifyScopedSecondWithAnomalies sampleConfig sampleLookups .new sampleWallet 0
      [reboundRecord] [] ∅ false)
    (p := fun result => decide (reboundRedemption ∉ result.apply ∧ result.ignored = []
      ∧ marketIsDropped "0xb2" (∅ ∪ result.problemScopes) sampleLookups = false))
    (by decide +kernel)
  obtain ⟨happly, hignored, hdrop⟩ := of_decide_eq_true hp
  refine ⟨result, hok, ?_⟩
  rintro (ha | hi | hd)
  · exact happly ha
  · simp [hignored] at hi
  · exact absurd hd (by rw [MarketId.text, hdrop]; simp)

theorem reboundRecord_dropComplete :
    ∃ result, classifyScopedSecondWithAnomalies sampleConfig sampleLookups .new sampleWallet 0
        [reboundRecord] [] ∅ false = .ok result
      ∧ (result.Accounts sampleLookups ∅ reboundRecord reboundRedemption ⟨⟨"0xb2"⟩⟩
        ∨ DroppedByEvidence sampleLookups .new sampleWallet ∅ [reboundRecord]
          (∅ ∪ result.problemScopes) reboundRecord reboundRedemption) := by
  obtain ⟨result, hok, _⟩ := exists_ok_of_any
    (x := classifyScopedSecondWithAnomalies sampleConfig sampleLookups .new sampleWallet 0
      [reboundRecord] [] ∅ false) (p := fun _ => true) (by decide +kernel)
  exact ⟨result, hok, (scopedSecond_dropComplete reboundDigest .rounded sampleConfig sampleLookups
    .new sampleWallet 0 [reboundRecord] [] ∅ false result (by decide +kernel) reboundRecord_mapped
    hok reboundRecord List.mem_cons_self reboundRedemption rfl ⟨⟨"0xb2"⟩⟩ (by decide +kernel)).1⟩

end PredictionEdge
