import PredictionEdge.Ledger.Decisions

/-!
# First entries over a run

A run of seconds remembers the markets already entered: a second is asked about exactly
the markets that the first entries of earlier order-independent seconds named. Over the
whole run each market is then admitted at most once, and an admission always names what
it stands for.
-/

namespace PredictionEdge

variable {w : WalletAddress}

/-! ## A run of seconds -/

/-- A complete second of a wallet as it is handed to the classifier. -/
structure SecondInput where
  ledger : PositionLedger
  mutations : List LedgerMutation
  entryPolicy : SameSecondEntryPolicy
  reconstructionQuality : ReconstructionQuality
  signalConfig : SignalConfig
  historyComplete : Bool

namespace SecondInput

/-- The second is asked about exactly the markets recorded before it. -/
def config (s : SecondInput) (recorded : List MarketId) : SecondConfig :=
  ⟨s.entryPolicy, s.reconstructionQuality, s.signalConfig, s.historyComplete,
    fun market => market ∈ recorded⟩

def verdict (w : WalletAddress) (recorded : List MarketId) (s : SecondInput) :
    Except LedgerError SecondVerdict :=
  classifyCompleteSecond (s.config recorded) s.ledger w s.mutations

end SecondInput

/-- The markets a verdict records: those of its first entries. -/
def enteredMarkets : Except LedgerError SecondVerdict → List MarketId
  | .ok (.orderIndependent _ _ firstEntries) => firstEntries.map Prod.fst
  | _ => []

def verdictDecisions : Except LedgerError SecondVerdict → List TradeDecision
  | .ok (.orderIndependent _ decisions _) => decisions
  | _ => []

/-- The markets recorded after a run of seconds. -/
def recordedAfter (w : WalletAddress) : List MarketId → List SecondInput → List MarketId
  | recorded, [] => recorded
  | recorded, s :: rest => recordedAfter w (recorded ++ enteredMarkets (s.verdict w recorded)) rest

/-- Every decision of a run of seconds. -/
def runDecisions (w : WalletAddress) : List MarketId → List SecondInput → List TradeDecision
  | _, [] => []
  | recorded, s :: rest => verdictDecisions (s.verdict w recorded) ++
      runDecisions w (recorded ++ enteredMarkets (s.verdict w recorded)) rest

def TradeDecision.isAdmittedIn (market : MarketId) (d : TradeDecision) : Bool :=
  decide (d.entry = .admitted) && decide (d.marketId = market)

variable {recorded : List MarketId} {s : SecondInput} {market : MarketId}

/-- **One second's admissions.** -/
theorem verdict_admitted (hid : DistinctIds s.mutations) {applied : List AppliedEffect}
    {decisions : List TradeDecision} {firstEntries : List (MarketId × SourceTradeId)}
    (h : s.verdict w recorded = .ok (.orderIndependent applied decisions firstEntries)) :
    ∀ d ∈ decisions, d.entry = .admitted →
      d.side = .buy ∧ d.action = .entry ∧ (d.marketId, d.sourceTradeId) ∈ firstEntries
        ∧ s.historyComplete = true ∧ d.marketId ∉ recorded := by
  intro d hd hadm
  obtain ⟨_, _, hset⟩ := classifyCompleteSecond_inv h
  rw [settleEntries_eq _ _ _ (openDecisions_nodup _ _ _ hid), Prod.mk.injEq] at hset
  rw [← hset.1] at hd
  obtain ⟨e, he, rfl⟩ := List.mem_map.mp hd
  obtain ⟨hc, hm, hh, hf⟩ := settled_admitted he hadm
  have hkept := settled_keeps (s.config recorded) w s.mutations
    (openDecisions (s.config recorded) s.ledger w s.mutations) e
  have hcand := hc
  simp only [TradeDecision.isCandidate, Bool.decide_and, Bool.and_eq_true,
    decide_eq_true_eq] at hcand
  rw [hkept.1, hkept.2.1, hkept.2.2.1, hkept.2.2.2]
  refine ⟨hcand.1, hcand.2, ?_, hh, by simpa [SecondInput.config] using hm⟩
  rw [← hset.2]
  exact isFirst_mem_firstEntries he hc hm hf

theorem length_le_one {ds : List TradeDecision} (hnd : (ds.map (·.sourceTradeId)).Nodup)
    (hone : ∀ d ∈ ds, ∀ e ∈ ds, d.sourceTradeId = e.sourceTradeId) : ds.length ≤ 1 := by
  match ds, hnd, hone with
  | [], _, _ => simp
  | [_], _, _ => simp
  | d :: e :: rest, hnd, hone =>
    have hsame := hone d (by simp) e (by simp)
    simp [hsame] at hnd

/-- A second admits a market at most once. -/
theorem verdict_admitted_once (hid : DistinctIds s.mutations) (market : MarketId) :
    ((verdictDecisions (s.verdict w recorded)).filter
      (TradeDecision.isAdmittedIn market)).length ≤ 1 := by
  match h : s.verdict w recorded with
  | .error _ => simp [verdictDecisions]
  | .ok (.orderDependent _) => simp [verdictDecisions]
  | .ok (.orderIndependent applied decisions firstEntries) =>
    obtain ⟨_, _, hset⟩ := classifyCompleteSecond_inv h
    have hD := openDecisions_nodup (s.config recorded) s.ledger w hid
    rw [settleEntries_eq _ _ _ hD, Prod.mk.injEq] at hset
    simp only [verdictDecisions, ← hset.1]
    generalize openDecisions (s.config recorded) s.ledger w s.mutations = D at hD
    rw [List.filter_map, List.length_map]
    -- two admissions of the market would both be its first, hence one decision
    refine length_le_one (hD.sublist (List.filter_sublist.map _)) fun d hd e he => ?_
    obtain ⟨hdD, hda⟩ := List.mem_filter.mp hd
    obtain ⟨heD, hea⟩ := List.mem_filter.mp he
    simp only [Function.comp_apply, TradeDecision.isAdmittedIn, Bool.and_eq_true,
      decide_eq_true_eq, (settled_keeps _ _ _ _ _).2.2.1] at hda hea
    obtain ⟨hdc, _, _, hdf⟩ := settled_admitted hdD hda.1
    obtain ⟨hec, _, _, hef⟩ := settled_admitted heD hea.1
    exact isFirst_unique hdD heD hdc hec (hda.2.trans hea.2.symm) hdf hef

/-- A market recorded before is not admitted again. -/
theorem verdict_not_admitted (hid : DistinctIds s.mutations) (hm : market ∈ recorded) :
    (verdictDecisions (s.verdict w recorded)).filter (TradeDecision.isAdmittedIn market) = [] := by
  refine List.filter_eq_nil_iff.mpr fun d hd hadm => ?_
  simp only [TradeDecision.isAdmittedIn, Bool.and_eq_true, decide_eq_true_eq] at hadm
  match h : s.verdict w recorded, hd with
  | .ok (.orderIndependent applied decisions firstEntries), hd =>
    have := (verdict_admitted hid h d hd hadm.1).2.2.2.2
    exact this (hadm.2 ▸ hm)

/-- An admitted market is recorded by its own second. -/
theorem verdict_records (hid : DistinctIds s.mutations) {d : TradeDecision}
    (hd : d ∈ verdictDecisions (s.verdict w recorded)) (hadm : d.entry = .admitted) :
    d.marketId ∈ enteredMarkets (s.verdict w recorded) := by
  match h : s.verdict w recorded, hd with
  | .ok (.orderIndependent applied decisions firstEntries), hd =>
    exact List.mem_map.mpr ⟨_, (verdict_admitted hid h d hd hadm).2.2.1, rfl⟩

theorem runDecisions_recorded : ∀ {seconds : List SecondInput}
    {recorded : List MarketId}, (∀ s ∈ seconds, DistinctIds s.mutations) → market ∈ recorded →
    (runDecisions w recorded seconds).filter (TradeDecision.isAdmittedIn market) = []
  | [], recorded, _, _ => rfl
  | s :: rest, recorded, hid, hm => by
    rw [runDecisions, List.filter_append, verdict_not_admitted (hid s List.mem_cons_self) hm,
      runDecisions_recorded (fun x hx => hid x (List.mem_cons_of_mem _ hx))
        (List.mem_append_left _ hm)]
    rfl

/-- Over a run a market is admitted at most once. -/
theorem runDecisions_admitted_once : ∀ {seconds : List SecondInput}
    {recorded : List MarketId}, (∀ s ∈ seconds, DistinctIds s.mutations) →
    ((runDecisions w recorded seconds).filter (TradeDecision.isAdmittedIn market)).length ≤ 1
  | [], recorded, _ => by simp [runDecisions]
  | s :: rest, recorded, hid => by
    have hids := hid s List.mem_cons_self
    have hrest := fun x hx => hid x (List.mem_cons_of_mem s hx)
    rw [runDecisions, List.filter_append, List.length_append]
    cases hf : (verdictDecisions (s.verdict w recorded)).filter
        (TradeDecision.isAdmittedIn market) with
    | nil =>
      rw [List.length_nil, Nat.zero_add]
      exact runDecisions_admitted_once hrest
    | cons d ds =>
      -- admitted here, the market is recorded and stays out of the rest
      have hdm : d ∈ (verdictDecisions (s.verdict w recorded)).filter
          (TradeDecision.isAdmittedIn market) := by rw [hf]; exact List.mem_cons_self
      obtain ⟨hd, hadm⟩ := List.mem_filter.mp hdm
      simp only [TradeDecision.isAdmittedIn, Bool.and_eq_true, decide_eq_true_eq] at hadm
      have hrec := verdict_records hids hd hadm.1
      rw [hadm.2] at hrec
      rw [runDecisions_recorded hrest (List.mem_append_right _ hrec), List.length_nil,
        Nat.add_zero, ← hf]
      exact verdict_admitted_once hids market

/--
**Each market is entered once.**

Over any run of seconds, each with distinct identifiers, a market is admitted at most
once; and in the second after any part of the run, an admitted decision is a purchase
that opens a position, is one of that second's first entries, and was made with a
complete history in a market not recorded before.
-/
theorem run_admits_once (w : WalletAddress) (seconds : List SecondInput)
    (hid : ∀ s ∈ seconds, DistinctIds s.mutations) :
    (∀ market, ((runDecisions w [] seconds).filter
        (TradeDecision.isAdmittedIn market)).length ≤ 1)
      ∧ ∀ before s after, seconds = before ++ s :: after →
        ∀ applied decisions firstEntries,
          s.verdict w (recordedAfter w [] before)
            = .ok (.orderIndependent applied decisions firstEntries) →
          ∀ d ∈ decisions, d.entry = .admitted →
            d.side = .buy ∧ d.action = .entry ∧ (d.marketId, d.sourceTradeId) ∈ firstEntries
              ∧ s.historyComplete = true ∧ d.marketId ∉ recordedAfter w [] before := by
  refine ⟨fun market => runDecisions_admitted_once hid, ?_⟩
  intro before s after hs applied decisions firstEntries h
  exact verdict_admitted (hid s (by rw [hs]; simp)) h

/-- Two purchases of one market in a row: the first second admits, the second cannot. -/
def sampleRun : List SecondInput :=
  [⟨.new, sampleSecond, .homogeneousPieces, sampleConfig.reconstructionQuality, .default, true⟩,
   ⟨.new, [sampleMutation "g2:4" (.trade ⟨⟨"0xa1"⟩⟩ ⟨0⟩ .buy (shares 3) samplePrice)],
    .legacy, sampleConfig.reconstructionQuality, .default, true⟩]

theorem sampleRun_admits_once :
    (runDecisions sampleWallet [] sampleRun).length = 3
      ∧ (∀ market, ((runDecisions sampleWallet [] sampleRun).filter
          (TradeDecision.isAdmittedIn market)).length ≤ 1)
      ∧ ∃ d ∈ sampleDecisions, d.entry = .admitted ∧ d.side = .buy ∧ d.action = .entry
          ∧ (d.marketId, d.sourceTradeId) ∈ [(d.marketId, (⟨"g2:1"⟩ : SourceTradeId))] := by
  have h := run_admits_once sampleWallet sampleRun (by unfold DistinctIds; decide +kernel)
  obtain ⟨d, hd, hadm, hmkt⟩ : ∃ d ∈ sampleDecisions, d.entry = .admitted
      ∧ d.marketId = ⟨⟨"0xa1"⟩⟩ := by decide +kernel
  refine ⟨by decide +kernel, h.1, d, hd, hadm, ?_⟩
  obtain ⟨hside, haction, hfirst, _⟩ := h.2 [] _ _ rfl (sampleSecond.map fun m => ⟨m.effect, none⟩)
    sampleDecisions [(⟨⟨"0xa1"⟩⟩, ⟨"g2:1"⟩)] (by decide +kernel) d hd hadm
  exact ⟨hside, haction, hmkt ▸ hfirst⟩

end PredictionEdge
