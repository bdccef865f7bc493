import PredictionEdge.Projection.WalletClassifier

/-!
# Restricting the ledger changes nothing

The history pass classifies each second against a ledger of the touched positions alone.
Replayed beside one ledger that holds every position from the start, it shows the same
classified seconds, fails where the full replay fails and in the same way, and ends with
the positions of the full ledger: a second reads and writes what its mutations touch, a
position that is absent reads as one that was never held, and the snapshot that the
restricted ledger always has tells nothing once there is any reconstruction quality.
-/

namespace PredictionEdge

open Lib

/-! ## What the restricted ledger holds -/

theorem Positions.lookup_keep (positions restricted : Positions) (key k : MarketOutcomeId) :
    (positions.keep restricted key).lookup k
      = if k = key then (positions.lookup k).or (restricted.lookup k) else restricted.lookup k := by
  unfold keep
  by_cases hk : k = key
  · subst hk
    cases positions.lookup k with
    | none => simp
    | some state => simp [Finmap.lookup_insert]
  · rw [if_neg hk]
    cases positions.lookup key with
    | none => rfl
    | some state => exact Finmap.lookup_insert_of_ne _ hk

theorem Positions.lookup_restrict (positions : Positions) (keys : List MarketOutcomeId)
    (k : MarketOutcomeId) :
    (positions.restrict keys).lookup k = if k ∈ keys then positions.lookup k else none := by
  have hfold : ∀ (keys : List MarketOutcomeId) (acc : Positions),
      (keys.foldl positions.keep acc).lookup k
        = if k ∈ keys then (positions.lookup k).or (acc.lookup k) else acc.lookup k := by
    intro keys
    induction keys with
    | nil => intro acc; simp
    | cons key rest ih =>
      intro acc
      rw [List.foldl_cons, ih, lookup_keep]
      by_cases hk : k = key
      · subst hk
        cases positions.lookup k <;> simp
      · simp only [hk, List.mem_cons, false_or, if_false]
  rw [restrict, hfold]
  simp

theorem mem_touchedByRecords {records : List SecondRecord} {k : MarketOutcomeId} :
    k ∈ touchedByRecords records ↔ k ∈ recordKeys records := by
  simp only [touchedByRecords, List.mem_flatMap, recordKeys, Set.mem_ofPred_eq]
  refine exists_congr fun r => and_congr_right fun _ => ?_
  cases r.mutation <;> simp

namespace WalletClassifier

variable {self : WalletClassifier} {records : List SecondRecord} {k : MarketOutcomeId}

theorem stateAt_restrictedLedger_of_mem (hk : k ∈ recordKeys records) :
    (self.restrictedLedger records).stateAt self.wallet k = self.positions.lookup k := by
  rw [restrictedLedger, stateAt_replaceWalletSnapshot, Positions.lookup_restrict,
    if_pos (mem_touchedByRecords.mpr hk)]

theorem stateAt_restrictedLedger_of_not_mem (hk : k ∉ recordKeys records) :
    (self.restrictedLedger records).stateAt self.wallet k = none := by
  rw [restrictedLedger, stateAt_replaceWalletSnapshot, Positions.lookup_restrict,
    if_neg (mem_touchedByRecords.not.mpr hk)]

theorem lookup_writeBack (self : WalletClassifier) (ledger : PositionLedger)
    (k : MarketOutcomeId) :
    (self.writeBack ledger).lookup k
      = (ledger.stateAt self.wallet k).or (self.positions.lookup k) := by
  rw [writeBack, PositionLedger.stateAt]
  cases ledger.position self.wallet with
  | none => rfl
  | some snapshot =>
    dsimp only [Option.bind_some]
    cases hs : snapshot.positions.lookup k with
    | none => simp [Finmap.lookup_union_right (Finmap.lookup_eq_none.mp hs)]
    | some state =>
      have hmem : k ∈ snapshot.positions := Finmap.mem_iff.mpr ⟨state, hs⟩
      rw [Finmap.lookup_union_left hmem, hs]
      rfl

end WalletClassifier

/-! ## A batch keeps what it does not touch, and removes nothing -/

section

variable {w : WalletAddress} {ledger ledger' : PositionLedger} {l : List LedgerMutation}
  {applied : List AppliedEffect} {k : MarketOutcomeId}

theorem simulate_frame (hw : ∀ m ∈ l, m.wallet = w)
    (h : ledger.simulateAllOrNone l = .ok (ledger', applied)) (hk : k ∉ (walletSystem w).keys l) :
    ledger'.stateAt w k = ledger.stateAt w k := by
  obtain ⟨s, os, hrun, rfl, _⟩ := (simulateAllOrNone_ok_iff hw).mp h
  exact congrArg Cell.state (LocalSystem.run_frame hrun k hk)

theorem writeCells_isSome :
    ∀ (us : List (MarketOutcomeId × PositionState × Bool)) (s : Batch),
      ((s.cell w k).state).isSome → ((s.writeCells w us).cell w k).state.isSome
  | [], _, h => h
  | u :: us, s, h => by
    refine writeCells_isSome us (s.writeCell w u) ?_
    rw [Batch.cell_writeCell]
    split
    · rfl
    · exact h

theorem run_isSome {s t : Batch} {os : List (LedgerMutation × AppliedEffect)}
    (h : (walletSystem w).run l s = .ok (t, os)) :
    (s.cell w k).state.isSome → (t.cell w k).state.isSome := by
  induction h using LocalSystem.run_induction with
  | nil s => exact id
  | cons m l s s' t o os _ hstep hrun ih =>
    intro hs
    obtain ⟨hw, happly⟩ := walletSystem_step_ok hstep
    obtain ⟨r, -, rfl, -⟩ := applyInPlace_ok happly
    rw [hw] at ih
    exact ih (writeCells_isSome _ _ hs)

/-- A position that was held is still there afterwards, if only at zero. -/
theorem simulate_isSome (hw : ∀ m ∈ l, m.wallet = w)
    (h : ledger.simulateAllOrNone l = .ok (ledger', applied)) (hk : (ledger.stateAt w k).isSome) :
    (ledger'.stateAt w k).isSome := by
  obtain ⟨s, os, hrun, rfl, _⟩ := (simulateAllOrNone_ok_iff hw).mp h
  exact run_isSome (k := k) hrun hk

end

/-! ## One second -/

theorem verifiedMutation_wallet {blake3 : List UInt8 → String} {arith : DecimalArith}
    {tokens : String → Option PayoutTokens} {a : ActivityAggregate} {m : LedgerMutation}
    (h : verifiedMutation blake3 arith tokens a = .ok m) :
    m.wallet = a.groupId.components.wallet := by
  obtain ⟨m', hm', h⟩ := bind_eq_ok.mp h
  have hrebind : ∀ condition asset market, (rebind m' condition asset market).wallet = m'.wallet := by
    intro condition asset market
    unfold rebind
    split
    · split
      · exact (m'.withVerifiedIdentity_keeps _ _).2
      · rfl
    · split
      · exact (m'.withVerifiedIdentity_keeps _ _).2
      · rfl
    · rfl
  rw [← (LedgerMutation.fromActivity_ok hm').2.1]
  dsimp only at h
  split at h
  · split at h
    · rw [← pure_eq_ok.mp h, hrebind]
    · rw [← pure_eq_ok.mp h]
  · rw [← pure_eq_ok.mp h]

variable {ledger₁ ledger₂ : PositionLedger} {self' : ClassifierState}

namespace ClassifierState

variable {self : ClassifierState} {payout : BoundPayouts} {s : HistoricalSecond}
  {records : List SecondRecord}

/-- The pass keeps whose history it is and how well it was reconstructed. -/
structure SameSubject (before after : ClassifierState) : Prop where
  wallet : after.wallet = before.wallet
  quality : after.quality = before.quality

theorem SameSubject.refl (self : ClassifierState) : SameSubject self self := ⟨rfl, rfl⟩

theorem SameSubject.trans {a b c : ClassifierState} (h : SameSubject a b) (h' : SameSubject b c) :
    SameSubject a c :=
  ⟨h'.wallet.trans h.wallet, h'.quality.trans h.quality⟩

theorem sameSubject_advanceTo (self : ClassifierState) (second : Int) :
    SameSubject self (self.advanceTo second).1 := ⟨rfl, rfl⟩

theorem sameSubject_recordProblems (second : Int) :
    ∀ (problems : List ScopeProblem) (self : ClassifierState),
      SameSubject self (problems.foldl (recordProblem second) self)
  | [], self => .refl self
  | problem :: rest, self => by
    refine SameSubject.trans ?_ (sameSubject_recordProblems second rest _)
    unfold recordProblem recordDrop
    split
    · exact ⟨rfl, rfl⟩
    · exact .refl self

theorem sameSubject_recordIgnored {ignored : List (SourceTradeId × ActivityType)}
    (h : ignored.foldlM (recordIgnored s) self = .ok self') : SameSubject self self' := by
  refine foldlM_rel SameSubject.refl SameSubject.trans ?_ h
  intro self entry _ self' hentry
  obtain ⟨kept, hkept, hentry⟩ := bind_eq_ok.mp hentry
  obtain ⟨count, _, hentry⟩ := bind_eq_ok.mp hentry
  rw [← pure_eq_ok.mp hentry]
  unfold keepUnresolved at hkept
  split at hkept
  · obtain ⟨anomaly, _, hkept⟩ := bind_eq_ok.mp hkept
    rw [← pure_eq_ok.mp hkept]
    exact ⟨rfl, rfl⟩
  · rw [← Except.ok.inj hkept]
    exact ⟨rfl, rfl⟩

variable {ledger : PositionLedger} {ledger' : PositionLedger} {l : List LedgerMutation}

theorem applySecond_ok {second : Int} :
    self.applySecond ledger second l = .ok ledger' ↔
      ∃ applied, ledger.simulateAllOrNone l = .ok (ledger', applied) := by
  unfold applySecond PositionLedger.applyAllOrNone
  cases ledger.simulateAllOrNone l with
  | error e => simp
  | ok p => simp [Prod.ext_iff, eq_comm]

theorem applySecond_matches (self : ClassifierState) (second : Int) {w : WalletAddress}
    {S : Set MarketOutcomeId} (h : SameAt w S ledger₁ ledger₂) (hw : ∀ m ∈ l, m.wallet = w)
    (hl : (walletSystem w).keys l ⊆ S) :
    Matches (SameAt w S) (self.applySecond ledger₁ second l)
      (self.applySecond ledger₂ second l) := by
  have hmatch := h.simulate hw hl
  unfold applySecond PositionLedger.applyAllOrNone
  generalize ledger₁.simulateAllOrNone l = x at hmatch ⊢
  generalize ledger₂.simulateAllOrNone l = y at hmatch ⊢
  cases hmatch with
  | error e => exact .error _
  | ok hr => exact .ok hr.2

section

variable (hw : ∀ r ∈ records, ∀ m, r.mutation = .ok m → m.wallet = self.wallet)

include hw

/-- What a classified second hands back touches the keys of its records. -/
theorem classify_apply {certified : Bool} {r : ScopedSecond}
    (h : self.classify payout ledger s records certified = .ok r) :
    (∀ m ∈ r.apply, m.wallet = self.wallet)
      ∧ (walletSystem self.wallet).keys r.apply ⊆ recordKeys records := by
  have hscoped : ∀ {config second anomalies},
      classifyScopedSecondWithAnomalies config payout.lookups ledger self.wallet second records
        anomalies self.dropped certified = .ok r →
      (∀ m ∈ r.apply, m.wallet = self.wallet)
        ∧ (walletSystem self.wallet).keys r.apply ⊆ recordKeys records := by
    intro config second anomalies hr
    obtain ⟨_, scan, hscan, hconclude⟩ := classifyScoped_eq_ok.mp hr
    obtain ⟨_, _, _, _, rfl⟩ := concludeSecond_eq_ok.mp hconclude
    exact ⟨applied_wallet hw hscan, keys_applied hscan⟩
  unfold classify at h
  split at h
  · exact hscoped h
  · exact hscoped h

/-- A second is classified alike over ledgers that agree on its keys. -/
theorem classify_eq (hq : 0 < self.quality.val)
    (h : SameAt self.wallet (recordKeys records) ledger₁ ledger₂) (certified : Bool) :
    self.classify payout ledger₁ s records certified
      = self.classify payout ledger₂ s records certified := by
  unfold classify classifyScopedSecond
  dsimp only
  rw [h.classifyScoped_eq hw hq, h.classifyScoped_eq hw hq]

/-- A second that went through: what it applied, and to what. -/
theorem secondAgainst_ok {out : ClassifiedSecond}
    (h : self.secondAgainst payout ledger s records = .ok ((self', ledger'), out)) :
    SameSubject self self' ∧ (∀ m ∈ out.classified.apply, m.wallet = self.wallet)
      ∧ (walletSystem self.wallet).keys out.classified.apply ⊆ recordKeys records
      ∧ ∃ applied, ledger.simulateAllOrNone out.classified.apply = .ok (ledger', applied) := by
  unfold secondAgainst at h
  have hadvance := sameSubject_advanceTo self s.second
  generalize self.advanceTo s.second = advanced at h hadvance
  obtain ⟨self₁, certified⟩ := advanced
  obtain ⟨classified, hclassified, h⟩ := bind_eq_ok.mp h
  obtain ⟨self₂, hignored, h⟩ := bind_eq_ok.mp h
  obtain ⟨rows, _, h⟩ := bind_eq_ok.mp h
  obtain ⟨ledger₁, happly, h⟩ := bind_eq_ok.mp h
  obtain ⟨hstate, rfl⟩ := Prod.mk.inj (pure_eq_ok.mp h)
  obtain ⟨rfl, rfl⟩ := Prod.mk.inj hstate
  have hsubject : SameSubject self self₂ :=
    hadvance.trans ((sameSubject_recordProblems _ _ _).trans (sameSubject_recordIgnored hignored))
  have hwallet : self₁.wallet = self.wallet := hadvance.wallet
  have happlied := classify_apply (by rwa [hwallet]) (mapError_eq_ok.mp hclassified)
  rw [hwallet] at happlied
  exact ⟨⟨hsubject.wallet, hsubject.quality⟩, happlied.1, happlied.2, applySecond_ok.mp happly⟩

/-- A second goes the same way over ledgers that agree on its keys. -/
theorem secondAgainst_matches (payout : BoundPayouts) (s : HistoricalSecond)
    (hq : 0 < self.quality.val) (h : SameAt self.wallet (recordKeys records) ledger₁ ledger₂) :
    Matches
      (fun x y => x.1.1 = y.1.1 ∧ SameAt self.wallet (recordKeys records) x.1.2 y.1.2 ∧ x.2 = y.2)
      (self.secondAgainst payout ledger₁ s records)
      (self.secondAgainst payout ledger₂ s records) := by
  unfold secondAgainst
  have hadvance := sameSubject_advanceTo self s.second
  generalize self.advanceTo s.second = advanced at hadvance
  obtain ⟨self₁, certified⟩ := advanced
  have hwallet : self₁.wallet = self.wallet := hadvance.wallet
  have hquality : self₁.quality = self.quality := hadvance.quality
  rw [← hwallet] at hw h
  dsimp only
  rw [classify_eq hw (by rwa [hquality]) h, ← hwallet]
  -- the outcome is one; only the ledgers it is applied to differ
  refine .bind fun classified hclassified => .bind fun self₂ _ => .bind fun rows _ => ?_
  obtain ⟨happlied, hkeys⟩ := classify_apply hw (mapError_eq_ok.mp hclassified)
  have hmatch := applySecond_matches self₂ s.second h happlied hkeys
  generalize self₂.applySecond ledger₁ s.second classified.apply = x at hmatch ⊢
  generalize self₂.applySecond ledger₂ s.second classified.apply = y at hmatch ⊢
  cases hmatch with
  | error e => exact .error e
  | ok hsame => exact .ok ⟨rfl, hsame, rfl⟩

end

section

variable (payout : BoundPayouts)
  (mutationOf : ActivityAggregate → Except LedgerError LedgerMutation)

/-- One second of the replay against a ledger that is never restricted. -/
def fullSecond (self : ClassifierState × PositionLedger) (s : HistoricalSecond) :
    Except BootstrapError ((ClassifierState × PositionLedger) × ClassifiedSecond) :=
  self.1.secondAgainst payout self.2 s (s.records mutationOf)

/-- The replay of complete seconds against one ledger that starts empty. -/
def fullReplay (self : ClassifierState) (seconds : List HistoricalSecond) :
    List ClassifiedSecond × Except BootstrapError (ClassifierState × PositionLedger) :=
  replay (fullSecond payout mutationOf) (self, .new) seconds

end

end ClassifierState

/-! ## The replay -/

namespace WalletClassifier

/-- The stored positions are those the full ledger has for the wallet. -/
structure Holds (w : WalletAddress) (restricted : WalletClassifier)
    (full : ClassifierState × PositionLedger) : Prop where
  state : restricted.toClassifierState = full.1
  wallet : restricted.wallet = w
  quality : 0 < restricted.quality.val
  positions : ∀ k, restricted.positions.lookup k = full.2.stateAt w k

variable {w : WalletAddress} {payout : BoundPayouts}
  {mutationOf : ActivityAggregate → Except LedgerError LedgerMutation} {self : WalletClassifier}

/-- What is written back is what the full ledger has after the second. -/
theorem writeBack_holds {records : List SecondRecord} {l : List LedgerMutation}
    {full : PositionLedger} {applied₁ applied₂ : List AppliedEffect}
    (hpositions : ∀ k, self.positions.lookup k = full.stateAt self.wallet k)
    (hw : ∀ m ∈ l, m.wallet = self.wallet)
    (hl : (walletSystem self.wallet).keys l ⊆ recordKeys records)
    (h₁ : (self.restrictedLedger records).simulateAllOrNone l = .ok (ledger₁, applied₁))
    (h₂ : full.simulateAllOrNone l = .ok (ledger₂, applied₂))
    (hsame : SameAt self.wallet (recordKeys records) ledger₁ ledger₂) (k : MarketOutcomeId) :
    (self.writeBack ledger₁).lookup k = ledger₂.stateAt self.wallet k := by
  rw [lookup_writeBack]
  by_cases hk : k ∈ recordKeys records
  · -- a key of the second: both ledgers read alike, and nothing that was held is gone
    rw [hsame k hk]
    cases hafter : ledger₂.stateAt self.wallet k with
    | some state => rfl
    | none =>
      have hbefore : full.stateAt self.wallet k = none := by
        by_contra hheld
        have hstill := simulate_isSome hw h₂ (Option.isSome_iff_ne_none.mpr hheld)
        rw [hafter] at hstill
        simp at hstill
      rw [hpositions, hbefore]
      rfl
  · -- any other key: the restricted ledger has nothing, the full one is not written
    have houtside : k ∉ (walletSystem self.wallet).keys l := fun hmem => hk (hl hmem)
    rw [simulate_frame hw h₁ houtside, stateAt_restrictedLedger_of_not_mem hk,
      simulate_frame hw h₂ houtside]
    exact hpositions k

/-- **One second.** The restricted and the full replay take it alike and still agree. -/
theorem second_matches {full : ClassifierState × PositionLedger} {s : HistoricalSecond}
    (hw : ∀ a ∈ s.aggregates, ∀ m, mutationOf a = .ok m → m.wallet = w) (h : Holds w self full) :
    Matches (fun x y => Holds w x.1 y.1 ∧ x.2 = y.2) (second payout mutationOf self s)
      (ClassifierState.fullSecond payout mutationOf full s) := by
  obtain ⟨state, ledger⟩ := full
  obtain ⟨rfl, rfl, hquality, hpositions⟩ := h
  have hrecords : ∀ r ∈ s.records mutationOf, ∀ m, r.mutation = .ok m → m.wallet = self.wallet := by
    intro r hr m hm
    obtain ⟨a, ha, rfl⟩ := List.mem_map.mp hr
    exact hw a ha m hm
  have hsame : SameAt self.wallet (recordKeys (s.records mutationOf))
      (self.restrictedLedger (s.records mutationOf)) ledger := by
    intro k hk
    rw [stateAt_restrictedLedger_of_mem hk]
    exact hpositions k
  have hmatch := ClassifierState.secondAgainst_matches hrecords payout s hquality hsame
  unfold second ClassifierState.fullSecond
  dsimp only
  rcases hmatch.split with ⟨e, h₁, h₂⟩ | ⟨⟨⟨state₁, ledger₁⟩, out₁⟩, ⟨⟨state₂, ledger₂⟩, out₂⟩,
    h₁, h₂, hstates, hledgers, houts⟩
  · rw [h₁, h₂]
    exact .error e
  · obtain rfl : state₁ = state₂ := hstates
    obtain rfl : out₁ = out₂ := houts
    obtain ⟨hsubject, happly, hkeys, applied₁, hrun₁⟩ :=
      ClassifierState.secondAgainst_ok hrecords h₁
    obtain ⟨_, _, _, applied₂, hrun₂⟩ := ClassifierState.secondAgainst_ok hrecords h₂
    rw [h₁, h₂]
    refine .ok ⟨⟨rfl, hsubject.wallet, ?_, ?_⟩, rfl⟩
    · rw [hsubject.quality]
      exact hquality
    · exact writeBack_holds hpositions happly hkeys hrun₁ hrun₂ hledgers

/--
**Restricting the ledger changes nothing.**

Whatever the complete seconds of a wallet's history, replaying them against the touched
positions alone shows, second for second, what replaying them against one ledger that starts
empty and keeps every position shows. The two fail at the same second with the same failure,
or end with the same state and with the same position for every market outcome.
-/
theorem replay_eq_fullReplay (blake3 : List UInt8 → String) (arith : DecimalArith)
    (payout : BoundPayouts) (self : WalletClassifier) (seconds : List HistoricalSecond)
    (hstart : self.positions = ∅) (hquality : 0 < self.quality.val)
    (hwallet : ∀ s ∈ seconds, ∀ a ∈ s.aggregates, a.groupId.components.wallet = self.wallet) :
    (self.replay payout (verifiedMutation blake3 arith payout.tokens) seconds).1
        = (self.fullReplay payout (verifiedMutation blake3 arith payout.tokens) seconds).1
      ∧ Matches (fun x y => x.toClassifierState = y.1
          ∧ ∀ k, x.positions.lookup k = y.2.stateAt self.wallet k)
        (self.replay payout (verifiedMutation blake3 arith payout.tokens) seconds).2
        (self.fullReplay payout (verifiedMutation blake3 arith payout.tokens) seconds).2 := by
  have hempty : Holds self.wallet self (self.toClassifierState, .new) := by
    refine ⟨rfl, rfl, hquality, fun k => ?_⟩
    rw [hstart]
    rfl
  have hstep : ∀ x y s, (∀ a ∈ s.aggregates, a.groupId.components.wallet = self.wallet) →
      Holds self.wallet x y → Matches (fun x y => Holds self.wallet x.1 y.1 ∧ x.2 = y.2)
        (second payout (verifiedMutation blake3 arith payout.tokens) x s)
        (ClassifierState.fullSecond payout (verifiedMutation blake3 arith payout.tokens) y s) := by
    intro x y s hs hholds
    refine second_matches (fun a ha m hm => ?_) hholds
    rw [verifiedMutation_wallet hm, hs a ha]
  obtain ⟨houts, hend⟩ := replay_simulates
    (P := fun s : HistoricalSecond => ∀ a ∈ s.aggregates,
      a.groupId.components.wallet = self.wallet)
    hstep hwallet hempty
  refine ⟨houts, ?_⟩
  exact hend.imp fun _ _ h => ⟨h.state, h.positions⟩

/-! Shares split in one second, and redeemed in a later one. -/

/-- A digest for the sample: sixty-four hex digits of a polynomial in the bytes. -/
def sampleDigest (bytes : List UInt8) : String :=
  String.ofList (hexDigits 64 (bytes.foldl (fun h b => (257 * h + b.toNat + 1) % 2 ^ 256) 0))

def sampleActivity (kind : ActivityType) (second : Int) : ActivityAggregate :=
  let components : SourceActivityGroupComponents :=
    ⟨kind, sampleWallet, "0xabc", some ⟨"0xb2"⟩, some ⟨"7"⟩, some ⟨0⟩, none⟩
  ⟨((SourceActivityGroupId.derive sampleDigest components).toOption.getD ⟨⟨""⟩, components⟩),
    shares 500, .zero, ⟨second * 1000000000⟩, false⟩

def samplePayouts : BoundPayouts :=
  ⟨fun _ => some ⟨["7", "8"], "page", true⟩, fun _ => some ⟨none, some 60, none⟩, fun _ => none,
    fun _ => false⟩

def sampleHistory : List HistoricalSecond :=
  historicalSeconds [sampleActivity .split 10, sampleActivity .redeem 20] []

def sampleClassifier : WalletClassifier := new sampleWallet "00aa" 1 [] 7 []

theorem sampleHistory_replayed :
    (sampleClassifier.replay samplePayouts
        (verifiedMutation sampleDigest .rounded samplePayouts.tokens) sampleHistory).1.length = 2
      ∧ (sampleClassifier.replay samplePayouts
          (verifiedMutation sampleDigest .rounded samplePayouts.tokens) sampleHistory).1
        = (sampleClassifier.fullReplay samplePayouts
          (verifiedMutation sampleDigest .rounded samplePayouts.tokens) sampleHistory).1 :=
  ⟨by decide +kernel,
    (replay_eq_fullReplay sampleDigest .rounded samplePayouts sampleClassifier sampleHistory rfl
      (by decide) (by decide +kernel)).1⟩

end WalletClassifier

end PredictionEdge
