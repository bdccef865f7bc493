import PredictionEdge.Ledger.Survivors

/-!
# The order of a scoped second's inputs

Records are sorted by key before anything is read off them, so their order is gone at
once. Anomalies are read as they come: they leave problems, of which a scope keeps the
first by trigger, and ignored rows, which are sorted at the end. Neither remembers the
order, and every later pass leaves what is already ignored in front of what it adds.
-/

namespace PredictionEdge

open Lib

variable {lookups : ScopeLookups} {dropped : Finset Scope} {ledger : PositionLedger}
  {w : WalletAddress}

/-! ## Problems in every order -/

namespace ScopeProblem

theorem precedes_irrefl (p : ScopeProblem) : ¬ p.precedes p := by
  rintro (h | ⟨_, h⟩)
  · exact Std.lt_irrefl h
  · exact Nat.lt_irrefl _ h

theorem precedes_trans {p q r : ScopeProblem} (hpq : p.precedes q) (hqr : q.precedes r) :
    p.precedes r := by
  rcases hpq with hpq | ⟨hpq, hc⟩ <;> rcases hqr with hqr | ⟨hqr, hc'⟩
  · exact Or.inl (Std.lt_trans hpq hqr)
  · exact Or.inl (hqr ▸ hpq)
  · exact Or.inl (hpq ▸ hqr)
  · exact Or.inr ⟨hpq.trans hqr, Nat.lt_trans hc hc'⟩

/-- Two problems neither of which comes first have one trigger and one cause. -/
theorem eq_of_not_precedes {p q : ScopeProblem} (hpq : ¬ p.precedes q) (hqp : ¬ q.precedes p) :
    p.cause = q.cause ∧ p.trigger = q.trigger := by
  simp only [precedes, not_or, not_and, Nat.not_lt] at hpq hqp
  have ht : p.trigger.val = q.trigger.val :=
    Std.le_antisymm (Std.not_lt.mp hqp.1) (Std.not_lt.mp hpq.1)
  have hrank : p.cause.rank = q.cause.rank :=
    Nat.le_antisymm (hqp.2 ht.symm) (hpq.2 ht)
  refine ⟨?_, SourceTradeId.val_injective ht⟩
  revert hrank
  cases p.cause <;> cases q.cause <;> simp [DropCause.rank]

end ScopeProblem

theorem pushProblem_none (p : ScopeProblem) : pushProblem p none = p := rfl

theorem pushProblem_some (p q : ScopeProblem) : pushProblem p (some q) =
    if p.precedes q then { q with cause := p.cause, trigger := p.trigger } else q := rfl

/-- Two problems of one scope may be recorded in either order. -/
theorem pushProblem_comm {p q : ScopeProblem} (hs : p.scope = q.scope) (o : Option ScopeProblem) :
    pushProblem p (some (pushProblem q o)) = pushProblem q (some (pushProblem p o)) := by
  obtain ⟨sp, cp, tp⟩ := p
  obtain ⟨sq, cq, tq⟩ := q
  simp only at hs
  subst hs
  have hboth : ¬ (ScopeProblem.precedes ⟨sp, cp, tp⟩ ⟨sp, cq, tq⟩
      ∧ ScopeProblem.precedes ⟨sp, cq, tq⟩ ⟨sp, cp, tp⟩) :=
    fun h => ScopeProblem.precedes_irrefl _ (ScopeProblem.precedes_trans h.1 h.2)
  have heq := @ScopeProblem.eq_of_not_precedes ⟨sp, cp, tp⟩ ⟨sp, cq, tq⟩
  cases o with
  | none =>
    rw [pushProblem_none, pushProblem_none, pushProblem_some, pushProblem_some]
    by_cases hpq : ScopeProblem.precedes ⟨sp, cp, tp⟩ ⟨sp, cq, tq⟩
    · rw [if_pos hpq, if_neg fun hqp => hboth ⟨hpq, hqp⟩]
    · by_cases hqp : ScopeProblem.precedes ⟨sp, cq, tq⟩ ⟨sp, cp, tp⟩
      · rw [if_neg hpq, if_pos hqp]
      · obtain ⟨hc, ht⟩ := heq hpq hqp
        simp only at hc ht
        subst hc ht
        rfl
  | some o =>
    -- the scope kept is the older problem's; trigger and cause are the least of the three
    obtain ⟨so, co, tr⟩ := o
    have hpo := @ScopeProblem.precedes_trans ⟨sp, cp, tp⟩ ⟨sp, cq, tq⟩ ⟨so, co, tr⟩
    have hqo := @ScopeProblem.precedes_trans ⟨sp, cq, tq⟩ ⟨sp, cp, tp⟩ ⟨so, co, tr⟩
    simp only [ScopeProblem.precedes] at hboth heq hpo hqo
    simp only [pushProblem, ScopeProblem.precedes]
    grind

/-- Record a list of problems. -/
def recordProblems (ps : List ScopeProblem) (problems : Problems) : Problems :=
  foldInto Scope.compare ScopeProblem.scope pushProblem ps problems

/-- **The problems recorded do not depend on their order.** -/
theorem recordProblems_perm {ps ps' : List ScopeProblem} (hp : ps'.Perm ps) (problems : Problems) :
    recordProblems ps' problems = recordProblems ps problems := by
  refine Std.ExtTreeMap.ext_getElem? fun scope => ?_
  rw [recordProblems, recordProblems, getElem?_foldInto, getElem?_foldInto]
  refine List.Perm.foldl_eq' (hp.filter _) (fun p hpm q hqm o => ?_) _
  simp only [List.mem_filter, decide_eq_true_eq] at hpm hqm
  rw [pushProblem_comm (hqm.2.trans hpm.2.symm)]

/-! ## Anomalies in every order -/

/-- The problem an anomaly leaves, if any. -/
def anomalyProblem (lookups : ScopeLookups) (dropped : Finset Scope)
    (anomaly : ActivityRowAnomaly) : Option ScopeProblem :=
  match resolveAnomalyScope anomaly lookups with
  | some scope =>
    if scopeIsDropped scope dropped lookups then none
    else some ⟨scope, .unrepresentable, activityRowAnomalyTrigger anomaly⟩
  | none => none

/-- The entry an unresolvable anomaly leaves among the ignored. -/
def anomalyIgnored (lookups : ScopeLookups) (anomaly : ActivityRowAnomaly) :
    Option (SourceTradeId × ActivityType) :=
  match resolveAnomalyScope anomaly lookups with
  | some _ => none
  | none => some (activityRowAnomalyTrigger anomaly, anomaly.activityType)

theorem anomalyStep_eq (s : Scan) (anomaly : ActivityRowAnomaly) :
    anomalyStep lookups dropped s anomaly =
      { s with
        problems := recordProblems (anomalyProblem lookups dropped anomaly).toList s.problems
        ignored := s.ignored ++ (anomalyIgnored lookups anomaly).toList } := by
  unfold anomalyStep anomalyProblem anomalyIgnored
  cases resolveAnomalyScope anomaly lookups with
  | none => rfl
  | some scope =>
    simp only
    split
    · simp [recordProblems, foldInto]
    · simp [recordProblems, foldInto, Scan.report, recordScopeProblem]

theorem scanAnomalies_eq : ∀ (l : List ActivityRowAnomaly) (s : Scan),
    l.foldl (anomalyStep lookups dropped) s =
      { s with
        problems := recordProblems (l.filterMap (anomalyProblem lookups dropped)) s.problems
        ignored := s.ignored ++ l.filterMap (anomalyIgnored lookups) }
  | [], s => by simp [recordProblems, foldInto]
  | x :: l, s => by
    rw [List.foldl_cons, scanAnomalies_eq l, anomalyStep_eq]
    congr 1
    · cases hx : anomalyProblem lookups dropped x with
      | none => rw [List.filterMap_cons_none hx]; rfl
      | some p => rw [List.filterMap_cons_some hx]; rfl
    · cases hx : anomalyIgnored lookups x with
      | none | some e => simp [hx]

theorem activityRowAnomalyTrigger_injective {a b : ActivityRowAnomaly}
    (h : activityRowAnomalyTrigger a = activityRowAnomalyTrigger b) :
    a.rawRowHash = b.rawRowHash := by
  simp only [activityRowAnomalyTrigger, SourceTradeId.mk.injEq] at h
  exact (String.append_right_inj _).mp h

/-- Rows of distinct hashes are ignored under distinct ids. -/
theorem anomalyIgnored_nodup {l : List ActivityRowAnomaly}
    (h : (l.map ActivityRowAnomaly.rawRowHash).Nodup) :
    ((l.filterMap (anomalyIgnored lookups)).map fun e => e.1.val).Nodup := by
  have htrigger : (l.map fun a => (activityRowAnomalyTrigger a).val).Nodup := by
    refine (List.nodup_map_iff_inj_on (List.Nodup.of_map _ h)).mpr fun a ha b hb hab => ?_
    exact List.inj_on_of_nodup_map h ha hb
      (activityRowAnomalyTrigger_injective (SourceTradeId.val_injective hab))
  refine List.Sublist.nodup (map_filterMap_sublist fun a _ e he => ?_) htrigger
  unfold anomalyIgnored at he
  split at he
  · simp at he
  · rw [← Option.some.inj he]

/-! ## Later passes keep what is ignored in front -/

/-- The same scan, with more ignored before it. -/
def Scan.ignoring (front : List (SourceTradeId × ActivityType)) (s : Scan) : Scan :=
  { s with ignored := front ++ s.ignored }

variable {front : List (SourceTradeId × ActivityType)}

theorem problemStep_ignoring (r : SecondRecord) (cause : DropCause) (s : Scan) :
    problemStep lookups dropped r cause (s.ignoring front)
      = (problemStep lookups dropped r cause s).ignoring front := by
  unfold problemStep
  cases resolveProblemScope r.aggregate cause lookups with
  | none => simp [Scan.ignore, Scan.ignoring]
  | some scope =>
    cases r.isBuy
    · simp only [Bool.false_eq_true, if_false]
      split <;> rfl
    · simp only [if_true]
      split <;> rfl

theorem effectiveStep_ignoring (a : ActivityAggregate) (m : LedgerMutation) (s : Scan) :
    effectiveStep lookups dropped a m (s.ignoring front)
      = (effectiveStep lookups dropped a m s).ignoring front := by
  have hconsume : consumeEffective m (s.ignoring front) = (consumeEffective m s).ignoring front := by
    unfold consumeEffective
    split <;> rfl
  simp only [effectiveStep, hconsume]
  split <;> rfl

theorem recordStep_ignoring (s : Scan) (r : SecondRecord) :
    recordStep lookups dropped (s.ignoring front) r
      = (recordStep lookups dropped s r).map (Scan.ignoring front) := by
  unfold recordStep
  cases r.route with
  | error e => rfl
  | ok route =>
    cases route with
    | raw m => rfl
    | tokenless => simp [Except.map, Scan.ignore, Scan.ignoring]
    | problem cause => simp only [Except.map, problemStep_ignoring]
    | effective m => simp only [Except.map, effectiveStep_ignoring]

theorem retractStep_ignoring (s : Scan) (m : LedgerMutation) :
    retractStep (s.ignoring front) m = (retractStep s m).ignoring front := by
  simp only [retractStep, Scan.ignoring]
  cases s.effectiveRecords.lookup m.sourceTradeId.val <;> simp [Scan.ignore]

theorem retract_ignoring : ∀ (c : List LedgerMutation) (s : Scan),
    retract (s.ignoring front) c = (retract s c).ignoring front
  | [], _ => rfl
  | m :: c, s => by
    have ih := retract_ignoring c (retractStep s m)
    rw [← retractStep_ignoring] at ih
    exact ih

theorem failComponent_ignoring (s : Scan) (c : List LedgerMutation) (a : ActivityAggregate)
    (cause : DropCause) (id : SourceTradeId) :
    failComponent lookups dropped (s.ignoring front) c a cause id
      = (failComponent lookups dropped s c a cause id).ignoring front := by
  unfold failComponent
  cases resolveProblemScope a cause lookups with
  | none => simp only [retract_ignoring]; rfl
  | some scope => simp only; split <;> rfl

theorem componentStep_ignoring (s : Scan) (c : List LedgerMutation) :
    componentStep lookups dropped ledger w (s.ignoring front) c
      = (componentStep lookups dropped ledger w s c).map (Scan.ignoring front) := by
  cases c with
  | nil => rfl
  | cons first more =>
    simp only [componentStep]
    cases componentCause ledger w (first :: more) with
    | error e => rfl
    | ok cause =>
      cases cause with
      | none => rfl
      | some cause =>
        simp only [bind, Except.bind, Scan.ignoring]
        cases s.effectiveRecords.lookup first.sourceTradeId.val with
        | none => rfl
        | some a =>
          simp only [pure, Except.pure, Except.map]
          exact congrArg Except.ok
            (failComponent_ignoring s (first :: more) a cause first.sourceTradeId)

/-- The passes that follow the anomalies. -/
def scanAfterAnomalies (lookups : ScopeLookups) (ledger : PositionLedger) (w : WalletAddress)
    (dropped : Finset Scope) (records : List SecondRecord) (s : Scan) :
    Except LedgerError Scan := do
  let s ← (orderedRecords records).foldlM (recordStep lookups dropped) s
  (mutationComponents s.mutations).foldlM (componentStep lookups dropped ledger w) s

theorem scanAfterAnomalies_ignoring (records : List SecondRecord) (s : Scan) :
    scanAfterAnomalies lookups ledger w dropped records (s.ignoring front)
      = (scanAfterAnomalies lookups ledger w dropped records s).map (Scan.ignoring front) := by
  unfold scanAfterAnomalies
  rw [foldlM_map (Scan.ignoring front) recordStep_ignoring]
  cases (orderedRecords records).foldlM (recordStep lookups dropped) s with
  | error e => rfl
  | ok t =>
    exact foldlM_map (Scan.ignoring front) componentStep_ignoring
      (mutationComponents t.mutations) t

/-- A scan that holds the problems of the anomalies and nothing else. -/
def anomalyScan (lookups : ScopeLookups) (dropped : Finset Scope)
    (anomalies : List ActivityRowAnomaly) : Scan :=
  { Scan.empty with
    problems := recordProblems (anomalies.filterMap (anomalyProblem lookups dropped)) ∅ }

/-- A scan is the scan without ignored anomalies, with those put in front. -/
theorem scanSecond_split (records : List SecondRecord) (anomalies : List ActivityRowAnomaly) :
    scanSecond lookups ledger w dropped records anomalies =
      (scanAfterAnomalies lookups ledger w dropped records
        (anomalyScan lookups dropped anomalies)).map
        (Scan.ignoring (anomalies.filterMap (anomalyIgnored lookups))) := by
  rw [← scanAfterAnomalies_ignoring]
  have hstart : anomalies.foldl (anomalyStep lookups dropped) .empty =
      Scan.ignoring (anomalies.filterMap (anomalyIgnored lookups))
        (anomalyScan lookups dropped anomalies) := by
    rw [scanAnomalies_eq]
    simp [Scan.ignoring, Scan.empty, anomalyScan]
  rw [← hstart]
  rfl

/-! ## The result in every order -/

theorem concludeSecond_ignoring {config : SecondConfig} {certified : Bool}
    {front' : List (SourceTradeId × ActivityType)} (s : Scan) (hp : front'.Perm front)
    (hnd : (front.map fun e => e.1.val).Nodup) :
    concludeSecond config lookups ledger w certified (s.ignoring front')
      = concludeSecond config lookups ledger w certified (s.ignoring front) := by
  have hsort : sortOn (fun e : SourceTradeId × ActivityType => e.1.val) (front' ++ s.ignored)
      = sortOn (fun e => e.1.val) (front ++ s.ignored) :=
    sortOn_append_perm s.ignored hp hnd
  unfold concludeSecond
  simp only [Scan.ignoring, hsort]
  rfl

theorem orderedRecords_perm {records records' : List SecondRecord} (hp : records'.Perm records)
    (hnd : (records.map fun r => r.aggregate.groupId.key).Nodup) :
    orderedRecords records' = orderedRecords records := by
  refine sortOn_perm_eq hp ?_
  refine (List.nodup_map_iff_inj_on (List.Nodup.of_map _ hnd)).mpr fun a ha b hb hab => ?_
  exact List.inj_on_of_nodup_map hnd ha hb (SourceTradeId.val_injective hab)

/--
**A scoped second does not depend on the order of its records and anomalies.**

Whatever it returns for one order of records with distinct keys and anomalies with
distinct row hashes, in all its fields, it returns for every order.
-/
theorem scopedSecond_perm (config : SecondConfig) (lookups : ScopeLookups)
    (ledger : PositionLedger) (w : WalletAddress) (sourceSecond : Int)
    (records records' : List SecondRecord) (anomalies anomalies' : List ActivityRowAnomaly)
    (dropped : Finset Scope) (certified : Bool)
    (hkeys : (records.map fun r => r.aggregate.groupId.key).Nodup)
    (hhashes : (anomalies.map ActivityRowAnomaly.rawRowHash).Nodup)
    (hrecords : records'.Perm records) (hanomalies : anomalies'.Perm anomalies)
    (r : ScopedSecond) :
    classifyScopedSecondWithAnomalies config lookups ledger w sourceSecond records' anomalies'
        dropped certified = .ok r ↔
      classifyScopedSecondWithAnomalies config lookups ledger w sourceSecond records anomalies
        dropped certified = .ok r := by
  have hchecked : (∀ a ∈ anomalies', a.wallet = w ∧ a.sourceTime.unixTimestamp = sourceSecond) ↔
      ∀ a ∈ anomalies, a.wallet = w ∧ a.sourceTime.unixTimestamp = sourceSecond := by
    simp only [hanomalies.mem_iff]
  have hproblems : anomalyScan lookups dropped anomalies' = anomalyScan lookups dropped anomalies := by
    rw [anomalyScan, recordProblems_perm (hanomalies.filterMap _) ∅]
    rfl
  have hignored := hanomalies.filterMap (anomalyIgnored lookups)
  have hafter : scanAfterAnomalies lookups ledger w dropped records' =
      scanAfterAnomalies lookups ledger w dropped records := by
    funext s
    simp only [scanAfterAnomalies, orderedRecords_perm hrecords hkeys]
  rw [classifyScoped_eq_ok, classifyScoped_eq_ok, hchecked, scanSecond_split, scanSecond_split,
    hproblems, hafter]
  refine and_congr_right fun _ => ?_
  cases scanAfterAnomalies lookups ledger w dropped records
      (anomalyScan lookups dropped anomalies) with
  | error e => simp [Except.map]
  | ok s =>
    simp only [Except.map, Except.ok.injEq, exists_eq_left']
    rw [concludeSecond_ignoring s hignored (anomalyIgnored_nodup hhashes)]

theorem sampleRecords_scoped_perm :
    ∃ r, classifyScopedSecondWithAnomalies sampleConfig sampleLookups .new sampleWallet 0
        sampleRecords.reverse sampleAnomalies.reverse ∅ false = .ok r
      ∧ classifyScopedSecondWithAnomalies sampleConfig sampleLookups .new sampleWallet 0
        sampleRecords sampleAnomalies ∅ false = .ok r := by
  obtain ⟨r, hr⟩ : ∃ r, classifyScopedSecondWithAnomalies sampleConfig sampleLookups .new
      sampleWallet 0 sampleRecords sampleAnomalies ∅ false = .ok r := by
    refine ⟨⟨true, [⟨⟨.market, "0xb2"⟩, .underflow, ⟨"g2:3"⟩⟩,
      ⟨⟨.market, "0xc3"⟩, .unmapped, ⟨"g2:2"⟩⟩,
      ⟨⟨.market, "0xd4"⟩, .unrepresentable, ⟨"activity-row-anomaly:v1:ff"⟩⟩],
      [(⟨"activity-row-anomaly:v1:ee"⟩, .trade)],
      [sampleMutation "g2:1" (.trade ⟨⟨"0xa1"⟩⟩ ⟨0⟩ .buy (shares 500) samplePrice)],
      [⟨⟨"g2:1"⟩, ⟨⟨"0xa1"⟩⟩, ⟨0⟩, .buy, shares 500, samplePrice, .entry, false, .notAnEntry⟩],
      [⟨⟨"0xa1"⟩⟩]⟩, by decide +kernel⟩
  exact ⟨r, (scopedSecond_perm sampleConfig sampleLookups .new sampleWallet 0 sampleRecords
    sampleRecords.reverse sampleAnomalies sampleAnomalies.reverse ∅ false (by decide +kernel)
    (by decide +kernel) sampleRecords.reverse_perm sampleAnomalies.reverse_perm r).mpr hr, hr⟩

end PredictionEdge
