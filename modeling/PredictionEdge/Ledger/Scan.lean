import PredictionEdge.Ledger.Failures
import PredictionEdge.Ledger.Scoped

/-!
# What a scan gathers

The passes over a second update a scan field by field. Here each field of a finished
scan is read off the records and the components it came from: the mutations are those
the records push, the effective records are those recorded, and a mutation has failed
exactly when its component did.
-/

namespace PredictionEdge

open Lib

variable {lookups : ScopeLookups} {dropped : Finset Scope} {ledger : PositionLedger}
  {w : WalletAddress}

/-! ## One record -/

variable {r : SecondRecord} {c : List LedgerMutation} {m : LedgerMutation}
  {records l : List SecondRecord} {anomalies : List ActivityRowAnomaly} {s s' : Scan} {id : String}

/-- Where a mutation that is routed comes from. -/
theorem route_ok {route : RecordRoute} (h : r.route = .ok route) :
    match route with
    | .raw m => r.mutation = .ok m ∧ m.effect.effective = .rawOnly
    | .effective m => r.mutation = .ok m ∧ mutationCause r.aggregate m = none
    | _ => True := by
  unfold SecondRecord.route at h
  split at h
  · rename_i m hm
    split at h
    · obtain rfl := Except.ok.inj h
      exact ⟨hm, ‹_›⟩
    · split at h
      · obtain rfl := Except.ok.inj h
        trivial
      · split at h <;> obtain rfl := Except.ok.inj h
        · trivial
        · exact ⟨hm, ‹_›⟩
  · split at h
    · obtain rfl := Except.ok.inj h
      trivial
    · split at h
      · obtain rfl := Except.ok.inj h
        trivial
      · cases h

/-- A record fails to be routed only if its mapping failed in an unexpected way. -/
theorem exists_route (h : ∀ e, r.mutation = .error e → ∃ id, e = .invalidMapping id) :
    ∃ route, r.route = .ok route := by
  unfold SecondRecord.route
  split
  · split
    · exact ⟨_, rfl⟩
    · split
      · exact ⟨_, rfl⟩
      · split <;> exact ⟨_, rfl⟩
  · rename_i e he
    obtain ⟨id, rfl⟩ := h e he
    split <;> exact ⟨_, rfl⟩

theorem not_refused_of_mutationCause {a : ActivityAggregate} (h : mutationCause a m = none) :
    ¬ m.IsRefused := by
  rintro (hc | hc) <;> simp [mutationCause, hc] at h

/-- The mutation a record brings along with its evidence, outside every earlier drop. -/
def SecondRecord.recorded (lookups : ScopeLookups) (dropped : Finset Scope) (r : SecondRecord) :
    Option LedgerMutation :=
  match r.route with
  | .ok (.effective m) =>
    if (recordMarket m r.aggregate).any (marketIsDropped · dropped lookups) then none else some m
  | _ => none

/-- The mutation a record brings to the order proof. -/
def SecondRecord.pushed (lookups : ScopeLookups) (dropped : Finset Scope) (r : SecondRecord) :
    Option LedgerMutation :=
  match r.route with
  | .ok (.raw m) => some m
  | _ => r.recorded lookups dropped

theorem recorded_eq_some :
    r.recorded lookups dropped = some m ↔ r.route = .ok (.effective m)
      ∧ (recordMarket m r.aggregate).any (marketIsDropped · dropped lookups) = false := by
  unfold SecondRecord.recorded
  split
  · rename_i m' hr
    rw [hr]
    split
    · rename_i hd
      simp only [false_iff, reduceCtorEq, Except.ok.injEq, RecordRoute.effective.injEq, not_and]
      rintro rfl
      simp [hd]
    · rename_i hd
      simp only [Option.some.injEq, Except.ok.injEq, RecordRoute.effective.injEq]
      constructor
      · rintro rfl; exact ⟨rfl, by simpa using hd⟩
      · exact fun h => h.1
  · rename_i hr
    simp only [reduceCtorEq, false_iff, not_and]
    exact fun h => absurd h (hr m)

theorem pushed_eq_some :
    r.pushed lookups dropped = some m ↔
      r.route = .ok (.raw m) ∨ r.recorded lookups dropped = some m := by
  unfold SecondRecord.pushed
  split
  · rename_i m' hr
    have hnone : r.recorded lookups dropped = none := by
      unfold SecondRecord.recorded; rw [hr]
    rw [hr, hnone]
    simp
  · rename_i hr
    simp only [iff_or_self]
    exact fun h => absurd h (hr m)

theorem pushed_mutation (h : r.pushed lookups dropped = some m) : r.mutation = .ok m := by
  rcases pushed_eq_some.mp h with h | h
  · exact (route_ok h).1
  · exact (route_ok (recorded_eq_some.mp h).1).1

theorem not_refused_of_pushed (h : r.pushed lookups dropped = some m) : ¬ m.IsRefused := by
  rcases pushed_eq_some.mp h with h | h
  · rintro (hc | hc) <;> rw [(route_ok h).2] at hc <;> exact absurd hc (by simp)
  · exact not_refused_of_mutationCause (route_ok (recorded_eq_some.mp h).1).2

/-- Record the evidence of a mutation. -/
def recordEvidence (lookups : ScopeLookups) (dropped : Finset Scope)
    (records : Finmap fun _ : String => ActivityAggregate) (r : SecondRecord) :
    Finmap fun _ : String => ActivityAggregate :=
  match r.recorded lookups dropped with
  | some m => records.insert m.sourceTradeId.val r.aggregate
  | none => records

/-- The later scan has noted more: entries that are ignored, problems, and what is consumed. -/
inductive Scan.Notes (s : Scan) : Scan → Prop where
  | refl : s.Notes s
  | ignore {t : Scan} (id : SourceTradeId) (kind : ActivityType) (h : s.Notes t) :
      s.Notes (t.ignore id kind)
  | report {t : Scan} (p : ScopeProblem) (h : s.Notes t) : s.Notes (t.report p)
  | consumed {t : Scan} (consumed : Std.ExtTreeMap String MarketId) (h : s.Notes t) :
      s.Notes { t with consumed := consumed }

namespace Scan.Notes

theorem trans {s'' : Scan} (h : s.Notes s') (h' : s'.Notes s'') : s.Notes s'' := by
  induction h' with
  | refl => exact h
  | ignore id kind _ ih => exact .ignore id kind ih
  | report p _ ih => exact .report p ih
  | consumed consumed _ ih => exact .consumed consumed ih

theorem keeps (h : s.Notes s') : s'.mutations = s.mutations
    ∧ s'.effectiveRecords = s.effectiveRecords ∧ s'.failed = s.failed := by
  induction h with
  | refl => exact ⟨rfl, rfl, rfl⟩
  | ignore _ _ _ ih | report _ _ ih | consumed _ _ ih => exact ih

end Scan.Notes

theorem problemStep_notes (lookups : ScopeLookups) (dropped : Finset Scope) (r : SecondRecord)
    (cause : DropCause) (s : Scan) :
    s.Notes (problemStep lookups dropped r cause s) := by
  unfold problemStep
  cases resolveProblemScope r.aggregate cause lookups with
  | none => exact .ignore _ _ .refl
  | some scope =>
    have hconsume : s.Notes (if r.isBuy then
        s.consume r.aggregate.groupId.key ⟨⟨scope.id⟩⟩ else s) := by
      split
      · exact .consumed _ .refl
      · exact .refl
    simp only
    split
    · exact hconsume
    · exact .report _ hconsume

theorem consumeEffective_notes (m : LedgerMutation) (s : Scan) : s.Notes (consumeEffective m s) := by
  unfold consumeEffective
  split
  · exact .consumed _ .refl
  · exact .refl

/-- **What one record does to the mutations, the evidence and the failures.** -/
theorem recordStep_fields (h : recordStep lookups dropped s r = .ok s') :
    s'.mutations = s.mutations ++ (r.pushed lookups dropped).toList
      ∧ s'.effectiveRecords = recordEvidence lookups dropped s.effectiveRecords r
      ∧ s'.failed = s.failed := by
  obtain ⟨route, hr, rfl⟩ := map_eq_ok.mp h
  simp only [SecondRecord.pushed, recordEvidence, SecondRecord.recorded, hr]
  cases route with
  | raw m => simp [Scan.push]
  | tokenless => simp [Scan.ignore]
  | problem cause =>
    obtain ⟨hm, he, hf⟩ := (problemStep_notes lookups dropped r cause s).keeps
    simp [hm, he, hf]
  | effective m =>
    obtain ⟨hm, he, hf⟩ := (consumeEffective_notes m s).keeps
    simp only [effectiveStep]
    split
    · simp [hm, he, hf]
    · simp [hm, he, hf, Scan.push, Scan.addEffective]

/-! ## All records -/

section

variable (h : l.foldlM (recordStep lookups dropped) s = .ok s')

include h

theorem scanRecords_mutations :
    s'.mutations = s.mutations ++ l.filterMap (SecondRecord.pushed lookups dropped) := by
  rw [foldlM_proj Scan.mutations
    (fun ms r => ms ++ (SecondRecord.pushed lookups dropped r).toList)
    (fun _ _ _ _ hs => (recordStep_fields hs).1) h]
  exact foldl_append_toList _ _ _

theorem scanRecords_effectiveRecords :
    s'.effectiveRecords = l.foldl (recordEvidence lookups dropped) s.effectiveRecords :=
  foldlM_proj Scan.effectiveRecords _ (fun _ _ _ _ hs => (recordStep_fields hs).2.1) h

theorem scanRecords_failed : s'.failed = s.failed :=
  foldlM_const (fun _ _ _ _ hs => (recordStep_fields hs).2.2) h

end

theorem lookup_recordEvidence {records : Finmap fun _ : String => ActivityAggregate} :
    (recordEvidence lookups dropped records r).lookup id =
      match r.recorded lookups dropped with
      | some m => if id = m.sourceTradeId.val then some r.aggregate else records.lookup id
      | none => records.lookup id := by
  unfold recordEvidence
  cases r.recorded lookups dropped with
  | none => rfl
  | some m =>
    by_cases hid : id = m.sourceTradeId.val
    · subst hid; simp
    · simp [hid, Finmap.lookup_insert_of_ne _ hid]

/-- Evidence found under an id was recorded there. -/
theorem mem_of_lookup_evidence {a : ActivityAggregate} :
    ∀ {l : List SecondRecord} {records : Finmap fun _ : String => ActivityAggregate},
    (l.foldl (recordEvidence lookups dropped) records).lookup id = some a →
    records.lookup id = some a ∨ ∃ r ∈ l, r.aggregate = a
      ∧ ∃ m, r.recorded lookups dropped = some m ∧ m.sourceTradeId.val = id
  | [], _, h => Or.inl h
  | r :: l, records, h => by
    rw [List.foldl_cons] at h
    rcases mem_of_lookup_evidence h with h | ⟨r', hr', ha, hm⟩
    · rw [lookup_recordEvidence] at h
      cases hrec : r.recorded lookups dropped with
      | none => rw [hrec] at h; exact Or.inl h
      | some m =>
        rw [hrec] at h
        simp only at h
        split at h
        · rename_i hid
          exact Or.inr ⟨r, List.mem_cons_self, Option.some.inj h, m, hrec, hid.symm⟩
        · exact Or.inl h
    · exact Or.inr ⟨r', List.mem_cons_of_mem _ hr', ha, hm⟩

/-- Evidence that was recorded is found. -/
theorem lookup_evidence_isSome :
    ∀ {l : List SecondRecord} {records : Finmap fun _ : String => ActivityAggregate},
    ((records.lookup id).isSome
      ∨ ∃ r ∈ l, ∃ m, r.recorded lookups dropped = some m ∧ m.sourceTradeId.val = id) →
    ((l.foldl (recordEvidence lookups dropped) records).lookup id).isSome
  | [], _, h => by
    rcases h with h | ⟨r, hr, _⟩
    · exact h
    · simp at hr
  | r :: l, records, h => by
    rw [List.foldl_cons]
    refine lookup_evidence_isSome ?_
    rw [lookup_recordEvidence]
    rcases h with h | ⟨r', hr', m, hrec, hid⟩
    · left
      cases r.recorded lookups dropped with
      | none => exact h
      | some m => simp only; split <;> simp [h]
    · -- recorded here, or by a later record
      rcases List.mem_cons.mp hr' with rfl | hr'
      · left; simp [hrec, hid]
      · exact Or.inr ⟨r', hr', m, hrec, hid⟩

/-! ## The components -/

theorem componentCause_eq_none :
    componentCause ledger w c = .ok none ↔
      componentOrderIndependent ledger w c .repaired = .ok true := by
  unfold componentCause
  split <;> rename_i h <;> rw [h] <;> simp
  · split <;> simp
  · split <;> simp

/-- The check of a component of mutations the ledger does not refuse has a verdict. -/
theorem componentCause_ok (ledger : PositionLedger) (w : WalletAddress)
    (hr : ∀ m ∈ c, ¬ m.IsRefused) : ∃ cause, componentCause ledger w c = .ok cause := by
  unfold componentCause
  cases h : componentOrderIndependent ledger w c .repaired with
  | ok b => cases b <;> exact ⟨_, rfl⟩
  | error e =>
    -- only a component of one mutation fails with an error
    obtain ⟨m, rfl, he⟩ := componentOrderIndependent_error h
    rcases he with he | he
    · cases e with
      | underflow id | overflow id => exact ⟨_, rfl⟩
      | invalidMapping id | conversion id | unknownEffect id =>
        simp [LedgerError.IsArithmetic] at he
    · exact absurd he (hr m (by simp))

/-- A component of several mutations, or of a market, fails for a reason of its market. -/
theorem componentCause_eq_some {cause : DropCause}
    (h : componentCause ledger w c = .ok (some cause)) :
    cause = .orderDependent ∨ cause = .underflow ∨ cause = .overflow := by
  unfold componentCause at h
  split at h
  · simp at h
  · simp only [Except.ok.injEq, Option.some.injEq] at h; exact Or.inl h.symm
  · split at h
    · simp only [Except.ok.injEq, Option.some.injEq] at h; exact Or.inr (Or.inl h.symm)
    · simp at h
  · split at h
    · simp only [Except.ok.injEq, Option.some.injEq] at h; exact Or.inr (Or.inr h.symm)
    · simp at h
  · simp at h

theorem retractStep_notes (s : Scan) (m : LedgerMutation) : s.Notes (retractStep s m) := by
  unfold retractStep
  cases s.effectiveRecords.lookup m.sourceTradeId.val with
  | none => exact .consumed _ .refl
  | some a => exact .consumed _ (.ignore _ _ .refl)

theorem retract_notes : ∀ (c : List LedgerMutation) (s : Scan), s.Notes (retract s c)
  | [], _ => .refl
  | m :: c, s => (retractStep_notes s m).trans (retract_notes c _)

theorem failComponent_keeps (lookups : ScopeLookups) (dropped : Finset Scope) (s : Scan)
    (c : List LedgerMutation) (a : ActivityAggregate) (cause : DropCause) (id : SourceTradeId) :
    (failComponent lookups dropped s c a cause id).mutations = s.mutations
      ∧ (failComponent lookups dropped s c a cause id).effectiveRecords = s.effectiveRecords
      ∧ (failComponent lookups dropped s c a cause id).failed
        = s.failed ∪ (c.map (·.sourceTradeId.val)).toFinset := by
  unfold failComponent
  cases resolveProblemScope a cause lookups with
  | none =>
    obtain ⟨hm, he, hf⟩ := (retract_notes c s).keeps
    simp only
    exact ⟨hm, he, by rw [hf]⟩
  | some scope =>
    simp only
    split <;> exact ⟨rfl, rfl, rfl⟩

/-- **What one component does to a scan.** -/
theorem componentStep_inv (h : componentStep lookups dropped ledger w s c = .ok s') (hne : c ≠ []) :
    (componentCause ledger w c = .ok none ∧ s' = s)
      ∨ ∃ first more cause a, c = first :: more ∧ componentCause ledger w c = .ok (some cause)
        ∧ s.effectiveRecords.lookup first.sourceTradeId.val = some a
        ∧ s' = failComponent lookups dropped s c a cause first.sourceTradeId := by
  cases c with
  | nil => exact absurd rfl hne
  | cons first more =>
    obtain ⟨cause, hc, h⟩ := bind_eq_ok.mp h
    cases cause with
    | none => exact Or.inl ⟨hc, (pure_eq_ok.mp h).symm⟩
    | some cause =>
      right
      cases ha : s.effectiveRecords.lookup first.sourceTradeId.val with
      | none => rw [ha] at h; simp [throw, throwThe, MonadExceptOf.throw] at h
      | some a =>
        rw [ha] at h
        exact ⟨first, more, cause, a, rfl, hc, ha, (pure_eq_ok.mp h).symm⟩

theorem componentStep_keeps (h : componentStep lookups dropped ledger w s c = .ok s')
    (hne : c ≠ []) : s'.mutations = s.mutations ∧ s'.effectiveRecords = s.effectiveRecords := by
  rcases componentStep_inv h hne with ⟨_, rfl⟩ | ⟨first, _, cause, a, _, _, _, rfl⟩
  · exact ⟨rfl, rfl⟩
  · have hk := failComponent_keeps lookups dropped s c a cause first.sourceTradeId
    exact ⟨hk.1, hk.2.1⟩

/-- The check passes the component. -/
def Passes (ledger : PositionLedger) (w : WalletAddress) (c : List LedgerMutation) : Prop :=
  componentOrderIndependent ledger w c .repaired = .ok true

theorem Passes.perm {c' : List LedgerMutation} (hp : c'.Perm c) :
    Passes ledger w c' ↔ Passes ledger w c :=
  ⟨componentOrderIndependent_perm hp.symm, componentOrderIndependent_perm hp⟩

theorem componentStep_failed (h : componentStep lookups dropped ledger w s c = .ok s')
    (hne : c ≠ []) :
    id ∈ s'.failed ↔ id ∈ s.failed
      ∨ ¬ Passes ledger w c ∧ ∃ m ∈ c, m.sourceTradeId.val = id := by
  rcases componentStep_inv h hne with ⟨hc, rfl⟩ | ⟨first, _, cause, a, _, hc, _, rfl⟩
  · have hp : Passes ledger w c := componentCause_eq_none.mp hc
    simp [hp]
  · have hp : ¬ Passes ledger w c := by
      intro hp
      rw [componentCause_eq_none.mpr hp] at hc
      simp at hc
    rw [(failComponent_keeps lookups dropped s c a cause first.sourceTradeId).2.2]
    simp [hp]

/-- **The failures after all components: every id of a component that does not pass.** -/
theorem scanComponents_failed : ∀ {cs : List (List LedgerMutation)} {s s' : Scan},
    (∀ c ∈ cs, c ≠ []) →
    cs.foldlM (componentStep lookups dropped ledger w) s = .ok s' →
    (id ∈ s'.failed ↔ id ∈ s.failed
      ∨ ∃ c ∈ cs, ¬ Passes ledger w c ∧ ∃ m ∈ c, m.sourceTradeId.val = id)
  | [], s, s', _, h => by
    rw [pure_eq_ok.mp h]
    simp
  | c :: cs, s, s', hne, h => by
    obtain ⟨t, ht, h⟩ := foldlM_cons_ok.mp h
    rw [scanComponents_failed (fun d hd => hne d (List.mem_cons_of_mem _ hd)) h,
      componentStep_failed ht (hne c List.mem_cons_self), List.exists_mem_cons_iff, or_assoc]

theorem scanComponents_keeps {cs : List (List LedgerMutation)} (hne : ∀ c ∈ cs, c ≠ [])
    (h : cs.foldlM (componentStep lookups dropped ledger w) s = .ok s') :
    s'.mutations = s.mutations ∧ s'.effectiveRecords = s.effectiveRecords :=
  ⟨foldlM_const (fun _ c hc _ hs => (componentStep_keeps hs (hne c hc)).1) h,
    foldlM_const (fun _ c hc _ hs => (componentStep_keeps hs (hne c hc)).2) h⟩

/-! ## The whole scan -/

theorem anomalyStep_notes (s : Scan) (anomaly : ActivityRowAnomaly) :
    s.Notes (anomalyStep lookups dropped s anomaly) := by
  unfold anomalyStep
  cases resolveAnomalyScope anomaly lookups with
  | none => exact .ignore _ _ .refl
  | some scope =>
    simp only
    split
    · exact .refl
    · exact .report _ .refl

theorem scanAnomalies_notes (lookups : ScopeLookups) (dropped : Finset Scope) :
    ∀ (l : List ActivityRowAnomaly) (s : Scan),
    s.Notes (l.foldl (anomalyStep lookups dropped) s)
  | [], _ => .refl
  | x :: l, s => (anomalyStep_notes s x).trans (scanAnomalies_notes lookups dropped l _)

/-- The records in the order of their keys. -/
def orderedRecords (records : List SecondRecord) : List SecondRecord :=
  sortOn (fun r => r.aggregate.groupId.key.val) records

theorem mem_orderedRecords :
    r ∈ orderedRecords records ↔ r ∈ records := (sortOn_perm _ records).mem_iff

/-- A scan in terms of its three passes. -/
theorem scanSecond_eq_ok :
    scanSecond lookups ledger w dropped records anomalies = .ok s ↔
      ∃ t, (orderedRecords records).foldlM (recordStep lookups dropped)
          (anomalies.foldl (anomalyStep lookups dropped) .empty) = .ok t
        ∧ (mutationComponents t.mutations).foldlM (componentStep lookups dropped ledger w) t
          = .ok s :=
  bind_eq_ok

section

variable (lookups : ScopeLookups) (dropped : Finset Scope) (records : List SecondRecord)

/-- The mutations brought to the order proof. -/
def pushedMutations : List LedgerMutation :=
  (orderedRecords records).filterMap (SecondRecord.pushed lookups dropped)

/-- The evidence recorded beside them. -/
def evidence : Finmap fun _ : String => ActivityAggregate :=
  (orderedRecords records).foldl (recordEvidence lookups dropped) ∅

end

theorem scanRecords_fields {t : Scan}
    (h : (orderedRecords records).foldlM (recordStep lookups dropped)
      (anomalies.foldl (anomalyStep lookups dropped) .empty) = .ok t) :
    t.mutations = pushedMutations lookups dropped records
      ∧ t.effectiveRecords = evidence lookups dropped records ∧ t.failed = ∅ := by
  obtain ⟨hm, he, hf⟩ := (scanAnomalies_notes lookups dropped anomalies .empty).keeps
  refine ⟨?_, ?_, ?_⟩
  · rw [scanRecords_mutations h, hm]; rfl
  · rw [scanRecords_effectiveRecords h, he]; rfl
  · rw [scanRecords_failed h, hf]; rfl

/-- **The finished scan.** -/
theorem scanSecond_fields (h : scanSecond lookups ledger w dropped records anomalies = .ok s) :
    s.mutations = pushedMutations lookups dropped records
      ∧ s.effectiveRecords = evidence lookups dropped records
      ∧ ∀ id, id ∈ s.failed ↔ ∃ c ∈ mutationComponents (pushedMutations lookups dropped records),
          ¬ Passes ledger w c ∧ ∃ m ∈ c, m.sourceTradeId.val = id := by
  obtain ⟨t, ht, hs⟩ := scanSecond_eq_ok.mp h
  obtain ⟨hm, he, hf⟩ := scanRecords_fields ht
  have hne : ∀ c ∈ mutationComponents t.mutations, c ≠ [] :=
    fun c hc => mutationComponents_ne_nil hc
  obtain ⟨hm', he'⟩ := scanComponents_keeps hne hs
  refine ⟨hm'.trans hm, he'.trans he, fun id => ?_⟩
  rw [scanComponents_failed hne hs, hf, hm]
  simp

end PredictionEdge
