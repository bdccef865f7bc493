import PredictionEdge.Ledger.Survivors

/-!
# Drops only grow

A scope that has a problem keeps one, what is ignored stays ignored, and the problem
under a scope names that scope. So the problems a second hands back name exactly the
scopes it dropped, and a market that is not dropped at the end was dropped nowhere on
the way.
-/

namespace PredictionEdge

open Lib

variable {lookups : ScopeLookups} {dropped : Finset Scope} {ledger : PositionLedger}
  {w : WalletAddress}

/-- Every problem stands under its own scope. -/
def Problems.Named (problems : Problems) : Prop :=
  ∀ (scope : Scope) (p : ScopeProblem), problems[scope]? = some p → p.scope = scope

theorem getElem?_recordScopeProblem (problems : Problems) (p : ScopeProblem) (scope : Scope) :
    (recordScopeProblem problems p)[scope]? =
      if p.scope = scope then some (pushProblem p problems[scope]?) else problems[scope]? := by
  rw [recordScopeProblem, Std.ExtTreeMap.getElem?_alter]
  by_cases h : p.scope = scope
  · subst h; simp
  · have hne : Scope.compare p.scope scope ≠ .eq := fun he => h (Std.LawfulEqCmp.eq_of_compare he)
    simp [h, hne]

theorem Problems.Named.record {problems : Problems} (h : problems.Named) (p : ScopeProblem) :
    Problems.Named (recordScopeProblem problems p) := by
  intro scope q hq
  rw [getElem?_recordScopeProblem] at hq
  split at hq
  · rename_i hs
    rw [Option.some.injEq] at hq
    subst hq
    cases ho : problems[scope]? with
    | none => exact hs
    | some o =>
      simp only [pushProblem]
      split
      · exact h scope o ho
      · exact h scope o ho
  · exact h scope q hq

/-- The later scan holds every problem scope and every ignored entry of the earlier. -/
structure Scan.Grows (s s' : Scan) : Prop where
  named : s.problems.Named → s'.problems.Named
  problems : ∀ scope : Scope, (s.problems[scope]?).isSome → (s'.problems[scope]?).isSome
  ignored : s.ignored ⊆ s'.ignored

variable {s s' : Scan}

namespace Scan.Grows

theorem refl (s : Scan) : s.Grows s := ⟨id, fun _ h => h, List.Subset.refl _⟩

theorem trans {s'' : Scan} (h : s.Grows s') (h' : s'.Grows s'') : s.Grows s'' :=
  ⟨fun hn => h'.named (h.named hn), fun scope hs => h'.problems scope (h.problems scope hs),
    List.Subset.trans h.ignored h'.ignored⟩

theorem of_eq (h : s'.problems = s.problems) (hi : s'.ignored = s.ignored) : s.Grows s' :=
  ⟨fun hn => h ▸ hn, fun scope hs => by rw [h]; exact hs, fun _ he => hi ▸ he⟩

theorem ignore (s : Scan) (id : SourceTradeId) (kind : ActivityType) : s.Grows (s.ignore id kind) :=
  ⟨fun hn => hn, fun _ h => h, fun _ he => List.mem_append_left _ he⟩

theorem report (s : Scan) (p : ScopeProblem) : s.Grows (s.report p) := by
  refine ⟨fun h => h.record p, fun scope h => ?_, List.Subset.refl _⟩
  simp only [Scan.report, getElem?_recordScopeProblem]
  split
  · simp
  · exact h

end Scan.Grows

theorem report_isSome (s : Scan) (p : ScopeProblem) : ((s.report p).problems[p.scope]?).isSome := by
  simp [Scan.report, getElem?_recordScopeProblem]

theorem Scan.Notes.grows (h : s.Notes s') : s.Grows s' := by
  induction h with
  | refl => exact .refl s
  | ignore id kind _ ih => exact ih.trans (.ignore _ id kind)
  | report p _ ih => exact ih.trans (.report _ p)
  | consumed _ _ ih => exact ih.trans (.of_eq rfl rfl)

theorem recordStep_grows {r : SecondRecord} (h : recordStep lookups dropped s r = .ok s') :
    s.Grows s' := by
  obtain ⟨route, _, rfl⟩ := map_eq_ok.mp h
  cases route with
  | raw m => exact .of_eq rfl rfl
  | tokenless => exact .ignore s _ _
  | problem cause => exact (problemStep_notes _ _ r cause s).grows
  | effective m =>
    have hconsume := (consumeEffective_notes m s).grows
    simp only [effectiveStep]
    split
    · exact hconsume
    · exact hconsume.trans (.of_eq rfl rfl)

theorem failComponent_grows (s : Scan) (c : List LedgerMutation) (a : ActivityAggregate)
    (cause : DropCause) (id : SourceTradeId) :
    s.Grows (failComponent lookups dropped s c a cause id) := by
  unfold failComponent
  cases resolveProblemScope a cause lookups with
  | none => exact (retract_notes c s).grows.trans (.of_eq rfl rfl)
  | some scope =>
    simp only
    split
    · exact .of_eq rfl rfl
    · exact (Scan.Grows.report s _).trans (.of_eq rfl rfl)

theorem componentStep_grows {c : List LedgerMutation}
    (h : componentStep lookups dropped ledger w s c = .ok s') (hne : c ≠ []) : s.Grows s' := by
  rcases componentStep_inv h hne with ⟨_, rfl⟩ | ⟨first, _, cause, a, _, _, _, rfl⟩
  · exact .refl _
  · exact failComponent_grows s c a cause first.sourceTradeId

theorem scanRecords_grows {l : List SecondRecord}
    (h : l.foldlM (recordStep lookups dropped) s = .ok s') : s.Grows s' :=
  foldlM_rel Scan.Grows.refl Scan.Grows.trans (fun _ _ _ _ ht => recordStep_grows ht) h

theorem scanComponents_grows {cs : List (List LedgerMutation)} (hne : ∀ c ∈ cs, c ≠ [])
    (h : cs.foldlM (componentStep lookups dropped ledger w) s = .ok s') : s.Grows s' :=
  foldlM_rel Scan.Grows.refl Scan.Grows.trans
    (fun _ c hc _ ht => componentStep_grows ht (hne c hc)) h

/-! ## What a finished scan dropped -/

theorem mem_newDrops {scope : Scope} : scope ∈ s.newDrops ↔ (s.problems[scope]?).isSome := by
  rw [Scan.newDrops, List.mem_toFinset, Std.ExtTreeMap.mem_keys,
    Std.ExtTreeMap.mem_iff_isSome_getElem?]

variable {anomalies : List ActivityRowAnomaly} {records : List SecondRecord}
  {dropped' : Finset Scope} {market : String}

theorem scanSecond_named (h : scanSecond lookups ledger w dropped records anomalies = .ok s) :
    s.problems.Named := by
  obtain ⟨t, ht, hs⟩ := scanSecond_eq_ok.mp h
  have hgrows := ((scanAnomalies_notes _ _ anomalies .empty).grows.trans (scanRecords_grows ht)).trans
    (scanComponents_grows (fun c hc => mutationComponents_ne_nil hc) hs)
  refine hgrows.named fun scope p hp => ?_
  simp [Scan.empty] at hp

/-- The scopes of the problems handed back. -/
def ScopedSecond.problemScopes (r : ScopedSecond) : Finset Scope :=
  (r.problems.map ScopeProblem.scope).toFinset

/-- **The problems handed back name exactly the new drops.** -/
theorem problemScopes_eq (h : scanSecond lookups ledger w dropped records anomalies = .ok s)
    (certified : Bool) (decisions : List TradeDecision) :
    (scopedResult lookups certified s decisions).problemScopes = s.newDrops := by
  have hnamed := scanSecond_named h
  ext scope
  simp only [ScopedSecond.problemScopes, scopedResult, List.mem_toFinset, List.mem_map,
    mem_intoValues, mem_newDrops, Option.isSome_iff_exists]
  constructor
  · rintro ⟨p, ⟨scope', hp⟩, rfl⟩
    exact ⟨p, by rw [hnamed scope' p hp]; exact hp⟩
  · rintro ⟨p, hp⟩
    exact ⟨p, ⟨scope, hp⟩, hnamed scope p hp⟩

theorem marketIsDropped_mono (hsub : dropped ⊆ dropped')
    (h : marketIsDropped market dropped lookups = true) :
    marketIsDropped market dropped' lookups = true := by
  unfold marketIsDropped at h ⊢
  rw [Bool.or_eq_true, decide_eq_true_eq] at h ⊢
  rcases h with h | h
  · exact Or.inl (hsub h)
  · right
    cases hl : lookups.market market with
    | grouped group =>
      rw [hl] at h
      simp only [decide_eq_true_eq] at h ⊢
      exact hsub h
    | unknown | ungrouped => rw [hl] at h; simp at h

theorem not_marketIsDropped_mono (hsub : dropped ⊆ dropped')
    (h : marketIsDropped market dropped' lookups = false) :
    marketIsDropped market dropped lookups = false := by
  cases hd : marketIsDropped market dropped lookups with
  | false => rfl
  | true => rw [marketIsDropped_mono hsub hd] at h; simp at h

end PredictionEdge
