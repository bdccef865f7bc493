import Mathlib.Data.Set.Lattice
import PredictionEdge.Lib.Merged

/-!
# Systems whose actions are local

An action of a *local system* reads and writes only the cells it announces. Two
laws say so: what it does not announce it leaves alone (`frame`), and two states
that agree on what it announces lead it to the same outcome (`cong`).

From those two laws alone a run can be taken apart: merging two lists of actions
with disjoint cells succeeds exactly when each list succeeds on its own, and the
merged run ends, cell by cell, where the separate runs ended. That is the whole
of the argument by which checking the parts of a batch in isolation says anything
about the batch.
-/

namespace PredictionEdge.Lib

/-- Two fallible results of the same shape: equal errors, or related values. -/
inductive Matches {E A B : Type} (R : A → B → Prop) : Except E A → Except E B → Prop where
  | ok {a : A} {b : B} : R a b → Matches R (.ok a) (.ok b)
  | error (e : E) : Matches R (.error e) (.error e)

theorem Matches.ok_left {E A B : Type} {R : A → B → Prop} {a : A} {y : Except E B}
    (h : Matches R (.ok a) y) : ∃ b, y = .ok b ∧ R a b := by
  cases h with
  | ok hr => exact ⟨_, rfl, hr⟩

theorem Matches.imp {E A B : Type} {R R' : A → B → Prop} {x : Except E A} {y : Except E B}
    (h : Matches R x y) (hR : ∀ a b, R a b → R' a b) : Matches R' x y := by
  cases h with
  | ok hr => exact .ok (hR _ _ hr)
  | error e => exact .error e

/-- Matching results are one error, or two related values. -/
theorem Matches.split {E A B : Type} {R : A → B → Prop} {x : Except E A} {y : Except E B}
    (h : Matches R x y) :
    (∃ e, x = .error e ∧ y = .error e) ∨ ∃ a b, x = .ok a ∧ y = .ok b ∧ R a b := by
  cases h with
  | ok hr => exact .inr ⟨_, _, rfl, rfl, hr⟩
  | error e => exact .inl ⟨e, rfl, rfl⟩

/-- Two computations that begin alike match when what follows does. -/
theorem Matches.bind {E A B C : Type} {R : A → B → Prop} {x : Except E C}
    {f : C → Except E A} {g : C → Except E B} (h : ∀ c, x = .ok c → Matches R (f c) (g c)) :
    Matches R (x >>= f) (x >>= g) := by
  cases x with
  | error e => exact .error e
  | ok c => exact h c rfl

/-- State `σ`, cells `K` holding `V`, actions `M` with outputs `O` and errors `E`. -/
structure LocalSystem (σ K V M O E : Type) where
  /-- What a state holds in a cell. -/
  get : σ → K → V
  /-- The cells an action announces. -/
  touch : M → List K
  /-- One action. -/
  step : M → σ → Except E (σ × O)
  /-- Cells that are not announced do not change. -/
  frame : ∀ {m : M} {s s' : σ} {o : O}, step m s = .ok (s', o) →
    ∀ k, k ∉ touch m → get s' k = get s k
  /-- The outcome depends on the announced cells only. -/
  cong : ∀ {m : M} {s t : σ}, (∀ k ∈ touch m, get s k = get t k) →
    Matches (fun x y => x.2 = y.2 ∧ ∀ k ∈ touch m, get x.1 k = get y.1 k) (step m s) (step m t)

namespace LocalSystem

variable {σ K V M O E : Type} (sys : LocalSystem σ K V M O E)

/-- Run a list of actions, keeping each output beside the action that made it. -/
def run : List M → σ → Except E (σ × List (M × O))
  | [], s => .ok (s, [])
  | m :: ms, s => do
    let (s', o) ← sys.step m s
    let (s'', os) ← run ms s'
    pure (s'', (m, o) :: os)

/-- Every cell announced by an action of the list. -/
def keys (l : List M) : Set K := {k | ∃ m ∈ l, k ∈ sys.touch m}

/-- Two states agree on a set of cells. -/
def SameOn (S : Set K) (s t : σ) : Prop := ∀ k ∈ S, sys.get s k = sys.get t k

variable {sys} {l : List M}

theorem mem_keys {k : K} : k ∈ sys.keys l ↔ ∃ m ∈ l, k ∈ sys.touch m := Iff.rfl

theorem keys_perm {l' : List M} (h : l.Perm l') : sys.keys l = sys.keys l' := by
  ext k; simp only [mem_keys, h.mem_iff]

variable {m : M}

theorem keys_cons {k : K} : k ∈ sys.keys (m :: l) ↔ k ∈ sys.touch m ∨ k ∈ sys.keys l := by
  simp only [mem_keys, List.mem_cons, exists_eq_or_imp]

variable {s : σ}

theorem run_nil : sys.run [] s = .ok (s, []) := rfl

theorem run_cons_of_error {ms : List M} {e : E} (h : sys.step m s = .error e) :
    sys.run (m :: ms) s = .error e := by
  rw [run, h]; rfl

theorem run_cons_of_ok {ms : List M} {s' : σ} {o : O} (h : sys.step m s = .ok (s', o)) :
    sys.run (m :: ms) s = (sys.run ms s').map fun r => (r.1, (m, o) :: r.2) := by
  rw [run, h]
  cases hr : sys.run ms s' with
  | error e => simp [bind, Except.bind, hr, Except.map]
  | ok r => simp [bind, Except.bind, hr, Except.map, pure, Except.pure]

theorem run_cons_ok {ms : List M} {r : σ × List (M × O)} : sys.run (m :: ms) s = .ok r ↔
      ∃ s' o os, sys.step m s = .ok (s', o) ∧ sys.run ms s' = .ok (r.1, os)
        ∧ r.2 = (m, o) :: os := by
  cases h : sys.step m s with
  | error e => simp [run_cons_of_error h]
  | ok p =>
    obtain ⟨s', o⟩ := p
    rw [run_cons_of_ok h]
    cases hr : sys.run ms s' with
    | error e => simp [Except.map, hr]
    | ok q =>
      obtain ⟨t, os⟩ := q
      obtain ⟨r1, r2⟩ := r
      simp only [Except.map, Except.ok.injEq, Prod.mk.injEq]
      constructor
      · rintro ⟨rfl, rfl⟩; exact ⟨s', o, os, ⟨rfl, rfl⟩, hr, rfl⟩
      · rintro ⟨_, _, os', ⟨rfl, rfl⟩, h1, rfl⟩
        rw [hr] at h1
        simp only [Except.ok.injEq, Prod.mk.injEq] at h1
        exact ⟨h1.1, by rw [h1.2]⟩

/-- **Induction over a run**: one step, then the run from where it ends. -/
theorem run_induction
    {motive : ∀ l s t os, sys.run l s = .ok (t, os) → Prop} (nil : ∀ s, motive [] s s [] rfl)
    (cons : ∀ m l s s' t o os h, sys.step m s = .ok (s', o) → (hr : sys.run l s' = .ok (t, os)) →
      motive l s' t os hr → motive (m :: l) s t ((m, o) :: os) h) :
    ∀ {l s t os} (h : sys.run l s = .ok (t, os)), motive l s t os h
  | [], s, t, os, h => by
    obtain ⟨rfl, rfl⟩ := Prod.mk.inj (Except.ok.inj (run_nil.symm.trans h))
    exact nil s
  | m :: l, s, t, os, h => by
    obtain ⟨s', o, os', hs, hr, ho⟩ := run_cons_ok.mp h
    obtain rfl : os = (m, o) :: os' := ho
    exact cons m l s s' t o os' h hs hr (run_induction nil cons hr)

/-- The outputs of a run are tagged with its actions, in order. -/
theorem run_tags {t : σ} {os : List (M × O)} (h : sys.run l s = .ok (t, os)) :
    os.map Prod.fst = l := by
  induction h using run_induction with
  | nil s => rfl
  | cons m l s s' t o os _ hs hr ih => rw [List.map_cons, ih]

/-- **Cells no action of the list announces are unchanged by the run.** -/
theorem run_frame {t : σ} {os : List (M × O)} (h : sys.run l s = .ok (t, os)) :
    ∀ k, k ∉ sys.keys l → sys.get t k = sys.get s k := by
  induction h using run_induction with
  | nil s => exact fun k _ => rfl
  | cons m l s s' t o os _ hs hr ih =>
    intro k hk
    rw [keys_cons, not_or] at hk
    rw [ih k hk.2, sys.frame hs k hk.1]

/-- A step from two states that agree on a wider set leaves them agreeing there. -/
theorem step_sameOn {S : Set K} {t : σ} (hm : ∀ k ∈ sys.touch m, k ∈ S) (h : sys.SameOn S s t) :
    Matches (fun x y => x.2 = y.2 ∧ sys.SameOn S x.1 y.1) (sys.step m s) (sys.step m t) := by
  have hc := sys.cong (m := m) (s := s) (t := t) fun k hk => h k (hm k hk)
  rcases hc.split with ⟨e, hs, ht⟩ | ⟨x, y, hs, ht, hxy, hg⟩
  · rw [hs, ht]
    exact .error e
  · rw [hs, ht]
    refine .ok ⟨hxy, fun k hk => ?_⟩
    by_cases hkm : k ∈ sys.touch m
    · exact hg k hkm
    · rw [sys.frame hs k hkm, sys.frame ht k hkm, h k hk]

/--
**A run depends only on the cells its actions announce.**

From two states that agree there the two runs fail with the same error, or both
succeed with the same outputs and still agree.
-/
theorem run_sameOn {S : Set K} : ∀ {l : List M} {s t : σ}, sys.keys l ⊆ S →
    sys.SameOn S s t →
    Matches (fun x y => x.2 = y.2 ∧ sys.SameOn S x.1 y.1) (sys.run l s) (sys.run l t)
  | [], s, t, _, h => .ok ⟨rfl, h⟩
  | m :: l, s, t, hl, h => by
    have hm : ∀ k ∈ sys.touch m, k ∈ S := fun k hk => hl (keys_cons.mpr (Or.inl hk))
    have hl' : sys.keys l ⊆ S := fun k hk => hl (keys_cons.mpr (Or.inr hk))
    rcases (step_sameOn hm h).split with ⟨e, hs, ht⟩ | ⟨⟨s', o⟩, ⟨t', o'⟩, hs, ht, ho, hst⟩
    · rw [run_cons_of_error hs, run_cons_of_error ht]
      exact .error e
    · obtain rfl : o = o' := ho
      rw [run_cons_of_ok hs, run_cons_of_ok ht]
      rcases (run_sameOn (l := l) hl' hst).split with ⟨e, hr, hq⟩ | ⟨r, q, hr, hq, hrq, hS⟩
      · rw [hr, hq]
        exact .error e
      · rw [hr, hq]
        exact .ok ⟨by simp only [hrq], hS⟩

variable {a b : List M}

theorem run_append {t : σ} {oa : List (M × O)} (ha : sys.run a s = .ok (t, oa)) :
    sys.run (a ++ b) s = (sys.run b t).map fun r => (r.1, oa ++ r.2) := by
  induction a generalizing s oa with
  | nil =>
    simp only [run_nil, Except.ok.injEq, Prod.mk.injEq] at ha
    obtain ⟨rfl, rfl⟩ := ha
    cases h : sys.run b s with
    | error e | ok r => simp [Except.map, h]
  | cons m a ih =>
    obtain ⟨s', o, os, hs, hr, ho⟩ := run_cons_ok.mp ha
    have ho' : oa = (m, o) :: os := ho
    rw [List.cons_append, run_cons_of_ok hs, ih hr, ho']
    cases h : sys.run b t with
    | error e | ok r => simp [Except.map]

/-! ## Taking a merged run apart -/

/-- No action of `a` announces a cell that an action of `b` announces. -/
def Apart (sys : LocalSystem σ K V M O E) (a b : List M) : Prop := ∀ k ∈ sys.keys a, k ∉ sys.keys b

theorem Apart.symm (h : sys.Apart a b) : sys.Apart b a :=
  fun k hb ha => h k ha hb

theorem Apart.not_mem (h : sys.Apart a b) {k : K} (hk : k ∈ sys.keys a) : k ∉ sys.keys b := h k hk

theorem Apart.tail (h : sys.Apart (m :: a) b) : sys.Apart a b :=
  fun _ hk => h.not_mem (keys_cons.mpr (Or.inr hk))

theorem Apart.head (h : sys.Apart (m :: a) b) {k : K} (hk : k ∈ sys.keys b) : k ∉ sys.touch m :=
  fun hm => h.not_mem (keys_cons.mpr (Or.inl hm)) hk

/-- A step outside a run's cells does not change the run. -/
theorem run_after_step {s' : σ} {o : O} (hs : sys.step m s = .ok (s', o))
    (hb : ∀ k ∈ sys.keys b, k ∉ sys.touch m) :
    Matches (fun x y => x.2 = y.2 ∧ sys.SameOn {k | k ∉ sys.touch m} x.1 y.1)
      (sys.run b s') (sys.run b s) :=
  run_sameOn (fun k hk => hb k hk) fun k hk => sys.frame hs k hk

/-- A run that succeeds does so after a step outside its cells, with the same outputs. -/
theorem run_after_step_ok {s1 sb : σ} {o : O} {ob : List (M × O)} (hs : sys.step m s = .ok (s1, o))
    (hm : ∀ k ∈ sys.keys b, k ∉ sys.touch m) (hb : sys.run b s = .ok (sb, ob)) :
    ∃ sb1, sys.run b s1 = .ok (sb1, ob) ∧ sys.SameOn {k | k ∉ sys.touch m} sb1 sb := by
  -- the two runs end alike, so the second succeeds as the first does
  rcases (run_after_step hs hm).split with ⟨e, _, hb'⟩ | ⟨⟨sb1, ob1⟩, r, h1, hb', houts, hsame⟩
  · exact absurd (hb.symm.trans hb') (by simp)
  · obtain rfl := Except.ok.inj (hb.symm.trans hb')
    obtain rfl : ob1 = ob := houts
    exact ⟨sb1, h1, hsame⟩

theorem run_merged_ok (hm : Merged a b l) : ∀ {s sa sb : σ}
    {oa ob : List (M × O)}, sys.Apart a b → sys.run a s = .ok (sa, oa) →
    sys.run b s = .ok (sb, ob) →
    ∃ s' o, sys.run l s = .ok (s', o) ∧ Merged oa ob o
      ∧ sys.SameOn {k | k ∉ sys.keys b} s' sa ∧ sys.SameOn {k | k ∉ sys.keys a} s' sb := by
  induction hm with
  | nil =>
    intro s sa sb oa ob _ ha hb
    simp only [run_nil, Except.ok.injEq, Prod.mk.injEq] at ha hb
    obtain ⟨rfl, rfl⟩ := ha
    obtain ⟨rfl, rfl⟩ := hb
    exact ⟨_, [], rfl, .nil, fun _ _ => rfl, fun _ _ => rfl⟩
  | @left x a b l _ ih =>
    intro s sa sb oa ob hd ha hb
    obtain ⟨s1, o, os, hs, hr, ho⟩ := run_cons_ok.mp ha
    have ho' : oa = (x, o) :: os := ho
    obtain ⟨sb1, hb1, hsb⟩ := run_after_step_ok hs (fun k hk => hd.head hk) hb
    obtain ⟨s', o', hl, hmo, h1, h2⟩ := ih hd.tail hr hb1
    refine ⟨s', (x, o) :: o', ?_, ho' ▸ hmo.left, h1, ?_⟩
    · rw [run_cons_of_ok hs, hl]; rfl
    · intro k hk
      rw [Set.mem_ofPred_eq, keys_cons, not_or] at hk
      rw [h2 k hk.2, hsb k hk.1]
  | @right x a b l _ ih =>
    intro s sa sb oa ob hd ha hb
    obtain ⟨s1, o, os, hs, hr, ho⟩ := run_cons_ok.mp hb
    have ho' : ob = (x, o) :: os := ho
    obtain ⟨sa1, ha1, hsa⟩ := run_after_step_ok hs (fun k hk => hd.symm.head hk) ha
    obtain ⟨s', o', hl, hmo, h1, h2⟩ := ih hd.symm.tail.symm ha1 hr
    refine ⟨s', (x, o) :: o', ?_, ho' ▸ hmo.right, ?_, h2⟩
    · rw [run_cons_of_ok hs, hl]; rfl
    · intro k hk
      rw [Set.mem_ofPred_eq, keys_cons, not_or] at hk
      rw [h1 k hk.2, hsa k hk.1]

/-- A merged run that succeeds is a success of each part. -/
theorem run_merged_inv (hm : Merged a b l) : ∀ {s s' : σ}
    {o : List (M × O)}, sys.Apart a b → sys.run l s = .ok (s', o) →
    (∃ ra, sys.run a s = .ok ra) ∧ ∃ rb, sys.run b s = .ok rb := by
  induction hm with
  | nil => intro s s' o _ _; exact ⟨⟨_, rfl⟩, ⟨_, rfl⟩⟩
  | @left x a b l _ ih =>
    intro s s' o hd h
    obtain ⟨s1, ox, os, hs, hr, _⟩ := run_cons_ok.mp h
    obtain ⟨⟨ra, ha⟩, ⟨rb, hb⟩⟩ := ih hd.tail hr
    refine ⟨⟨_, by rw [run_cons_of_ok hs, ha]; rfl⟩, ?_⟩
    have hcb := run_after_step hs fun k hk => hd.head hk
    rw [hb] at hcb
    obtain ⟨y, hy, _⟩ := hcb.ok_left
    exact ⟨y, hy⟩
  | @right x a b l _ ih =>
    intro s s' o hd h
    obtain ⟨s1, ox, os, hs, hr, _⟩ := run_cons_ok.mp h
    obtain ⟨⟨ra, ha⟩, ⟨rb, hb⟩⟩ := ih hd.symm.tail.symm hr
    refine ⟨?_, ⟨_, by rw [run_cons_of_ok hs, hb]; rfl⟩⟩
    have hca := run_after_step hs fun k hk => hd.symm.head hk
    rw [ha] at hca
    obtain ⟨y, hy, _⟩ := hca.ok_left
    exact ⟨y, hy⟩

/-- The same, with where the parts end. -/
theorem run_merged (hm : Merged a b l) {s' : σ} {o : List (M × O)} (hd : sys.Apart a b)
    (h : sys.run l s = .ok (s', o)) :
    ∃ sa oa sb ob, sys.run a s = .ok (sa, oa) ∧ sys.run b s = .ok (sb, ob) ∧ Merged oa ob o
      ∧ sys.SameOn {k | k ∉ sys.keys b} s' sa ∧ sys.SameOn {k | k ∉ sys.keys a} s' sb := by
  obtain ⟨⟨⟨sa, oa⟩, ha⟩, ⟨⟨sb, ob⟩, hb⟩⟩ := run_merged_inv hm hd h
  obtain ⟨s2, o2, hl, hmo, h1, h2⟩ := run_merged_ok hm hd ha hb
  rw [h] at hl
  simp only [Except.ok.injEq, Prod.mk.injEq] at hl
  obtain ⟨rfl, rfl⟩ := hl
  exact ⟨sa, oa, sb, ob, ha, hb, hmo, h1, h2⟩

/-! ## Blocks -/

/-- Every order of the block runs. -/
def RunsInEveryOrder (sys : LocalSystem σ K V M O E) (s : σ) (c : List M) : Prop :=
  ∀ c', c'.Perm c → ∃ r, sys.run c' s = .ok r

theorem keys_flatten {bs : List (List M)} {k : K} :
    k ∈ sys.keys bs.flatten ↔ ∃ c ∈ bs, k ∈ sys.keys c := by
  simp only [mem_keys, List.mem_flatten]
  constructor
  · rintro ⟨m, ⟨c, hc, hm⟩, hk⟩; exact ⟨c, hc, m, hm, hk⟩
  · rintro ⟨c, hc, m, hm, hk⟩; exact ⟨m, ⟨c, hc, hm⟩, hk⟩

theorem apart_flatten {c : List M} {bs : List (List M)} (h : ∀ b ∈ bs, sys.Apart c b) :
    sys.Apart c bs.flatten := by
  intro k hk hb
  obtain ⟨b, hbs, hkb⟩ := keys_flatten.mp hb
  exact (h b hbs).not_mem hk hkb

/--
**Blocks that run in every order run together in every order.**

`l` is any reordering of all the blocks, interleaved as it likes. Inside `l` each
block appears in some order of its own; the whole run ends, on that block's cells,
where the block ends in that order, and carries the block's outputs.
-/
theorem run_blocks : ∀ {bs : List (List M)} {l : List M},
    bs.Pairwise sys.Apart → (∀ c ∈ bs, sys.RunsInEveryOrder s c) → l.Perm bs.flatten →
    ∃ s' o, sys.run l s = .ok (s', o) ∧ ∀ c ∈ bs, ∃ c' t oc, c'.Perm c
      ∧ sys.run c' s = .ok (t, oc) ∧ sys.SameOn (sys.keys c) s' t ∧ oc.Sublist o
  | [], l, _, _, hl => by
    rw [List.flatten_nil] at hl
    obtain rfl := hl.eq_nil
    exact ⟨s, [], rfl, fun c hc => absurd hc (by simp)⟩
  | c :: bs, l, hd, hc, hl => by
    rw [List.pairwise_cons] at hd
    rw [List.flatten_cons] at hl
    obtain ⟨c', r, hcp, hrp, hm⟩ := Merged.of_perm hl
    obtain ⟨⟨t, oc⟩, ht⟩ := hc c List.mem_cons_self c' hcp
    obtain ⟨sr, or', hr, hblk⟩ := run_blocks hd.2 (fun b hb => hc b (List.mem_cons_of_mem _ hb)) hrp
    have hap : sys.Apart c' r := by
      unfold Apart
      rw [keys_perm hcp, keys_perm hrp]
      exact apart_flatten hd.1
    obtain ⟨s', o, hrun, hmo, h1, h2⟩ := run_merged_ok hm hap ht hr
    refine ⟨s', o, hrun, fun b hb => ?_⟩
    rcases List.mem_cons.mp hb with rfl | hb
    · refine ⟨c', t, oc, hcp, ht, fun k hk => h1 k ?_, hmo.sublist_left⟩
      rw [← keys_perm hcp] at hk
      exact hap.not_mem hk
    · obtain ⟨b', u, ob, hbp, hbr, hbs, hbo⟩ := hblk b hb
      refine ⟨b', u, ob, hbp, hbr, fun k hk => ?_, hbo.trans hmo.symm.sublist_left⟩
      rw [h2 k ?_, hbs k hk]
      rw [Set.mem_ofPred_eq, keys_perm hcp]
      exact (hd.1 b hb).symm.not_mem hk

end LocalSystem

end PredictionEdge.Lib
