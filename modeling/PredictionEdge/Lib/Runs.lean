import Mathlib.Data.List.SplitBy
import Mathlib.Order.Lattice
import PredictionEdge.Lib.Fallible

/-!
# Runs of equal keys

A list in the order of a key falls into runs of equal keys. Blocks of one key each, with
growing keys, are the runs of what they make up; so a part of the list has the parts of the
runs as its runs, and a pass that does nothing on an empty block may go by either.
-/

namespace PredictionEdge.Lib

variable {α K : Type} [LinearOrder K]

/-- The runs of equal keys. -/
def runs (key : α → K) (l : List α) : List (List α) := l.splitBy fun a b => decide (key a = key b)

variable {key : α → K} {l : List α} {blocks : List (List α)}

@[simp] theorem flatten_runs (key : α → K) (l : List α) : (runs key l).flatten = l :=
  List.flatten_splitBy _ l

/-- A run has one key. -/
theorem runs_constant {block : List α} (h : block ∈ runs key l) {a b : α} (ha : a ∈ block)
    (hb : b ∈ block) : key a = key b := by
  have hchain := List.isChain_of_mem_splitBy h
  simp only [decide_eq_true_eq] at hchain
  have hpair : block.Pairwise fun a b => key a = key b :=
    have : IsTrans α fun a b => key a = key b := ⟨fun _ _ _ h h' => h.trans h'⟩
    List.isChain_iff_pairwise.mp hchain
  have : Std.Symm fun a b => key a = key b := ⟨fun _ _ h => h.symm⟩
  exact List.Pairwise.forall_of_forall (R := fun a b => key a = key b) (fun _ _ => rfl) hpair ha hb

/-- One block comes before another in the order of the keys. -/
def BlockBefore (key : α → K) (x y : List α) : Prop := ∀ a ∈ x, ∀ b ∈ y, key a < key b

/-- Blocks of one key each that never fall, and differ from each to the next, rise throughout. -/
theorem blockBefore_of_isChain : ∀ {blocks : List (List α)},
    (∀ block ∈ blocks, ∀ a ∈ block, ∀ b ∈ block, key a = key b) →
    (blocks.Pairwise fun x y => ∀ a ∈ x, ∀ b ∈ y, key a ≤ key b) →
    (blocks.IsChain fun x y => ∃ a ∈ x, ∃ b ∈ y, key a ≠ key b) → blocks.Pairwise (BlockBefore key)
  | [], _, _, _ => .nil
  | [x], _, _, _ => List.pairwise_singleton _ x
  | x :: y :: blocks, hconst, hle, hchain => by
    rw [List.isChain_cons_cons] at hchain
    have hrest := blockBefore_of_isChain (fun z hz => hconst z (List.mem_cons_of_mem _ hz)) hle.of_cons
      hchain.2
    obtain ⟨⟨a₀, ha₀, b₀, hb₀, hne⟩, _⟩ := hchain
    have hxy := (List.pairwise_cons.mp hle).1 y List.mem_cons_self
    have hlt : BlockBefore key x y := by
      intro a ha b hb
      rw [hconst x List.mem_cons_self a ha a₀ ha₀, hconst y (by simp) b hb b₀ hb₀]
      exact lt_of_le_of_ne (hxy a₀ ha₀ b₀ hb₀) hne
    refine List.pairwise_cons.mpr ⟨fun z hz => ?_, hrest⟩
    rcases List.mem_cons.mp hz with rfl | hz
    · exact hlt
    · -- through any element of the next block
      intro a ha b hb
      have hyz := (List.pairwise_cons.mp hle.of_cons).1 z hz b₀ hb₀ b hb
      exact lt_of_lt_of_le (hlt a ha b₀ hb₀) hyz

/-- The runs of a list in order have growing keys. -/
theorem runs_increasing (h : l.Pairwise fun a b => key a ≤ key b) :
    (runs key l).Pairwise (BlockBefore key) := by
  rw [← flatten_runs key l, List.pairwise_flatten] at h
  refine blockBefore_of_isChain (fun block hblock a ha b hb => runs_constant hblock ha hb) h.2 ?_
  refine (List.isChain_getLast_head_splitBy (fun a b => decide (key a = key b)) l).imp ?_
  intro x y ⟨hx, hy, hne⟩
  exact ⟨_, List.getLast_mem hx, _, List.head_mem hy, by simpa using hne⟩

/-- **Blocks of one key each, with growing keys, are the runs of what they make up.** -/
theorem runs_flatten (hne : [] ∉ blocks)
    (hconst : ∀ block ∈ blocks, ∀ a ∈ block, ∀ b ∈ block, key a = key b)
    (hinc : blocks.Pairwise (BlockBefore key)) : runs key blocks.flatten = blocks := by
  refine List.splitBy_flatten hne (fun block hblock => ?_) ?_
  · refine (List.pairwise_of_forall_mem_list fun a ha b hb => ?_).isChain
    simpa using hconst block hblock a ha b hb
  · refine hinc.isChain.imp_of_mem_imp fun x y hx hy hbefore => ?_
    have hxne : x ≠ [] := fun h => hne (h ▸ hx)
    have hyne : y ≠ [] := fun h => hne (h ▸ hy)
    refine ⟨hxne, hyne, ?_⟩
    rw [decide_eq_false_iff_not]
    exact (hbefore _ (List.getLast_mem hxne) _ (List.head_mem hyne)).ne

/-! ## Passes by runs -/

variable {S E : Type} {step : S → List α → Except E S}

/-- Empty blocks may be left out. -/
theorem foldlM_ne_nil (hnil : ∀ s, step s [] = .ok s) : ∀ (blocks : List (List α)) (s : S),
    (blocks.filter (· ≠ [])).foldlM step s = blocks.foldlM step s
  | [], _ => rfl
  | [] :: blocks, s => by
    rw [List.filter_cons_of_neg (by simp), List.foldlM_cons, hnil, ok_bind]
    exact foldlM_ne_nil hnil blocks s
  | (a :: x) :: blocks, s => by
    rw [List.filter_cons_of_pos (by simp), List.foldlM_cons, List.foldlM_cons]
    cases step s (a :: x) with
    | error e => rfl
    | ok t => exact foldlM_ne_nil hnil blocks t

theorem flatten_ne_nil : ∀ blocks : List (List α), (blocks.filter (· ≠ [])).flatten = blocks.flatten
  | [] => rfl
  | [] :: blocks => by
    rw [List.filter_cons_of_neg (by simp), List.flatten_cons, List.nil_append]
    exact flatten_ne_nil blocks
  | (a :: x) :: blocks => by
    rw [List.filter_cons_of_pos (by simp), List.flatten_cons, List.flatten_cons, flatten_ne_nil blocks]

/-- Going by the runs of what some blocks make up is going by the blocks. -/
theorem foldlM_runs_flatten (hnil : ∀ s, step s [] = .ok s)
    (hconst : ∀ block ∈ blocks, ∀ a ∈ block, ∀ b ∈ block, key a = key b)
    (hinc : blocks.Pairwise (BlockBefore key)) (s : S) :
    (runs key blocks.flatten).foldlM step s = blocks.foldlM step s := by
  rw [← flatten_ne_nil, runs_flatten, foldlM_ne_nil hnil]
  · simp
  · exact fun block hblock => hconst block (List.mem_of_mem_filter hblock)
  · exact hinc.sublist List.filter_sublist

/-- Going by the runs of a part of the list is going by the parts of the runs. -/
theorem foldlM_runs_filter (hnil : ∀ s, step s [] = .ok s) (p : α → Bool)
    (h : l.Pairwise fun a b => key a ≤ key b) (s : S) :
    (runs key (l.filter p)).foldlM step s = (runs key l).foldlM (fun s block => step s (block.filter p)) s := by
  have hparts : l.filter p = ((runs key l).map (List.filter p)).flatten := by
    conv_lhs => rw [← flatten_runs key l]
    rw [List.filter_flatten]
  rw [hparts, foldlM_runs_flatten hnil, List.foldlM_map]
  · intro block hblock a ha b hb
    obtain ⟨x, hx, rfl⟩ := List.mem_map.mp hblock
    exact runs_constant hx (List.mem_of_mem_filter ha) (List.mem_of_mem_filter hb)
  · rw [List.pairwise_map]
    exact (runs_increasing h).imp fun hbefore a ha b hb =>
      hbefore a (List.mem_of_mem_filter ha) b (List.mem_of_mem_filter hb)

end PredictionEdge.Lib
