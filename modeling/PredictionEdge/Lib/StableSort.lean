import Mathlib.Data.List.Forall2
import Mathlib.Data.List.Sort

/-!
# Stable sorting by a key

Insertion keeps elements of one key in the order they came, so the sort is stable.
Elements whose keys are distinct may come in any order: inserting them commutes.
-/

namespace PredictionEdge.Lib

variable {α K : Type} [LE K] [DecidableLE K]

/-- Sort by a key, keeping the order of elements with equal keys. -/
def sortOn (key : α → K) (l : List α) : List α := l.insertionSort fun a b => key a ≤ key b

theorem sortOn_perm (key : α → K) (l : List α) : (sortOn key l).Perm l :=
  List.perm_insertionSort _ l

variable [Std.IsLinearOrder K] {key : α → K}

theorem sortOn_pairwise (key : α → K) (l : List α) :
    (sortOn key l).Pairwise fun a b => key a ≤ key b :=
  haveI : Std.Total fun a b : α => key a ≤ key b := ⟨fun _ _ => Std.le_total⟩
  haveI : IsTrans α fun a b : α => key a ≤ key b := ⟨fun _ _ _ h h' => Std.le_trans h h'⟩
  List.pairwise_insertionSort _ l

/-- Insertions under different keys commute. -/
theorem orderedInsert_comm {a b : α} (hne : key a ≠ key b) : ∀ l : List α,
    (l.orderedInsert (fun x y => key x ≤ key y) a).orderedInsert (fun x y => key x ≤ key y) b =
      (l.orderedInsert (fun x y => key x ≤ key y) b).orderedInsert (fun x y => key x ≤ key y) a
  | [] => by
    by_cases hab : key a ≤ key b
    · have hba : ¬ key b ≤ key a := fun h => hne (Std.le_antisymm hab h)
      simp [List.orderedInsert, hab, hba]
    · have hba : key b ≤ key a := Std.le_of_not_ge hab
      simp [List.orderedInsert, hab, hba]
  | c :: l => by
    have ih := orderedInsert_comm hne l
    -- the order of the two against each other decides what the head sees first
    by_cases hab : key a ≤ key b
    · have hba : ¬ key b ≤ key a := fun h => hne (Std.le_antisymm hab h)
      by_cases hac : key a ≤ key c <;> by_cases hbc : key b ≤ key c
      · simp [List.orderedInsert, hab, hba, hac, hbc]
      · simp [List.orderedInsert, hac, hbc, hba]
      · exact absurd (Std.le_trans hab hbc) hac
      · simp [List.orderedInsert, hac, hbc, ih]
    · have hba : key b ≤ key a := Std.le_of_not_ge hab
      by_cases hac : key a ≤ key c <;> by_cases hbc : key b ≤ key c
      · simp [List.orderedInsert, hab, hba, hac, hbc]
      · exact absurd (Std.le_trans hba hac) hbc
      · simp [List.orderedInsert, hab, hac, hbc]
      · simp [List.orderedInsert, hac, hbc, ih]

/-- **Elements of distinct keys may come in any order, whatever follows them.** -/
theorem sortOn_append_perm {a a' : List α} (r : List α) (hp : a'.Perm a)
    (hnd : (a.map key).Nodup) : sortOn key (a' ++ r) = sortOn key (a ++ r) := by
  rw [sortOn, sortOn, List.insertionSort, List.foldr_append, List.foldr_append]
  refine List.Perm.foldr_eq' hp (fun x hx y hy z => ?_) _
  by_cases hxy : key x = key y
  · rw [List.inj_on_of_nodup_map hnd (hp.mem_iff.mp hx) (hp.mem_iff.mp hy) hxy]
  · exact orderedInsert_comm hxy z

theorem sortOn_perm_eq {a a' : List α} (hp : a'.Perm a) (hnd : (a.map key).Nodup) :
    sortOn key a' = sortOn key a := by
  simpa using sortOn_append_perm [] hp hnd

theorem forall₂_exists_left {β : Type} {R : α → β → Prop} {l : List α} {m : List β}
    (h : List.Forall₂ R l m) {y : β} (hy : y ∈ m) : ∃ x ∈ l, R x y := by
  induction h with
  | nil => simp at hy
  | @cons a b l m hab _ ih =>
    rcases List.mem_cons.mp hy with rfl | hy
    · exact ⟨a, List.mem_cons_self, hab⟩
    · obtain ⟨x, hx, hR⟩ := ih hy
      exact ⟨x, List.mem_cons_of_mem _ hx, hR⟩

/-- What holds in order of some elements holds in order of what stands for them. -/
theorem pairwise_of_forall₂ {β : Type} {R : α → β → Prop} {P : α → α → Prop} {Q : β → β → Prop}
    (h : ∀ a b x y, R a x → R b y → P a b → Q x y) :
    ∀ {l : List α} {m : List β}, List.Forall₂ R l m → l.Pairwise P → m.Pairwise Q := by
  intro l m hR
  induction hR with
  | nil => intro _; exact List.Pairwise.nil
  | @cons a x l m hax hlm ih =>
    intro hP
    obtain ⟨hfirst, hrest⟩ := List.pairwise_cons.mp hP
    refine List.pairwise_cons.mpr ⟨fun y hy => ?_, ih hrest⟩
    obtain ⟨b, hb, hby⟩ := forall₂_exists_left hlm hy
    exact h a b x y hax hby (hfirst b hb)

end PredictionEdge.Lib
