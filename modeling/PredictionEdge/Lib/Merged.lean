import Mathlib.Data.List.Perm.Basic

/-!
# Merging two lists

`Merged a b l` says that `l` deals out the elements of `a` and of `b`, keeping the
order inside each. It is the shape every permutation of `a ++ b` has once the two
halves are allowed to be permuted on their own, and it counts *occurrences* rather
than values: two equal elements, one on each side, stay apart.
-/

namespace PredictionEdge.Lib

variable {α : Type}

/-- `l` is an order-preserving merge of `a` and `b`. -/
inductive Merged : List α → List α → List α → Prop where
  | nil : Merged [] [] []
  | left {x : α} {a b l : List α} : Merged a b l → Merged (x :: a) b (x :: l)
  | right {x : α} {a b l : List α} : Merged a b l → Merged a (x :: b) (x :: l)

namespace Merged

variable {a b l : List α}

theorem symm (h : Merged a b l) : Merged b a l := by
  induction h with
  | nil => exact .nil
  | left _ ih => exact .right ih
  | right _ ih => exact .left ih

theorem perm (h : Merged a b l) : l.Perm (a ++ b) := by
  induction h with
  | nil => exact List.Perm.refl _
  | left _ ih => exact ih.cons _
  | right _ ih => exact (ih.cons _).trans List.perm_middle.symm

theorem sublist_left (h : Merged a b l) : a.Sublist l := by
  induction h with
  | nil => exact List.Sublist.slnil
  | left _ ih => exact ih.cons_cons _
  | right _ ih => exact ih.cons _

/-- The elements of one side, when a predicate tells them from the other's. -/
theorem eq_filter {p : α → Bool} (h : Merged a b l) (ha : ∀ x ∈ a, p x = true)
    (hb : ∀ x ∈ b, p x = false) : a = l.filter p := by
  induction h with
  | nil => rfl
  | @left x a b l _ ih =>
    rw [List.filter_cons_of_pos (ha x List.mem_cons_self),
      ← ih (fun y hy => ha y (List.mem_cons_of_mem _ hy)) hb]
  | @right x a b l _ ih =>
    rw [List.filter_cons_of_neg (by simp [hb x List.mem_cons_self])]
    exact ih ha fun y hy => hb y (List.mem_cons_of_mem _ hy)

/-- Splitting by a predicate and merging back gives the list itself. -/
theorem filter (p : α → Bool) : ∀ l : List α, Merged (l.filter p) (l.filter fun x => !p x) l
  | [] => .nil
  | x :: l => by
    cases hp : p x with
    | true => simpa [hp] using Merged.left (filter p l)
    | false => simpa [hp] using Merged.right (filter p l)

/--
**Every permutation of `a ++ b` is a merge of a permutation of each half.**

The induction is on the permuted list: its head comes from one of the two halves,
and what is left is a permutation of that half without it and the other.
-/
theorem of_perm : ∀ {a b : List α}, l.Perm (a ++ b) →
    ∃ a' b', a'.Perm a ∧ b'.Perm b ∧ Merged a' b' l := by
  induction l with
  | nil =>
    intro a b h
    obtain ⟨rfl, rfl⟩ := List.append_eq_nil_iff.mp h.symm.eq_nil
    exact ⟨[], [], .refl _, .refl _, .nil⟩
  | cons x l ih =>
    intro a b h
    have hx : x ∈ a ++ b := h.subset List.mem_cons_self
    rcases List.mem_append.mp hx with ha | hb
    · obtain ⟨s, t, rfl⟩ := List.append_of_mem ha
      have hl : l.Perm ((s ++ t) ++ b) := by
        have h' : (x :: l).Perm (x :: ((s ++ t) ++ b)) := by
          refine h.trans ?_
          simp only [List.append_assoc, List.cons_append]
          exact List.perm_middle
        exact h'.cons_inv
      obtain ⟨a', b', h1, h2, h3⟩ := ih hl
      exact ⟨x :: a', b', (h1.cons x).trans List.perm_middle.symm, h2, .left h3⟩
    · obtain ⟨s, t, rfl⟩ := List.append_of_mem hb
      have hl : l.Perm (a ++ (s ++ t)) := by
        have h' : (x :: l).Perm (x :: (a ++ (s ++ t))) := by
          refine h.trans ?_
          rw [← List.append_assoc, ← List.append_assoc]
          exact List.perm_middle
        exact h'.cons_inv
      obtain ⟨a', b', h1, h2, h3⟩ := ih hl
      exact ⟨a', x :: b', h1, (h2.cons x).trans List.perm_middle.symm, .right h3⟩

end Merged

end PredictionEdge.Lib
