import Mathlib.Data.List.Perm.Basic

/-!
# Every order of a list

The plain recursive enumeration: take each remaining element in turn as the next one
and enumerate what is left. It yields exactly the permutations.
-/

namespace PredictionEdge.Lib

variable {α : Type}

/-- Extend `current` by the elements of `remaining` in every order. -/
def enumerateOrders : Nat → List α → List α → List (List α)
  | _, [], current => [current]
  | 0, _ :: _, _ => []
  | fuel + 1, remaining@(_ :: _), current =>
    (List.range remaining.length).flatMap fun index =>
      match remaining[index]? with
      | some x => enumerateOrders fuel (remaining.eraseIdx index) (current ++ [x])
      | none => []

theorem perm_cons_eraseIdx {l : List α} {i : Nat} {x : α} (h : l[i]? = some x) :
    (x :: l.eraseIdx i).Perm l := by
  obtain ⟨hi, rfl⟩ := List.getElem?_eq_some_iff.mp h
  exact List.getElem_cons_eraseIdx_perm hi

theorem mem_enumerateOrders : ∀ {fuel : Nat} {remaining current s : List α},
    remaining.length ≤ fuel →
    (s ∈ enumerateOrders fuel remaining current ↔ ∃ l, l.Perm remaining ∧ s = current ++ l)
  | _, [], current, s, _ => by
    simp [enumerateOrders]
  | 0, _ :: _, _, _, h => absurd h (by simp)
  | fuel + 1, x :: rest, current, s, h => by
    rw [enumerateOrders, List.mem_flatMap]
    constructor
    · rintro ⟨i, _, hs⟩
      cases hx : (x :: rest)[i]? with
      | none => rw [hx] at hs; simp at hs
      | some y =>
        rw [hx] at hs
        have hp := perm_cons_eraseIdx hx
        have hlen : ((x :: rest).eraseIdx i).length ≤ fuel := by
          have := hp.length_eq
          simp only [List.length_cons] at this h ⊢
          omega
        obtain ⟨l, hl, rfl⟩ := (mem_enumerateOrders hlen).mp hs
        exact ⟨y :: l, (hl.cons y).trans hp, by simp⟩
    · rintro ⟨l, hl, rfl⟩
      cases l with
      | nil => exact absurd hl.length_eq (by simp)
      | cons y l =>
        obtain ⟨i, hi, hy⟩ := List.mem_iff_getElem.mp (hl.mem_iff.mp (List.mem_cons_self))
        have hx : (x :: rest)[i]? = some y := by rw [List.getElem?_eq_getElem hi, hy]
        have hp := perm_cons_eraseIdx hx
        have hlen : ((x :: rest).eraseIdx i).length ≤ fuel := by
          have := hp.length_eq
          simp only [List.length_cons] at this h ⊢
          omega
        refine ⟨i, List.mem_range.mpr hi, ?_⟩
        simp only [hx]
        exact (mem_enumerateOrders hlen).mpr
          ⟨l, (hl.trans hp.symm).cons_inv, by simp⟩

/-- **The enumeration from nothing lists the permutations.** -/
theorem mem_enumerateOrders_nil {l s : List α} :
    s ∈ enumerateOrders l.length l [] ↔ s.Perm l := by
  rw [mem_enumerateOrders (Nat.le_refl _)]
  simp

end PredictionEdge.Lib
