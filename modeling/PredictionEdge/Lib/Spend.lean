import Mathlib.Algebra.Order.Group.Defs
import Mathlib.Algebra.Order.BigOperators.Group.List
import Mathlib.Data.List.Infix
import Mathlib.Tactic.Abel

/-!
# Spending a budget along a list

Items are taken whole, one after another, as long as the budget pays for them. The walk
ends when nothing is left of the budget, at an item that the rest does not pay for, or
with the list. What was taken and what is left make up the budget.
-/

namespace PredictionEdge.Lib

variable {A K : Type}

/-- What a budget was spent on. -/
structure Spent (A K : Type) where
  /-- The items taken whole. -/
  whole : List A
  /-- What is left of the budget. -/
  left : K
  /-- The item that the rest did not pay for. -/
  stop : Option A

/-- Every item the walk reached. -/
def Spent.reached (s : Spent A K) : List A := s.whole ++ s.stop.toList

section

variable [AddCommGroup K] [LinearOrder K]

def spend (cost : A → K) : List A → K → Spent A K
  | [], budget => ⟨[], budget, none⟩
  | a :: l, budget =>
    if cost a ≤ budget then
      if budget - cost a = 0 then ⟨[a], 0, none⟩
      else
        let s := spend cost l (budget - cost a)
        ⟨a :: s.whole, s.left, s.stop⟩
    else ⟨[], budget, some a⟩

variable {cost : A → K}

theorem spend_cons_filled {a : A} {l : List A} {budget : K} (h : cost a ≤ budget)
    (hz : budget - cost a = 0) : spend cost (a :: l) budget = ⟨[a], 0, none⟩ := by
  rw [spend, if_pos h, if_pos hz]

theorem spend_cons_further {a : A} {l : List A} {budget : K} (h : cost a ≤ budget)
    (hz : budget - cost a ≠ 0) : spend cost (a :: l) budget =
      ⟨a :: (spend cost l (budget - cost a)).whole, (spend cost l (budget - cost a)).left,
        (spend cost l (budget - cost a)).stop⟩ := by
  rw [spend, if_pos h, if_neg hz]

theorem spend_cons_stop {a : A} {l : List A} {budget : K} (h : ¬ cost a ≤ budget) :
    spend cost (a :: l) budget = ⟨[], budget, some a⟩ := by
  rw [spend, if_neg h]

/-- **What was taken and what is left make up the budget.** -/
theorem spend_total (l : List A) (budget : K) :
    ((spend cost l budget).whole.map cost).sum + (spend cost l budget).left = budget := by
  fun_induction spend cost l budget with
  | case1 budget => simp
  | case2 a l budget h hz => rw [sub_eq_zero] at hz; simp [hz]
  | case3 a l budget h hz s ih =>
    rw [List.map_cons, List.sum_cons, add_assoc, ih]
    abel
  | case4 a l budget h => simp

/-- The walk reaches a part of the list from its front. -/
theorem spend_reached (l : List A) (budget : K) : (spend cost l budget).reached <+: l := by
  unfold Spent.reached
  fun_induction spend cost l budget with
  | case1 budget => exact List.prefix_rfl
  | case2 a l budget h hz => exact ⟨l, rfl⟩
  | case3 a l budget h hz s ih => exact (List.prefix_cons_inj a).mpr ih
  | case4 a l budget h => exact ⟨l, rfl⟩

/-- The rest never paid for the item it stopped at. -/
theorem spend_stop (l : List A) (budget : K) :
    ∀ a, (spend cost l budget).stop = some a → (spend cost l budget).left < cost a := by
  fun_induction spend cost l budget with
  | case1 budget | case2 a l budget h hz => simp
  | case3 a l budget h hz s ih => exact ih
  | case4 a l budget h =>
    intro b hb
    rw [Option.some.injEq] at hb
    subst hb
    exact not_le.mp h

variable [IsOrderedAddMonoid K]

theorem spend_left_nonneg (l : List A) (budget : K) (hb : 0 ≤ budget) :
    0 ≤ (spend cost l budget).left := by
  fun_induction spend cost l budget with
  | case1 budget => exact hb
  | case2 a l budget h hz => exact le_rfl
  | case3 a l budget h hz s ih => exact ih (sub_nonneg.mpr h)
  | case4 a l budget h => exact hb

/-- **The walk ends at the item that covers the budget**, if those before it do not. -/
theorem spend_reached_covering {a : A} {l : List A} : ∀ {before : List A} {budget : K},
    (∀ b ∈ before, 0 ≤ cost b) → (before.map cost).sum < budget →
    budget ≤ (before.map cost).sum + cost a →
    (spend cost (before ++ a :: l) budget).reached = before ++ [a]
  | [], budget, _, hpos, hcovers => by
    rw [List.map_nil, List.sum_nil, zero_add] at hcovers
    by_cases hle : cost a ≤ budget
    · rw [List.nil_append, spend_cons_filled hle (sub_eq_zero.mpr (le_antisymm hcovers hle))]
      rfl
    · rw [List.nil_append, spend_cons_stop hle]
      rfl
  | b :: before, budget, hcost, hpos, hcovers => by
    rw [List.map_cons, List.sum_cons] at hpos hcovers
    have hnonneg : 0 ≤ (before.map cost).sum :=
      List.sum_nonneg (by simpa using fun x hx => hcost x (List.mem_cons_of_mem b hx))
    have hrest : (before.map cost).sum < budget - cost b := lt_sub_iff_add_lt'.mpr hpos
    have hle : cost b ≤ budget := sub_nonneg.mp (hnonneg.trans hrest.le)
    have ih := spend_reached_covering (l := l) (fun x hx => hcost x (List.mem_cons_of_mem b hx)) hrest
      (sub_le_iff_le_add'.mpr (by rwa [← add_assoc]))
    rw [List.cons_append, spend_cons_further hle (hnonneg.trans_lt hrest).ne']
    exact congrArg (b :: ·) ih

end

end PredictionEdge.Lib
