import Mathlib.Data.List.Basic
import Mathlib.Algebra.BigOperators.Group.List.Basic
import Mathlib.Algebra.GroupWithZero.Nat

/-!
# Working off a stack

A task is done at once or replaced by others, which go on top of the stack; each leaves an
output, and the first failure ends the work. The tasks that replace one weigh less together
than it did, so the work comes to an end. What every step keeps holds at the end, and a
failure is that of some task that came up.
-/

namespace PredictionEdge.Lib

/-- How a task is handled, and a weight that goes down with it. -/
structure Worklist (T D E : Type) where
  handle : T → Except E (D × List T)
  weight : T → Nat
  lighter : ∀ {t : T} {d : D} {ts : List T}, handle t = .ok (d, ts) →
    (ts.map weight).sum < weight t

namespace Worklist

variable {T D E : Type} (work : Worklist T D E)

/-- Work off the stack, whose top is the head of the list. -/
def run (pending : List T) (done : List D) : Except E (List D) :=
  match pending with
  | [] => .ok done
  | t :: rest =>
    match _h : work.handle t with
    | .error e => .error e
    | .ok (d, ts) => run (ts ++ rest) (done ++ [d])
termination_by (pending.map work.weight).sum
decreasing_by
  have := work.lighter _h
  simp only [List.map_append, List.sum_append, List.map_cons, List.sum_cons]
  omega

variable {work} {pending : List T} {done out : List D}

/-- **What every step keeps holds when the stack is empty.** -/
theorem run_invariant {P : List T → List D → Prop}
    (hstep : ∀ t rest done d ts, P (t :: rest) done → work.handle t = .ok (d, ts) →
      P (ts ++ rest) (done ++ [d]))
    (hP : P pending done) (h : work.run pending done = .ok out) : P [] out := by
  fun_induction work.run pending done with
  | case1 done => rwa [← Except.ok.inj h]
  | case2 done t rest e he => simp at h
  | case3 done t rest d ts hok ih => exact ih (hstep _ _ _ _ _ hP hok) h

/-- **A failure is that of a task that came up.** -/
theorem run_failure {Q : T → Prop} {e : E}
    (hstep : ∀ t d ts, Q t → work.handle t = .ok (d, ts) → ∀ t' ∈ ts, Q t')
    (hQ : ∀ t ∈ pending, Q t) (h : work.run pending done = .error e) :
    ∃ t, Q t ∧ work.handle t = .error e := by
  fun_induction work.run pending done with
  | case1 done => simp at h
  | case2 done t rest e' he =>
    rw [← Except.error.inj h]
    exact ⟨t, hQ t List.mem_cons_self, he⟩
  | case3 done t rest d ts hok ih =>
    refine ih (fun t' ht' => ?_) h
    rcases List.mem_append.mp ht' with ht' | ht'
    · exact hstep t d ts (hQ t List.mem_cons_self) hok t' ht'
    · exact hQ t' (List.mem_cons_of_mem _ ht')

end Worklist

end PredictionEdge.Lib
