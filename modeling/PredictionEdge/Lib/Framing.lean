import Mathlib.Data.List.Basic
import Mathlib.Data.List.TakeDrop

/-!
# Framed inputs

An input that is read as one frame after another, where what a frame means and what it
leads to depends on the state it is read in. `R s raw b t` says that in state `s` the part
`raw` of the input is one frame, that it means `b` and that it leads to state `t`.
`Framed R s raw items t` says that `raw` is a whole number of frames leading from `s` to
`t`; each item is kept with the state it was read in, so that the items together with `t`
name every state that was passed.

Where no frame is a proper beginning of another (`PrefixFree`), an input is cut into frames
in at most one way: of two readings of one input, one continues the other.
-/

namespace PredictionEdge.Lib

variable {σ α β : Type} {R Q : σ → List α → β → σ → Prop}

/-- The whole frames that lead from one state to another. -/
inductive Framed (R : σ → List α → β → σ → Prop) : σ → List α → List (σ × β) → σ → Prop
  | nil (s : σ) : Framed R s [] [] s
  | cons {s t u : σ} {raw rest : List α} {b : β} {items : List (σ × β)} :
      R s raw b t → Framed R t rest items u → Framed R s (raw ++ rest) ((s, b) :: items) u

/-- No frame is empty, and a frame is told by the input it begins. -/
structure PrefixFree (R : σ → List α → β → σ → Prop) : Prop where
  ne_nil : ∀ {s raw b t}, R s raw b t → raw ≠ []
  unique : ∀ {s raw raw' b b' t t'} {rest rest' : List α}, R s raw b t → R s raw' b' t' →
    raw ++ rest = raw' ++ rest' → raw = raw' ∧ b = b' ∧ t = t'

/-- The states a reading passes, the first and the last one included. -/
def passed (items : List (σ × β)) (last : σ) : List σ := items.map Prod.fst ++ [last]

variable {items : List (σ × β)} {raw : List α} {t s : σ}

namespace Framed

theorem mono (h : ∀ {s raw b t}, R s raw b t → Q s raw b t) (hr : Framed R s raw items t) :
    Framed Q s raw items t := by
  induction hr with
  | nil s => exact .nil s
  | cons hR _ ih => exact .cons (h hR) ih

variable {raw' : List α} {items' : List (σ × β)}

theorem append {u : σ} (h : Framed R s raw items t) (h' : Framed R t raw' items' u) :
    Framed R s (raw ++ raw') (items ++ items') u := by
  induction h with
  | nil s => exact h'
  | cons hR _ ih =>
    rw [List.append_assoc]
    exact .cons hR (ih h')

theorem single {b : β} (h : R s raw b t) : Framed R s raw [(s, b)] t := by
  simpa using Framed.cons h (.nil t)

theorem snoc {u : σ} {b : β} (h : Framed R s raw items t) (h' : R t raw' b u) :
    Framed R s (raw ++ raw') (items ++ [(t, b)]) u :=
  h.append (single h')

/-- A reading of one or more frames has a last one. -/
theorem eq_nil_or_snoc (h : Framed R s raw items t) :
    (raw = [] ∧ items = [] ∧ s = t) ∨
      ∃ u front frame b init, raw = front ++ frame ∧ items = init ++ [(u, b)] ∧
        Framed R s front init u ∧ R u frame b t := by
  induction h with
  | nil s => exact .inl ⟨rfl, rfl, rfl⟩
  | @cons s t u raw rest b items hR hrest ih =>
    rcases ih with ⟨hraw, hitems, htu⟩ | ⟨v, front, frame, b', init, hraw, hitems, hfront, hlast⟩
    · subst hraw hitems htu
      exact .inr ⟨s, [], raw, b, [], by simp, rfl, .nil s, hR⟩
    · subst hraw hitems
      exact .inr ⟨v, raw ++ front, frame, b', (s, b) :: init, by simp, rfl, .cons hR hfront, hlast⟩

/-- **A reading splits at every state it passes.** -/
theorem split {u : σ} (h : Framed R s raw items t) (hu : u ∈ passed items t) :
    ∃ raw₁ raw₂ items₁ items₂, raw = raw₁ ++ raw₂ ∧ items = items₁ ++ items₂ ∧
      Framed R s raw₁ items₁ u ∧ Framed R u raw₂ items₂ t := by
  induction h with
  | nil s =>
    obtain rfl : u = s := by simpa [passed] using hu
    exact ⟨[], [], [], [], rfl, rfl, .nil u, .nil u⟩
  | @cons s t v raw rest b items hR hrest ih =>
    by_cases hs : u = s
    · subst hs
      exact ⟨[], raw ++ rest, [], (u, b) :: items, rfl, rfl, .nil u, .cons hR hrest⟩
    · have hmem : u ∈ passed items v := by
        simp only [passed, List.map_cons, List.cons_append, List.mem_cons] at hu
        exact hu.resolve_left hs
      obtain ⟨raw₁, raw₂, items₁, items₂, rfl, rfl, h₁, h₂⟩ := ih hmem
      exact ⟨raw ++ raw₁, raw₂, (s, b) :: items₁, items₂, by simp, rfl, .cons hR h₁, h₂⟩

theorem first_mem_passed (h : Framed R s raw items t) : s ∈ passed items t := by
  cases h with
  | nil | cons _ _ => simp [passed]

theorem last_mem_passed : t ∈ passed items t := by simp [passed]

theorem mem_passed_append_right {v : σ} (hv : v ∈ passed items' t) :
    v ∈ passed (items ++ items') t := by
  simp only [passed, List.map_append, List.append_assoc, List.mem_append] at hv ⊢
  exact .inr hv

/--
**Of two readings of one input, one continues the other.**

The induction is on the first reading; the second one either stops before its first frame
or begins with the same frame, since frames are told by the input they begin.
-/
theorem compare (hR : PrefixFree R) {t' : σ} {rest rest' : List α} (h : Framed R s raw items t)
    (h' : Framed R s raw' items' t') (heq : raw ++ rest = raw' ++ rest') :
    (∃ more added, raw' = raw ++ more ∧ items' = items ++ added ∧ Framed R t more added t') ∨
      ∃ more added, raw = raw' ++ more ∧ items = items' ++ added ∧ Framed R t' more added t := by
  induction h generalizing raw' items' t' with
  | nil s => exact .inl ⟨raw', items', rfl, rfl, h'⟩
  | @cons s t u raw tail b items hfirst hrest ih =>
    cases h' with
    | nil _ => exact .inr ⟨raw ++ tail, (s, b) :: items, rfl, rfl, .cons hfirst hrest⟩
    | @cons _ v _ raw₂ tail₂ b₂ items₂ hfirst₂ hrest₂ =>
      rw [List.append_assoc, List.append_assoc] at heq
      obtain ⟨rfl, rfl, rfl⟩ := hR.unique hfirst hfirst₂ heq
      rcases ih hrest₂ (List.append_cancel_left heq) with
        ⟨more, added, rfl, rfl, hmore⟩ | ⟨more, added, rfl, rfl, hmore⟩
      · exact .inl ⟨more, added, by simp, rfl, hmore⟩
      · exact .inr ⟨more, added, by simp, rfl, hmore⟩

/--
**A reading that is cut off keeps its whole frames.**

What is left of `n` symbols of a reading is some of its frames and a part of the next
one, which is missing when the cut is between two frames.
-/
theorem cut (h : Framed R s raw items t) (n : Nat) :
    ∃ u kept part init, raw.take n = kept ++ part ∧ Framed R s kept init u ∧
      ((n < raw.length ∧ ∃ frame b v missing more added, R u frame b v ∧ frame = part ++ missing ∧
          missing ≠ [] ∧ raw = kept ++ frame ++ more ∧ items = init ++ (u, b) :: added ∧
          Framed R v more added t) ∨
        (raw.length ≤ n ∧ part = [] ∧ kept = raw ∧ init = items ∧ u = t)) := by
  induction h generalizing n with
  | nil s => exact ⟨s, [], [], [], by simp, .nil s, .inr ⟨by simp, rfl, rfl, rfl, rfl⟩⟩
  | @cons s t u raw rest b items hfirst hrest ih =>
    by_cases hn : n < raw.length
    · refine ⟨s, [], raw.take n, [], ?_, .nil s, .inl ⟨?_, raw, b, t, raw.drop n, rest, items,
        hfirst, (List.take_append_drop n raw).symm, ?_, by simp, rfl, hrest⟩⟩
      · rw [List.nil_append, List.take_append_of_le_length (by omega)]
      · rw [List.length_append]; omega
      · intro hd
        have := congrArg List.length hd
        rw [List.length_drop, List.length_nil] at this
        omega
    · obtain ⟨v, kept, part, init, htake, hkept, hcase⟩ := ih (n - raw.length)
      refine ⟨v, raw ++ kept, part, (s, b) :: init, ?_, .cons hfirst hkept, ?_⟩
      · rw [List.take_append, List.take_of_length_le (by omega), htake, List.append_assoc]
      · rcases hcase with ⟨hlt, frame, b', w, missing, more, added, hframe, rfl, hmissing, rfl, rfl,
          hmore⟩ | ⟨hle, rfl, rfl, rfl, rfl⟩
        · refine .inl ⟨?_, part ++ missing, b', w, missing, more, added, hframe, rfl, hmissing,
            by simp, rfl, hmore⟩
          rw [List.length_append]; omega
        · refine .inr ⟨?_, rfl, rfl, rfl, rfl⟩
          rw [List.length_append]; omega

end Framed

end PredictionEdge.Lib
