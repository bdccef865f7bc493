import PredictionEdge.Lib.Local

/-!
# Replaying inputs

A machine reads inputs one at a time; each gives an output and a next state, or a failure
that ends the replay. Two machines whose steps match, from states that are related, replay
the same inputs to the same outputs and to related states, or to the same failure.
-/

namespace PredictionEdge.Lib

variable {S T I O E : Type}

/-- The outputs up to the first failure, and the last state or that failure. -/
def replay (step : S → I → Except E (S × O)) : S → List I → List O × Except E S
  | s, [] => ([], .ok s)
  | s, i :: rest =>
    match step s i with
    | .error e => ([], .error e)
    | .ok (s, o) => (o :: (replay step s rest).1, (replay step s rest).2)

variable {step : S → I → Except E (S × O)}

theorem replay_error {s : S} {i : I} {rest : List I} {e : E} (h : step s i = .error e) :
    replay step s (i :: rest) = ([], .error e) := by
  rw [replay, h]

theorem replay_ok {s s' : S} {o : O} {i : I} {rest : List I} (h : step s i = .ok (s', o)) :
    replay step s (i :: rest) = (o :: (replay step s' rest).1, (replay step s' rest).2) := by
  rw [replay, h]

/-- **Machines whose steps match replay alike.** -/
theorem replay_simulates {f : S → I → Except E (S × O)} {g : T → I → Except E (T × O)}
    {R : S → T → Prop} {P : I → Prop}
    (hstep : ∀ s t i, P i → R s t → Matches (fun x y => R x.1 y.1 ∧ x.2 = y.2) (f s i) (g t i)) :
    ∀ {inputs : List I} {s : S} {t : T}, (∀ i ∈ inputs, P i) → R s t →
      (replay f s inputs).1 = (replay g t inputs).1
        ∧ Matches R (replay f s inputs).2 (replay g t inputs).2 := by
  intro inputs
  induction inputs with
  | nil => intro s t _ hR; exact ⟨rfl, .ok hR⟩
  | cons i rest ih =>
    intro s t hP hR
    rcases (hstep s t i (hP i List.mem_cons_self) hR).split with
      ⟨e, hf, hg⟩ | ⟨⟨s', o⟩, ⟨t', o'⟩, hf, hg, hR', ho⟩
    · rw [replay_error hf, replay_error hg]
      exact ⟨rfl, .error e⟩
    · obtain rfl : o = o' := ho
      obtain ⟨houts, hend⟩ := ih (fun j hj => hP j (List.mem_cons_of_mem _ hj)) hR'
      rw [replay_ok hf, replay_ok hg, houts]
      exact ⟨rfl, hend⟩

end PredictionEdge.Lib
