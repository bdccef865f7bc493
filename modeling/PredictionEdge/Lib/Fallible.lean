import Mathlib.Data.List.Basic
import Mathlib.Data.List.Forall2

/-!
# Fallible results

Inversion of the ways a fallible computation is put together: when a mapped, chained or
relabelled result is a success, and what it was a success of. A fallible pass over a
list has three rules: it succeeds when every step does, what every step keeps the pass
keeps, and a part of the state that each step updates on its own is updated by a plain
fold.
-/

namespace PredictionEdge.Lib

variable {E F A B : Type} {x : Except E A} {e : E} {g : E → F} {l : List A} {a : A}

theorem map_eq_ok {f : A → B} {b : B} : x.map f = .ok b ↔ ∃ a, x = .ok a ∧ f a = b := by
  cases x <;> simp [Except.map]

theorem bind_eq_ok {f : A → Except E B} {b : B} :
    (x >>= f) = .ok b ↔ ∃ a, x = .ok a ∧ f a = .ok b := by
  cases x <;> simp [bind, Except.bind]

theorem map_bind {C : Type} {f : A → Except E B} {g : B → C} :
    (x >>= f).map g = x >>= fun a => (f a).map g := by
  cases x <;> rfl

theorem map_pure {g : A → B} : (pure a : Except E A).map g = pure (g a) := rfl

theorem ok_bind {f : A → Except E B} : (Except.ok a >>= f) = f a := rfl

theorem map_pair_fst {b : B} : (x.map (·, b)).map Prod.fst = x := by
  cases x <;> rfl

theorem map_eq_error {f : A → B} : x.map f = .error e ↔ x = .error e := by
  cases x <;> simp [Except.map]

theorem bind_eq_error {f : A → Except E B} :
    (x >>= f) = .error e ↔ x = .error e ∨ ∃ a, x = .ok a ∧ f a = .error e := by
  cases x <;> simp [bind, Except.bind]

theorem mapError_eq_error {f : E → F} {e : F} :
    x.mapError f = .error e ↔ ∃ e', x = .error e' ∧ f e' = e := by
  cases x <;> simp [Except.mapError]

theorem mapError_eq_ok {f : E → F} : x.mapError f = .ok a ↔ x = .ok a := by
  cases x <;> simp [Except.mapError]

theorem pure_eq_ok {b : A} : (pure a : Except E A) = .ok b ↔ a = b := by
  simp [pure, Except.pure]

/-- A missing value is the given failure. -/
def okOr (x : Option A) (e : E) : Except E A :=
  match x with
  | some a => .ok a
  | none => .error e

theorem okOr_eq_ok {x : Option A} : okOr x e = .ok a ↔ x = some a := by
  cases x <;> simp [okOr]

theorem okOr_mapError {x : Option A} : (okOr x e).mapError g = okOr x (g e) := by
  cases x <;> rfl

theorem toOption_eq_some : x.toOption = some a ↔ x = .ok a := by
  cases x <;> simp [Except.toOption]

theorem toOption_mapError : (x.mapError g).toOption = x.toOption := by
  cases x <;> rfl

theorem toOption_bind {f : A → Except E B} :
    (x >>= f).toOption = x.toOption.bind fun a => (f a).toOption := by
  cases x <;> rfl

theorem toOption_map {f : A → B} : (x.map f).toOption = x.toOption.map f := by
  cases x <;> rfl

/-- Computations that differ in their failures and in the end result only. -/
theorem toOption_bind_map {x' : Except E A} {f f' : A → Except E B} {g : B → B}
    (hx : x'.toOption = x.toOption) (hf : ∀ a, (f' a).toOption = (f a).toOption.map g) :
    (x' >>= f').toOption = (x >>= f).toOption.map g := by
  rw [toOption_bind, toOption_bind, hx]
  cases x.toOption with
  | none => rfl
  | some a => exact hf a

theorem toOption_relabel {g' : E → F} : (x.mapError g').toOption = (x.mapError g).toOption := by
  rw [toOption_mapError, toOption_mapError]

/-- Go on unless the condition holds. -/
def refuseIf (p : Prop) [Decidable p] (e : E) : Except E Unit := if p then .error e else .ok ()

theorem refuseIf_eq_ok {p : Prop} [Decidable p] {u : Unit} : refuseIf p e = .ok u ↔ ¬ p := by
  unfold refuseIf
  split <;> simp_all

theorem refuseIf_of_not {p : Prop} [Decidable p] (h : ¬ p) : refuseIf p e = .ok () :=
  if_neg h

/-- A success that a test of its value shows. -/
theorem exists_ok_of_any {p : A → Bool} (h : x.toOption.any p = true) :
    ∃ a, x = .ok a ∧ p a = true := by
  cases x with
  | error e => simp [Except.toOption] at h
  | ok a => exact ⟨a, rfl, by simpa [Except.toOption] using h⟩

/-! ## What a computation comes to -/

/-- A success is as `P` says, a failure as `Q` says. -/
def Yields (P : A → Prop) (Q : E → Prop) : Except E A → Prop
  | .ok a => P a
  | .error e => Q e

theorem Yields.of_error {P : A → Prop} {Q : E → Prop} (h : Yields P Q x) (hx : x = .error e) : Q e := by
  rw [hx] at h
  exact h

section

variable {P : B → Prop} {Q : E → Prop}

theorem yields_refuseIf {p : Prop} [Decidable p] {f : Unit → Except E B} (hQ : Q e)
    (h : Yields P Q (f ())) : Yields P Q (refuseIf p e >>= f) := by
  unfold refuseIf
  split
  · exact hQ
  · exact h

theorem yields_okOr {x : Option A} {f : A → Except E B} (hQ : Q e) (h : ∀ a, Yields P Q (f a)) :
    Yields P Q (okOr x e >>= f) := by
  cases x with
  | none => exact hQ
  | some a => exact h a

theorem yields_bind {R : A → Prop} {f : A → Except E B} (hx : Yields R Q x)
    (h : ∀ a, R a → Yields P Q (f a)) : Yields P Q (x >>= f) := by
  cases x with
  | error e => exact hx
  | ok a => exact h a hx

theorem yields_mapError {x : Except F B} {g : F → E} (hP : ∀ b, P b) (hQ : ∀ e, Q (g e)) :
    Yields P Q (x.mapError g) := by
  cases x with
  | error e => exact hQ e
  | ok b => exact hP b

end

/-! ## Passes over a list -/

variable {S T : Type} {f : S → A → Except E S}

theorem foldlM_cons_ok {x : A} {s s' : S} :
    (x :: l).foldlM f s = .ok s' ↔ ∃ t, f s x = .ok t ∧ l.foldlM f t = .ok s' := by
  rw [List.foldlM_cons]
  exact bind_eq_ok

theorem yields_foldlM {Q : E → Prop} (step : ∀ s a, Yields (fun _ => True) Q (f s a)) :
    ∀ (l : List A) (s : S), Yields (fun _ => True) Q (l.foldlM f s)
  | [], _ => trivial
  | x :: l, s => by
    rw [List.foldlM_cons]
    exact yields_bind (step s x) fun t _ => yields_foldlM step l t

/-- Relabelling the failures of every step relabels the failure of the pass. -/
theorem foldlM_mapError : ∀ {l : List A} {s : S},
    l.foldlM (fun s a => (f s a).mapError g) s = (l.foldlM f s).mapError g
  | [], _ => rfl
  | x :: l, s => by
    rw [List.foldlM_cons, List.foldlM_cons]
    cases h : f s x with
    | error e => rfl
    | ok t => exact foldlM_mapError

theorem foldlM_congr {g : S → A → Except E S} : ∀ {l : List A} {s : S},
    (∀ x ∈ l, ∀ s, f s x = g s x) → l.foldlM f s = l.foldlM g s
  | [], _, _ => rfl
  | x :: l, s, h => by
    rw [List.foldlM_cons, List.foldlM_cons, h x List.mem_cons_self]
    cases g s x with
    | error e => rfl
    | ok t => exact foldlM_congr fun y hy => h y (List.mem_cons_of_mem _ hy)

/-- **A pass whose every step succeeds succeeds.** -/
theorem foldlM_succeeds (P : S → Prop) : ∀ {l : List A} {s : S}, P s →
    (∀ s, ∀ x ∈ l, P s → ∃ s', f s x = .ok s' ∧ P s') → ∃ s', l.foldlM f s = .ok s' ∧ P s'
  | [], s, hs, _ => ⟨s, rfl, hs⟩
  | x :: l, s, hs, step => by
    obtain ⟨t, ht, hPt⟩ := step s x List.mem_cons_self hs
    obtain ⟨s', hs', hP'⟩ := foldlM_succeeds P hPt fun s y hy => step s y (List.mem_cons_of_mem _ hy)
    exact ⟨s', foldlM_cons_ok.mpr ⟨t, ht, hs'⟩, hP'⟩

/-- A check of every element that passes. -/
theorem forM_eq_ok {f : A → Except E Unit} : ∀ {l : List A}, (∀ x ∈ l, f x = .ok ()) →
    l.forM f = .ok ()
  | [], _ => rfl
  | x :: l, h => by
    show (f x >>= fun _ => l.forM f) = .ok ()
    rw [h x List.mem_cons_self, ok_bind]
    exact forM_eq_ok fun y hy => h y (List.mem_cons_of_mem _ hy)

/-- **A part of the state that each step updates on its own.** -/
theorem foldlM_proj (g : S → T) (h : T → A → T) : ∀ {l : List A} {s s' : S},
    (∀ s, ∀ x ∈ l, ∀ s', f s x = .ok s' → g s' = h (g s) x) → l.foldlM f s = .ok s' →
    g s' = l.foldl h (g s)
  | [], s, s', _, hs => by
    rw [List.foldlM_nil] at hs
    rw [pure_eq_ok.mp hs]
    rfl
  | x :: l, s, s', step, hs => by
    obtain ⟨t, ht, hs'⟩ := foldlM_cons_ok.mp hs
    rw [foldlM_proj g h (fun s y hy => step s y (List.mem_cons_of_mem _ hy)) hs',
      step s x List.mem_cons_self t ht, List.foldl_cons]

theorem foldlM_const {g : S → T} {s s' : S} (step : ∀ s, ∀ x ∈ l, ∀ s', f s x = .ok s' → g s' = g s)
    (h : l.foldlM f s = .ok s') : g s' = g s := by
  rw [foldlM_proj g (fun t _ => t) step h]
  exact List.foldl_fixed' (fun _ => rfl) l

/-- **What relates the states around every step relates the ends of the pass.** -/
theorem foldlM_rel {R : S → S → Prop} (hrefl : ∀ s, R s s)
    (htrans : ∀ {s t u}, R s t → R t u → R s u) : ∀ {l : List A} {s s' : S},
    (∀ s, ∀ x ∈ l, ∀ s', f s x = .ok s' → R s s') → l.foldlM f s = .ok s' → R s s'
  | [], s, s', _, hs => by
    rw [List.foldlM_nil] at hs
    rw [pure_eq_ok.mp hs]
    exact hrefl s'
  | x :: l, s, s', step, hs => by
    obtain ⟨t, ht, hs'⟩ := foldlM_cons_ok.mp hs
    exact htrans (step s x List.mem_cons_self t ht)
      (foldlM_rel hrefl htrans (fun s y hy => step s y (List.mem_cons_of_mem _ hy)) hs')

/-- **What one step brings about and every step keeps, holds at the end.** -/
theorem foldlM_reaches {I Q : S → Prop} {x : A} : ∀ {l : List A} {s s' : S}, x ∈ l →
    (∀ s, ∀ y ∈ l, ∀ s', f s y = .ok s' → I s → I s') → (∀ s s', f s x = .ok s' → I s → Q s') →
    (∀ s, ∀ y ∈ l, ∀ s', f s y = .ok s' → Q s → Q s') → I s → l.foldlM f s = .ok s' → Q s'
  | y :: l, s, s', hx, hI, hat, hkeep, hs, h => by
    obtain ⟨t, ht, hrest⟩ := foldlM_cons_ok.mp h
    rcases List.mem_cons.mp hx with rfl | hx
    · exact foldlM_rel (R := fun s s' => Q s → Q s') (fun _ hq => hq) (fun h h' hq => h' (h hq))
        (fun s z hz => hkeep s z (List.mem_cons_of_mem _ hz)) hrest (hat s t ht hs)
    · exact foldlM_reaches hx (fun s z hz => hI s z (List.mem_cons_of_mem _ hz)) hat
        (fun s z hz => hkeep s z (List.mem_cons_of_mem _ hz)) (hI s y List.mem_cons_self t ht hs)
        hrest

/-- **A pass that another one follows step by step.** -/
theorem foldlM_follows {g : T → A → Except F T} (R : S → T → Prop) : ∀ {l : List A} {s s' : S} {t : T},
    (∀ s t, ∀ x ∈ l, ∀ s', R s t → f s x = .ok s' → ∃ t', g t x = .ok t' ∧ R s' t') → R s t →
    l.foldlM f s = .ok s' → ∃ t', l.foldlM g t = .ok t' ∧ R s' t'
  | [], s, s', t, _, hR, h => by
    rw [List.foldlM_nil] at h
    rw [← pure_eq_ok.mp h]
    exact ⟨t, rfl, hR⟩
  | x :: l, s, s', t, step, hR, h => by
    obtain ⟨s₁, hs₁, hrest⟩ := foldlM_cons_ok.mp h
    obtain ⟨t₁, ht₁, hR₁⟩ := step s t x List.mem_cons_self s₁ hR hs₁
    obtain ⟨t', ht', hR'⟩ := foldlM_follows R (fun s t y hy => step s t y (List.mem_cons_of_mem _ hy))
      hR₁ hrest
    exact ⟨t', foldlM_cons_ok.mpr ⟨t₁, ht₁, ht'⟩, hR'⟩

theorem foldlM_append_ok {m : List A} {s s' : S} :
    (l ++ m).foldlM f s = .ok s' ↔ ∃ t, l.foldlM f s = .ok t ∧ m.foldlM f t = .ok s' := by
  rw [List.foldlM_append]
  exact bind_eq_ok

theorem foldlM_history_from {P : List A → S → Prop}
    (step : ∀ taken s x s', P taken s → f s x = .ok s' → P (taken ++ [x]) s') :
    ∀ {l taken : List A} {s s' : S}, P taken s → l.foldlM f s = .ok s' → P (taken ++ l) s'
  | [], taken, s, s', hs, h => by
    rw [← pure_eq_ok.mp h, List.append_nil]
    exact hs
  | x :: l, taken, s, s', hs, h => by
    obtain ⟨t, ht, hrest⟩ := foldlM_cons_ok.mp h
    rw [List.append_cons]
    exact foldlM_history_from step (step taken s x t hs ht) hrest

/-- **What relates the elements taken so far to the state, through every step.** -/
theorem foldlM_history {P : List A → S → Prop} {s s' : S} (start : P [] s)
    (step : ∀ taken s x s', P taken s → f s x = .ok s' → P (taken ++ [x]) s')
    (h : l.foldlM f s = .ok s') : P l s' := by
  have hall := foldlM_history_from step start h
  rwa [List.nil_append] at hall

/-- A change of state that every step carries along, the pass carries along. -/
theorem foldlM_map (g : S → S) (hg : ∀ s x, f (g s) x = (f s x).map g) : ∀ (l : List A) (s : S),
    l.foldlM f (g s) = (l.foldlM f s).map g
  | [], _ => rfl
  | x :: l, s => by
    rw [List.foldlM_cons, List.foldlM_cons, hg]
    cases f s x with
    | error e => rfl
    | ok t => exact foldlM_map g hg l t

theorem foldl_append_toList (f : A → Option B) : ∀ (l : List A) (bs : List B),
    l.foldl (fun bs x => bs ++ (f x).toList) bs = bs ++ l.filterMap f
  | [], bs => by simp
  | x :: l, bs => by
    rw [List.foldl_cons, foldl_append_toList f l]
    cases hx : f x with
    | none | some b => simp [hx]

/-- What is told of the results that were picked was told of where they came from. -/
theorem map_filterMap_sublist {C : Type} {f : A → Option B} {g : B → C} {h : A → C} :
    ∀ {l : List A}, (∀ x ∈ l, ∀ y, f x = some y → g y = h x) →
    ((l.filterMap f).map g).Sublist (l.map h)
  | [], _ => .slnil
  | x :: l, hf => by
    have ih := map_filterMap_sublist fun y hy => hf y (List.mem_cons_of_mem _ hy)
    cases hx : f x with
    | none =>
      rw [List.filterMap_cons_none hx, List.map_cons]
      exact ih.cons _
    | some y =>
      rw [List.filterMap_cons_some hx, List.map_cons, List.map_cons,
        hf x List.mem_cons_self y hx]
      exact ih.cons_cons _

/-- A list mapped fallibly: each element to what it gives. -/
theorem mapM_eq_ok {f : A → Except E B} : ∀ {l : List A} {out : List B},
    l.mapM f = .ok out ↔ List.Forall₂ (fun a b => f a = .ok b) l out
  | [], out => by
    rw [List.mapM_nil, pure_eq_ok, List.forall₂_nil_left_iff]
    exact eq_comm
  | a :: l, out => by
    rw [List.mapM_cons, bind_eq_ok, List.forall₂_cons_left_iff]
    constructor
    · intro ⟨b, hb, h⟩
      obtain ⟨rest, hrest, h⟩ := bind_eq_ok.mp h
      exact ⟨b, rest, hb, mapM_eq_ok.mp hrest, (pure_eq_ok.mp h).symm⟩
    · intro ⟨b, rest, hb, hrest, hout⟩
      exact ⟨b, hb, bind_eq_ok.mpr ⟨rest, mapM_eq_ok.mpr hrest, pure_eq_ok.mpr hout.symm⟩⟩

theorem mapM_succeeds {f : A → Except E B} : ∀ {l : List A}, (∀ a ∈ l, ∃ b, f a = .ok b) →
    ∃ out, l.mapM f = .ok out
  | [], _ => ⟨[], rfl⟩
  | a :: l, h => by
    obtain ⟨b, hb⟩ := h a List.mem_cons_self
    obtain ⟨rest, hrest⟩ := mapM_succeeds fun x hx => h x (List.mem_cons_of_mem _ hx)
    exact ⟨b :: rest, by rw [List.mapM_cons, hb, ok_bind, hrest, ok_bind]; rfl⟩

end PredictionEdge.Lib
