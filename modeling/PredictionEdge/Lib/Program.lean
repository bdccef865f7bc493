import Mathlib.Logic.Relation

/-!
# Programs that ask their surroundings

An asynchronous function, cut where it reaches outside: it ends with a result or a failure, or
it asks one question and goes on with whatever the answer is. Between two questions others may
move the world, and at any question the program may be cut off for good, so what holds of a
program is stated at every question it can get to: `Safe` says that each question it asks
changes the world only as *guaranteed*, and each result it ends with is as promised, however
others move the world in between as far as they are *relied* on.
-/

namespace PredictionEdge.Lib

/-- A program over questions `Q` with answers `A`, with failures `ε`. -/
inductive Program (Q : Type) (A : Q → Type) (ε α : Type) where
  | done (result : Except ε α)
  | ask (question : Q) (rest : A question → Program Q A ε α)

namespace Program

variable {Q : Type} {A : Q → Type} {ε α β : Type}

def bind (p : Program Q A ε α) (f : α → Program Q A ε β) : Program Q A ε β :=
  match p with
  | done (.ok a) => f a
  | done (.error e) => done (.error e)
  | ask q rest => ask q fun answer => (rest answer).bind f

instance : Monad (Program Q A ε) where
  pure a := done (.ok a)
  bind := bind

instance : MonadExcept ε (Program Q A ε) where
  throw e := done (.error e)
  tryCatch p _ := p

@[simp] theorem pure_eq (a : α) : (pure a : Program Q A ε α) = done (.ok a) := rfl

@[simp] theorem throw_eq (e : ε) : (throw e : Program Q A ε α) = done (.error e) := rfl

@[simp] theorem done_ok_bind (a : α) (f : α → Program Q A ε β) :
    (done (.ok a) : Program Q A ε α) >>= f = f a := rfl

@[simp] theorem done_error_bind (e : ε) (f : α → Program Q A ε β) :
    (done (.error e) : Program Q A ε α) >>= f = done (.error e) := rfl

@[simp] theorem ask_bind (q : Q) (rest : A q → Program Q A ε α) (f : α → Program Q A ε β) :
    ask q rest >>= f = ask q fun answer => rest answer >>= f := rfl

theorem bind_assoc' {γ : Type} (p : Program Q A ε α) (f : α → Program Q A ε β)
    (g : β → Program Q A ε γ) : (p.bind f).bind g = p.bind fun a => (f a).bind g := by
  induction p with
  | done result => cases result <;> rfl
  | ask q rest ih =>
    simp only [bind]
    exact congrArg (ask q) (funext fun answer => ih answer)

theorem bind_pure' (p : Program Q A ε α) : (p.bind fun a => done (.ok a)) = p := by
  induction p with
  | done result => cases result <;> rfl
  | ask q rest ih =>
    simp only [bind]
    exact congrArg (ask q) (funext fun answer => ih answer)

instance : LawfulMonad (Program Q A ε) :=
  LawfulMonad.mk' _ bind_pure' (fun _ _ => rfl) bind_assoc'

/-! ## What a program asks -/

/-- The questions a program has asked so far, with the answers it was given. -/
inductive Answered : Program Q A ε α → List ((q : Q) × A q) → Prop where
  | cut (p : Program Q A ε α) : Answered p []
  | ask {q : Q} {rest : A q → Program Q A ε α} {answer : A q} {log : List ((q : Q) × A q)}
      (h : Answered (rest answer) log) : Answered (.ask q rest) (⟨q, answer⟩ :: log)

/-- The program run to its end against fixed answers. -/
def transcript (answers : (q : Q) → A q) : Program Q A ε α → List ((q : Q) × A q)
  | done _ => []
  | ask q rest => ⟨q, answers q⟩ :: (rest (answers q)).transcript answers

theorem answered_transcript (answers : (q : Q) → A q) (p : Program Q A ε α) :
    p.Answered (p.transcript answers) := by
  induction p with
  | done result => exact .cut _
  | ask q rest ih => exact .ask (ih (answers q))

theorem transcript_admits {admits : (q : Q) → A q → Prop} {answers : (q : Q) → A q}
    (h : ∀ q, admits q (answers q)) (p : Program Q A ε α) :
    ∀ asked ∈ p.transcript answers, admits asked.1 asked.2 := by
  induction p with
  | done result => exact fun asked hmem => absurd hmem (by simp [transcript])
  | ask q rest ih =>
    rw [transcript, List.forall_mem_cons]
    exact ⟨h q, ih (answers q)⟩

variable {p : Program Q A ε α}

section

variable {admits : (q : Q) → A q → Prop} {P : Q → Prop}

/-- Every question the program gets to is as `P` says, if the answers are as `admits` says. -/
def Asks (admits : (q : Q) → A q → Prop) (P : Q → Prop) : Program Q A ε α → Prop
  | done _ => True
  | ask q rest => P q ∧ ∀ answer, admits q answer → (rest answer).Asks admits P

theorem Asks.bind {f : α → Program Q A ε β} (hp : p.Asks admits P) (hf : ∀ a, (f a).Asks admits P) :
    (p >>= f).Asks admits P := by
  induction p with
  | done result =>
    cases result with
    | ok a => exact hf a
    | error e => trivial
  | ask q rest ih => exact ⟨hp.1, fun answer hadmits => ih answer (hp.2 answer hadmits)⟩

theorem Asks.answered {log : List ((q : Q) × A q)} (hp : p.Asks admits P) (h : p.Answered log)
    (hadmits : ∀ asked ∈ log, admits asked.1 asked.2) : ∀ asked ∈ log, P asked.1 := by
  induction h with
  | cut p => exact fun asked hmem => absurd hmem (by simp)
  | ask h ih =>
    rw [List.forall_mem_cons] at hadmits ⊢
    exact ⟨hp.1, ih (hp.2 _ hadmits.1) hadmits.2⟩

end

/-! ## Safety among others -/

section

variable {W : Type} {act : W → (q : Q) → A q → W → Prop} {rely guar : W → W → Prop}
  {post : W → Except ε α → Prop}

/--
Wherever the program gets to, its questions move the world as `guar` says and its results are as
`post` says, if others move the world only as `rely` says. `act` is what a question with its
answer does to the world.
-/
def Safe (act : W → (q : Q) → A q → W → Prop) (rely guar : W → W → Prop)
    (post : W → Except ε α → Prop) : Program Q A ε α → W → Prop
  | done result, w => ∀ w', Relation.ReflTransGen rely w w' → post w' result
  | ask q rest, w => ∀ w', Relation.ReflTransGen rely w w' → ∀ answer w'', act w' q answer w'' →
      guar w' w'' ∧ Safe act rely guar post (rest answer) w''

/-- What others may do does not make a program unsafe. -/
theorem Safe.stable {w w' : W} (h : p.Safe act rely guar post w) (hrely : rely w w') :
    p.Safe act rely guar post w' := by
  cases p with
  | done result | ask q rest => exact fun w'' hw => h w'' (.head hrely hw)

theorem Safe.ask_step {q : Q} {rest : A q → Program Q A ε α} {w w' : W} {answer : A q}
    (h : (ask q rest).Safe act rely guar post w) (hact : act w q answer w') :
    guar w w' ∧ (rest answer).Safe act rely guar post w' :=
  h w .refl answer w' hact

/-- One program after another. -/
theorem Safe.bind {mid : W → Except ε α → Prop} {post : W → Except ε β → Prop}
    {f : α → Program Q A ε β} {w : W} (hp : p.Safe act rely guar mid w)
    (hok : ∀ w a, mid w (.ok a) → (f a).Safe act rely guar post w)
    (herror : ∀ w e, mid w (.error e) → post w (.error e)) :
    (p >>= f).Safe act rely guar post w := by
  induction p generalizing w with
  | done result =>
    cases result with
    | ok a => exact hok w a (hp w .refl)
    | error e => exact fun w' hrely => herror w' e (hp w' hrely)
  | ask q rest ih =>
    intro w' hrely answer w'' hact
    obtain ⟨hguar, hrest⟩ := hp w' hrely answer w'' hact
    exact ⟨hguar, ih answer hrest⟩

end

end Program

end PredictionEdge.Lib
