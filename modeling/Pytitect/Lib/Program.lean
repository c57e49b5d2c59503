import Mathlib.Tactic.Common

/-- A program over a state that returns or raises. The state it leaves behind
is kept in both cases, so undoing a raise is an operation of its own. -/
def Program (σ ε α : Type) : Type := σ → Except ε α × σ

namespace Program
variable {σ ε α β : Type}

instance : Monad (Program σ ε) where
  pure a := fun s => (.ok a, s)
  bind p f := fun s =>
    match p s with
    | (.ok a, t) => f a t
    | (.error e, t) => (.error e, t)

def raise (e : ε) : Program σ ε α := fun s => (.error e, s)

/-- Raise unless the condition holds. -/
def require (condition : Bool) (e : ε) : Program σ ε Unit := if condition then pure () else raise e

/-- Change the state and return. -/
def modify (change : σ → σ) : Program σ ε Unit := fun s => (.ok (), change s)

/-- Run the body as one unit: a raise passes through, and `undo before after`
is the state that remains of it. -/
def atomic (undo : σ → σ → σ) (body : Program σ ε α) : Program σ ε α := fun s =>
  match body s with
  | (.ok a, t) => (.ok a, t)
  | (.error e, t) => (.error e, undo s t)

/-- Turn the raises that `caught` recognises into answers. -/
def recover {ε' : Type} (caught : ε → Except ε' α) (body : Program σ ε α) : Program σ ε' α := fun s =>
  match body s with
  | (.ok a, t) => (.ok a, t)
  | (.error e, t) => (caught e, t)

/-- Run an operation on one component of the state. -/
def zoom {τ ε' : Type} (get : σ → τ) (set : τ → σ → σ) (lift : ε' → ε) (operation : τ → Except ε' α × τ) :
    Program σ ε α := fun s =>
  match operation (get s) with
  | (.ok a, t) => (.ok a, set t s)
  | (.error e, t) => (.error (lift e), set t s)

/-- The program returns `a` and leaves `t` behind. -/
def Returns (p : Program σ ε α) (s : σ) (a : α) (t : σ) : Prop := p s = (.ok a, t)

/-- The program raises `e` and leaves `t` behind. -/
def Raises (p : Program σ ε α) (s : σ) (e : ε) (t : σ) : Prop := p s = (.error e, t)

theorem returns_or_raises (p : Program σ ε α) (s : σ) :
    (∃ a t, p.Returns s a t) ∨ ∃ e t, p.Raises s e t := by
  unfold Returns Raises
  rcases run : p s with ⟨result, t⟩
  cases result with
  | ok a => exact Or.inl ⟨a, t, rfl⟩
  | error e => exact Or.inr ⟨e, t, rfl⟩

/-- A program's result and the state it leaves make up its run. -/
theorem run_eq {p : Program σ ε α} {s : σ} {result : Except ε α} (ends : (p s).1 = result) :
    p s = (result, (p s).2) := by
  rw [← ends]

@[simp] theorem returns_pure {s t : σ} {a b : α} :
    (pure a : Program σ ε α).Returns s b t ↔ b = a ∧ t = s := by
  simp only [Returns, pure, Prod.mk.injEq, Except.ok.injEq]
  exact ⟨fun same => ⟨same.1.symm, same.2.symm⟩, fun same => ⟨same.1.symm, same.2.symm⟩⟩

@[simp] theorem not_raises_pure {s t : σ} {a : α} {e : ε} : ¬(pure a : Program σ ε α).Raises s e t := by
  simp [Raises, pure]

@[simp] theorem not_returns_raise {s t : σ} {e : ε} {a : α} : ¬(raise e : Program σ ε α).Returns s a t := by
  simp [Returns, raise]

@[simp] theorem raises_raise {s t : σ} {e f : ε} : (raise e : Program σ ε α).Raises s f t ↔ f = e ∧ t = s := by
  simp only [Raises, raise, Prod.mk.injEq, Except.error.injEq]
  exact ⟨fun same => ⟨same.1.symm, same.2.symm⟩, fun same => ⟨same.1.symm, same.2.symm⟩⟩

@[simp] theorem returns_require {condition : Bool} {e : ε} {s t : σ} {a : Unit} :
    (require condition e : Program σ ε Unit).Returns s a t ↔ condition = true ∧ t = s := by
  cases condition <;> simp [require]

@[simp] theorem returns_modify {change : σ → σ} {s t : σ} {a : Unit} :
    (modify change : Program σ ε Unit).Returns s a t ↔ t = change s := by
  simp only [Returns, modify, Prod.mk.injEq, true_and]
  exact eq_comm

theorem bind_returned {p : Program σ ε α} {f : α → Program σ ε β} {s t : σ} {a : α} (first : p.Returns s a t) :
    (p >>= f) s = f a t := by
  unfold Returns at first
  simp only [bind, first]

theorem bind_raised {p : Program σ ε α} {f : α → Program σ ε β} {s t : σ} {e : ε} (first : p.Raises s e t) :
    (p >>= f) s = (.error e, t) := by
  unfold Raises at first
  simp only [bind, first]

/-- A sequence returns through an intermediate state. -/
theorem returns_bind {p : Program σ ε α} {f : α → Program σ ε β} {s u : σ} {b : β} :
    (p >>= f).Returns s b u ↔ ∃ a t, p.Returns s a t ∧ (f a).Returns t b u := by
  simp only [Returns, bind]
  rcases run : p s with ⟨result, t⟩
  cases result with
  | ok a => simp
  | error e => simp

/-- A sequence raises in its first part or, after that returned, in its second. -/
theorem raises_bind {p : Program σ ε α} {f : α → Program σ ε β} {s u : σ} {e : ε} :
    (p >>= f).Raises s e u ↔ p.Raises s e u ∨ ∃ a t, p.Returns s a t ∧ (f a).Raises t e u := by
  simp only [Returns, Raises, bind]
  rcases run : p s with ⟨result, t⟩
  cases result with
  | ok a => simp
  | error e => simp

theorem returns_atomic {undo : σ → σ → σ} {body : Program σ ε α} {s t : σ} {a : α} :
    (atomic undo body).Returns s a t ↔ body.Returns s a t := by
  simp only [Returns, atomic]
  rcases run : body s with ⟨result, u⟩
  cases result with
  | ok b => simp
  | error e => simp

theorem raises_atomic {undo : σ → σ → σ} {body : Program σ ε α} {s u : σ} {e : ε} :
    (atomic undo body).Raises s e u ↔ ∃ t, body.Raises s e t ∧ u = undo s t := by
  simp only [Raises, atomic]
  rcases run : body s with ⟨result, t⟩
  cases result with
  | ok a => simp
  | error f =>
    simp only [Prod.mk.injEq, Except.error.injEq]
    constructor
    · intro same
      exact ⟨t, ⟨same.1, rfl⟩, same.2.symm⟩
    · intro same
      obtain ⟨v, ⟨sameError, rfl⟩, rfl⟩ := same
      exact ⟨sameError, rfl⟩

theorem returns_recover {ε' : Type} {caught : ε → Except ε' α} {body : Program σ ε α} {s t : σ} {a : α} :
    (recover caught body).Returns s a t ↔
      body.Returns s a t ∨ ∃ e, body.Raises s e t ∧ caught e = .ok a := by
  simp only [Returns, Raises, recover]
  rcases run : body s with ⟨result, u⟩
  cases result with
  | ok b => simp
  | error e =>
    simp only [Prod.mk.injEq, reduceCtorEq, false_and, false_or, Except.error.injEq]
    constructor
    · intro same
      exact ⟨e, ⟨rfl, same.2⟩, same.1⟩
    · intro same
      obtain ⟨f, ⟨rfl, rfl⟩, image⟩ := same
      exact ⟨image, rfl⟩

/-- A body that is undone when it raises leaves its own state behind when it returns, and the
first state when it raises. -/
theorem recover_atomic {ε' : Type} (caught : ε → Except ε' α) (body : Program σ ε α) (s : σ) :
    (∃ a t, body.Returns s a t ∧ recover caught (atomic (fun before _ => before) body) s = (.ok a, t)) ∨
      ∃ e t, body.Raises s e t ∧ recover caught (atomic (fun before _ => before) body) s = (caught e, s) := by
  unfold Returns Raises recover atomic
  rcases run : body s with ⟨result, t⟩
  cases result with
  | ok a => exact Or.inl ⟨a, t, rfl, rfl⟩
  | error e => exact Or.inr ⟨e, t, rfl, rfl⟩

theorem returns_zoom {τ ε' : Type} {get : σ → τ} {set : τ → σ → σ} {lift : ε' → ε}
    {operation : τ → Except ε' α × τ} {s t : σ} {a : α} :
    (zoom get set lift operation).Returns s a t ↔ ∃ u, operation (get s) = (.ok a, u) ∧ t = set u s := by
  simp only [Returns, zoom]
  rcases run : operation (get s) with ⟨result, u⟩
  cases result with
  | ok b =>
    simp only [Prod.mk.injEq, Except.ok.injEq]
    constructor
    · intro same
      exact ⟨u, ⟨same.1, rfl⟩, same.2.symm⟩
    · intro same
      obtain ⟨v, ⟨sameAnswer, rfl⟩, rfl⟩ := same
      exact ⟨sameAnswer, rfl⟩
  | error e => simp

theorem raises_zoom {τ ε' : Type} {get : σ → τ} {set : τ → σ → σ} {lift : ε' → ε}
    {operation : τ → Except ε' α × τ} {s t : σ} {e : ε} :
    (zoom get set lift operation).Raises s e t ↔
      ∃ f u, operation (get s) = (.error f, u) ∧ e = lift f ∧ t = set u s := by
  simp only [Raises, zoom]
  rcases run : operation (get s) with ⟨result, u⟩
  cases result with
  | ok b => simp
  | error f =>
    simp only [Prod.mk.injEq, Except.error.injEq]
    constructor
    · intro same
      exact ⟨f, u, ⟨rfl, rfl⟩, same.1.symm, same.2.symm⟩
    · intro same
      obtain ⟨g, v, ⟨rfl, rfl⟩, rfl, rfl⟩ := same
      exact ⟨rfl, rfl⟩

end Program
