import Mathlib.Logic.Relation

/-!
# SmbServer.Lib.Action

Sequential actions on a state, and two kinds of statement about them.

`Action.Returns P m` says what `m` returns wherever it starts, and `Action.Moves R m` that `m` takes
every state to an `R`-related one. For a reflexive and transitive `R` the last composes along `>>=`
without mention of the states in between.
-/

namespace Lib

/-- A computation that reads and updates a state `σ` and returns an `α`. -/
def Action (σ α : Type) := σ → α × σ

namespace Action

variable {σ α β : Type}

instance : Monad (Action σ) where
  pure a := fun s => (a, s)
  bind m f := fun s => f (m s).1 (m s).2

def get : Action σ σ := fun s => (s, s)

def modify (f : σ → σ) : Action σ Unit := fun s => ((), f s)

@[simp] theorem pure_apply (a : α) (s : σ) : (pure a : Action σ α) s = (a, s) := rfl

@[simp] theorem bind_apply (m : Action σ α) (f : α → Action σ β) (s : σ) :
    (m >>= f) s = f (m s).1 (m s).2 := rfl

@[simp] theorem map_apply (f : α → β) (m : Action σ α) (s : σ) :
    (f <$> m) s = (f (m s).1, (m s).2) := rfl

@[simp] theorem get_apply (s : σ) : (get : Action σ σ) s = (s, s) := rfl

@[simp] theorem modify_apply (f : σ → σ) (s : σ) : modify f s = ((), f s) := rfl

/-! ### What an action returns from any state -/

/-- Whatever state `m` starts in, it returns a value that satisfies `P`. -/
def Returns (P : α → Prop) (m : Action σ α) : Prop := ∀ s, P (m s).1

theorem Returns.pure {P : α → Prop} {a : α} (h : P a) : Returns P (Pure.pure a : Action σ α) :=
  fun _ => h

theorem Returns.bind {P : β → Prop} {m : Action σ α} {f : α → Action σ β}
    (rest : ∀ a, Returns P (f a)) : Returns P (m >>= f) :=
  fun s => rest (m s).1 (m s).2

/-- What the first action returns is all that the second has to deal with. -/
theorem Returns.seq {P : α → Prop} {Q : β → Prop} {m : Action σ α} {f : α → Action σ β}
    (first : Returns P m) (rest : ∀ a, P a → Returns Q (f a)) : Returns Q (m >>= f) :=
  fun s => rest (m s).1 (first s) (m s).2

/-! ### What an action does to any state -/

/-- `m` takes every state to one that `R` relates to it. -/
def Moves (R : σ → σ → Prop) (m : Action σ α) : Prop := ∀ s, R s (m s).2

variable {R : σ → σ → Prop}

theorem Moves.pure (refl : ∀ s, R s s) (a : α) : Moves R (Pure.pure a : Action σ α) :=
  fun s => refl s

theorem Moves.bind (trans : ∀ s t u, R s t → R t u → R s u) {m : Action σ α}
    {f : α → Action σ β} (first : Moves R m) (rest : ∀ a, Moves R (f a)) : Moves R (m >>= f) :=
  fun s => trans _ _ _ (first s) (rest (m s).1 (m s).2)

/-- A loop over a list moves the state along `R` when every round does. -/
theorem Moves.forM (refl : ∀ s, R s s) (trans : ∀ s t u, R s t → R t u → R s u)
    {body : α → Action σ Unit} (xs : List α) (each : ∀ a ∈ xs, Moves R (body a)) :
    Moves R (xs.forM body) := by
  induction xs with
  | nil => exact fun s => refl s
  | cons x rest ih =>
    have here := each x List.mem_cons_self
    have later := ih fun a member => each a (List.mem_cons_of_mem x member)
    exact Moves.bind trans here fun _ => later

end Action

end Lib
