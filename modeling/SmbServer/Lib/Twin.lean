import SmbServer.Lib.Action

/-!
# SmbServer.Lib.Twin

Two runs side by side. `Action.Agrees R m m'` says that `m` and `m'`, started in states that `R`
relates, return the same and end in states that `R` relates again; `R` says in what the two runs
may differ. The rules follow the shape of a program, so that only the calls where the two differ
need an argument.
-/

namespace Lib

namespace Action

variable {σ τ α β : Type} {R : σ → τ → Prop}

/-- From related states, the same result and related states. -/
def Agrees (R : σ → τ → Prop) (m : Action σ α) (m' : Action τ α) : Prop :=
  ∀ s t, R s t → (m s).1 = (m' t).1 ∧ R (m s).2 (m' t).2

namespace Agrees

theorem pure (a : α) : Agrees R (Pure.pure a : Action σ α) (Pure.pure a : Action τ α) :=
  fun _ _ related => ⟨rfl, related⟩

theorem bind {m : Action σ α} {m' : Action τ α} {f : α → Action σ β} {f' : α → Action τ β}
    (first : Agrees R m m') (rest : ∀ a, Agrees R (f a) (f' a)) :
    Agrees R (m >>= f) (m' >>= f') := by
  intro s t related
  obtain ⟨same, after⟩ := first s t related
  have later := rest (m s).1 _ _ after
  rw [bind_apply, bind_apply, ← same]
  exact later

theorem forM {body : α → Action σ Unit} {body' : α → Action τ Unit} (xs : List α)
    (each : ∀ a ∈ xs, Agrees R (body a) (body' a)) : Agrees R (xs.forM body) (xs.forM body') := by
  induction xs with
  | nil => exact Agrees.pure ()
  | cons x rest ih =>
    have here := each x List.mem_cons_self
    have later := ih fun a member => each a (List.mem_cons_of_mem x member)
    exact Agrees.bind here fun _ => later

end Agrees

end Action

end Lib
