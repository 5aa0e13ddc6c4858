import Mathlib.Init

/-!
# SmbServer.Lib.Program

Programs over an interface: calls, each with its own type of replies, the next one chosen from the
replies before it, and a result at the end.

A program can be run by something that answers the calls (`run`), or followed through whatever the
replies are (`Performs`). `Keeps` speaks of all its runs: the calls it makes and the results it can
come to, with one rule for each way to build a program.
-/

namespace Lib

inductive Program (C : Type) (Reply : C → Type) (α : Type) where
  | done (result : α)
  | call (c : C) (next : Reply c → Program C Reply α)

namespace Program

variable {C : Type} {Reply : C → Type} {α β σ : Type}

def bind : Program C Reply α → (α → Program C Reply β) → Program C Reply β
  | .done a, f => f a
  | .call c next, f => .call c fun reply => (next reply).bind f

instance : Monad (Program C Reply) where
  pure := .done
  bind := bind

def perform (c : C) : Program C Reply (Reply c) := .call c .done

/-- Run a program against a state that answers its calls. -/
def run (exec : σ → (c : C) → Reply c × σ) (s : σ) : Program C Reply α → α × σ
  | .done a => (a, s)
  | .call c next => (next (exec s c).1).run exec (exec s c).2

theorem run_bind (exec : σ → (c : C) → Reply c × σ) (s : σ) (prog : Program C Reply α)
    (f : α → Program C Reply β) :
    (prog >>= f).run exec s = (f (prog.run exec s).1).run exec (prog.run exec s).2 := by
  induction prog generalizing s with
  | done a => rfl
  | call c next ih => exact ih (exec s c).1 (exec s c).2

/-- What the answer to every call preserves, a run preserves. -/
theorem run_invariant {exec : σ → (c : C) → Reply c × σ} (Inv : σ → Prop)
    (preserved : ∀ s c, Inv s → Inv (exec s c).2) (prog : Program C Reply α) (s : σ)
    (init : Inv s) : Inv (prog.run exec s).2 := by
  induction prog generalizing s with
  | done a => exact init
  | call c next ih => exact ih (exec s c).1 (exec s c).2 (preserved s c init)

/-- The program makes these calls and comes to this result, for some replies. -/
inductive Performs : Program C Reply α → List C → α → Prop where
  | done (a : α) : Performs (.done a) [] a
  | call (c : C) (next : Reply c → Program C Reply α) (reply : Reply c) {calls : List C} {a : α}
      (rest : Performs (next reply) calls a) : Performs (.call c next) (c :: calls) a

theorem Performs.of_bind {prog : Program C Reply α} {f : α → Program C Reply β} {calls : List C}
    {b : β} (h : (prog >>= f).Performs calls b) :
    ∃ first rest a, calls = first ++ rest ∧ prog.Performs first a ∧ (f a).Performs rest b := by
  induction prog generalizing calls with
  | done a => exact ⟨[], calls, a, rfl, .done a, h⟩
  | call c next ih =>
    cases h with
    | call _ _ reply h =>
      obtain ⟨first, rest, a, rfl, here, later⟩ := ih reply h
      exact ⟨c :: first, rest, a, rfl, .call c next reply here, later⟩

/-- Whatever the replies are, every call satisfies `P` and the result `Q`. -/
def Keeps (P : C → Prop) (Q : α → Prop) (prog : Program C Reply α) : Prop :=
  ∀ calls a, prog.Performs calls a → (∀ c ∈ calls, P c) ∧ Q a

section
variable {P : C → Prop} {Q : α → Prop} {R : β → Prop}

theorem Keeps.done {a : α} (holds : Q a) : (.done a : Program C Reply α).Keeps P Q := by
  intro calls b performs
  cases performs with
  | done => exact ⟨by simp, holds⟩

theorem Keeps.call {c : C} {next : Reply c → Program C Reply α} (here : P c)
    (later : ∀ reply, (next reply).Keeps P Q) : (.call c next : Program C Reply α).Keeps P Q := by
  intro calls a performs
  cases performs with
  | call _ _ reply rest =>
    obtain ⟨all, holds⟩ := later reply _ a rest
    exact ⟨List.forall_mem_cons.mpr ⟨here, all⟩, holds⟩

theorem Keeps.bind {prog : Program C Reply α} {f : α → Program C Reply β}
    (first : prog.Keeps P Q) (later : ∀ a, Q a → (f a).Keeps P R) : (prog >>= f).Keeps P R := by
  intro calls b performs
  obtain ⟨front, rest, a, rfl, here, behind⟩ := performs.of_bind
  obtain ⟨all, holds⟩ := first front a here
  obtain ⟨all', holds'⟩ := later a holds rest b behind
  refine ⟨fun c member => ?_, holds'⟩
  rcases List.mem_append.mp member with early | late
  · exact all c early
  · exact all' c late

end

end Program

end Lib
