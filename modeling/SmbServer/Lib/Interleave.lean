import Mathlib.Logic.Relation
import Mathlib.Logic.Function.Basic

/-!
# SmbServer.Lib.Interleave

Systems in which several parties take turns. A relation says which action takes which state to
which; a run is a sequence of actions in any order, so that it ranges over every interleaving of
the parties.
-/

namespace Lib

variable {σ α : Type}

/-- An action that meets `ok` takes `s` to `t`. -/
def Move (next : σ → α → σ → Prop) (ok : σ → α → Prop) (s t : σ) : Prop :=
  ∃ a, ok s a ∧ next s a t

/-- Actions that all meet `ok` lead from `s` to `t`. -/
def Reaches (next : σ → α → σ → Prop) (ok : σ → α → Prop) : σ → σ → Prop :=
  Relation.ReflTransGen (Move next ok)

/-- Any actions at all lead from `s` to `t`. -/
abbrev Reachable (next : σ → α → σ → Prop) : σ → σ → Prop := Reaches next fun _ _ => True

namespace Reaches

variable {next : σ → α → σ → Prop} {ok ok' : σ → α → Prop} {s t u : σ}

theorem refl (s : σ) : Reaches next ok s s := Relation.ReflTransGen.refl

theorem tail {a : α} (run : Reaches next ok s t) (meets : ok t a) (last : next t a u) :
    Reaches next ok s u :=
  Relation.ReflTransGen.tail run ⟨a, meets, last⟩

theorem trans (first : Reaches next ok s t) (second : Reaches next ok t u) :
    Reaches next ok s u :=
  Relation.ReflTransGen.trans first second

theorem mono (run : Reaches next ok s t) (weaker : ∀ s a, ok s a → ok' s a) :
    Reaches next ok' s t := by
  induction run with
  | refl => exact refl s
  | tail _ last ih =>
    obtain ⟨a, meets, step⟩ := last
    exact ih.tail (weaker _ a meets) step

/-- What every action keeps, a run keeps. -/
theorem invariant (Inv : σ → Prop) (preserved : ∀ s a t, Inv s → ok s a → next s a t → Inv t)
    (run : Reaches next ok s t) (init : Inv s) : Inv t := by
  induction run with
  | refl => exact init
  | tail _ last ih =>
    obtain ⟨a, meets, step⟩ := last
    exact preserved _ a _ ih meets step

end Reaches

end Lib
