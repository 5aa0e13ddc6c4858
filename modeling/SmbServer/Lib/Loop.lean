/-!
# SmbServer.Lib.Loop

A loop given by one round of it, which goes on from a new state or stops with a result. `Loop.run`
makes a number of rounds; a loop terminates when some number of them is enough.
-/

namespace Lib

namespace Loop

variable {σ β : Type}

/-- At most `rounds` rounds: `none` when the loop has not stopped by then. -/
def run (round : σ → σ ⊕ β) : Nat → σ → Option β
  | 0, _ => none
  | rounds + 1, s =>
    match round s with
    | .inl next => run round rounds next
    | .inr result => some result

/-- A loop stops when every round keeps an invariant and lowers a measure. -/
theorem run_of_measure {round : σ → σ ⊕ β} (Inv : σ → Prop) (measure : σ → Nat)
    (keeps : ∀ s next, Inv s → round s = .inl next → Inv next)
    (less : ∀ s next, Inv s → round s = .inl next → measure next < measure s)
    (rounds : Nat) (s : σ) (inv : Inv s) (enough : measure s < rounds) :
    ∃ result, run round rounds s = some result := by
  induction rounds generalizing s with
  | zero => exact absurd enough (Nat.not_lt_zero _)
  | succ rounds ih =>
    cases here : round s with
    | inl next =>
      have lower := less s next inv here
      obtain ⟨result, stopped⟩ := ih next (keeps s next inv here) (by omega)
      exact ⟨result, by rw [run, here]; exact stopped⟩
    | inr result => exact ⟨result, by rw [run, here]⟩

end Loop

end Lib
