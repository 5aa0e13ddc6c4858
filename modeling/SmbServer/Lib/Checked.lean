import SmbServer.Lib.Bytes

/-!
# SmbServer.Lib.Checked

Computations in machine words whose sums and products may not fit.

A `Checked` computation ends with a value, rejects its input, or has left the range of its words: a
build with overflow checks stops there, one without goes on with a value that is not the sum.
`ofOption` is a computation that stays in range.
-/

namespace Lib

/-- The widths of a `usize`. -/
inductive Width where
  | w32
  | w64
  deriving DecidableEq

/-- The number of values of a word. -/
def Width.size : Width → Nat
  | .w32 => 0x100000000
  | .w64 => 0x10000000000000000

theorem Width.size_w64 : Width.w64.size = 2 ^ 64 := rfl

theorem Width.size_w32 : Width.w32.size = 2 ^ 32 := rfl

inductive Checked (α : Type) where
  | done (a : α)
  | rejected
  | overflow
  deriving DecidableEq

namespace Checked

variable {α β : Type}

instance : Monad Checked where
  pure := .done
  bind c f :=
    match c with
    | .done a => f a
    | .rejected => .rejected
    | .overflow => .overflow

def ofOption : Option α → Checked α
  | some a => .done a
  | none => .rejected

/-- The sum of two words. -/
def add (w : Width) (a b : Nat) : Checked Nat :=
  if a + b < w.size then .done (a + b) else .overflow

/-- The product of two words. -/
def mul (w : Width) (a b : Nat) : Checked Nat :=
  if a * b < w.size then .done (a * b) else .overflow

@[simp] theorem done_bind (a : α) (f : α → Checked β) : (Checked.done a >>= f) = f a := rfl

@[simp] theorem pure_bind (a : α) (f : α → Checked β) : ((pure a : Checked α) >>= f) = f a := rfl

@[simp] theorem rejected_bind (f : α → Checked β) : ((rejected : Checked α) >>= f) = rejected := rfl

@[simp] theorem overflow_bind (f : α → Checked β) : ((overflow : Checked α) >>= f) = overflow := rfl

theorem add_of_lt {w : Width} {a b : Nat} (fits : a + b < w.size) :
    add w a b = .done (a + b) := if_pos fits

theorem add_of_le {w : Width} {a b : Nat} (out : w.size ≤ a + b) : add w a b = .overflow :=
  if_neg (Nat.not_lt.mpr out)

theorem mul_of_lt {w : Width} {a b : Nat} (fits : a * b < w.size) :
    mul w a b = .done (a * b) := if_pos fits

theorem mul_of_le {w : Width} {a b : Nat} (out : w.size ≤ a * b) : mul w a b = .overflow :=
  if_neg (Nat.not_lt.mpr out)

theorem ofOption_ne_overflow (r : Option α) : ofOption r ≠ .overflow := by
  intro same
  cases r <;> cases same

/-- The computation stays in range exactly when `P` holds, and then it is `r`. -/
def ExactWhen (c : Checked α) (r : Option α) (P : Prop) : Prop :=
  (P ∧ c = ofOption r) ∨ (¬P ∧ c = .overflow)

theorem ExactWhen.iff {c : Checked α} {r : Option α} {P : Prop} (h : ExactWhen c r P) :
    c = ofOption r ↔ P := by
  rcases h with ⟨holds, exact⟩ | ⟨fails, out⟩
  · exact ⟨fun _ => holds, fun _ => exact⟩
  · constructor
    · intro exact
      exact absurd (exact.symm.trans out) (ofOption_ne_overflow r)
    · intro holds
      exact absurd holds fails

theorem ExactWhen.congr {c : Checked α} {r : Option α} {P Q : Prop} (h : ExactWhen c r P)
    (same : P ↔ Q) : ExactWhen c r Q := by
  rwa [ExactWhen, ← same]

/-- A value is the result, whatever was in range. -/
theorem ExactWhen.of_done {c : Checked α} {r : Option α} {P : Prop} (h : ExactWhen c r P) {a : α}
    (done : c = .done a) : r = some a := by
  rcases h with ⟨-, rfl⟩ | ⟨-, rfl⟩
  · cases r with
    | none => cases done
    | some b =>
      cases done
      rfl
  · cases done

/-- What is computed from the result stays in range when the result does. -/
theorem ExactWhen.map {c : Checked α} {r : Option α} {P : Prop} (h : ExactWhen c r P)
    (f : α → β) : ExactWhen (c >>= fun a => pure (f a)) (r.map f) P := by
  rcases h with ⟨holds, rfl⟩ | ⟨fails, rfl⟩
  · refine .inl ⟨holds, ?_⟩
    cases r <;> rfl
  · exact .inr ⟨fails, rfl⟩

end Checked

/-- A buffer of the program: no longer than `isize::MAX`. -/
structure Buffer (w : Width) where
  bytes : Bytes
  short : bytes.length < w.size / 2

end Lib
