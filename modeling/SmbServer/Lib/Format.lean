import Mathlib.Data.List.Basic
import Mathlib.Control.Monad.Basic

/-!
# SmbServer.Lib.Format

Formats of values in a stream of symbols. A format reads a value from the front of a stream and
writes one, and it is exact: what it reads is a value that fits, followed by the rest. Formats are
put together field by field, and a later field may depend on an earlier one (a count and what it
counts), so a format for a record is exact by construction.

Everything a reader of the format wants to know follows from exactness: what is written is read
back, what is read is written back the same, and no two fitting values share a written form, not
even with different things behind them.
-/

namespace Lib

variable {σ α β : Type}

/-- How a value is read from the front of a stream, how it is written, and which values have a
written form that is read back. -/
structure Format (σ α : Type) where
  read : StateT (List σ) Option α
  write : α → List σ
  Fits : α → Prop
  exact : ∀ stream x rest, read stream = some (x, rest) ↔ Fits x ∧ stream = write x ++ rest

namespace Format

/-! ### Building blocks -/

theorem return_apply (x : α) (stream : List σ) :
    (pure x : StateT (List σ) Option α) stream = some (x, stream) := rfl

/-- The first `count` symbols. -/
def readSymbols (count : Nat) : StateT (List σ) Option (List σ) := fun stream =>
  if stream.length < count then none else some (stream.take count, stream.drop count)

/-- `count` symbols as they are. -/
def symbols (count : Nat) : Format σ (List σ) where
  read := readSymbols count
  write x := x
  Fits x := x.length = count
  exact stream x rest := by
    unfold readSymbols
    constructor
    · intro h
      split at h
      · cases h
      next enough =>
        cases h
        exact ⟨List.length_take_of_le (Nat.le_of_not_lt enough), (List.take_append_drop ..).symm⟩
    · rintro ⟨rfl, rfl⟩
      rw [if_neg (by simp), List.take_left', List.drop_left'] <;> rfl

/-- A field and, behind it, one whose format depends on its value. -/
def seq (f : Format σ α) (g : α → Format σ β) : Format σ (α × β) where
  read := do
    let x ← f.read
    let y ← (g x).read
    return (x, y)
  write p := f.write p.1 ++ (g p.1).write p.2
  Fits p := f.Fits p.1 ∧ (g p.1).Fits p.2
  exact stream p rest := by
    obtain ⟨x, y⟩ := p
    simp only [bind, StateT.bind, return_apply, Option.bind_eq_some_iff, Prod.exists, f.exact,
      (g _).exact, Option.some.injEq, Prod.mk.injEq]
    constructor
    · rintro ⟨a, _, ⟨fits, rfl⟩, b, _, ⟨fits', rfl⟩, ⟨rfl, rfl⟩, rfl⟩
      exact ⟨⟨fits, fits'⟩, (List.append_assoc ..).symm⟩
    · rintro ⟨⟨fits, fits'⟩, rfl⟩
      exact ⟨x, _, ⟨fits, List.append_assoc ..⟩, y, _, ⟨fits', rfl⟩, ⟨rfl, rfl⟩, rfl⟩

/-- The same stream for another type. `make` and `fields` undo each other where the format looks. -/
def convert (f : Format σ α) (make : α → β) (fields : β → α)
    (left : ∀ x, f.Fits x → fields (make x) = x)
    (right : ∀ y, f.Fits (fields y) → make (fields y) = y) : Format σ β where
  read := do return make (← f.read)
  write y := f.write (fields y)
  Fits y := f.Fits (fields y)
  exact stream y rest := by
    simp only [bind, StateT.bind, return_apply, Option.bind_eq_some_iff, Prod.exists, f.exact,
      Option.some.injEq, Prod.mk.injEq]
    constructor
    · rintro ⟨x, _, ⟨fits, rfl⟩, rfl, rfl⟩
      rw [left x fits]
      exact ⟨fits, rfl⟩
    · rintro ⟨fits, rfl⟩
      exact ⟨fields y, rest, ⟨fits, rfl⟩, right y fits, rfl⟩

/-- `count` values in a row. -/
def readTimes (r : StateT (List σ) Option α) : Nat → StateT (List σ) Option (List α)
  | 0 => return []
  | count + 1 => do
    let x ← r
    let xs ← readTimes r count
    return x :: xs

theorem readTimes_exact (f : Format σ α) (count : Nat) (stream : List σ) (xs : List α)
    (rest : List σ) : readTimes f.read count stream = some (xs, rest) ↔
      (xs.length = count ∧ ∀ x ∈ xs, f.Fits x) ∧ stream = xs.flatMap f.write ++ rest := by
  induction count generalizing stream xs rest with
  | zero =>
    simp only [readTimes, return_apply, Option.some.injEq, Prod.mk.injEq]
    constructor
    · rintro ⟨rfl, rfl⟩
      simp
    · rintro ⟨⟨none, -⟩, rfl⟩
      simp [List.length_eq_zero_iff.mp none]
  | succ count ih =>
    simp only [readTimes, bind, StateT.bind, return_apply, Option.bind_eq_some_iff,
      Prod.exists, f.exact, ih, Option.some.injEq, Prod.mk.injEq]
    constructor
    · rintro ⟨x, _, ⟨fits, rfl⟩, later, _, ⟨⟨long, each⟩, rfl⟩, rfl, rfl⟩
      exact ⟨⟨by simp [long], List.forall_mem_cons.mpr ⟨fits, each⟩⟩, by simp⟩
    · rintro ⟨⟨long, each⟩, rfl⟩
      cases xs with
      | nil => cases long
      | cons x xs =>
        obtain ⟨fits, each⟩ := List.forall_mem_cons.mp each
        exact ⟨x, _, ⟨fits, by simp⟩, xs, _, ⟨⟨Nat.succ.inj long, each⟩, rfl⟩, rfl, rfl⟩

def times (f : Format σ α) (count : Nat) : Format σ (List α) where
  read := readTimes f.read count
  write xs := xs.flatMap f.write
  Fits xs := xs.length = count ∧ ∀ x ∈ xs, f.Fits x
  exact := f.readTimes_exact count

/-! ### What a format reads, writes and accepts -/

section
variable (f : Format σ α)

@[simp] theorem read_symbols (count : Nat) :
    (symbols count : Format σ (List σ)).read = readSymbols count := rfl

@[simp] theorem write_symbols (count : Nat) (x : List σ) : (symbols count).write x = x := rfl

@[simp] theorem fits_symbols (count : Nat) (x : List σ) :
    (symbols count).Fits x ↔ x.length = count := Iff.rfl

@[simp] theorem read_seq (g : α → Format σ β) : (f.seq g).read = do
    let x ← f.read
    let y ← (g x).read
    return (x, y) := rfl

@[simp] theorem write_seq (g : α → Format σ β) (p : α × β) :
    (f.seq g).write p = f.write p.1 ++ (g p.1).write p.2 := rfl

@[simp] theorem fits_seq (g : α → Format σ β) (p : α × β) :
    (f.seq g).Fits p ↔ f.Fits p.1 ∧ (g p.1).Fits p.2 := Iff.rfl

section
variable (make : α → β) (fields : β → α) (left : ∀ x, f.Fits x → fields (make x) = x)
  (right : ∀ y, f.Fits (fields y) → make (fields y) = y)

@[simp] theorem read_convert : (f.convert make fields left right).read = do return make (← f.read) := rfl

@[simp] theorem write_convert (y : β) : (f.convert make fields left right).write y = f.write (fields y) := rfl

@[simp] theorem fits_convert (y : β) : (f.convert make fields left right).Fits y ↔ f.Fits (fields y) :=
  Iff.rfl

end

@[simp] theorem read_times (count : Nat) : (f.times count).read = readTimes f.read count := rfl

@[simp] theorem write_times (count : Nat) (xs : List α) :
    (f.times count).write xs = xs.flatMap f.write := rfl

@[simp] theorem fits_times (count : Nat) (xs : List α) :
    (f.times count).Fits xs ↔ xs.length = count ∧ ∀ x ∈ xs, f.Fits x := Iff.rfl

end

/-! ### What exactness gives -/

section
variable (f : Format σ α)

/-- The value in front of a stream, whatever lies behind it. -/
def parse (stream : List σ) : Option α := (f.read.run stream).map Prod.fst

theorem parse_eq_some (stream : List σ) (x : α) :
    f.parse stream = some x ↔ f.Fits x ∧ ∃ rest, stream = f.write x ++ rest := by
  simp only [parse, StateT.run, Option.map_eq_some_iff, Prod.exists, f.exact, exists_and_right,
    exists_eq_right, exists_and_left]

/-- No written value is the start of another one. -/
theorem write_unique {x y : α} {rest rest' : List σ} (fits : f.Fits x) (fits' : f.Fits y)
    (same : f.write x ++ rest = f.write y ++ rest') : x = y ∧ rest = rest' := by
  have front : f.read (f.write x ++ rest) = some (x, rest) := (f.exact _ _ _).mpr ⟨fits, rfl⟩
  have other : f.read (f.write y ++ rest') = some (y, rest') := (f.exact _ _ _).mpr ⟨fits', rfl⟩
  rw [same, other] at front
  obtain ⟨rfl, rfl⟩ := Prod.mk.inj (Option.some.inj front)
  exact ⟨rfl, rfl⟩

end

end Format

end Lib
