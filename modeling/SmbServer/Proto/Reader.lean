import SmbServer.Lib.Bytes

/-!
# SmbServer.Proto.Reader

The little-endian field readers that `binrw` derives for the request structures. A reader consumes
a body from the front; it fails when the body ends inside a field, and what is left behind the last
field is ignored.
-/

namespace SmbServer

open Lib

/-- A reader of a value from the front of a body. -/
abbrev Reader (α : Type) := StateT Bytes Option α

namespace Reader

/-- `count` raw bytes. -/
def bytes (count : Nat) : Reader Bytes := fun buf =>
  if buf.length < count then none else some (buf.take count, buf.drop count)

def u8 : Reader UInt8 := fun buf =>
  match buf with
  | [] => none
  | b :: rest => some (b, rest)

def u16 : Reader UInt16 := do return u16OfLe (← bytes 2)

def u32 : Reader UInt32 := do return u32OfLe (← bytes 4)

def u64 : Reader UInt64 := do return u64OfLe (← bytes 8)

/-- `n` bytes as a fixed-size array. -/
def array (n : Nat) : Reader (ByteVec n) := do return ByteVec.ofBytes n (← bytes n)

/-- A vector of `count` 16-bit words. -/
def u16s : Nat → Reader (List UInt16)
  | 0 => return []
  | count + 1 => do
    let head ← u16
    let tail ← u16s count
    return head :: tail

/-- Read one value from the start of `buf`. -/
def parse {α : Type} (r : Reader α) (buf : Bytes) : Option α := (r.run buf).map Prod.fst

/-- A read of raw bytes takes them from the front. -/
theorem bytes_eq {count : Nat} {buf front rest : Bytes} (h : bytes count buf = some (front, rest)) :
    front = slice buf 0 count ∧ rest = buf.drop count := by
  unfold bytes at h
  split at h
  · cases h
  · simp only [Option.some.injEq, Prod.mk.injEq] at h
    exact ⟨h.1.symm, h.2.symm⟩

/-! ### What a successful read says -/

section
variable {α β : Type} {buf rest : Bytes}

theorem bind_eq_some {r : Reader α} {f : α → Reader β} {y : β × Bytes} :
    (r >>= f) buf = some y ↔ ∃ x rest, r buf = some (x, rest) ∧ f x rest = some y := by
  simp only [bind, StateT.bind, Option.bind_eq_some_iff, Prod.exists]

theorem pure_apply (x : α) (buf : Bytes) : (pure x : Reader α) buf = some (x, buf) := rfl

theorem pure_eq_some {x y : α} : (pure x : Reader α) buf = some (y, rest) ↔ x = y ∧ buf = rest := by
  simp only [pure_apply, Option.some.injEq, Prod.mk.injEq]

theorem parse_eq_some {r : Reader α} {x : α} :
    parse r buf = some x ↔ ∃ rest, r buf = some (x, rest) := by
  simp only [parse, StateT.run, Option.map_eq_some_iff, Prod.exists, exists_and_right,
    exists_eq_right]

theorem u8_rest {x : UInt8} (h : u8 buf = some (x, rest)) : rest = buf.drop 1 := by
  cases buf with
  | nil => cases h
  | cons b behind =>
    obtain ⟨-, rfl⟩ := Prod.mk.inj (Option.some.inj h)
    rfl

theorem u16_rest {x : UInt16} (h : u16 buf = some (x, rest)) : rest = buf.drop 2 := by
  obtain ⟨front, behind, read, last⟩ := bind_eq_some.mp h
  rw [← (pure_eq_some.mp last).2, (bytes_eq read).2]

theorem u32_eq {x : UInt32} (h : u32 buf = some (x, rest)) :
    x = readU32 buf 0 ∧ rest = buf.drop 4 := by
  obtain ⟨front, behind, read, last⟩ := bind_eq_some.mp h
  obtain ⟨rfl, rfl⟩ := bytes_eq read
  obtain ⟨rfl, rfl⟩ := pure_eq_some.mp last
  exact ⟨rfl, rfl⟩

theorem u64_rest {x : UInt64} (h : u64 buf = some (x, rest)) : rest = buf.drop 8 := by
  obtain ⟨front, behind, read, last⟩ := bind_eq_some.mp h
  rw [← (pure_eq_some.mp last).2, (bytes_eq read).2]

end

/-! ### A field in front of the rest -/

section
variable {β : Type} {buf : Bytes} {y : β × Bytes}

theorem bytes_bind {count : Nat} {f : Bytes → Reader β} :
    (bytes count >>= f) buf = some y ↔
      count ≤ buf.length ∧ f (slice buf 0 count) (buf.drop count) = some y := by
  rw [bind_eq_some]
  constructor
  · rintro ⟨x, rest, read, last⟩
    obtain ⟨rfl, rfl⟩ := bytes_eq read
    unfold bytes at read
    split at read
    · cases read
    next enough => exact ⟨Nat.le_of_not_lt enough, last⟩
  · rintro ⟨enough, last⟩
    exact ⟨_, _, if_neg (Nat.not_lt.mpr enough), last⟩

theorem u8_bind {f : UInt8 → Reader β} :
    (u8 >>= f) buf = some y ↔ 1 ≤ buf.length ∧ f (buf.getD 0 0) (buf.drop 1) = some y := by
  rw [bind_eq_some]
  cases buf with
  | nil => simp [u8]
  | cons b rest => simp [u8]

theorem u16_bind {f : UInt16 → Reader β} :
    (u16 >>= f) buf = some y ↔ 2 ≤ buf.length ∧ f (readU16 buf 0) (buf.drop 2) = some y := by
  rw [u16, bind_assoc, bytes_bind]
  simp only [pure_bind]
  rfl

theorem u32_bind {f : UInt32 → Reader β} :
    (u32 >>= f) buf = some y ↔ 4 ≤ buf.length ∧ f (readU32 buf 0) (buf.drop 4) = some y := by
  rw [u32, bind_assoc, bytes_bind]
  simp only [pure_bind]
  rfl

theorem u64_bind {f : UInt64 → Reader β} :
    (u64 >>= f) buf = some y ↔ 8 ≤ buf.length ∧ f (readU64 buf 0) (buf.drop 8) = some y := by
  rw [u64, bind_assoc, bytes_bind]
  simp only [pure_bind]
  rfl

end

/-! ### Reading back what was written -/

/-- Raw bytes are read back from in front of anything. -/
theorem bytes_append (front rest : Bytes) : bytes front.length (front ++ rest) = some (front, rest) := by
  have enough : ¬(front ++ rest).length < front.length := by
    rw [List.length_append]
    omega
  rw [bytes, if_neg enough, List.take_left', List.drop_left'] <;> rfl

theorem u16_append (x : UInt16) (rest : Bytes) : u16 (u16le x ++ rest) = some (x, rest) := by
  have front := bytes_append (u16le x) rest
  rw [length_u16le] at front
  simp only [u16, bind, StateT.bind, front, pure_apply, Option.bind_some, u16OfLe_u16le]

theorem u32_append (x : UInt32) (rest : Bytes) : u32 (u32le x ++ rest) = some (x, rest) := by
  have front := bytes_append (u32le x) rest
  rw [length_u32le] at front
  simp only [u32, bind, StateT.bind, front, pure_apply, Option.bind_some, u32OfLe_u32le]

theorem u64_append (x : UInt64) (rest : Bytes) : u64 (u64le x ++ rest) = some (x, rest) := by
  have front := bytes_append (u64le x) rest
  rw [length_u64le] at front
  simp only [u64, bind, StateT.bind, front, pure_apply, Option.bind_some, u64OfLe_u64le]

/-! ### A written field in front of the rest -/

section
variable {β : Type}

theorem bytes_bind_append {count : Nat} (f : Bytes → Reader β) (front rest : Bytes)
    (long : front.length = count) : (bytes count >>= f) (front ++ rest) = f front rest := by
  subst long
  simp only [bind, StateT.bind, bytes_append, Option.bind_some]

theorem u8_bind_cons (f : UInt8 → Reader β) (x : UInt8) (rest : Bytes) :
    (u8 >>= f) (x :: rest) = f x rest := rfl

theorem u16_bind_append (f : UInt16 → Reader β) (x : UInt16) (rest : Bytes) :
    (u16 >>= f) (u16le x ++ rest) = f x rest := by
  simp only [bind, StateT.bind, u16_append, Option.bind_some]

theorem u32_bind_append (f : UInt32 → Reader β) (x : UInt32) (rest : Bytes) :
    (u32 >>= f) (u32le x ++ rest) = f x rest := by
  simp only [bind, StateT.bind, u32_append, Option.bind_some]

theorem u64_bind_append (f : UInt64 → Reader β) (x : UInt64) (rest : Bytes) :
    (u64 >>= f) (u64le x ++ rest) = f x rest := by
  simp only [bind, StateT.bind, u64_append, Option.bind_some]

end

end Reader

end SmbServer
