import Mathlib.Data.List.Basic
import Mathlib.Data.List.TakeDrop
import Mathlib.Tactic.Ring
import Mathlib.Tactic.NormNum

/-!
# SmbServer.Lib.Bytes

Byte strings, little-endian words and in-place patches.

A buffer is a list of bytes. `leBytes w n` writes the low `w` bytes of a natural number and
`leNat` reads one back; `slice` and `patch` are the two ways a wire format touches a buffer at a
fixed offset. Everything here is about lists of bytes only.
-/

namespace Lib

/-- A byte buffer. -/
abbrev Bytes := List UInt8

/-- A buffer of a fixed length. -/
def ByteVec (n : Nat) := { b : Bytes // b.length = n }

instance (n : Nat) : DecidableEq (ByteVec n) :=
  inferInstanceAs (DecidableEq { b : Bytes // b.length = n })

/-- The all-zero buffer of length `n`. -/
def ByteVec.zero (n : Nat) : ByteVec n :=
  ⟨List.replicate n 0, List.length_replicate⟩

/-- The first `n` bytes of `b`, padded with zeros when `b` is shorter. -/
def ByteVec.ofBytes (n : Nat) (b : Bytes) : ByteVec n :=
  ⟨(b ++ List.replicate n 0).take n, by simp⟩

@[simp] theorem ByteVec.length_val {n : Nat} (v : ByteVec n) : v.val.length = n := v.property

@[simp] theorem ByteVec.ofBytes_val {n : Nat} (b : Bytes) (h : b.length = n) :
    (ByteVec.ofBytes n b).val = b := by
  simp [ByteVec.ofBytes, ← h]

/-! ### Little-endian words -/

/-- The `w` little-endian bytes of `n`; higher bytes are dropped. -/
def leBytes : Nat → Nat → Bytes
  | 0, _ => []
  | w + 1, n => UInt8.ofNat (n % 256) :: leBytes w (n / 256)

/-- The natural number whose little-endian bytes are given. -/
def leNat : Bytes → Nat
  | [] => 0
  | b :: bs => b.toNat + 256 * leNat bs

@[simp] theorem length_leBytes (w n : Nat) : (leBytes w n).length = w := by
  induction w generalizing n with
  | zero => rfl
  | succ w ih => simp only [leBytes, List.length_cons, ih]

theorem leNat_leBytes (w n : Nat) : leNat (leBytes w n) = n % 256 ^ w := by
  induction w generalizing n with
  | zero => simp [leBytes, leNat, Nat.mod_one]
  | succ w ih =>
    have step : n % (256 * 256 ^ w) = n % 256 + 256 * (n / 256 % 256 ^ w) := Nat.mod_mul
    simp only [leBytes, leNat, ih, pow_succ', step, UInt8.toNat_ofNat']
    omega

theorem leNat_lt (b : Bytes) : leNat b < 256 ^ b.length := by
  induction b with
  | nil => simp [leNat]
  | cons x xs ih =>
    have bound : x.toNat < 256 := x.toNat_lt
    rw [leNat, List.length_cons, pow_succ]
    omega

theorem leBytes_leNat (b : Bytes) : leBytes b.length (leNat b) = b := by
  induction b with
  | nil => rfl
  | cons x xs ih =>
    have bound : x.toNat < 256 := x.toNat_lt
    have low : (x.toNat + 256 * leNat xs) % 256 = x.toNat := by omega
    have high : (x.toNat + 256 * leNat xs) / 256 = leNat xs := by omega
    simp only [List.length_cons, leBytes, leNat, low, high, ih, UInt8.ofNat_toNat]

def u16le (x : UInt16) : Bytes := leBytes 2 x.toNat

def u32le (x : UInt32) : Bytes := leBytes 4 x.toNat

def u64le (x : UInt64) : Bytes := leBytes 8 x.toNat

@[simp] theorem length_u16le (x : UInt16) : (u16le x).length = 2 := length_leBytes 2 _

@[simp] theorem length_u32le (x : UInt32) : (u32le x).length = 4 := length_leBytes 4 _

@[simp] theorem length_u64le (x : UInt64) : (u64le x).length = 8 := length_leBytes 8 _

def u16OfLe (b : Bytes) : UInt16 := UInt16.ofNat (leNat b)

def u32OfLe (b : Bytes) : UInt32 := UInt32.ofNat (leNat b)

def u64OfLe (b : Bytes) : UInt64 := UInt64.ofNat (leNat b)

@[simp] theorem u16OfLe_u16le (x : UInt16) : u16OfLe (u16le x) = x := by
  have bound : x.toNat < 256 ^ 2 := x.toNat_lt
  rw [u16OfLe, u16le, leNat_leBytes, Nat.mod_eq_of_lt bound, UInt16.ofNat_toNat]

@[simp] theorem u32OfLe_u32le (x : UInt32) : u32OfLe (u32le x) = x := by
  have bound : x.toNat < 256 ^ 4 := x.toNat_lt
  rw [u32OfLe, u32le, leNat_leBytes, Nat.mod_eq_of_lt bound, UInt32.ofNat_toNat]

@[simp] theorem u64OfLe_u64le (x : UInt64) : u64OfLe (u64le x) = x := by
  have bound : x.toNat < 256 ^ 8 := x.toNat_lt
  rw [u64OfLe, u64le, leNat_leBytes, Nat.mod_eq_of_lt bound, UInt64.ofNat_toNat]

theorem u16le_u16OfLe (b : Bytes) (h : b.length = 2) : u16le (u16OfLe b) = b := by
  have bound : leNat b < 2 ^ 16 := by simpa [h] using leNat_lt b
  rw [u16le, u16OfLe, UInt16.toNat_ofNat', Nat.mod_eq_of_lt bound, ← h, leBytes_leNat]

theorem u32le_u32OfLe (b : Bytes) (h : b.length = 4) : u32le (u32OfLe b) = b := by
  have bound : leNat b < 2 ^ 32 := by simpa [h] using leNat_lt b
  rw [u32le, u32OfLe, UInt32.toNat_ofNat', Nat.mod_eq_of_lt bound, ← h, leBytes_leNat]

theorem u64le_u64OfLe (b : Bytes) (h : b.length = 8) : u64le (u64OfLe b) = b := by
  have bound : leNat b < 2 ^ 64 := by simpa [h] using leNat_lt b
  rw [u64le, u64OfLe, UInt64.toNat_ofNat', Nat.mod_eq_of_lt bound, ← h, leBytes_leNat]

/-! ### Slices and patches -/

/-- `buf[off .. off + len]`, cut short where the buffer ends. -/
def slice (buf : Bytes) (off len : Nat) : Bytes := (buf.drop off).take len

/-- `buf` with the bytes from `off` on replaced by `new`. -/
def patch (buf : Bytes) (off : Nat) (new : Bytes) : Bytes :=
  buf.take off ++ new ++ buf.drop (off + new.length)

theorem length_slice (buf : Bytes) (off len : Nat) (h : off + len ≤ buf.length) :
    (slice buf off len).length = len := by
  simp only [slice, List.length_take, List.length_drop]
  omega

/-- A slice of a front that contains it. -/
theorem slice_take (buf : Bytes) (n off len : Nat) (h : off + len ≤ n) :
    slice (buf.take n) off len = slice buf off len := by
  simp only [slice, List.drop_take, List.take_take]
  congr 1
  omega

theorem length_patch (buf : Bytes) (off : Nat) (new : Bytes) (h : off + new.length ≤ buf.length) :
    (patch buf off new).length = buf.length := by
  simp only [patch, List.length_append, List.length_take, List.length_drop]
  omega

/-- A slice that lies within the first part of a concatenation. -/
theorem slice_append_left (a b : Bytes) (off len : Nat) (h : off + len ≤ a.length) :
    slice (a ++ b) off len = slice a off len := by
  simp only [slice]
  rw [List.drop_append_of_le_length (by omega), List.take_append_of_le_length]
  rw [List.length_drop]
  omega

/-- A slice that starts behind the first part of a concatenation. -/
theorem slice_append_right (a b : Bytes) (off len : Nat) (h : a.length ≤ off) :
    slice (a ++ b) off len = slice b (off - a.length) len := by
  simp only [slice]
  rw [List.drop_append, List.drop_of_length_le h, List.nil_append]

/-- The slice that is exactly the first part of a concatenation. -/
theorem slice_append_exact (a b : Bytes) (len : Nat) (h : a.length = len) :
    slice (a ++ b) 0 len = a := by
  simp only [slice, List.drop_zero, ← h, List.take_left']

/-- The slice that is exactly the middle part of a concatenation. -/
theorem slice_between (before x after : Bytes) (off len : Nat) (front : before.length = off)
    (long : x.length = len) : slice (before ++ (x ++ after)) off len = x := by
  rw [slice_append_right _ _ _ _ (Nat.le_of_eq front), front, Nat.sub_self,
    slice_append_exact _ _ _ long]

@[simp] theorem slice_patch (buf : Bytes) (off : Nat) (new : Bytes)
    (h : off + new.length ≤ buf.length) : slice (patch buf off new) off new.length = new := by
  have len : (buf.take off).length = off := by rw [List.length_take]; omega
  simp only [patch, slice, List.append_assoc]
  rw [List.drop_append, len, List.drop_of_length_le (Nat.le_of_eq len), Nat.sub_self,
    List.drop_zero, List.nil_append, List.take_left']
  rfl

/-- The later of two patches of one place. -/
theorem patch_patch (buf : Bytes) (off : Nat) (old new : Bytes) (same : old.length = new.length)
    (fits : off + new.length ≤ buf.length) : patch (patch buf off old) off new = patch buf off new := by
  have headLen : (buf.take off).length = off := by rw [List.length_take]; omega
  have prefLen : (buf.take off ++ old).length = off + new.length := by
    rw [List.length_append, headLen, same]
  have head : (patch buf off old).take off = buf.take off := by
    rw [patch, List.append_assoc, List.take_left' headLen]
  have tail : (patch buf off old).drop (off + new.length) = buf.drop (off + new.length) := by
    rw [patch, List.drop_left' prefLen, same]
  rw [patch, head, tail, patch]

/-- A patch leaves every slice alone that ends before it or starts behind it. -/
theorem slice_patch_disjoint (buf : Bytes) (off : Nat) (new : Bytes) (at_ len : Nat)
    (fits : off + new.length ≤ buf.length) (apart : at_ + len ≤ off ∨ off + new.length ≤ at_) :
    slice (patch buf off new) at_ len = slice buf at_ len := by
  have headLen : (buf.take off).length = off := by rw [List.length_take]; omega
  have split : buf = buf.take off ++ (buf.drop off) := (List.take_append_drop off buf).symm
  rcases apart with before | behind
  · conv_rhs => rw [split]
    rw [patch, List.append_assoc, slice_append_left _ _ _ _ (by omega),
      slice_append_left _ _ _ _ (by omega)]
  · have prefLen : (buf.take off ++ new).length = off + new.length := by
      rw [List.length_append, headLen]
    rw [patch, slice_append_right _ _ _ _ (by omega), prefLen]
    simp only [slice, List.drop_drop]
    congr 2
    omega

/-- Patching the bytes that are already there changes nothing. -/
theorem patch_slice_self (buf : Bytes) (off len : Nat) (h : off + len ≤ buf.length) :
    patch buf off (slice buf off len) = buf := by
  rw [patch, length_slice _ _ _ h, slice]
  have tail : buf.drop (off + len) = (buf.drop off).drop len := by rw [List.drop_drop]
  rw [tail, List.append_assoc, List.take_append_drop, List.take_append_drop]

/-- A patch that changes nothing writes the bytes that are there. -/
theorem patch_eq_self_iff (buf : Bytes) (off : Nat) (new : Bytes)
    (fits : off + new.length ≤ buf.length) :
    patch buf off new = buf ↔ slice buf off new.length = new := by
  constructor
  · intro same
    rw [← same, slice_patch buf off new fits]
  · intro same
    have kept := patch_slice_self buf off new.length fits
    rwa [same] at kept

/-- A patch within the first part of a concatenation. -/
theorem patch_append_left (a b : Bytes) (off : Nat) (new : Bytes)
    (h : off + new.length ≤ a.length) : patch (a ++ b) off new = patch a off new ++ b := by
  rw [patch, patch, List.take_append_of_le_length (by omega), List.drop_append_of_le_length h,
    ← List.append_assoc]

/-- A patch within the second part of a concatenation. -/
theorem patch_append_right (a b : Bytes) (off : Nat) (new : Bytes) :
    patch (a ++ b) (a.length + off) new = a ++ patch b off new := by
  rw [patch, patch, List.take_length_add_append, Nat.add_assoc, List.drop_length_add_append]
  simp only [List.append_assoc]

/-- What lies in front of a patch. -/
theorem take_patch (buf : Bytes) (off n : Nat) (new : Bytes)
    (fits : n + off + new.length ≤ buf.length) : (patch buf (n + off) new).take n = buf.take n := by
  rw [patch, List.append_assoc, List.take_append_of_le_length, List.take_take]
  · rw [Nat.min_eq_left (Nat.le_add_right n off)]
  · rw [List.length_take]; omega

/-- A patch of the rest. -/
theorem drop_patch (buf : Bytes) (off n : Nat) (new : Bytes)
    (fits : n + off + new.length ≤ buf.length) :
    (patch buf (n + off) new).drop n = patch (buf.drop n) off new := by
  rw [patch, patch, List.append_assoc, List.drop_append_of_le_length, List.drop_take, List.drop_drop,
    Nat.add_sub_cancel_left, ← List.append_assoc, Nat.add_assoc]
  rw [List.length_take]; omega

/-- What lies behind a patch. -/
theorem drop_patch_front (buf : Bytes) (off n : Nat) (new : Bytes)
    (fits : off + new.length ≤ n) (long : n ≤ buf.length) :
    (patch buf off new).drop n = buf.drop n := by
  have front : (buf.take off ++ new).length = off + new.length := by
    rw [List.length_append, List.length_take]
    omega
  rw [patch, List.drop_append, front, List.drop_of_length_le (by omega), List.nil_append,
    List.drop_drop]
  congr 1
  omega

/-- The bytes of a patched buffer. -/
theorem getElem?_patch (buf : Bytes) (off : Nat) (new : Bytes) (i : Nat)
    (fits : off + new.length ≤ buf.length) :
    (patch buf off new)[i]? =
      if off ≤ i ∧ i < off + new.length then new[i - off]? else buf[i]? := by
  have front : (buf.take off).length = off := by rw [List.length_take]; omega
  rw [patch, List.append_assoc, List.getElem?_append, front]
  by_cases before : i < off
  · rw [if_pos before, if_neg (by omega), List.getElem?_take_of_lt before]
  rw [if_neg before, List.getElem?_append]
  by_cases inside : i - off < new.length
  · rw [if_pos inside, if_pos (by omega)]
  · rw [if_neg inside, if_neg (by omega), List.getElem?_drop]
    congr 1
    omega

/-- Patches of separate regions commute. -/
theorem patch_comm (buf : Bytes) (off off' : Nat) (new new' : Bytes)
    (apart : off + new.length ≤ off') (fits : off' + new'.length ≤ buf.length) :
    patch (patch buf off new) off' new' = patch (patch buf off' new') off new := by
  have len : (patch buf off new).length = buf.length := length_patch _ _ _ (by omega)
  have len' : (patch buf off' new').length = buf.length := length_patch _ _ _ fits
  apply List.ext_getElem?
  intro i
  rw [getElem?_patch _ _ _ _ (by omega), getElem?_patch _ _ _ _ (by omega),
    getElem?_patch _ _ _ _ (by omega), getElem?_patch _ _ _ _ (by omega)]
  split
  · rw [if_neg (by omega)]
  · rfl

def readU16 (buf : Bytes) (off : Nat) : UInt16 := u16OfLe (slice buf off 2)

def readU32 (buf : Bytes) (off : Nat) : UInt32 := u32OfLe (slice buf off 4)

def readU64 (buf : Bytes) (off : Nat) : UInt64 := u64OfLe (slice buf off 8)

/-! ### Words between other bytes -/

theorem readU16_at (before after : Bytes) (x : UInt16) (off : Nat) (h : before.length = off) :
    readU16 (before ++ u16le x ++ after) off = x := by
  rw [readU16, List.append_assoc, slice_between _ _ _ off 2 h (length_u16le x), u16OfLe_u16le]

theorem readU32_at (before after : Bytes) (x : UInt32) (off : Nat) (h : before.length = off) :
    readU32 (before ++ u32le x ++ after) off = x := by
  rw [readU32, List.append_assoc, slice_between _ _ _ off 4 h (length_u32le x), u32OfLe_u32le]

theorem readU64_at (before after : Bytes) (x : UInt64) (off : Nat) (h : before.length = off) :
    readU64 (before ++ u64le x ++ after) off = x := by
  rw [readU64, List.append_assoc, slice_between _ _ _ off 8 h (length_u64le x), u64OfLe_u64le]

theorem slice_drop (buf : Bytes) (n off len : Nat) :
    slice (buf.drop n) off len = slice buf (n + off) len := by
  rw [slice, List.drop_drop, slice]

theorem readU16_drop (buf : Bytes) (n off : Nat) :
    readU16 (buf.drop n) off = readU16 buf (n + off) := by
  rw [readU16, slice_drop, readU16]

theorem readU32_drop (buf : Bytes) (n off : Nat) :
    readU32 (buf.drop n) off = readU32 buf (n + off) := by
  rw [readU32, slice_drop, readU32]

theorem readU64_drop (buf : Bytes) (n off : Nat) :
    readU64 (buf.drop n) off = readU64 buf (n + off) := by
  rw [readU64, slice_drop, readU64]

theorem readU32_eq_iff (buf : Bytes) (off : Nat) (x : UInt32) (fits : off + 4 ≤ buf.length) :
    readU32 buf off = x ↔ slice buf off 4 = u32le x := by
  constructor
  · rintro rfl
    exact (u32le_u32OfLe _ (length_slice buf off 4 fits)).symm
  · intro same
    rw [readU32, same, u32OfLe_u32le]

theorem readU64_eq_iff (buf : Bytes) (off : Nat) (x : UInt64) (fits : off + 8 ≤ buf.length) :
    readU64 buf off = x ↔ slice buf off 8 = u64le x := by
  constructor
  · rintro rfl
    exact (u64le_u64OfLe _ (length_slice buf off 8 fits)).symm
  · intro same
    rw [readU64, same, u64OfLe_u64le]

/-- A slice of two adjacent parts. -/
theorem slice_add (buf : Bytes) (off m n : Nat) :
    slice buf off (m + n) = slice buf off m ++ slice buf (off + m) n := by
  simp only [slice, List.take_add, List.drop_drop]

end Lib
