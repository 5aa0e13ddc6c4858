import SmbServer.Lib.Action
import SmbServer.Lib.Bytes

/-!
# SmbServer.Lib.Risky

Computations that may panic.

`Risky α` ends with a value or with the panic that stopped it. The operations are those of slices and
options that are not total, each with the condition under which it is its total counterpart. A parser
that may also reject its input is a `RiskyParser`, an action on a state a `RiskyAction`.

`ofOption r` and `total m` are the computations of both kinds that do not panic. The rules say that
they are closed under sequencing.
-/

namespace Lib

/-- Why a program panics. -/
inductive Panic where
  | index
  | range
  | length
  | unwrap
  deriving DecidableEq, Repr

abbrev Risky := Except Panic

namespace Risky

variable {α β : Type}

/-! ### Slices -/

/-- `xs[i]` -/
def index (xs : List α) (i : Nat) : Risky α :=
  match xs[i]? with
  | some a => .ok a
  | none => .error .index

/-- `xs[start..stop]` -/
def range (xs : List α) (start stop : Nat) : Risky (List α) :=
  if start ≤ stop ∧ stop ≤ xs.length then .ok ((xs.drop start).take (stop - start))
  else .error .range

/-- `xs[start..]` -/
def rangeFrom (xs : List α) (start : Nat) : Risky (List α) := range xs start xs.length

/-- `xs[..stop]` -/
def rangeTo (xs : List α) (stop : Nat) : Risky (List α) := range xs 0 stop

/-- `xs.split_at(mid)` -/
def splitAt (xs : List α) (mid : Nat) : Risky (List α × List α) :=
  if mid ≤ xs.length then .ok (xs.take mid, xs.drop mid) else .error .range

/-- `xs[i] = a` -/
def assign (xs : List α) (i : Nat) (a : α) : Risky (List α) :=
  if i < xs.length then .ok (xs.set i a) else .error .index

/-- `[xs[pos], xs[pos + 1], ..]` with `n` entries. -/
def entries (xs : List α) (pos : Nat) : Nat → Risky (List α)
  | 0 => .ok []
  | n + 1 => do
    let a ← index xs pos
    let rest ← entries xs (pos + 1) n
    return a :: rest

/-- `dst.copy_from_slice(src)` -/
def copyFromSlice (dst src : List α) : Risky (List α) :=
  if dst.length = src.length then .ok src else .error .length

/-- `buf[start..stop].copy_from_slice(src)` -/
def copyInto (buf : Bytes) (start stop : Nat) (src : Bytes) : Risky Bytes := do
  let dst ← range buf start stop
  let copied ← copyFromSlice dst src
  return patch buf start copied

/-- `unwrap` and `expect`. -/
def unwrap : Option α → Risky α
  | some a => .ok a
  | none => .error .unwrap

/-- `b.try_into()` for an array of `n` bytes. -/
def tryInto (n : Nat) (b : Bytes) : Option (ByteVec n) :=
  if h : b.length = n then some ⟨b, h⟩ else none

/-- An array of `n` bytes that is filled from a slice. -/
def filled (n : Nat) (src : Bytes) : Risky (ByteVec n) := do
  let copied ← copyFromSlice (ByteVec.zero n).val src
  unwrap (tryInto n copied)

/-! ### In bounds -/

theorem index_of_getElem? {xs : List α} {i : Nat} {a : α} (found : xs[i]? = some a) :
    index xs i = .ok a := by
  rw [index, found]

theorem index_of_lt {xs : List α} {i : Nat} (inside : i < xs.length) :
    index xs i = .ok xs[i] :=
  index_of_getElem? (List.getElem?_eq_getElem inside)

theorem range_of_le {xs : List α} {start stop : Nat} (ordered : start ≤ stop)
    (inside : stop ≤ xs.length) :
    range xs start stop = .ok ((xs.drop start).take (stop - start)) :=
  if_pos ⟨ordered, inside⟩

/-- The range of `len` bytes from `off` on. -/
theorem range_slice {buf : Bytes} {off len : Nat} (inside : off + len ≤ buf.length) :
    range buf off (off + len) = .ok (slice buf off len) := by
  rw [range_of_le (Nat.le_add_right off len) inside, Nat.add_sub_cancel_left, slice]

theorem rangeFrom_of_le {xs : List α} {start : Nat} (inside : start ≤ xs.length) :
    rangeFrom xs start = .ok (xs.drop start) := by
  have whole : (xs.drop start).take (xs.length - start) = xs.drop start :=
    List.take_of_length_le (Nat.le_of_eq List.length_drop)
  rw [rangeFrom, range_of_le inside (Nat.le_refl _), whole]

theorem rangeTo_of_le {xs : List α} {stop : Nat} (inside : stop ≤ xs.length) :
    rangeTo xs stop = .ok (xs.take stop) :=
  range_of_le (Nat.zero_le _) inside

theorem splitAt_of_le {xs : List α} {mid : Nat} (inside : mid ≤ xs.length) :
    splitAt xs mid = .ok (xs.take mid, xs.drop mid) :=
  if_pos inside

theorem assign_of_lt {xs : List α} {i : Nat} (inside : i < xs.length) (a : α) :
    assign xs i a = .ok (xs.set i a) :=
  if_pos inside

theorem entries_of_le {xs : List α} {pos n : Nat} (inside : pos + n ≤ xs.length) :
    entries xs pos n = .ok ((xs.drop pos).take n) := by
  induction n generalizing pos with
  | zero => rfl
  | succ n ih =>
    have first : pos < xs.length := by omega
    rw [entries, index_of_lt first, ih (by omega), List.drop_eq_getElem_cons first]
    rfl

theorem copyFromSlice_of_length {dst src : List α} (same : dst.length = src.length) :
    copyFromSlice dst src = .ok src :=
  if_pos same

theorem copyInto_patch {buf src : Bytes} {off : Nat} (inside : off + src.length ≤ buf.length) :
    copyInto buf off (off + src.length) src = .ok (patch buf off src) := by
  rw [copyInto, range_slice inside]
  change (copyFromSlice _ src >>= _) = _
  rw [copyFromSlice_of_length (length_slice buf off src.length inside)]
  rfl

/-- What stands behind `front` is overwritten. -/
theorem copyInto_behind {front rest src : Bytes} {start stop : Nat} (here : front.length = start)
    (there : start + src.length = stop) (room : src.length ≤ rest.length) :
    copyInto (front ++ rest) start stop src = .ok (front ++ src ++ rest.drop src.length) := by
  subst here there
  have inside : front.length + src.length ≤ (front ++ rest).length := by
    rw [List.length_append]
    exact Nat.add_le_add_left room _
  rw [copyInto_patch inside, patch, List.take_left, List.drop_length_add_append]

theorem tryInto_of_length {n : Nat} {b : Bytes} (h : b.length = n) : tryInto n b = some ⟨b, h⟩ :=
  dif_pos h

theorem tryInto_val {n : Nat} (v : ByteVec n) : tryInto n v.val = some v :=
  tryInto_of_length v.property

theorem filled_of_length {n : Nat} {src : Bytes} (h : src.length = n) :
    filled n src = .ok (ByteVec.ofBytes n src) := by
  have array : (⟨src, h⟩ : ByteVec n) = ByteVec.ofBytes n src :=
    Subtype.ext (ByteVec.ofBytes_val src h).symm
  rw [filled, copyFromSlice_of_length (by rw [ByteVec.length_val, h])]
  change unwrap (tryInto n src) = _
  rw [tryInto_of_length h, array]
  rfl

/-- What a vector of the right length fills is the vector. -/
theorem filled_val {n : Nat} (v : ByteVec n) : filled n v.val = .ok v := by
  rw [filled_of_length v.property]
  exact congrArg Except.ok (Subtype.ext (ByteVec.ofBytes_val _ v.property))

/-! ### Words -/

/-- `u16::from_le_bytes([buf[pos], buf[pos + 1]])` -/
def u16At (buf : Bytes) (pos : Nat) : Risky UInt16 := do
  let bytes ← entries buf pos 2
  return u16OfLe bytes

/-- `u32::from_le_bytes([buf[pos], ..])` -/
def u32At (buf : Bytes) (pos : Nat) : Risky UInt32 := do
  let bytes ← entries buf pos 4
  return u32OfLe bytes

/-- `u32::from_le_bytes(buf[start..stop].try_into().unwrap())` -/
def u32Of (buf : Bytes) (start stop : Nat) : Risky UInt32 := do
  let bytes ← unwrap (tryInto 4 (← range buf start stop))
  return u32OfLe bytes.val

/-- `u64::from_le_bytes(buf[start..stop].try_into().unwrap())` -/
def u64Of (buf : Bytes) (start stop : Nat) : Risky UInt64 := do
  let bytes ← unwrap (tryInto 8 (← range buf start stop))
  return u64OfLe bytes.val

theorem u16At_of_le {buf : Bytes} {pos : Nat} (inside : pos + 2 ≤ buf.length) :
    u16At buf pos = .ok (readU16 buf pos) := by
  rw [u16At, entries_of_le inside]
  rfl

theorem u32At_of_le {buf : Bytes} {pos : Nat} (inside : pos + 4 ≤ buf.length) :
    u32At buf pos = .ok (readU32 buf pos) := by
  rw [u32At, entries_of_le inside]
  rfl

theorem u32Of_of_le {buf : Bytes} {pos : Nat} (inside : pos + 4 ≤ buf.length) :
    u32Of buf pos (pos + 4) = .ok (readU32 buf pos) := by
  rw [u32Of, range_slice inside]
  change (unwrap (tryInto 4 _) >>= _) = _
  rw [tryInto_of_length (length_slice buf pos 4 inside)]
  rfl

theorem u64Of_of_le {buf : Bytes} {pos : Nat} (inside : pos + 8 ≤ buf.length) :
    u64Of buf pos (pos + 8) = .ok (readU64 buf pos) := by
  rw [u64Of, range_slice inside]
  change (unwrap (tryInto 8 _) >>= _) = _
  rw [tryInto_of_length (length_slice buf pos 8 inside)]
  rfl

@[simp] theorem ok_bind (a : α) (f : α → Risky β) : ((Except.ok a : Risky α) >>= f) = f a := rfl

@[simp] theorem pure_eq (a : α) : (pure a : Risky α) = .ok a := rfl

end Risky

/-! ### Parsers -/

/-- A computation that may panic, and may also reject its input. -/
structure RiskyParser (α : Type) where
  run : Risky (Option α)

namespace RiskyParser

variable {α β : Type}

instance : Monad RiskyParser where
  pure a := ⟨.ok (some a)⟩
  bind p f := ⟨match p.run with
    | .ok (some a) => (f a).run
    | .ok none => .ok none
    | .error panic => .error panic⟩

instance : MonadLift Risky RiskyParser := ⟨fun x => ⟨x.map some⟩⟩

/-- A parser that does not panic. -/
def ofOption (r : Option α) : RiskyParser α := ⟨.ok r⟩

def reject : RiskyParser α := ofOption none

@[simp] theorem run_ofOption (r : Option α) : (ofOption r).run = .ok r := rfl

@[simp] theorem pure_eq (a : α) : (pure a : RiskyParser α) = ofOption (some a) := rfl

@[simp] theorem lift_ok_bind (a : α) (f : α → RiskyParser β) :
    ((liftM (Except.ok a : Risky α) : RiskyParser α) >>= f) = f a := rfl

@[simp] theorem some_bind (a : α) (f : α → RiskyParser β) :
    (ofOption (some a) >>= f) = f a := rfl

/-- Parsers that do not panic, one behind the other. -/
theorem ofOption_bind {r : Option α} {f : α → RiskyParser β} {g : α → Option β}
    (each : ∀ a, r = some a → f a = ofOption (g a)) :
    (ofOption r >>= f) = ofOption (r >>= g) := by
  cases r with
  | none => rfl
  | some a => exact each a rfl

end RiskyParser

/-! ### Actions -/

/-- An action that may panic, and the state it stops in. -/
def RiskyAction (σ α : Type) := σ → Risky α × σ

namespace RiskyAction

variable {σ α β : Type}

instance : Monad (RiskyAction σ) where
  pure a := fun s => (.ok a, s)
  bind m f := fun s =>
    match m s with
    | (.ok a, t) => f a t
    | (.error p, t) => (.error p, t)

/-- The action, which does not panic. -/
def total (m : Action σ α) : RiskyAction σ α := fun s => (.ok (m s).1, (m s).2)

/-- A computation without access to the state. -/
def raise (x : Risky α) : RiskyAction σ α := fun s => (x, s)

instance : MonadLift (Action σ) (RiskyAction σ) := ⟨total⟩

instance : MonadLift Risky (RiskyAction σ) := ⟨raise⟩

@[simp] theorem pure_apply (a : α) (s : σ) : (pure a : RiskyAction σ α) s = (.ok a, s) := rfl

@[simp] theorem liftM_action (m : Action σ α) : (liftM m : RiskyAction σ α) = total m := rfl

@[simp] theorem liftM_risky (x : Risky α) : (liftM x : RiskyAction σ α) = raise x := rfl

@[simp] theorem total_apply (m : Action σ α) (s : σ) : total m s = (.ok (m s).1, (m s).2) := rfl

@[simp] theorem total_pure (a : α) : (total (pure a) : RiskyAction σ α) = pure a := rfl

@[simp] theorem total_bind_apply (m : Action σ α) (f : α → RiskyAction σ β) (s : σ) :
    (total m >>= f) s = f (m s).1 (m s).2 := rfl

@[simp] theorem raise_ok_bind (a : α) (f : α → RiskyAction σ β) :
    ((raise (.ok a) : RiskyAction σ α) >>= f) = f a := rfl

@[simp] theorem pure_bind (a : α) (f : α → RiskyAction σ β) :
    ((pure a : RiskyAction σ α) >>= f) = f a := rfl

/-- Actions that do not panic, one behind the other. -/
theorem total_bind {m : Action σ α} {f : α → RiskyAction σ β} {g : α → Action σ β}
    (each : ∀ a, f a = total (g a)) : (total m >>= f) = total (m >>= g) := by
  funext s
  exact congrFun (each (m s).1) (m s).2

end RiskyAction

end Lib
