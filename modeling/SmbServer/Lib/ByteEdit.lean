import SmbServer.Lib.PosixLaws

/-!
# SmbServer.Lib.ByteEdit

Edits of byte strings: a write at an offset, and a new length.

What a list of edits leaves is said in two ways. `applyAll` makes one edit after the other;
`latest` looks each byte up in the latest edit that covers it. They agree (`applyAll_eq_latest`).
A store has many byte strings, each with a name, and its history is a list of named edits.
-/

namespace Lib

inductive ByteEdit where
  | write (offset : Nat) (data : Bytes)
  | resize (len : Nat)

namespace ByteEdit

def apply (bytes : Bytes) : ByteEdit → Bytes
  | .write offset data => Fs.overwrite bytes offset data
  | .resize len => bytes.take len ++ List.replicate (len - bytes.length) 0

/-- The edits from the first one on. -/
def applyAll (bytes : Bytes) (edits : List ByteEdit) : Bytes := edits.foldl apply bytes

@[simp] theorem applyAll_nil (bytes : Bytes) : applyAll bytes [] = bytes := rfl

theorem applyAll_concat (bytes : Bytes) (edits : List ByteEdit) (e : ByteEdit) :
    applyAll bytes (edits ++ [e]) = apply (applyAll bytes edits) e := by
  simp [applyAll]

/-! ### The latest edit -/

/-- The length that the edits leave, given from the latest one on. -/
def sizeAfter (initial : Bytes) : List ByteEdit → Nat
  | [] => initial.length
  | .write offset data :: earlier =>
    if data = [] then sizeAfter initial earlier
    else max (sizeAfter initial earlier) (offset + data.length)
  | .resize len :: _ => len

/-- The byte at a position: the one that the latest write across it has put there, unless it has
been cut off since. -/
def byteAfter (initial : Bytes) (i : Nat) : List ByteEdit → UInt8
  | [] => initial.getD i 0
  | .write offset data :: earlier =>
    if offset ≤ i ∧ i < offset + data.length then data.getD (i - offset) 0
    else byteAfter initial i earlier
  | .resize len :: earlier => if len ≤ i then 0 else byteAfter initial i earlier

/-- What is there after the edits, byte by byte. -/
def latest (initial : Bytes) (edits : List ByteEdit) : Bytes :=
  (List.range (sizeAfter initial edits.reverse)).map fun i => byteAfter initial i edits.reverse

theorem length_apply_write (bytes : Bytes) (offset : Nat) (data : Bytes) :
    (apply bytes (.write offset data)).length =
      if data = [] then bytes.length else max bytes.length (offset + data.length) := by
  rw [apply, Fs.overwrite]
  split
  · rfl
  · simp only [List.length_append, List.length_take, List.length_replicate, List.length_drop]
    omega

theorem getD_apply_write (bytes : Bytes) (offset : Nat) (data : Bytes) (i : Nat) :
    (apply bytes (.write offset data)).getD i 0 =
      if offset ≤ i ∧ i < offset + data.length then data.getD (i - offset) 0
      else bytes.getD i 0 := by
  split
  next inside =>
    have some : data ≠ [] := by
      rintro rfl
      simp at inside
      omega
    -- the data follow a front that is as long as the offset
    have front :
        (bytes.take offset ++ List.replicate (offset - bytes.length) 0).length = offset := by
      simp only [List.length_append, List.length_take, List.length_replicate]
      omega
    rw [apply, Fs.overwrite, if_neg some, List.append_assoc, List.getD_eq_getElem?_getD,
      List.getElem?_append_right (by omega), front, List.getElem?_append_left (by omega),
      List.getD_eq_getElem?_getD]
  next outside => exact Fs.getD_overwrite_of_outside (by omega)

theorem length_apply_resize (bytes : Bytes) (len : Nat) :
    (apply bytes (.resize len)).length = len := by
  simp only [apply, List.length_append, List.length_take, List.length_replicate]
  omega

theorem getD_apply_resize (bytes : Bytes) (len i : Nat) :
    (apply bytes (.resize len)).getD i 0 = if len ≤ i then 0 else bytes.getD i 0 := by
  split
  next behind =>
    rw [List.getD_eq_getElem?_getD, List.getElem?_eq_none]
    · rfl
    · rw [length_apply_resize]
      exact behind
  next inside =>
    rw [apply, List.getD_eq_getElem?_getD, List.getD_eq_getElem?_getD]
    by_cases old : i < bytes.length
    · rw [List.getElem?_append_left (by simp; omega), List.getElem?_take_of_lt (by omega)]
    · rw [List.getElem?_append_right (by simp; omega), List.getElem?_replicate,
        List.getElem?_eq_none (l := bytes) (by omega)]
      split <;> rfl

theorem length_applyAll (initial : Bytes) (edits : List ByteEdit) :
    (applyAll initial edits).length = sizeAfter initial edits.reverse := by
  induction edits using List.reverseRecOn with
  | nil => rfl
  | append_singleton edits e ih =>
    rw [applyAll_concat, List.reverse_concat]
    cases e with
    | write offset data => rw [length_apply_write, sizeAfter, ih]
    | resize len => rw [length_apply_resize, sizeAfter]

theorem getD_applyAll (initial : Bytes) (edits : List ByteEdit) (i : Nat) :
    (applyAll initial edits).getD i 0 = byteAfter initial i edits.reverse := by
  induction edits using List.reverseRecOn with
  | nil => rfl
  | append_singleton edits e ih =>
    rw [applyAll_concat, List.reverse_concat]
    cases e with
    | write offset data => rw [getD_apply_write, byteAfter, ih]
    | resize len => rw [getD_apply_resize, byteAfter, ih]

/-- Making the edits one after the other leaves the latest byte everywhere. -/
theorem applyAll_eq_latest (initial : Bytes) (edits : List ByteEdit) :
    applyAll initial edits = latest initial edits := by
  apply List.ext_getElem
  · rw [length_applyAll, latest, List.length_map, List.length_range]
  · intro i inside _
    have here := getD_applyAll initial edits i
    rw [List.getD_eq_getElem?_getD, List.getElem?_eq_getElem inside] at here
    simp only [latest, List.getElem_map, List.getElem_range]
    exact here

end ByteEdit

/-! ### Many byte strings -/

section
variable {ο : Type} [DecidableEq ο]

/-- The edits of one byte string. -/
def editsOf (o : ο) (history : List (ο × ByteEdit)) : List ByteEdit :=
  history.filterMap fun change => if change.1 = o then some change.2 else none

/-- A store after a change, or after none. -/
def changed (bytes : ο → Bytes) : Option (ο × ByteEdit) → ο → Bytes
  | none => bytes
  | some (o, e) => Function.update bytes o (e.apply (bytes o))

theorem changed_apply (bytes : ο → Bytes) (change : Option (ο × ByteEdit)) (o : ο) :
    changed bytes change o = ByteEdit.applyAll (bytes o) (editsOf o change.toList) := by
  cases change with
  | none => rfl
  | some change =>
    obtain ⟨p, e⟩ := change
    by_cases same : p = o
    · subst same
      simp [changed, editsOf, ByteEdit.applyAll]
    · simp [changed, editsOf, same, Function.update_of_ne (Ne.symm same)]

theorem applyAll_editsOf_append (bytes : Bytes) (o : ο) (before behind : List (ο × ByteEdit)) :
    ByteEdit.applyAll bytes (editsOf o (before ++ behind)) =
      ByteEdit.applyAll (ByteEdit.applyAll bytes (editsOf o before)) (editsOf o behind) := by
  rw [editsOf, List.filterMap_append, ByteEdit.applyAll, List.foldl_append]
  rfl

end

end Lib
