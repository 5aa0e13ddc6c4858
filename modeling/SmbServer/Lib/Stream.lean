import SmbServer.Lib.Bytes

/-!
# SmbServer.Lib.Stream

A finite byte stream that arrives in pieces, and a reader that waits for a number of bytes.

A read returns what has arrived, as far as there is room, and nothing only at the end. Every way of
cutting a stream into reads is a list of non-empty pieces. What `readExact` returns and leaves
depends on the bytes only (`readExact_of_le`, `readExact_of_lt`).
-/

namespace Lib

/-- The pieces in which a stream arrives. -/
abbrev Source := List { piece : Bytes // piece ≠ [] }

namespace Source

def bytes (s : Source) : Bytes := (s.map Subtype.val).flatten

/-- One read into a buffer with room for `room` bytes, and what is left to be read. -/
def read (room : Nat) : Source → Bytes × Source
  | [] => ([], [])
  | piece :: rest =>
    if more : room < piece.val.length then
      (piece.val.take room,
        ⟨piece.val.drop room, by rw [Ne, List.drop_eq_nil_iff]; omega⟩ :: rest)
    else (piece.val, rest)

/-- Reads until `n` bytes are there, at most `rounds` of them; `none` when the stream ends before.
No bytes need no read. -/
def readRounds : Nat → Nat → Source → Option (Bytes × Source)
  | 0, n, s => if n = 0 then some ([], s) else none
  | rounds + 1, n, s =>
    if n = 0 then some ([], s)
    else
      let got := (s.read n).1
      if got.isEmpty then none
      else (readRounds rounds (n - got.length) (s.read n).2).map fun (more, left) =>
        (got ++ more, left)

/-- Every read but the last takes a whole piece. -/
def readExact (n : Nat) (s : Source) : Option (Bytes × Source) := readRounds (s.length + 1) n s

@[simp] theorem bytes_nil : bytes [] = [] := rfl

@[simp] theorem bytes_cons (piece : { piece : Bytes // piece ≠ [] }) (rest : Source) :
    bytes (piece :: rest) = piece.val ++ bytes rest := by
  rw [bytes, List.map_cons, List.flatten_cons]
  rfl

theorem readRounds_of_le {n : Nat} {s : Source} (enough : n ≤ s.bytes.length) (rounds : Nat)
    (last : s.length < rounds) :
    ∃ left, readRounds rounds n s = some (s.bytes.take n, left) ∧
      left.bytes = s.bytes.drop n := by
  induction rounds generalizing n s with
  | zero => exact absurd last (Nat.not_lt_zero _)
  | succ rounds ih =>
    rw [readRounds]
    by_cases none : n = 0
    · subst none
      exact ⟨s, by rw [if_pos rfl, List.take_zero], by rw [List.drop_zero]⟩
    rw [if_neg none]
    cases s with
    | nil => exact absurd enough (by rw [bytes_nil, List.length_nil]; omega)
    | cons piece rest =>
      rw [bytes_cons, List.length_append] at enough
      by_cases more : n < piece.val.length
      · -- the piece is longer than what is missing
        have got : (read n (piece :: rest)).1 = piece.val.take n := by rw [read, dif_pos more]
        have left : (read n (piece :: rest)).2.bytes = piece.val.drop n ++ bytes rest := by
          rw [read, dif_pos more, bytes_cons]
        have some : (piece.val.take n).isEmpty = false := by
          rw [List.isEmpty_eq_false_iff, ← List.length_pos_iff, List.length_take]
          omega
        have size : n - (piece.val.take n).length = 0 := by
          rw [List.length_take]
          omega
        have done (s : Source) : readRounds rounds 0 s = Option.some ([], s) := by
          cases rounds <;> rw [readRounds, if_pos rfl]
        refine ⟨(read n (piece :: rest)).2, ?_, ?_⟩
        · simp only [got, some, Bool.false_eq_true, if_false, size, done, Option.map_some,
            List.append_nil, bytes_cons]
          rw [List.take_append_of_le_length (by omega)]
        · rw [left, bytes_cons, List.drop_append_of_le_length (by omega)]
      · -- the whole piece is read
        have got : (read n (piece :: rest)).1 = piece.val := by rw [read, dif_neg more]
        have left : (read n (piece :: rest)).2 = rest := by rw [read, dif_neg more]
        have some : piece.val.isEmpty = false := List.isEmpty_eq_false_iff.mpr piece.property
        obtain ⟨behind, rounded, left'⟩ := ih (n := n - piece.val.length) (s := rest) (by omega)
          (by rw [List.length_cons] at last; omega)
        refine ⟨behind, ?_, ?_⟩
        · simp only [got, left, some, Bool.false_eq_true, if_false, rounded, Option.map_some,
            bytes_cons]
          rw [List.take_append, List.take_of_length_le (l := piece.val) (by omega)]
        · rw [left', bytes_cons, List.drop_append, List.drop_of_length_le (l := piece.val) (by omega),
            List.nil_append]

theorem readRounds_of_lt {n : Nat} {s : Source} (short : s.bytes.length < n) (rounds : Nat) :
    readRounds rounds n s = none := by
  induction rounds generalizing n s with
  | zero => rw [readRounds, if_neg (by omega)]
  | succ rounds ih =>
    rw [readRounds, if_neg (by omega)]
    cases s with
    | nil => rfl
    | cons piece rest =>
      rw [bytes_cons, List.length_append] at short
      have whole : ¬n < piece.val.length := by omega
      have got : (read n (piece :: rest)).1 = piece.val := by rw [read, dif_neg whole]
      have left : (read n (piece :: rest)).2 = rest := by rw [read, dif_neg whole]
      have some : piece.val.isEmpty = false := List.isEmpty_eq_false_iff.mpr piece.property
      simp only [got, left, some, Bool.false_eq_true, if_false]
      rw [ih (by omega), Option.map_none]

/-- Enough bytes are returned and taken off the stream, however they arrive. -/
theorem readExact_of_le {n : Nat} {s : Source} (enough : n ≤ s.bytes.length) :
    ∃ left, readExact n s = some (s.bytes.take n, left) ∧ left.bytes = s.bytes.drop n :=
  readRounds_of_le enough _ (Nat.lt_succ_self _)

/-- A stream that ends before is not enough. -/
theorem readExact_of_lt {n : Nat} {s : Source} (short : s.bytes.length < n) :
    readExact n s = none :=
  readRounds_of_lt short _

end Source

end Lib
