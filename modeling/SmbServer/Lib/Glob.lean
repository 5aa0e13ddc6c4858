import Mathlib.Data.List.Basic

/-!
# SmbServer.Lib.Glob

Patterns with wildcards, and which lists they match. A wildcard for many stands for any number of
elements; everything else stands for one.
-/

namespace Lib

/-- A part of a pattern. -/
inductive Wild (α : Type) where
  | lit (a : α)
  | one
  | many
  deriving DecidableEq

namespace Wild

variable {α : Type}

/-- The part stands for the one element `a`. -/
def Fits (same : α → α → Prop) (a : α) : Wild α → Prop
  | .lit b => same b a
  | .one => True
  | .many => False

/-- The pattern matches the whole list. -/
inductive Matches (same : α → α → Prop) : List (Wild α) → List α → Prop where
  | nil : Matches same [] []
  | cons {w : Wild α} {a : α} {pattern : List (Wild α)} {as : List α} (fits : w.Fits same a)
      (rest : Matches same pattern as) : Matches same (w :: pattern) (a :: as)
  | skip {pattern : List (Wild α)} {as : List α} (rest : Matches same pattern as) :
      Matches same (.many :: pattern) as
  | take {pattern : List (Wild α)} {as : List α} (a : α)
      (rest : Matches same (.many :: pattern) as) : Matches same (.many :: pattern) (a :: as)

variable {same : α → α → Prop} {pattern : List (Wild α)} {as : List α}

theorem matches_nil_iff : Matches same [] as ↔ as = [] := by
  constructor
  · intro m
    cases m
    rfl
  · rintro rfl
    exact .nil

/-- Only wildcards for many match nothing. -/
theorem matches_empty_iff : Matches same pattern [] ↔ ∀ w ∈ pattern, w = .many := by
  induction pattern with
  | nil => simp [matches_nil_iff]
  | cons w rest ih =>
    rw [List.forall_mem_cons, ← ih]
    constructor
    · intro m
      cases m with
      | skip rest => exact ⟨rfl, rest⟩
    · rintro ⟨rfl, m⟩
      exact .skip m

theorem matches_cons_iff {w : Wild α} {a : α} (single : w ≠ .many) :
    Matches same (w :: pattern) (a :: as) ↔ w.Fits same a ∧ Matches same pattern as := by
  constructor
  · intro m
    cases m with
    | cons fits rest => exact ⟨fits, rest⟩
    | skip | take => exact absurd rfl single
  · rintro ⟨fits, rest⟩
    exact .cons fits rest

/-- A wildcard for many stands for the elements in front of some suffix. -/
theorem matches_many_iff :
    Matches same (.many :: pattern) as ↔ ∃ k ≤ as.length, Matches same pattern (as.drop k) := by
  constructor
  · intro m
    generalize here : (.many :: pattern : List (Wild α)) = whole at m
    induction m with
    | nil => cases here
    | cons fits =>
      cases here
      exact absurd fits id
    | skip rest =>
      cases here
      exact ⟨0, Nat.zero_le _, rest⟩
    | take a rest ih =>
      obtain ⟨k, bound, found⟩ := ih here
      exact ⟨k + 1, Nat.succ_le_succ bound, found⟩
  · rintro ⟨k, bound, found⟩
    induction k generalizing as with
    | zero => exact .skip found
    | succ k ih =>
      cases as with
      | nil => exact absurd bound (by simp)
      | cons a as => exact .take a (ih (Nat.le_of_succ_le_succ bound) found)

/-- Parts for one element each use up as many elements as there are parts. -/
theorem Matches.drop {front : List (Wild α)} (single : .many ∉ front)
    (m : Matches same (front ++ pattern) as) :
    front.length ≤ as.length ∧ Matches same pattern (as.drop front.length) := by
  induction front generalizing as with
  | nil => exact ⟨Nat.zero_le _, m⟩
  | cons w front ih =>
    rw [List.mem_cons, not_or] at single
    cases m with
    | cons fits rest =>
      obtain ⟨bound, found⟩ := ih single.2 rest
      exact ⟨Nat.succ_le_succ bound, found⟩
    | skip | take => exact absurd rfl single.1

end Wild

end Lib
