import Mathlib.Algebra.BigOperators.Group.Finset.Basic
import Mathlib.Algebra.BigOperators.Ring.Finset
import Mathlib.Order.Interval.Finset.Nat

/-!
# SmbServer.Lib.Ranges

Ranges of positions in a buffer, and how far they share its bytes.

The bytes that ranges of a buffer claim together are at most the bytes that it has, exactly when
the positions that are claimed again are made up for by positions that nobody claims
(`total_le_iff`). Ranges without a common position claim none again (`overlap_eq_zero`).
-/

namespace Lib

/-- `length` positions from `start` on. -/
structure Range where
  start : Nat
  length : Nat

namespace Range

def Covers (r : Range) (i : Nat) : Prop := r.start ≤ i ∧ i < r.start + r.length

instance (r : Range) (i : Nat) : Decidable (r.Covers i) := inferInstanceAs (Decidable (_ ∧ _))

/-- No position is in both. -/
def Disjoint (r s : Range) : Prop := ∀ i, r.Covers i → ¬s.Covers i

/-- The range is empty or ends within the first `n` positions. -/
def Within (r : Range) (n : Nat) : Prop := r.length = 0 ∨ r.start + r.length ≤ n

/-- The ranges that a position is in. -/
def depth (rs : List Range) (i : Nat) : Nat := rs.countP fun r => decide (r.Covers i)

def total (rs : List Range) : Nat := (rs.map Range.length).sum

/-- How often positions below `n` are claimed again. -/
def overlap (rs : List Range) (n : Nat) : Nat := ∑ i ∈ Finset.range n, (depth rs i - 1)

/-- The positions below `n` in no range. -/
def unused (rs : List Range) (n : Nat) : Nat :=
  ((Finset.range n).filter fun i => depth rs i = 0).card

theorem disjoint_of_le {r s : Range} (before : r.start + r.length ≤ s.start) : r.Disjoint s := by
  intro i inside
  have low := inside.2
  exact fun other => absurd other.1 (by omega)

theorem Disjoint.symm {r s : Range} (apart : r.Disjoint s) : s.Disjoint r :=
  fun i inside other => apart i other inside

theorem disjoint_of_empty {r : Range} (empty : r.length = 0) (s : Range) : r.Disjoint s := by
  intro i inside
  have low := inside.1
  have high := inside.2
  omega

/-- A range has as many positions as it is long. -/
theorem sum_covers {r : Range} {n : Nat} (within : r.Within n) :
    ∑ i ∈ Finset.range n, (if r.Covers i then 1 else 0) = r.length := by
  have same : (Finset.range n).filter r.Covers = Finset.Ico r.start (r.start + r.length) := by
    ext i
    rw [Finset.mem_filter, Finset.mem_range, Finset.mem_Ico]
    constructor
    · rintro ⟨-, covers⟩
      exact covers
    · intro covers
      rcases within with empty | ends
      · omega
      · exact ⟨by omega, covers⟩
  rw [← Finset.card_filter, same, Nat.card_Ico, Nat.add_sub_cancel_left]

theorem depth_cons (r : Range) (rs : List Range) (i : Nat) :
    depth (r :: rs) i = depth rs i + if r.Covers i then 1 else 0 := by
  rw [depth, List.countP_cons]
  simp only [decide_eq_true_eq]
  rfl

/-- Counting the ranges position by position. -/
theorem sum_depth (rs : List Range) {n : Nat} (within : ∀ r ∈ rs, r.Within n) :
    ∑ i ∈ Finset.range n, depth rs i = total rs := by
  induction rs with
  | nil => exact Finset.sum_eq_zero fun i _ => rfl
  | cons r rest ih =>
    have later := ih fun s member => within s (List.mem_cons_of_mem r member)
    have first := sum_covers (within r List.mem_cons_self)
    simp only [depth_cons]
    rw [Finset.sum_add_distrib, later, first, Nat.add_comm]
    rfl

theorem total_append (rs ss : List Range) : total (rs ++ ss) = total rs + total ss := by
  rw [total, List.map_append, List.sum_append]
  rfl

/-- Every position is in some range or in none, and those in several are claimed again. -/
theorem total_add_unused (rs : List Range) {n : Nat} (within : ∀ r ∈ rs, r.Within n) :
    total rs + unused rs n = n + overlap rs n := by
  have pointwise (i : Nat) : depth rs i + (if depth rs i = 0 then 1 else 0) =
      1 + (depth rs i - 1) := by
    split <;> omega
  calc total rs + unused rs n
      = ∑ i ∈ Finset.range n, (depth rs i + if depth rs i = 0 then 1 else 0) := by
        rw [← sum_depth rs within, unused, Finset.card_filter, Finset.sum_add_distrib]
    _ = ∑ i ∈ Finset.range n, (1 + (depth rs i - 1)) :=
        Finset.sum_congr rfl fun i _ => pointwise i
    _ = n + overlap rs n := by
        rw [Finset.sum_add_distrib, ← Finset.card_eq_sum_ones, Finset.card_range]
        rfl

theorem total_le_iff (rs : List Range) {n : Nat} (within : ∀ r ∈ rs, r.Within n) :
    total rs ≤ n ↔ overlap rs n ≤ unused rs n := by
  have balance := total_add_unused rs within
  constructor <;> intro bound <;> omega

/-- A position is in at most one of ranges that are disjoint. -/
theorem depth_le_one {rs : List Range} (apart : rs.Pairwise Disjoint) (i : Nat) :
    depth rs i ≤ 1 := by
  induction rs with
  | nil => exact Nat.zero_le 1
  | cons r rest ih =>
    obtain ⟨first, later⟩ := List.pairwise_cons.mp apart
    rw [depth_cons]
    by_cases covers : r.Covers i
    · -- none of the others has the position
      have none : depth rest i = 0 := by
        rw [depth, List.countP_eq_zero]
        intro s member
        have not := first s member i covers
        simpa using not
      rw [none, if_pos covers]
    · rw [if_neg covers]
      exact ih later

theorem overlap_eq_zero {rs : List Range} (apart : rs.Pairwise Disjoint) (n : Nat) :
    overlap rs n = 0 := by
  apply Finset.sum_eq_zero
  intro i _
  have once := depth_le_one apart i
  omega

end Range

end Lib
