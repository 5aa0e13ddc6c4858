import Mathlib.Init

/-!
# SmbServer.Lib.Stamp

Values that carry a tag over themselves. The tag stands in a slot of the value and is computed with
that slot blank, so that it cannot depend on what stood there before.

`stamp` puts the tag in, `Stamped` says that it is there. Stamping sees a value only up to its slot
(`stamp_congr`), and its fixed points are the stamped values (`stamp_eq_self_iff`).
-/

namespace Lib

/-- A part of a value that can be read and replaced, and that the rest does not depend on. -/
structure Slot (μ ν : Type) where
  get : μ → ν
  put : μ → ν → μ
  get_put (m : μ) (v : ν) : get (put m v) = v
  put_get (m : μ) : put m (get m) = m
  put_put (m : μ) (v w : ν) : put (put m v) w = put m w

namespace Slot

variable {μ ν : Type} (slot : Slot μ ν) {a b : μ}

attribute [simp] get_put put_get put_put

/-! ### Values that differ in the slot only -/

def Agree (a b : μ) : Prop := ∃ v, slot.put a v = b

variable {slot}

theorem Agree.put_eq (agree : slot.Agree a b) (v : ν) : slot.put b v = slot.put a v := by
  obtain ⟨w, rfl⟩ := agree
  exact slot.put_put a w v

theorem agree_put (m : μ) (v : ν) : slot.Agree m (slot.put m v) := ⟨v, rfl⟩

/-! ### Stamps -/

variable (slot) (blank : ν) (tag : μ → ν)

/-- The value with its own tag. -/
def stamp (m : μ) : μ := slot.put m (tag (slot.put m blank))

def Stamped (m : μ) : Prop := slot.get m = tag (slot.put m blank)

variable {slot blank tag}

theorem agree_stamp (m : μ) : slot.Agree m (slot.stamp blank tag m) := agree_put m _

/-- What stands in the slot plays no part. -/
theorem stamp_congr (agree : slot.Agree a b) : slot.stamp blank tag b = slot.stamp blank tag a := by
  rw [stamp, agree.put_eq blank, agree.put_eq, stamp]

theorem stamped_stamp (m : μ) : slot.Stamped blank tag (slot.stamp blank tag m) := by
  rw [Stamped, (agree_stamp m).put_eq blank, stamp, slot.get_put]

theorem stamp_eq_self_iff (m : μ) : slot.stamp blank tag m = m ↔ slot.Stamped blank tag m := by
  constructor
  · intro same
    have stamped : slot.Stamped blank tag (slot.stamp blank tag m) := stamped_stamp m
    rwa [same] at stamped
  · intro stamped
    rw [stamp, ← stamped, slot.put_get]

end Slot

end Lib
