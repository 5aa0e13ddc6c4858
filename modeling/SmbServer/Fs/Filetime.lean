import SmbServer.Fs.Handle
import SmbServer.Lib.Checked

/-!
# SmbServer.Fs.Filetime

The conversions between FILETIME and `SystemTime` in the arithmetic of the machine
(`fs/local.rs`, and the same function in `utils.rs`).

A `SystemTime` of a Unix host is a signed 64-bit number of seconds and a number of nanoseconds. The
conversion to FILETIME multiplies and adds in 64 bits: `toFiletime` is the build that checks for
overflow, `toFiletimeWrapping` the one that does not. The model of the handles converts nanoseconds
(`systemTimeToFiletime`), which `systemTimeToFiletime_sinceEpoch` shows to be the second.
-/

namespace SmbServer

open Lib

/-- `std::time::SystemTime`: a `timespec` with 0 to 999999999 nanoseconds. -/
structure UnixTime where
  secs : Int64
  nanos : UInt32
  subsecond : nanos.toNat < 1000000000

namespace UnixTime

/-- The time in nanoseconds since 1970, by which times are ordered. -/
def sinceEpoch (t : UnixTime) : Int := t.secs.toInt * 1000000000 + t.nanos.toNat

/-- `std::time::Duration`, as far as it is read here. -/
structure Duration where
  asSecs : UInt64
  subsecNanos : UInt32

/-- `t.duration_since(UNIX_EPOCH)`: an error for a time before. -/
def durationSinceEpoch (t : UnixTime) : Option Duration :=
  if t.secs.toInt < 0 then none else some ⟨UInt64.ofNat t.secs.toInt.toNat, t.nanos⟩

/-- `system_time_to_filetime` with overflow checks. -/
def toFiletime (t : UnixTime) : Checked Nat :=
  t.durationSinceEpoch.elim (.done 0) fun d => do
    let ticks ← Checked.mul .w64 10000000 d.asSecs.toNat
    let sum ← Checked.add .w64 filetimeOffset ticks
    Checked.add .w64 sum (d.subsecNanos.toNat / 100)

/-- `system_time_to_filetime` without: every result is taken modulo 2^64. -/
def toFiletimeWrapping (t : UnixTime) : UInt64 :=
  t.durationSinceEpoch.elim 0 fun d =>
    UInt64.ofNat filetimeOffset + d.asSecs * 10000000 + UInt64.ofNat (d.subsecNanos.toNat / 100)

/-- `UNIX_EPOCH.checked_add(d)`, which fails for seconds above `i64::MAX`. -/
def epochCheckedAdd (d : Duration) : Option UnixTime :=
  if within : d.asSecs.toNat < 2 ^ 63 ∧ d.subsecNanos.toNat < 1000000000 then
    some ⟨Int64.ofNat d.asSecs.toNat, d.subsecNanos, within.2⟩
  else none

/-- `filetime_to_system_time`. -/
def ofFiletime (ft : UInt64) : Option UnixTime :=
  if ft.toNat < filetimeOffset then none
  else
    epochCheckedAdd ⟨UInt64.ofNat ((ft.toNat - filetimeOffset) / 10000000),
      UInt32.ofNat ((ft.toNat - filetimeOffset) % 10000000 * 100)⟩

/-! ### In nanoseconds -/

theorem secs_lt (t : UnixTime) : t.secs.toInt < 2 ^ 63 := t.secs.toInt_lt

/-- A time from 1970 on. -/
theorem sinceEpoch_toNat {t : UnixTime} (later : 0 ≤ t.secs.toInt) :
    t.sinceEpoch.toNat = t.secs.toInt.toNat * 1000000000 + t.nanos.toNat := by
  rw [sinceEpoch]
  omega

theorem sinceEpoch_nonneg_iff (t : UnixTime) : 0 ≤ t.sinceEpoch ↔ 0 ≤ t.secs.toInt := by
  have subsecond := t.subsecond
  rw [sinceEpoch]
  omega

/-- The number of 100-nanosecond intervals since 1970. -/
theorem ticks_eq {t : UnixTime} (later : 0 ≤ t.secs.toInt) :
    t.sinceEpoch.toNat / 100 = t.secs.toInt.toNat * 10000000 + t.nanos.toNat / 100 := by
  rw [sinceEpoch_toNat later]
  omega

/-- The model of the handles converts as a build without overflow checks does. -/
theorem systemTimeToFiletime_sinceEpoch (t : UnixTime) :
    systemTimeToFiletime t.sinceEpoch = t.toFiletimeWrapping := by
  rw [systemTimeToFiletime, toFiletimeWrapping, durationSinceEpoch]
  by_cases before : t.secs.toInt < 0
  · have negative : ¬0 ≤ t.sinceEpoch := by rw [sinceEpoch_nonneg_iff]; omega
    rw [if_neg negative, if_pos before, Option.elim_none]
  · have later : 0 ≤ t.secs.toInt := by omega
    rw [if_pos (t.sinceEpoch_nonneg_iff.mpr later), if_neg before, ticks_eq later,
      Option.elim_some, UInt64.ofNat_add, UInt64.ofNat_add, UInt64.ofNat_mul, ← UInt64.add_assoc]
    rfl

theorem epochCheckedAdd_of_lt {secs : UInt64} {nanos : UInt32} (secsFit : secs.toNat < 2 ^ 63)
    (nanosFit : nanos.toNat < 1000000000) :
    ∃ t, epochCheckedAdd ⟨secs, nanos⟩ = some t ∧ t.secs.toInt = secs.toNat ∧
      t.nanos.toNat = nanos.toNat := by
  rw [epochCheckedAdd, dif_pos ⟨secsFit, nanosFit⟩]
  exact ⟨_, rfl, Int64.toInt_ofNat_of_lt secsFit, rfl⟩

/-- A FILETIME from 1970 on is a time. -/
theorem ofFiletime_of_le {ft : UInt64} (later : filetimeOffset ≤ ft.toNat) :
    ∃ t, ofFiletime ft = some t ∧
      t.secs.toInt = ((ft.toNat - filetimeOffset) / 10000000 : Nat) ∧
      t.nanos.toNat = (ft.toNat - filetimeOffset) % 10000000 * 100 := by
  have bound := ft.toNat_lt
  have notBefore : ¬ft.toNat < filetimeOffset := Nat.not_lt.mpr later
  rw [ofFiletime, if_neg notBefore]
  have secs : (UInt64.ofNat ((ft.toNat - filetimeOffset) / 10000000)).toNat =
      (ft.toNat - filetimeOffset) / 10000000 := by
    rw [UInt64.toNat_ofNat']
    exact Nat.mod_eq_of_lt (by omega)
  have nanos : (UInt32.ofNat ((ft.toNat - filetimeOffset) % 10000000 * 100)).toNat =
      (ft.toNat - filetimeOffset) % 10000000 * 100 := by
    rw [UInt32.toNat_ofNat']
    exact Nat.mod_eq_of_lt (by omega)
  have secsFit : (ft.toNat - filetimeOffset) / 10000000 < 2 ^ 63 := by omega
  have nanosFit : (ft.toNat - filetimeOffset) % 10000000 * 100 < 1000000000 := by omega
  obtain ⟨t, added, secs', nanos'⟩ := epochCheckedAdd_of_lt (secs.trans_lt secsFit)
    (nanos.trans_lt nanosFit)
  exact ⟨t, added, secs'.trans (congrArg Nat.cast secs), nanos'.trans nanos⟩

/-- The two models of `filetime_to_system_time`. -/
theorem filetimeToSystemTime_eq (ft : UInt64) :
    filetimeToSystemTime ft = (ofFiletime ft).map sinceEpoch := by
  rw [filetimeToSystemTime]
  by_cases before : ft.toNat < filetimeOffset
  · rw [if_pos before, ofFiletime, if_pos before, Option.map_none]
  · obtain ⟨t, given, secs, nanos⟩ := ofFiletime_of_le (Nat.not_lt.mp before)
    have same : t.sinceEpoch = ((ft.toNat - filetimeOffset) * 100 : Nat) := by
      rw [sinceEpoch, secs, nanos]
      omega
    rw [if_neg before, given, Option.map_some, same]

end UnixTime

end SmbServer
