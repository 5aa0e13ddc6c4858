import SmbServer.Fs.Filetime

/-!
# SmbServer.Properties.FiletimeRange

The times that survive the conversion to FILETIME.

## Main result

`filetime_conversion`: every FILETIME from 1970 on is a time that is converted back to it; a time is
converted without overflow, and no later than any time before it, exactly when its FILETIME is
below 2^64. `fileInfoFromMetadata_exact` draws the consequence for the times of a file.

## Proof strategy

From 1970 on the conversion is `filetimeOffset` and the 100-nanosecond intervals since then, as long
as no step of it leaves 64 bits, and the last sum is the largest of the steps.
-/

namespace SmbServer

open Lib

namespace UnixTime

/-- The FILETIME of a time from 1970 on, without a bound. -/
def filetime (t : UnixTime) : Nat :=
  filetimeOffset + 10000000 * t.secs.toInt.toNat + t.nanos.toNat / 100

/-- The time is before 1970, or its FILETIME fits 64 bits. -/
def InRange (t : UnixTime) : Prop := t.secs.toInt < 0 ∨ t.filetime < 2 ^ 64

/-- The conversion does not overflow, and no earlier time is converted to a later FILETIME. -/
def Converts (t : UnixTime) : Prop :=
  t.toFiletime ≠ .overflow ∧
    ∀ s : UnixTime, s.sinceEpoch ≤ t.sinceEpoch → s.toFiletimeWrapping ≤ t.toFiletimeWrapping

theorem toFiletime_before {t : UnixTime} (before : t.secs.toInt < 0) :
    t.toFiletime = .done 0 ∧ t.toFiletimeWrapping = 0 := by
  rw [toFiletime, toFiletimeWrapping, durationSinceEpoch, if_pos before]
  exact ⟨rfl, rfl⟩

theorem toNat_secs {t : UnixTime} (later : 0 ≤ t.secs.toInt) :
    (UInt64.ofNat t.secs.toInt.toNat).toNat = t.secs.toInt.toNat := by
  have bound := t.secs_lt
  rw [UInt64.toNat_ofNat']
  exact Nat.mod_eq_of_lt (by omega)

theorem toFiletime_of_lt {t : UnixTime} (later : 0 ≤ t.secs.toInt) (fits : t.filetime < 2 ^ 64) :
    t.toFiletime = .done t.filetime := by
  have notBefore : ¬t.secs.toInt < 0 := by omega
  rw [filetime] at fits ⊢
  rw [toFiletime, durationSinceEpoch, if_neg notBefore, Option.elim_some, toNat_secs later]
  rw [Checked.mul_of_lt (by rw [Width.size_w64]; omega), Checked.done_bind,
    Checked.add_of_lt (by rw [Width.size_w64]; omega), Checked.done_bind,
    Checked.add_of_lt (by rw [Width.size_w64]; omega)]

theorem toFiletime_of_le {t : UnixTime} (later : 0 ≤ t.secs.toInt) (out : 2 ^ 64 ≤ t.filetime) :
    t.toFiletime = .overflow := by
  have notBefore : ¬t.secs.toInt < 0 := by omega
  rw [filetime, ← Width.size_w64] at out
  rw [toFiletime, durationSinceEpoch, if_neg notBefore, Option.elim_some, toNat_secs later]
  -- one of the three steps is the first that does not fit
  by_cases product : 10000000 * t.secs.toInt.toNat < Width.w64.size
  · rw [Checked.mul_of_lt product, Checked.done_bind]
    by_cases sum : filetimeOffset + 10000000 * t.secs.toInt.toNat < Width.w64.size
    · rw [Checked.add_of_lt sum, Checked.done_bind, Checked.add_of_le out]
    · rw [Checked.add_of_le (Nat.not_lt.mp sum), Checked.overflow_bind]
  · rw [Checked.mul_of_le (Nat.not_lt.mp product), Checked.overflow_bind]

theorem toNat_toFiletimeWrapping {t : UnixTime} (later : 0 ≤ t.secs.toInt)
    (fits : t.filetime < 2 ^ 64) : t.toFiletimeWrapping.toNat = t.filetime := by
  have same : filetimeOffset + t.sinceEpoch.toNat / 100 = t.filetime := by
    rw [ticks_eq later, filetime]
    omega
  rw [← systemTimeToFiletime_sinceEpoch, systemTimeToFiletime,
    if_pos (t.sinceEpoch_nonneg_iff.mpr later), UInt64.toNat_ofNat', same]
  exact Nat.mod_eq_of_lt fits

theorem filetime_mono {s t : UnixTime} (first : 0 ≤ s.secs.toInt)
    (order : s.sinceEpoch ≤ t.sinceEpoch) : s.filetime ≤ t.filetime := by
  have nonneg := s.sinceEpoch_nonneg_iff.mpr first
  have later : 0 ≤ t.secs.toInt := t.sinceEpoch_nonneg_iff.mp (by omega)
  have ticks : s.sinceEpoch.toNat / 100 ≤ t.sinceEpoch.toNat / 100 :=
    Nat.div_le_div_right (by omega)
  rw [ticks_eq first, ticks_eq later] at ticks
  rw [filetime, filetime]
  omega

theorem converts_of_before {t : UnixTime} (before : t.secs.toInt < 0) : t.Converts := by
  obtain ⟨done, zero⟩ := toFiletime_before before
  refine ⟨by rw [done]; exact Checked.ofOption_ne_overflow (some 0), fun s order => ?_⟩
  have earlier : s.secs.toInt < 0 := by
    have negative : ¬0 ≤ t.sinceEpoch := by rw [sinceEpoch_nonneg_iff]; omega
    have below : ¬0 ≤ s.sinceEpoch := by omega
    rw [sinceEpoch_nonneg_iff] at below
    omega
  rw [zero, (toFiletime_before earlier).2]
  exact UInt64.le_refl 0

theorem converts_iff (t : UnixTime) : t.Converts ↔ t.InRange := by
  constructor
  · rintro ⟨noOverflow, -⟩
    by_cases before : t.secs.toInt < 0
    · exact .inl before
    · right
      by_contra out
      exact noOverflow (toFiletime_of_le (by omega) (Nat.not_lt.mp out))
  -- a time before 1970 is clamped, a later one must fit
  · rintro (before | fits)
    · exact converts_of_before before
    · by_cases before : t.secs.toInt < 0
      · exact converts_of_before before
      have later : 0 ≤ t.secs.toInt := by omega
      refine ⟨by rw [toFiletime_of_lt later fits]; exact Checked.ofOption_ne_overflow (some _),
        fun s order => ?_⟩
      rw [UInt64.le_iff_toNat_le, toNat_toFiletimeWrapping later fits]
      by_cases first : s.secs.toInt < 0
      · rw [(toFiletime_before first).2]
        exact Nat.zero_le _
      · -- the earlier time is in range because the later one is
        have nonneg : 0 ≤ s.secs.toInt := by omega
        have less := filetime_mono nonneg order
        rw [toNat_toFiletimeWrapping nonneg (less.trans_lt fits)]
        exact less

/-- The time of a FILETIME is converted back to it. -/
theorem toFiletime_ofFiletime {ft : UInt64} (later : filetimeOffset ≤ ft.toNat) :
    ∃ t, ofFiletime ft = some t ∧ t.toFiletime = .done ft.toNat ∧ t.toFiletimeWrapping = ft := by
  obtain ⟨t, given, secs, nanos⟩ := ofFiletime_of_le later
  have bound := ft.toNat_lt
  have nonneg : 0 ≤ t.secs.toInt := by omega
  have same : t.filetime = ft.toNat := by
    rw [filetime, secs, nanos, Int.toNat_natCast]
    omega
  have fits : t.filetime < 2 ^ 64 := by omega
  refine ⟨t, given, ?_, ?_⟩
  · rw [toFiletime_of_lt nonneg fits, same]
  · rw [← UInt64.toNat_inj, toNat_toFiletimeWrapping nonneg fits, same]

/-! ### The times of a file -/

/-- 1970, the time of a file that has none. -/
def epoch : UnixTime := ⟨0, 0, by decide⟩

/-- A conversion that does not overflow, to this FILETIME. -/
def ConvertsTo (t : UnixTime) (ft : UInt64) : Prop := t.toFiletime = .done ft.toNat

theorem convertsTo_of_inRange {t : UnixTime} (inRange : t.InRange) :
    t.ConvertsTo (systemTimeToFiletime t.sinceEpoch) := by
  rw [ConvertsTo, systemTimeToFiletime_sinceEpoch]
  by_cases before : t.secs.toInt < 0
  · obtain ⟨done, zero⟩ := toFiletime_before before
    rw [done, zero]
    rfl
  · have later : 0 ≤ t.secs.toInt := by omega
    have fits := inRange.resolve_left before
    rw [toFiletime_of_lt later fits, toNat_toFiletimeWrapping later fits]

/-- A file whose times are in range is reported with these times, and no conversion overflows. -/
theorem fileInfoFromMetadata_exact (name : Text) (len : UInt64) (isDir : Bool)
    (modified accessed created : Option UnixTime)
    (inRange : ∀ t, modified = some t ∨ accessed = some t ∨ created = some t → t.InRange) :
    ∃ lastWrite lastAccess creation : UnixTime,
      let info := fileInfoFromMetadata name ⟨len, isDir, modified.map sinceEpoch,
        accessed.map sinceEpoch, created.map sinceEpoch⟩
      lastWrite.ConvertsTo info.lastWriteTime ∧ lastWrite.ConvertsTo info.changeTime ∧
        lastAccess.ConvertsTo info.lastAccessTime ∧ creation.ConvertsTo info.creationTime := by
  have epochInRange : epoch.InRange := .inr (by decide)
  have zero : epoch.sinceEpoch = 0 := rfl
  have fallback (o : Option UnixTime) (t : UnixTime) (some : ∀ u, o = some u → u.InRange)
      (other : t.InRange) : (o.getD t).InRange := by
    cases o with
    | none => exact other
    | some u => exact some u rfl
  -- every time that is reported is a time of the file, or 1970
  have lastWrite : (((modified.or created).or accessed).getD epoch).InRange := by
    cases modified with
    | some t => exact inRange t (.inl rfl)
    | none =>
      cases created with
      | some t => exact inRange t (.inr (.inr rfl))
      | none =>
        exact fallback accessed epoch (fun t here => inRange t (.inr (.inl here))) epochInRange
  have lastAccess := fallback accessed _ (fun t here => inRange t (.inr (.inl here))) lastWrite
  have creation := fallback created _ (fun t here => inRange t (.inr (.inr here))) lastWrite
  have modifiedTime : (((modified.map sinceEpoch).or (created.map sinceEpoch)).or
      (accessed.map sinceEpoch)).getD 0 =
      (((modified.or created).or accessed).getD epoch).sinceEpoch := by
    rw [← zero, ← Option.map_or, ← Option.map_or, Option.getD_map]
  refine ⟨((modified.or created).or accessed).getD epoch,
    accessed.getD (((modified.or created).or accessed).getD epoch),
    created.getD (((modified.or created).or accessed).getD epoch), ?_⟩
  simp only [fileInfoFromMetadata, modifiedTime, Option.getD_map]
  exact ⟨convertsTo_of_inRange lastWrite, convertsTo_of_inRange lastWrite,
    convertsTo_of_inRange lastAccess, convertsTo_of_inRange creation⟩

end UnixTime

/-- A FILETIME from 1970 on survives the conversion to a time and back, and a time is converted
without overflow and in order exactly when its FILETIME fits 64 bits. -/
theorem filetime_conversion (ft : UInt64) (t : UnixTime) :
    (filetimeOffset ≤ ft.toNat → ∃ u, UnixTime.ofFiletime ft = some u ∧
        u.toFiletime = .done ft.toNat ∧ u.toFiletimeWrapping = ft) ∧
      (t.Converts ↔ t.InRange) :=
  ⟨fun later => UnixTime.toFiletime_ofFiletime later, t.converts_iff⟩

/-- 1970 is a FILETIME, and its conversion is in range. -/
theorem filetime_conversion_epoch :
    (∃ u, UnixTime.ofFiletime 116444736000000000 = some u ∧
      u.toFiletime = .done 116444736000000000 ∧ u.toFiletimeWrapping = 116444736000000000) ∧
      UnixTime.epoch.Converts :=
  ⟨(filetime_conversion 116444736000000000 UnixTime.epoch).1 (by decide),
    (filetime_conversion 116444736000000000 UnixTime.epoch).2.mpr (.inr (by decide))⟩

/-- The last second that 64 bits of seconds can count. -/
def Sample.lastTime : UnixTime := ⟨0x7FFFFFFFFFFFFFFF, 0, by decide⟩

/-- Its conversion leaves 64 bits. -/
theorem filetime_overflows : ¬∀ t : UnixTime, t.Converts := by
  intro converts
  have overflows : Sample.lastTime.toFiletime = .overflow := by
    apply UnixTime.toFiletime_of_le
    · decide
    · decide
  exact (converts Sample.lastTime).1 overflows

end SmbServer
