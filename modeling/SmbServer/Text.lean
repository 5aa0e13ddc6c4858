import SmbServer.Lib.Bytes
import Mathlib.Data.List.Basic

/-!
# SmbServer.Text

Strings as lists of characters, the UTF-16 codecs, and the helpers of `utils.rs` on text.

A Rust `str` is a sequence of Unicode scalar values; it is modelled by the list of its characters.
-/

namespace SmbServer

open Lib

abbrev Text := List Char

namespace Text

def toAsciiLowercase (s : Text) : Text := s.map Char.toLower

def eqIgnoreAsciiCase (a b : Text) : Bool := a.toAsciiLowercase == b.toAsciiLowercase

/-- `str::split_once`: the parts before and behind the first `sep`. -/
def splitOnce (sep : Char) : Text → Option (Text × Text)
  | [] => none
  | c :: rest =>
    if c = sep then some ([], rest)
    else (splitOnce sep rest).map fun (before, behind) => (c :: before, behind)

/-- `str::rsplit_once`: the parts before and behind the last `sep`. -/
def rsplitOnce (sep : Char) : Text → Option (Text × Text)
  | [] => none
  | c :: rest =>
    match rsplitOnce sep rest with
    | some (before, behind) => some (c :: before, behind)
    | none => if c = sep then some ([], rest) else none

/-- `str::trim_end_matches` for a set of characters. -/
def trimEndMatches (p : Char → Bool) (s : Text) : Text := (s.reverse.dropWhile p).reverse

end Text

/-! ### UTF-16 -/

/-- `str::encode_utf16`. -/
def encodeUtf16 : Text → List UInt16
  | [] => []
  | c :: rest =>
    let n := c.toNat
    if n < 0x10000 then UInt16.ofNat n :: encodeUtf16 rest
    else
      UInt16.ofNat (0xD800 + (n - 0x10000) / 0x400) ::
        UInt16.ofNat (0xDC00 + (n - 0x10000) % 0x400) :: encodeUtf16 rest

def isHighSurrogate (u : UInt16) : Bool := 0xD800 ≤ u && u < 0xDC00

def isLowSurrogate (u : UInt16) : Bool := 0xDC00 ≤ u && u < 0xE000

/-- The scalar value of a surrogate pair. -/
def surrogatePair (high low : UInt16) : Char :=
  Char.ofNat (0x10000 + (high.toNat - 0xD800) * 0x400 + (low.toNat - 0xDC00))

/-- `String::from_utf16`: `none` on an unpaired surrogate. -/
def fromUtf16 : List UInt16 → Option Text
  | [] => some []
  | u :: rest =>
    if isHighSurrogate u then
      match rest with
      | low :: rest' =>
        if isLowSurrogate low then (fromUtf16 rest').map (surrogatePair u low :: ·) else none
      | [] => none
    else if isLowSurrogate u then none
    else (fromUtf16 rest).map (Char.ofNat u.toNat :: ·)

/-- `String::from_utf16_lossy`: an unpaired surrogate becomes U+FFFD. -/
def fromUtf16Lossy : List UInt16 → Text
  | [] => []
  | u :: rest =>
    if isHighSurrogate u then
      match rest with
      | low :: rest' =>
        if isLowSurrogate low then surrogatePair u low :: fromUtf16Lossy rest'
        else '\uFFFD' :: fromUtf16Lossy (low :: rest')
      | [] => ['\uFFFD']
    else if isLowSurrogate u then '\uFFFD' :: fromUtf16Lossy rest
    else Char.ofNat u.toNat :: fromUtf16Lossy rest

/-- The little-endian 16-bit units of a buffer; an odd last byte is dropped (`chunks_exact(2)`). -/
def utf16Units : Bytes → List UInt16
  | lo :: hi :: rest => u16OfLe [lo, hi] :: utf16Units rest
  | _ => []

def utf16le (s : Text) : Bytes := (encodeUtf16 s).flatMap u16le

/-- Empty for a buffer of odd length; U+FFFD for bad surrogates. -/
def utf16leToString (b : Bytes) : Text :=
  if b.length % 2 ≠ 0 then [] else fromUtf16Lossy (utf16Units b)

def utf16leToUnits (b : Bytes) : Option (List UInt16) :=
  if b.length % 2 ≠ 0 then none else some (utf16Units b)

/-- A character lies outside the surrogates and below U+110000. -/
theorem char_ranges (c : Char) : c.toNat < 0xD800 ∨ 0xE000 ≤ c.toNat ∧ c.toNat < 0x110000 := by
  have valid := c.valid
  simp only [UInt32.isValidChar, Nat.isValidChar] at valid
  change c.toNat < 0xD800 ∨ 0xDFFF < c.toNat ∧ c.toNat < 0x110000 at valid
  omega

private theorem toNat_unit (n : Nat) (small : n < 0x10000) : (UInt16.ofNat n).toNat = n := by
  rw [UInt16.toNat_ofNat', Nat.mod_eq_of_lt small]

theorem isHighSurrogate_ofNat (n : Nat) (small : n < 0x10000) :
    isHighSurrogate (UInt16.ofNat n) = decide (0xD800 ≤ n ∧ n < 0xDC00) := by
  have value := toNat_unit n small
  simp only [isHighSurrogate, UInt16.le_iff_toNat_le, UInt16.lt_iff_toNat_lt, value, Bool.decide_and]
  rfl

theorem isLowSurrogate_ofNat (n : Nat) (small : n < 0x10000) :
    isLowSurrogate (UInt16.ofNat n) = decide (0xDC00 ≤ n ∧ n < 0xE000) := by
  have value := toNat_unit n small
  simp only [isLowSurrogate, UInt16.le_iff_toNat_le, UInt16.lt_iff_toNat_lt, value, Bool.decide_and]
  rfl

/-- A unit that is no surrogate stands for itself. -/
theorem fromUtf16Lossy_unit (u : UInt16) (rest : List UInt16) (high : isHighSurrogate u = false)
    (low : isLowSurrogate u = false) :
    fromUtf16Lossy (u :: rest) = Char.ofNat u.toNat :: fromUtf16Lossy rest := by
  rw [fromUtf16Lossy.eq_def]
  simp only [high, low, Bool.false_eq_true, if_false]

theorem fromUtf16Lossy_pair (u low : UInt16) (rest : List UInt16) (first : isHighSurrogate u = true)
    (second : isLowSurrogate low = true) :
    fromUtf16Lossy (u :: low :: rest) = surrogatePair u low :: fromUtf16Lossy rest := by
  rw [fromUtf16Lossy.eq_def]
  simp only [first, second, if_true]

/-- Decoding gives back what was encoded. -/
theorem fromUtf16Lossy_encodeUtf16 (s : Text) : fromUtf16Lossy (encodeUtf16 s) = s := by
  induction s with
  | nil => rfl
  | cons c rest ih =>
    have range := char_ranges c
    rw [encodeUtf16]
    split
    next small =>
      have high : isHighSurrogate (UInt16.ofNat c.toNat) = false := by
        rw [isHighSurrogate_ofNat _ small, decide_eq_false_iff_not]
        omega
      have low : isLowSurrogate (UInt16.ofNat c.toNat) = false := by
        rw [isLowSurrogate_ofNat _ small, decide_eq_false_iff_not]
        omega
      rw [fromUtf16Lossy_unit _ _ high low, toNat_unit _ small, ih, Char.ofNat_toNat]
    next large =>
      -- a character behind the first plane takes a pair
      have first : 0xD800 + (c.toNat - 0x10000) / 0x400 < 0xDC00 := by omega
      have second : 0xDC00 + (c.toNat - 0x10000) % 0x400 < 0xE000 := by omega
      have high : isHighSurrogate (UInt16.ofNat (0xD800 + (c.toNat - 0x10000) / 0x400)) = true := by
        rw [isHighSurrogate_ofNat _ (by omega), decide_eq_true_iff]
        omega
      have low : isLowSurrogate (UInt16.ofNat (0xDC00 + (c.toNat - 0x10000) % 0x400)) = true := by
        rw [isLowSurrogate_ofNat _ (by omega), decide_eq_true_iff]
        omega
      rw [fromUtf16Lossy_pair _ _ _ high low, ih, surrogatePair, toNat_unit _ (by omega),
        toNat_unit _ (by omega)]
      have value : 0x10000 + (0xD800 + (c.toNat - 0x10000) / 0x400 - 0xD800) * 0x400 +
          (0xDC00 + (c.toNat - 0x10000) % 0x400 - 0xDC00) = c.toNat := by omega
      rw [value, Char.ofNat_toNat]

@[simp] theorem utf16Units_flatMap (units : List UInt16) :
    utf16Units (units.flatMap u16le) = units := by
  induction units with
  | nil => rfl
  | cons u rest ih =>
    have bytes : u16le u = [UInt8.ofNat (u.toNat % 256), UInt8.ofNat (u.toNat / 256 % 256)] := rfl
    rw [List.flatMap_cons, bytes, List.cons_append, List.cons_append, List.nil_append, utf16Units,
      ih, ← bytes, u16OfLe_u16le]

/-- A string is read back from its UTF-16LE bytes. -/
theorem fromUtf16Lossy_utf16le (s : Text) : fromUtf16Lossy (utf16Units (utf16le s)) = s := by
  rw [utf16le, utf16Units_flatMap, fromUtf16Lossy_encodeUtf16]

/-- UTF-16LE takes two bytes for a unit. -/
theorem length_utf16le (s : Text) : (utf16le s).length = 2 * (encodeUtf16 s).length := by
  rw [utf16le]
  induction encodeUtf16 s with
  | nil => rfl
  | cons u rest ih =>
    rw [List.flatMap_cons, List.length_append, ih, length_u16le, List.length_cons]
    omega

/-! ### Wildcards -/

/-- The loop of `dos_pattern_matches_inner`. The indices of the source are the lengths already
consumed; here the remaining suffixes are kept, and `star` holds the suffixes to resume from. -/
def dosPatternLoop (fuel : Nat) (pattern name : Text) (star : Option (Text × Text)) : Bool :=
  match fuel with
  | 0 => false
  | fuel + 1 =>
    match name with
    | [] => pattern.all (· == '*')
    | n :: name' =>
      match pattern with
      | p :: pattern' =>
        if p == '?' || p.toLower == n.toLower then dosPatternLoop fuel pattern' name' star
        else if p == '*' then dosPatternLoop fuel pattern' name (some (pattern', name))
        else
          match star with
          | some (afterStar, _ :: starName) =>
            dosPatternLoop fuel afterStar starName (some (afterStar, starName))
          | _ => false
      | [] =>
        match star with
        | some (afterStar, _ :: starName) =>
          dosPatternLoop fuel afterStar starName (some (afterStar, starName))
        | _ => false

/-- Rounds enough for the loop: every backtrack moves the star's name position one further, and
between two backtracks each round consumes a pattern character. -/
def dosPatternFuel (pattern name : Text) : Nat :=
  (name.length + 1) * (pattern.length + name.length + 2)

def dosPatternMatchesInner (pattern name : Text) : Bool :=
  dosPatternLoop (dosPatternFuel pattern name) pattern name none

def dosPatternMatches (pattern name : Text) : Bool :=
  pattern.isEmpty || pattern == ['*'] || pattern == ['*', '.', '*'] ||
    dosPatternMatchesInner pattern name

end SmbServer
