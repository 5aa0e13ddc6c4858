import SmbServer.Panics.Ntlm
import SmbServer.Properties.ReservedName
import SmbServer.Properties.WildcardSound

/-!
# SmbServer.Panics.Path

Paths and wildcard patterns with their panics: the bytes of a device name, and the indices of the
matching loop.
-/

namespace SmbServer.Panicking

open Lib Risky

/-! ### Device names -/

/-- `s.as_bytes()` -/
def asBytes (s : Text) : Bytes := s.flatMap String.utf8EncodeChar

theorem asBytes_injective : Function.Injective asBytes := by
  intro s t same
  have encoded : s.utf8Encode = t.utf8Encode := congrArg List.toByteArray same
  have texts : String.ofList s = String.ofList t := String.toByteArray_inj.mp encoded
  simpa using congrArg String.toList texts

/-- `matches_com_or_lpt`, which compares bytes. -/
def matchesComOrLpt (s : Text) : Risky Bool :=
  let bytes := asBytes s
  if bytes.length ≠ 4 then return false
  else do
    let front ← rangeTo bytes 3
    let last ← index bytes 3
    if last < 0x31 ∨ 0x39 < last then return false
    else return front == [0x43, 0x4F, 0x4D] || front == [0x4C, 0x50, 0x54]

/-- The bytes of the device names that end in the digit `last`. -/
def deviceBytes (last : UInt8) : List Bytes :=
  [[0x43, 0x4F, 0x4D, last], [0x4C, 0x50, 0x54, last]]

def digitBytes : List UInt8 := [0x31, 0x32, 0x33, 0x34, 0x35, 0x36, 0x37, 0x38, 0x39]

theorem mem_digitBytes {b : UInt8} (low : 0x31 ≤ b) (high : b ≤ 0x39) : b ∈ digitBytes := by
  have low : 49 ≤ b.toNat := low
  have high : b.toNat ≤ 57 := high
  have all : ∀ k < 9, UInt8.ofNat (49 + k) ∈ digitBytes := by decide
  have digit := all (b.toNat - 49) (by omega)
  rwa [Nat.add_sub_cancel' low, UInt8.ofNat_toNat] at digit

/-- Bytes are compared to the same effect as characters. -/
theorem matchesComOrLpt_of_bytes {s : Text} (named : asBytes s ∈ digitBytes.flatMap deviceBytes) :
    SmbServer.matchesComOrLpt s = true := by
  have texts : ∀ bytes ∈ digitBytes.flatMap deviceBytes,
      ∃ t : Text, asBytes t = bytes ∧ SmbServer.matchesComOrLpt t = true := by
    intro bytes member
    have listed : ∀ bytes ∈ digitBytes.flatMap deviceBytes,
        asBytes (bytes.map fun b => Char.ofNat b.toNat) = bytes ∧
          SmbServer.matchesComOrLpt (bytes.map fun b => Char.ofNat b.toNat) = true := by
      decide
    exact ⟨_, listed bytes member⟩
  obtain ⟨t, bytes, device⟩ := texts _ named
  rw [← asBytes_injective bytes]
  exact device

theorem bytes_of_matchesComOrLpt {s : Text} (device : SmbServer.matchesComOrLpt s = true) :
    asBytes s ∈ digitBytes.flatMap deviceBytes := by
  have listed : ∀ t ∈ ['1', '2', '3', '4', '5', '6', '7', '8', '9'].flatMap comOrLpt,
      asBytes t ∈ digitBytes.flatMap deviceBytes := by
    decide
  exact listed s (matchesComOrLpt_iff.mp device)

theorem matchesComOrLpt_eq (s : Text) :
    matchesComOrLpt s = .ok (SmbServer.matchesComOrLpt s) := by
  rw [matchesComOrLpt]
  cases device : SmbServer.matchesComOrLpt s with
  | true =>
    have listed := bytes_of_matchesComOrLpt device
    generalize asBytes s = bytes at listed
    revert bytes
    decide
  | false =>
    have unlisted : asBytes s ∉ digitBytes.flatMap deviceBytes := by
      intro named
      rw [matchesComOrLpt_of_bytes named] at device
      cases device
    by_cases long : (asBytes s).length ≠ 4
    · rw [if_pos long]
      rfl
    obtain ⟨a, b, c, d, shape⟩ := List.length_eq_four.mp (not_not.mp long)
    have front : rangeTo [a, b, c, d] 3 = .ok [a, b, c] := rfl
    have last : index [a, b, c, d] 3 = .ok d := rfl
    rw [if_neg long]
    rw [shape] at unlisted ⊢
    rw [front, ok_bind, last, ok_bind]
    by_cases other : d < 0x31 ∨ 0x39 < d
    · rw [if_pos other]
      rfl
    · obtain ⟨low, high⟩ := not_or.mp other
      have digit := mem_digitBytes (UInt8.not_lt.mp low) (UInt8.not_lt.mp high)
      rw [if_neg other, pure_eq]
      congr 1
      rw [Bool.or_eq_false_iff, beq_eq_false_iff_ne, beq_eq_false_iff_ne]
      refine ⟨fun com => unlisted ?_, fun lpt => unlisted ?_⟩
      · cases com
        exact List.mem_flatMap.mpr ⟨d, digit, List.mem_cons_self⟩
      · cases lpt
        exact List.mem_flatMap.mpr ⟨d, digit, List.mem_cons_of_mem _ List.mem_cons_self⟩

/-! ### Paths -/

def isReservedDosName (s : Text) : Risky Bool :=
  let stem := match s.rsplitOnce '.' with
    | some (stem, _) => stem
    | none => s
  let upper := stem.map Char.toUpper
  if upper == ['C', 'O', 'N'] || upper == ['P', 'R', 'N'] || upper == ['A', 'U', 'X'] ||
      upper == ['N', 'U', 'L'] then return true
  else matchesComOrLpt upper

/-- One component in front of the last. -/
def parseComponent (raw : Text) : Risky (SmbResult (Option Text)) :=
  if raw.isEmpty then return .error .nameInvalid
  else if raw = ['.'] then return .ok none
  else if raw = ['.', '.'] then return .error .nameInvalid
  else do
    if ← isReservedDosName raw then return .error .nameInvalid
    else return .ok (some raw)

def parseParents : List Text → Risky (SmbResult (List Text))
  | [] => return .ok []
  | raw :: rest => do
    match ← parseComponent raw with
    | .error e => return .error e
    | .ok here =>
      match ← parseParents rest with
      | .error e => return .error e
      | .ok behind => return .ok (here.toList ++ behind)

namespace SmbPath

/-- `parse_components` -/
def parseComponents (s : Text) : Risky (SmbResult SmbPath) :=
  let trimmed := match s with
    | c :: rest => if isSeparator c then rest else s
    | [] => s
  if trimmed.isEmpty then return .ok SmbPath.root
  else if trimmed.any isForbiddenChar then return .error .nameInvalid
  else
    let parts := splitSeparators trimmed
    let rawParts := parts.dropLast
    let last := parts.getLastD []
    if rawParts.any (·.contains ':') then return .error .nameInvalid
    else
      match splitStreamSelector last with
      | .error e => return .error e
      | .ok (lastName, stream) => do
        match ← parseParents rawParts with
        | .error e => return .error e
        | .ok parents =>
          if lastName.isEmpty then return .error .nameInvalid
          else if lastName = ['.'] then
            if stream.isSome then return .error .nameInvalid else return .ok ⟨parents, none⟩
          else if lastName = ['.', '.'] then return .error .nameInvalid
          else if ← isReservedDosName lastName then return .error .nameInvalid
          else return .ok ⟨parents ++ [lastName], stream⟩

def fromUtf16 (units : List UInt16) : Risky (SmbResult SmbPath) :=
  match SmbServer.fromUtf16 units with
  | some s => parseComponents s
  | none => return .error .nameInvalid

end SmbPath

theorem isReservedDosName_eq (s : Text) :
    isReservedDosName s = .ok (SmbServer.isReservedDosName s) := by
  rw [isReservedDosName, SmbServer.isReservedDosName]
  simp only [matchesComOrLpt_eq]
  generalize List.map Char.toUpper _ = upper
  cases upper == ['C', 'O', 'N'] || upper == ['P', 'R', 'N'] || upper == ['A', 'U', 'X'] ||
    upper == ['N', 'U', 'L'] <;> rfl

theorem parseComponent_eq (raw : Text) :
    parseComponent raw = .ok (SmbServer.parseComponent raw) := by
  rw [parseComponent, SmbServer.parseComponent, isReservedDosName_eq]
  simp only [ok_bind, pure_eq]
  split
  · rfl
  split
  · rfl
  split
  · rfl
  split <;> rfl

theorem parseParents_eq (parts : List Text) :
    parseParents parts = .ok (SmbServer.parseParents parts) := by
  induction parts with
  | nil => rfl
  | cons raw rest ih =>
    rw [parseParents, SmbServer.parseParents, parseComponent_eq, ok_bind]
    cases SmbServer.parseComponent raw with
    | error e => rfl
    | ok here =>
      simp only [ih, ok_bind]
      cases SmbServer.parseParents rest <;> rfl

theorem SmbPath.parseComponents_eq (s : Text) :
    SmbPath.parseComponents s = .ok (SmbServer.SmbPath.parseComponents s) := by
  cases s with
  | nil => rfl
  | cons c rest =>
    rw [SmbPath.parseComponents.eq_def, SmbServer.SmbPath.parseComponents.eq_def]
    simp only [parseParents_eq, isReservedDosName_eq, ok_bind]
    generalize (if isSeparator c then rest else c :: rest) = trimmed
    split
    · rfl
    split
    · rfl
    split
    · rfl
    cases splitStreamSelector ((splitSeparators trimmed).getLastD []) with
    | error e => rfl
    | ok parts =>
      obtain ⟨lastName, stream⟩ := parts
      cases SmbServer.parseParents (splitSeparators trimmed).dropLast with
      | error e => rfl
      | ok parents =>
        simp only [bind, Except.bind]
        split
        · rfl
        split
        · split <;> rfl
        split
        · rfl
        split <;> rfl

theorem SmbPath.fromUtf16_eq (units : List UInt16) :
    fromUtf16 units = .ok (SmbServer.SmbPath.fromUtf16 units) := by
  rw [fromUtf16, SmbServer.SmbPath.fromUtf16]
  cases SmbServer.fromUtf16 units with
  | none => rfl
  | some s => exact parseComponents_eq s

/-! ### Wildcards -/

/-- One round of `while name_index < name.len()`. -/
def dosPatternRound (pattern name : Text) (s : DosPatternState) :
    Risky (DosPatternState ⊕ Bool) := do
  if name.length ≤ s.nameIndex then return .inr (← onlyStars s.patternIndex)
  else if ← fits then
    return .inl { s with patternIndex := s.patternIndex + 1, nameIndex := s.nameIndex + 1 }
  else if ← isStar s.patternIndex then
    return .inl { s with
      patternIndex := s.patternIndex + 1
      star := some (s.patternIndex + 1, s.nameIndex) }
  else return SmbServer.dosPatternRound.goBack s.star
where
  fits : Risky Bool :=
    if s.patternIndex < pattern.length then do
      if (← index pattern s.patternIndex) == '?' then return true
      else
        return (← index pattern s.patternIndex).toLower == (← index name s.nameIndex).toLower
    else return false
  isStar (patternIndex : Nat) : Risky Bool :=
    if patternIndex < pattern.length then do
      return (← index pattern patternIndex) == '*'
    else return false
  /-- The loop behind the loop, and its comparison with the length. -/
  onlyStars (patternIndex : Nat) : Risky Bool := do
    if h : patternIndex < pattern.length then
      if ← isStar patternIndex then onlyStars (patternIndex + 1) else return false
    else return patternIndex == pattern.length
  termination_by pattern.length - patternIndex

theorem dosPatternRound.onlyStars_eq (pattern : Text) {patternIndex : Nat} (inside : patternIndex ≤ pattern.length) :
    onlyStars pattern patternIndex = .ok ((pattern.drop patternIndex).all (· == '*')) := by
  induction patternIndex using onlyStars.induct pattern with
  | case1 patternIndex more ih =>
    have more' : patternIndex + 1 ≤ pattern.length := more
    rw [onlyStars, dif_pos more, isStar, if_pos more, index_of_lt more, ok_bind, pure_eq, ok_bind,
      List.drop_eq_getElem_cons more, List.all_cons]
    cases pattern[patternIndex] == '*' with
    | true => exact ih more'
    | false => rfl
  | case2 patternIndex ended =>
    have ended' : pattern.length ≤ patternIndex := Nat.le_of_not_lt ended
    rw [onlyStars, dif_neg ended, List.drop_eq_nil_of_le ended', Nat.le_antisymm inside ended',
      beq_self_eq_true]
    rfl

theorem dosPatternRound_eq (pattern name : Text) (s : DosPatternState)
    (within : WithinTexts pattern name s) :
    dosPatternRound pattern name s = .ok (SmbServer.dosPatternRound pattern name s) := by
  rw [dosPatternRound, SmbServer.dosPatternRound]
  by_cases ended : name.length ≤ s.nameIndex
  · rw [if_pos ended, dosPatternRound.onlyStars_eq pattern within.patternIndex,
      List.getElem?_eq_none ended]
    rfl
  have letter : s.nameIndex < name.length := Nat.lt_of_not_le ended
  rw [if_neg ended, List.getElem?_eq_getElem letter]
  by_cases part : s.patternIndex < pattern.length
  · rw [dosPatternRound.fits, dosPatternRound.isStar, if_pos part, if_pos part, index_of_lt part,
      index_of_lt letter, List.getElem?_eq_getElem part]
    simp only [ok_bind]
    cases pattern[s.patternIndex] == '?' with
    | true => rfl
    | false =>
      cases pattern[s.patternIndex].toLower == name[s.nameIndex].toLower with
      | true => rfl
      | false => cases pattern[s.patternIndex] == '*' <;> rfl
  · rw [dosPatternRound.fits, dosPatternRound.isStar, if_neg part, if_neg part,
      List.getElem?_eq_none (Nat.le_of_not_lt part)]
    rfl

def dosPatternRun (pattern name : Text) : Nat → DosPatternState → Risky Bool
  | 0, _ => return false
  | rounds + 1, s => do
    match ← dosPatternRound pattern name s with
    | .inl next => dosPatternRun pattern name rounds next
    | .inr found => return found

def dosPatternMatches (pattern name : Text) : Risky Bool :=
  if pattern.isEmpty || pattern == ['*'] || pattern == ['*', '.', '*'] then return true
  else dosPatternRun pattern name (dosPatternFuel pattern name) ⟨0, 0, none⟩

theorem dosPatternRun_eq (pattern name : Text) (rounds : Nat) (s : DosPatternState)
    (within : WithinTexts pattern name s) :
    dosPatternRun pattern name rounds s =
      .ok ((Loop.run (SmbServer.dosPatternRound pattern name) rounds s).getD false) := by
  induction rounds generalizing s with
  | zero => rfl
  | succ rounds ih =>
    rw [dosPatternRun, dosPatternRound_eq pattern name s within, ok_bind, Loop.run]
    have keeps := fun next => @WithinTexts.round _ _ _ next within
    generalize SmbServer.dosPatternRound pattern name s = round at keeps
    cases round with
    | inl next => exact ih next (keeps next rfl).1
    | inr found => rfl

theorem dosPatternMatches_eq (pattern name : Text) :
    dosPatternMatches pattern name = .ok (SmbServer.dosPatternMatches pattern name) := by
  have start : WithinTexts pattern name ⟨0, 0, none⟩ := by
    refine ⟨Nat.zero_le _, Nat.zero_le _, ?_⟩
    rintro _ _ ⟨⟩
  have rounds := dosPatternLoop_eq_run pattern name (dosPatternFuel pattern name) _ start
  rw [dosPatternMatches, dosPatternRun_eq pattern name _ _ start, ← rounds,
    SmbServer.dosPatternMatches, dosPatternMatchesInner]
  cases pattern.isEmpty || pattern == ['*'] || pattern == ['*', '.', '*'] <;> rfl

/-! ### Text -/

def utf16leToString (b : Bytes) : Risky Text :=
  if b.length % 2 ≠ 0 then return []
  else do
    let units ← utf16Units b
    return fromUtf16Lossy units

def utf16leToUnits (b : Bytes) : Risky (Option (List UInt16)) :=
  if b.length % 2 ≠ 0 then return none
  else do
    let units ← utf16Units b
    return some units

theorem utf16leToString_eq (b : Bytes) :
    utf16leToString b = .ok (SmbServer.utf16leToString b) := by
  rw [utf16leToString, SmbServer.utf16leToString, utf16Units_eq]
  split <;> rfl

theorem utf16leToUnits_eq (b : Bytes) : utf16leToUnits b = .ok (SmbServer.utf16leToUnits b) := by
  rw [utf16leToUnits, SmbServer.utf16leToUnits, utf16Units_eq]
  split <;> rfl

end SmbServer.Panicking
