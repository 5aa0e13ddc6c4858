import SmbServer.Effects.Path

/-!
# SmbServer.Properties.ReservedName

Device names among the components of an accepted path.

The parser looks at what is in front of the last dot of a name, so a device name with two extensions
passes.

## Main result

`reservedName_rejected_iff`: an accepted text names no device exactly if none of its parts with two
dots or more begins with one.

## Proof strategy

With one dot at most, the parser's stem is the part in front of the first dot. The components are
the parts of the text up to their colons, but `.` (`parseParts_eq_ok_iff`).
-/

namespace SmbServer

open Lib

/-! ### Devices -/

def comOrLpt (digit : Char) : List Text := [['C', 'O', 'M', digit], ['L', 'P', 'T', digit]]

/-- `CON`, `PRN`, `AUX`, `NUL`, `COM1` to `COM9` and `LPT1` to `LPT9`. -/
def deviceNames : List Text :=
  [['C', 'O', 'N'], ['P', 'R', 'N'], ['A', 'U', 'X'], ['N', 'U', 'L']] ++
    ['1', '2', '3', '4', '5', '6', '7', '8', '9'].flatMap comOrLpt

/-- The text is a device name in upper or lower case. -/
def IsDevice (s : Text) : Prop := s.map Char.toUpper ∈ deviceNames

/-- What is in front of the first dot. -/
def firstStem (name : Text) : Text := name.takeWhile (· ≠ '.')

/-- What is in front of the last dot. -/
def lastStem (name : Text) : Text :=
  match name.rsplitOnce '.' with
  | some (stem, _) => stem
  | none => name

theorem digit_iff {d : Char} :
    '1' ≤ d ∧ d ≤ '9' ↔ d ∈ ['1', '2', '3', '4', '5', '6', '7', '8', '9'] := by
  constructor
  · rintro ⟨low, high⟩
    have low : 49 ≤ d.toNat := low
    have high : d.toNat ≤ 57 := high
    have all : ∀ k < 9,
        Char.ofNat (49 + k) ∈ ['1', '2', '3', '4', '5', '6', '7', '8', '9'] := by
      decide
    have digit := all (d.toNat - 49) (by omega)
    rwa [Nat.add_sub_cancel' low, Char.ofNat_toNat] at digit
  · intro listed
    simp only [List.mem_cons, List.not_mem_nil, or_false] at listed
    rcases listed with rfl | rfl | rfl | rfl | rfl | rfl | rfl | rfl | rfl <;> decide

theorem matchesComOrLpt_iff {s : Text} :
    matchesComOrLpt s = true ↔
      s ∈ ['1', '2', '3', '4', '5', '6', '7', '8', '9'].flatMap comOrLpt := by
  rw [List.mem_flatMap]
  constructor
  · intro h
    unfold matchesComOrLpt at h
    split at h
    next a b c d =>
      simp only [Bool.and_eq_true, decide_eq_true_eq, Bool.or_eq_true, beq_iff_eq] at h
      refine ⟨d, digit_iff.mp h.1, ?_⟩
      rcases h.2 with same | same <;> cases same <;> simp [comOrLpt]
    next => cases h
  · rintro ⟨d, digit, named⟩
    have within := digit_iff.mpr digit
    rw [comOrLpt, List.mem_pair] at named
    rcases named with rfl | rfl <;> simp [matchesComOrLpt, within]

/-- The check of the parser, on the stem it takes. -/
theorem isReservedDosName_iff {name : Text} :
    isReservedDosName name = true ↔ IsDevice (lastStem name) := by
  rw [IsDevice, deviceNames, List.mem_append, ← matchesComOrLpt_iff]
  simp only [isReservedDosName, Bool.or_eq_true, beq_iff_eq, List.mem_cons, List.not_mem_nil,
    or_false, or_assoc]
  rfl

/-! ### Stems -/

theorem firstStem_of_notMem {name : Text} (free : '.' ∉ name) : firstStem name = name := by
  apply List.takeWhile_eq_self_iff.mpr
  intro c listed
  simpa using ne_of_mem_of_not_mem listed free

theorem firstStem_append {before behind : Text} (free : '.' ∉ before) :
    firstStem (before ++ '.' :: behind) = before := by
  rw [firstStem, List.takeWhile_append_of_pos]
  · simp
  · intro c listed
    simpa using ne_of_mem_of_not_mem listed free

/-- With one dot at most there is one stem. -/
theorem lastStem_eq_firstStem {name : Text} (single : name.count '.' ≤ 1) :
    lastStem name = firstStem name := by
  unfold lastStem
  split
  next stem extension found =>
    obtain ⟨-, rfl⟩ := Text.rsplitOnce_eq_some found
    have free : '.' ∉ stem := by
      rw [← List.count_eq_zero]
      rw [List.count_append, List.count_cons_self] at single
      omega
    exact (firstStem_append free).symm
  next missing => exact (firstStem_of_notMem (Text.rsplitOnce_eq_none.mp missing)).symm

/-! ### Components -/

/-- The parts of a text between separators, up to their colons. -/
def pieces (s : Text) : List Text := (splitSeparators s).map beforeColon

theorem pieces_ne_nil_of_trim (s : Text) :
    (pieces s).filter (· ≠ []) = (pieces (trimSeparator s)).filter (· ≠ []) := by
  cases s with
  | nil => rfl
  | cons c s =>
    by_cases separator : isSeparator c = true
    · have dropped : trimSeparator (c :: s) = s := by simp [trimSeparator, separator]
      rw [dropped, pieces, splitSeparators, if_pos separator]
      rfl
    · have kept : trimSeparator (c :: s) = c :: s := by simp [trimSeparator, separator]
      rw [kept]

/-- The components are the pieces that are a name. -/
theorem components_eq_pieces {s : Text} {p : SmbPath} (h : SmbPath.parseComponents s = .ok p) :
    p.components = ((pieces s).filter (· ≠ [])).filter (· ≠ ['.']) := by
  rw [pieces_ne_nil_of_trim]
  rw [SmbPath.parseComponents_eq] at h
  split at h
  next empty =>
    cases h
    rw [List.isEmpty_iff.mp empty]
    rfl
  next there =>
    split at h
    next => cases h
    next =>
      obtain ⟨front, name, stream, selector, ok, -, rfl⟩ := SmbPath.parseParts_eq_ok_iff.mp h
      obtain ⟨rfl, -⟩ := splitStreamSelector_eq_ok selector
      -- a name with a colon is accepted at the end of the path only
      have inner : (splitSeparators (trimSeparator s)).dropLast.map beforeColon =
          (splitSeparators (trimSeparator s)).dropLast := by
        have same : ∀ part ∈ (splitSeparators (trimSeparator s)).dropLast,
            beforeColon part = id part :=
          fun part listed => beforeColon_of_notMem (front part listed).1
        rw [List.map_congr_left same, List.map_id]
      have named : pieces (trimSeparator s) = (splitSeparators (trimSeparator s)).dropLast ++
          [beforeColon ((splitSeparators (trimSeparator s)).getLastD [])] := by
        have parts := SmbPath.dropLast_append_getLastD (splitSeparators_ne_nil (trimSeparator s))
        calc pieces (trimSeparator s)
            = ((splitSeparators (trimSeparator s)).dropLast ++
                [(splitSeparators (trimSeparator s)).getLastD []]).map beforeColon := by
              rw [parts, pieces]
          _ = _ := by rw [List.map_append, inner, List.map_singleton]
      -- an accepted piece is not empty, so nothing is filtered out
      have there : (pieces (trimSeparator s)).filter (· ≠ []) = pieces (trimSeparator s) := by
        apply List.filter_eq_self.mpr
        intro piece listed
        rw [decide_eq_true_eq]
        rw [named] at listed
        rcases List.mem_append.mp listed with inside | final
        · exact (front piece inside).2.nonempty
        · rw [List.mem_singleton.mp final]
          exact ok.nonempty
      rw [there, named]

/-- The text is accepted, as such or in UTF-16. -/
def Accepts (s : Text) (p : SmbPath) : Prop :=
  SmbPath.fromStr s = .ok p ∨
    ∃ units, SmbServer.fromUtf16 units = some s ∧ SmbPath.fromUtf16 units = .ok p

theorem Accepts.parsed {s : Text} {p : SmbPath} (h : Accepts s p) :
    SmbPath.parseComponents s = .ok p := by
  rcases h with h | ⟨units, decoded, h⟩
  · exact h
  · obtain ⟨s', decoded', parsed⟩ := SmbPath.fromUtf16_eq_ok h
    rw [decoded] at decoded'
    cases decoded'
    exact parsed

/-! ### Reserved names -/

/-- The text begins with a device name that two extensions or more follow. -/
def HidesDevice (piece : Text) : Prop := 2 ≤ piece.count '.' ∧ IsDevice (firstStem piece)

/-- An accepted text names no device exactly if no piece of it hides one. -/
theorem reservedName_rejected_iff (s : Text) (p : SmbPath) (accepted : Accepts s p) :
    (∀ name ∈ p.components, ¬IsDevice (firstStem name)) ↔
      ∀ piece ∈ pieces s, ¬HidesDevice piece := by
  have parsed := accepted.parsed
  have formed := SmbPath.parseComponents_wellFormed parsed
  have named := components_eq_pieces parsed
  constructor
  -- a piece with two dots is neither empty nor a single dot, so it is a component
  · rintro free piece listed ⟨dots, device⟩
    refine free piece ?_ device
    rw [named, List.mem_filter, List.mem_filter]
    refine ⟨⟨listed, ?_⟩, ?_⟩
    · rw [decide_eq_true_eq]
      rintro rfl
      exact absurd dots (by decide)
    · rw [decide_eq_true_eq]
      rintro rfl
      exact absurd dots (by decide)
  · intro free name listed device
    have piece : name ∈ pieces s := by
      rw [named] at listed
      exact (List.mem_filter.mp (List.mem_filter.mp listed).1).1
    by_cases dots : 2 ≤ name.count '.'
    · exact free name piece ⟨dots, device⟩
    · -- the parser has looked at this very stem
      have same : lastStem name = firstStem name := lastStem_eq_firstStem (by omega)
      rw [← same, ← isReservedDosName_iff, (formed.names name listed).ok.free] at device
      cases device

/-- `con.txt` is rejected and `a.con.txt` names no device. -/
theorem reservedName_rejected_iff_plain :
    SmbPath.fromStr ['c', 'o', 'n', '.', 't'] = .error .nameInvalid ∧
    ((∀ name ∈ [['a', '.', 'c', 'o', 'n', '.', 't']], ¬IsDevice (firstStem name)) ↔
      ∀ piece ∈ pieces ['a', '.', 'c', 'o', 'n', '.', 't'], ¬HidesDevice piece) := by
  have parsed : SmbPath.fromStr ['a', '.', 'c', 'o', 'n', '.', 't'] =
      .ok ⟨[['a', '.', 'c', 'o', 'n', '.', 't']], none⟩ := by
    decide +kernel
  exact ⟨by decide +kernel, reservedName_rejected_iff _ _ (.inl parsed)⟩

/-- `CON.t.g` is accepted. -/
theorem reservedName_accepted :
    ¬∀ s p, Accepts s p → ∀ name ∈ p.components, ¬IsDevice (firstStem name) := by
  intro free
  have parsed : SmbPath.fromStr ['C', 'O', 'N', '.', 't', '.', 'g'] =
      .ok ⟨[['C', 'O', 'N', '.', 't', '.', 'g']], none⟩ := by
    decide +kernel
  refine free _ _ (.inl parsed) _ List.mem_cons_self ?_
  unfold IsDevice
  decide +kernel

end SmbServer
