import SmbServer.Proto.Ntlm

/-!
# SmbServer.Properties.ChallengeFields

The descriptors of the CHALLENGE message and what they point at.

## Main result

`challenge_fields`: the TargetName field of a challenge describes the name in UTF-16LE and the
TargetInfo field a list that is decoded to the five pairs; the two slices are the payload.

## Proof strategy

The decoder of a pair list stops at the id 0, which a value may contain: `decodeAvPairsFrom_pairs`
carries the position of the decoder, at which a pair begins or the list ends.
-/

namespace SmbServer

open Lib

/-! ### Pair lists -/

/-- The pair is not the terminator, and its value is short enough for a 16-bit length. -/
structure AvPair.Encodable (p : AvPair) : Prop where
  id : p.id ≠ avEol
  value : p.value.length < 65536

def AvPair.encode (p : AvPair) : Bytes :=
  u16le p.id ++ u16le (UInt16.ofNat p.value.length) ++ p.value

theorem encodeAvPairs_eq (pairs : List AvPair) :
    encodeAvPairs pairs = pairs.flatMap AvPair.encode ++ (u16le avEol ++ u16le 0) := by
  rw [encodeAvPairs, List.append_assoc]
  rfl

theorem length_le_flatMap_encode (pairs : List AvPair) :
    pairs.length ≤ (pairs.flatMap AvPair.encode).length := by
  induction pairs with
  | nil => exact Nat.le_refl 0
  | cons p rest ih =>
    rw [List.flatMap_cons, List.length_append, AvPair.encode, List.length_append,
      List.length_append, length_u16le, List.length_cons]
    omega

/-- The decoder from a position behind which pairs and the terminator lie. -/
theorem decodeAvPairsFrom_pairs (pairs : List AvPair) (fits : ∀ p ∈ pairs, p.Encodable)
    {buf : Bytes} {i : Nat}
    (left : buf.drop i = pairs.flatMap AvPair.encode ++ (u16le avEol ++ u16le 0)) (fuel : Nat)
    (enough : pairs.length < fuel) : decodeAvPairsFrom fuel buf i = some pairs := by
  induction pairs generalizing i fuel with
  | nil =>
    obtain ⟨fuel, rfl⟩ : ∃ n, fuel = n + 1 := ⟨fuel - 1, by omega⟩
    have size := congrArg List.length left
    rw [List.length_drop, List.flatMap_nil, List.nil_append, List.length_append, length_u16le,
      length_u16le] at size
    have id : readU16 buf i = avEol := by
      rw [← Nat.add_zero i, ← readU16_drop, left]
      exact readU16_at [] (u16le 0) avEol 0 rfl
    rw [decodeAvPairsFrom, if_neg (by omega)]
    simp only [id, if_true]
  | cons p rest ih =>
    obtain ⟨fuel, rfl⟩ : ∃ n, fuel = n + 1 := ⟨fuel - 1, by omega⟩
    obtain ⟨notEnd, short⟩ := fits p List.mem_cons_self
    -- the bytes from here on: id, length, value, and the rest of the list
    have shape : buf.drop i = u16le p.id ++ (u16le (UInt16.ofNat p.value.length) ++ (p.value ++
        (rest.flatMap AvPair.encode ++ (u16le avEol ++ u16le 0)))) := by
      rw [left, List.flatMap_cons, AvPair.encode]
      simp only [List.append_assoc]
    have size := congrArg List.length shape
    rw [List.length_drop] at size
    simp only [List.length_append, length_u16le] at size
    have id : readU16 buf i = p.id := by
      rw [← Nat.add_zero i, ← readU16_drop, shape]
      exact readU16_at [] _ p.id 0 rfl
    have length : (readU16 buf (i + 2)).toNat = p.value.length := by
      have word := readU16_at (u16le p.id) (p.value ++ (rest.flatMap AvPair.encode ++
        (u16le avEol ++ u16le 0))) (UInt16.ofNat p.value.length) 2 (length_u16le p.id)
      rw [List.append_assoc, ← shape, readU16_drop] at word
      rw [word, UInt16.toNat_ofNat', Nat.mod_eq_of_lt short]
    have value : slice buf (i + 4) p.value.length = p.value := by
      rw [← slice_drop, shape, ← List.append_assoc]
      exact slice_between _ _ _ 4 _ (by simp) rfl
    have onward : buf.drop (i + 4 + p.value.length) =
        rest.flatMap AvPair.encode ++ (u16le avEol ++ u16le 0) := by
      rw [Nat.add_assoc, ← List.drop_drop, shape, ← List.append_assoc, ← List.append_assoc]
      apply List.drop_left'
      simp only [List.length_append, length_u16le]
    rw [decodeAvPairsFrom, if_neg (by omega)]
    simp only [id, if_neg notEnd, length]
    rw [if_neg (by omega), ih (fun q member => fits q (List.mem_cons_of_mem p member)) onward fuel
      (by rw [List.length_cons] at enough; omega), value]
    rfl

theorem decodeAvPairs_encodeAvPairs (pairs : List AvPair) (fits : ∀ p ∈ pairs, p.Encodable) :
    decodeAvPairs (encodeAvPairs pairs) = some pairs := by
  apply decodeAvPairsFrom_pairs pairs fits
  · rw [List.drop_zero, encodeAvPairs_eq]
  · rw [encodeAvPairs_eq, List.length_append]
    have few := length_le_flatMap_encode pairs
    omega

/-! ### The challenge -/

/-- A descriptor between other bytes. -/
theorem readField_at (before after : Bytes) (len : UInt16) (offset : UInt32) (pos : Nat)
    (h : before.length = pos) :
    readField (before ++ (u16le len ++ u16le len ++ u32le offset) ++ after) pos =
      some ⟨len, offset⟩ := by
  have first := readU16_at before (u16le len ++ u32le offset ++ after) len pos h
  have second := readU32_at (before ++ u16le len ++ u16le len) after offset (pos + 4) (by simp [h])
  have long : ¬(before ++ (u16le len ++ u16le len ++ u32le offset) ++ after).length < pos + 8 := by
    simp only [List.length_append, length_u16le, length_u32le, h]
    omega
  rw [readField, if_neg long]
  simp only [List.append_assoc] at first second ⊢
  rw [first, second]

namespace ChallengeParams

/-- The pairs that a challenge carries, in their order. -/
def avPairs (p : ChallengeParams) : List AvPair :=
  [⟨avNbDomainName, utf16le p.nbDomainName⟩, ⟨avNbComputerName, utf16le p.nbComputerName⟩,
    ⟨avDnsDomainName, utf16le p.dnsDomainName⟩, ⟨avDnsComputerName, utf16le p.dnsComputerName⟩,
    ⟨avTimestamp, u64le p.timestamp⟩]

/-- The header in front of the payload. -/
def header (p : ChallengeParams) : Bytes :=
  let tnLen := UInt16.ofNat (utf16le p.targetName).length
  let tiLen := UInt16.ofNat (encodeAvPairs p.avPairs).length
  ntlmsspSignature ++ u32le msgChallenge ++ u16le tnLen ++ u16le tnLen ++ u32le 56 ++
    u32le p.flags ++ p.serverChallenge.val ++ List.replicate 8 0 ++ u16le tiLen ++ u16le tiLen ++
    u32le (56 + UInt32.ofNat (utf16le p.targetName).length) ++ [6, 1, 0, 0x1D, 0, 0, 0, 0x0F]

theorem length_header (p : ChallengeParams) : p.header.length = 56 := by
  simp [header, ntlmsspSignature]

theorem buildChallenge_eq (p : ChallengeParams) :
    buildChallenge p = p.header ++ (utf16le p.targetName ++ encodeAvPairs p.avPairs) := by
  rw [← List.append_assoc]
  rfl

/-- A value that is part of a short list is short. -/
theorem avPairs_encodable {p : ChallengeParams}
    (short : (encodeAvPairs p.avPairs).length < 65536) : ∀ q ∈ p.avPairs, q.Encodable := by
  intro q member
  constructor
  · simp only [avPairs, List.mem_cons, List.not_mem_nil, or_false] at member
    rcases member with rfl | rfl | rfl | rfl | rfl <;> (simp only; decide)
  · have inside : q.encode.length ≤ (p.avPairs.flatMap AvPair.encode).length :=
      (List.sublist_flatten_of_mem (List.mem_map_of_mem member)).length_le
    rw [encodeAvPairs_eq, List.length_append] at short
    rw [AvPair.encode, List.length_append] at inside
    omega

theorem readField_targetName (p : ChallengeParams) :
    readField (buildChallenge p) 12 =
      some ⟨UInt16.ofNat (utf16le p.targetName).length, 56⟩ := by
  have field := readField_at (ntlmsspSignature ++ u32le msgChallenge)
    (u32le p.flags ++ p.serverChallenge.val ++ List.replicate 8 0 ++
      u16le (UInt16.ofNat (encodeAvPairs p.avPairs).length) ++
      u16le (UInt16.ofNat (encodeAvPairs p.avPairs).length) ++
      u32le (56 + UInt32.ofNat (utf16le p.targetName).length) ++
      [6, 1, 0, 0x1D, 0, 0, 0, 0x0F] ++ (utf16le p.targetName ++ encodeAvPairs p.avPairs))
    (UInt16.ofNat (utf16le p.targetName).length) 56 12 rfl
  rw [buildChallenge_eq, header]
  simp only [List.append_assoc] at field ⊢
  exact field

theorem readField_targetInfo (p : ChallengeParams) :
    readField (buildChallenge p) 40 =
      some ⟨UInt16.ofNat (encodeAvPairs p.avPairs).length,
        56 + UInt32.ofNat (utf16le p.targetName).length⟩ := by
  have field := readField_at (ntlmsspSignature ++ u32le msgChallenge ++ u16le (UInt16.ofNat
      (utf16le p.targetName).length) ++ u16le (UInt16.ofNat (utf16le p.targetName).length) ++
      u32le 56 ++ u32le p.flags ++ p.serverChallenge.val ++ List.replicate 8 0)
    ([6, 1, 0, 0x1D, 0, 0, 0, 0x0F] ++ (utf16le p.targetName ++ encodeAvPairs p.avPairs))
    (UInt16.ofNat (encodeAvPairs p.avPairs).length)
    (56 + UInt32.ofNat (utf16le p.targetName).length) 40 (by simp [ntlmsspSignature])
  rw [buildChallenge_eq, header]
  simp only [List.append_assoc] at field ⊢
  exact field

end ChallengeParams

/-- The fields of a challenge describe its name and its pairs, one behind the other, and nothing
else is in the payload behind the 56 bytes of the header. -/
theorem challenge_fields (p : ChallengeParams) (name : (utf16le p.targetName).length < 65536)
    (info : (encodeAvPairs p.avPairs).length < 65536) :
    ∃ nameField infoField,
      readField (buildChallenge p) 12 = some nameField ∧
      readField (buildChallenge p) 40 = some infoField ∧
      sliceField (buildChallenge p) nameField = some (utf16le p.targetName) ∧
      (sliceField (buildChallenge p) infoField).bind decodeAvPairs = some p.avPairs ∧
      nameField.offset.toNat = 56 ∧
      nameField.offset.toNat + nameField.len.toNat = infoField.offset.toNat ∧
      infoField.offset.toNat + infoField.len.toNat = (buildChallenge p).length := by
  -- both lengths fit into 16 bits, and the second offset into 32
  have nameLen : (UInt16.ofNat (utf16le p.targetName).length).toNat =
      (utf16le p.targetName).length := by
    rw [UInt16.toNat_ofNat', Nat.mod_eq_of_lt name]
  have infoLen : (UInt16.ofNat (encodeAvPairs p.avPairs).length).toNat =
      (encodeAvPairs p.avPairs).length := by
    rw [UInt16.toNat_ofNat', Nat.mod_eq_of_lt info]
  have infoOffset : (56 + UInt32.ofNat (utf16le p.targetName).length).toNat =
      56 + (utf16le p.targetName).length := by
    rw [UInt32.toNat_add, UInt32.toNat_ofNat', Nat.mod_eq_of_lt (a := (utf16le p.targetName).length)
      (by omega)]
    exact Nat.mod_eq_of_lt (by simp only [UInt32.reduceToNat]; omega)
  have length : (buildChallenge p).length =
      56 + (utf16le p.targetName).length + (encodeAvPairs p.avPairs).length := by
    rw [ChallengeParams.buildChallenge_eq, List.length_append, List.length_append,
      ChallengeParams.length_header, Nat.add_assoc]
  have nameSlice : slice (buildChallenge p) 56 (utf16le p.targetName).length =
      utf16le p.targetName := by
    rw [ChallengeParams.buildChallenge_eq]
    exact slice_between _ _ _ 56 _ p.length_header rfl
  have infoSlice : slice (buildChallenge p) (56 + (utf16le p.targetName).length)
      (encodeAvPairs p.avPairs).length = encodeAvPairs p.avPairs := by
    have between := slice_between (p.header ++ utf16le p.targetName) (encodeAvPairs p.avPairs) []
      (56 + (utf16le p.targetName).length) _ (by rw [List.length_append, p.length_header]) rfl
    rwa [List.append_nil, List.append_assoc, ← ChallengeParams.buildChallenge_eq] at between
  -- the name, the pairs, and the three places in between
  refine ⟨_, _, p.readField_targetName, p.readField_targetInfo, ?_, ?_, rfl, ?_, ?_⟩
  · have header : (56 : UInt32).toNat = 56 := rfl
    rw [sliceField]
    simp only [nameLen, header]
    rw [if_neg (by omega), nameSlice]
  · rw [sliceField]
    simp only [infoLen, infoOffset]
    rw [if_neg (by omega), infoSlice]
    exact decodeAvPairs_encodeAvPairs p.avPairs (ChallengeParams.avPairs_encodable info)
  · simp only [nameLen, infoOffset]
    rfl
  · simp only [infoLen, infoOffset, length]

/-- A name outside the first plane and one that holds the bytes of a terminator. -/
def Sample.challengeParams : ChallengeParams where
  serverChallenge := ByteVec.zero 8
  targetName := [Char.ofNat 0x1F600]
  nbDomainName := [Char.ofNat 0, Char.ofNat 0]
  nbComputerName := ['S']
  dnsDomainName := []
  dnsComputerName := ['s']
  timestamp := 0
  flags := 0

theorem challenge_fields_sample :
    ∃ nameField infoField,
      readField (buildChallenge Sample.challengeParams) 12 = some nameField ∧
      readField (buildChallenge Sample.challengeParams) 40 = some infoField ∧
      sliceField (buildChallenge Sample.challengeParams) nameField =
        some (utf16le Sample.challengeParams.targetName) ∧
      (sliceField (buildChallenge Sample.challengeParams) infoField).bind decodeAvPairs =
        some Sample.challengeParams.avPairs ∧
      nameField.offset.toNat = 56 ∧
      nameField.offset.toNat + nameField.len.toNat = infoField.offset.toNat ∧
      infoField.offset.toNat + infoField.len.toNat =
        (buildChallenge Sample.challengeParams).length :=
  challenge_fields Sample.challengeParams (by decide) (by decide)

end SmbServer
