import SmbServer.Client
import SmbServer.Effects.Answer

/-!
# SmbServer.Properties.Smb1Dialects

The SMB1 NEGOTIATE that asks for SMB2.

## Main result

`smb1Dialects_answer`: whatever strings an SMB1 NEGOTIATE lists, it is answered with the wildcard
dialect if that is among them, else with 2.0.2 if that is, else not at all. What follows the list
does not matter.

## Proof strategy

A string without a zero byte is read back from in front of anything (`takeNul_terminated`), so the
scanner finds the list (`smb1Dialects_blob`) by induction on it. The strings are arbitrary bytes:
they are compared as text, and `text_eq_iff` says that text which is not valid is no name.
-/

namespace SmbServer

open Lib

/-! ### The frame -/

/-- `0x02 <string> 0x00` -/
def encodeSmb1Dialect (name : Bytes) : Bytes := 0x02 :: (name ++ [0])

def smb1Blob (names : List Bytes) : Bytes := names.flatMap encodeSmb1Dialect

/-- 33 bytes of header and WordCount, ByteCount, the dialect strings and anything behind them. -/
def smb1Frame (header : Bytes) (names : List Bytes) (behind : Bytes) : Bytes :=
  header ++ u16le (UInt16.ofNat (smb1Blob names).length) ++ smb1Blob names ++ behind

/-- The 32-byte header of an SMB1 NEGOTIATE and its WordCount. -/
structure Smb1Header (header : Bytes) : Prop where
  length : header.length = 33
  magic : slice header 0 4 = [0xFF, 0x53, 0x4D, 0x42]
  command : header[4]? = some 0x72

/-! ### Names are compared as text -/

/-- `std::str::from_utf8(bytes).unwrap_or("")` -/
def textOrEmpty (bytes : Bytes) : String := (String.fromUTF8? ⟨bytes.toArray⟩).getD ""

/-- Bytes are the text `name` when they are its encoding; those that encode no text never are. -/
theorem text_eq_iff (bytes : Bytes) {name : String} (nonempty : name ≠ "") :
    textOrEmpty bytes = name ↔ bytes = name.toByteArray.data.toList := by
  by_cases valid : ByteArray.IsValidUTF8 ⟨bytes.toArray⟩
  · rw [textOrEmpty, String.fromUTF8?, dif_pos valid, Option.getD_some, ← String.toByteArray_inj]
    constructor
    · intro same
      rw [← same]
      rfl
    · rintro rfl
      rfl
  · rw [textOrEmpty, String.fromUTF8?, dif_neg valid, Option.getD_none]
    constructor
    · exact fun same => absurd same.symm nonempty
    · rintro rfl
      exact absurd name.isValidUTF8 valid

/-- The bytes that the scanner compares with are those of the two names. -/
theorem smb1Names_text (bytes : Bytes) :
    (textOrEmpty bytes = "SMB 2.???" ↔ bytes = smb2WildcardName) ∧
      (textOrEmpty bytes = "SMB 2.002" ↔ bytes = smb202Name) := by
  have wildcard : "SMB 2.???".toByteArray.data.toList = smb2WildcardName := by decide
  have smb202 : "SMB 2.002".toByteArray.data.toList = smb202Name := by decide
  rw [text_eq_iff bytes (by decide), text_eq_iff bytes (by decide), wildcard, smb202]
  exact ⟨Iff.rfl, Iff.rfl⟩

/-- The choice of the source, which compares text. -/
theorem smb1Choice_text {frame : Bytes} (smb1 : Smb1Header (frame.take 33))
    (long : 35 ≤ frame.length) :
    smb1Choice frame =
      let names := smb1Dialects frame.length (slice frame 35 (readU16 frame 33).toNat)
      if ∃ name ∈ names, textOrEmpty name = "SMB 2.???" then some Dialect.smb2Wildcard.asU16
      else if ∃ name ∈ names, textOrEmpty name = "SMB 2.002" then some Dialect.smb202.asU16
      else none := by
  have magic : slice frame 0 4 = [0xFF, 0x53, 0x4D, 0x42] := by
    rw [← smb1.magic, slice_take _ _ _ _ (by decide)]
  have command : frame[4]? = some 0x72 := by
    rw [← smb1.command, List.getElem?_take_of_lt (by decide)]
  have accepted : ¬(frame.length < 35 ∨ slice frame 0 4 ≠ [0xFF, 0x53, 0x4D, 0x42] ∨
      frame[4]? ≠ some 0x72) := by
    rintro (short | wrong | wrong)
    · omega
    · exact wrong magic
    · exact wrong command
  rw [smb1Choice, if_neg accepted]
  simp only [(smb1Names_text _).1, (smb1Names_text _).2, List.contains_iff_mem, exists_eq_right]

/-! ### The scanner -/

theorem takeNul_terminated {name : Bytes} (nulFree : 0 ∉ name) (behind : Bytes) :
    takeNul (name ++ 0 :: behind) = some (name, behind) := by
  induction name with
  | nil => rfl
  | cons b rest ih =>
    obtain ⟨first, later⟩ := not_or.mp (mt List.mem_cons.mpr nulFree)
    rw [List.cons_append, takeNul, if_neg (Ne.symm first), ih later]
    rfl

/-- The scanner finds the strings that were encoded. -/
theorem smb1Dialects_blob (names : List Bytes) (nulFree : ∀ name ∈ names, 0 ∉ name) (fuel : Nat)
    (enough : names.length ≤ fuel) : smb1Dialects fuel (smb1Blob names) = names := by
  induction names generalizing fuel with
  | nil => cases fuel <;> rfl
  | cons name rest ih =>
    obtain ⟨fuel, rfl⟩ : ∃ n, fuel = n + 1 := by
      rw [List.length_cons] at enough
      exact ⟨fuel - 1, by omega⟩
    have marked : smb1Blob (name :: rest) = 0x02 :: (name ++ 0 :: smb1Blob rest) := by
      rw [smb1Blob, List.flatMap_cons, encodeSmb1Dialect, List.cons_append, List.append_assoc]
      rfl
    -- a marker inside the string does not end it: only the zero byte does
    rw [marked, smb1Dialects, takeNul_terminated (nulFree name List.mem_cons_self)]
    simp only
    rw [ih (fun d member => nulFree d (List.mem_cons_of_mem name member)) fuel
      (Nat.le_of_succ_le_succ enough)]

theorem length_le_smb1Blob (names : List Bytes) : names.length ≤ (smb1Blob names).length := by
  induction names with
  | nil => exact Nat.le_refl 0
  | cons name rest ih =>
    rw [smb1Blob, List.flatMap_cons, List.length_append, encodeSmb1Dialect, List.length_cons,
      List.length_cons]
    rw [smb1Blob] at ih
    omega

/-- The choice depends on the strings of the list only. -/
theorem smb1Choice_frame {header : Bytes} (smb1 : Smb1Header header) (names : List Bytes)
    (nulFree : ∀ name ∈ names, 0 ∉ name) (short : (smb1Blob names).length < 65536)
    (behind : Bytes) :
    smb1Choice (smb1Frame header names behind) =
      if smb2WildcardName ∈ names then some Dialect.smb2Wildcard.asU16
      else if smb202Name ∈ names then some Dialect.smb202.asU16
      else none := by
  obtain ⟨headerLength, magic, command⟩ := smb1
  have length : (smb1Frame header names behind).length =
      35 + (smb1Blob names).length + behind.length := by
    rw [smb1Frame, List.length_append, List.length_append, List.length_append, length_u16le,
      headerLength]
  have shape : smb1Frame header names behind =
      header ++ (u16le (UInt16.ofNat (smb1Blob names).length) ++ (smb1Blob names ++ behind)) := by
    rw [smb1Frame, List.append_assoc, List.append_assoc]
  -- the ByteCount behind the words measures the blob, so what follows it is not looked at
  have byteCount : (readU16 (smb1Frame header names behind) 33).toNat =
      (smb1Blob names).length := by
    have word := readU16_at header (smb1Blob names ++ behind)
      (UInt16.ofNat (smb1Blob names).length) 33 headerLength
    rw [smb1Frame, List.append_assoc _ _ behind, word, UInt16.toNat_ofNat', Nat.mod_eq_of_lt short]
  have blob : slice (smb1Frame header names behind) 35 (smb1Blob names).length =
      smb1Blob names := by
    rw [smb1Frame, List.append_assoc _ _ behind]
    apply slice_between
    · rw [List.length_append, length_u16le, headerLength]
    · rfl
  have enough : names.length ≤ (smb1Frame header names behind).length := by
    have few := length_le_smb1Blob names
    omega
  have front : (smb1Frame header names behind).take 33 = header := by
    rw [shape]
    exact List.take_left' headerLength
  rw [smb1Choice_text (front.symm ▸ ⟨headerLength, magic, command⟩) (by omega)]
  simp only [byteCount, blob, smb1Dialects_blob names nulFree _ enough, (smb1Names_text _).1,
    (smb1Names_text _).2, exists_eq_right]

/-! ### The answer -/

section
variable {σ η : Type} [Host σ η] [Crypto]

/-- The dialect in the reply to a frame: the DialectRevision behind the 64-byte header. -/
def answeredDialect (server : ServerState) (frame : Bytes) (w : World σ η) : Option UInt16 :=
  (dispatchFrame server frame w).1.map fun reply => readU16 reply (smb2HeaderLen + 4)

/-- The reply names the dialect that was chosen. -/
theorem answeredDialect_of_choice (server : ServerState) {frame : Bytes} {chosen : UInt16}
    (smb1 : smb1Choice frame = some chosen) (w : World σ η) :
    answeredDialect server frame w = some chosen := by
  have reply : (dispatchFrame server frame w).1 =
      some (handleSmb1MultiProtocol server chosen w).1 := by
    simp only [dispatchFrame, smb1]
    rfl
  rw [answeredDialect, reply, Option.map_some, readU16, handleSmb1MultiProtocol]
  simp only [Action.bind_apply, Action.pure_apply, slice_body_buildResponseBytes]
  have body := fun (r : NegotiateResponse) => (NegotiateResponse.slices_write r []).2.1
  simp only [List.append_nil] at body
  rw [Negotiate.multiProtocolResponse]
  simp only [Action.bind_apply, Action.pure_apply, HandlerResponse.ok, body, u16OfLe_u16le]
  rfl

/-- A frame with the SMB1 magic is no SMB2 request. -/
theorem answeredDialect_of_none (server : ServerState) {header rest : Bytes}
    (smb1 : Smb1Header header) (none : smb1Choice (header ++ rest) = none) (w : World σ η) :
    answeredDialect server (header ++ rest) w = Option.none := by
  have magic : slice (header ++ rest) 0 4 = [0xFF, 0x53, 0x4D, 0x42] := by
    rw [slice_append_left _ _ _ _ (by rw [smb1.length]; decide), smb1.magic]
  have wrong : slice (header ++ rest) 0 4 ≠ smb2Magic := by
    rw [magic]
    decide
  have rejected : splitElement (header ++ rest) = Option.none := by
    have unparsed : Smb2Header.parse (header ++ rest) = Option.none := by
      by_cases short : (header ++ rest).length < smb2HeaderLen
      · rw [Smb2Header.parse, if_pos short]
      · rw [Smb2Header.parse, if_neg short, if_pos wrong]
    simp only [splitElement, unparsed]
  rw [answeredDialect, dispatchFrame]
  simp only [none, Action.bind_apply]
  simp only [dispatchElements, rejected, Action.pure_apply, Option.map_none]

/-- An SMB1 NEGOTIATE is answered with the wildcard if that is listed, else with 2.0.2 if that is,
else not at all, whatever follows its list. -/
theorem smb1Dialects_answer (server : ServerState) (w : World σ η) {header : Bytes}
    (smb1 : Smb1Header header) (names : List Bytes) (nulFree : ∀ name ∈ names, 0 ∉ name)
    (short : (smb1Blob names).length < 65536) (behind : Bytes) :
    (answeredDialect server (smb1Frame header names behind) w = some 0x02FF ↔
        smb2WildcardName ∈ names) ∧
      (answeredDialect server (smb1Frame header names behind) w = some 0x0202 ↔
        smb2WildcardName ∉ names ∧ smb202Name ∈ names) ∧
      (answeredDialect server (smb1Frame header names behind) w = none ↔
        smb2WildcardName ∉ names ∧ smb202Name ∉ names) ∧
      (smb1Choice (smb1Frame header names behind) = none ↔
        smb2WildcardName ∉ names ∧ smb202Name ∉ names) ∧
      ∀ other, smb1Choice (smb1Frame header names other) =
        smb1Choice (smb1Frame header names behind) := by
  have choice := smb1Choice_frame smb1 names nulFree short
  have answered : answeredDialect server (smb1Frame header names behind) w =
      smb1Choice (smb1Frame header names behind) := by
    cases chosen : smb1Choice (smb1Frame header names behind) with
    | some dialect => exact answeredDialect_of_choice server chosen w
    -- not chosen: the frame is no SMB2 either, so there is no answer at all
    | none =>
      have shape : smb1Frame header names behind = header ++
          (u16le (UInt16.ofNat (smb1Blob names).length) ++ (smb1Blob names ++ behind)) := by
        rw [smb1Frame, List.append_assoc, List.append_assoc]
      rw [shape] at chosen ⊢
      exact answeredDialect_of_none server smb1 chosen w
  rw [answered, choice behind]
  refine ⟨?_, ?_, ?_, ?_, fun other => by rw [choice other]⟩
  all_goals
    by_cases wildcard : smb2WildcardName ∈ names
    · simp [wildcard, Dialect.asU16]
    · by_cases smb202 : smb202Name ∈ names
      · simp [wildcard, smb202, Dialect.asU16]
      · simp [wildcard, smb202]

end

namespace Sample

/-- The header of an SMB1 NEGOTIATE without flags. -/
def smb1NegotiateHeader : Bytes := [0xFF, 0x53, 0x4D, 0x42, 0x72] ++ List.replicate 28 0

theorem smb1Header : Smb1Header smb1NegotiateHeader := ⟨by decide, by decide, by decide⟩

/-- `"NT LM"` with a marker in it, bytes that are no text, and 2.0.2. -/
def smb1Names : List Bytes := [[0x4E, 0x54, 0x02, 0x4C, 0x4D], [0xFF, 0xFE], smb202Name]

end Sample

open scoped Sample

theorem smb1Dialects_answer_names :
    answeredDialect Sample.server
      (smb1Frame Sample.smb1NegotiateHeader Sample.smb1Names (encodeSmb1Dialect smb2WildcardName))
      (⟨Connection.new 1 (ByteVec.zero 16) 65536 65536, ⟨(), 1, [], [], none, []⟩⟩ :
        World Unit Unit) = some 0x0202 :=
  (smb1Dialects_answer Sample.server _ Sample.smb1Header Sample.smb1Names (by decide)
    (by decide) (encodeSmb1Dialect smb2WildcardName)).2.1.mpr (by decide)

end SmbServer
