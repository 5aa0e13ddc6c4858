import SmbServer.Client
import SmbServer.Effects.Inherit

/-!
# SmbServer.Properties.RequestLayout

Where the request parsers read the variable-length fields.

A request says with two words where such a field is: an offset from the start of the SMB2 header,
and a length. The parsers use the length and read the field directly behind what they read before.

## Main result

`requestFields`: on every message each parser reads the packed fields, and it reads what the request
says whenever the request is packed.

## Proof strategy

One lemma per parser evaluates it, field by field. The rest is about lists of words: `packed` reads
them one behind the other, `said` at their offsets.
-/

namespace SmbServer

open Lib

/-- A word of a fixed part, by its distance from the SMB2 header. -/
inductive FieldWord where
  | u16 (off : Nat)
  | u32 (off : Nat)

def FieldWord.value (msg : Bytes) : FieldWord → Nat
  | .u16 off => (readU16 msg off).toNat
  | .u32 off => (readU32 msg off).toNat

/-- What a request says about a variable-length field. -/
structure FieldWords where
  offset : FieldWord
  length : FieldWord

namespace FieldWords

def said (msg : Bytes) (f : FieldWords) : Bytes := slice msg (f.offset.value msg) (f.length.value msg)

/-- The field lies inside the message. -/
def Inside (msg : Bytes) (f : FieldWords) : Prop :=
  f.offset.value msg + f.length.value msg ≤ msg.length

instance (msg : Bytes) (f : FieldWords) : Decidable (f.Inside msg) :=
  inferInstanceAs (Decidable (_ ≤ _))

/-- The fields one behind the other from `pos` on. -/
def packed (msg : Bytes) (pos : Nat) : List FieldWords → List Bytes
  | [] => []
  | f :: rest => slice msg pos (f.length.value msg) :: packed msg (pos + f.length.value msg) rest

/-- The end of the packed fields. -/
def packedEnd (msg : Bytes) (pos : Nat) : List FieldWords → Nat
  | [] => pos
  | f :: rest => packedEnd msg (pos + f.length.value msg) rest

/-- Every field that is not empty is said to be where it is packed. -/
def Packed (msg : Bytes) (pos : Nat) : List FieldWords → Prop
  | [] => True
  | f :: rest => (f.length.value msg = 0 ∨ f.offset.value msg = pos) ∧
      Packed msg (pos + f.length.value msg) rest

theorem slice_zero (msg : Bytes) (off : Nat) : slice msg off 0 = [] := List.take_zero

theorem packed_eq_said (msg : Bytes) (pos : Nat) (fields : List FieldWords)
    (isPacked : Packed msg pos fields) : packed msg pos fields = fields.map (said msg) := by
  induction fields generalizing pos with
  | nil => rfl
  | cons f rest ih =>
    obtain ⟨here, behind⟩ := isPacked
    rw [packed, List.map_cons, ih _ behind, said]
    rcases here with empty | same
    · rw [empty, slice_zero, slice_zero]
    · rw [same]

theorem packedEnd_le (msg : Bytes) (pos : Nat) (fields : List FieldWords)
    (start : pos ≤ msg.length) (isPacked : Packed msg pos fields)
    (inside : ∀ f ∈ fields, f.Inside msg) : packedEnd msg pos fields ≤ msg.length := by
  induction fields generalizing pos with
  | nil => exact start
  | cons f rest ih =>
    obtain ⟨here, behind⟩ := isPacked
    have fits : pos + f.length.value msg ≤ msg.length := by
      rcases here with empty | same
      · omega
      · have bound : _ ≤ _ := inside f (List.mem_cons_self ..)
        rw [same] at bound
        exact bound
    exact ih _ fits behind fun g member => inside g (List.mem_cons_of_mem _ member)

end FieldWords

/-! ### The requests -/

/-- The requests with a variable-length field. -/
inductive RequestKind where
  | sessionSetup
  | treeConnect
  | create
  | write
  | setInfo
  | queryDirectory
  deriving DecidableEq

namespace RequestKind

/-- The variable-length fields as the parser of the request reads them. -/
def readFields (body : Bytes) : RequestKind → Option (List Bytes)
  | .sessionSetup => (SessionSetupRequest.parse body).map fun r => [r.securityBuffer]
  | .treeConnect => (TreeConnectRequest.parse body).map fun r => [r.path]
  | .create => (CreateRequest.parse body).map fun r => [r.name, r.createContexts]
  | .write => (WriteRequest.parse body).map fun r => [r.data]
  | .setInfo => (SetInfoRequest.parse body).map fun r => [r.buffer]
  | .queryDirectory => (QueryDirectoryRequest.parse body).map fun r => [r.fileName]

/-- The bytes in front of the variable-length fields, with the SMB2 header. -/
def fixedEnd : RequestKind → Nat
  | .sessionSetup => 88
  | .treeConnect => 72
  | .create => 120
  | .write => 112
  | .setInfo => 96
  | .queryDirectory => 96

def fields : RequestKind → List FieldWords
  | .sessionSetup => [⟨.u16 76, .u16 78⟩]
  | .treeConnect => [⟨.u16 68, .u16 70⟩]
  | .create => [⟨.u16 108, .u16 110⟩, ⟨.u32 112, .u32 116⟩]
  | .write => [⟨.u16 66, .u32 68⟩]
  | .setInfo => [⟨.u16 72, .u32 68⟩]
  | .queryDirectory => [⟨.u16 88, .u16 90⟩]

/-- What the request says its fields are. -/
def said (msg : Bytes) (kind : RequestKind) : List Bytes := kind.fields.map (FieldWords.said msg)

/-- The fixed part and the fields lie inside the message. -/
def Inside (msg : Bytes) (kind : RequestKind) : Prop :=
  kind.fixedEnd ≤ msg.length ∧ ∀ f ∈ kind.fields, f.Inside msg

instance (msg : Bytes) (kind : RequestKind) : Decidable (kind.Inside msg) :=
  inferInstanceAs (Decidable (_ ∧ _))

/-- The request is packed: each field is said to be where its predecessor ends. A WRITE has data; one
without carries a byte on the wire that it says nothing about. -/
def Packed (msg : Bytes) (kind : RequestKind) : Prop :=
  ¬(kind = .write ∧ readU32 msg 68 = 0) ∧ FieldWords.Packed msg kind.fixedEnd kind.fields

/-- What the parser reads: the packed fields, and one byte where a WRITE has none. -/
def readPacked (msg : Bytes) (kind : RequestKind) : List Bytes :=
  if kind = .write ∧ readU32 msg 68 = 0 then [slice msg 112 1]
  else FieldWords.packed msg kind.fixedEnd kind.fields

/-- The end of what the parser reads. -/
def readEnd (msg : Bytes) (kind : RequestKind) : Nat :=
  if kind = .write ∧ readU32 msg 68 = 0 then 113
  else FieldWords.packedEnd msg kind.fixedEnd kind.fields

/-! ### The parsers, evaluated -/

private theorem sessionSetup_reads (body : Bytes) (fields : List Bytes) :
    readFields body .sessionSetup = some fields ↔
      24 + (readU16 body 14).toNat ≤ body.length ∧
        [slice body 24 (readU16 body 14).toNat] = fields := by
  simp only [readFields, SessionSetupRequest.parse, Option.map_eq_some_iff, Reader.parse_eq_some,
    Reader.u16_bind, Reader.u8_bind, Reader.u32_bind, Reader.u64_bind, Reader.bytes_bind,
    Reader.pure_eq_some, List.drop_drop, List.length_drop, slice_drop, readU16_drop,
    Nat.reduceAdd, Nat.add_zero, exists_and_left, exists_eq', and_true, and_assoc, exists_eq_left']
  constructor
  · rintro ⟨-, -, -, -, -, -, -, fixed, fits, read⟩
    exact ⟨by omega, read⟩
  · rintro ⟨fits, read⟩
    refine ⟨?_, ?_, ?_, ?_, ?_, ?_, ?_, ?_, ?_, read⟩ <;> omega

private theorem treeConnect_reads (body : Bytes) (fields : List Bytes) :
    readFields body .treeConnect = some fields ↔
      8 + (readU16 body 6).toNat ≤ body.length ∧
        [slice body 8 (readU16 body 6).toNat] = fields := by
  simp only [readFields, TreeConnectRequest.parse, Option.map_eq_some_iff, Reader.parse_eq_some,
    Reader.u16_bind, Reader.bytes_bind, Reader.pure_eq_some, List.drop_drop, List.length_drop,
    slice_drop, readU16_drop, Nat.reduceAdd, Nat.add_zero, exists_and_left, exists_eq', and_true,
    and_assoc, exists_eq_left']
  constructor
  · rintro ⟨-, -, -, fixed, fits, read⟩
    exact ⟨by omega, read⟩
  · rintro ⟨fits, read⟩
    refine ⟨?_, ?_, ?_, ?_, ?_, read⟩ <;> omega

private theorem create_reads (body : Bytes) (fields : List Bytes) :
    readFields body .create = some fields ↔
      56 + (readU16 body 46).toNat + (readU32 body 52).toNat ≤ body.length ∧
        [slice body 56 (readU16 body 46).toNat,
          slice body (56 + (readU16 body 46).toNat) (readU32 body 52).toNat] = fields := by
  simp only [readFields, CreateRequest.parse, Option.map_eq_some_iff, Reader.parse_eq_some,
    Reader.u16_bind, Reader.u8_bind, Reader.u32_bind, Reader.u64_bind, Reader.bytes_bind,
    Reader.pure_eq_some, List.drop_drop, List.length_drop, slice_drop, readU16_drop, readU32_drop,
    Nat.reduceAdd, Nat.add_zero, exists_and_left, exists_eq', and_true, and_assoc, exists_eq_left']
  constructor
  · rintro ⟨-, -, -, -, -, -, -, -, -, -, -, -, -, -, fixed, name, fits, read⟩
    exact ⟨by omega, read⟩
  · rintro ⟨fits, read⟩
    refine ⟨?_, ?_, ?_, ?_, ?_, ?_, ?_, ?_, ?_, ?_, ?_, ?_, ?_, ?_, ?_, ?_, ?_, read⟩ <;> omega

private theorem write_reads (body : Bytes) (fields : List Bytes) :
    readFields body .write = some fields ↔
      48 + (if readU32 body 4 = 0 then 1 else (readU32 body 4).toNat) ≤ body.length ∧
        [slice body 48 (if readU32 body 4 = 0 then 1 else (readU32 body 4).toNat)] = fields := by
  simp only [readFields, Option.map_eq_some_iff, WriteRequest.parse_eq_some, and_assoc,
    exists_and_left, exists_eq_left']

private theorem setInfo_reads (body : Bytes) (fields : List Bytes) :
    readFields body .setInfo = some fields ↔
      32 + (readU32 body 4).toNat ≤ body.length ∧
        [slice body 32 (readU32 body 4).toNat] = fields := by
  simp only [readFields, SetInfoRequest.parse, Option.map_eq_some_iff, Reader.parse_eq_some,
    Reader.u16_bind, Reader.u8_bind, Reader.u32_bind, Reader.bytes_bind, FileId.read_bind,
    Reader.pure_eq_some, List.drop_drop, List.length_drop, slice_drop, readU32_drop,
    Nat.reduceAdd, Nat.add_zero, exists_and_left, exists_eq', and_true, and_assoc, exists_eq_left']
  constructor
  · rintro ⟨-, -, -, -, -, -, -, fixed, fits, read⟩
    exact ⟨by omega, read⟩
  · rintro ⟨fits, read⟩
    refine ⟨?_, ?_, ?_, ?_, ?_, ?_, ?_, ?_, ?_, read⟩ <;> omega

private theorem queryDirectory_reads (body : Bytes) (fields : List Bytes) :
    readFields body .queryDirectory = some fields ↔
      32 + (readU16 body 26).toNat ≤ body.length ∧
        [slice body 32 (readU16 body 26).toNat] = fields := by
  simp only [readFields, QueryDirectoryRequest.parse, Option.map_eq_some_iff,
    Reader.parse_eq_some, Reader.u16_bind, Reader.u8_bind, Reader.u32_bind, Reader.bytes_bind,
    FileId.read_bind, Reader.pure_eq_some, List.drop_drop, List.length_drop, slice_drop,
    readU16_drop, Nat.reduceAdd, Nat.add_zero, exists_and_left, exists_eq', and_true, and_assoc,
    exists_eq_left']
  constructor
  · rintro ⟨-, -, -, -, -, -, -, fixed, fits, read⟩
    exact ⟨by omega, read⟩
  · rintro ⟨fits, read⟩
    refine ⟨?_, ?_, ?_, ?_, ?_, ?_, ?_, ?_, ?_, read⟩ <;> omega

/-- A parser reads the packed fields, if the message holds them. -/
theorem readFields_eq_some (msg : Bytes) (kind : RequestKind) (fields : List Bytes)
    (long : smb2HeaderLen ≤ msg.length) :
    readFields (msg.drop smb2HeaderLen) kind = some fields ↔
      kind.readEnd msg ≤ msg.length ∧ kind.readPacked msg = fields := by
  rw [smb2HeaderLen] at long ⊢
  -- kind by kind: the offsets of the parser are those of the table, the header taken away
  cases kind with
  | sessionSetup =>
    rw [sessionSetup_reads]
    simp only [readU16_drop, slice_drop, List.length_drop, Nat.reduceAdd, readEnd, readPacked,
      FieldWords.packedEnd, FieldWords.packed, RequestKind.fields, fixedEnd, FieldWord.value,
      reduceCtorEq, false_and, if_false]
    apply and_congr_left'
    omega
  | treeConnect =>
    rw [treeConnect_reads]
    simp only [readU16_drop, slice_drop, List.length_drop, Nat.reduceAdd, readEnd, readPacked,
      FieldWords.packedEnd, FieldWords.packed, RequestKind.fields, fixedEnd, FieldWord.value,
      reduceCtorEq, false_and, if_false]
    apply and_congr_left'
    omega
  | create =>
    rw [create_reads]
    simp only [readU16_drop, readU32_drop, slice_drop, List.length_drop, Nat.reduceAdd, readEnd,
      readPacked, FieldWords.packedEnd, FieldWords.packed, RequestKind.fields, fixedEnd,
      FieldWord.value, reduceCtorEq, false_and, if_false, ← Nat.add_assoc]
    apply and_congr_left'
    omega
  | write =>
    rw [write_reads]
    simp only [readU32_drop, slice_drop, List.length_drop, Nat.reduceAdd, readEnd, readPacked,
      FieldWords.packedEnd, FieldWords.packed, RequestKind.fields, fixedEnd, FieldWord.value,
      true_and]
    split
    · apply and_congr_left'
      omega
    · apply and_congr_left'
      omega
  | setInfo =>
    rw [setInfo_reads]
    simp only [readU32_drop, slice_drop, List.length_drop, Nat.reduceAdd, readEnd, readPacked,
      FieldWords.packedEnd, FieldWords.packed, RequestKind.fields, fixedEnd, FieldWord.value,
      reduceCtorEq, false_and, if_false]
    apply and_congr_left'
    omega
  | queryDirectory =>
    rw [queryDirectory_reads]
    simp only [readU16_drop, slice_drop, List.length_drop, Nat.reduceAdd, readEnd, readPacked,
      FieldWords.packedEnd, FieldWords.packed, RequestKind.fields, fixedEnd, FieldWord.value,
      reduceCtorEq, false_and, if_false]
    apply and_congr_left'
    omega

end RequestKind

/-- Each parser reads the fields of its request behind one another, if the message holds them; so
it reads what a packed request says. -/
theorem requestFields (kind : RequestKind) (msg body : Bytes) (hdr : Smb2Header)
    (parsed : Smb2Header.parse msg = some (hdr, body)) :
    (∀ fields, kind.readFields body = some fields ↔
        kind.readEnd msg ≤ msg.length ∧ kind.readPacked msg = fields) ∧
      (kind.Packed msg → kind.Inside msg → kind.readFields body = some (kind.said msg)) := by
  have long := Smb2Header.long_of_parse parsed
  have reads := fun fields => kind.readFields_eq_some msg fields long
  rw [← Smb2Header.body_of_parse parsed] at reads
  constructor
  · exact reads
  · intro packed inside
    rw [reads, RequestKind.readEnd, RequestKind.readPacked, if_neg packed.1, if_neg packed.1]
    constructor
    · exact FieldWords.packedEnd_le msg _ _ inside.1 packed.2 inside.2
    · exact FieldWords.packed_eq_said msg _ _ packed.2

/-- A TREE_CONNECT with its path directly behind the fixed part. -/
def Client.packedTreeConnect : Bytes := Client.plain .treeConnect 1 0 (Client.treeConnectBody ['a'])

theorem requestFields_treeConnect :
    (∀ fields, RequestKind.treeConnect.readFields (Client.treeConnectBody ['a']) = some fields ↔
        RequestKind.treeConnect.readEnd Client.packedTreeConnect ≤
          Client.packedTreeConnect.length ∧
        RequestKind.treeConnect.readPacked Client.packedTreeConnect = fields) ∧
      (RequestKind.treeConnect.Packed Client.packedTreeConnect →
        RequestKind.treeConnect.Inside Client.packedTreeConnect →
        RequestKind.treeConnect.readFields (Client.treeConnectBody ['a']) =
          some (RequestKind.treeConnect.said Client.packedTreeConnect)) :=
  requestFields .treeConnect Client.packedTreeConnect (Client.treeConnectBody ['a'])
    (Client.header .treeConnect 0 1 0) (by decide +kernel)

/-! ### A request with a gap -/

/-- A CREATE of `"a"` with one create context, which starts eight bytes behind the name to be
aligned. -/
def Client.alignedCreate : Bytes :=
  Client.plain .create 1 1 (u16le 57 ++ [0, 0] ++ u32le 0 ++ u64le 0 ++ u64le 0 ++ u32le 1 ++
    u32le 0 ++ u32le 7 ++ u32le 1 ++ u32le 0 ++ u16le 120 ++ u16le 2 ++ u32le 128 ++ u32le 24 ++
    utf16le ['a'] ++ List.replicate 6 0 ++ CreateContext.encodeEntry ⟨[0x4D, 0x78, 0x41, 0x63], []⟩ 0)

/-- The contexts are read six bytes in front of where the request says they are. -/
theorem alignedCreate_shifted :
    ¬∀ (kind : RequestKind) (msg body : Bytes) (hdr : Smb2Header),
      Smb2Header.parse msg = some (hdr, body) → kind.Inside msg →
        kind.readFields body = some (kind.said msg) := by
  intro all
  have read := all .create Client.alignedCreate (Client.alignedCreate.drop smb2HeaderLen)
    (Client.header .create 0 1 1) (by decide +kernel) (by decide +kernel)
  revert read
  decide +kernel

end SmbServer
