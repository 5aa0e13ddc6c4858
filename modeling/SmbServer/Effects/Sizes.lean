import SmbServer.Handlers

/-!
# SmbServer.Effects.Sizes

How long the encoded parts of a reply are: file and filesystem information, directory entries, and
the two messages that carry the server's name.
-/

namespace SmbServer

open Lib

/-! ### Encodings -/

section

/-- The bytes of a name on the wire. -/
def FileInfo.nameSize (info : FileInfo) : Nat := (utf16le info.name).length

namespace InfoClass

@[simp] theorem length_encodeTimes (info : FileInfo) : (encodeTimes info).length = 32 := by
  simp [encodeTimes]

@[simp] theorem length_dirEntryPrefix (info : FileInfo) (fileIndex : UInt64) (nameLen : Nat) :
    (dirEntryPrefix info fileIndex nameLen).length = 64 := by
  simp [dirEntryPrefix]

theorem length_encodeDirEntry_le (infoClass : UInt8) (entry : DirEntry) (fileIndex : UInt64) :
    (encodeDirEntry infoClass entry fileIndex).length ≤ 104 + entry.info.nameSize := by
  simp only [encodeDirEntry, FileInfo.nameSize]
  split_ifs <;>
    simp only [List.length_append, length_dirEntryPrefix, length_u32le, length_u16le,
      length_u64le, List.length_replicate, List.length_cons, List.length_nil] <;>
    omega

/-- An entry that is encoded at all has room for the offset of the next one. -/
theorem length_encodeDirEntry_ge (infoClass : UInt8) (entry : DirEntry) (fileIndex : UInt64)
    (some : encodeDirEntry infoClass entry fileIndex ≠ []) :
    4 ≤ (encodeDirEntry infoClass entry fileIndex).length := by
  revert some
  simp only [encodeDirEntry]
  split_ifs <;> intro some
  case neg => exact absurd rfl some
  all_goals
    simp only [List.length_append, length_dirEntryPrefix, length_u32le]
    omega

theorem length_encodeFileAllInformation_le (info : FileInfo) (fileIndex : UInt64)
    (accessMask : UInt32) :
    (encodeFileAllInformation info fileIndex accessMask).length ≤ 101 + info.nameSize := by
  simp only [encodeFileAllInformation, FileInfo.nameSize]
  split <;>
    simp only [encodeFileBasicInformation, encodeFileStandardInformation,
      encodeFileInternalInformation, encodeFileEaInformation, encodeFileAccessInformation,
      encodeFilePositionInformation, encodeFileModeInformation, encodeFileAlignmentInformation,
      encodeFileNameInformation, List.length_append, length_encodeTimes, length_u16le,
      length_u32le, length_u64le, List.length_cons, List.length_nil] <;>
    omega

end InfoClass

/-- A buffer of at most `n` bytes, if there is one. -/
def Within (n : Nat) (r : Except NtStatus Bytes) : Prop := ∀ buf, r = .ok buf → buf.length ≤ n

namespace Within

variable {n : Nat} {a b : Except NtStatus Bytes}

theorem ok {buf : Bytes} (h : buf.length ≤ n) : Within n (.ok buf) := by
  intro buf' same
  cases same
  exact h

theorem error {status : NtStatus} : Within n (.error status) := nofun

theorem ite {c : Prop} [Decidable c] (yes : Within n a) (no : Within n b) :
    Within n (if c then a else b) := by
  split
  · exact yes
  · exact no

end Within

open InfoClass in
theorem QueryInfo.fileBuffer_within (infoClass : UInt8) (info : FileInfo) (fileIndex : UInt64) :
    Within (101 + info.nameSize) (fileBuffer infoClass info fileIndex) := by
  have fixed (buf : Bytes) (le : buf.length ≤ 101) : Within (101 + info.nameSize) (.ok buf) :=
    .ok (le.trans (Nat.le_add_right 101 _))
  unfold fileBuffer
  -- the classes are tried in order; three buffers depend on a name
  refine .ite (fixed _ ?basic) (.ite (fixed _ ?standard) (.ite (fixed _ ?internal)
    (.ite (fixed _ ?ea) (.ite .error (.ite (fixed _ ?access) (.ite (fixed _ ?position)
      (.ite (fixed _ ?mode) (.ite (fixed _ ?alignment) (.ite (.ok ?name) (.ite (.ok ?all)
        (.ite (fixed _ ?network) (.ite (fixed _ ?stream) .error))))))))))))
  case name =>
    simp only [encodeFileNameInformation, List.length_append, length_u32le, FileInfo.nameSize]
    omega
  case all => exact length_encodeFileAllInformation_le _ _ _
  case stream =>
    have name : (utf16le defaultStream).length = 14 := rfl
    unfold encodeFileStreamInformation
    split
    · exact Nat.zero_le 101
    · simp [name]
  all_goals
    simp [encodeFileBasicInformation, encodeFileStandardInformation,
      encodeFileInternalInformation, encodeFileEaInformation, encodeFileAccessInformation,
      encodeFilePositionInformation, encodeFileModeInformation, encodeFileAlignmentInformation,
      encodeFileNetworkOpenInformation]

open InfoClass in
theorem QueryInfo.fsBuffer_within (infoClass : UInt8) (creationTime : UInt64)
    (caps : BackendCapabilities) : Within 101 (fsBuffer infoClass creationTime caps) := by
  have label : (utf16le volumeLabel).length = 20 := rfl
  have name : (utf16le fsName).length = 8 := rfl
  unfold fsBuffer
  refine .ite (.ok ?volume) (.ite (.ok ?size) (.ite (.ok ?device) (.ite (.ok ?attributes)
    (.ite (.ok ?fullSize) .error))))
  all_goals
    simp [encodeFsVolumeInformation, encodeFsSizeInformation, encodeFsDeviceInformation,
      encodeFsAttributeInformation, encodeFsFullSizeInformation, label, name]

/-- The buffer of a QUERY_INFO is a fixed part and a name at most. -/
theorem QueryInfo.length_buffer_le (infoType : InfoType) (req : QueryInfoRequest) (fid : FileId)
    (stat : SmbResult FileInfo) (caps : BackendCapabilities) (buf : Bytes) (n : Nat)
    (named : ∀ info, stat = .ok info → info.nameSize ≤ n)
    (encoded : buffer infoType req fid stat caps = .ok buf) : buf.length ≤ 101 + n := by
  unfold buffer at encoded
  cases infoType with
  | file =>
    cases stat with
    | error e => cases encoded
    | ok info =>
      exact (fileBuffer_within _ _ _ _ encoded).trans (Nat.add_le_add_left (named info rfl) 101)
  | fileSystem =>
    exact (fsBuffer_within _ _ _ _ encoded).trans (Nat.le_add_right 101 n)
  | security =>
    obtain rfl := Except.ok.inj encoded
    exact Nat.le_trans (by decide) (Nat.le_add_right 101 n)
  | quota => cases encoded

/-! ### The logon messages -/

theorem length_bigEndianBytes_le (rounds n : Nat) : (bigEndianBytes rounds n).length ≤ rounds := by
  induction rounds generalizing n with
  | zero => exact Nat.le_refl 0
  | succ rounds ih =>
    rw [bigEndianBytes]
    split
    · exact Nat.zero_le _
    · have rest := ih (n / 256)
      rw [List.length_append, List.length_singleton]
      omega

/-- A tag and a length take ten bytes at most. -/
theorem length_writeTlv_le (tag : UInt8) (content : Bytes) :
    (writeTlv tag content).length ≤ content.length + 10 := by
  have digits := length_bigEndianBytes_le 8 content.length
  rw [writeTlv, List.cons_append, List.length_cons, List.length_append, derLen]
  split
  · rw [List.length_singleton]
    omega
  · rw [List.length_cons]
    omega

theorem length_optionalField_le (tag inner : UInt8) (value : Bytes) :
    (optionalField tag inner (some value)).length ≤ value.length + 20 := by
  have outside := length_writeTlv_le tag (writeTlv inner value)
  have inside := length_writeTlv_le inner value
  rw [optionalField]
  omega

/-- The token around a CHALLENGE. -/
theorem length_encodeRespToken_le (state : NegState) (token : Bytes) :
    (encodeRespToken state (some oidNtlmssp) (some token) none).length ≤ token.length + 75 := by
  have mech := length_optionalField_le tagCtx1 tagObject oidNtlmssp
  have tokenField := length_optionalField_le tagCtx2 tagOctet token
  have oid : oidNtlmssp.length = 10 := rfl
  have stateField : (writeTlv tagCtx0 (writeTlv tagEnumerated [state.toByte])).length = 5 := by
    cases state <;> rfl
  rw [encodeRespToken]
  refine (length_writeTlv_le _ _).trans ?_
  have sequence := length_writeTlv_le tagSequence
    (writeTlv tagCtx0 (writeTlv tagEnumerated [state.toByte]) ++
      optionalField tagCtx1 tagObject (some oidNtlmssp) ++
      optionalField tagCtx2 tagOctet (some token) ++ optionalField tagCtx3 tagOctet none)
  have noMic : (optionalField tagCtx3 tagOctet none).length = 0 := rfl
  simp only [List.length_append] at sequence ⊢
  omega

/-- The CHALLENGE of a server that gives its name as target, domain and computer. -/
theorem length_challenge (challenge : ByteVec 8) (name : Text) (now : UInt64) (blob : Bytes)
    (acceptor : NtlmServer)
    (started : (NtlmServer.new challenge ⟨name, name, name, [], []⟩ now).step1Negotiate blob =
      some acceptor) : acceptor.challenge.1.length = 88 + 3 * (utf16le name).length := by
  obtain ⟨request, -, same⟩ := Option.bind_eq_some_iff.mp started
  obtain rfl := Option.some.inj same
  have noName : (utf16le []).length = 0 := rfl
  have signature : ntlmsspSignature.length = 8 := rfl
  simp only [NtlmServer.challenge, NtlmServer.new, buildChallenge, encodeAvPairs, List.flatMap_cons,
    List.flatMap_nil, List.length_append, length_u16le, length_u32le, length_u64le,
    ByteVec.length_val, List.length_replicate, List.length_cons, List.length_nil, noName, signature]
  omega

end

end SmbServer
