import SmbServer.Properties.OutputLimit

/-!
# SmbServer.Properties.FileIdentity

The number that stands for a file in QUERY_INFO and in QUERY_DIRECTORY.

## Main result

`identity_iff`: on every backend that numbers its files and in every state of a connection, what the
requests report as the number of a file is the backend's, if and only if every open that the
backend can stat has that number as the volatile half of its FileId.

QUERY_DIRECTORY reports what the backend says. FileInternalInformation and FileAllInformation
report the volatile half of the FileId, whether the backend has a number or not.

## Proof strategy

A client reads a number at a fixed offset (`indexAt`), from a whole buffer or from a record of a
chain. For QUERY_INFO the offset is where the encoders write the volatile half; for QUERY_DIRECTORY
`fill_eq` gives the records of the buffer, and each holds the number of its entry.
-/

namespace SmbServer

open Lib

/-! ### Backends that number their files -/

/-- A backend whose file indices are non-zero and unique. -/
structure Identifies (σ η : Type) [Host σ η] (File : Type) where
  /-- The file that a handle has open. -/
  file : η → File
  /-- The entries of listings that are about a file. -/
  Describes : DirEntry → File → Prop
  index : File → UInt64
  nonzero : ∀ f, index f ≠ 0
  unique : Function.Injective index
  stat_index : ∀ (h : η) (host : σ) info, (Host.stat h host).1 = .ok info →
    info.fileIndex = index (file h)
  entry_index : ∀ entry f, Describes entry f → entry.info.fileIndex = index f

/-! ### What a client reads -/

/-- The number at an offset, when the buffer reaches that far. -/
def indexAt (off : Nat) (buf : Bytes) : Option UInt64 :=
  if off + 8 ≤ buf.length then some (readU64 buf off) else none

theorem indexAt_take {off n : Nat} {buf : Bytes} {i : UInt64}
    (read : indexAt off (buf.take n) = some i) : indexAt off buf = some i := by
  rw [indexAt] at read ⊢
  split at read
  next inside =>
    rw [List.length_take] at inside
    rw [if_pos (by omega)]
    rwa [readU64, slice_take _ _ _ _ (by omega)] at read
  next => cases read

theorem indexAt_append (front rest : Bytes) (i : UInt64) {off : Nat} (long : front.length = off) :
    indexAt off (front ++ (u64le i ++ rest)) = some i := by
  rw [indexAt, if_pos, readU64, slice_between _ _ _ _ _ long (length_u64le i), u64OfLe_u64le]
  rw [List.length_append, List.length_append, length_u64le]
  omega

/-- A record without a successor whose end is cut off: it is read as a whole or not at all. -/
theorem walk_cut {off told fuel : Nat} {buf : Bytes} {is : List UInt64} (ends : readU32 buf 0 = 0)
    (read : Chain.walk 0 (indexAt off) fuel (buf.take told) = some is) :
    ∃ i, is = [i] ∧ indexAt off buf = some i := by
  cases fuel with
  | zero => cases read
  | succ fuel =>
    rw [Chain.walk] at read
    by_cases enough : off + 8 ≤ (buf.take told).length
    · have same : readU32 (buf.take told) 0 = readU32 buf 0 := by
        rw [List.length_take] at enough
        rw [readU32, slice_take _ _ _ _ (by omega), readU32]
      simp only [same, ends, UInt32.toNat_zero, if_true, Option.map_eq_some_iff] at read
      obtain ⟨i, here, rfl⟩ := read
      exact ⟨i, rfl, indexAt_take here⟩
    · have nothing (n : Nat) : indexAt off ((buf.take told).take n) = none := by
        rw [indexAt, if_neg]
        rw [List.length_take]
        omega
      have atAll : indexAt off (buf.take told) = none := by rw [indexAt, if_neg enough]
      simp only [nothing, atAll, Option.map_none, Option.bind_none, ite_self] at read
      cases read

/-- Where FileAllInformation has the number; FileInternalInformation starts with it. -/
def indexOffset (infoClass : UInt8) : Nat :=
  if infoClass = InfoClass.fileAllInformation then 64 else 0

/-- Where the two classes of entries that carry a FileId have it. -/
def fileIdOffset (infoClass : UInt8) : Nat :=
  if infoClass = InfoClass.fileIdBothDirectoryInformation then 96 else 72

/-- The FileIds of the entries in the body of a QUERY_DIRECTORY response. -/
def readFileIds (infoClass : UInt8) (body : Bytes) : Option (List UInt64) :=
  let buffer := responseBuffer body
  Chain.walk 0 (indexAt (fileIdOffset infoClass)) buffer.length buffer

section
variable {σ η : Type} [Host σ η] {File : Type}

/-- In a state of a connection, some request reports a number for a file. -/
inductive Reports (ids : Identifies σ η File) (w : World σ η) : File → UInt64 → Prop
  | queried {hdr : Smb2Header} {body : Bytes} {req : QueryInfoRequest} {target : Target η}
      {h : Boxed η} {i : UInt64}
      (admitted : QueryInfo.validate w.conn hdr body = .ok (req, .file, target, h))
      (asks : req.fileInformationClass = InfoClass.fileInternalInformation ∨
        req.fileInformationClass = InfoClass.fileAllInformation)
      (success : (QueryInfo.handle hdr body w).1.status = statusSuccess)
      (read : indexAt (indexOffset req.fileInformationClass)
        (responseBuffer (QueryInfo.handle hdr body w).1.body) = some i) :
      Reports ids w (ids.file h.inner) i
  | listed {hdr : Smb2Header} {body : Bytes} {req : QueryDirectoryRequest} {target : Target η}
      {entry : DirEntry} {f : File} {fileIds : List UInt64} {k : Nat} {i : UInt64}
      (admitted : QueryDirectory.validate w.conn hdr body = .ok (req, target))
      (carries : DirRecord.carriesFileId req.fileInformationClass = true)
      (success : (QueryDirectory.handle hdr body w).1.status = statusSuccess)
      (read : readFileIds req.fileInformationClass (QueryDirectory.handle hdr body w).1.body =
        some fileIds)
      (here : fileIds[k]? = some i)
      (about : (QueryDirectory.unread req target w.env.host)[k]? = some entry)
      (describes : ids.Describes entry f) :
      Reports ids w f i

/-- The requests report the backend's numbers: one for each file, whichever open or listing it is
reached by, and different ones for different files. -/
structure IdentityAgrees (ids : Identifies σ η File) (w : World σ η) : Prop where
  index : ∀ f i, Reports ids w f i → i = ids.index f
  same : ∀ f i j, Reports ids w f i → Reports ids w f j → i = j
  distinct : ∀ f g i, Reports ids w f i → Reports ids w g i → f = g

/-- The volatile half of the FileId of every open that answers a stat is the number of its file. -/
def VolatileIsIndex (ids : Identifies σ η File) (w : World σ η) : Prop :=
  ∀ sid tid fid file h info, sid ≠ 0 → w.conn.findOpen sid tid fid = some file →
    file.handle = some h → (Host.stat h.inner w.env.host).1 = .ok info →
      file.fileId.volatile = ids.index (ids.file h.inner)

end

/-! ### QUERY_DIRECTORY -/

namespace QueryDirectory

/-- A padded entry of these classes has the number of its file at the offset, behind the link. -/
theorem padded_fileId {infoClass : UInt8} (carries : DirRecord.carriesFileId infoClass = true)
    (entry : DirEntry) :
    ∃ front rest, front.length + 4 = fileIdOffset infoClass ∧
      padded infoClass entry = u32le 0 ++ (front ++ (u64le entry.info.fileIndex ++ rest)) := by
  have known : isFileInfoClass infoClass = true ∧ infoClass ≠ InfoClass.fileNamesInformation ∧
      ∃ front, front.length + 64 = fileIdOffset infoClass ∧
        DirRecord.extra infoClass entry.info.fileIndex = front ++ u64le entry.info.fileIndex := by
    simp only [DirRecord.carriesFileId, Bool.or_eq_true, beq_iff_eq] at carries
    rcases carries with rfl | rfl
    · exact ⟨rfl, by decide, u32le 0 ++ [0, 0] ++ List.replicate 24 0 ++ u16le 0, rfl, rfl⟩
    · exact ⟨rfl, by decide, u32le 0 ++ u32le 0, rfl, rfl⟩
  obtain ⟨known, names, front, long, extra⟩ := known
  -- the sixty bytes between the link and what the class puts in front of the number
  let fixed := u32le entry.info.fileIndex.toUInt32 ++ (InfoClass.encodeTimes entry.info ++
    (u64le entry.info.endOfFile ++ (u64le entry.info.allocationSize ++
      (u32le entry.info.attributes ++ u32le (UInt32.ofNat (utf16le entry.info.name).length)))))
  refine ⟨fixed ++ front, utf16le entry.info.name ++ List.replicate (InfoClass.align8
    (InfoClass.encodeDirEntry infoClass entry entry.info.fileIndex).length -
      (InfoClass.encodeDirEntry infoClass entry entry.info.fileIndex).length) 0, ?_, ?_⟩
  · have sixty : fixed.length = 60 := by
      simp only [fixed, InfoClass.encodeTimes, List.length_append, length_u32le, length_u64le]
    rw [List.length_append, sixty]
    omega
  · rw [padded]
    generalize List.replicate _ (0 : UInt8) = zeros
    rw [InfoClass.encodeDirEntry_eq known, DirRecord.dirEntryFields_eq known names, extra]
    simp only [fixed, List.append_assoc]

theorem indexAt_linked (next : UInt32) (front rest : Bytes) (i : UInt64) {off : Nat}
    (long : front.length + 4 = off) :
    indexAt off (u32le next ++ (front ++ (u64le i ++ rest))) = some i := by
  rw [← List.append_assoc]
  apply indexAt_append
  rw [List.length_append, length_u32le]
  omega

/-- The number is read from such an entry, whatever it links to. -/
theorem reads_fileId {infoClass : UInt8} (carries : DirRecord.carriesFileId infoClass = true)
    (entry : DirEntry) (short : (padded infoClass entry).length < 2 ^ 32) :
    Chain.Reads 0 (indexAt (fileIdOffset infoClass)) (padded infoClass entry)
      entry.info.fileIndex := by
  obtain ⟨front, rest, long, shape⟩ := padded_fileId carries entry
  constructor
  · rw [shape, List.length_append, length_u32le]
    omega
  · exact short
  · rw [shape, readU32, slice_append_exact _ _ 4 (length_u32le 0), u32OfLe_u32le]
  · rw [shape]
    exact indexAt_linked 0 front rest _ long
  · rw [Chain.link, shape, patch, List.take_zero, List.nil_append, Nat.zero_add, length_u32le,
      List.drop_left' (length_u32le 0)]
    exact indexAt_linked _ front rest _ long

/-- The FileIds of a response are the numbers of the entries that it carries, whatever the length
of their names. -/
theorem readFileIds_reply {infoClass : UInt8} (carries : DirRecord.carriesFileId infoClass = true)
    (cap : UInt32) (single : Bool) (entries : List DirEntry) (fileIds : List UInt64)
    (success : (reply (fill infoClass cap.toNat single entries ⟨[], none⟩).1).status =
      statusSuccess)
    (read : readFileIds infoClass
      (reply (fill infoClass cap.toNat single entries ⟨[], none⟩).1).body = some fileIds) :
    ∃ n, fileIds = (entries.take n).map (·.info.fileIndex) := by
  have known : isFileInfoClass infoClass = true := by
    simp only [DirRecord.carriesFileId, Bool.or_eq_true, beq_iff_eq] at carries
    rcases carries with rfl | rfl <;> rfl
  obtain ⟨n, inside, filled, -, total⟩ := fill_eq known cap.toNat single entries [] (by simp)
  rw [show (⟨[], none⟩ : Output) = .of [] from rfl, filled, List.nil_append] at success read
  rw [List.nil_append] at total
  refine ⟨n, ?_⟩
  have nonempty : (Output.of ((entries.take n).map (padded infoClass))).buf ≠ [] := by
    intro empty
    rw [reply, empty] at success
    exact absurd success (by decide)
  have long : (Output.of ((entries.take n).map (padded infoClass))).buf.length =
      (((entries.take n).map (padded infoClass)).map List.length).sum :=
    Chain.length_join _ (room_padded known _)
  rw [reply_of_nonempty _ nonempty, HandlerResponse.ok, readFileIds, responseBuffer_write] at read
  rcases total with zero | ⟨-, one⟩ | within
  · subst zero
    exact absurd rfl nonempty
  · -- one entry, perhaps cut off by the length that the client is told
    obtain ⟨entry, only⟩ := List.length_eq_one_iff.mp
      (show (entries.take n).length = 1 by rw [List.length_take]; omega)
    rw [only] at read ⊢
    obtain ⟨front, rest, far, shape⟩ := padded_fileId carries entry
    have cut : Chain.walk 0 (indexAt (fileIdOffset infoClass))
        ((padded infoClass entry).take ((padded infoClass entry).length % 2 ^ 32)).length
        ((padded infoClass entry).take ((padded infoClass entry).length % 2 ^ 32)) =
          some fileIds := read
    have whole := indexAt_linked 0 front rest entry.info.fileIndex far
    rw [← shape] at whole
    obtain ⟨i, rfl, here⟩ := walk_cut (by rw [shape, readU32, slice_append_exact _ _ 4
      (length_u32le 0), u32OfLe_u32le]) cut
    rw [whole] at here
    rw [← Option.some.inj here]
    rfl
  · -- the whole buffer is below the length asked for, and so is every entry
    have small : (Output.of ((entries.take n).map (padded infoClass))).buf.length < 2 ^ 32 := by
      rw [long]
      exact Nat.lt_of_le_of_lt within cap.toNat_lt
    rw [Nat.mod_eq_of_lt small, List.take_length] at read
    have nothingLost : Chain.walk 0 (indexAt (fileIdOffset infoClass))
        (Output.of ((entries.take n).map (padded infoClass))).buf.length
        (Output.of ((entries.take n).map (padded infoClass))).buf =
          some ((entries.take n).map (·.info.fileIndex)) := by
      refine Chain.walk_join (padded infoClass) _ (entries.take n) ?_ ?_ _ ?_
      · intro empty
        rw [empty] at nonempty
        exact absurd rfl nonempty
      · intro entry member
        refine reads_fileId carries entry ?_
        obtain ⟨before, behind, split⟩ := List.append_of_mem member
        rw [split, List.map_append, List.map_append, List.sum_append, List.map_cons, List.map_cons,
          List.sum_cons] at within
        have bound := cap.toNat_lt
        omega
      · have bytes := @Chain.length_le_join 0 _ (room_padded known (entries.take n))
        rwa [List.length_map] at bytes
    exact (Option.some.inj (read.symm.trans nothingLost))

variable {σ η : Type} [Host σ η]

/-- Every FileId that a request reports is the number of the entry in its place. -/
theorem handle_fileIds {hdr : Smb2Header} {body : Bytes} {w : World σ η}
    {req : QueryDirectoryRequest} {target : Target η} {fileIds : List UInt64}
    (admitted : validate w.conn hdr body = .ok (req, target))
    (carries : DirRecord.carriesFileId req.fileInformationClass = true)
    (success : (handle hdr body w).1.status = statusSuccess)
    (read : readFileIds req.fileInformationClass (handle hdr body w).1.body = some fileIds) :
    ∃ n, fileIds = ((unread req target w.env.host).take n).map (·.info.fileIndex) := by
  cases loaded : cursorFor req target w.env.host with
  | none => exact absurd success (handle_of_no_cursor admitted loaded).1
  | some cursor =>
    rw [(handle_of_cursor admitted loaded).1] at success read
    simp only [unread, loaded]
    exact readFileIds_reply carries _ _ _ fileIds success read

end QueryDirectory

/-! ### QUERY_INFO -/

namespace QueryInfo

/-- The two classes that report a number have the volatile half of the FileId at the offset. -/
theorem buffer_index {req : QueryInfoRequest}
    (asks : req.fileInformationClass = InfoClass.fileInternalInformation ∨
      req.fileInformationClass = InfoClass.fileAllInformation)
    (fid : FileId) (info : FileInfo) (caps : BackendCapabilities) :
    ∃ front rest, front.length = indexOffset req.fileInformationClass ∧
      buffer .file req fid (.ok info) caps = .ok (front ++ (u64le fid.volatile ++ rest)) := by
  rcases asks with one | all
  · refine ⟨[], [], by rw [one]; rfl, ?_⟩
    simp only [buffer, one]
    show Except.ok (u64le fid.volatile) = _
    rw [List.append_nil, List.nil_append]
  · let behind := InfoClass.encodeFileEaInformation ++
      (InfoClass.encodeFileAccessInformation 0x001F01FF ++
        (InfoClass.encodeFilePositionInformation ++ (InfoClass.encodeFileModeInformation 0 ++
          (InfoClass.encodeFileAlignmentInformation ++
            InfoClass.encodeFileNameInformation info.name))))
    have layout : InfoClass.encodeFileBasicInformation info ++
        InfoClass.encodeFileStandardInformation info ++
        InfoClass.encodeFileInternalInformation fid.volatile ++
        InfoClass.encodeFileEaInformation ++ InfoClass.encodeFileAccessInformation 0x001F01FF ++
        InfoClass.encodeFilePositionInformation ++ InfoClass.encodeFileModeInformation 0 ++
        InfoClass.encodeFileAlignmentInformation ++
        InfoClass.encodeFileNameInformation info.name =
      InfoClass.encodeFileBasicInformation info ++ InfoClass.encodeFileStandardInformation info ++
        (u64le fid.volatile ++ behind) := by
      simp only [behind, InfoClass.encodeFileInternalInformation, List.append_assoc]
    have sixtyFour : (InfoClass.encodeFileBasicInformation info ++
        InfoClass.encodeFileStandardInformation info).length =
          indexOffset req.fileInformationClass := by
      rw [all]
      simp [InfoClass.encodeFileBasicInformation, InfoClass.encodeFileStandardInformation,
        InfoClass.encodeTimes, indexOffset]
    -- a short name is followed by one more byte
    have encoded : ∃ rest, InfoClass.encodeFileAllInformation info fid.volatile 0x001F01FF =
        InfoClass.encodeFileBasicInformation info ++ InfoClass.encodeFileStandardInformation info ++
          (u64le fid.volatile ++ rest) := by
      rw [InfoClass.encodeFileAllInformation, layout]
      split
      · exact ⟨behind ++ [0], by simp only [List.append_assoc]⟩
      · exact ⟨behind, rfl⟩
    obtain ⟨rest, encoded⟩ := encoded
    refine ⟨_, rest, sixtyFour, ?_⟩
    simp only [buffer, all]
    exact congrArg Except.ok encoded

variable {σ η : Type} [Host σ η]

/-- What an admitted request answers. -/
theorem handle_of_validate {hdr : Smb2Header} {body : Bytes} {w : World σ η}
    {req : QueryInfoRequest} {infoType : InfoType} {target : Target η} {h : Boxed η}
    (admitted : validate w.conn hdr body = .ok (req, infoType, target, h)) :
    (handle hdr body w).1 =
      match buffer infoType req target.file.fileId (Host.stat h.inner w.env.host).1
        (target.tree.share.backend.capabilities σ) with
      | .error status => .err status
      | .ok buf => respond req buf := by
  simp only [handle, Action.bind_apply, getConn_apply, admitted, Boxed.stat, issue_apply]
  cases buffer infoType req target.file.fileId (Host.stat h.inner w.env.host).1
    (target.tree.share.backend.capabilities σ) <;> rfl

/-- A request for a number reports the volatile half of the FileId of its open. -/
theorem handle_index {hdr : Smb2Header} {body : Bytes} {w : World σ η} {req : QueryInfoRequest}
    {target : Target η} {h : Boxed η} {i : UInt64}
    (admitted : validate w.conn hdr body = .ok (req, .file, target, h))
    (asks : req.fileInformationClass = InfoClass.fileInternalInformation ∨
      req.fileInformationClass = InfoClass.fileAllInformation)
    (success : (handle hdr body w).1.status = statusSuccess)
    (read : indexAt (indexOffset req.fileInformationClass)
      (responseBuffer (handle hdr body w).1.body) = some i) :
    i = target.file.fileId.volatile ∧ ∃ info, (Host.stat h.inner w.env.host).1 = .ok info := by
  rw [handle_of_validate admitted] at success read
  cases stat : (Host.stat h.inner w.env.host).1 with
  | error e =>
    simp only [stat, buffer, HandlerResponse.err] at success
    cases e <;> exact absurd success (by decide)
  | ok info =>
    obtain ⟨front, rest, long, encoded⟩ := buffer_index asks target.file.fileId info
      (target.tree.share.backend.capabilities σ)
    simp only [stat, encoded] at success read
    rw [respond] at success read
    split at success
    next => exact absurd success (by decide)
    next fits =>
      rw [if_neg fits, HandlerResponse.ok, responseBuffer_write] at read
      have whole := indexAt_take read
      rw [indexAt_append front rest _ long] at whole
      exact ⟨(Option.some.inj whole).symm, info, rfl⟩

end QueryInfo

/-! ### The two together -/

namespace QueryInfo

theorem parse_queryInfoBody (infoType infoClass : UInt8) (fid : FileId) (length : UInt32) :
    ∃ req, QueryInfoRequest.parse (Client.queryInfoBody infoType infoClass fid length) = some req ∧
      req.infoType = infoType ∧ req.fileInformationClass = infoClass ∧ req.fileId = fid ∧
        req.outputBufferLength = length := by
  have layout : Client.queryInfoBody infoType infoClass fid length =
      u16le 41 ++ (infoType :: infoClass :: (u32le length ++ (u16le 0 ++ (u16le 0 ++ (u32le 0 ++
        (u32le 0 ++ (u32le 0 ++ (fid.write ++ [])))))))) := by
    simp only [Client.queryInfoBody, List.append_assoc, List.cons_append, List.nil_append,
      List.append_nil]
  refine ⟨⟨41, infoType, infoClass, length, 0, 0, 0, 0, 0, fid, []⟩,
    Reader.parse_eq_some.mpr ⟨[], ?_⟩, rfl, rfl, rfl, rfl⟩
  rw [layout, Reader.u16_bind_append, Reader.u8_bind_cons, Reader.u8_bind_cons,
    Reader.u32_bind_append, Reader.u16_bind_append, Reader.u16_bind_append, Reader.u32_bind_append,
    Reader.u32_bind_append, Reader.u32_bind_append, FileId.read_bind_append]
  rfl

end QueryInfo

section
variable {σ η : Type} [Host σ η] {File : Type}

/-- The number of every open whose handle answers a stat is reported to a client that asks. -/
theorem Reports.of_open (ids : Identifies σ η File) (w : World σ η) {sid : UInt64} {tid : UInt32}
    {fid : FileId} {file : Open η} {h : Boxed η} {info : FileInfo} (nonzero : sid ≠ 0)
    (found : w.conn.findOpen sid tid fid = some file) (handle : file.handle = some h)
    (stat : (Host.stat h.inner w.env.host).1 = .ok info) :
    Reports ids w (ids.file h.inner) file.fileId.volatile := by
  obtain ⟨tree, there, inside⟩ := Option.bind_eq_some_iff.mp found
  let hdr := Client.header .queryInfo 0 sid tid
  let body := Client.queryInfoBody 1 InfoClass.fileInternalInformation fid 8
  obtain ⟨req, parsed, infoType, infoClass, fileId, length⟩ :=
    QueryInfo.parse_queryInfoBody 1 InfoClass.fileInternalInformation fid 8
  have named : lookupTarget w.conn hdr req.fileId = .ok ⟨tid, tree, file⟩ := by
    rw [fileId, lookupTarget_eq_ok, lookupSessionTree_eq_ok]
    exact ⟨⟨rfl, nonzero, there⟩, inside⟩
  have admitted : QueryInfo.validate w.conn hdr body = .ok (req, .file, ⟨tid, tree, file⟩, h) :=
    QueryInfo.validate_of_open parsed (by rw [infoType]; rfl) named handle
  have answered : (QueryInfo.handle hdr body w).1 = .ok (BufferResponse.write
      { structureSize := 9
        outputBufferOffset := 64 + 8
        outputBufferLength := UInt32.ofNat (u64le file.fileId.volatile).length
        buffer := u64le file.fileId.volatile }) := by
    rw [QueryInfo.handle_of_validate admitted, stat]
    simp only [QueryInfo.buffer, infoClass]
    show QueryInfo.respond req (u64le file.fileId.volatile) = _
    rw [QueryInfo.respond, length, if_neg (by rw [length_u64le]; decide)]
  refine .queried admitted (.inl infoClass) (by rw [answered]; rfl) ?_
  rw [answered, HandlerResponse.ok, responseBuffer_write, length_u64le, infoClass]
  exact indexAt_append [] [] _ rfl

/-- Every request reports the backend's number of a file if and only if every open has it for the
volatile half of its FileId. -/
theorem identity_iff (ids : Identifies σ η File) (w : World σ η) :
    IdentityAgrees ids w ↔ VolatileIsIndex ids w := by
  constructor
  · intro agrees sid tid fid file h info nonzero found handle stat
    exact agrees.index _ _ (.of_open ids w nonzero found handle stat)
  · intro volatile
    have index (f : File) (i : UInt64) (reports : Reports ids w f i) : i = ids.index f := by
      cases reports with
      | queried admitted asks success read =>
        obtain ⟨rfl, info, stat⟩ := QueryInfo.handle_index admitted asks success read
        obtain ⟨named, live⟩ := QueryInfo.validate_eq_ok w.conn _ _ _ _ _ _ admitted
        obtain ⟨tree, -⟩ := (lookupTarget_eq_ok _ _ _ _).mp named
        obtain ⟨-, nonzero, -⟩ := (lookupSessionTree_eq_ok _ _ _ _).mp tree
        exact volatile _ _ _ _ _ info nonzero (findOpen_of_lookupTarget _ _ _ _ named) live stat
      | listed admitted carries success read here about describes =>
        obtain ⟨n, rfl⟩ := QueryDirectory.handle_fileIds admitted carries success read
        rw [List.getElem?_map, Option.map_eq_some_iff] at here
        obtain ⟨entry', taken, rfl⟩ := here
        rw [List.getElem?_take] at taken
        split at taken
        · rw [about] at taken
          obtain rfl := Option.some.inj taken
          exact ids.entry_index _ _ describes
        · cases taken
    constructor
    · exact index
    · intro f i j first second
      rw [index f i first, index f j second]
    · intro f g i first second
      apply ids.unique
      rw [← index f i first, index g i second]

end

open scoped Sample

/-- The numbers of the shelf. -/
def Sample.shelfFiles : Identifies Sample.Shelf Bool Bool where
  file directory := directory
  Describes entry directory := entry.info.fileIndex = if directory then 3 else 5
  index directory := if directory then 3 else 5
  nonzero directory := by cases directory <;> decide
  unique := by
    intro first second same
    cases first <;> cases second <;> first | rfl | exact absurd same (by decide)
  stat_index directory host info answer := by
    obtain rfl := Except.ok.inj answer
    rfl
  entry_index _ _ describes := describes

/-- The file that the shelf lists is opened. -/
def Sample.openListed : Bytes :=
  Client.plain .create 1 1 (Client.createBody Create.fileReadData 1 0 ['f'])

/-- The file is listed with the number 5, and its FileInternalInformation says 1. -/
theorem queryInfo_renumbers :
    ¬∀ (ids : Identifies Sample.Shelf Bool Bool) (w : World Sample.Shelf Bool),
      IdentityAgrees ids w := by
  intro all
  have agrees := all Sample.shelfFiles (Sample.shelfBehind [Sample.openListed])
  have reached : ((Sample.shelfBehind [Sample.openListed]).conn.findOpen 1 1 ⟨1, 1⟩).any
      (fun file => file.fileId.volatile == 1 && file.handle.isSome) = true := by
    decide +kernel
  simp only [Option.any_eq_true, Bool.and_eq_true, beq_iff_eq, Option.isSome_iff_exists] at reached
  obtain ⟨file, found, volatile, h, handle⟩ := reached
  have reported := agrees.index _ _ (.of_open Sample.shelfFiles _ (by decide) found handle rfl)
  have noNumber (directory : Bool) : 1 ≠ Sample.shelfFiles.index directory := by
    cases directory <;> decide
  rw [volatile] at reported
  exact noNumber _ reported

end SmbServer
