import SmbServer.Effects.Failure
import SmbServer.Lib.Chain

/-!
# SmbServer.Effects.Listing

What a QUERY_DIRECTORY writes into its buffer, and what a client reads out of it.

The encoding loop appends padded entries to a chain (`fill_eq`); it stops for its buffer only behind
the first one. `DirRecord.read` is the client's side of `encode_dir_entry`, for every class.
-/

namespace SmbServer

open Lib

/-! ### Directory entries as a client reads them -/

/-- The fields that FileNamesInformation leaves out. -/
structure DirDetails where
  creationTime : UInt64
  lastAccessTime : UInt64
  lastWriteTime : UInt64
  changeTime : UInt64
  endOfFile : UInt64
  allocationSize : UInt64
  attributes : UInt32
  deriving DecidableEq

/-- A directory entry, as far as its class carries it. -/
structure DirRecord where
  name : Text
  fileIndex : UInt32
  details : Option DirDetails
  fileId : Option UInt64
  deriving DecidableEq

def DirDetails.of (info : FileInfo) : DirDetails where
  creationTime := info.creationTime
  lastAccessTime := info.lastAccessTime
  lastWriteTime := info.lastWriteTime
  changeTime := info.changeTime
  endOfFile := info.endOfFile
  allocationSize := info.allocationSize
  attributes := info.attributes

namespace DirRecord

def carriesFileId (infoClass : UInt8) : Bool :=
  infoClass == InfoClass.fileIdBothDirectoryInformation ||
    infoClass == InfoClass.fileIdFullDirectoryInformation

/-- What an entry of this class says about a file. -/
def of (infoClass : UInt8) (info : FileInfo) : DirRecord where
  name := info.name
  fileIndex := info.fileIndex.toUInt32
  details := if infoClass = InfoClass.fileNamesInformation then none else some (.of info)
  fileId := if carriesFileId infoClass then some info.fileIndex else none

def readDetails : Reader DirDetails := do
  let creationTime ← Reader.u64
  let lastAccessTime ← Reader.u64
  let lastWriteTime ← Reader.u64
  let changeTime ← Reader.u64
  let endOfFile ← Reader.u64
  let allocationSize ← Reader.u64
  let attributes ← Reader.u32
  return { creationTime, lastAccessTime, lastWriteTime, changeTime, endOfFile, allocationSize,
           attributes }

/-- The fields between the length of a name and the name: EaSize, the short name, reserved bytes,
and in two of the classes the FileId. -/
def readExtra (infoClass : UInt8) : Reader (Option UInt64) :=
  open InfoClass in
  if infoClass = fileFullDirectoryInformation then do
    let _ ← Reader.bytes 4
    return none
  else if infoClass = fileBothDirectoryInformation then do
    let _ ← Reader.bytes 30
    return none
  else if infoClass = fileIdBothDirectoryInformation then do
    let _ ← Reader.bytes 32
    let fileId ← Reader.u64
    return some fileId
  else if infoClass = fileIdFullDirectoryInformation then do
    let _ ← Reader.bytes 8
    let fileId ← Reader.u64
    return some fileId
  else return none

/-- One entry, behind its NextEntryOffset. -/
def readFields (infoClass : UInt8) : Reader DirRecord := do
  let fileIndex ← Reader.u32
  let details ←
    if infoClass = InfoClass.fileNamesInformation then pure none
    else do
      let details ← readDetails
      pure (some details)
  let length ← Reader.u32
  let fileId ← readExtra infoClass
  let name ← Reader.bytes length.toNat
  return { name := fromUtf16Lossy (utf16Units name), fileIndex, details, fileId }

def read (infoClass : UInt8) : Reader DirRecord := do
  let _ ← Reader.u32
  readFields infoClass

end DirRecord

/-- The buffer of a response, where OutputBufferOffset and OutputBufferLength say that it is. -/
def responseBuffer (body : Bytes) : Bytes :=
  slice body ((readU16 body 2).toNat - smb2HeaderLen) (readU32 body 4).toNat

/-- What a client reads out of the body of a QUERY_DIRECTORY response: its buffer, entry by entry
along NextEntryOffset. -/
def readListing (infoClass : UInt8) (body : Bytes) : Option (List DirRecord) :=
  let buffer := responseBuffer body
  Chain.walk 0 (Reader.parse (DirRecord.read infoClass)) buffer.length buffer

/-- The buffer stands behind its eight fixed bytes; of its length a client is told the lower
32 bits. -/
theorem responseBuffer_write (buf : Bytes) :
    responseBuffer (BufferResponse.write
      { structureSize := 9
        outputBufferOffset := 64 + 8
        outputBufferLength := UInt32.ofNat buf.length
        buffer := buf }) = buf.take (buf.length % 2 ^ 32) := by
  have length : (UInt32.ofNat buf.length).toNat = buf.length % 2 ^ 32 := UInt32.toNat_ofNat'
  revert length
  generalize UInt32.ofNat buf.length = outputBufferLength
  intro length
  -- two words and the length, then the buffer
  have shape : BufferResponse.write
      { structureSize := 9
        outputBufferOffset := 64 + 8
        outputBufferLength := outputBufferLength
        buffer := buf } = u16le 9 ++ (u16le (64 + 8) ++ (u32le outputBufferLength ++ buf)) := by
    simp only [BufferResponse.write, List.append_assoc]
  have offset : readU16 (u16le 9 ++ (u16le (64 + 8) ++ (u32le outputBufferLength ++ buf))) 2 =
      64 + 8 := by
    rw [readU16, slice_between _ _ _ _ _ (length_u16le 9) (length_u16le _), u16OfLe_u16le]
  have word : readU32 (u16le 9 ++ (u16le (64 + 8) ++ (u32le outputBufferLength ++ buf))) 4 =
      outputBufferLength := by
    rw [← List.append_assoc, readU32, slice_between _ _ _ _ _ (by simp) (length_u32le _),
      u32OfLe_u32le]
  rw [shape, responseBuffer, offset, word, length,
    show ((64 + 8 : UInt16).toNat - smb2HeaderLen) = 8 from rfl, slice, ← List.append_assoc,
    ← List.append_assoc, List.drop_left' (by simp)]

/-! ### Reading back an entry -/

namespace InfoClass

/-- An encoded entry behind its NextEntryOffset. -/
def dirEntryFields (infoClass : UInt8) (entry : DirEntry) (fileIndex : UInt64) : Bytes :=
  (encodeDirEntry infoClass entry fileIndex).drop 4

theorem encodeDirEntry_eq {infoClass : UInt8} (known : isFileInfoClass infoClass = true)
    (entry : DirEntry) (fileIndex : UInt64) :
    encodeDirEntry infoClass entry fileIndex =
      u32le 0 ++ dirEntryFields infoClass entry fileIndex := by
  simp only [isFileInfoClass, Bool.or_eq_true, beq_iff_eq] at known
  obtain (((((rfl | rfl) | rfl) | rfl) | rfl) | rfl) := known <;> rfl

/-- No class leaves an entry out. -/
theorem length_encodeDirEntry {infoClass : UInt8} (known : isFileInfoClass infoClass = true)
    (entry : DirEntry) (fileIndex : UInt64) :
    4 ≤ (encodeDirEntry infoClass entry fileIndex).length := by
  rw [encodeDirEntry_eq known, List.length_append, length_u32le]
  exact Nat.le_add_right _ _

end InfoClass

namespace DirRecord

/-- The times, the sizes and the attributes are read back. -/
theorem readDetails_bind {β : Type} (f : DirDetails → Reader β) (info : FileInfo) (rest : Bytes) :
    (readDetails >>= f) (InfoClass.encodeTimes info ++ (u64le info.endOfFile ++
      (u64le info.allocationSize ++ (u32le info.attributes ++ rest)))) = f (.of info) rest := by
  simp only [readDetails, InfoClass.encodeTimes, List.append_assoc, bind_assoc, pure_bind,
    Reader.u64_bind_append, Reader.u32_bind_append]
  rfl

/-- An encoded name behind its length. -/
theorem readName (name : Text) (rest : Bytes) (f : Bytes → Reader DirRecord)
    (fits : (utf16le name).length < 2 ^ 32) :
    (Reader.bytes (UInt32.ofNat (utf16le name).length).toNat >>= f) (utf16le name ++ rest) =
      f (utf16le name) rest := by
  apply Reader.bytes_bind_append
  rw [UInt32.toNat_ofNat', Nat.mod_eq_of_lt fits]

/-- What `readExtra` reads. -/
def extra (infoClass : UInt8) (fileIndex : UInt64) : Bytes :=
  open InfoClass in
  if infoClass = fileFullDirectoryInformation then u32le 0
  else if infoClass = fileBothDirectoryInformation then u32le 0 ++ [0, 0] ++ List.replicate 24 0
  else if infoClass = fileIdBothDirectoryInformation then
    (u32le 0 ++ [0, 0] ++ List.replicate 24 0 ++ u16le 0) ++ u64le fileIndex
  else if infoClass = fileIdFullDirectoryInformation then (u32le 0 ++ u32le 0) ++ u64le fileIndex
  else []

/-- The classes other than FileNamesInformation differ in what stands in front of the name. -/
theorem dirEntryFields_eq {infoClass : UInt8} (known : isFileInfoClass infoClass = true)
    (noNames : infoClass ≠ InfoClass.fileNamesInformation) (entry : DirEntry) (fileIndex : UInt64) :
    InfoClass.dirEntryFields infoClass entry fileIndex =
      u32le fileIndex.toUInt32 ++ (InfoClass.encodeTimes entry.info ++
        (u64le entry.info.endOfFile ++ (u64le entry.info.allocationSize ++
          (u32le entry.info.attributes ++ (u32le (UInt32.ofNat (utf16le entry.info.name).length) ++
            (extra infoClass fileIndex ++ utf16le entry.info.name)))))) := by
  -- the six known classes, by the bytes between the short prefix and the name
  have shape : InfoClass.encodeDirEntry infoClass entry fileIndex =
      InfoClass.dirEntryPrefix entry.info fileIndex (utf16le entry.info.name).length ++
        (extra infoClass fileIndex ++ utf16le entry.info.name) := by
    simp only [isFileInfoClass, Bool.or_eq_true, beq_iff_eq] at known
    obtain (((((rfl | rfl) | rfl) | rfl) | rfl) | rfl) := known
    · rfl
    · exact List.append_assoc _ _ _
    · show _ ++ u32le 0 ++ [0, 0] ++ List.replicate 24 0 ++ _ =
        _ ++ (u32le 0 ++ [0, 0] ++ List.replicate 24 0 ++ _)
      simp only [List.append_assoc]
    · exact absurd rfl noNames
    · show _ ++ u32le 0 ++ [0, 0] ++ List.replicate 24 0 ++ u16le 0 ++ u64le fileIndex ++ _ =
        _ ++ (u32le 0 ++ [0, 0] ++ List.replicate 24 0 ++ u16le 0 ++ u64le fileIndex ++ _)
      simp only [List.append_assoc]
    · show _ ++ u32le 0 ++ u32le 0 ++ u64le fileIndex ++ _ =
        _ ++ (u32le 0 ++ u32le 0 ++ u64le fileIndex ++ _)
      simp only [List.append_assoc]
  rw [InfoClass.dirEntryFields, shape, InfoClass.dirEntryPrefix]
  simp only [List.append_assoc]
  exact List.drop_left' (length_u32le 0)

theorem readExtra_bind {β : Type} {infoClass : UInt8} (known : isFileInfoClass infoClass = true)
    (f : Option UInt64 → Reader β) (fileIndex : UInt64) (rest : Bytes) :
    (readExtra infoClass >>= f) (extra infoClass fileIndex ++ rest) =
      f (if carriesFileId infoClass then some fileIndex else none) rest := by
  simp only [isFileInfoClass, Bool.or_eq_true, beq_iff_eq] at known
  -- each class has its own number of bytes to pass over
  obtain (((((rfl | rfl) | rfl) | rfl) | rfl) | rfl) := known
  · rfl
  · exact Reader.bytes_bind_append (fun _ => f none) (u32le 0) rest rfl
  · exact Reader.bytes_bind_append (fun _ => f none)
      (u32le 0 ++ [0, 0] ++ List.replicate 24 0) rest rfl
  · rfl
  · have front : extra 0x25 fileIndex ++ rest =
        (u32le 0 ++ [0, 0] ++ List.replicate 24 0 ++ u16le 0) ++ (u64le fileIndex ++ rest) :=
      List.append_assoc _ _ _
    have fields : readExtra 0x25 = Reader.bytes 32 >>= fun _ =>
        Reader.u64 >>= fun fileId => pure (some fileId) := rfl
    simp only [front, fields, bind_assoc, pure_bind]
    rw [Reader.bytes_bind_append, Reader.u64_bind_append] <;> rfl
  · have front : extra 0x26 fileIndex ++ rest =
        (u32le 0 ++ u32le 0) ++ (u64le fileIndex ++ rest) := List.append_assoc _ _ _
    have fields : readExtra 0x26 = Reader.bytes 8 >>= fun _ =>
        Reader.u64 >>= fun fileId => pure (some fileId) := rfl
    simp only [front, fields, bind_assoc, pure_bind]
    rw [Reader.bytes_bind_append, Reader.u64_bind_append] <;> rfl

/-- A client reads the fields of an entry back, whatever follows them. -/
theorem readFields_append {infoClass : UInt8} (known : isFileInfoClass infoClass = true)
    (entry : DirEntry) (fits : (utf16le entry.info.name).length < 2 ^ 32) (rest : Bytes) :
    readFields infoClass
        (InfoClass.dirEntryFields infoClass entry entry.info.fileIndex ++ rest) =
      some (of infoClass entry.info, rest) := by
  have name := fun f => readName entry.info.name rest f fits
  -- FileNamesInformation has neither times nor sizes
  by_cases noNames : infoClass = InfoClass.fileNamesInformation
  · subst noNames
    have shape : InfoClass.dirEntryFields InfoClass.fileNamesInformation entry
        entry.info.fileIndex = u32le entry.info.fileIndex.toUInt32 ++
          (u32le (UInt32.ofNat (utf16le entry.info.name).length) ++ utf16le entry.info.name) := rfl
    have plain (f : Option UInt64 → Reader DirRecord) :
        readExtra InfoClass.fileNamesInformation >>= f = f none := rfl
    simp only [readFields, shape, List.append_assoc, if_true, pure_bind, Reader.u32_bind_append,
      plain, name, Reader.pure_apply, of, fromUtf16Lossy_utf16le]
    rfl
  · rw [dirEntryFields_eq known noNames]
    simp only [readFields, List.append_assoc, Reader.u32_bind_append, if_neg noNames,
      pure_bind, readDetails_bind, readExtra_bind known, name,
      Reader.pure_apply, of, fromUtf16Lossy_utf16le]

end DirRecord

/-! ### The encoding loop -/

namespace QueryDirectory

/-- An encoded entry with the padding behind it. -/
def padded (infoClass : UInt8) (entry : DirEntry) : Bytes :=
  let bytes := InfoClass.encodeDirEntry infoClass entry entry.info.fileIndex
  bytes ++ List.replicate (InfoClass.align8 bytes.length - bytes.length) 0

theorem length_padded (infoClass : UInt8) (entry : DirEntry) :
    (padded infoClass entry).length =
      InfoClass.align8 (InfoClass.encodeDirEntry infoClass entry entry.info.fileIndex).length := by
  rw [padded, List.length_append, List.length_replicate, InfoClass.align8]
  omega

theorem room_padded {infoClass : UInt8} (known : isFileInfoClass infoClass = true)
    (entries : List DirEntry) : ∀ b ∈ entries.map (padded infoClass), 4 ≤ b.length := by
  intro b member
  obtain ⟨entry, -, rfl⟩ := List.mem_map.mp member
  have encoded := InfoClass.length_encodeDirEntry known entry entry.info.fileIndex
  rw [padded, List.length_append]
  omega

/-- The buffer that holds a chain of entries. -/
def Output.of (entries : List Bytes) : Output where
  buf := Chain.join 0 entries
  lastOffset := if entries = [] then none else some (entries.dropLast.map List.length).sum

/-- A pushed entry is linked to. -/
theorem Output.push_of (entries : List Bytes) (bytes : Bytes)
    (room : ∀ b ∈ entries, 4 ≤ b.length) :
    (Output.of entries).push bytes = Output.of (entries ++
      [bytes ++ List.replicate (InfoClass.align8 bytes.length - bytes.length) 0]) := by
  generalize padding :
      List.replicate (InfoClass.align8 bytes.length - bytes.length) (0 : UInt8) = zeros
  -- the first entry is linked to by nothing, a later one by the entry in front of it
  rcases List.eq_nil_or_concat entries with rfl | ⟨front, last, rfl⟩
  · rw [Output.push, padding]
    rfl
  · rw [List.concat_eq_append] at room ⊢
    have long := @Chain.length_join 0 (front ++ [last]) room
    have linked := @Chain.join_concat 0 front last (bytes ++ zeros) room
    rw [List.map_append, List.sum_append, List.map_singleton, List.sum_singleton] at long
    rw [Nat.add_zero] at linked
    have offset : (Output.of (front ++ [last])).lastOffset = some (front.map List.length).sum := by
      simp only [Output.of, List.append_eq_nil_iff, List.cons_ne_self, and_false, if_false,
        List.dropLast_concat]
    simp only [Output.push, padding, offset]
    simp only [Output.of, long, Nat.add_sub_cancel_left, List.append_assoc, List.singleton_append,
      linked, List.append_eq_nil_iff, List.cons_ne_self, and_false, if_false]
    simp

/-- What the loop appends to a chain: the next `n` entries, at least one where there is one and the
chain is empty; with a second entry in it the chain has no more bytes than the client asked for. -/
theorem fill_eq {infoClass : UInt8} (known : isFileInfoClass infoClass = true) (cap : Nat)
    (single : Bool) (entries : List DirEntry) (chain : List Bytes)
    (room : ∀ b ∈ chain, 4 ≤ b.length) :
    ∃ n, n ≤ entries.length ∧
      fill infoClass cap single entries (.of chain) =
        (.of (chain ++ (entries.take n).map (padded infoClass)), n) ∧
      (chain = [] → entries ≠ [] → n ≠ 0) ∧
      (n = 0 ∨ (chain = [] ∧ n = 1) ∨
        ((chain ++ (entries.take n).map (padded infoClass)).map List.length).sum ≤ cap) := by
  induction entries generalizing chain with
  | nil => exact ⟨0, Nat.le_refl _, by simp [fill], by simp, .inl rfl⟩
  | cons entry rest ih =>
    have encoded := InfoClass.length_encodeDirEntry known entry entry.info.fileIndex
    have aligned := length_padded infoClass entry
    have long : (Output.of chain).buf.length = (chain.map List.length).sum :=
      Chain.length_join chain room
    have started : (Output.of chain).buf.isEmpty = true ↔ chain = [] := by
      rw [List.isEmpty_iff_length_eq_zero, long]
      cases chain with
      | nil => simp
      | cons b behind =>
        have first := room b List.mem_cons_self
        simp only [List.map_cons, List.sum_cons, reduceCtorEq, iff_false]
        omega
    have pushed := Output.push_of chain
      (InfoClass.encodeDirEntry infoClass entry entry.info.fileIndex) room
    have more : ∀ b ∈ chain ++ [padded infoClass entry], 4 ≤ b.length := by
      intro b member
      rcases List.mem_append.mp member with old | new
      · exact room b old
      · exact room_padded known [entry] b new
    rw [fill]
    dsimp only
    rw [if_neg (by rw [List.isEmpty_iff_length_eq_zero]; omega)]
    split
    next full =>
      -- no room for the entry; a chain is there already
      simp only [gt_iff_lt, Bool.and_eq_true, decide_eq_true_eq, Bool.not_eq_true'] at full
      refine ⟨0, Nat.zero_le _, by simp, fun empty => ?_, .inl rfl⟩
      rw [started.mpr empty] at full
      cases full.2
    next fits =>
      -- the chain is empty or the entry fits
      have bound : chain = [] ∨
          ((chain ++ [padded infoClass entry]).map List.length).sum ≤ cap := by
        by_cases empty : chain = []
        · exact .inl empty
        · refine .inr ?_
          rw [List.map_append, List.sum_append, List.map_singleton, List.sum_singleton, aligned,
            ← long]
          by_contra exceeds
          refine fits ?_
          simp only [gt_iff_lt, Bool.and_eq_true, decide_eq_true_eq, Bool.not_eq_true']
          exact ⟨Nat.lt_of_not_le exceeds, by simpa using fun h => empty (started.mp h)⟩
      rw [pushed]
      split
      · refine ⟨1, by simp, by simp [padded], by simp, .inr ?_⟩
        rcases bound with empty | within
        · exact .inl ⟨empty, rfl⟩
        · exact .inr (by simpa using within)
      · obtain ⟨n, inside, filled, -, total⟩ := ih (chain ++ [padded infoClass entry]) more
        refine ⟨n + 1, Nat.succ_le_succ inside, ?_, by simp, .inr ?_⟩
        · rw [padded] at filled
          rw [filled]
          simp [padded]
        · rcases total with rfl | ⟨empty, -⟩ | within
          · rcases bound with empty | within
            · exact .inl ⟨empty, rfl⟩
            · exact .inr (by simpa using within)
          · exact absurd empty (by simp)
          · exact .inr (by simpa using within)

end QueryDirectory

/-! ### One request -/

namespace QueryDirectory

variable {σ η : Type} [Host σ η]

/-- The cursor that a request reads from: the one in its open, or that of a new listing. `none` is
a listing that fails. -/
def cursorFor (req : QueryDirectoryRequest) (target : Target η) (host : σ) : Option DirCursor :=
  if target.file.searchState.isSome && !restart req then target.file.searchState
  else
    target.file.handle.bind fun h =>
      match (Host.listDir h.inner (patternOf req) host).1 with
      | .error _ => none
      | .ok entries => some (snapshot (patternOf req) entries)

/-- What the encoding loop answers. -/
def reply (out : Output) : HandlerResponse :=
  if out.buf.isEmpty then .err statusNoMoreFiles
  else
    .ok (BufferResponse.write
      { structureSize := 9
        outputBufferOffset := 64 + 8
        outputBufferLength := UInt32.ofNat out.buf.length
        buffer := out.buf })

theorem reply_of_nonempty (out : Output) (some : out.buf ≠ []) :
    reply out = .ok (BufferResponse.write
      { structureSize := 9
        outputBufferOffset := 64 + 8
        outputBufferLength := UInt32.ofNat out.buf.length
        buffer := out.buf }) := by
  rw [reply, if_neg]
  simpa using some

section
variable {hdr : Smb2Header} {body : Bytes} {w : World σ η} {req : QueryDirectoryRequest}
  {target : Target η}

omit [Host σ η] in
/-- The encoding of a request whose cursor is in its open. -/
theorem emit_eq (sid : UInt64) {cursor : DirCursor}
    (stored : (w.conn.findOpen sid target.tid req.fileId).bind (·.searchState) = some cursor) :
    let filled := fill req.fileInformationClass req.outputBufferLength.toNat (singleEntry req)
      (cursor.entries.drop cursor.next) ⟨[], none⟩
    emit sid req target w = (reply filled.1, w.setConn (storeCursor sid target.tid req.fileId
      { cursor with next := cursor.next + filled.2 } w.conn)) := by
  simp only [emit, Action.bind_apply, getConn_apply, stored, modifyConn_apply]
  rw [reply]
  split <;> rfl

/-- A request with a cursor to read from encodes what is behind it and moves it. -/
theorem handle_of_cursor (admitted : validate w.conn hdr body = .ok (req, target))
    {cursor : DirCursor} (loaded : cursorFor req target w.env.host = some cursor) :
    let filled := fill req.fileInformationClass req.outputBufferLength.toNat (singleEntry req)
      (cursor.entries.drop cursor.next) ⟨[], none⟩
    (handle hdr body w).1 = reply filled.1 ∧
      (handle hdr body w).2.conn = storeCursor hdr.sessionId target.tid req.fileId
        { cursor with next := cursor.next + filled.2 } w.conn := by
  obtain ⟨-, there, -⟩ := validate_eq_ok w.conn req target admitted
  have live := findOpen_of_lookupTarget w.conn hdr req.fileId target there
  simp only [handle, Action.bind_apply, getConn_apply, admitted]
  rw [cursorFor] at loaded
  rw [populate]
  split at loaded
  next kept =>
    rw [if_pos kept]
    simp only [Action.pure_apply]
    have stored : (w.conn.findOpen hdr.sessionId target.tid req.fileId).bind (·.searchState) =
        some cursor := by
      rw [live, Option.bind_some, loaded]
    rw [emit_eq hdr.sessionId stored]
    exact ⟨rfl, rfl⟩
  next fresh =>
    rw [if_neg fresh]
    obtain ⟨h, handle, listed⟩ := Option.bind_eq_some_iff.mp loaded
    cases answer : (Host.listDir h.inner (patternOf req) w.env.host).1 with
    | error e => simp [answer] at listed
    | ok entries =>
      simp only [answer, Option.some.injEq] at listed
      simp only [handle, Action.bind_apply, Boxed.listDir, issue_apply, answer, modifyConn_apply,
        Action.pure_apply, World.addCall_conn, World.setHost_conn, listed]
      -- the cursor of the listing is stored first, and what the loop leaves of it behind that
      have stored : ((storeCursor hdr.sessionId target.tid req.fileId cursor w.conn).findOpen
          hdr.sessionId target.tid req.fileId).bind (·.searchState) = some cursor := by
        rw [storeCursor, Connection.findOpen_modifyOpen, if_pos ⟨rfl, rfl, rfl⟩, live]
        rfl
      rw [emit_eq hdr.sessionId stored]
      refine ⟨rfl, ?_⟩
      rw [World.setConn_conn, World.setConn_conn, storeCursor_storeCursor]

/-- A request without one fails and leaves the connection alone. -/
theorem handle_of_no_cursor (admitted : validate w.conn hdr body = .ok (req, target))
    (unloaded : cursorFor req target w.env.host = none) :
    (handle hdr body w).1.status ≠ statusSuccess ∧ (handle hdr body w).2.conn = w.conn := by
  simp only [handle, Action.bind_apply, getConn_apply, admitted]
  rw [cursorFor] at unloaded
  rw [populate]
  -- no cursor is kept, and loading one fails at the handle or at the backend
  split at unloaded
  next kept =>
    rw [unloaded] at kept
    cases kept
  next fresh =>
    rw [if_neg fresh]
    cases found : target.file.handle with
    | none =>
      refine ⟨?_, rfl⟩
      show statusFileClosed ≠ statusSuccess
      decide
    | some h =>
      rw [found, Option.bind_some] at unloaded
      cases answer : (Host.listDir h.inner (patternOf req) w.env.host).1 with
      | ok entries => simp [answer] at unloaded
      | error e =>
        simp only [Action.bind_apply, Boxed.listDir, issue_apply, answer, Action.pure_apply,
          World.addCall_conn, World.setHost_conn, and_true]
        exact e.toNtStatus_ne_success

end

end QueryDirectory

end SmbServer
