import SmbServer.Properties.OutputLimit

/-!
# SmbServer.Properties.Enumeration

The enumeration of a directory by QUERY_DIRECTORY.

## Main result

`enumeration`: on an open of a directory whose scan has not begun, whatever requests follow, with
any lengths, any single-entry flags and any classes, the responses up to the first
STATUS_NO_MORE_FILES decode to consecutive pieces of the listing that matches the first pattern, and
once that status comes nothing of it is left.

The names are assumed to be short enough for the format: FileNameLength, OutputBufferLength and
NextEntryOffset are 32-bit words. `longName_lost` shows what the cast makes of a longer one.

## Proof strategy

By induction on the requests. The invariant is the cursor in the open: what has been decoded and
what is behind the cursor make up the listing. One request decodes to the entries that it moves
over (`reply_read`), since the buffer it sends is a chain that a client can walk.
-/

namespace SmbServer

open Lib

namespace QueryDirectory

/-! ### One response, read by a client -/

/-- A name that every class can carry, padded, in an output buffer. -/
def Short (entry : DirEntry) : Prop := (utf16le entry.info.name).length ≤ 2 ^ 32 - 112

theorem length_encode_le {infoClass : UInt8} (known : isFileInfoClass infoClass = true)
    (entry : DirEntry) (fileIndex : UInt64) :
    (InfoClass.encodeDirEntry infoClass entry fileIndex).length ≤
      104 + (utf16le entry.info.name).length := by
  have extra : (DirRecord.extra infoClass fileIndex).length ≤ 40 := by
    rw [DirRecord.extra]
    repeat' split
    all_goals simp
  rw [InfoClass.encodeDirEntry_eq known]
  by_cases noNames : infoClass = InfoClass.fileNamesInformation
  · subst noNames
    have shape : InfoClass.dirEntryFields InfoClass.fileNamesInformation entry fileIndex =
        u32le fileIndex.toUInt32 ++ (u32le (UInt32.ofNat (utf16le entry.info.name).length) ++
          utf16le entry.info.name) := rfl
    simp only [shape, List.length_append, length_u32le]
    omega
  · simp only [DirRecord.dirEntryFields_eq known noNames, InfoClass.encodeTimes, List.length_append,
      length_u32le, length_u64le]
    omega

/-- A padded entry is read back, linked or not. -/
theorem reads_padded {infoClass : UInt8} (known : isFileInfoClass infoClass = true)
    (entry : DirEntry) (short : Short entry) :
    Chain.Reads 0 (Reader.parse (DirRecord.read infoClass)) (padded infoClass entry)
      (DirRecord.of infoClass entry.info) := by
  have fits : (utf16le entry.info.name).length < 2 ^ 32 := Nat.lt_of_le_of_lt short (by decide)
  have long := length_encode_le known entry entry.info.fileIndex
  obtain ⟨zeros, shape⟩ : ∃ zeros, padded infoClass entry = u32le 0 ++
      (InfoClass.dirEntryFields infoClass entry entry.info.fileIndex ++ zeros) := by
    refine ⟨List.replicate (InfoClass.align8 (InfoClass.encodeDirEntry infoClass entry
      entry.info.fileIndex).length - (InfoClass.encodeDirEntry infoClass entry
      entry.info.fileIndex).length) 0, ?_⟩
    simp only [padded]
    rw [← List.append_assoc, ← InfoClass.encodeDirEntry_eq known]
  -- the link stands in front of the fields that are read
  have decoded (next : UInt32) : Reader.parse (DirRecord.read infoClass) (u32le next ++
      (InfoClass.dirEntryFields infoClass entry entry.info.fileIndex ++ zeros)) =
      some (DirRecord.of infoClass entry.info) := by
    refine Reader.parse_eq_some.mpr ⟨zeros, ?_⟩
    rw [DirRecord.read, Reader.u32_bind_append]
    exact DirRecord.readFields_append known entry fits zeros
  constructor
  · exact room_padded known [entry] _ (List.mem_singleton_self _)
  · rw [length_padded, InfoClass.align8]
    rw [Short] at short
    omega
  · rw [shape, readU32, slice_append_exact _ _ 4 (length_u32le 0), u32OfLe_u32le]
  · rw [shape]
    exact decoded 0
  · rw [Chain.link, shape]
    have linked (next : UInt32) : patch (u32le 0 ++
        (InfoClass.dirEntryFields infoClass entry entry.info.fileIndex ++ zeros)) 0 (u32le next) =
        u32le next ++ (InfoClass.dirEntryFields infoClass entry entry.info.fileIndex ++ zeros) := by
      rw [patch, List.take_zero, List.nil_append, Nat.zero_add, length_u32le,
        List.drop_left' (length_u32le 0)]
    rw [linked]
    exact decoded _

/-- A buffer as long as the client is told. -/
theorem readListing_write (infoClass : UInt8) (front behind : Bytes)
    (told : (front ++ behind).length % 2 ^ 32 = front.length) :
    readListing infoClass (BufferResponse.write
      { structureSize := 9
        outputBufferOffset := 64 + 8
        outputBufferLength := UInt32.ofNat (front ++ behind).length
        buffer := front ++ behind }) =
      Chain.walk 0 (Reader.parse (DirRecord.read infoClass)) front.length front := by
  rw [readListing, responseBuffer_write, told, List.take_left]

/-- A request with entries to return answers with the first `n` of them. -/
theorem reply_read {infoClass : UInt8} (known : isFileInfoClass infoClass = true) (cap : UInt32)
    (single : Bool) (entries : List DirEntry) (nonempty : entries ≠ [])
    (short : ∀ entry ∈ entries, Short entry) :
    ∃ n, (fill infoClass cap.toNat single entries ⟨[], none⟩).2 = n ∧ n ≠ 0 ∧
      (reply (fill infoClass cap.toNat single entries ⟨[], none⟩).1).status = statusSuccess ∧
      readListing infoClass (reply (fill infoClass cap.toNat single entries ⟨[], none⟩).1).body =
        some ((entries.take n).map fun entry => DirRecord.of infoClass entry.info) := by
  obtain ⟨n, inside, filled, first, total⟩ :=
    fill_eq known cap.toNat single entries [] (by simp)
  have some_ := first rfl nonempty
  rw [show (⟨[], none⟩ : Output) = .of [] from rfl, filled]
  rw [List.nil_append] at total ⊢
  have reads (entry : DirEntry) (member : entry ∈ entries.take n) :=
    reads_padded known entry (short entry (List.mem_of_mem_take member))
  have long : (Output.of ((entries.take n).map (padded infoClass))).buf.length =
      (((entries.take n).map (padded infoClass)).map List.length).sum :=
    Chain.length_join _ (room_padded known _)
  have count : (entries.take n).length ≤
      (Output.of ((entries.take n).map (padded infoClass))).buf.length := by
    have bytes := @Chain.length_le_join 0 _ (room_padded known (entries.take n))
    rwa [List.length_map] at bytes
  have taken : (entries.take n).length = n := by
    rw [List.length_take]
    omega
  -- one entry is short by itself, more entries stay below the length asked for
  have small : (Output.of ((entries.take n).map (padded infoClass))).buf.length < 2 ^ 32 := by
    rcases total with zero | ⟨-, rfl⟩ | within
    · exact absurd zero some_
    · obtain ⟨entry, only⟩ := List.length_eq_one_iff.mp taken
      rw [long, only]
      have one := (reads entry (by rw [only]; exact List.mem_singleton_self entry)).short
      simpa using one
    · rw [long]
      exact Nat.lt_of_le_of_lt within cap.toNat_lt
  have bytes : (Output.of ((entries.take n).map (padded infoClass))).buf ≠ [] := by
    rw [← List.length_pos_iff]
    omega
  rw [reply_of_nonempty _ bytes]
  refine ⟨n, rfl, some_, rfl, ?_⟩
  have entire := readListing_write infoClass
    (Output.of ((entries.take n).map (padded infoClass))).buf []
    (by rw [List.append_nil, Nat.mod_eq_of_lt small])
  rw [List.append_nil] at entire
  rw [HandlerResponse.ok, entire]
  refine Chain.walk_join (padded infoClass) _ (entries.take n) ?_ reads _ count
  rw [← List.length_pos_iff]
  omega

/-! ### The scan of an open -/

section
variable {σ η : Type} [Host σ η]

/-- The class that a request asks for. -/
def classOf (body : Bytes) : UInt8 :=
  (QueryDirectoryRequest.parse body).elim 0 (·.fileInformationClass)

/-- Requests one after another, up to the first STATUS_NO_MORE_FILES: the class and the body of
every response before it, and whether it came. -/
def enumerate : List (Smb2Header × Bytes) → Action (World σ η) (List (UInt8 × Bytes) × Bool)
  | [] => return ([], false)
  | (hdr, body) :: rest => do
    let resp ← handle hdr body
    if resp.status = statusNoMoreFiles then return ([], true)
    else
      let (more, ended) ← enumerate rest
      return ((classOf body, resp.body) :: more, ended)

/-- A request on an open that does not start its scan again. -/
structure Continues (sid : UInt64) (tid : UInt32) (fid : FileId) (request : Smb2Header × Bytes)
    (req : QueryDirectoryRequest) : Prop where
  parsed : QueryDirectoryRequest.parse request.2 = some req
  known : isFileInfoClass req.fileInformationClass = true
  session : request.1.sessionId = sid
  tree : request.1.treeId = some tid
  file : req.fileId = fid
  noRestart : restart req = false

/-- The open of a directory whose scan has not begun, the requests on it, and the entries of its
listing that match the first pattern. -/
structure Scans (w : World σ η) (sid : UInt64) (tid : UInt32) (fid : FileId)
    (requests : List (Smb2Header × Bytes)) (listing : List DirEntry) : Prop where
  nonzero : sid ≠ 0
  opened : ∃ file h, w.conn.findOpen sid tid fid = some file ∧ file.isDirectory = true ∧
    file.searchState = none ∧ file.handle = some h ∧
      ∀ request ∈ requests.head?, ∀ req, Continues sid tid fid request req →
        ∃ entries, (Host.listDir h.inner (patternOf req) w.env.host).1 = .ok entries ∧
          listing = (snapshot (patternOf req) entries).entries
  continues : ∀ request ∈ requests, ∃ req, Continues sid tid fid request req

/-- The responses carry the entries one after another, each once; none is left behind the last
response. -/
def Enumerates (w : World σ η) (requests : List (Smb2Header × Bytes)) (listing : List DirEntry) :
    Prop :=
  ∃ chunks behind, listing = chunks.flatten ++ behind ∧
    List.Forall₂ (fun (response : UInt8 × Bytes) chunk => chunk ≠ [] ∧
      readListing response.1 response.2 =
        some (chunk.map fun entry => DirRecord.of response.1 entry.info))
      (enumerate requests w).1.1 chunks ∧
    ((enumerate requests w).1.2 = true → behind = [])

omit [Host σ η] in
/-- A request on a live open of a directory passes the checks. -/
theorem validate_of_continues {conn : Connection η} {sid : UInt64} {tid : UInt32} {fid : FileId}
    {file : Open η} (nonzero : sid ≠ 0) (found : conn.findOpen sid tid fid = some file)
    (directory : file.isDirectory = true) {request : Smb2Header × Bytes}
    {req : QueryDirectoryRequest} (continues : Continues sid tid fid request req) :
    ∃ tree, validate conn request.1 request.2 = .ok (req, ⟨tid, tree, file⟩) := by
  obtain ⟨tree, here, inside⟩ := Option.bind_eq_some_iff.mp found
  refine ⟨tree, (validate_iff conn request.1 request.2 req _).mpr
    ⟨continues.parsed, continues.known, ?_, directory⟩⟩
  rw [lookupTarget_eq_ok, lookupSessionTree_eq_ok, continues.session, continues.file]
  exact ⟨⟨continues.tree, nonzero, here⟩, inside⟩

/-- The entries that are left of a scan. -/
structure Left (conn : Connection η) (sid : UInt64) (tid : UInt32) (fid : FileId)
    (entries : List DirEntry) : Prop where
  opened : ∃ file cursor, conn.findOpen sid tid fid = some file ∧ file.isDirectory = true ∧
    file.searchState = some cursor ∧ cursor.entries.drop cursor.next = entries

/-- One request: it says that nothing is left, or returns the next entries and leaves the rest. -/
theorem handle_scan {w : World σ η} {sid : UInt64} {tid : UInt32} {fid : FileId} {file : Open η}
    {tree : TreeConnect η} {request : Smb2Header × Bytes} {req : QueryDirectoryRequest}
    {cursor : DirCursor} (found : w.conn.findOpen sid tid fid = some file)
    (directory : file.isDirectory = true) (continues : Continues sid tid fid request req)
    (admitted : validate w.conn request.1 request.2 = .ok (req, ⟨tid, tree, file⟩))
    (loaded : cursorFor req ⟨tid, tree, file⟩ w.env.host = some cursor)
    (short : ∀ entry ∈ cursor.entries.drop cursor.next, Short entry) :
    (cursor.entries.drop cursor.next = [] ∧
        (handle request.1 request.2 w).1.status = statusNoMoreFiles) ∨
      ∃ chunk behind, cursor.entries.drop cursor.next = chunk ++ behind ∧ chunk ≠ [] ∧
        (handle request.1 request.2 w).1.status = statusSuccess ∧
        readListing (classOf request.2) (handle request.1 request.2 w).1.body =
          some (chunk.map fun entry => DirRecord.of (classOf request.2) entry.info) ∧
        Left (handle request.1 request.2 w).2.conn sid tid fid behind := by
  obtain ⟨answered, left⟩ := handle_of_cursor admitted loaded
  have infoClass : classOf request.2 = req.fileInformationClass := by
    rw [classOf, continues.parsed]
    rfl
  cases entries : cursor.entries.drop cursor.next with
  | nil =>
    rw [entries] at answered
    exact .inl ⟨rfl, by rw [answered]; rfl⟩
  | cons entry rest =>
    obtain ⟨n, moved, some_, success, decoded⟩ := reply_read continues.known req.outputBufferLength
      (singleEntry req) (entry :: rest) (by simp) (entries ▸ short)
    rw [entries] at answered left
    refine .inr ⟨(entry :: rest).take n, (entry :: rest).drop n, (List.take_append_drop n _).symm,
      ?_, by rw [answered]; exact success, by rw [answered, infoClass]; exact decoded, ?_⟩
    · rw [← List.length_pos_iff, List.length_take, List.length_cons]
      omega
    · rw [left, moved]
      -- the open is the one it was, with the moved cursor
      refine ⟨{ file with searchState := some { cursor with next := cursor.next + n } }, _, ?_,
        directory, rfl, ?_⟩
      · rw [storeCursor, Connection.findOpen_modifyOpen, continues.session, continues.file,
          if_pos ⟨rfl, rfl, rfl⟩, found]
        rfl
      · rw [← entries, List.drop_drop]

/-- A request that is answered is the first of its sequence. -/
theorem enumerate_cons (w : World σ η) (request : Smb2Header × Bytes)
    (rest : List (Smb2Header × Bytes))
    (goesOn : (handle request.1 request.2 w).1.status ≠ statusNoMoreFiles) :
    (enumerate (request :: rest) w).1 =
      ((classOf request.2, (handle request.1 request.2 w).1.body) ::
          (enumerate rest (handle request.1 request.2 w).2).1.1,
        (enumerate rest (handle request.1 request.2 w).2).1.2) := by
  obtain ⟨hdr, body⟩ := request
  simp only [enumerate, Action.bind_apply, goesOn, if_false, Action.pure_apply]

/-- The first request of a sequence, and the others. -/
theorem enumerates_cons {w : World σ η} {request : Smb2Header × Bytes}
    {rest : List (Smb2Header × Bytes)} {entries : List DirEntry}
    (first : (entries = [] ∧ (handle request.1 request.2 w).1.status = statusNoMoreFiles) ∨
      ∃ chunk behind, entries = chunk ++ behind ∧ chunk ≠ [] ∧
        (handle request.1 request.2 w).1.status = statusSuccess ∧
        readListing (classOf request.2) (handle request.1 request.2 w).1.body =
          some (chunk.map fun entry => DirRecord.of (classOf request.2) entry.info) ∧
        Enumerates (handle request.1 request.2 w).2 rest behind) :
    Enumerates w (request :: rest) entries := by
  obtain ⟨hdr, body⟩ := request
  -- the first response ends the scan, or it carries a chunk and the rest follows
  rcases first with ⟨rfl, ends⟩ | ⟨chunk, behind, rfl, some_, success, decoded, more⟩
  · have stops : enumerate ((hdr, body) :: rest) w = (([], true), (handle hdr body w).2) := by
      simp only [enumerate, Action.bind_apply, ends, if_true, Action.pure_apply]
    refine ⟨[], [], rfl, ?_, fun _ => rfl⟩
    rw [stops]
    exact .nil
  · obtain ⟨chunks, tail, rfl, pieces, ended⟩ := more
    have goesOn := enumerate_cons w (hdr, body) rest (by rw [success]; decide)
    refine ⟨chunk :: chunks, tail, ?_, ?_, ?_⟩
    · rw [List.flatten_cons, List.append_assoc]
    · rw [goesOn]
      exact .cons ⟨some_, decoded⟩ pieces
    · rw [goesOn]
      exact ended

/-- From a cursor on, the responses carry what is left. -/
theorem enumerate_left (w : World σ η) {sid : UInt64} {tid : UInt32} {fid : FileId}
    (nonzero : sid ≠ 0) (requests : List (Smb2Header × Bytes))
    (continues : ∀ request ∈ requests, ∃ req, Continues sid tid fid request req)
    (entries : List DirEntry) (left : Left w.conn sid tid fid entries)
    (short : ∀ entry ∈ entries, Short entry) : Enumerates w requests entries := by
  induction requests generalizing w entries with
  | nil => exact ⟨[], entries, rfl, .nil, fun ended => absurd ended (by simp [enumerate])⟩
  | cons request rest ih =>
    obtain ⟨file, cursor, found, directory, stored, rfl⟩ := left.opened
    obtain ⟨req, asks⟩ := continues request List.mem_cons_self
    obtain ⟨tree, admitted⟩ := validate_of_continues nonzero found directory asks
    -- the cursor is stored and no restart is asked for, so the scan goes on from it
    have loaded : cursorFor req ⟨tid, tree, file⟩ w.env.host = some cursor := by
      rw [cursorFor, if_pos (by rw [stored, asks.noRestart]; rfl)]
      exact stored
    refine enumerates_cons ?_
    rcases handle_scan found directory asks admitted loaded short with
      done | ⟨chunk, behind, split, some_, success, decoded, left'⟩
    · exact .inl done
    · refine .inr ⟨chunk, behind, split, some_, success, decoded, ih _ ?_ _ left' ?_⟩
      · exact fun later member => continues later (List.mem_cons_of_mem request member)
      · intro entry member
        refine short entry ?_
        rw [split]
        exact List.mem_append_right chunk member

/-- QUERY_DIRECTORY loses and repeats nothing: whatever requests follow on an open whose scan has
not begun, the responses up to the first STATUS_NO_MORE_FILES carry the matching entries of the
listing, each once and in order, and none is left when it comes. -/
theorem enumeration (w : World σ η) (sid : UInt64) (tid : UInt32) (fid : FileId)
    (requests : List (Smb2Header × Bytes)) (listing : List DirEntry)
    (scans : Scans w sid tid fid requests listing) (short : ∀ entry ∈ listing, Short entry) :
    Enumerates w requests listing := by
  cases requests with
  | nil => exact ⟨[], listing, rfl, .nil, fun ended => absurd ended (by simp [enumerate])⟩
  | cons request rest =>
    obtain ⟨file, h, found, directory, fresh, handle, lists⟩ := scans.opened
    obtain ⟨req, asks⟩ := scans.continues request List.mem_cons_self
    obtain ⟨entries, listed, rfl⟩ := lists request rfl req asks
    obtain ⟨tree, admitted⟩ := validate_of_continues scans.nonzero found directory asks
    -- no scan has begun: the snapshot is taken now
    have loaded : cursorFor req ⟨tid, tree, file⟩ w.env.host =
        some (snapshot (patternOf req) entries) := by
      rw [cursorFor, if_neg (by rw [fresh]; simp), handle, Option.bind_some, listed]
    refine enumerates_cons ?_
    rcases handle_scan found directory asks admitted loaded short with
      done | ⟨chunk, behind, split, some_, success, decoded, left⟩
    · exact .inl done
    · refine .inr ⟨chunk, behind, split, some_, success, decoded,
        enumerate_left _ scans.nonzero rest ?_ behind left ?_⟩
      · exact fun later member => scans.continues later (List.mem_cons_of_mem request member)
      · intro entry member
        refine short entry ?_
        rw [show (snapshot (patternOf req) entries).entries = chunk ++ behind from split]
        exact List.mem_append_right chunk member

end

end QueryDirectory

/-! ### Two responses for one entry -/

namespace Sample

/-- The one entry of the shelf. -/
def onShelf : DirEntry := ⟨{ fileInfo with name := ['f'], fileIndex := 5 }⟩

/-- A request on the directory, with room for 200 bytes. -/
def listing (infoClass flags : UInt8) : Smb2Header × Bytes :=
  (Client.header .queryDirectory 0 1 1,
    Client.queryDirectoryBody infoClass flags ⟨1, 1⟩ 200 ['*'])

end Sample

open scoped Sample

/-- A request of the sample goes on with the scan. -/
private theorem continues_listing (infoClass flags : UInt8)
    (parsed : (QueryDirectoryRequest.parse (Sample.listing infoClass flags).2).any (fun req =>
      isFileInfoClass req.fileInformationClass && req.fileId == ⟨1, 1⟩ &&
        !QueryDirectory.restart req) = true) :
    ∃ req, QueryDirectory.Continues 1 1 ⟨1, 1⟩ (Sample.listing infoClass flags) req := by
  simp only [Option.any_eq_true, Bool.and_eq_true, beq_iff_eq, Bool.not_eq_true'] at parsed
  obtain ⟨req, parsed, ⟨known, file⟩, noRestart⟩ := parsed
  exact ⟨req, parsed, known, rfl, rfl, file, noRestart⟩

/-- The pattern of a request of the sample. -/
private theorem patternOf_listing {infoClass flags : UInt8} {req : QueryDirectoryRequest}
    (continues : QueryDirectory.Continues 1 1 ⟨1, 1⟩ (Sample.listing infoClass flags) req)
    (all : ((QueryDirectoryRequest.parse (Sample.listing infoClass flags).2).map
      QueryDirectory.patternOf) = some none) : QueryDirectory.patternOf req = none := by
  rw [continues.parsed] at all
  exact Option.some.inj all

theorem enumeration_shelf :
    QueryDirectory.Enumerates (Sample.shelfBehind [Sample.openDirectory])
      [Sample.listing InfoClass.fileIdBothDirectoryInformation
          QueryDirectoryRequest.flagReturnSingleEntry,
        Sample.listing InfoClass.fileNamesInformation 0] [Sample.onShelf] := by
  refine QueryDirectory.enumeration _ 1 1 ⟨1, 1⟩ _ _ ⟨by decide, ?_, ?_⟩ ?_
  · obtain ⟨file, h, found, directory, fresh, handle⟩ := opened_directory
    refine ⟨file, h, found, directory, fresh, handle, ?_⟩
    intro request first req continues
    obtain rfl := Option.some.inj first
    refine ⟨[Sample.onShelf], rfl, ?_⟩
    rw [patternOf_listing continues (by decide +kernel)]
    rfl
  · intro request member
    simp only [List.mem_cons, List.not_mem_nil, or_false] at member
    rcases member with rfl | rfl
    · exact continues_listing _ _ (by decide +kernel)
    · exact continues_listing _ _ (by decide +kernel)
  · intro entry member
    obtain rfl := List.mem_singleton.mp member
    show (utf16le Sample.onShelf.info.name).length ≤ 2 ^ 32 - 112
    decide

/-! ### A name of 2^32 bytes -/

/-- An application with one directory of one file, whatever its name. -/
structure Sample.Named where
  name : Text

namespace Sample

scoped instance named : Host Named Bool where
  capabilities _ := ⟨false, true, true⟩
  «open» _ _ opts s := (.ok opts.directory, s)
  unlink _ _ s := (.ok (), s)
  rename _ _ _ _ s := (.ok (), s)
  read _ _ _ s := (.ok [], s)
  writeOwned _ _ data s := (.ok (UInt32.ofNat data.length), s)
  flush _ s := (.ok (), s)
  stat directory s := (.ok { fileInfo with isDirectory := directory }, s)
  setTimes _ _ s := (.ok (), s)
  truncate _ _ s := (.ok (), s)
  listDir _ _ s := (.ok [⟨{ fileInfo with name := s.name }⟩], s)
  close _ s := (.ok (), s)
  fillRandom n s := (ByteVec.zero n, s)
  nowFiletime s := (0, s)

/-- The open directory of the shelf, with another file in it. -/
def namedBehind (name : Text) : World Named Bool :=
  ⟨(shelfBehind [openDirectory]).conn, (System.start server ⟨name⟩ : System Named Bool).env⟩

def entryNamed (name : Text) : DirEntry := ⟨{ fileInfo with name := name }⟩

end Sample

theorem length_encodeUtf16_replicate (n : Nat) : (encodeUtf16 (List.replicate n 'a')).length = n := by
  induction n with
  | zero => rfl
  | succ n ih => rw [List.replicate_succ, encodeUtf16, if_pos (by decide), List.length_cons, ih]

namespace QueryDirectory

/-- The only entry of a listing is encoded whatever its length. -/
theorem fill_single {infoClass : UInt8} (known : isFileInfoClass infoClass = true) (cap : Nat)
    (single : Bool) (entry : DirEntry) :
    (fill infoClass cap single [entry] ⟨[], none⟩).1 = .of [padded infoClass entry] := by
  obtain ⟨n, inside, filled, first, -⟩ := fill_eq known cap single [entry] [] (by simp)
  have one : n = 1 := by
    have some_ := first rfl (by simp)
    rw [List.length_singleton] at inside
    omega
  rw [show (⟨[], none⟩ : Output) = .of [] from rfl, filled, one]
  rfl

/-- With a name of 2^32 bytes the lengths are those of an entry without a name. -/
theorem read_longName (entry : DirEntry) (long : (utf16le entry.info.name).length = 2 ^ 32) :
    readListing InfoClass.fileDirectoryInformation
        (reply (.of [padded InfoClass.fileDirectoryInformation entry])).body =
      some [DirRecord.of InfoClass.fileDirectoryInformation { entry.info with name := [] }] := by
  let nameless : DirEntry := ⟨{ entry.info with name := [] }⟩
  have prefixed (e : DirEntry) : InfoClass.encodeDirEntry InfoClass.fileDirectoryInformation e
      e.info.fileIndex = InfoClass.dirEntryPrefix e.info e.info.fileIndex
        (utf16le e.info.name).length ++ utf16le e.info.name := by
    rw [InfoClass.encodeDirEntry, if_pos rfl]
  have fixed (info : FileInfo) (fileIndex : UInt64) (n : Nat) :
      (InfoClass.dirEntryPrefix info fileIndex n).length = 64 := by
    simp [InfoClass.dirEntryPrefix, InfoClass.encodeTimes]
  have aligned (n : Nat) (multiple : n % 8 = 0) : InfoClass.align8 n - n = 0 := by
    rw [InfoClass.align8]
    omega
  -- the length of the name is 0 in 32 bits
  have same : InfoClass.dirEntryPrefix entry.info entry.info.fileIndex (2 ^ 32) =
      InfoClass.dirEntryPrefix nameless.info nameless.info.fileIndex 0 := by
    simp only [InfoClass.dirEntryPrefix]
    rfl
  have only : padded InfoClass.fileDirectoryInformation nameless =
      InfoClass.dirEntryPrefix nameless.info nameless.info.fileIndex 0 := by
    have empty : utf16le nameless.info.name = [] := rfl
    rw [padded, prefixed, empty, List.append_nil, fixed, aligned 64 rfl, List.replicate_zero,
      List.append_nil, List.length_nil]
  have front : (padded InfoClass.fileDirectoryInformation nameless).length = 64 := by
    rw [only, fixed]
  have shape : padded InfoClass.fileDirectoryInformation entry =
      padded InfoClass.fileDirectoryInformation nameless ++ utf16le entry.info.name := by
    rw [only, ← same, padded, prefixed, List.length_append, fixed, long, aligned _ (by decide),
      List.replicate_zero, List.append_nil]
  have bytes : (Output.of [padded InfoClass.fileDirectoryInformation entry]).buf =
      padded InfoClass.fileDirectoryInformation nameless ++ utf16le entry.info.name := shape
  have told : (padded InfoClass.fileDirectoryInformation nameless ++
      utf16le entry.info.name).length % 2 ^ 32 =
        (padded InfoClass.fileDirectoryInformation nameless).length := by
    rw [List.length_append, front, long]
    rfl
  rw [reply_of_nonempty, HandlerResponse.ok, bytes, readListing_write _ _ _ told]
  · refine Chain.walk_join (padded InfoClass.fileDirectoryInformation)
      (fun e => DirRecord.of InfoClass.fileDirectoryInformation e.info) [nameless] (by simp) ?_ _ ?_
    · intro e member
      rw [List.mem_singleton.mp member]
      exact reads_padded rfl nameless (Nat.zero_le _)
    · rw [front, List.length_singleton]
      omega
  · rw [bytes, ← List.length_pos_iff, List.length_append, front]
    omega

end QueryDirectory

/-- The entry comes back without its name. -/
theorem longName_lost :
    ¬∀ (w : World Sample.Named Bool) (sid : UInt64) (tid : UInt32) (fid : FileId)
      (requests : List (Smb2Header × Bytes)) (listing : List DirEntry),
      QueryDirectory.Scans w sid tid fid requests listing →
        QueryDirectory.Enumerates w requests listing := by
  intro all
  obtain ⟨n, full⟩ : ∃ n, n = 2 ^ 31 := ⟨_, rfl⟩
  obtain ⟨name, named⟩ : ∃ name, name = List.replicate n 'a' := ⟨_, rfl⟩
  have long : (utf16le (Sample.entryNamed name).info.name).length = 2 ^ 32 := by
    have bytes := length_utf16le name
    have units := length_encodeUtf16_replicate n
    rw [← named] at units
    show (utf16le name).length = 2 ^ 32
    omega
  obtain ⟨w, conn, host⟩ : ∃ w : World Sample.Named Bool,
      w.conn = (Sample.shelfBehind [Sample.openDirectory]).conn ∧ w.env.host = ⟨name⟩ :=
    ⟨Sample.namedBehind name, by rw [Sample.namedBehind], by rw [Sample.namedBehind, System.start]⟩
  obtain ⟨file, h, found, directory, fresh, handle⟩ := opened_directory
  rw [← conn] at found
  obtain ⟨req, asks⟩ := continues_listing InfoClass.fileDirectoryInformation 0 (by decide +kernel)
  have pattern : QueryDirectory.patternOf req = none := patternOf_listing asks (by decide +kernel)
  have listed (pattern : Option Text) : (Host.listDir h.inner pattern w.env.host).1 =
      .ok [Sample.entryNamed name] := by
    rw [host]
    rfl
  have scans : QueryDirectory.Scans w 1 1 ⟨1, 1⟩
      [Sample.listing InfoClass.fileDirectoryInformation 0] [Sample.entryNamed name] := by
    refine ⟨by decide, ⟨file, h, found, directory, fresh, handle, ?_⟩, ?_⟩
    · intro request first req' asks'
      obtain rfl := Option.some.inj first
      refine ⟨[Sample.entryNamed name], listed _, ?_⟩
      rw [patternOf_listing asks' (by decide +kernel)]
      rfl
    · intro request member
      rw [List.mem_singleton.mp member]
      exact ⟨req, asks⟩
  obtain ⟨chunks, behind, split, pieces, -⟩ := all w 1 1 ⟨1, 1⟩ _ _ scans
  obtain ⟨tree, admitted⟩ := QueryDirectory.validate_of_continues (by decide) found directory asks
  have loaded : QueryDirectory.cursorFor req ⟨1, tree, file⟩ w.env.host =
      some (QueryDirectory.snapshot none [Sample.entryNamed name]) := by
    rw [QueryDirectory.cursorFor, if_neg (by rw [fresh]; simp), handle, pattern, Option.bind_some,
      listed]
  have answered : (QueryDirectory.handle (Sample.listing InfoClass.fileDirectoryInformation 0).1
      (Sample.listing InfoClass.fileDirectoryInformation 0).2 w).1 = QueryDirectory.reply
        (.of [QueryDirectory.padded req.fileInformationClass (Sample.entryNamed name)]) := by
    rw [(QueryDirectory.handle_of_cursor admitted loaded).1,
      ← QueryDirectory.fill_single asks.known req.outputBufferLength.toNat
        (QueryDirectory.singleEntry req)]
    rfl
  have infoClass : req.fileInformationClass = InfoClass.fileDirectoryInformation := by
    have parsed : (QueryDirectoryRequest.parse (Sample.listing InfoClass.fileDirectoryInformation
        0).2).map (·.fileInformationClass) = some InfoClass.fileDirectoryInformation := by
      decide +kernel
    rw [asks.parsed] at parsed
    exact Option.some.inj parsed
  have goesOn := QueryDirectory.enumerate_cons w _ [] (by
    rw [answered, infoClass]
    show statusSuccess ≠ statusNoMoreFiles
    decide)
  rw [goesOn] at pieces
  cases pieces with
  | @cons _ chunk _ chunks decoded rest =>
    obtain ⟨-, read⟩ := decoded
    have nothingMore : chunks = [] := List.forall₂_nil_left_iff.mp rest
    have classed : QueryDirectory.classOf
        (Sample.listing InfoClass.fileDirectoryInformation 0).2 =
        InfoClass.fileDirectoryInformation := by
      rw [QueryDirectory.classOf, asks.parsed]
      exact infoClass
    rw [classed, answered, infoClass, QueryDirectory.read_longName _ long] at read
    -- the record that the client reads has no name, the only entry has one
    obtain ⟨entry, only, same⟩ : ∃ entry, chunk = [entry] ∧ entry.info.name = [] := by
      have records := Option.some.inj read
      cases chunk with
      | nil => simp at records
      | cons entry more =>
        simp only [List.map_cons, List.cons.injEq, List.nil_eq, List.map_eq_nil_iff] at records
        obtain ⟨first, rfl⟩ := records
        exact ⟨entry, rfl, (congrArg DirRecord.name first).symm⟩
    rw [only, nothingMore] at split
    have isEntry : Sample.entryNamed name = entry := by
      simpa using (List.cons.inj split).1
    have nameless : name = [] := by
      rw [← isEntry] at same
      exact same
    have units : name.length = n := by rw [named, List.length_replicate]
    rw [nameless, List.length_nil] at units
    omega

end SmbServer
