import SmbServer.Panics.Handlers

/-!
# SmbServer.Panics.Files

The handlers on open files with their panics, and the command router over all handlers.
-/

namespace SmbServer.Panicking

open Lib Risky RiskyAction

variable {σ η : Type} [Host σ η]

/-! ### CLOSE and WRITE -/

/-- The event is made only when a sink is armed. -/
def recordWhen (armed : Bool) (event : Risky TraceEvent) : RiskyAction (World σ η) Unit :=
  if armed then do
    let event ← raise event
    total (record true event)
  else pure ()

omit [Host σ η] in
theorem recordWhen_eq (armed : Bool) (event : TraceEvent) :
    recordWhen armed (.ok event) = total (record armed event : Action (World σ η) _) := by
  cases armed <;> rfl

namespace Close

open SmbServer.Close (validate infoBeforeClose response)

def closeEvent (req : CloseRequest) (file : Open η) : Risky TraceEvent := do
  let fid ← fileIdBytes req.fileId
  return .close fid file.deleteOnClose file.lastPath.displayBackslash

def perform (server : ServerState) (sid : UInt64) (req : CloseRequest) (target : Target η) :
    RiskyAction (World σ η) HandlerResponse := do
  let file := target.file
  let origin := target.origin sid
  total (modifyConn fun conn =>
    conn.modifyOpens sid target.tid fun opens => opens.erase req.fileId)
  recordWhen server.traceSink (closeEvent req file)
  let info ← total (infoBeforeClose req origin file.handle)
  match file.handle with
  | some h => let _ ← total (h.close origin)
  | none => pure ()
  if file.deleteOnClose then
    let _ ← total (backendUnlink origin target.tree.share.backend file.lastPath)
  return .ok (response req info)

def handle (server : ServerState) (hdr : Smb2Header) (body : Bytes) :
    RiskyAction (World σ η) HandlerResponse := do
  let conn ← total getConn
  match validate conn hdr body with
  | .error status => return .err status
  | .ok (req, target) => perform server hdr.sessionId req target

theorem perform_eq (server : ServerState) (sid : UInt64) (req : CloseRequest)
    (target : Target η) :
    perform server sid req target =
      total (SmbServer.Close.perform server sid req target : Action (World σ η) _) := by
  rw [perform, SmbServer.Close.perform, closeEvent, fileIdBytes_eq, ok_bind, pure_eq,
    recordWhen_eq]
  refine total_bind fun _ => total_bind fun _ => total_bind fun info => ?_
  cases target.file.handle <;> cases target.file.deleteOnClose <;> rfl

theorem handle_eq (server : ServerState) (hdr : Smb2Header) (body : Bytes) :
    handle server hdr body =
      total (SmbServer.Close.handle server hdr body : Action (World σ η) _) := by
  refine total_bind fun conn => ?_
  cases validate conn hdr body with
  | error status => rfl
  | ok admitted => exact perform_eq server hdr.sessionId admitted.1 admitted.2

end Close

namespace Write

open SmbServer.Write (validate)

def writeEvent (req : WriteRequest) : Risky TraceEvent := do
  let fid ← fileIdBytes req.fileId
  return .write fid req.offset req.length

def handle (server : ServerState) (hdr : Smb2Header) (body : Bytes) :
    RiskyAction (World σ η) HandlerResponse :=
  match WriteRequest.parse body with
  | none => return .err statusInvalidParameter
  | some req => do
    recordWhen server.traceSink (writeEvent req)
    let conn ← total getConn
    match validate conn hdr req with
    | .error status => return .err status
    | .ok (target, h) =>
      match ← total (h.writeOwned (target.origin hdr.sessionId) req.offset req.data) with
      | .error e => return .ofError e
      | .ok count => return .ok (WriteResponse.new count).write

theorem handle_eq (server : ServerState) (hdr : Smb2Header) (body : Bytes) :
    handle server hdr body =
      total (SmbServer.Write.handle server hdr body : Action (World σ η) _) := by
  rw [handle, SmbServer.Write.handle]
  cases WriteRequest.parse body with
  | none => rfl
  | some req =>
    dsimp only
    rw [writeEvent, fileIdBytes_eq, ok_bind, pure_eq, recordWhen_eq]
    refine total_bind fun _ => total_bind fun conn => ?_
    cases validate conn hdr req with
    | error status => rfl
    | ok admitted =>
      refine total_bind fun written => ?_
      cases written <;> rfl

end Write

/-! ### SET_INFO -/

namespace SetInfo

open SmbServer.SetInfo (Operation validate toSome perform)

def decodeTimes (buffer : Bytes) : Risky FileTimes := do
  let creation ← u64Of buffer 0 8
  let access ← u64Of buffer 8 16
  let write ← u64Of buffer 16 24
  let change ← u64Of buffer 24 32
  return { creationTime := toSome creation
           lastAccessTime := toSome access
           lastWriteTime := toSome write
           changeTime := toSome change }

def decode (infoClass : UInt8) (buffer : Bytes) (file : Open η) :
    Risky (Except NtStatus (Operation η)) :=
  if infoClass = InfoClass.fileBasicInformation then
    if buffer.length < 36 then return .error statusInfoLengthMismatch
    else do
      let times ← decodeTimes buffer
      match file.handle with
      | some h => return .ok (.setTimes h times)
      | none => return .error statusFileClosed
  else if infoClass = InfoClass.fileEndOfFileInformation then
    if buffer.length < 8 then return .error statusInfoLengthMismatch
    else do
      let len ← u64Of buffer 0 8
      match file.handle with
      | some h => return .ok (.truncate h len)
      | none => return .error statusFileClosed
  else if infoClass = InfoClass.fileDispositionInformation then
    if buffer.isEmpty then return .error statusInfoLengthMismatch
    else do
      let first ← index buffer 0
      return .ok (.disposition (first != 0))
  else if infoClass = InfoClass.fileRenameInformation then
    if buffer.length < 20 then return .error statusInfoLengthMismatch
    else do
      let nameLen ← u32Of buffer 16 20
      if buffer.length < 20 + nameLen.toNat then return .error statusInfoLengthMismatch
      else
        let nameBytes ← range buffer 20 (20 + nameLen.toNat)
        match ← Create.decodePath nameBytes with
        | .error status => return .error status
        | .ok newPath =>
          let first ← index buffer 0
          return .ok (.rename newPath (first != 0))
  else if infoClass = InfoClass.fileAllocationInformation then return .ok .allocation
  else return .error statusNotSupported

def handle (server : ServerState) (hdr : Smb2Header) (body : Bytes) :
    RiskyAction (World σ η) HandlerResponse := do
  let conn ← total getConn
  match validate conn hdr body with
  | .error status => return .err status
  | .ok (req, target) =>
    if req.fileInformationClass ≠ InfoClass.fileRenameInformation then
      total (record server.traceSink (.setInfoOther req.fileInformationClass))
    match ← raise (decode req.fileInformationClass req.buffer target.file) with
    | .error status => return .err status
    | .ok op => total (perform server hdr.sessionId req.fileId target op)

theorem decodeTimes_eq {buffer : Bytes} (long : 36 ≤ buffer.length) :
    decodeTimes buffer = .ok (SmbServer.SetInfo.decodeTimes buffer) := by
  have word (pos : Nat) (front : pos ≤ 24) :
      u64Of buffer pos (pos + 8) = .ok (Lib.readU64 buffer pos) :=
    u64Of_of_le (by omega)
  rw [decodeTimes, word 0 (by omega), ok_bind, word 8 (by omega), ok_bind, word 16 (by omega),
    ok_bind, word 24 (by omega), ok_bind]
  rfl

omit [Host σ η] in
theorem decode_eq (infoClass : UInt8) (buffer : Bytes) (file : Open η) :
    decode infoClass buffer file = .ok (SmbServer.SetInfo.decode infoClass buffer file) := by
  rw [decode, SmbServer.SetInfo.decode.eq_def]
  split
  · by_cases short : buffer.length < 36
    · rw [if_pos short, if_pos short]
      rfl
    · rw [if_neg short, if_neg short, decodeTimes_eq (Nat.not_lt.mp short), ok_bind]
      cases file.handle <;> rfl
  split
  · by_cases short : buffer.length < 8
    · rw [if_pos short, if_pos short]
      rfl
    · have len : u64Of buffer 0 8 = .ok (Lib.readU64 buffer 0) := u64Of_of_le (by omega)
      rw [if_neg short, if_neg short, len, ok_bind]
      cases file.handle <;> rfl
  split
  · cases buffer <;> rfl
  split
  · by_cases short : buffer.length < 20
    · rw [if_pos short, if_pos short]
      rfl
    have nameLen : u32Of buffer 16 20 = .ok (Lib.readU32 buffer 16) := u32Of_of_le (by omega)
    rw [if_neg short, if_neg short, nameLen, ok_bind]
    by_cases cut : buffer.length < 20 + (Lib.readU32 buffer 16).toNat
    · simp only [if_pos cut]
      rfl
    have first : index buffer 0 = .ok buffer[0] := index_of_lt (by omega)
    have head : buffer.head? = some buffer[0] := by
      rw [List.head?_eq_getElem?, List.getElem?_eq_getElem]
    simp only [if_neg cut]
    rw [range_slice (Nat.not_lt.mp cut), ok_bind, Create.decodePath_eq, ok_bind]
    cases SmbServer.Create.decodePath (slice buffer 20 (Lib.readU32 buffer 16).toNat) with
    | error status => rfl
    | ok newPath =>
      dsimp only
      rw [first, head]
      rfl
  split <;> rfl

theorem handle_eq (server : ServerState) (hdr : Smb2Header) (body : Bytes) :
    handle server hdr body =
      total (SmbServer.SetInfo.handle server hdr body : Action (World σ η) _) := by
  refine total_bind fun conn => ?_
  cases validate conn hdr body with
  | error status => rfl
  | ok admitted =>
    obtain ⟨req, target⟩ := admitted
    simp only [decode_eq]
    split
    · refine total_bind fun _ => ?_
      rw [raise_ok_bind]
      cases SmbServer.SetInfo.decode req.fileInformationClass req.buffer target.file <;> rfl
    · rw [raise_ok_bind]
      cases SmbServer.SetInfo.decode req.fileInformationClass req.buffer target.file <;> rfl

end SetInfo

/-! ### QUERY_DIRECTORY -/

namespace QueryDirectory

open SmbServer.QueryDirectory (Output restart singleEntry validate storeCursor)

def patternOf (req : QueryDirectoryRequest) : Risky (Option Text) := do
  let s ← utf16leToString req.fileName
  return if s.isEmpty || s == ['*'] then none else some s

/-- `entries.retain(..)` -/
def retain (pattern : Text) : List DirEntry → Risky (List DirEntry)
  | [] => return []
  | entry :: rest => do
    let keep ← dosPatternMatches pattern entry.info.name
    let kept ← retain pattern rest
    return if keep then entry :: kept else kept

def snapshot (pattern : Option Text) (entries : List DirEntry) : Risky DirCursor := do
  let kept ← match pattern with
    | some p => retain p entries
    | none => pure entries
  return { entries := kept, next := 0, pattern := pattern }

/-- The previous entry is linked to the one that is appended. -/
def push (out : Output) (bytes : Bytes) : Risky Output := do
  let prevLen := out.buf.length
  let linked ← match out.lastOffset with
    | some prevOff =>
      copyInto out.buf prevOff (prevOff + 4) (u32le (UInt32.ofNat (prevLen - prevOff)))
    | none => pure out.buf
  return { buf := linked ++ bytes ++
             List.replicate (InfoClass.align8 bytes.length - bytes.length) 0
           lastOffset := some prevLen }

/-- The loop over `cursor.next`. -/
def fill (infoClass : UInt8) (cap : Nat) (single : Bool) (entries : List DirEntry) (next : Nat)
    (out : Output) : Risky (Output × Nat) :=
  if _more : next < entries.length then do
    let entry ← index entries next
    let bytes := InfoClass.encodeDirEntry infoClass entry entry.info.fileIndex
    if bytes.isEmpty then fill infoClass cap single entries (next + 1) out
    else if out.buf.length + InfoClass.align8 bytes.length > cap && !out.buf.isEmpty then
      return (out, next)
    else do
      let out ← push out bytes
      if single then return (out, next + 1)
      else fill infoClass cap single entries (next + 1) out
  else return (out, next)
termination_by entries.length - next

def populate (sid : UInt64) (req : QueryDirectoryRequest) (target : Target η) :
    RiskyAction (World σ η) (Except NtStatus Unit) := do
  let pattern ← raise (patternOf req)
  if target.file.searchState.isSome && !restart req then return .ok ()
  else
    match target.file.handle with
    | none => return .error statusFileClosed
    | some h =>
      match ← total (h.listDir (target.origin sid) pattern) with
      | .error e => return .error e.toNtStatus
      | .ok entries =>
        let cursor ← raise (snapshot pattern entries)
        total (modifyConn (storeCursor sid target.tid req.fileId cursor))
        return .ok ()

def emit (sid : UInt64) (req : QueryDirectoryRequest) (target : Target η) :
    RiskyAction (World σ η) HandlerResponse := do
  let conn ← total getConn
  let cursor ← raise (unwrap
    ((conn.findOpen sid target.tid req.fileId).bind (·.searchState)))
  let (out, next) ← raise (fill req.fileInformationClass req.outputBufferLength.toNat
    (singleEntry req) cursor.entries cursor.next ⟨[], none⟩)
  total (modifyConn (storeCursor sid target.tid req.fileId { cursor with next := next }))
  if out.buf.isEmpty then return .err statusNoMoreFiles
  else
    return .ok (BufferResponse.write
      { structureSize := 9
        outputBufferOffset := 64 + 8
        outputBufferLength := UInt32.ofNat out.buf.length
        buffer := out.buf })

def handle (hdr : Smb2Header) (body : Bytes) : RiskyAction (World σ η) HandlerResponse := do
  let conn ← total getConn
  match validate conn hdr body with
  | .error status => return .err status
  | .ok (req, target) =>
    match ← populate hdr.sessionId req target with
    | .error status => return .err status
    | .ok () => emit hdr.sessionId req target

theorem patternOf_eq (req : QueryDirectoryRequest) :
    patternOf req = .ok (SmbServer.QueryDirectory.patternOf req) := by
  rw [patternOf, utf16leToString_eq]
  rfl

theorem retain_eq (pattern : Text) (entries : List DirEntry) :
    retain pattern entries =
      .ok (entries.filter fun e => SmbServer.dosPatternMatches pattern e.info.name) := by
  induction entries with
  | nil => rfl
  | cons entry rest ih =>
    rw [retain, dosPatternMatches_eq, ok_bind, ih, ok_bind, List.filter_cons]
    rfl

theorem snapshot_eq (pattern : Option Text) (entries : List DirEntry) :
    snapshot pattern entries = .ok (SmbServer.QueryDirectory.snapshot pattern entries) := by
  cases pattern with
  | none => rfl
  | some p =>
    rw [snapshot, retain_eq]
    rfl

/-- The buffer has room for the link of its last entry. -/
def Linked (out : Output) : Prop := ∀ off, out.lastOffset = some off → off + 4 ≤ out.buf.length

theorem push_eq {out : Output} (linked : Linked out) (bytes : Bytes) :
    push out bytes = .ok (out.push bytes) := by
  rw [push, Output.push]
  cases last : out.lastOffset with
  | none => rfl
  | some prevOff =>
    have room := linked prevOff last
    have patched :=
      @copyInto_patch out.buf (u32le (UInt32.ofNat (out.buf.length - prevOff))) prevOff room
    rw [length_u32le] at patched
    dsimp only
    rw [patched]
    rfl

theorem linked_push {out : Output} (linked : Linked out) {bytes : Bytes}
    (long : 4 ≤ bytes.length) : Linked (out.push bytes) := by
  rintro _ ⟨⟩
  simp only [Output.push, List.length_append, List.length_replicate]
  cases last : out.lastOffset with
  | none =>
    dsimp only
    omega
  | some prevOff =>
    dsimp only
    rw [length_patch _ _ _ (by simpa using linked prevOff last)]
    omega

/-- The field that links an entry stands in every entry. -/
theorem encodeDirEntry_long (infoClass : UInt8) (entry : DirEntry) (fileIndex : UInt64)
    (some_ : (InfoClass.encodeDirEntry infoClass entry fileIndex).isEmpty = false) :
    4 ≤ (InfoClass.encodeDirEntry infoClass entry fileIndex).length := by
  have front (nameLen : Nat) :
      4 ≤ (InfoClass.dirEntryPrefix entry.info fileIndex nameLen).length := by
    simp only [InfoClass.dirEntryPrefix, List.length_append, length_u32le]
    omega
  rw [InfoClass.encodeDirEntry] at some_ ⊢
  have start := front (utf16le entry.info.name).length
  split
  · rw [List.length_append]
    omega
  split
  · simp only [List.length_append]
    omega
  split
  · simp only [List.length_append]
    omega
  split
  · simp only [List.length_append]
    omega
  split
  · simp only [List.length_append]
    omega
  split
  · simp only [List.length_append, length_u32le]
    omega
  next h1 h2 h3 h4 h5 h6 =>
    simp only [h1, h2, h3, h4, h5, h6, if_false] at some_
    cases some_

theorem fill_eq (infoClass : UInt8) (cap : Nat) (single : Bool) (entries : List DirEntry)
    (next : Nat) {out : Output} (linked : Linked out) :
    fill infoClass cap single entries next out =
      .ok ((SmbServer.QueryDirectory.fill infoClass cap single (entries.drop next) out).1,
        next + (SmbServer.QueryDirectory.fill infoClass cap single (entries.drop next) out).2) := by
  -- on the entries behind the cursor
  induction behind : entries.length - next generalizing next out with
  | zero =>
    have ended : ¬ next < entries.length := by omega
    rw [fill, dif_neg ended, List.drop_eq_nil_of_le (Nat.not_lt.mp ended)]
    rfl
  | succ n ih =>
    have more : next < entries.length := by omega
    rw [fill, dif_pos more, index_of_lt more, ok_bind, List.drop_eq_getElem_cons more,
      SmbServer.QueryDirectory.fill]
    have long := encodeDirEntry_long infoClass entries[next] entries[next].info.fileIndex
    have later := fun {out : Output} (linked : Linked out) => ih (next + 1) linked (by omega)
    dsimp only
    generalize InfoClass.encodeDirEntry infoClass entries[next] entries[next].info.fileIndex = bytes
      at long
    by_cases empty : bytes.isEmpty = true
    · rw [if_pos empty, if_pos empty, later linked, Nat.add_assoc, Nat.add_comm 1]
    rw [if_neg empty, if_neg empty]
    by_cases full : (out.buf.length + InfoClass.align8 bytes.length > cap &&
        !out.buf.isEmpty) = true
    · rw [if_pos full, if_pos full]
      rfl
    rw [if_neg full, if_neg full, push_eq linked, ok_bind]
    cases single with
    | true => rfl
    | false =>
      have linked := linked_push linked (long (Bool.eq_false_iff.mpr empty))
      simp only [Bool.false_eq_true, if_false]
      rw [later linked, Nat.add_assoc, Nat.add_comm 1]

theorem populate_eq (sid : UInt64) (req : QueryDirectoryRequest) (target : Target η) :
    populate sid req target =
      total (SmbServer.QueryDirectory.populate sid req target : Action (World σ η) _) := by
  rw [populate, SmbServer.QueryDirectory.populate, patternOf_eq, raise_ok_bind]
  split
  · rfl
  cases target.file.handle with
  | none => rfl
  | some h =>
    refine total_bind fun listed => ?_
    cases listed with
    | error e => rfl
    | ok entries =>
      dsimp only
      rw [snapshot_eq]
      rfl

/-- There is a cursor behind `populate`. -/
theorem populate_cursor (sid : UInt64) (req : QueryDirectoryRequest) (target : Target η)
    (w : World σ η)
    (found : w.conn.findOpen sid target.tid req.fileId = some target.file)
    (populated : (SmbServer.QueryDirectory.populate sid req target w).1 = .ok ()) :
    ∃ cursor, ((SmbServer.QueryDirectory.populate sid req target w).2.conn.findOpen sid target.tid
      req.fileId).bind (·.searchState) = some cursor := by
  rw [SmbServer.QueryDirectory.populate] at populated ⊢
  by_cases kept : (target.file.searchState.isSome && !restart req) = true
  · obtain ⟨present, -⟩ := Bool.and_eq_true_iff.mp kept
    obtain ⟨cursor, present⟩ := Option.isSome_iff_exists.mp present
    refine ⟨cursor, ?_⟩
    rw [if_pos kept, Action.pure_apply, found, Option.bind_some]
    exact present
  rw [if_neg kept] at populated ⊢
  cases file : target.file.handle with
  | none =>
    rw [file] at populated
    cases populated
  | some h =>
    simp only [file, Action.bind_apply] at populated ⊢
    have same : (h.listDir (target.origin sid) (SmbServer.QueryDirectory.patternOf req) w).2.conn =
      w.conn := rfl
    generalize h.listDir (target.origin sid) (SmbServer.QueryDirectory.patternOf req) w = listed
      at populated same ⊢
    obtain ⟨result, w'⟩ := listed
    cases result with
    | error e => cases populated
    | ok entries =>
      change w'.conn = w.conn at same
      simp only [Action.bind_apply, modifyConn_apply, Action.pure_apply, World.setConn_conn, same,
        storeCursor, Connection.findOpen_modifyOpen, and_self, if_true, found, Option.map_some,
        Option.bind_some, Option.some.injEq, exists_eq']

omit [Host σ η] in
theorem emit_eq (sid : UInt64) (req : QueryDirectoryRequest) (target : Target η) (w : World σ η)
    {cursor : DirCursor}
    (found : (w.conn.findOpen sid target.tid req.fileId).bind (·.searchState) = some cursor) :
    emit sid req target w =
      total (SmbServer.QueryDirectory.emit sid req target : Action (World σ η) _) w := by
  have start : Linked ⟨[], none⟩ := by
    rintro _ ⟨⟩
  rw [emit, total_bind_apply, getConn_apply, found]
  change (raise (fill _ _ _ cursor.entries cursor.next _) >>= _) w = _
  rw [fill_eq _ _ _ _ _ start, raise_ok_bind, total_apply, SmbServer.QueryDirectory.emit,
    Action.bind_apply, getConn_apply, found]
  dsimp only
  generalize SmbServer.QueryDirectory.fill _ _ _ (cursor.entries.drop cursor.next) _ = filled
  obtain ⟨out, moved⟩ := filled
  dsimp only
  cases out.buf.isEmpty <;> rfl

theorem handle_eq (hdr : Smb2Header) (body : Bytes) :
    handle hdr body =
      total (SmbServer.QueryDirectory.handle hdr body : Action (World σ η) _) := by
  funext w
  rw [handle, total_bind_apply, getConn_apply, total_apply, SmbServer.QueryDirectory.handle,
    Action.bind_apply, getConn_apply]
  cases admitted : validate w.conn hdr body with
  | error status => rfl
  | ok pair =>
    obtain ⟨req, target⟩ := pair
    have found := findOpen_of_lookupTarget w.conn hdr req.fileId target
      (SmbServer.QueryDirectory.validate_eq_ok w.conn req target admitted).2.1
    dsimp only
    rw [populate_eq, total_bind_apply, Action.bind_apply]
    cases populated : (SmbServer.QueryDirectory.populate hdr.sessionId req target w).1 with
    | error status => rfl
    | ok done =>
      -- what is listed here is there when it is encoded
      obtain ⟨cursor, cached⟩ := populate_cursor hdr.sessionId req target w found populated
      exact emit_eq hdr.sessionId req target _ cached

end QueryDirectory

/-! ### The router -/

/-- `dispatch_command` -/
def dispatchCommand [Crypto] (server : ServerState) (hdr : Smb2Header) (body : Bytes) :
    RiskyAction (World σ η) HandlerResponse :=
  match hdr.command with
  | .sessionSetup => SessionSetup.handle server hdr body
  | .treeConnect => TreeConnect.handle server hdr body
  | .create => Create.handle server hdr body
  | .close => Close.handle server hdr body
  | .write => Write.handle server hdr body
  | .queryDirectory => QueryDirectory.handle hdr body
  | .setInfo => SetInfo.handle server hdr body
  | .negotiate => total (Negotiate.handle server body)
  | .logoff => total (Logoff.handle hdr)
  | .treeDisconnect => total (TreeDisconnect.handle hdr)
  | .flush => total (Flush.handle hdr body)
  | .read => total (Read.handle hdr body)
  | .ioctl => total (Ioctl.handle server body)
  | .queryInfo => total (QueryInfo.handle hdr body)
  | .lock => return .ok emptyResponse
  | .echo => return .ok emptyResponse
  | .changeNotify => return .err statusNotSupported
  | .oplockBreak => return .ok oplockBreakResponse
  | .cancel => return .err statusInvalidParameter

theorem dispatchCommand_eq [Crypto] (server : ServerState) (hdr : Smb2Header) (body : Bytes) :
    dispatchCommand server hdr body =
      total (SmbServer.dispatchCommand server hdr body : Action (World σ η) _) := by
  rw [dispatchCommand, SmbServer.dispatchCommand]
  cases hdr.command with
  | sessionSetup => exact SessionSetup.handle_eq server hdr body
  | treeConnect => exact TreeConnect.handle_eq server hdr body
  | create => exact Create.handle_eq server hdr body
  | close => exact Close.handle_eq server hdr body
  | write => exact Write.handle_eq server hdr body
  | queryDirectory => exact QueryDirectory.handle_eq hdr body
  | setInfo => exact SetInfo.handle_eq server hdr body
  | _ => rfl

end SmbServer.Panicking
