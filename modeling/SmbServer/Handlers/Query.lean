import SmbServer.Handlers.File
import SmbServer.InfoClass

/-!
# SmbServer.Handlers.Query

QUERY_INFO and QUERY_DIRECTORY.
-/

namespace SmbServer

open Lib

variable {σ η : Type} [Host σ η]

/-! ### QUERY_INFO -/

namespace QueryInfo

def fileNamedStreams : UInt32 := 0x00040000

/-- The filesystem attributes; named streams only where the backend honours them. -/
def fsAttributes (caps : BackendCapabilities) : UInt32 :=
  let base : UInt32 := 0x00000001 ||| 0x00000002 ||| 0x00000004 ||| 0x00000008 ||| 0x00000010 |||
    0x00400000 ||| 0x00800000
  if caps.supportsNamedStreams then base ||| fileNamedStreams else base

/-- `"smb-server"` and `"NTFS"` -/
def volumeLabel : Text := ['s', 'm', 'b', '-', 's', 'e', 'r', 'v', 'e', 'r']

def fsName : Text := ['N', 'T', 'F', 'S']

def fileBuffer (infoClass : UInt8) (info : FileInfo) (fileIndex : UInt64) :
    Except NtStatus Bytes :=
  open InfoClass in
  if infoClass = fileBasicInformation then .ok (encodeFileBasicInformation info)
  else if infoClass = fileStandardInformation then .ok (encodeFileStandardInformation info)
  else if infoClass = fileInternalInformation then .ok (encodeFileInternalInformation fileIndex)
  else if infoClass = fileEaInformation then .ok encodeFileEaInformation
  else if infoClass = fileFullEaInformation then .error statusNoEasOnFile
  else if infoClass = fileAccessInformation then .ok (encodeFileAccessInformation 0x001F01FF)
  else if infoClass = filePositionInformation then .ok encodeFilePositionInformation
  else if infoClass = fileModeInformation then .ok (encodeFileModeInformation 0)
  else if infoClass = fileAlignmentInformation then .ok encodeFileAlignmentInformation
  else if infoClass = fileNameInformation then .ok (encodeFileNameInformation info.name)
  else if infoClass = fileAllInformation then
    .ok (encodeFileAllInformation info fileIndex 0x001F01FF)
  else if infoClass = fileNetworkOpenInformation then
    .ok (encodeFileNetworkOpenInformation info)
  else if infoClass = fileStreamInformation then .ok (encodeFileStreamInformation info)
  else .error statusInvalidInfoClass

def fsBuffer (infoClass : UInt8) (creationTime : UInt64) (caps : BackendCapabilities) :
    Except NtStatus Bytes :=
  open InfoClass in
  if infoClass = fsVolumeInformation then
    .ok (encodeFsVolumeInformation creationTime 0xCAFEBABE volumeLabel)
  else if infoClass = fsSizeInformation then
    .ok (encodeFsSizeInformation 0x10000000000 0x8000000000 1 4096)
  else if infoClass = fsDeviceInformation then .ok (encodeFsDeviceInformation 0x07 0x10)
  else if infoClass = fsAttributeInformation then
    .ok (encodeFsAttributeInformation (fsAttributes caps) 255 fsName)
  else if infoClass = fsFullSizeInformation then
    .ok (encodeFsFullSizeInformation 0x10000000000 0x8000000000 0x8000000000 1 4096)
  else .error statusInvalidInfoClass

/-- The buffer a query asks for; `stat` is the answer of the handle. -/
def buffer (infoType : InfoType) (req : QueryInfoRequest) (fid : FileId)
    (stat : SmbResult FileInfo) (caps : BackendCapabilities) : Except NtStatus Bytes :=
  match infoType with
  | .file =>
    match stat with
    | .ok info => fileBuffer req.fileInformationClass info fid.volatile
    | .error e => .error e.toNtStatus
  | .fileSystem =>
    let creationTime := match stat with
      | .ok info => info.creationTime
      | .error _ => 0
    fsBuffer req.fileInformationClass creationTime caps
  | .security => .ok InfoClass.encodeMinimalSecurityDescriptor
  | .quota => .error statusNotSupported

def validate (conn : Connection η) (hdr : Smb2Header) (body : Bytes) :
    Except NtStatus (QueryInfoRequest × InfoType × Target η × Boxed η) :=
  match QueryInfoRequest.parse body with
  | none => .error statusInvalidParameter
  | some req =>
    match InfoType.fromU8 req.infoType with
    | none => .error statusInvalidInfoClass
    | some infoType => do
      let target ← lookupTarget conn hdr req.fileId
      match target.file.handle with
      | some h => return (req, infoType, target, h)
      | none => .error statusFileClosed

/-- The response to a successful buffer, unless it is longer than the client allows. -/
def respond (req : QueryInfoRequest) (buf : Bytes) : HandlerResponse :=
  if UInt32.ofNat buf.length > req.outputBufferLength then .err statusInfoLengthMismatch
  else
    .ok (BufferResponse.write
      { structureSize := 9
        outputBufferOffset := 64 + 8
        outputBufferLength := UInt32.ofNat buf.length
        buffer := buf })

def handle (hdr : Smb2Header) (body : Bytes) : Action (World σ η) HandlerResponse := do
  let conn ← getConn
  match validate conn hdr body with
  | .error status => return .err status
  | .ok (req, infoType, target, h) =>
    let stat ← h.stat (target.origin hdr.sessionId)
    let caps := target.tree.share.backend.capabilities σ
    match buffer infoType req target.file.fileId stat caps with
    | .error status => return .err status
    | .ok buf => return respond req buf

end QueryInfo

/-! ### QUERY_DIRECTORY -/

namespace QueryDirectory

/-- An empty pattern and `*` are no pattern. -/
def patternOf (req : QueryDirectoryRequest) : Option Text :=
  let s := utf16leToString req.fileName
  if s.isEmpty || s == ['*'] then none else some s

def restart (req : QueryDirectoryRequest) : Bool :=
  req.flags &&& QueryDirectoryRequest.flagRestartScans != 0 ||
    req.flags &&& QueryDirectoryRequest.flagReopen != 0

def singleEntry (req : QueryDirectoryRequest) : Bool :=
  req.flags &&& QueryDirectoryRequest.flagReturnSingleEntry != 0

/-- The listing, filtered by the pattern whatever the backend made of it. -/
def snapshot (pattern : Option Text) (entries : List DirEntry) : DirCursor where
  entries := match pattern with
    | some p => entries.filter fun e => dosPatternMatches p e.info.name
    | none => entries
  next := 0
  pattern := pattern

/-- The buffer under construction: its bytes and where its last entry starts. -/
structure Output where
  buf : Bytes
  lastOffset : Option Nat
  deriving DecidableEq

/-- Append one encoded entry, padded to 8 bytes, and link the previous entry to it. -/
def Output.push (out : Output) (bytes : Bytes) : Output :=
  let prevLen := out.buf.length
  let linked := match out.lastOffset with
    | some prevOff => patch out.buf prevOff (u32le (UInt32.ofNat (prevLen - prevOff)))
    | none => out.buf
  { buf := linked ++ bytes ++ List.replicate (InfoClass.align8 bytes.length - bytes.length) 0
    lastOffset := some prevLen }

/-- The encoding loop over the entries behind the cursor; the number says how far it moves. -/
def fill (infoClass : UInt8) (cap : Nat) (single : Bool) :
    List DirEntry → Output → Output × Nat
  | [], out => (out, 0)
  | entry :: rest, out =>
    let bytes := InfoClass.encodeDirEntry infoClass entry entry.info.fileIndex
    if bytes.isEmpty then
      let (out, moved) := fill infoClass cap single rest out
      (out, moved + 1)
    else if out.buf.length + InfoClass.align8 bytes.length > cap && !out.buf.isEmpty then (out, 0)
    else
      let out := out.push bytes
      if single then (out, 1)
      else
        let (out, moved) := fill infoClass cap single rest out
        (out, moved + 1)

def validate (conn : Connection η) (hdr : Smb2Header) (body : Bytes) :
    Except NtStatus (QueryDirectoryRequest × Target η) :=
  match QueryDirectoryRequest.parse body with
  | none => .error statusInvalidParameter
  | some req =>
    if !isFileInfoClass req.fileInformationClass then .error statusInvalidInfoClass
    else do
      let target ← lookupTarget conn hdr req.fileId
      if !target.file.isDirectory then .error statusInvalidParameter
      return (req, target)

def storeCursor (sid : UInt64) (tid : UInt32) (fid : FileId) (cursor : DirCursor)
    (conn : Connection η) : Connection η :=
  conn.modifyOpen sid tid fid fun file => { file with searchState := some cursor }

/-- List the directory when the open has no cursor yet, or on a restart. -/
def populate (sid : UInt64) (req : QueryDirectoryRequest) (target : Target η) :
    Action (World σ η) (Except NtStatus Unit) :=
  if target.file.searchState.isSome && !restart req then return .ok ()
  else
    match target.file.handle with
    | none => return .error statusFileClosed
    | some h => do
      match ← h.listDir (target.origin sid) (patternOf req) with
      | .error e => return .error e.toNtStatus
      | .ok entries =>
        modifyConn (storeCursor sid target.tid req.fileId (snapshot (patternOf req) entries))
        return .ok ()

/-- Encode what fits and advance the cursor that `populate` left. -/
def emit (sid : UInt64) (req : QueryDirectoryRequest) (target : Target η) :
    Action (World σ η) HandlerResponse := do
  let conn ← getConn
  match (conn.findOpen sid target.tid req.fileId).bind (·.searchState) with
  | none =>
    panicAt .directoryCursor
    return .err statusNoMoreFiles
  | some cursor =>
    let (out, moved) := fill req.fileInformationClass req.outputBufferLength.toNat
      (singleEntry req) (cursor.entries.drop cursor.next) ⟨[], none⟩
    modifyConn (storeCursor sid target.tid req.fileId { cursor with next := cursor.next + moved })
    if out.buf.isEmpty then return .err statusNoMoreFiles
    return .ok (BufferResponse.write
      { structureSize := 9
        outputBufferOffset := 64 + 8
        outputBufferLength := UInt32.ofNat out.buf.length
        buffer := out.buf })

def handle (hdr : Smb2Header) (body : Bytes) : Action (World σ η) HandlerResponse := do
  let conn ← getConn
  match validate conn hdr body with
  | .error status => return .err status
  | .ok (req, target) =>
    match ← populate hdr.sessionId req target with
    | .error status => return .err status
    | .ok () => emit hdr.sessionId req target

end QueryDirectory

end SmbServer
