import SmbServer.Handlers.File
import SmbServer.Handlers.Create
import SmbServer.InfoClass

/-!
# SmbServer.Handlers.SetInfo

SET_INFO: times, length, delete disposition and rename of an open file. `decode` turns a class and
a buffer into the operation they ask for, `perform` carries it out.
-/

namespace SmbServer

open Lib

variable {σ η : Type} [Host σ η]

namespace SetInfo

/-- What a SET_INFO request asks for. -/
inductive Operation (η : Type) where
  | setTimes (h : Boxed η) (times : FileTimes)
  | truncate (h : Boxed η) (len : UInt64)
  | disposition (deleteOnClose : Bool)
  | rename (newPath : SmbPath) (replaceIfExists : Bool)
  | allocation

/-- The open that the request names. -/
def validate (conn : Connection η) (hdr : Smb2Header) (body : Bytes) :
    Except NtStatus (SetInfoRequest × Target η) :=
  match SetInfoRequest.parse body with
  | none => .error statusInvalidParameter
  | some req =>
    match InfoType.fromU8 req.infoType with
    | none => .error statusInvalidInfoClass
    | some infoType =>
      if infoType ≠ .file then .error statusNotSupported
      else do
        let target ← lookupTarget conn hdr req.fileId
        return (req, target)

/-- Both `0` and `u64::MAX` leave a time unchanged. -/
def toSome (v : UInt64) : Option UInt64 :=
  if v = 0 ∨ v = 0xFFFFFFFFFFFFFFFF then none else some v

def decodeTimes (buffer : Bytes) : FileTimes where
  creationTime := toSome (readU64 buffer 0)
  lastAccessTime := toSome (readU64 buffer 8)
  lastWriteTime := toSome (readU64 buffer 16)
  changeTime := toSome (readU64 buffer 24)

def decode (infoClass : UInt8) (buffer : Bytes) (file : Open η) :
    Except NtStatus (Operation η) :=
  if infoClass = InfoClass.fileBasicInformation then
    -- the buffer of each class is measured before the handle is looked for
    if buffer.length < 36 then .error statusInfoLengthMismatch
    else
      match file.handle with
      | some h => .ok (.setTimes h (decodeTimes buffer))
      | none => .error statusFileClosed
  else if infoClass = InfoClass.fileEndOfFileInformation then
    if buffer.length < 8 then .error statusInfoLengthMismatch
    else
      match file.handle with
      | some h => .ok (.truncate h (readU64 buffer 0))
      | none => .error statusFileClosed
  else if infoClass = InfoClass.fileDispositionInformation then
    match buffer with
    | [] => .error statusInfoLengthMismatch
    | first :: _ => .ok (.disposition (first != 0))
  else if infoClass = InfoClass.fileRenameInformation then
    if buffer.length < 20 then .error statusInfoLengthMismatch
    else
      -- the name stands behind its length, and ReplaceIfExists is the first byte
      let nameLen := (readU32 buffer 16).toNat
      if buffer.length < 20 + nameLen then .error statusInfoLengthMismatch
      else
        match Create.decodePath (slice buffer 20 nameLen) with
        | .error status => .error status
        | .ok newPath => .ok (.rename newPath (buffer.head? != some 0))
  else if infoClass = InfoClass.fileAllocationInformation then .ok .allocation
  else .error statusNotSupported

/-- A result as a response. -/
def respond : SmbResult Unit → HandlerResponse
  | .ok () => .ok setInfoResponse
  | .error e => .ofError e

def perform (server : ServerState) (sid : UInt64) (fid : FileId) (target : Target η) :
    Operation η → Action (World σ η) HandlerResponse
  | .setTimes h times => do return respond (← h.setTimes (target.origin sid) times)
  | .truncate h len => do return respond (← h.truncate (target.origin sid) len)
  | .disposition deleteOnClose => do
    modifyConn fun conn => conn.modifyOpen sid target.tid fid fun file =>
      { file with deleteOnClose := deleteOnClose }
    return respond (.ok ())
  | .rename newPath replaceIfExists => do
    let src := target.file.lastPath
    record server.traceSink
      (.setInfoRename replaceIfExists newPath.displayBackslash src.displayBackslash)
    let result ←
      backendRename (target.origin sid) target.tree.share.backend src newPath replaceIfExists
    match result with
    | .ok () =>
      modifyConn fun conn => conn.modifyOpen sid target.tid fid fun file =>
        { file with lastPath := newPath }
      return respond (.ok ())
    | .error e => return .ofError e
  | .allocation => return respond (.ok ())

def handle (server : ServerState) (hdr : Smb2Header) (body : Bytes) :
    Action (World σ η) HandlerResponse := do
  let conn ← getConn
  match validate conn hdr body with
  | .error status => return .err status
  | .ok (req, target) =>
    if req.fileInformationClass ≠ InfoClass.fileRenameInformation then
      record server.traceSink (.setInfoOther req.fileInformationClass)
    match decode req.fileInformationClass req.buffer target.file with
    | .error status => return .err status
    | .ok op => perform server hdr.sessionId req.fileId target op

end SetInfo

end SmbServer
