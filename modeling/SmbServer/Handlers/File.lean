import SmbServer.Handlers.Response

/-!
# SmbServer.Handlers.File

CLOSE, FLUSH, READ and WRITE.
-/

namespace SmbServer

open Lib

variable {σ η : Type} [Host σ η]

/-- The handle of an open, reached through a tree. -/
structure Target (η : Type) where
  tid : UInt32
  tree : TreeConnect η
  file : Open η

namespace Target

/-- The origin of a call through the target's handle. -/
def origin (t : Target η) (sid : UInt64) : Origin :=
  ⟨sid, t.tid, t.tree.grantedAccess, some t.file.grantedAccess⟩

end Target

/-- The open that a header and a FileId name. -/
def lookupTarget (conn : Connection η) (hdr : Smb2Header) (fid : FileId) :
    Except NtStatus (Target η) := do
  let (tid, tree) ← lookupSessionTree conn hdr
  match lookupOpen tree fid with
  | some file => return { tid, tree, file }
  | none => .error statusFileClosed

/-! ### CLOSE -/

namespace Close

def flagPostqueryAttrib : UInt16 := 0x0001

def wantAttrs (req : CloseRequest) : Bool := req.flags &&& flagPostqueryAttrib != 0

def response (req : CloseRequest) (info : Option FileInfo) : Bytes :=
  CloseResponse.write
    { structureSize := 60
      flags := req.flags &&& flagPostqueryAttrib
      reserved := 0
      creationTime := (info.map (·.creationTime)).getD 0
      lastAccessTime := (info.map (·.lastAccessTime)).getD 0
      lastWriteTime := (info.map (·.lastWriteTime)).getD 0
      changeTime := (info.map (·.changeTime)).getD 0
      allocationSize := (info.map (·.allocationSize)).getD 0
      endOfFile := (info.map (·.endOfFile)).getD 0
      fileAttributes := (info.map (·.attributes)).getD 0 }

def validate (conn : Connection η) (hdr : Smb2Header) (body : Bytes) :
    Except NtStatus (CloseRequest × Target η) :=
  match CloseRequest.parse body with
  | none => .error statusInvalidParameter
  | some req => do
    let target ← lookupTarget conn hdr req.fileId
    return (req, target)

/-- The attributes before closing, when the client asked for them. -/
def infoBeforeClose (req : CloseRequest) (origin : Origin) (handle : Option (Boxed η)) :
    Action (World σ η) (Option FileInfo) :=
  match wantAttrs req, handle with
  | true, some h => do
    match ← h.stat origin with
    | .ok info => return some info
    | .error _ => return none
  | _, _ => return none

/-- Close the handle; then unlink the remembered path when the open is marked for deletion. -/
def perform (server : ServerState) (sid : UInt64) (req : CloseRequest) (target : Target η) :
    Action (World σ η) HandlerResponse := do
  let file := target.file
  let origin := target.origin sid
  modifyConn fun conn => conn.modifyOpens sid target.tid fun opens => opens.erase req.fileId
  record server.traceSink
    (.close req.fileId.write file.deleteOnClose file.lastPath.displayBackslash)
  let info ← infoBeforeClose req origin file.handle
  match file.handle with
  | some h => let _ ← h.close origin
  | none => pure ()
  if file.deleteOnClose then
    let _ ← backendUnlink origin target.tree.share.backend file.lastPath
  return .ok (response req info)

def handle (server : ServerState) (hdr : Smb2Header) (body : Bytes) :
    Action (World σ η) HandlerResponse := do
  let conn ← getConn
  match validate conn hdr body with
  | .error status => return .err status
  | .ok (req, target) => perform server hdr.sessionId req target

end Close

/-! ### FLUSH -/

namespace Flush

def handle (hdr : Smb2Header) (body : Bytes) : Action (World σ η) HandlerResponse :=
  match FlushRequest.parse body with
  | none => return .err statusInvalidParameter
  | some req => do
    let conn ← getConn
    match lookupTarget conn hdr ⟨req.fileIdPersistent, req.fileIdVolatile⟩ with
    | .error status => return .err status
    | .ok target =>
      match target.file.handle with
      | none => return .err statusFileClosed
      | some h =>
        match ← h.flush (target.origin hdr.sessionId) with
        | .error e => return .ofError e
        | .ok () => return .ok emptyResponse

end Flush

/-! ### READ -/

namespace Read

def response (bytes : Bytes) : Bytes :=
  ReadResponse.write
    { structureSize := 17
      dataOffset := ReadResponse.standardDataOffset
      reserved := 0
      dataLength := UInt32.ofNat bytes.length
      dataRemaining := 0
      flags := 0
      data := bytes }

def handle (hdr : Smb2Header) (body : Bytes) : Action (World σ η) HandlerResponse :=
  match ReadRequest.parse body with
  | none => return .err statusInvalidParameter
  | some req => do
    let conn ← getConn
    if req.length > conn.maxReadSize then return .err statusInvalidParameter
    match lookupTarget conn hdr req.fileId with
    | .error status => return .err status
    | .ok target =>
      match target.file.handle with
      | none => return .err statusFileClosed
      | some h =>
        match ← h.read (target.origin hdr.sessionId) req.offset req.length with
        | .error e => return .ofError e
        | .ok bytes =>
          if bytes.isEmpty && req.length > 0 then return .err statusEndOfFile
          return .ok (response bytes)

end Read

/-! ### WRITE -/

namespace Write

/-- The checks between the request and the handle: its length, the tree's access, the open. -/
def validate (conn : Connection η) (hdr : Smb2Header) (req : WriteRequest) :
    Except NtStatus (Target η × Boxed η) :=
  if req.length > conn.maxWriteSize then .error statusInvalidParameter
  else do
    let (tid, tree) ← lookupSessionTree conn hdr
    if tree.grantedAccess ≠ .readWrite then .error statusAccessDenied
    else
      match lookupOpen tree req.fileId with
      | none => .error statusFileClosed
      | some file =>
        match file.handle with
        | none => .error statusFileClosed
        | some h => return (⟨tid, tree, file⟩, h)

def handle (server : ServerState) (hdr : Smb2Header) (body : Bytes) :
    Action (World σ η) HandlerResponse :=
  match WriteRequest.parse body with
  | none => return .err statusInvalidParameter
  | some req => do
    record server.traceSink (.write req.fileId.write req.offset req.length)
    let conn ← getConn
    match validate conn hdr req with
    | .error status => return .err status
    | .ok (target, h) =>
      match ← h.writeOwned (target.origin hdr.sessionId) req.offset req.data with
      | .error e => return .ofError e
      | .ok count => return .ok (WriteResponse.new count).write

end Write

end SmbServer
