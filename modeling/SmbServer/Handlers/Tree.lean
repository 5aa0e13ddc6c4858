import SmbServer.Handlers.Response

/-!
# SmbServer.Handlers.Tree

TREE_CONNECT and TREE_DISCONNECT: finding a share, authorizing the session's identity against it,
and the tree's entry in its session.
-/

namespace SmbServer

open Lib

variable {σ η : Type} [Host σ η]

namespace TreeConnect

def shareTypeDisk : UInt8 := 0x01
def shareTypePipe : UInt8 := 0x02

def fileGenericRead : UInt32 := 0x00120089
def fileGenericExecute : UInt32 := 0x001200A0
def fileAllAccess : UInt32 := 0x001F01FF

/-- The last non-empty part of a UNC path. -/
def extractShareName (unc : Text) : Option Text :=
  ((splitSeparators (Text.trimEndMatches isSeparator unc)).filter (!·.isEmpty)).getLast?

/-- The share name of a request. -/
def validate (body : Bytes) : Except NtStatus Text :=
  match TreeConnectRequest.parse body with
  | none => .error statusInvalidParameter
  | some req =>
    match extractShareName (req.pathStr.getD []) with
    | none => .error statusBadNetworkName
    | some name => .ok name

/-- The binding of a name: the synthetic `IPC$` share or a registered one. -/
def bindShare (server : ServerState) (name : Text) : Option ShareBindings :=
  if name.eqIgnoreAsciiCase ipcName then some ShareBindings.ipc else server.findShare name

/-- What an identity is granted on a share by its current list, clamped for the backend. -/
def grantedOn (σ : Type) {η : Type} [Host σ η] (server : ServerState) (share : ShareBindings)
    (identity : Identity) : Option Access :=
  let acl := server.aclOf share
  (authorize acl.mode acl.users identity).map (clampForBackend (share.backend.capabilities σ))

/-- Allocate a tree id in the session. -/
def allocTreeId (sid : UInt64) (conn : Connection η) : Connection η :=
  conn.modifySession sid fun sess => { sess with nextTreeId := sess.nextTreeId + 1 }

def insertTree (sid : UInt64) (tree : TreeConnect η) (conn : Connection η) : Connection η :=
  conn.modifySession sid fun sess => { sess with trees := sess.trees.insert tree.id tree }

def maximalAccess : Access → UInt32
  | .read => fileGenericRead ||| fileGenericExecute
  | .readWrite => fileAllAccess

def response (share : ShareBindings) (granted : Access) : Bytes :=
  TreeConnectResponse.write
    { structureSize := 16
      shareType := if share.isIpc then shareTypePipe else shareTypeDisk
      reserved := 0
      shareFlags := 0
      capabilities := 0
      maximalAccess := maximalAccess granted }

def handle (server : ServerState) (hdr : Smb2Header) (body : Bytes) :
    Action (World σ η) HandlerResponse :=
  match validate body with
  | .error status => return .err status
  | .ok shareName => do
    let conn ← getConn
    match lookupSession conn hdr.sessionId with
    | .error status => return .err status
    | .ok sess =>
      match bindShare server shareName with
      | none => return .err statusBadNetworkName
      | some share =>
        match grantedOn σ server share sess.identity with
        | none => return .err statusAccessDenied
        | some granted =>
          let treeId := sess.nextTreeId
          modifyConn (allocTreeId hdr.sessionId)
          modifyConn (insertTree hdr.sessionId (TreeConnect.new treeId share granted))
          return { HandlerResponse.ok (response share granted) with overrideTreeId := some treeId }

end TreeConnect

namespace TreeDisconnect

def handle (hdr : Smb2Header) : Action (World σ η) HandlerResponse :=
  match hdr.treeId with
  | none => return .err statusInvalidParameter
  | some tid => do
    let conn ← getConn
    match lookupSession conn hdr.sessionId with
    | .error _ => return .err statusUserSessionDeleted
    | .ok _ =>
      if !(← Connection.closeTree hdr.sessionId tid) then return .err statusNetworkNameDeleted
      return .ok emptyResponse

end TreeDisconnect

end SmbServer
