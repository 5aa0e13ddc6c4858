import SmbServer.Share
import SmbServer.Proto.Messages
import SmbServer.Proto.Header

/-!
# SmbServer.Conn.State

The state of one connection (`conn/state.rs`): sessions, the trees of a session and the opens of a
tree, nested as tables; and the lookups of `handlers/shared.rs`.

The source reaches every table entry through an `Arc`. Requests of one connection run one after
another, so between the lookup of an entry and its last use nothing but a configuration operation
can touch it, and an entry is named here by its keys.
-/

namespace SmbServer

open Lib

/-- A `Box<dyn Handle>`: what the backend returned, and a number no other box carries. -/
structure Boxed (η : Type) where
  serial : Nat
  inner : η
  deriving DecidableEq

/-- The snapshot a directory listing is served from. -/
structure DirCursor where
  entries : List DirEntry
  next : Nat
  pattern : Option Text
  deriving DecidableEq

structure Open (η : Type) where
  fileId : FileId
  handle : Option (Boxed η)
  grantedAccess : Access
  lastPath : SmbPath
  isDirectory : Bool
  deleteOnClose : Bool
  searchState : Option DirCursor

structure TreeConnect (η : Type) where
  id : UInt32
  share : ShareBindings
  grantedAccess : Access
  opens : Table FileId (Open η)
  nextVolatile : UInt64

structure Session (η : Type) where
  id : UInt64
  identity : Identity
  sessionBaseKey : Key
  signingKey : Key
  signingRequired : Bool
  trees : Table UInt32 (TreeConnect η)
  preauthSnapshot : Option (ByteVec 64)
  nextTreeId : UInt32

structure Connection (η : Type) where
  connectionId : UInt64
  serverGuid : ByteVec 16
  clientGuid : ByteVec 16
  dialect : Option Dialect
  signingAlgo : SigningAlgo
  preauth : PreauthIntegrity
  maxReadSize : UInt32
  maxWriteSize : UInt32
  sessions : Table UInt64 (Session η)
  pendingAuths : Table UInt64 (NtlmServer × Bool)
  sessionPreauth : Table UInt64 PreauthIntegrity
  nextSessionId : UInt64

variable {η : Type}

def Open.new (fileId : FileId) (handle : Boxed η) (grantedAccess : Access) (lastPath : SmbPath)
    (isDirectory deleteOnClose : Bool) : Open η where
  fileId := fileId
  handle := some handle
  grantedAccess := grantedAccess
  lastPath := lastPath
  isDirectory := isDirectory
  deleteOnClose := deleteOnClose
  searchState := none

def TreeConnect.new (id : UInt32) (share : ShareBindings) (grantedAccess : Access) :
    TreeConnect η where
  id := id
  share := share
  grantedAccess := grantedAccess
  opens := Table.empty
  nextVolatile := 1

def Session.new (id : UInt64) (identity : Identity) (sessionBaseKey signingKey : Key)
    (signingRequired : Bool) (preauthSnapshot : Option (ByteVec 64)) : Session η where
  id := id
  identity := identity
  sessionBaseKey := sessionBaseKey
  signingKey := signingKey
  signingRequired := signingRequired
  trees := Table.empty
  preauthSnapshot := preauthSnapshot
  nextTreeId := 1

namespace Connection

def new (connectionId : UInt64) (serverGuid : ByteVec 16) (maxReadSize maxWriteSize : UInt32) :
    Connection η where
  connectionId := connectionId
  serverGuid := serverGuid
  clientGuid := ByteVec.zero 16
  dialect := none
  signingAlgo := .hmacSha256
  preauth := PreauthIntegrity.new
  maxReadSize := maxReadSize
  maxWriteSize := maxWriteSize
  sessions := Table.empty
  pendingAuths := Table.empty
  sessionPreauth := Table.empty
  nextSessionId := 1

/-- The live tree under a session and a tree id. -/
def findTree (conn : Connection η) (sid : UInt64) (tid : UInt32) : Option (TreeConnect η) :=
  (conn.sessions.lookup sid).bind fun sess => sess.trees.lookup tid

/-- The open under a session, a tree and a file id. -/
def findOpen (conn : Connection η) (sid : UInt64) (tid : UInt32) (fid : FileId) :
    Option (Open η) :=
  (conn.findTree sid tid).bind fun tree => tree.opens.lookup fid

def modifySession (conn : Connection η) (sid : UInt64) (f : Session η → Session η) :
    Connection η :=
  { conn with sessions := conn.sessions.modify sid f }

def modifyTree (conn : Connection η) (sid : UInt64) (tid : UInt32)
    (f : TreeConnect η → TreeConnect η) : Connection η :=
  conn.modifySession sid fun sess => { sess with trees := sess.trees.modify tid f }

def modifyOpens (conn : Connection η) (sid : UInt64) (tid : UInt32)
    (f : Table FileId (Open η) → Table FileId (Open η)) : Connection η :=
  conn.modifyTree sid tid fun tree => { tree with opens := f tree.opens }

def modifyOpen (conn : Connection η) (sid : UInt64) (tid : UInt32) (fid : FileId)
    (f : Open η → Open η) : Connection η :=
  conn.modifyOpens sid tid fun opens => opens.modify fid f

end Connection

/-! ### Lookups -/

def lookupSession (conn : Connection η) (sid : UInt64) : Except NtStatus (Session η) :=
  if sid = 0 then .error statusUserSessionDeleted
  else
    match conn.sessions.lookup sid with
    | some sess => .ok sess
    | none => .error statusUserSessionDeleted

/-- The tree that the header names, and its id. -/
def lookupSessionTree (conn : Connection η) (hdr : Smb2Header) :
    Except NtStatus (UInt32 × TreeConnect η) :=
  match hdr.treeId with
  | none => .error statusInvalidParameter
  | some tid => do
    let sess ← lookupSession conn hdr.sessionId
    match sess.trees.lookup tid with
    | some tree => return (tid, tree)
    | none => .error statusNetworkNameDeleted

def lookupOpen (tree : TreeConnect η) (fid : FileId) : Option (Open η) := tree.opens.lookup fid

end SmbServer
