import SmbServer.Dispatch
import SmbServer.Server.Builder

/-!
# SmbServer.System

The running server: its shared state, its live connections, and what happens to them one event
after another. A frame is served to its end, and a configuration operation runs to its end, before
the next event; `SmbServer.Concurrency` interleaves them instead.
-/

namespace SmbServer

open Lib

/-- `ServerState` together with the connections its `ActiveConnections` knows. -/
structure System (σ η : Type) where
  server : ServerState
  conns : Table UInt64 (Connection η)
  nextConnId : UInt64
  env : Env σ

inductive ConfigError where
  | unknownUser (name : Text)
  | unknownShare (name : Text)
  | duplicateShare (name : Text)
  | publicMixedWithUsers (name : Text)
  | reservedUserName (name : Text)
  | emptyUserName
  | reservedShareName (name : Text)
  deriving DecidableEq

/-- The operations of `ConfigHandle`. -/
inductive ConfigOp where
  | addUser (name password : Text)
  | removeUser (name : Text)
  | addShare (share : Share)
  | removeShare (name : Text)
  | grantShareUser (shareName user : Text) (access : Access)
  | revokeShareUser (shareName user : Text)
  | setShareMode (shareName : Text) (mode : ShareMode)

inductive Event where
  | accept
  | frame (conn : UInt64) (bytes : Bytes)
  | config (op : ConfigOp)
  | hangup (conn : UInt64)

def validateUserName (name : Text) : Except ConfigError Unit :=
  if name.isEmpty then .error .emptyUserName
  else if name.eqIgnoreAsciiCase anonymousName then .error (.reservedUserName name)
  else .ok ()

def validateShareName (name : Text) : Except ConfigError Unit :=
  if name.eqIgnoreAsciiCase ipcName then .error (.reservedShareName name) else .ok ()

/-! ### The edits of the configuration operations

Each operation first checks and edits the users and shares, under their locks; some then close what
the edit invalidates on every live connection. -/

/-- `ShareAcl` without a user. -/
def ShareAcl.dropUser (acl : ShareAcl) (user : Text) : ShareAcl :=
  { acl with users := acl.users.erase user }

namespace ServerShares

/-- Remove a user from the list of every registered share. -/
def dropUser (s : ServerShares) (user : Text) : ServerShares :=
  s.all.foldl (fun s share => s.setAcl share.arc ((s.acls share.arc).dropUser user)) s

end ServerShares

/-- What an operation closes on every connection behind its edit. -/
inductive Sweep where
  | none
  | sessionsForUser (user : Text)
  | treesForShare (shareName : Text)
  | treesForUserShare (user shareName : Text)
  deriving DecidableEq

namespace ServerState

def withShares (server : ServerState) (shares : ServerShares) : ServerState :=
  { server with shares := shares }

def addUser [Crypto] (server : ServerState) (name password : Text) :
    Except ConfigError (ServerState × Sweep) := do
  validateUserName name
  return ({ server with users := server.users.insert name (UserCreds.fromPassword password) },
    .none)

def removeUser (server : ServerState) (name : Text) : Except ConfigError (ServerState × Sweep) := do
  validateUserName name
  if (server.users.lookup name).isNone then .error (.unknownUser name)
  return ({ server with
    users := server.users.erase name
    shares := server.shares.dropUser name }, .sessionsForUser name)

def addShare (server : ServerState) (share : Share) : Except ConfigError (ServerState × Sweep) := do
  validateShareName share.name
  if share.mode.isPublic && !share.users.keys.isEmpty then
    .error (.publicMixedWithUsers share.name)
  match share.users.keys.find? fun u => (server.users.lookup u).isNone with
  | some user => .error (.unknownUser user)
  | none =>
    if (server.findShare share.name).isSome then .error (.duplicateShare share.name)
    return (server.withShares
      (server.shares.register share.name share.backend ⟨share.mode, share.users⟩), .none)

def removeShare (server : ServerState) (name : Text) :
    Except ConfigError (ServerState × Sweep) := do
  validateShareName name
  if (server.findShare name).isNone then .error (.unknownShare name)
  return (server.withShares (server.shares.remove name), .treesForShare name)

def grantShareUser (server : ServerState) (shareName user : Text) (access : Access) :
    Except ConfigError (ServerState × Sweep) := do
  validateUserName user
  validateShareName shareName
  if (server.users.lookup user).isNone then .error (.unknownUser user)
  match server.findShare shareName with
  | none => .error (.unknownShare shareName)
  | some share =>
    let acl := server.shares.acls share.arc
    if acl.mode.isPublic then .error (.publicMixedWithUsers share.name)
    return (server.withShares
      (server.shares.setAcl share.arc { acl with users := acl.users.insert user access }), .none)

def revokeShareUser (server : ServerState) (shareName user : Text) :
    Except ConfigError (ServerState × Sweep) := do
  validateUserName user
  validateShareName shareName
  match server.findShare shareName with
  | none => .error (.unknownShare shareName)
  | some share =>
    return (server.withShares
      (server.shares.setAcl share.arc ((server.shares.acls share.arc).dropUser user)),
      .treesForUserShare user shareName)

def setShareMode (server : ServerState) (shareName : Text) (mode : ShareMode) :
    Except ConfigError (ServerState × Sweep) := do
  validateShareName shareName
  match server.findShare shareName with
  | none => .error (.unknownShare shareName)
  | some share =>
    let acl := server.shares.acls share.arc
    if mode.isPublic && !acl.users.keys.isEmpty then .error (.publicMixedWithUsers share.name)
    if acl.mode = mode then return (server, .none)
    return (server.withShares (server.shares.setAcl share.arc { acl with mode := mode }),
      .treesForShare shareName)

/-- The edit of an operation and what it closes. -/
def edit [Crypto] (server : ServerState) : ConfigOp → Except ConfigError (ServerState × Sweep)
  | .addUser name password => server.addUser name password
  | .removeUser name => server.removeUser name
  | .addShare share => server.addShare share
  | .removeShare name => server.removeShare name
  | .grantShareUser shareName user access => server.grantShareUser shareName user access
  | .revokeShareUser shareName user => server.revokeShareUser shareName user
  | .setShareMode shareName mode => server.setShareMode shareName mode

end ServerState

variable {σ η : Type} [Host σ η]

/-- What a sweep does to one connection. -/
def Sweep.onConnection : Sweep → Action (World σ η) Unit
  | .none => pure ()
  | .sessionsForUser user => Connection.closeSessionsForUser user
  | .treesForShare shareName => Connection.closeTreesForShare shareName
  | .treesForUserShare user shareName => Connection.closeTreesForUserShare user shareName

namespace System

/-- A server that has just started. -/
def start (server : ServerState) (host : σ) : System σ η where
  server := server
  conns := Table.empty
  nextConnId := 1
  env :=
    { host := host
      nextHandle := 0
      calls := []
      trace := []
      traceKey := none
      panics := [] }

/-- Run an action on one connection; nothing happens when it is not live. -/
def onConn {α : Type} (s : System σ η) (cid : UInt64) (m : Action (World σ η) α) :
    Option α × System σ η :=
  match s.conns.lookup cid with
  | none => (none, s)
  | some conn =>
    let (a, w) := m ⟨conn, s.env⟩
    (some a, { s with conns := s.conns.modify cid fun _ => w.conn, env := w.env })

/-- Run an action on every live connection in turn. -/
def onEach (s : System σ η) (m : Action (World σ η) Unit) : System σ η :=
  s.conns.keys.foldl (fun s cid => (s.onConn cid m).2) s

def accept (s : System σ η) : System σ η :=
  { s with
    conns := s.conns.insert s.nextConnId
      (Connection.new s.nextConnId s.server.config.serverGuid s.server.config.maxReadSize
        s.server.config.maxWriteSize)
    nextConnId := s.nextConnId + 1 }

def hangup (s : System σ η) (cid : UInt64) : System σ η := { s with conns := s.conns.erase cid }

variable [Crypto]

/-- A configuration operation: its edit, then its sweep. -/
def configure (s : System σ η) (op : ConfigOp) : Except ConfigError Unit × System σ η :=
  match s.server.edit op with
  | .error e => (.error e, s)
  | .ok (server, sweep) => (.ok (), { s with server := server }.onEach sweep.onConnection)

/-- A frame on a connection, and the payload it is answered with. -/
def serve (s : System σ η) (cid : UInt64) (frame : Bytes) : Option (Option Bytes) × System σ η :=
  s.onConn cid (dispatchFrame s.server frame)

def step (s : System σ η) : Event → System σ η
  | .accept => s.accept
  | .frame cid bytes => (s.serve cid bytes).2
  | .config op => (s.configure op).2
  | .hangup cid => s.hangup cid

/-- The state after a list of events. -/
def run (s : System σ η) (events : List Event) : System σ η := events.foldl step s

@[simp] theorem run_nil (s : System σ η) : s.run [] = s := rfl

@[simp] theorem run_cons (s : System σ η) (e : Event) (events : List Event) :
    s.run (e :: events) = (s.step e).run events := rfl

theorem run_append (s : System σ η) (before behind : List Event) :
    s.run (before ++ behind) = (s.run before).run behind := List.foldl_append

end System

end SmbServer
