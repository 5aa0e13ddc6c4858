import SmbServer.Share
import SmbServer.Trace

/-!
# SmbServer.Server.State

The state that all connections share (`server.rs`): configuration, users and the share registry.
-/

namespace SmbServer

open Lib

structure ServerConfig where
  netbiosName : Text
  maxReadSize : UInt32
  maxWriteSize : UInt32
  serverGuid : ByteVec 16

/-- The registry under lower-cased names, and the access control list behind each `Arc`. -/
structure ServerShares where
  byName : Table Text ShareBindings
  acls : Nat → ShareAcl
  nextArc : Nat

namespace ServerShares

def find (s : ServerShares) (name : Text) : Option ShareBindings :=
  s.byName.lookup name.toAsciiLowercase

def all (s : ServerShares) : List ShareBindings := s.byName.vals

/-- Write through the lock of one access control list. -/
def setAcl (s : ServerShares) (arc : Nat) (acl : ShareAcl) : ServerShares :=
  { s with acls := fun n => if n = arc then acl else s.acls n }

def remove (s : ServerShares) (name : Text) : ServerShares :=
  { s with byName := s.byName.erase name.toAsciiLowercase }

/-- Allocate a binding and register it; the caller has checked that the name is free. -/
def register (s : ServerShares) (name : Text) (backend : BackendRef) (acl : ShareAcl) :
    ServerShares :=
  { byName := s.byName.insert name.toAsciiLowercase
      { name := name, backend := backend, isIpc := false, arc := s.nextArc }
    acls := fun n => if n = s.nextArc then acl else s.acls n
    nextArc := s.nextArc + 1 }

@[simp] theorem setAcl_byName (s : ServerShares) (arc : Nat) (acl : ShareAcl) :
    (s.setAcl arc acl).byName = s.byName := rfl

theorem setAcl_acls (s : ServerShares) (arc : Nat) (acl : ShareAcl) (n : Nat) :
    (s.setAcl arc acl).acls n = if n = arc then acl else s.acls n := rfl

@[simp] theorem remove_acls (s : ServerShares) (name : Text) :
    (s.remove name).acls = s.acls := rfl

end ServerShares

structure ServerState where
  config : ServerConfig
  users : Table Text UserCreds
  shares : ServerShares
  serverStartFiletime : UInt64
  /-- Whether a trace sink is armed. -/
  traceSink : Bool

namespace ServerState

def findShare (server : ServerState) (name : Text) : Option ShareBindings :=
  server.shares.find name

/-- The list a binding is authorized against; `IPC$` carries its own. -/
def aclOf (server : ServerState) (share : ShareBindings) : ShareAcl :=
  if share.isIpc then ShareAcl.ipc else server.shares.acls share.arc

/-- Whether anonymous logon is permitted: at least one share is public. -/
def anonymousAllowed (server : ServerState) : Bool :=
  server.shares.all.any fun share => (server.aclOf share).mode.isPublic

end ServerState

end SmbServer
