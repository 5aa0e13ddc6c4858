import SmbServer.World

/-!
# SmbServer.Conn.Close

Closing a tree, a session, or every tree that matches a condition (`Connection::close_*`). An entry
leaves its table first; then the handles of its opens are closed. The numbers of removed entries
that the sweeps return are read by no caller and left out.
-/

namespace SmbServer

open Lib

variable {σ η : Type} [Host σ η]

/-- Close the handle of an open that has left its tree. -/
def closeOpen (sid : UInt64) (tid : UInt32) (treeAccess : Access) (o : Open η) :
    Action (World σ η) Unit :=
  match o.handle with
  | some h => do
    let _ ← h.close ⟨sid, tid, treeAccess, some o.grantedAccess⟩
  | none => pure ()

def closeTreeState (sid : UInt64) (tid : UInt32) (tree : TreeConnect η) :
    Action (World σ η) Unit :=
  tree.opens.vals.forM (closeOpen sid tid tree.grantedAccess)

def closeSessionState (sid : UInt64) (sess : Session η) : Action (World σ η) Unit :=
  sess.trees.keys.forM fun tid =>
    match sess.trees.lookup tid with
    | some tree => closeTreeState sid tid tree
    | none => pure ()

/-- False when the session has no such tree. -/
def removeTreeFromSession (sid : UInt64) (tid : UInt32) : Action (World σ η) Bool := do
  let conn ← getConn
  match conn.findTree sid tid with
  | some tree =>
    modifyConn fun conn =>
      conn.modifySession sid fun sess => { sess with trees := sess.trees.erase tid }
    closeTreeState sid tid tree
    return true
  | none => return false

namespace Connection

def closeSession (sid : UInt64) : Action (World σ η) Bool := do
  let conn ← getConn
  match conn.sessions.lookup sid with
  | some sess =>
    modifyConn fun conn => { conn with sessions := conn.sessions.erase sid }
    closeSessionState sid sess
    return true
  | none => return false

def closeTree (sid : UInt64) (tid : UInt32) : Action (World σ η) Bool :=
  removeTreeFromSession sid tid

/-- The ids of the sessions that `user` is logged on to. -/
def sessionsOfUser (conn : Connection η) (user : Text) : List UInt64 :=
  conn.sessions.keys.filter fun sid =>
    match conn.sessions.lookup sid with
    | some sess => sess.identity.isUser user
    | none => false

def closeSessionsForUser (user : Text) : Action (World σ η) Unit := do
  let conn ← getConn
  (conn.sessionsOfUser user).forM fun sid => do
    let _ ← closeSession sid

/-- The ids of the trees of one session that match. -/
def matchingTrees (sess : Session η) (matchesTree : Session η → TreeConnect η → Bool) :
    List UInt32 :=
  sess.trees.keys.filter fun tid =>
    match sess.trees.lookup tid with
    | some tree => matchesTree sess tree
    | none => false

def closeMatchingTrees (matchesTree : Session η → TreeConnect η → Bool) :
    Action (World σ η) Unit := do
  let conn ← getConn
  conn.sessions.keys.forM fun sid => do
    let conn ← getConn
    match conn.sessions.lookup sid with
    | some sess =>
      (matchingTrees sess matchesTree).forM fun tid => do
        let _ ← removeTreeFromSession sid tid
    | none => pure ()

/-- The trees of a share, by name. -/
def ofShare (shareName : Text) (_ : Session η) (tree : TreeConnect η) : Bool :=
  tree.share.name.eqIgnoreAsciiCase shareName

/-- The trees of a share that belong to one user. -/
def ofUserShare (user shareName : Text) (sess : Session η) (tree : TreeConnect η) : Bool :=
  sess.identity.isUser user && tree.share.name.eqIgnoreAsciiCase shareName

def closeTreesForShare (shareName : Text) : Action (World σ η) Unit :=
  closeMatchingTrees (ofShare shareName)

def closeTreesForUserShare (user shareName : Text) : Action (World σ η) Unit :=
  closeMatchingTrees (ofUserShare user shareName)

end Connection

end SmbServer
