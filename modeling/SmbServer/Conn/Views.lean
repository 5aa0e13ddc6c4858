import SmbServer.Conn.State

/-!
# SmbServer.Conn.Views

What the nested tables of a connection say about one session, one tree and one open, and how the
updates in place of `Connection` change it.
-/

namespace SmbServer

open Lib

/-- What a session keeps from its logon on. -/
structure SessionView where
  identity : Identity
  sessionBaseKey : Key
  signingKey : Key
  signingRequired : Bool
  preauthSnapshot : Option (ByteVec 64)
  deriving DecidableEq

/-- What a tree keeps from its TREE_CONNECT on, and whose it is. -/
structure TreeView where
  identity : Identity
  share : ShareBindings
  grantedAccess : Access
  deriving DecidableEq

/-- What an open keeps from its CREATE on, and the tree it is in. -/
structure OpenView (η : Type) where
  tree : TreeView
  handle : Option (Boxed η)
  grantedAccess : Access

variable {η : Type}

def Session.view (sess : Session η) : SessionView where
  identity := sess.identity
  sessionBaseKey := sess.sessionBaseKey
  signingKey := sess.signingKey
  signingRequired := sess.signingRequired
  preauthSnapshot := sess.preauthSnapshot

def Session.treeView (sess : Session η) (tree : TreeConnect η) : TreeView where
  identity := sess.identity
  share := tree.share
  grantedAccess := tree.grantedAccess

theorem lookupSession_eq_ok (conn : Connection η) (sid : UInt64) (sess : Session η) :
    lookupSession conn sid = .ok sess ↔ sid ≠ 0 ∧ conn.sessions.lookup sid = some sess := by
  rw [lookupSession]
  split
  next zero => simp [zero]
  next nonzero =>
    cases conn.sessions.lookup sid with
    | none => simp
    | some found => simp [nonzero]

theorem lookupSessionTree_eq_ok (conn : Connection η) (hdr : Smb2Header) (tid : UInt32)
    (tree : TreeConnect η) :
    lookupSessionTree conn hdr = .ok (tid, tree) ↔
      hdr.treeId = some tid ∧ hdr.sessionId ≠ 0 ∧ conn.findTree hdr.sessionId tid = some tree := by
  rw [lookupSessionTree, Connection.findTree]
  cases hdr.treeId with
  | none => simp
  | some named =>
    simp only [Option.some.injEq]
    cases session : lookupSession conn hdr.sessionId with
    -- no session, so there is no tree of it either
    | error status =>
      have gone (sess : Session η) (nonzero : hdr.sessionId ≠ 0) :
          conn.sessions.lookup hdr.sessionId ≠ some sess := by
        intro found
        rw [(lookupSession_eq_ok conn hdr.sessionId sess).mpr ⟨nonzero, found⟩] at session
        cases session
      constructor
      · intro absurd
        cases absurd
      · rintro ⟨-, nonzero, found⟩
        obtain ⟨sess, here, -⟩ := Option.bind_eq_some_iff.mp found
        exact (gone sess nonzero here).elim
    | ok sess =>
      obtain ⟨nonzero, found⟩ := (lookupSession_eq_ok conn hdr.sessionId sess).mp session
      simp only [bind, Except.bind, found, Option.bind_some, ne_eq, nonzero, not_false_eq_true,
        true_and]
      cases here : sess.trees.lookup named with
      | none =>
        constructor
        · intro absurd
          cases absurd
        · rintro ⟨rfl, there⟩
          rw [here] at there
          cases there
      | some t =>
        simp only [pure, Except.pure, Except.ok.injEq, Prod.mk.injEq]
        constructor
        · rintro ⟨rfl, rfl⟩
          exact ⟨rfl, here⟩
        · rintro ⟨rfl, there⟩
          exact ⟨rfl, Option.some.inj (here.symm.trans there)⟩

namespace Connection

def sessionView (conn : Connection η) (sid : UInt64) : Option SessionView :=
  (conn.sessions.lookup sid).map Session.view

def treeView (conn : Connection η) (sid : UInt64) (tid : UInt32) : Option TreeView :=
  (conn.sessions.lookup sid).bind fun sess => (sess.trees.lookup tid).map sess.treeView

def openView (conn : Connection η) (sid : UInt64) (tid : UInt32) (fid : FileId) :
    Option (OpenView η) :=
  (conn.sessions.lookup sid).bind fun sess =>
    (sess.trees.lookup tid).bind fun tree =>
      (tree.opens.lookup fid).map fun file =>
        ⟨sess.treeView tree, file.handle, file.grantedAccess⟩

/-! ### Updates of a session -/

theorem lookup_modifySession (conn : Connection η) (sid sid' : UInt64)
    (f : Session η → Session η) :
    (conn.modifySession sid f).sessions.lookup sid' =
      if sid' = sid then (conn.sessions.lookup sid').map f else conn.sessions.lookup sid' :=
  Table.lookup_modify conn.sessions sid sid' f

theorem sessionView_modifySession (conn : Connection η) (sid sid' : UInt64)
    (f : Session η → Session η) (keeps : ∀ sess, (f sess).view = sess.view) :
    (conn.modifySession sid f).sessionView sid' = conn.sessionView sid' := by
  rw [sessionView, lookup_modifySession]
  split
  next same =>
    subst same
    rw [sessionView, Option.map_map]
    exact congrArg (fun g => (conn.sessions.lookup sid').map g) (funext keeps)
  next => rfl

theorem treeView_modifySession (conn : Connection η) (sid sid' : UInt64) (tid : UInt32)
    (f : Session η → Session η) (identity : ∀ sess, (f sess).identity = sess.identity)
    (trees : ∀ sess, (f sess).trees = sess.trees) :
    (conn.modifySession sid f).treeView sid' tid = conn.treeView sid' tid := by
  rw [treeView, lookup_modifySession]
  split
  next same =>
    subst same
    rw [treeView]
    cases conn.sessions.lookup sid' with
    | none => rfl
    | some sess =>
      have same : (f sess).treeView = sess.treeView := by
        funext tree
        simp only [Session.treeView, identity]
      simp only [Option.map_some, Option.bind_some, trees, same]
  next => rfl

theorem openView_modifySession (conn : Connection η) (sid sid' : UInt64) (tid : UInt32)
    (fid : FileId) (f : Session η → Session η)
    (identity : ∀ sess, (f sess).identity = sess.identity)
    (trees : ∀ sess, (f sess).trees = sess.trees) :
    (conn.modifySession sid f).openView sid' tid fid = conn.openView sid' tid fid := by
  rw [openView, lookup_modifySession]
  split
  next same =>
    subst same
    rw [openView]
    cases conn.sessions.lookup sid' with
    | none => rfl
    | some sess => simp only [Option.map_some, Option.bind_some, trees, Session.treeView, identity]
  next => rfl

/-! ### Updates of a tree -/

@[simp] theorem sessionView_modifyTree (conn : Connection η) (sid sid' : UInt64) (tid : UInt32)
    (f : TreeConnect η → TreeConnect η) :
    (conn.modifyTree sid tid f).sessionView sid' = conn.sessionView sid' :=
  sessionView_modifySession conn sid sid' _ fun _ => rfl

theorem findTree_modifyTree (conn : Connection η) (sid sid' : UInt64) (tid tid' : UInt32)
    (f : TreeConnect η → TreeConnect η) :
    (conn.modifyTree sid tid f).findTree sid' tid' =
      if sid' = sid ∧ tid' = tid then (conn.findTree sid' tid').map f
      else conn.findTree sid' tid' := by
  rw [findTree, modifyTree, lookup_modifySession]
  by_cases sameSession : sid' = sid
  · subst sameSession
    rw [if_pos rfl]
    simp only [findTree]
    cases conn.sessions.lookup sid' with
    | none => simp
    | some sess =>
      simp only [Option.map_some, Option.bind_some, Table.lookup_modify, true_and]
  · rw [if_neg sameSession, if_neg fun both => sameSession both.1]
    rfl

theorem treeView_modifyTree (conn : Connection η) (sid sid' : UInt64) (tid tid' : UInt32)
    (f : TreeConnect η → TreeConnect η) (share : ∀ tree, (f tree).share = tree.share)
    (access : ∀ tree, (f tree).grantedAccess = tree.grantedAccess) :
    (conn.modifyTree sid tid f).treeView sid' tid' = conn.treeView sid' tid' := by
  rw [treeView, modifyTree, lookup_modifySession]
  split
  next sameSession =>
    subst sameSession
    rw [treeView]
    cases conn.sessions.lookup sid' with
    | none => rfl
    | some sess =>
      simp only [Option.map_some, Option.bind_some, Table.lookup_modify]
      split
      next sameTree =>
        subst sameTree
        rw [Option.map_map]
        congr 1
        funext tree
        simp only [Function.comp, Session.treeView, share, access]
      next => rfl
  next => rfl

@[simp] theorem treeView_modifyOpens (conn : Connection η) (sid sid' : UInt64)
    (tid tid' : UInt32) (f : Table FileId (Open η) → Table FileId (Open η)) :
    (conn.modifyOpens sid tid f).treeView sid' tid' = conn.treeView sid' tid' :=
  treeView_modifyTree conn sid sid' tid tid' _ (fun _ => rfl) fun _ => rfl

@[simp] theorem sessionView_modifyOpens (conn : Connection η) (sid sid' : UInt64)
    (tid : UInt32) (f : Table FileId (Open η) → Table FileId (Open η)) :
    (conn.modifyOpens sid tid f).sessionView sid' = conn.sessionView sid' :=
  sessionView_modifyTree conn sid sid' tid _

/-! ### Updates of the opens of a tree -/

theorem findOpen_modifyOpens (conn : Connection η) (sid sid' : UInt64) (tid tid' : UInt32)
    (fid : FileId) (f : Table FileId (Open η) → Table FileId (Open η)) :
    (conn.modifyOpens sid tid f).findOpen sid' tid' fid =
      if sid' = sid ∧ tid' = tid then
        (conn.findTree sid' tid').bind fun tree => (f tree.opens).lookup fid
      else conn.findOpen sid' tid' fid := by
  rw [findOpen, modifyOpens, findTree_modifyTree]
  split
  · cases conn.findTree sid' tid' <;> rfl
  · rfl

theorem findOpen_modifyOpen (conn : Connection η) (sid sid' : UInt64) (tid tid' : UInt32)
    (fid fid' : FileId) (f : Open η → Open η) :
    (conn.modifyOpen sid tid fid f).findOpen sid' tid' fid' =
      if sid' = sid ∧ tid' = tid ∧ fid' = fid then (conn.findOpen sid' tid' fid').map f
      else conn.findOpen sid' tid' fid' := by
  rw [modifyOpen, findOpen_modifyOpens]
  by_cases sameTree : sid' = sid ∧ tid' = tid
  · obtain ⟨rfl, rfl⟩ := sameTree
    simp only [true_and, if_true, findOpen]
    cases conn.findTree sid' tid' with
    | none => simp
    | some tree => simp only [Option.bind_some, Table.lookup_modify]
  · rw [if_neg sameTree, if_neg fun all => sameTree ⟨all.1, all.2.1⟩]

/-- An open seen through its view. -/
theorem openView_eq_some (conn : Connection η) (sid : UInt64) (tid : UInt32) (fid : FileId)
    (v : OpenView η) :
    conn.openView sid tid fid = some v ↔
      conn.treeView sid tid = some v.tree ∧
        ∃ file, conn.findOpen sid tid fid = some file ∧ file.handle = v.handle ∧
          file.grantedAccess = v.grantedAccess := by
  rw [openView, treeView, findOpen, findTree]
  cases conn.sessions.lookup sid with
  | none => simp
  | some sess =>
    simp only [Option.bind_some]
    cases sess.trees.lookup tid with
    | none => simp
    | some tree =>
      simp only [Option.bind_some, Option.map_some, Option.some.injEq]
      cases tree.opens.lookup fid with
      | none => simp
      | some file =>
        obtain ⟨tv, handle, access⟩ := v
        simp only [Option.map_some, Option.some.injEq, OpenView.mk.injEq, exists_eq_left']

end Connection

end SmbServer
