import SmbServer.Conn.Views
import SmbServer.Dispatch

/-!
# SmbServer.Effects.Edit

Everything that one request can do to the tables of its connection, said once. An `Edit` is a
single change, under the command that makes it; the lemmas say which views of the connection each
command leaves alone.
-/

namespace SmbServer

open Lib

variable {σ η : Type} [Host σ η] [Crypto]

/-- One change that a request with header `hdr` makes to its connection. -/
inductive Edit (σ : Type) {η : Type} [Host σ η] (server : ServerState)
    (hdr : Smb2Header) : Connection η → Connection η → Prop where
  | preauth (conn : Connection η) (p : PreauthIntegrity) (cmd : hdr.command = .negotiate) :
      Edit σ server hdr conn { conn with preauth := p }
  | commit (conn : Connection η) (dialect : Dialect) (guid : ByteVec 16)
      (cmd : hdr.command = .negotiate) :
      Edit σ server hdr conn (Negotiate.commit dialect guid conn)
  | exchange (conn : Connection η) (table : Table UInt64 PreauthIntegrity)
      (cmd : hdr.command = .sessionSetup) :
      Edit σ server hdr conn { conn with sessionPreauth := table }
  | sessionId (conn : Connection η) (cmd : hdr.command = .sessionSetup) :
      Edit σ server hdr conn { conn with nextSessionId := conn.nextSessionId + 1 }
  | acceptors (conn : Connection η) (table : Table UInt64 (NtlmServer × Bool))
      (cmd : hdr.command = .sessionSetup) :
      Edit σ server hdr conn { conn with pendingAuths := table }
  | logon (conn : Connection η) (sid : UInt64) (outcome : AuthOutcome) (dialect : Dialect)
      (nonzero : sid ≠ 0) (cmd : hdr.command = .sessionSetup) :
      Edit σ server hdr conn
        (SessionSetup.insertSession sid (SessionSetup.newSession sid outcome dialect) conn)
  | snapshot (conn : Connection η) (sid : UInt64) (snap : PreauthIntegrity)
      (cmd : hdr.command = .sessionSetup) :
      Edit σ server hdr conn (conn.modifySession sid (stashSnapshot snap conn))
  | dropSession (conn : Connection η) (sid : UInt64) (cmd : hdr.command = .logoff) :
      Edit σ server hdr conn { conn with sessions := conn.sessions.erase sid }
  | treeId (conn : Connection η) (sid : UInt64) (cmd : hdr.command = .treeConnect) :
      Edit σ server hdr conn (TreeConnect.allocTreeId sid conn)
  -- the list of the share has been asked for the session's user
  | addTree (conn : Connection η) (tid : UInt32) (share : ShareBindings) (granted : Access)
      (name : Text) (bound : TreeConnect.bindShare server name = some share)
      (authorized : ∀ sess, conn.sessions.lookup hdr.sessionId = some sess →
        TreeConnect.grantedOn σ server share sess.identity = some granted)
      (cmd : hdr.command = .treeConnect) :
      Edit σ server hdr conn
        (TreeConnect.insertTree hdr.sessionId (TreeConnect.new tid share granted) conn)
  | dropTree (conn : Connection η) (sid : UInt64) (tid : UInt32)
      (cmd : hdr.command = .treeDisconnect) :
      Edit σ server hdr conn
        (conn.modifySession sid fun sess => { sess with trees := sess.trees.erase tid })
  | register (conn : Connection η) (sid : UInt64) (tid : UInt32) (tree : TreeConnect η)
      (file : Open η) (cmd : hdr.command = .create) :
      Edit σ server hdr conn (Create.register sid tid tree file conn)
  | dropOpen (conn : Connection η) (sid : UInt64) (tid : UInt32) (fid : FileId)
      (cmd : hdr.command = .close) :
      Edit σ server hdr conn (conn.modifyOpens sid tid fun opens => opens.erase fid)
  | disposition (conn : Connection η) (sid : UInt64) (tid : UInt32) (fid : FileId) (flag : Bool)
      (cmd : hdr.command = .setInfo) :
      Edit σ server hdr conn
        (conn.modifyOpen sid tid fid fun file => { file with deleteOnClose := flag })
  | lastPath (conn : Connection η) (sid : UInt64) (tid : UInt32) (fid : FileId) (path : SmbPath)
      (cmd : hdr.command = .setInfo) :
      Edit σ server hdr conn
        (conn.modifyOpen sid tid fid fun file => { file with lastPath := path })
  | cursor (conn : Connection η) (sid : UInt64) (tid : UInt32) (fid : FileId)
      (cursor : DirCursor) (cmd : hdr.command = .queryDirectory) :
      Edit σ server hdr conn (QueryDirectory.storeCursor sid tid fid cursor conn)

/-- The changes of one request, one after another. -/
abbrev Edits (σ : Type) {η : Type} [Host σ η] (server : ServerState) (hdr : Smb2Header) :
    Connection η → Connection η → Prop :=
  Relation.ReflTransGen (Edit σ server hdr)

/-- What closing a session or a tree takes away. -/
inductive Removal {η : Type} : Connection η → Connection η → Prop where
  | session (conn : Connection η) (sid : UInt64) :
      Removal conn { conn with sessions := conn.sessions.erase sid }
  | tree (conn : Connection η) (sid : UInt64) (tid : UInt32) :
      Removal conn
        (conn.modifySession sid fun sess => { sess with trees := sess.trees.erase tid })

/-! ### One change -/

section
omit [Host σ η] [Crypto]

private theorem treeView_eraseSession (conn : Connection η) (sid sid' : UInt64) (tid : UInt32)
    (v : TreeView)
    (h : ({ conn with sessions := conn.sessions.erase sid } : Connection η).treeView sid' tid =
      some v) : conn.treeView sid' tid = some v := by
  simp only [Connection.treeView, Table.lookup_erase] at h ⊢
  split at h
  · cases h
  · exact h

private theorem openView_eraseSession (conn : Connection η) (sid sid' : UInt64) (tid : UInt32)
    (fid : FileId) (v : OpenView η)
    (h : ({ conn with sessions := conn.sessions.erase sid } : Connection η).openView sid' tid fid =
      some v) : conn.openView sid' tid fid = some v := by
  simp only [Connection.openView, Table.lookup_erase] at h ⊢
  split at h
  · cases h
  · exact h

private theorem treeView_insertSession (conn : Connection η) (sid sid' : UInt64) (tid : UInt32)
    (sess : Session η) (v : TreeView) (bare : sess.trees = Table.empty)
    (h : (SessionSetup.insertSession sid sess conn).treeView sid' tid = some v) :
    conn.treeView sid' tid = some v := by
  simp only [Connection.treeView, SessionSetup.insertSession, Table.lookup_insert] at h ⊢
  split at h
  · simp [bare] at h
  · exact h

private theorem openView_insertSession (conn : Connection η) (sid sid' : UInt64) (tid : UInt32)
    (fid : FileId) (sess : Session η) (v : OpenView η) (bare : sess.trees = Table.empty)
    (h : (SessionSetup.insertSession sid sess conn).openView sid' tid fid = some v) :
    conn.openView sid' tid fid = some v := by
  simp only [Connection.openView, SessionSetup.insertSession, Table.lookup_insert] at h ⊢
  split at h
  · simp [bare] at h
  · exact h

private theorem treeView_eraseTree (conn : Connection η) (sid sid' : UInt64) (tid tid' : UInt32)
    (v : TreeView)
    (h : (conn.modifySession sid fun sess =>
      { sess with trees := sess.trees.erase tid }).treeView sid' tid' = some v) :
    conn.treeView sid' tid' = some v := by
  rw [Connection.treeView, Connection.lookup_modifySession] at h
  rw [Connection.treeView]
  split at h
  next =>
    cases found : conn.sessions.lookup sid' with
    | none => simp [found] at h
    | some sess =>
      simp only [found, Option.map_some, Option.bind_some, Table.lookup_erase] at h ⊢
      split at h
      · cases h
      · exact h
  next => exact h

private theorem openView_eraseTree (conn : Connection η) (sid sid' : UInt64) (tid tid' : UInt32)
    (fid : FileId) (v : OpenView η)
    (h : (conn.modifySession sid fun sess =>
      { sess with trees := sess.trees.erase tid }).openView sid' tid' fid = some v) :
    conn.openView sid' tid' fid = some v := by
  rw [Connection.openView, Connection.lookup_modifySession] at h
  rw [Connection.openView]
  split at h
  next =>
    cases found : conn.sessions.lookup sid' with
    | none => simp [found] at h
    | some sess =>
      simp only [found, Option.map_some, Option.bind_some, Table.lookup_erase] at h ⊢
      split at h
      · cases h
      · exact h
  next => exact h

private theorem sessionView_eraseSession (conn : Connection η) (sid sid' : UInt64)
    (v : SessionView)
    (h : ({ conn with sessions := conn.sessions.erase sid } : Connection η).sessionView sid' =
      some v) : conn.sessionView sid' = some v := by
  simp only [Connection.sessionView, Table.lookup_erase] at h ⊢
  split at h
  · cases h
  · exact h

theorem Removal.maxReadSize {before after : Connection η} (r : Removal before after) :
    after.maxReadSize = before.maxReadSize := by
  cases r <;> rfl

theorem Removal.sessionView {before after : Connection η} (r : Removal before after)
    (sid : UInt64) (v : SessionView) (h : after.sessionView sid = some v) :
    before.sessionView sid = some v := by
  cases r with
  | session => exact sessionView_eraseSession _ _ _ _ h
  | tree =>
    rwa [Connection.sessionView_modifySession] at h
    exact fun _ => rfl

theorem Removal.treeView {before after : Connection η} (r : Removal before after)
    (sid : UInt64) (tid : UInt32) (v : TreeView) (h : after.treeView sid tid = some v) :
    before.treeView sid tid = some v := by
  cases r with
  | session => exact treeView_eraseSession _ _ _ _ _ h
  | tree => exact treeView_eraseTree _ _ _ _ _ _ h

theorem Removal.openView {before after : Connection η} (r : Removal before after)
    (sid : UInt64) (tid : UInt32) (fid : FileId) (v : OpenView η)
    (h : after.openView sid tid fid = some v) : before.openView sid tid fid = some v := by
  cases r with
  | session => exact openView_eraseSession _ _ _ _ _ _ h
  | tree => exact openView_eraseTree _ _ _ _ _ _ _ h

private theorem openView_insertTree (conn : Connection η) (sid sid' : UInt64) (tid' : UInt32)
    (fid : FileId) (tree : TreeConnect η) (v : OpenView η) (bare : tree.opens = Table.empty)
    (h : (TreeConnect.insertTree sid tree conn).openView sid' tid' fid = some v) :
    conn.openView sid' tid' fid = some v := by
  rw [Connection.openView, TreeConnect.insertTree, Connection.lookup_modifySession] at h
  rw [Connection.openView]
  split at h
  next =>
    cases found : conn.sessions.lookup sid' with
    | none => simp [found] at h
    | some sess =>
      simp only [found, Option.map_some, Option.bind_some, Table.lookup_insert] at h ⊢
      split at h
      · simp [bare] at h
      · exact h
  next => exact h

private theorem openView_eraseOpen (conn : Connection η) (sid sid' : UInt64) (tid tid' : UInt32)
    (fid fid' : FileId) (v : OpenView η)
    (h : (conn.modifyOpens sid tid fun opens => opens.erase fid).openView sid' tid' fid' = some v) :
    conn.openView sid' tid' fid' = some v := by
  rw [Connection.openView_eq_some] at h ⊢
  obtain ⟨tree, file, found, seen⟩ := h
  rw [Connection.treeView_modifyOpens] at tree
  refine ⟨tree, file, ?_, seen⟩
  rw [Connection.findOpen_modifyOpens] at found
  -- an entry of the table, in the tree that loses one or in another
  split at found
  next =>
    rw [Connection.findOpen]
    cases tree : conn.findTree sid' tid' with
    | none => simp [tree] at found
    | some t =>
      simp only [tree, Option.bind_some, Table.lookup_erase] at found ⊢
      split at found
      · cases found
      · exact found
  next => exact found

/-- An update of one open that keeps its handle and its access shows in no view. -/
private theorem openView_modifyOpen (conn : Connection η) (sid sid' : UInt64) (tid tid' : UInt32)
    (fid fid' : FileId) (f : Open η → Open η) (v : OpenView η)
    (handle : ∀ file, (f file).handle = file.handle)
    (access : ∀ file, (f file).grantedAccess = file.grantedAccess)
    (h : (conn.modifyOpen sid tid fid f).openView sid' tid' fid' = some v) :
    conn.openView sid' tid' fid' = some v := by
  rw [Connection.openView_eq_some] at h ⊢
  obtain ⟨tree, file, found, seen, level⟩ := h
  rw [Connection.modifyOpen, Connection.treeView_modifyOpens] at tree
  refine ⟨tree, ?_⟩
  rw [Connection.findOpen_modifyOpen] at found
  -- the updated open, or another one
  split at found
  next =>
    obtain ⟨old, before, rfl⟩ := Option.map_eq_some_iff.mp found
    exact ⟨old, before, (handle old).symm.trans seen, (access old).symm.trans level⟩
  next => exact ⟨file, found, seen, level⟩

end

section
variable {server : ServerState} {hdr : Smb2Header} {before after : Connection η}

omit [Crypto] in
private theorem register_sessionView (conn : Connection η) (sid sid' : UInt64) (tid : UInt32)
    (tree : TreeConnect η) (file : Open η) :
    (Create.register sid tid tree file conn).sessionView sid' = conn.sessionView sid' := by
  rw [Create.register, Connection.sessionView_modifyOpens, Connection.sessionView_modifyTree]

omit [Crypto] in
private theorem register_treeView (conn : Connection η) (sid sid' : UInt64) (tid tid' : UInt32)
    (tree : TreeConnect η) (file : Open η) :
    (Create.register sid tid tree file conn).treeView sid' tid' = conn.treeView sid' tid' := by
  rw [Create.register, Connection.treeView_modifyOpens]
  exact Connection.treeView_modifyTree conn sid sid' tid tid' _ (fun _ => rfl) fun _ => rfl

omit [Crypto] in
/-- An open of a tree that a CREATE registered in is the new one or was there before. -/
theorem openView_register (conn : Connection η) (sid sid' : UInt64) (tid tid' : UInt32)
    (fid' : FileId) (tree : TreeConnect η) (file : Open η) (v : OpenView η)
    (h : (Create.register sid tid tree file conn).openView sid' tid' fid' = some v) :
    (v.handle = file.handle ∧ v.grantedAccess = file.grantedAccess) ∨
      conn.openView sid' tid' fid' = some v := by
  rw [Connection.openView_eq_some] at h
  obtain ⟨seen, o, found, handle, access⟩ := h
  rw [register_treeView] at seen
  rw [Create.register, Connection.findOpen_modifyOpens] at found
  split at found
  next same =>
    rw [Connection.findTree_modifyTree, if_pos same] at found
    obtain ⟨tree', here, inserted⟩ := Option.bind_eq_some_iff.mp found
    obtain ⟨old, before, rfl⟩ := Option.map_eq_some_iff.mp here
    rw [Table.lookup_insert] at inserted
    -- in the tree of the CREATE the new entry stands beside the old ones
    split at inserted
    · obtain rfl := Option.some.inj inserted
      exact .inl ⟨handle.symm, access.symm⟩
    · refine .inr ((Connection.openView_eq_some _ _ _ _ _).mpr ⟨seen, o, ?_, handle, access⟩)
      rw [Connection.findOpen, before]
      exact inserted
  next other =>
    refine .inr ((Connection.openView_eq_some _ _ _ _ _).mpr ⟨seen, o, ?_, handle, access⟩)
    rw [Connection.findOpen, Connection.findTree_modifyTree, if_neg other] at found
    exact found

/-- The sizes that a connection was opened with stay. -/
theorem Edit.maxReadSize (e : Edit σ server hdr before after) :
    after.maxReadSize = before.maxReadSize := by
  cases e <;> rfl

/-- Only a logon and a logoff change what a session keeps. -/
theorem Edit.sessionView (e : Edit σ server hdr before after)
    (noSetup : hdr.command ≠ .sessionSetup) (noLogoff : hdr.command ≠ .logoff) (sid : UInt64) :
    after.sessionView sid = before.sessionView sid := by
  cases e with
  | preauth | commit => rfl
  | exchange _ cmd | sessionId cmd | acceptors _ cmd | logon _ _ _ _ cmd | snapshot _ _ cmd =>
    exact absurd cmd noSetup
  | dropSession _ cmd => exact absurd cmd noLogoff
  | treeId | addTree | dropTree =>
    exact Connection.sessionView_modifySession _ _ _ _ fun _ => rfl
  | register => exact register_sessionView _ _ _ _ _ _
  | dropOpen => exact Connection.sessionView_modifyOpens _ _ _ _ _
  | disposition | lastPath | cursor => exact Connection.sessionView_modifyOpens _ _ _ _ _

/-- Outside SESSION_SETUP no session comes into being. -/
theorem Edit.sessionView_before (e : Edit σ server hdr before after)
    (noSetup : hdr.command ≠ .sessionSetup) (sid : UInt64) (v : SessionView)
    (h : after.sessionView sid = some v) : before.sessionView sid = some v := by
  by_cases logoff : hdr.command = .logoff
  · cases e with
    | dropSession => exact sessionView_eraseSession _ _ _ _ h
    | preauth _ cmd | commit _ _ cmd | exchange _ cmd | sessionId cmd | acceptors _ cmd
    | logon _ _ _ _ cmd | snapshot _ _ cmd | treeId _ cmd | addTree _ _ _ _ _ _ cmd
    | dropTree _ _ cmd | register _ _ _ _ cmd | dropOpen _ _ _ cmd | disposition _ _ _ _ cmd
    | lastPath _ _ _ _ cmd | cursor _ _ _ _ cmd => simp [cmd] at logoff
  · exact (e.sessionView noSetup logoff sid).symm.trans h

/-- Only NEGOTIATE changes the dialect and the signing algorithm. -/
theorem Edit.dialect (e : Edit σ server hdr before after) (noNegotiate : hdr.command ≠ .negotiate) :
    after.dialect = before.dialect ∧ after.signingAlgo = before.signingAlgo := by
  cases e with
  | preauth _ cmd | commit _ _ cmd => exact absurd cmd noNegotiate
  | _ => exact ⟨rfl, rfl⟩

/-- Every tree was there before, but for a TREE_CONNECT. -/
theorem Edit.treeView (e : Edit σ server hdr before after)
    (noConnect : hdr.command ≠ .treeConnect) (sid : UInt64) (tid : UInt32) (v : TreeView)
    (h : after.treeView sid tid = some v) : before.treeView sid tid = some v := by
  -- a step that could give a tree belongs to TREE_CONNECT
  cases e with
  | preauth | commit | exchange | sessionId | acceptors => exact h
  | logon => exact treeView_insertSession _ _ _ _ _ _ rfl h
  | snapshot sid' snap =>
    rwa [Connection.treeView_modifySession] at h
    · exact stashSnapshot_identity snap _
    · exact stashSnapshot_trees snap _
  | dropSession => exact treeView_eraseSession _ _ _ _ _ h
  | treeId _ cmd | addTree _ _ _ _ _ _ cmd => exact absurd cmd noConnect
  | dropTree => exact treeView_eraseTree _ _ _ _ _ _ h
  | register => rwa [register_treeView] at h
  | dropOpen => rwa [Connection.treeView_modifyOpens] at h
  | disposition | lastPath => rwa [Connection.modifyOpen, Connection.treeView_modifyOpens] at h
  | cursor =>
    rwa [QueryDirectory.storeCursor, Connection.modifyOpen,
      Connection.treeView_modifyOpens] at h

/-- Every open was there before, but for a CREATE. -/
theorem Edit.openView (e : Edit σ server hdr before after) (noCreate : hdr.command ≠ .create)
    (sid : UInt64) (tid : UInt32) (fid : FileId) (v : OpenView η)
    (h : after.openView sid tid fid = some v) : before.openView sid tid fid = some v := by
  -- a step that could give an open belongs to CREATE
  cases e with
  | preauth | commit | exchange | sessionId | acceptors => exact h
  | logon => exact openView_insertSession _ _ _ _ _ _ _ rfl h
  | snapshot sid' snap =>
    rwa [Connection.openView_modifySession] at h
    · exact stashSnapshot_identity snap _
    · exact stashSnapshot_trees snap _
  | dropSession => exact openView_eraseSession _ _ _ _ _ _ h
  | treeId =>
    rwa [TreeConnect.allocTreeId, Connection.openView_modifySession] at h
    · exact fun _ => rfl
    · exact fun _ => rfl
  | addTree => exact openView_insertTree _ _ _ _ _ _ _ rfl h
  | dropTree => exact openView_eraseTree _ _ _ _ _ _ _ h
  | register _ _ _ _ cmd => exact absurd cmd noCreate
  | dropOpen => exact openView_eraseOpen _ _ _ _ _ _ _ _ h
  | disposition | lastPath =>
    refine openView_modifyOpen _ _ _ _ _ _ _ _ _ ?_ ?_ h <;> exact fun _ => rfl
  | cursor =>
    rw [QueryDirectory.storeCursor] at h
    refine openView_modifyOpen _ _ _ _ _ _ _ _ _ ?_ ?_ h <;> exact fun _ => rfl

/-- No session is ever put under the number zero. -/
theorem Edit.noSessionZero (e : Edit σ server hdr before after)
    (h : before.sessions.lookup 0 = none) : after.sessions.lookup 0 = none := by
  -- an update of a session that is not there does nothing
  have modified (conn : Connection η) (sid : UInt64) (f : Session η → Session η)
      (h : conn.sessions.lookup 0 = none) :
      (conn.modifySession sid f).sessions.lookup 0 = none := by
    rw [Connection.lookup_modifySession, h]
    split <;> rfl
  cases e with
  | preauth | commit | exchange | sessionId | acceptors => exact h
  | logon sid outcome dialect nonzero =>
    rw [SessionSetup.insertSession]
    exact (Table.lookup_insert _ _ _ _).trans ((if_neg nonzero.symm).trans h)
  | dropSession sid =>
    refine (Table.lookup_erase _ _ _).trans ?_
    split
    · rfl
    · exact h
  | snapshot | treeId | addTree | dropTree => exact modified _ _ _ h
  | register => exact modified _ _ _ (modified _ _ _ h)
  | dropOpen | disposition | lastPath | cursor => exact modified _ _ _ h

/-! ### A whole request -/

theorem Edits.maxReadSize (es : Edits σ server hdr before after) :
    after.maxReadSize = before.maxReadSize := by
  induction es with
  | refl => rfl
  | tail _ last ih => exact last.maxReadSize.trans ih

theorem Edits.sessionView (es : Edits σ server hdr before after)
    (noSetup : hdr.command ≠ .sessionSetup) (noLogoff : hdr.command ≠ .logoff) (sid : UInt64) :
    after.sessionView sid = before.sessionView sid := by
  induction es with
  | refl => rfl
  | tail _ e ih => exact (e.sessionView noSetup noLogoff sid).trans ih

theorem Edits.sessionView_before (es : Edits σ server hdr before after)
    (noSetup : hdr.command ≠ .sessionSetup) (sid : UInt64) (v : SessionView)
    (h : after.sessionView sid = some v) : before.sessionView sid = some v := by
  induction es with
  | refl => exact h
  | tail _ e ih => exact ih (e.sessionView_before noSetup sid v h)

theorem Edits.dialect (es : Edits σ server hdr before after)
    (noNegotiate : hdr.command ≠ .negotiate) :
    after.dialect = before.dialect ∧ after.signingAlgo = before.signingAlgo := by
  induction es with
  | refl => exact ⟨rfl, rfl⟩
  | tail _ e ih =>
    have last := e.dialect noNegotiate
    exact ⟨last.1.trans ih.1, last.2.trans ih.2⟩

theorem Edits.treeView (es : Edits σ server hdr before after)
    (noConnect : hdr.command ≠ .treeConnect) (sid : UInt64) (tid : UInt32) (v : TreeView)
    (h : after.treeView sid tid = some v) : before.treeView sid tid = some v := by
  induction es with
  | refl => exact h
  | tail _ e ih => exact ih (e.treeView noConnect sid tid v h)

theorem Edits.openView (es : Edits σ server hdr before after) (noCreate : hdr.command ≠ .create)
    (sid : UInt64) (tid : UInt32) (fid : FileId) (v : OpenView η)
    (h : after.openView sid tid fid = some v) : before.openView sid tid fid = some v := by
  induction es with
  | refl => exact h
  | tail _ e ih => exact ih (e.openView noCreate sid tid fid v h)

end

end SmbServer
