import SmbServer.Effects.Calls
import SmbServer.Effects.System

/-!
# SmbServer.Effects.Trees

What holds of every live tree of a connection: the rule for properties of one tree, and what a
SET_INFO makes of the opens in it.
-/

namespace SmbServer

open Lib

/-- `P` holds of every live tree. -/
def Connection.EachTree {η : Type} (P : TreeConnect η → Prop) (conn : Connection η) : Prop :=
  ∀ sid tid tree, conn.findTree sid tid = some tree → P tree

section
variable {η : Type} {P : TreeConnect η → Prop} {conn : Connection η}

namespace Connection.EachTree

theorem new (cid : UInt64) (guid : ByteVec 16) (maxRead maxWrite : UInt32) :
    (Connection.new cid guid maxRead maxWrite).EachTree P := by
  intro sid tid tree found
  cases found

/-- The sessions of `conn'` have the trees that they have in `conn`, or fewer. -/
theorem of_fewer {conn' : Connection η} (each : conn.EachTree P)
    (fewer : ∀ sid tid tree, conn'.findTree sid tid = some tree →
      conn.findTree sid tid = some tree) : conn'.EachTree P :=
  fun sid tid tree found => each sid tid tree (fewer sid tid tree found)

/-- One session is put in the place of what was there. -/
theorem insertSession (each : conn.EachTree P) (sid : UInt64) (sess : Session η)
    (bare : sess.trees = Table.empty) : (SessionSetup.insertSession sid sess conn).EachTree P := by
  intro sid' tid tree found
  simp only [Connection.findTree, SessionSetup.insertSession, Table.lookup_insert] at found
  split at found
  · rw [Option.bind_some, bare] at found
    cases found
  · exact each sid' tid tree found

theorem eraseSession (each : conn.EachTree P) (sid : UInt64) :
    ({ conn with sessions := conn.sessions.erase sid } : Connection η).EachTree P := by
  refine each.of_fewer fun sid' tid tree found => ?_
  simp only [Connection.findTree, Table.lookup_erase] at found
  split at found
  · cases found
  · exact found

/-- Every tree of an updated session satisfies `P` if the update keeps it so. -/
theorem modifySession (each : conn.EachTree P) (sid : UInt64) (f : Session η → Session η)
    (keeps : ∀ sess, conn.sessions.lookup sid = some sess →
      ∀ tid tree, (f sess).trees.lookup tid = some tree →
        sess.trees.lookup tid = some tree ∨ P tree) :
    (conn.modifySession sid f).EachTree P := by
  intro sid' tid tree found
  rw [Connection.findTree, Connection.lookup_modifySession] at found
  split at found
  next same =>
    subst same
    obtain ⟨sess', changed, here⟩ := Option.bind_eq_some_iff.mp found
    obtain ⟨sess, before, rfl⟩ := Option.map_eq_some_iff.mp changed
    rcases keeps sess before tid tree here with old | good
    · exact each sid' tid tree (by rw [Connection.findTree, before]; exact old)
    · exact good
  next => exact each sid' tid tree found

theorem modifyTree (each : conn.EachTree P) (sid : UInt64) (tid : UInt32)
    (f : TreeConnect η → TreeConnect η)
    (keeps : ∀ tree, conn.findTree sid tid = some tree → P tree → P (f tree)) :
    (conn.modifyTree sid tid f).EachTree P := by
  intro sid' tid' tree found
  rw [Connection.findTree_modifyTree] at found
  split at found
  next same =>
    obtain ⟨rfl, rfl⟩ := same
    obtain ⟨old, before, rfl⟩ := Option.map_eq_some_iff.mp found
    exact keeps old before (each sid' tid' old before)
  next => exact each sid' tid' tree found

theorem removal {conn' : Connection η} (each : conn.EachTree P) (r : Removal conn conn') :
    conn'.EachTree P := by
  cases r with
  | session sid => exact each.eraseSession sid
  | tree sid tid =>
    refine each.modifySession sid _ fun sess _ tid' tree found => .inl ?_
    simp only [Table.lookup_erase] at found
    split at found
    · cases found
    · exact found

end Connection.EachTree

/-- What a tree says about its opens, when `Q` is said of one of them and its share. -/
def TreeConnect.EachOpen (Q : ShareBindings → Open η → Prop) (tree : TreeConnect η) : Prop :=
  ∀ fid file, tree.opens.lookup fid = some file → Q tree.share file

namespace TreeConnect.EachOpen

variable {Q : ShareBindings → Open η → Prop} {tree : TreeConnect η}

theorem erase (each : tree.EachOpen Q) (fid : FileId) :
    ({ tree with opens := tree.opens.erase fid } : TreeConnect η).EachOpen Q := by
  intro fid' file found
  simp only [Table.lookup_erase] at found
  split at found
  · cases found
  · exact each fid' file found

theorem insert (each : tree.EachOpen Q) (fid : FileId) (file : Open η) (good : Q tree.share file) :
    ({ tree with opens := tree.opens.insert fid file } : TreeConnect η).EachOpen Q := by
  intro fid' file' found
  simp only [Table.lookup_insert] at found
  split at found
  · exact Option.some.inj found ▸ good
  · exact each fid' file' found

theorem modify (each : tree.EachOpen Q) (fid : FileId) (f : Open η → Open η)
    (keeps : ∀ file, tree.opens.lookup fid = some file → Q tree.share file →
      Q tree.share (f file)) :
    ({ tree with opens := tree.opens.modify fid f } : TreeConnect η).EachOpen Q := by
  intro fid' file found
  simp only [Table.lookup_modify] at found
  split at found
  next same =>
    subst same
    obtain ⟨old, before, rfl⟩ := Option.map_eq_some_iff.mp found
    exact keeps old before (each fid' old before)
  next => exact each fid' file found

end TreeConnect.EachOpen

end

variable {σ η : Type} [Host σ η] [Crypto] {server : ServerState} {hdr : Smb2Header}

/-- Outside CREATE, and but for a rename, what is said of every open stays true if it does not
depend on the disposition and on the cursor. -/
theorem Edit.eachOpen {Q : ShareBindings → Open η → Prop} {before after : Connection η}
    (e : Edit σ server hdr before after) (noCreate : hdr.command ≠ .create)
    (noSetInfo : hdr.command ≠ .setInfo)
    (cursor : ∀ share file cursor, Q share file → Q share { file with searchState := some cursor })
    (each : before.EachTree (TreeConnect.EachOpen Q)) :
    after.EachTree (TreeConnect.EachOpen Q) := by
  cases e with
  | preauth | commit | exchange | sessionId | acceptors => exact each
  | logon sid outcome dialect => exact each.insertSession _ _ rfl
  | snapshot sid snap =>
    refine each.modifySession _ _ fun sess _ tid tree found => .inl ?_
    rwa [stashSnapshot_trees] at found
  | dropSession sid => exact each.eraseSession sid
  | treeId sid => exact each.modifySession _ _ fun sess _ tid tree found => .inl found
  | addTree tid share granted =>
    refine each.modifySession _ _ fun sess _ tid' tree found => ?_
    simp only [Table.lookup_insert] at found
    split at found
    · -- A new tree has no opens.
      obtain rfl := Option.some.inj found
      right
      intro fid file there
      cases there
    · exact .inl found
  | dropTree sid tid => exact each.removal (.tree before sid tid)
  | register _ _ _ _ cmd => exact absurd cmd noCreate
  | dropOpen sid tid fid => exact each.modifyTree _ _ _ fun tree _ good => good.erase fid
  | disposition _ _ _ _ cmd | lastPath _ _ _ _ cmd => exact absurd cmd noSetInfo
  | cursor sid tid fid state =>
    exact each.modifyTree _ _ _ fun tree _ good => good.modify fid _ fun file _ ok =>
      cursor tree.share file state ok

theorem Edits.eachOpen {Q : ShareBindings → Open η → Prop} {before after : Connection η}
    (es : Edits σ server hdr before after) (noCreate : hdr.command ≠ .create)
    (noSetInfo : hdr.command ≠ .setInfo)
    (cursor : ∀ share file cursor, Q share file → Q share { file with searchState := some cursor })
    (each : before.EachTree (TreeConnect.EachOpen Q)) :
    after.EachTree (TreeConnect.EachOpen Q) := by
  induction es with
  | refl => exact each
  | tail _ e ih => exact e.eachOpen noCreate noSetInfo cursor ih

/-! ### SET_INFO -/

/-- What a SET_INFO leaves: the opens as they were, one of them with another disposition, or one
with the path that the backend has renamed it to. -/
inductive SetInfo.Leaves (hdr : Smb2Header) (body : Bytes) (w : World σ η) :
    Connection η → Prop where
  | same : Leaves hdr body w w.conn
  | disposition (sid : UInt64) (tid : UInt32) (fid : FileId) (flag : Bool) :
      Leaves hdr body w
        (w.conn.modifyOpen sid tid fid fun file => { file with deleteOnClose := flag })
  | renamed (req : SetInfoRequest) (target : Target η) (dst : SmbPath) (replace : Bool)
      (admitted : SetInfo.validate w.conn hdr body = .ok (req, target))
      (decoded : SetInfo.decode req.fileInformationClass req.buffer target.file =
        .ok (.rename dst replace))
      (done : (target.tree.share.backend.rename target.file.lastPath dst replace
        w.env.host).1 = .ok ()) :
      Leaves hdr body w (w.conn.modifyOpen hdr.sessionId target.tid req.fileId
        fun file => { file with lastPath := dst })

omit [Crypto] in
theorem SetInfo.handle_leaves (server : ServerState) (hdr : Smb2Header) (body : Bytes)
    (w : World σ η) : SetInfo.Leaves hdr body w (SetInfo.handle server hdr body w).2.conn := by
  -- What is recorded in front of the operation leaves the world alike.
  have performed (w₁ : World σ η) (alike : Alike w w₁) (req : SetInfoRequest) (target : Target η)
      (op : SetInfo.Operation η) (admitted : SetInfo.validate w.conn hdr body = .ok (req, target))
      (decoded : SetInfo.decode req.fileInformationClass req.buffer target.file = .ok op) :
      SetInfo.Leaves hdr body w
        (SetInfo.perform server hdr.sessionId req.fileId target op w₁).2.conn := by
    cases op with
    | setTimes h times => exact alike.conn.symm ▸ .same
    | truncate h len => exact alike.conn.symm ▸ .same
    | allocation => exact alike.conn.symm ▸ .same
    | disposition flag =>
      simp only [SetInfo.perform, Action.bind_apply, modifyConn_apply, Action.pure_apply,
        World.setConn_conn, alike.conn]
      exact .disposition _ _ _ flag
    | rename dst replace =>
      have recorded := alike.trans (alike_record server.traceSink (.setInfoRename replace
        dst.displayBackslash target.file.lastPath.displayBackslash) w₁)
      simp only [SetInfo.perform, Action.bind_apply, backendRename, issue_apply, recorded.host]
      cases answer : (target.tree.share.backend.rename (σ := σ) target.file.lastPath dst replace
          w.env.host).1 with
      | error e =>
        simp only [Action.pure_apply, World.addCall_conn, World.setHost_conn, recorded.conn]
        exact .same
      | ok =>
        simp only [Action.bind_apply, Action.pure_apply, modifyConn_apply, World.setConn_conn,
          World.addCall_conn, World.setHost_conn, recorded.conn]
        exact .renamed req target dst replace admitted decoded answer
  simp only [SetInfo.handle, Action.bind_apply, getConn_apply]
  cases admitted : SetInfo.validate w.conn hdr body with
  | error status => exact .same
  | ok pair =>
    obtain ⟨req, target⟩ := pair
    have recorded := alike_record server.traceSink (.setInfoOther req.fileInformationClass) w
    dsimp only
    cases decoded : SetInfo.decode req.fileInformationClass req.buffer target.file with
    | error status =>
      split
      · exact recorded.conn.symm ▸ .same
      · exact .same
    | ok op =>
      split
      · exact performed _ recorded req target op admitted decoded
      · exact performed w (Alike.refl w) req target op admitted decoded

/-- The connection behind an accepted SET_INFO. -/
theorem dispatchOne_leaves (server : ServerState) (frame : Bytes) (ordinal : UInt32)
    (w : World σ η) (hdr : Smb2Header) (body : Bytes) (accepted : Accepted w.conn frame hdr body)
    (cmd : hdr.command = .setInfo) :
    SetInfo.Leaves hdr body w (dispatchOne server frame ordinal w).2.conn := by
  obtain ⟨w₁, before, after⟩ := dispatchOne_of_accepted server frame ordinal w hdr body accepted
    (by simp [cmd]) (by simp [cmd])
  have handler : dispatchCommand server hdr body w₁ = SetInfo.handle server hdr body w₁ := by
    simp only [dispatchCommand, cmd]
  have leaves := SetInfo.handle_leaves server hdr body w₁
  rw [after.conn, handler]
  -- what the handler leaves is said of `w₁`, which agrees with `w` on connection and host
  revert leaves
  generalize (SetInfo.handle server hdr body w₁).2.conn = conn'
  intro leaves
  cases leaves with
  | same => exact before.conn.symm ▸ .same
  | disposition sid tid fid flag =>
    rw [before.conn]
    exact .disposition sid tid fid flag
  | renamed req target dst replace admitted decoded done =>
    rw [before.conn] at admitted ⊢
    rw [before.host] at done
    exact .renamed req target dst replace admitted decoded done

end SmbServer
