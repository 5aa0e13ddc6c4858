import SmbServer.Effects.Edit
import SmbServer.Lib.Ledger

/-!
# SmbServer.Effects.Gather

What the opens of a connection hold together, whatever is read off one open. Requests and sweeps
only take from it, but for CREATE, which adds an open, and the two commands that change one.
-/

namespace SmbServer

open Lib

section
variable {η α : Type} (f : Open η → Multiset α)

namespace Connection

/-- What the opens of a connection hold, where `f` says what one of them holds. -/
def gather (conn : Connection η) : Multiset α :=
  conn.sessions.collect fun sess => sess.trees.collect fun tree => tree.opens.collect f

theorem gather_modifySession_le (conn : Connection η) (sid : UInt64)
    (g : Session η → Session η) (extra : Multiset α)
    (le : ∀ sess, ((g sess).trees.collect fun tree => tree.opens.collect f) ≤
      (sess.trees.collect fun tree => tree.opens.collect f) + extra) :
    (conn.modifySession sid g).gather f ≤ conn.gather f + extra :=
  Table.collect_modify_le _ _ _ _ extra le

theorem gather_modifyTree_le (conn : Connection η) (sid : UInt64) (tid : UInt32)
    (g : TreeConnect η → TreeConnect η) (extra : Multiset α)
    (le : ∀ tree, (g tree).opens.collect f ≤ tree.opens.collect f + extra) :
    (conn.modifyTree sid tid g).gather f ≤ conn.gather f + extra :=
  gather_modifySession_le f _ _ _ extra fun _ => Table.collect_modify_le _ _ _ _ extra le

theorem gather_modifyOpen_le (conn : Connection η) (sid : UInt64) (tid : UInt32) (fid : FileId)
    (g : Open η → Open η) (extra : Multiset α) (le : ∀ file, f (g file) ≤ f file + extra) :
    (conn.modifyOpen sid tid fid g).gather f ≤ conn.gather f + extra :=
  gather_modifyTree_le f _ _ _ _ extra fun _ => Table.collect_modify_le _ _ _ _ extra le

/-- A change of one open that keeps what it holds. -/
theorem gather_modifyOpen_same (conn : Connection η) (sid : UInt64) (tid : UInt32) (fid : FileId)
    (g : Open η → Open η) (same : ∀ file, f (g file) = f file) :
    (conn.modifyOpen sid tid fid g).gather f ≤ conn.gather f := by
  have le := conn.gather_modifyOpen_le f sid tid fid g 0 fun file => by rw [same, add_zero]
  rwa [add_zero] at le

/-- What an open holds is part of what its connection holds. -/
theorem le_gather (conn : Connection η) (sid : UInt64) (tid : UInt32) (fid : FileId)
    (file : Open η) (found : conn.findOpen sid tid fid = some file) : f file ≤ conn.gather f := by
  obtain ⟨tree, there, here⟩ := Option.bind_eq_some_iff.mp found
  obtain ⟨sess, session, under⟩ := Option.bind_eq_some_iff.mp there
  have inTree : f file ≤ tree.opens.collect f := Table.le_collect _ _ _ _ here
  have inSession : tree.opens.collect f ≤ sess.trees.collect fun tree => tree.opens.collect f :=
    Table.le_collect _ _ _ (fun tree => tree.opens.collect f) under
  exact (inTree.trans inSession).trans (Table.le_collect _ _ _ _ session)

/-- Taking an open out of its tree takes what it holds. -/
theorem gather_eraseOpen (conn : Connection η) (sid : UInt64) (tid : UInt32) (fid : FileId)
    (file : Open η) (found : conn.findOpen sid tid fid = some file) :
    conn.gather f =
      (conn.modifyOpens sid tid fun opens => opens.erase fid).gather f + f file := by
  obtain ⟨tree, there, here⟩ := Option.bind_eq_some_iff.mp found
  obtain ⟨sess, session, under⟩ := Option.bind_eq_some_iff.mp there
  rw [gather, Table.collect_erase _ sid sess _ session, gather, modifyOpens, modifyTree,
    modifySession, Table.collect_modify _ sid sess _ _ session, add_assoc]
  congr 1
  rw [Table.collect_erase _ tid tree _ under, Table.collect_modify _ tid tree _ _ under, add_assoc]
  congr 1
  exact Table.collect_erase _ fid file _ here

/-- A CREATE adds what its open holds. -/
theorem gather_register_le (conn : Connection η) (sid : UInt64) (tid : UInt32)
    (tree : TreeConnect η) (file : Open η) :
    (Create.register sid tid tree file conn).gather f ≤ conn.gather f + f file := by
  have counted := conn.gather_modifyTree_le f sid tid
    (fun tree => { tree with nextVolatile := tree.nextVolatile + 1 }) 0
    fun tree => (add_zero (tree.opens.collect f)).ge
  rw [add_zero] at counted
  refine (gather_modifyTree_le f _ sid tid _ (f file) fun tree => ?_).trans
    (add_le_add counted (le_refl _))
  exact Table.collect_insert_le tree.opens _ _ _

end Connection

theorem Removal.gather_le {conn conn' : Connection η} (r : Removal conn conn') :
    conn'.gather f ≤ conn.gather f := by
  cases r with
  | session sid => exact Table.collect_erase_le _ _ _
  | tree sid tid =>
    refine (conn.gather_modifySession_le f sid _ 0 fun sess => ?_).trans_eq (add_zero _)
    rw [add_zero]
    exact Table.collect_erase_le sess.trees tid _

end

variable {σ η α : Type} [Host σ η] [Crypto] {server : ServerState} {hdr : Smb2Header}

/-- Only CREATE adds to what is held, when no change of an open does. -/
theorem Edit.gather_le (f : Open η → Multiset α) {conn conn' : Connection η}
    (e : Edit σ server hdr conn conn') (noCreate : hdr.command ≠ .create)
    (disposition : ∀ file flag, f { file with deleteOnClose := flag } = f file)
    (lastPath : ∀ file path, f { file with lastPath := path } = f file)
    (cursor : hdr.command = .queryDirectory →
      ∀ file cursor, f { file with searchState := some cursor } = f file) :
    conn'.gather f ≤ conn.gather f := by
  cases e with
  | preauth | commit | exchange | sessionId | acceptors => exact le_refl _
  | logon sid outcome dialect =>
    refine (Table.collect_insert_le conn.sessions sid
      (SessionSetup.newSession sid outcome dialect) _).trans_eq ?_
    -- A new session has no trees.
    exact add_zero _
  | snapshot sid snap =>
    refine (conn.gather_modifySession_le f sid _ 0 fun sess => ?_).trans_eq (add_zero _)
    rw [stashSnapshot_trees, add_zero]
  | dropSession sid => exact Table.collect_erase_le _ _ _
  | treeId sid =>
    refine (conn.gather_modifySession_le f sid _ 0 fun sess => ?_).trans_eq (add_zero _)
    rw [add_zero]
  | addTree tid share granted =>
    refine (conn.gather_modifySession_le f hdr.sessionId _ 0 fun sess => ?_).trans_eq (add_zero _)
    exact Table.collect_insert_le sess.trees tid (TreeConnect.new tid share granted) _
  | dropTree sid tid => exact Removal.gather_le f (.tree conn sid tid)
  | register sid tid tree file cmd => exact absurd cmd noCreate
  | dropOpen sid tid fid =>
    refine (conn.gather_modifyTree_le f sid tid _ 0 fun tree => ?_).trans_eq (add_zero _)
    rw [add_zero]
    exact Table.collect_erase_le tree.opens fid f
  | disposition sid tid fid flag =>
    exact conn.gather_modifyOpen_same f _ _ _ _ fun file => disposition file flag
  | lastPath sid tid fid path =>
    exact conn.gather_modifyOpen_same f _ _ _ _ fun file => lastPath file path
  | cursor sid tid fid c cmd =>
    exact conn.gather_modifyOpen_same f _ _ _ _ fun file => cursor cmd file c

theorem Edits.gather_le (f : Open η → Multiset α) {conn conn' : Connection η}
    (edits : Edits σ server hdr conn conn') (noCreate : hdr.command ≠ .create)
    (disposition : ∀ file flag, f { file with deleteOnClose := flag } = f file)
    (lastPath : ∀ file path, f { file with lastPath := path } = f file)
    (cursor : hdr.command = .queryDirectory →
      ∀ file cursor, f { file with searchState := some cursor } = f file) :
    conn'.gather f ≤ conn.gather f := by
  induction edits with
  | refl => exact le_refl _
  | tail _ last ih => exact (last.gather_le f noCreate disposition lastPath cursor).trans ih

end SmbServer
