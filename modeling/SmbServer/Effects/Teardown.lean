import SmbServer.Client
import SmbServer.Effects.Calls

/-!
# SmbServer.Effects.Teardown

What the backend is left with when opens are taken down: implicitly, by a TREE_DISCONNECT, a LOGOFF
or a sweep behind a configuration operation, and explicitly, by CLOSE requests for the same opens.
Both are folds over the opens, each seen with the backend of its tree.
-/

namespace SmbServer

open Lib

variable {σ η : Type}

/-- An open with the backend it was opened on. -/
structure Opened (η : Type) where
  backend : BackendRef
  file : Open η

/-- The names of an open: its session, its tree and its FileId. -/
structure OpenKey where
  session : UInt64
  tree : UInt32
  file : FileId
  deriving DecidableEq

namespace Opened

/-- The call that closes the handle of an open. -/
def closing (o : Opened η) : Option BackendCall := o.file.handle.map fun h => .close h.serial

variable [Host σ η]

/-- The backend behind the implicit end of an open: its handle is closed. -/
def closeImplicit (host : σ) (o : Opened η) : σ :=
  match o.file.handle with
  | some h => (Host.close h.inner host).2
  | none => host

/-- The backend behind a CLOSE: the handle is closed, and a marked open is unlinked. -/
def closeExplicit (host : σ) (o : Opened η) : σ :=
  if o.file.deleteOnClose then (o.backend.unlink o.file.lastPath (o.closeImplicit host)).2
  else o.closeImplicit host

end Opened

/-- Lists that carry different labels, put together. -/
theorem nodup_flatMap_of_label {α β : Type} (label : β → α) {xs : List α} {f : α → List β}
    (nodup : xs.Nodup) (each : ∀ x ∈ xs, (f x).Nodup) (labelled : ∀ x ∈ xs, ∀ y ∈ f x, label y = x) :
    (xs.flatMap f).Nodup := by
  refine List.nodup_flatMap.mpr ⟨each, nodup.pairwise_of_forall_ne ?_⟩
  intro x here x' there other y first second
  exact other ((labelled x here y first).symm.trans (labelled x' there y second))

/-- The opens of a tree. -/
def TreeConnect.opened (tree : TreeConnect η) : List (Opened η) :=
  tree.opens.vals.map fun file => ⟨tree.share.backend, file⟩

namespace Connection

/-- The open of a name. -/
def opened (conn : Connection η) (k : OpenKey) : Option (Opened η) :=
  (conn.findTree k.session k.tree).bind fun tree =>
    (tree.opens.lookup k.file).map fun file => ⟨tree.share.backend, file⟩

/-- The names of the opens of one tree. -/
def treeKeys (conn : Connection η) (sid : UInt64) (tid : UInt32) : List OpenKey :=
  match conn.findTree sid tid with
  | some tree => tree.opens.keys.map fun fid => ⟨sid, tid, fid⟩
  | none => []

/-- The names of the opens of one session. -/
def sessionKeys (conn : Connection η) (sid : UInt64) : List OpenKey :=
  match conn.sessions.lookup sid with
  | some sess => sess.trees.keys.flatMap (conn.treeKeys sid)
  | none => []

/-- The names of the opens in the trees of one session that match. -/
def matchingKeys (conn : Connection η) (matchesTree : Session η → TreeConnect η → Bool)
    (sid : UInt64) : List OpenKey :=
  match conn.sessions.lookup sid with
  | some sess => (matchingTrees sess matchesTree).flatMap (conn.treeKeys sid)
  | none => []

theorem opened_treeKeys (conn : Connection η) (sid : UInt64) (tid : UInt32)
    (tree : TreeConnect η) (found : conn.findTree sid tid = some tree) :
    (conn.treeKeys sid tid).filterMap conn.opened = tree.opened := by
  simp only [treeKeys, found, TreeConnect.opened, ← Table.filterMap_lookup_keys tree.opens,
    List.filterMap_map, List.map_filterMap, Function.comp_def, opened, Option.bind_some]

/-- The opens of a tree depend on that tree only. -/
theorem opened_treeKeys_congr {conn conn' : Connection η} {sid : UInt64} {tid : UInt32}
    (same : conn'.findTree sid tid = conn.findTree sid tid) :
    (conn'.treeKeys sid tid).filterMap conn'.opened =
      (conn.treeKeys sid tid).filterMap conn.opened := by
  cases found : conn.findTree sid tid with
  | none => simp only [treeKeys, same, found, List.filterMap_nil]
  | some tree =>
    rw [opened_treeKeys conn sid tid tree found,
      opened_treeKeys conn' sid tid tree (same.trans found)]

theorem mem_treeKeys (conn : Connection η) (sid : UInt64) (tid : UInt32) (k : OpenKey)
    (member : k ∈ conn.treeKeys sid tid) :
    k.session = sid ∧ k.tree = tid ∧ ∃ o, conn.opened k = some o := by
  rw [treeKeys] at member
  cases found : conn.findTree sid tid with
  | none => simp [found] at member
  | some tree =>
    simp only [found, List.mem_map] at member
    obtain ⟨fid, listed, rfl⟩ := member
    obtain ⟨file, here⟩ := (Table.mem_keys _ _).mp listed
    exact ⟨rfl, rfl, ⟨tree.share.backend, file⟩, by
      simp only [opened, found, Option.bind_some, here, Option.map_some]⟩

theorem mem_sessionKeys (conn : Connection η) (sid : UInt64) (k : OpenKey)
    (member : k ∈ conn.sessionKeys sid) : k.session = sid ∧ ∃ o, conn.opened k = some o := by
  rw [sessionKeys] at member
  cases found : conn.sessions.lookup sid with
  | none => simp [found] at member
  | some sess =>
    simp only [found, List.mem_flatMap] at member
    obtain ⟨tid, -, here⟩ := member
    obtain ⟨session, -, live⟩ := mem_treeKeys conn sid tid k here
    exact ⟨session, live⟩

theorem mem_matchingKeys (conn : Connection η)
    (matchesTree : Session η → TreeConnect η → Bool) (sid : UInt64) (k : OpenKey)
    (member : k ∈ conn.matchingKeys matchesTree sid) :
    k.session = sid ∧ ∃ o, conn.opened k = some o := by
  rw [matchingKeys] at member
  cases found : conn.sessions.lookup sid with
  | none => simp [found] at member
  | some sess =>
    simp only [found, List.mem_flatMap] at member
    obtain ⟨tid, -, here⟩ := member
    obtain ⟨session, -, live⟩ := mem_treeKeys conn sid tid k here
    exact ⟨session, live⟩

theorem nodup_treeKeys (conn : Connection η) (sid : UInt64) (tid : UInt32) :
    (conn.treeKeys sid tid).Nodup := by
  rw [treeKeys]
  split
  next tree _ =>
    refine tree.opens.nodup_keys.map fun fid fid' same => ?_
    simpa using same
  next => exact List.nodup_nil

theorem nodup_sessionKeys (conn : Connection η) (sid : UInt64) :
    (conn.sessionKeys sid).Nodup := by
  rw [sessionKeys]
  split
  next sess _ =>
    exact nodup_flatMap_of_label OpenKey.tree sess.trees.nodup_keys
      (fun tid _ => nodup_treeKeys conn sid tid)
      fun tid _ k member => (mem_treeKeys conn sid tid k member).2.1
  next => exact List.nodup_nil

theorem nodup_matchingKeys (conn : Connection η)
    (matchesTree : Session η → TreeConnect η → Bool) (sid : UInt64) :
    (conn.matchingKeys matchesTree sid).Nodup := by
  rw [matchingKeys]
  split
  next sess _ =>
    exact nodup_flatMap_of_label OpenKey.tree (sess.trees.nodup_keys.filter _)
      (fun tid _ => nodup_treeKeys conn sid tid)
      fun tid _ k member => (mem_treeKeys conn sid tid k member).2.1
  next => exact List.nodup_nil

end Connection

/-! ### Closing in place -/

variable [Host σ η]

/-- From `env` to `env'` these opens end implicitly, one after another, and no other call is
made. -/
structure Ended (opened : List (Opened η)) (env env' : Env σ) : Prop where
  host : env'.host = opened.foldl Opened.closeImplicit env.host
  calls : env'.calls.map Issued.call =
    env.calls.map Issued.call ++ opened.filterMap Opened.closing

theorem Ended.refl (env : Env σ) : Ended ([] : List (Opened η)) env env :=
  ⟨rfl, (List.append_nil _).symm⟩

theorem Ended.trans {first second : List (Opened η)} {env env' env'' : Env σ}
    (before : Ended first env env') (after : Ended second env' env'') :
    Ended (first ++ second) env env'' where
  host := by rw [after.host, before.host, List.foldl_append]
  calls := by rw [after.calls, before.calls, List.filterMap_append, List.append_assoc]

/-- A loop in which no round touches what the other rounds end. -/
theorem ended_forM {α : Type} (opened : α → Connection η → List (Opened η))
    (body : α → Action (World σ η) Unit) (xs : List α) (nodup : xs.Nodup)
    (each : ∀ x ∈ xs, ∀ w, Ended (opened x w.conn) w.env (body x w).2.env)
    (apart : ∀ x ∈ xs, ∀ y ∈ xs, y ≠ x → ∀ w : World σ η,
      opened y (body x w).2.conn = opened y w.conn) (w : World σ η) :
    Ended (xs.flatMap fun x => opened x w.conn) w.env (xs.forM body w).2.env := by
  induction xs generalizing w with
  | nil => exact .refl w.env
  | cons x rest ih =>
    obtain ⟨fresh, nodup⟩ := List.nodup_cons.mp nodup
    have here := each x List.mem_cons_self w
    have later := ih nodup (fun y member => each y (List.mem_cons_of_mem x member))
      (fun y member z there => apart y (List.mem_cons_of_mem x member) z
        (List.mem_cons_of_mem x there)) (body x w).2
    -- what the later rounds end is still open behind the first
    have kept : (rest.flatMap fun y => opened y (body x w).2.conn) =
        rest.flatMap fun y => opened y w.conn := by
      refine List.flatMap_congr fun y member => ?_
      refine apart x List.mem_cons_self y (List.mem_cons_of_mem x member) ?_ w
      rintro rfl
      exact fresh member
    rw [kept] at later
    rw [List.flatMap_cons]
    exact here.trans later

/-- Closing handles leaves the connection alone. -/
def KeepsConn {α : Type} (m : Action (World σ η) α) : Prop := ∀ w, (m w).2.conn = w.conn

theorem closeTreeState_keepsConn (sid : UInt64) (tid : UInt32) (tree : TreeConnect η) :
    KeepsConn (closeTreeState sid tid tree : Action (World σ η) Unit) := fun w =>
  (moves_closeTreeState (E := fun _ _ => False) (Q := fun _ => True) (fun _ _ => trivial)
    sid tid tree w).conn_eq

theorem closeSessionState_keepsConn (sid : UInt64) (sess : Session η) :
    KeepsConn (closeSessionState sid sess : Action (World σ η) Unit) := fun w =>
  (moves_closeSessionState (E := fun _ _ => False) (Q := fun _ => True) (fun _ _ => trivial)
    sid sess w).conn_eq

theorem ended_closeTreeState (sid : UInt64) (tid : UInt32) (tree : TreeConnect η)
    (w : World σ η) : Ended tree.opened w.env (closeTreeState sid tid tree w).2.env := by
  rw [closeTreeState, TreeConnect.opened]
  generalize tree.opens.vals = files
  induction files generalizing w with
  | nil => exact .refl w.env
  | cons file rest ih =>
    have here : Ended [⟨tree.share.backend, file⟩] w.env
        (closeOpen sid tid tree.grantedAccess file w).2.env := by
      simp only [closeOpen]
      cases handle : file.handle with
      | none =>
        refine ⟨?_, ?_⟩ <;> simp [Opened.closeImplicit, Opened.closing, handle]
      | some h =>
        refine ⟨?_, ?_⟩ <;>
          simp [Opened.closeImplicit, Opened.closing, handle, Boxed.close]
    exact here.trans (ih _)

theorem ended_closeSessionState (sid : UInt64) (sess : Session η) (conn : Connection η)
    (found : conn.sessions.lookup sid = some sess) (w : World σ η) :
    Ended ((conn.sessionKeys sid).filterMap conn.opened) w.env
      (closeSessionState sid sess w).2.env := by
  have trees (tid : UInt32) : conn.findTree sid tid = sess.trees.lookup tid := by
    simp only [Connection.findTree, found, Option.bind_some]
  have loop := ended_forM (fun tid (_ : Connection η) =>
      (conn.treeKeys sid tid).filterMap conn.opened)
    (fun tid => match sess.trees.lookup tid with
      | some tree => closeTreeState sid tid tree
      | none => pure ()) sess.trees.keys sess.trees.nodup_keys ?_ (fun _ _ _ _ _ _ => rfl) w
  · simp only [Connection.sessionKeys, found, List.filterMap_flatMap]
    exact loop
  · intro tid member w'
    obtain ⟨tree, there⟩ := (Table.mem_keys _ _).mp member
    simp only [there, Connection.opened_treeKeys conn sid tid tree ((trees tid).trans there)]
    exact ended_closeTreeState sid tid tree w'

/-! ### Taking an entry out and ending its opens -/

/-- Only the entry of one tree may differ. -/
def OtherTrees (sid : UInt64) (tid : UInt32) (conn conn' : Connection η) : Prop :=
  ∀ sid' tid', ¬(sid' = sid ∧ tid' = tid) → conn'.findTree sid' tid' = conn.findTree sid' tid'

/-- Only the entry of one session may differ. -/
def OtherSessions (sid : UInt64) (conn conn' : Connection η) : Prop :=
  ∀ sid', sid' ≠ sid → conn'.sessions.lookup sid' = conn.sessions.lookup sid'

omit [Host σ η] in
theorem OtherSessions.findTree {sid : UInt64} {conn conn' : Connection η}
    (h : OtherSessions sid conn conn') (sid' : UInt64) (tid : UInt32) (other : sid' ≠ sid) :
    conn'.findTree sid' tid = conn.findTree sid' tid := by
  rw [Connection.findTree, Connection.findTree, h sid' other]

omit [Host σ η] in
/-- A session that did not change has the opens it had. -/
theorem opened_sessionKeys_congr {conn conn' : Connection η} {sid : UInt64}
    (same : conn'.sessions.lookup sid = conn.sessions.lookup sid) :
    (conn'.sessionKeys sid).filterMap conn'.opened =
      (conn.sessionKeys sid).filterMap conn.opened := by
  cases found : conn.sessions.lookup sid with
  | none => simp only [Connection.sessionKeys, same, found, List.filterMap_nil]
  | some sess =>
    have trees (tid : UInt32) : conn'.findTree sid tid = conn.findTree sid tid := by
      rw [Connection.findTree, Connection.findTree, same]
    simp only [Connection.sessionKeys, same, found, List.filterMap_flatMap]
    exact List.flatMap_congr fun tid _ => Connection.opened_treeKeys_congr (trees tid)

omit [Host σ η] in
theorem opened_matchingKeys_congr {conn conn' : Connection η} {sid : UInt64}
    (matchesTree : Session η → TreeConnect η → Bool)
    (same : conn'.sessions.lookup sid = conn.sessions.lookup sid) :
    (conn'.matchingKeys matchesTree sid).filterMap conn'.opened =
      (conn.matchingKeys matchesTree sid).filterMap conn.opened := by
  cases found : conn.sessions.lookup sid with
  | none => simp only [Connection.matchingKeys, same, found, List.filterMap_nil]
  | some sess =>
    have trees (tid : UInt32) : conn'.findTree sid tid = conn.findTree sid tid := by
      rw [Connection.findTree, Connection.findTree, same]
    simp only [Connection.matchingKeys, same, found, List.filterMap_flatMap]
    exact List.flatMap_congr fun tid _ => Connection.opened_treeKeys_congr (trees tid)

theorem ended_removeTree (sid : UInt64) (tid : UInt32) (w : World σ η) :
    Ended ((w.conn.treeKeys sid tid).filterMap w.conn.opened) w.env
      (removeTreeFromSession sid tid w).2.env := by
  simp only [removeTreeFromSession, Action.bind_apply, getConn_apply]
  cases found : w.conn.findTree sid tid with
  | none =>
    simp only [Connection.treeKeys, found, List.filterMap_nil]
    exact .refl w.env
  | some tree =>
    rw [Connection.opened_treeKeys w.conn sid tid tree found]
    exact ended_closeTreeState sid tid tree (modifyConn _ w).2

/-- What taking a tree out leaves of the connection. -/
theorem removeTree_conn (sid : UInt64) (tid : UInt32) (w : World σ η) :
    (removeTreeFromSession sid tid w).2.conn =
      if (w.conn.findTree sid tid).isSome then
        w.conn.modifySession sid fun sess => { sess with trees := sess.trees.erase tid }
      else w.conn := by
  simp only [removeTreeFromSession, Action.bind_apply, getConn_apply]
  cases found : w.conn.findTree sid tid with
  | none => rfl
  | some tree => exact closeTreeState_keepsConn (σ := σ) sid tid tree _

theorem removeTree_otherTrees (sid : UInt64) (tid : UInt32) (w : World σ η) :
    OtherTrees sid tid w.conn (removeTreeFromSession sid tid w).2.conn := by
  intro sid' tid' other
  rw [removeTree_conn]
  split
  · rw [Connection.findTree, Connection.lookup_modifySession]
    by_cases same : sid' = sid
    · subst same
      have otherTree : tid' ≠ tid := fun eq => other ⟨rfl, eq⟩
      rw [if_pos rfl, Connection.findTree]
      cases w.conn.sessions.lookup sid' with
      | none => rfl
      | some sess =>
        simp only [Option.map_some, Option.bind_some, Table.lookup_erase, otherTree, if_false]
    · rw [if_neg same]
      rfl
  · rfl

theorem removeTree_otherSessions (sid : UInt64) (tid : UInt32) (w : World σ η) :
    OtherSessions sid w.conn (removeTreeFromSession sid tid w).2.conn := by
  intro sid' other
  rw [removeTree_conn]
  split
  · rw [Connection.lookup_modifySession, if_neg other]
  · rfl

theorem ended_closeSession (sid : UInt64) (w : World σ η) :
    Ended ((w.conn.sessionKeys sid).filterMap w.conn.opened) w.env
      (Connection.closeSession sid w).2.env := by
  simp only [Connection.closeSession, Action.bind_apply, getConn_apply]
  cases found : w.conn.sessions.lookup sid with
  | none =>
    simp only [Connection.sessionKeys, found, List.filterMap_nil]
    exact .refl w.env
  | some sess =>
    exact ended_closeSessionState sid sess w.conn found (modifyConn _ w).2

theorem closeSession_otherSessions (sid : UInt64) (w : World σ η) :
    OtherSessions sid w.conn (Connection.closeSession sid w).2.conn := by
  intro sid' other
  simp only [Connection.closeSession, Action.bind_apply, getConn_apply]
  cases w.conn.sessions.lookup sid with
  | none => rfl
  | some sess =>
    simp only [Action.bind_apply, Action.pure_apply]
    rw [closeSessionState_keepsConn sid sess, modifyConn_apply, World.setConn_conn,
      Table.lookup_erase, if_neg other]

/-! ### Sweeps -/

/-- The names of the opens that a sweep ends on one connection. -/
def Sweep.keys (conn : Connection η) : Sweep → List OpenKey
  | .none => []
  | .sessionsForUser user => (conn.sessionsOfUser user).flatMap conn.sessionKeys
  | .treesForShare shareName =>
    conn.sessions.keys.flatMap (conn.matchingKeys (Connection.ofShare shareName))
  | .treesForUserShare user shareName =>
    conn.sessions.keys.flatMap (conn.matchingKeys (Connection.ofUserShare user shareName))

theorem ended_closeSessionsForUser (user : Text) (w : World σ η) :
    Ended (((w.conn.sessionsOfUser user).flatMap w.conn.sessionKeys).filterMap w.conn.opened)
      w.env (Connection.closeSessionsForUser user w).2.env := by
  have nodup : (w.conn.sessionsOfUser user).Nodup := w.conn.sessions.nodup_keys.filter _
  rw [List.filterMap_flatMap]
  refine ended_forM (fun sid conn => (conn.sessionKeys sid).filterMap conn.opened)
    (fun sid => do let _ ← Connection.closeSession sid) _ nodup ?_ ?_ w
  · exact fun sid _ w' => ended_closeSession sid w'
  · intro sid _ sid' _ other w'
    exact opened_sessionKeys_congr (closeSession_otherSessions sid w' sid' other)

private theorem ended_matching (matchesTree : Session η → TreeConnect η → Bool) (sid : UInt64)
    (w : World σ η) :
    Ended ((w.conn.matchingKeys matchesTree sid).filterMap w.conn.opened) w.env
        ((do
          let conn ← getConn
          match conn.sessions.lookup sid with
          | some sess =>
            (Connection.matchingTrees sess matchesTree).forM fun tid => do
              let _ ← removeTreeFromSession sid tid
          | none => pure () : Action (World σ η) Unit) w).2.env ∧
      OtherSessions sid w.conn
        ((do
          let conn ← getConn
          match conn.sessions.lookup sid with
          | some sess =>
            (Connection.matchingTrees sess matchesTree).forM fun tid => do
              let _ ← removeTreeFromSession sid tid
          | none => pure () : Action (World σ η) Unit) w).2.conn := by
  simp only [Action.bind_apply, getConn_apply, Connection.matchingKeys]
  cases found : w.conn.sessions.lookup sid with
  | none =>
    exact ⟨.refl w.env, fun _ _ => rfl⟩
  | some sess =>
    -- each tree has its round once
    have nodup : (Connection.matchingTrees sess matchesTree).Nodup :=
      sess.trees.nodup_keys.filter _
    constructor
    · rw [List.filterMap_flatMap]
      refine ended_forM (fun tid conn => (conn.treeKeys sid tid).filterMap conn.opened)
        (fun tid => do let _ ← removeTreeFromSession sid tid) _ nodup ?_ ?_ w
      · exact fun tid _ w' => ended_removeTree sid tid w'
      · intro tid _ tid' _ other w'
        exact Connection.opened_treeKeys_congr
          (removeTree_otherTrees sid tid w' sid tid' fun both => other both.2)
    · refine Action.Moves.forM (R := fun w w' : World σ η => OtherSessions sid w.conn w'.conn)
        (fun _ _ _ => rfl) (fun _ _ _ first second sid' other =>
          (second sid' other).trans (first sid' other)) _ (fun tid _ w' => ?_) w
      exact removeTree_otherSessions sid tid w'

theorem ended_closeMatchingTrees (matchesTree : Session η → TreeConnect η → Bool)
    (w : World σ η) :
    Ended ((w.conn.sessions.keys.flatMap (w.conn.matchingKeys matchesTree)).filterMap
      w.conn.opened) w.env (Connection.closeMatchingTrees matchesTree w).2.env := by
  rw [List.filterMap_flatMap]
  refine ended_forM (fun sid conn => (conn.matchingKeys matchesTree sid).filterMap conn.opened)
    _ _ w.conn.sessions.nodup_keys ?_ ?_ w
  · exact fun sid _ w' => (ended_matching matchesTree sid w').1
  · intro sid _ sid' _ other w'
    exact opened_matchingKeys_congr matchesTree ((ended_matching matchesTree sid w').2 sid' other)

/-- A sweep ends the opens it names, and nothing else. -/
theorem ended_sweep (sweep : Sweep) (w : World σ η) :
    Ended ((sweep.keys w.conn).filterMap w.conn.opened) w.env (sweep.onConnection w).2.env := by
  cases sweep with
  | none => exact .refl w.env
  | sessionsForUser user => exact ended_closeSessionsForUser user w
  | treesForShare | treesForUserShare => exact ended_closeMatchingTrees _ w

omit [Host σ η] in
theorem Sweep.mem_keys (sweep : Sweep) (conn : Connection η) (k : OpenKey)
    (member : k ∈ sweep.keys conn) : ∃ o, conn.opened k = some o := by
  cases sweep with
  | none => cases member
  | sessionsForUser user =>
    obtain ⟨sid, -, here⟩ := List.mem_flatMap.mp member
    exact (Connection.mem_sessionKeys conn sid k here).2
  | treesForShare | treesForUserShare =>
    obtain ⟨sid, -, here⟩ := List.mem_flatMap.mp member
    exact (Connection.mem_matchingKeys conn _ sid k here).2

omit [Host σ η] in
theorem Sweep.nodup_keys (sweep : Sweep) (conn : Connection η) : (sweep.keys conn).Nodup := by
  cases sweep with
  | none => exact List.nodup_nil
  | sessionsForUser user =>
    exact nodup_flatMap_of_label OpenKey.session (conn.sessions.nodup_keys.filter _)
      (fun sid _ => conn.nodup_sessionKeys sid)
      fun sid _ k member => (conn.mem_sessionKeys sid k member).1
  | treesForShare | treesForUserShare =>
    exact nodup_flatMap_of_label OpenKey.session conn.sessions.nodup_keys
      (fun sid _ => conn.nodup_matchingKeys _ sid)
      fun sid _ k member => (conn.mem_matchingKeys _ sid k member).1

end SmbServer
