import SmbServer.Effects.Teardown
import SmbServer.Effects.System

/-!
# SmbServer.Effects.Sweeps

What a sweep leaves behind: on every live connection, no tree that it is to clear.
-/

namespace SmbServer

open Lib

variable {σ η : Type} [Host σ η]

/-- Whether a sweep takes away the trees that look like this. -/
def Sweep.clears (v : TreeView) : Sweep → Bool
  | .none => false
  | .sessionsForUser user => v.identity.isUser user
  | .treesForShare shareName => v.share.name.eqIgnoreAsciiCase shareName
  | .treesForUserShare user shareName =>
    v.identity.isUser user && v.share.name.eqIgnoreAsciiCase shareName

section
variable {before after : Connection η}

/-! ### Removals -/

omit [Host σ η] in
theorem Removals.treeView (removed : Relation.ReflTransGen Removal before after) (sid : UInt64)
    (tid : UInt32) (v : TreeView) (h : after.treeView sid tid = some v) :
    before.treeView sid tid = some v := by
  induction removed with
  | refl => exact h
  | tail _ last ih => exact ih (last.treeView sid tid v h)

omit [Host σ η] in
/-- A loop that takes entries away leaves nothing of what each of its rounds takes away. -/
private theorem cleared_forM {α : Type} (entry : α → Connection η → Prop)
    (body : α → Action (World σ η) Unit)
    (moves : ∀ a, Action.Moves (Effect Removal Closing) (body a))
    (stays : ∀ a (conn conn' : Connection η), Relation.ReflTransGen Removal conn conn' →
      entry a conn' → entry a conn)
    (own : ∀ a w, ¬entry a (body a w).2.conn) (xs : List α) (w : World σ η) :
    ∀ a ∈ xs, ¬entry a (xs.forM body w).2.conn := by
  induction xs generalizing w with
  | nil => exact fun a member => absurd member List.not_mem_nil
  | cons first rest ih =>
    intro a member left
    rcases List.mem_cons.mp member with rfl | later
    · -- the later rounds only take away
      have behind := (Action.Moves.forM Effect.refl Effect.trans rest
        (fun b _ => moves b) (body a w).2).conn
      exact own a w (stays a _ _ behind left)
    · exact ih (body first w).2 a later left

/-! ### Sessions and trees -/

private theorem closeSession_clears (sid : UInt64) (tid : UInt32) (w : World σ η) :
    (Connection.closeSession sid w).2.conn.treeView sid tid = none := by
  simp only [Connection.closeSession, Action.bind_apply, getConn_apply]
  cases found : w.conn.sessions.lookup sid with
  | none => simp only [Action.pure_apply, Connection.treeView, found, Option.bind_none]
  | some sess =>
    simp only [Action.bind_apply, Action.pure_apply, Connection.treeView]
    rw [closeSessionState_keepsConn sid sess, modifyConn_apply, World.setConn_conn,
      Table.lookup_erase_self, Option.bind_none]

private theorem removeTree_clears (sid : UInt64) (tid : UInt32) (w : World σ η) :
    (removeTreeFromSession sid tid w).2.conn.treeView sid tid = none := by
  rw [removeTree_conn, Connection.findTree]
  cases found : w.conn.sessions.lookup sid with
  | none => simp [Connection.treeView, found]
  | some sess =>
    cases here : sess.trees.lookup tid with
    | none => simp [Connection.treeView, found, here]
    | some tree =>
      simp [Connection.treeView, Connection.lookup_modifySession, found, here]

theorem closeSessionsForUser_clears (user : Text) (w : World σ η) (sid : UInt64) (tid : UInt32)
    (v : TreeView)
    (left : (Connection.closeSessionsForUser user w).2.conn.treeView sid tid = some v) :
    v.identity.isUser user = false := by
  have removed := (Effect.sweep (.sessionsForUser user) w).conn
  have old := Removals.treeView removed sid tid v left
  -- a session of the user is on the list, and its turn has come
  by_contra owned
  rw [Bool.not_eq_false] at owned
  have listed : sid ∈ w.conn.sessionsOfUser user := by
    obtain ⟨sess, found, here⟩ := Option.bind_eq_some_iff.mp old
    obtain ⟨tree, -, rfl⟩ := Option.map_eq_some_iff.mp here
    refine List.mem_filter.mpr ⟨(Table.mem_keys _ _).mpr ⟨sess, found⟩, ?_⟩
    simpa only [found, Session.treeView] using owned
  refine cleared_forM (fun sid (conn : Connection η) => ∃ tid v, conn.treeView sid tid = some v)
    (fun sid => do let _ ← Connection.closeSession sid) ?_ ?_ ?_ _ w sid listed ⟨tid, v, left⟩
  · exact fun sid => Effect.bind (Effect.closeSession sid) fun _ => Effect.pure _
  · rintro sid conn conn' behind ⟨tid, v, there⟩
    exact ⟨tid, v, Removals.treeView behind sid tid v there⟩
  · rintro sid w' ⟨tid, v, there⟩
    exact absurd ((closeSession_clears sid tid w').symm.trans there) (Option.some_ne_none v).symm

/-- One session behind the loop over its matching trees. -/
private theorem matchingTrees_clears (matchesTree : Session η → TreeConnect η → Bool)
    (clears : TreeView → Bool)
    (agrees : ∀ sess tree, matchesTree sess tree = clears (sess.treeView tree)) (sid : UInt64)
    (sess : Session η) (w : World σ η) (found : w.conn.sessions.lookup sid = some sess)
    (tid : UInt32) (v : TreeView)
    (left : ((Connection.matchingTrees sess matchesTree).forM (fun tid => do
      let _ ← removeTreeFromSession sid tid) w).2.conn.treeView sid tid = some v) :
    clears v = false := by
  have round (tid : UInt32) : Action.Moves (Effect Removal Closing)
      (do let _ ← removeTreeFromSession sid tid : Action (World σ η) Unit) :=
    Effect.bind (Effect.removeTree sid tid) fun _ => Effect.pure _
  have removed := (Action.Moves.forM Effect.refl Effect.trans
    (Connection.matchingTrees sess matchesTree) (fun tid _ => round tid) w).conn
  have old := Removals.treeView removed sid tid v left
  rw [Connection.treeView, found, Option.bind_some] at old
  obtain ⟨tree, here, rfl⟩ := Option.map_eq_some_iff.mp old
  by_contra matching
  rw [Bool.not_eq_false, ← agrees] at matching
  -- a tree that matches is on the list, and its turn has come
  have listed : tid ∈ Connection.matchingTrees sess matchesTree := by
    refine List.mem_filter.mpr ⟨(Table.mem_keys _ _).mpr ⟨tree, here⟩, ?_⟩
    simpa only [here] using matching
  refine cleared_forM (fun tid (conn : Connection η) => ∃ v, conn.treeView sid tid = some v)
    _ round ?_ ?_ _ w tid listed ⟨_, left⟩
  · rintro tid conn conn' behind ⟨v, there⟩
    exact ⟨v, Removals.treeView behind sid tid v there⟩
  · rintro tid w' ⟨v, there⟩
    exact absurd ((removeTree_clears sid tid w').symm.trans there) (Option.some_ne_none v).symm

theorem closeMatchingTrees_clears (matchesTree : Session η → TreeConnect η → Bool)
    (clears : TreeView → Bool)
    (agrees : ∀ sess tree, matchesTree sess tree = clears (sess.treeView tree)) (w : World σ η)
    (sid : UInt64) (tid : UInt32) (v : TreeView)
    (left : (Connection.closeMatchingTrees matchesTree w).2.conn.treeView sid tid = some v) :
    clears v = false := by
  have old := Removals.treeView (Effect.closeMatchingTrees matchesTree w).conn sid tid v left
  obtain ⟨sess, found, -⟩ := Option.bind_eq_some_iff.mp old
  by_contra matching
  rw [Bool.not_eq_false] at matching
  -- the same, one level up: the turn of the tree's session
  refine cleared_forM (fun sid (conn : Connection η) =>
      ∃ tid v, conn.treeView sid tid = some v ∧ clears v = true)
    _ ?_ ?_ ?_ _ w sid ((Table.mem_keys _ _).mpr ⟨sess, found⟩) ⟨tid, v, left, matching⟩
  · intro sid
    refine Effect.bind Effect.getConn fun conn => ?_
    split
    · refine Action.Moves.forM Effect.refl Effect.trans _ fun tid _ => ?_
      exact Effect.bind (Effect.removeTree _ _) fun _ => Effect.pure _
    · exact Effect.pure _
  · rintro sid conn conn' behind ⟨tid, v, there, matching⟩
    exact ⟨tid, v, Removals.treeView behind sid tid v there, matching⟩
  · rintro sid w' ⟨tid, v, there, matching⟩
    simp only [Action.bind_apply, getConn_apply] at there
    cases found : w'.conn.sessions.lookup sid with
    | none =>
      simp only [found, Action.pure_apply, Connection.treeView, Option.bind_none] at there
      cases there
    | some sess =>
      simp only [found] at there
      rw [matchingTrees_clears matchesTree clears agrees sid sess w' found tid v there] at matching
      cases matching

/-- Behind a sweep a connection has no tree that the sweep clears. -/
theorem sweep_clears (sweep : Sweep) (w : World σ η) (sid : UInt64) (tid : UInt32) (v : TreeView)
    (left : (sweep.onConnection w).2.conn.treeView sid tid = some v) : sweep.clears v = false := by
  cases sweep with
  | none => rfl
  | sessionsForUser user => exact closeSessionsForUser_clears user w sid tid v left
  | treesForShare shareName =>
    exact closeMatchingTrees_clears (Connection.ofShare shareName)
      (fun v => Sweep.clears v (.treesForShare shareName)) (fun _ _ => rfl) w sid tid v left
  | treesForUserShare user shareName =>
    exact closeMatchingTrees_clears (Connection.ofUserShare user shareName)
      (fun v => Sweep.clears v (.treesForUserShare user shareName)) (fun _ _ => rfl) w sid tid v left

end

/-! ### Every connection -/

namespace System

omit [Host σ η] in
/-- What an action on every connection makes of each of them, once. -/
theorem onEach_moved {R : Connection η → Connection η → Prop} (m : Action (World σ η) Unit)
    (moves : ∀ w, R w.conn (m w).2.conn) (s : System σ η) (cid : UInt64) (conn' : Connection η)
    (found : (s.onEach m).conns.lookup cid = some conn') :
    ∃ conn, s.conns.lookup cid = some conn ∧ R conn conn' := by
  obtain ⟨old, live, -⟩ := onEach_lookup (R := fun _ _ => True) (fun _ => trivial)
    (fun _ _ _ _ _ => trivial) m (fun _ => trivial) s cid conn' found
  have listed : cid ∈ s.conns.keys := (Table.mem_keys _ _).mpr ⟨old, live⟩
  refine ⟨old, live, ?_⟩
  rw [onEach] at found
  have nodup := s.conns.nodup_keys
  generalize s.conns.keys = cids at found listed nodup
  induction cids generalizing s with
  | nil => cases listed
  | cons first rest ih =>
    obtain ⟨fresh, nodup⟩ := List.nodup_cons.mp nodup
    rcases List.mem_cons.mp listed with rfl | later
    · -- the turns of the other connections leave this one alone
      have untouched (cids : List UInt64) (s : System σ η) (absent : cid ∉ cids) :
          (cids.foldl (fun s cid => (s.onConn cid m).2) s).conns.lookup cid =
            s.conns.lookup cid := by
        induction cids generalizing s with
        | nil => rfl
        | cons other rest ih =>
          obtain ⟨here, behind⟩ := not_or.mp (mt List.mem_cons.mpr absent)
          rw [List.foldl_cons, ih _ behind, lookup_onConn, if_neg here]
      rw [List.foldl_cons, untouched rest _ fresh, lookup_onConn, if_pos rfl, live] at found
      obtain rfl := Option.some.inj found
      exact moves ⟨old, s.env⟩
    · have other : cid ≠ first := by
        rintro rfl
        exact fresh later
      refine ih (s.onConn first m).2 ?_ found later nodup
      rw [lookup_onConn, if_neg other, live]

/-- A configuration operation that succeeds leaves each connection with the trees it had, less those
that its sweep clears. -/
theorem configure_swept [Crypto] (s : System σ η) (op : ConfigOp) (server : ServerState)
    (sweep : Sweep) (edited : s.server.edit op = .ok (server, sweep)) (cid : UInt64)
    (conn' : Connection η) (found : (s.configure op).2.conns.lookup cid = some conn') :
    ∃ conn, s.conns.lookup cid = some conn ∧ ∀ sid tid v, conn'.treeView sid tid = some v →
      conn.treeView sid tid = some v ∧ sweep.clears v = false := by
  simp only [configure, edited] at found
  refine onEach_moved (R := fun conn conn' => ∀ sid tid v, conn'.treeView sid tid = some v →
    conn.treeView sid tid = some v ∧ sweep.clears v = false) sweep.onConnection ?_
    { s with server := server } cid conn' found
  intro w sid tid v left
  exact ⟨Removals.treeView (Effect.sweep sweep w).conn sid tid v left,
    sweep_clears sweep w sid tid v left⟩

end System

end SmbServer
