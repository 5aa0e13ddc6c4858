import SmbServer.Client
import SmbServer.Concurrency.LiveSteps
import SmbServer.Concurrency.Script
import SmbServer.Properties.ConfigInvariant

/-!
# SmbServer.Properties.Revocation

`remove_share`, `revoke_share_user` and `set_share_mode` against TREE_CONNECT.

TREE_CONNECT reads the share and its access control list before it inserts the tree. A tree may so
enter its session behind the sweep of an operation that has revoked it in between.

## Main result

`revocation`: in every run in which no tree enters a session late, no live tree is left of what a
returned operation has revoked.

## Proof strategy

The invariant `Revoking` says that every live tree that has been revoked is still in front of the
sweep of the operation: one of its tasks covers the tree. A task hands the trees it covers on to the
tasks it puts in front of the rest, and a returned operation has no task left.
-/

namespace SmbServer

open Lib

section
variable {ι κ : Type} [DecidableEq ι] [DecidableEq κ] {σ η : Type} [Host σ η] [Crypto]

theorem LiveStep.sound {s t : LiveState ι κ} {a : LiveAction ι κ} (step : LiveStep σ s a t)
    (sound : s.config.Sound) : t.config.Sound := by
  rcases step.configStep with same | ⟨b, moved⟩
  · exact same ▸ sound
  · exact moved.sound sound

end

/-! ### What is revoked, and what is swept -/

namespace Revocation

/-- The trees that a revocation is about: those of the removed share, and those whose list was read
before the edit. -/
def Condemns (identity : Identity) (share : ShareBindings) (readAt : Nat) : Revocation → Prop
  | .removed share' => share = share'
  | .user share' owner edit => share = share' ∧ identity.isUser owner = true ∧ readAt < edit
  | .mode share' edit => share = share' ∧ readAt < edit

/-- A sweep that closes by the name of the revoked share. -/
def SweptBy (sweep : Sweep) : Revocation → Prop
  | .removed share =>
    ∃ name, sweep = .treesForShare name ∧ share.name.eqIgnoreAsciiCase name = true
  | .user share owner _ =>
    ∃ name, sweep = .treesForUserShare owner name ∧ share.name.eqIgnoreAsciiCase name = true
  | .mode share _ =>
    ∃ name, sweep = .treesForShare name ∧ share.name.eqIgnoreAsciiCase name = true

theorem SweptBy.matchesTree {r : Revocation} {sweep : Sweep} (swept : r.SweptBy sweep)
    {identity : Identity} {share : ShareBindings} {readAt : Nat}
    (condemned : r.Condemns identity share readAt) : sweep.matchesTree identity share = true := by
  cases r with
  | removed share' =>
    obtain ⟨name, rfl, named⟩ := swept
    have same : share = share' := condemned
    rw [same]
    exact named
  | user share' owner edit =>
    obtain ⟨name, rfl, named⟩ := swept
    obtain ⟨rfl, owned, -⟩ := condemned
    simp only [Sweep.matchesTree, owned, named, Bool.and_self]
  | mode share' edit =>
    obtain ⟨name, rfl, named⟩ := swept
    obtain ⟨rfl, -⟩ := condemned
    exact named

end Revocation

/-- A call that has found a share knows it by its name, up to case. -/
def ConfigCall.Named : ConfigCall → Prop
  | .revokesOn share shareName _ | .setsModeOn share shareName _ =>
    share.name.eqIgnoreAsciiCase shareName = true
  | _ => True

/-- A call behind its revocation. -/
def ConfigCall.Swept (r : Revocation) (call : ConfigCall) : Prop :=
  (∃ sweep, call = .sweeps sweep ∧ r.SweptBy sweep) ∨ ∃ result, call = .returned result

section
variable [Crypto] {server server' : ServerState} {call next : ConfigCall}

theorem ConfigSection.named {unvisited : ShareBindings → Text → Prop}
    (c : server.Consistent unvisited) (taken : ConfigSection server call server' next) :
    next.Named := by
  cases taken with
  | foundRevoke shareName user share found => exact ServerState.name_of_findShare c.keyed found
  | foundMode shareName mode share found => exact ServerState.name_of_findShare c.keyed found
  | _ => trivial

/-- A section that revokes goes on with the sweep for it. -/
theorem ConfigSection.swept_of_revokes {unvisited : ShareBindings → Text → Prop}
    (c : server.Consistent unvisited) (taken : ConfigSection server call server' next)
    (named : call.Named) (edit : Nat) (r : Revocation)
    (revokes : call.revokes server edit next = some r) :
    ∃ sweep, next = .sweeps sweep ∧ r.SweptBy sweep := by
  cases taken with
  | removeShare name known =>
    simp only [ConfigCall.revokes, Option.map_eq_some_iff] at revokes
    obtain ⟨share, found, rfl⟩ := revokes
    exact ⟨_, rfl, name, rfl, ServerState.name_of_findShare c.keyed found⟩
  | revoke share shareName user =>
    cases revokes
    exact ⟨_, rfl, shareName, rfl, named⟩
  | setMode share shareName mode other exclusive =>
    cases revokes
    exact ⟨_, rfl, shareName, rfl, named⟩
  | failed _ e unedited =>
    unfold ConfigCall.revokes at revokes
    split at revokes <;> simp_all
  | _ => cases revokes

/-- Behind a revocation there is only the return. -/
theorem ConfigSection.returned_of_swept {r : Revocation} (taken : ConfigSection server call server' next)
    (swept : call.Swept r) : ∃ result, next = .returned result := by
  rcases swept with ⟨sweep, rfl, -⟩ | ⟨result, rfl⟩
  · cases taken <;> exact ⟨_, rfl⟩
  · cases taken <;> exact ⟨_, rfl⟩

end

/-! ### The invariant -/

/-- A task that will come to the tree under `tid` in the session `sref` of connection `cid`. -/
def Task.Covers (cid : UInt64) (sref : Nat) (tid : UInt32) : Task → Prop
  | .live => True
  | .conn cid' => cid' = cid
  | .session sref' => sref' = sref
  | .removeTree sref' tid' => sref' = sref ∧ tid' = tid
  | _ => False

/-- A task that has yet to list the trees of the session. -/
def Task.Lists (cid : UInt64) (sref : Nat) : Task → Prop
  | .live => True
  | .conn cid' => cid' = cid
  | .session sref' => sref' = sref
  | _ => False

theorem Task.Lists.covers {cid : UInt64} {sref : Nat} {task : Task} (lists : task.Lists cid sref)
    (tid : UInt32) : task.Covers cid sref tid := by
  cases task with
  | live | conn | session => exact lists
  | _ => cases lists

namespace LiveState

variable {ι κ : Type}

/-- The next section of a request inserts a tree that has been revoked into a live session whose
trees the sweep has already listed. -/
def LateTree (s : LiveState ι κ) (a : LiveAction ι κ) : Prop :=
  ∃ i sref tid share granted readAt k r cid sid sess,
    a = .advance i ∧ s.requests i = .insertsTree sref tid share granted readAt ∧
      s.revoked k = some r ∧ s.SessionAt cid sid sref sess ∧
        r.Condemns sess.identity share readAt ∧ ∀ task ∈ s.work k, ¬task.Lists cid sref

/-- Every live tree that has been revoked is still in front of the sweep. -/
structure Revoking [Crypto] (s : LiveState ι κ) : Prop where
  rooted : s.Rooted
  config : s.config.Sound
  named : ∀ k, (s.calls k).Named
  swept : ∀ k r, s.revoked k = some r → (s.calls k).Swept r
  covered : ∀ k r, s.revoked k = some r → ∀ cid sid sref sess tid tref tree,
    s.TreeAt cid sid sref sess tid tref tree → r.Condemns sess.identity tree.share tree.readAt →
      ∃ task ∈ s.work k, task.Covers cid sref tid

/-! ### A task hands on what it covers -/

section
variable {s : LiveState ι κ} {k : κ} {sweep : Sweep} {task : Task} {cid sid : UInt64} {sref : Nat}
  {sess : LiveSession} {tid : UInt32} {tref : Nat} {tree : LiveTree}

theorem TreeAt.mem_conns (here : s.TreeAt cid sid sref sess tid tref tree) :
    ∃ sessions, s.conns.lookup cid = some sessions ∧ sref ∈ sessions.vals := by
  obtain ⟨sessions, conn, listed⟩ := Option.bind_eq_some_iff.mp here.found
  exact ⟨sessions, conn, (Table.mem_vals _ _).mpr ⟨sid, listed⟩⟩

theorem TreeAt.mem_matchingTrees (here : s.TreeAt cid sid sref sess tid tref tree)
    (matching : sweep.matchesTree sess.identity tree.share = true) :
    tid ∈ s.matchingTrees sweep sess := by
  apply List.mem_filter.mpr
  constructor
  · exact (Table.mem_keys _ _).mpr ⟨tref, here.listed⟩
  · simp only [here.listed, Option.bind_some, here.tree, Option.any_some, matching]

/-- A tree that is still there behind a task that covered it is covered by one of the new tasks. -/
theorem perform_covers (old : s.TreeAt cid sid sref sess tid tref tree)
    (covers : task.Covers cid sref tid)
    (matching : sweep.matchesTree sess.identity tree.share = true) :
    (∃ task' ∈ (s.perform k sweep task).2, task'.Covers cid sref tid) ∨
      (s.perform k sweep task).1.findTree sref tid = none := by
  -- a task finds the next one on the way from the connections to the tree
  cases task with
  | live =>
    obtain ⟨sessions, conn, -⟩ := old.mem_conns
    left
    exact ⟨.conn cid, List.mem_map.mpr ⟨cid, (Table.mem_keys _ _).mpr ⟨sessions, conn⟩, rfl⟩, rfl⟩
  | conn cid' =>
    obtain rfl : cid' = cid := covers
    obtain ⟨sessions, conn, listed⟩ := old.mem_conns
    left
    simp only [perform, conn]
    cases sweep with
    | sessionsForUser user => cases matching
    | none => cases matching
    | treesForShare | treesForUserShare =>
      exact ⟨.session sref, List.mem_map.mpr ⟨sref, listed, rfl⟩, rfl⟩
  | session sref' =>
    obtain rfl : sref' = sref := covers
    left
    simp only [perform, old.session]
    exact ⟨.removeTree sref' tid, List.mem_map.mpr ⟨tid, old.mem_matchingTrees matching, rfl⟩,
      rfl, rfl⟩
  | removeTree sref' tid' =>
    obtain ⟨rfl, rfl⟩ := covers
    right
    have found : s.findTree sref' tid' = some tref :=
      Option.bind_eq_some_iff.mpr ⟨sess, old.session, old.listed⟩
    simp only [perform, found]
    simp only [findTree, modifySession, List.getElem?_modify, old.session]
    simp
  | removeSession | drainSession | drainTree | close => cases covers

end

/-! ### The steps -/

section
variable [Crypto] {s t : LiveState ι κ}

/-- A tree that is not late is covered from its insertion on. -/
theorem Revoking.insertTree (inv : s.Revoking) {i : ι} {sref : Nat} {tid : UInt32}
    {share : ShareBindings} {granted : Access} {readAt : Nat}
    (here : s.requests i = .insertsTree sref tid share granted readAt)
    (onTime : ¬s.LateTree (.advance i)) :
    (s.insertTree sref tid share granted readAt).Revoking where
  rooted := rooted_insertTree inv.rooted
  config := inv.config
  named := inv.named
  swept := inv.swept
  covered := by
    intro k r revoked cid sid sref' sess tid' tref tree live condemned
    obtain ⟨old, at_, identity, fresh | before⟩ := treeAt_insertTree inv.rooted live
    · obtain ⟨rfl, rfl, share', readAt'⟩ := fresh
      rw [← identity, share', readAt'] at condemned
      -- an uncovered new tree would be a late one
      by_contra uncovered
      apply onTime
      refine ⟨i, sref', tid', share, granted, readAt, k, r, cid, sid, old, rfl, here, revoked, at_,
        condemned, ?_⟩
      intro task listed lists
      exact uncovered ⟨task, listed, lists.covers tid'⟩
    · rw [← identity] at condemned
      exact inv.covered k r revoked cid sid sref' old tid' tref tree before condemned

theorem Revoking.insertSession (inv : s.Revoking) (cid sid : UInt64) (identity : Identity) :
    (s.insertSession cid sid identity).Revoking where
  rooted := rooted_insertSession inv.rooted
  config := inv.config
  named := inv.named
  swept := inv.swept
  covered := by
    intro k r revoked cid' sid' sref sess tid tref tree live condemned
    exact inv.covered k r revoked cid' sid' sref sess tid tref tree
      (treeAt_insertSession inv.rooted live) condemned

variable [DecidableEq κ]

/-- A call that starts. -/
theorem Revoking.call (inv : s.Revoking) (k : κ) (op : ConfigOp) (here : s.calls k = .idle)
    (config : ConfigState.Sound ⟨s.server, Function.update s.calls k (.called op)⟩) :
    Revoking { s with calls := Function.update s.calls k (.called op) } where
  rooted := inv.rooted.of_eq rfl rfl rfl
  config := config
  named := by
    intro k'
    by_cases same : k' = k
    · subst same
      simp only [Function.update_self]
      trivial
    · simpa only [Function.update_of_ne same] using inv.named k'
  swept := by
    intro k' r revoked
    by_cases same : k' = k
    · subst same
      rcases inv.swept k' r revoked with ⟨sweep, there, -⟩ | ⟨result, there⟩
      · rw [here] at there
        cases there
      · rw [here] at there
        cases there
    · simpa only [Function.update_of_ne same] using inv.swept k' r revoked
  covered := by
    intro k' r revoked cid sid sref sess tid tref tree live condemned
    have before : s.TreeAt cid sid sref sess tid tref tree :=
      ⟨⟨live.found, live.session⟩, live.listed, live.tree⟩
    exact inv.covered k' r revoked cid sid sref sess tid tref tree before condemned

/-- A section of a call. A revocation starts with a sweep that covers every live tree. -/
theorem Revoking.configure (inv : s.Revoking) (k : κ) (server : ServerState) (next : ConfigCall)
    (taken : ConfigSection s.server (s.calls k) server next) (worked : s.work k = [])
    (config : ConfigState.Sound ⟨server, Function.update s.calls k next⟩) :
    (s.configure k server next).Revoking where
  rooted := inv.rooted.of_eq rfl rfl rfl
  config := config
  named := by
    intro k'
    by_cases same : k' = k
    · subst same
      simp only [LiveState.configure, Function.update_self]
      exact taken.named inv.config.consistent
    · simpa only [LiveState.configure, Function.update_of_ne same] using inv.named k'
  swept := by
    intro k' r revoked
    by_cases same : k' = k
    · subst same
      simp only [LiveState.configure, Function.update_self] at revoked ⊢
      cases now : (s.calls k').revokes s.server (s.edits + 1) next with
      | some r' =>
        rw [now] at revoked
        cases revoked
        exact Or.inl (taken.swept_of_revokes inv.config.consistent (inv.named k') _ r now)
      | none =>
        rw [now] at revoked
        exact Or.inr (taken.returned_of_swept (inv.swept k' r revoked))
    · simp only [LiveState.configure, Function.update_of_ne same] at revoked ⊢
      exact inv.swept k' r revoked
  covered := by
    intro k' r revoked cid sid sref sess tid tref tree live condemned
    have before : s.TreeAt cid sid sref sess tid tref tree :=
      ⟨⟨live.found, live.session⟩, live.listed, live.tree⟩
    by_cases same : k' = k
    · subst same
      simp only [LiveState.configure, Function.update_self] at revoked ⊢
      cases now : (s.calls k').revokes s.server (s.edits + 1) next with
      | some r' =>
        obtain ⟨sweep, rfl, -⟩ := taken.swept_of_revokes inv.config.consistent (inv.named k') _ r' now
        exact ⟨.live, List.mem_singleton_self _, trivial⟩
      | none =>
        -- the sweep of an older revocation has come to its end
        rw [now] at revoked
        obtain ⟨task, listed, -⟩ :=
          inv.covered k' r revoked cid sid sref sess tid tref tree before condemned
        rw [worked] at listed
        cases listed
    · simp only [LiveState.configure, Function.update_of_ne same] at revoked ⊢
      exact inv.covered k' r revoked cid sid sref sess tid tref tree before condemned

/-- A task of a sweep. -/
theorem Revoking.sweep (inv : s.Revoking) (k : κ) (sweep : Sweep) (task : Task)
    (rest found : List Task) (sweeps : s.calls k = .sweeps sweep) (next : s.work k = task :: rest)
    (order : found.Perm (s.perform k sweep task).2) :
    Revoking { (s.perform k sweep task).1 with
      work := Function.update s.work k (found ++ rest) } := by
  have within := s.perform_within k sweep task
  have config := s.perform_config k sweep task
  have calls : (s.perform k sweep task).1.calls = s.calls := congrArg ConfigState.calls config
  have revoked := (s.perform_revoked k sweep task).1
  constructor
  case rooted => exact (within.rooted inv.rooted).of_eq rfl rfl rfl
  case config =>
    have same : (s.perform k sweep task).1.config.Sound := config ▸ inv.config
    exact same
  case named =>
    intro k'
    simp only [calls]
    exact inv.named k'
  case swept =>
    intro k' r here
    simp only [revoked] at here
    simp only [calls]
    exact inv.swept k' r here
  case covered =>
    intro k' r here cid sid sref sess tid tref tree live condemned
    simp only [revoked] at here
    have live' : (s.perform k sweep task).1.TreeAt cid sid sref sess tid tref tree :=
      ⟨⟨live.found, live.session⟩, live.listed, live.tree⟩
    obtain ⟨old, oldTree, before, identity, share, readAt⟩ := within.treeAt live'
    rw [← identity, ← share, ← readAt] at condemned
    obtain ⟨covering, listed, covers⟩ :=
      inv.covered k' r here cid sid sref old tid tref oldTree before condemned
    -- only the tasks of `k` have changed: what covered the tree is done, or still waits
    by_cases same : k' = k
    · subst same
      simp only [Function.update_self]
      rw [next] at listed
      rcases List.mem_cons.mp listed with rfl | later
      · have swept : r.SweptBy sweep := by
          rcases inv.swept k' r here with ⟨sweep', there, swept⟩ | ⟨result, there⟩
          · rw [sweeps] at there
            cases there
            exact swept
          · rw [sweeps] at there
            cases there
        rcases perform_covers (k := k') before covers (swept.matchesTree condemned) with
          ⟨task', new, covers'⟩ | gone
        · exact ⟨task', List.mem_append_left _ (order.mem_iff.mpr new), covers'⟩
        · -- the tree is still there, so the task has not removed it
          have still : (s.perform k' sweep covering).1.findTree sref tid = some tref :=
            Option.bind_eq_some_iff.mpr ⟨sess, live.session, live.listed⟩
          rw [gone] at still
          cases still
      · exact ⟨covering, List.mem_append_right _ later, covers⟩
    · simp only [Function.update_of_ne same]
      exact ⟨covering, listed, covers⟩

end

end LiveState

section
variable {ι κ : Type} [DecidableEq ι] [DecidableEq κ] {σ η : Type} [Host σ η] [Crypto]

end

/-! ### Two runs -/

open scoped Sample

namespace Sample

/-- The anonymous logon and a TREE_CONNECT to a public share, up to its authorization. -/
def authorized : List (LiveAction Bool Unit) :=
  [.accept 1,
    .request false (.setup 1 1 (NtlmServer.new (ByteVec.zero 8) ⟨[], [], [], [], []⟩ 0)
      (Client.ntlmAuthenticate [] [])),
    .advance false, .advance false, .advance false,
    .request true (.treeConnect 1 1 ['w']),
    .advance true, .advance true, .advance true]

/-- `remove_share`, from the call to the return; one connection with one session. -/
def removal : List (LiveAction Bool Unit) :=
  [.call () (.removeShare ['w']), .config (), .sweep (), .sweep (), .sweep (), .config ()]

end Sample

end SmbServer
