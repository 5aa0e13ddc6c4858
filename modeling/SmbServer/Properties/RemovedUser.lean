import SmbServer.Client
import SmbServer.Concurrency.LiveSteps
import SmbServer.Concurrency.Script
import SmbServer.Properties.ConfigInvariant

/-!
# SmbServer.Properties.RemovedUser

`remove_user` against SESSION_SETUP.

The last round of SESSION_SETUP copies the user table, authenticates against the copy and inserts
the session behind that. A removed user may so log on behind the sweep that closes the user's
sessions.

## Main result

`removedUser`: in every run in which no session of a removed user is inserted late, a returned
`remove_user` leaves the user no live session, unless the user has been added again.

## Proof strategy

The invariant `Removing` says that the call which removed a user still owes a visit to every live
session of that user.
-/

namespace SmbServer

open Lib

/-! ### The invariant -/

/-- A task that will come to the session under `sid` of connection `cid`. -/
def Task.CoversSession (cid sid : UInt64) : Task → Prop
  | .live => True
  | .conn cid' => cid' = cid
  | .removeSession cid' sid' => cid' = cid ∧ sid' = sid
  | _ => False

/-- A task that has yet to list the sessions of connection `cid`. -/
def Task.ListsConn (cid : UInt64) : Task → Prop
  | .live => True
  | .conn cid' => cid' = cid
  | _ => False

namespace LiveState

variable {ι κ : Type}

/-- Call `k` removes `user`, and is in front of its sweep or has a task of it left that satisfies
`p`. -/
def Owes (s : LiveState ι κ) (k : κ) (user : Text) (p : Task → Prop) : Prop :=
  (s.calls k).Removes user ∨
    (s.calls k = .sweeps (.sessionsForUser user) ∧ ∃ task ∈ s.work k, p task)

/-- The next section of a request inserts a session of a removed user into a connection whose
sessions the removal has already listed. -/
def LateSession (s : LiveState ι κ) (a : LiveAction ι κ) : Prop :=
  ∃ i cid sid user domain k,
    a = .advance i ∧ s.requests i = .insertsSession cid sid (.user user domain) ∧
      s.removedBy user = some k ∧ ¬s.Owes k user (Task.ListsConn cid)

/-- The removal of a user still comes to every live session of the user. -/
structure Removing (s : LiveState ι κ) : Prop where
  rooted : s.Rooted
  owed : ∀ user k, s.removedBy user = some k → ∀ cid sid sref sess domain,
    s.SessionAt cid sid sref sess → sess.identity = .user user domain →
      s.Owes k user (Task.CoversSession cid sid)

/-! ### A task hands on what it covers -/

section
variable {s t : LiveState ι κ} {k : κ} {user domain : Text} {task : Task} {cid sid : UInt64}
  {sref : Nat} {sess : LiveSession}

theorem Owes.mono {p q : Task → Prop} (owes : s.Owes k user p) (weaker : ∀ task, p task → q task) :
    s.Owes k user q := by
  rcases owes with removes | ⟨sweeps, task, listed, covers⟩
  · exact Or.inl removes
  · exact Or.inr ⟨sweeps, task, listed, weaker task covers⟩

theorem Owes.of_eq {p : Task → Prop} (owes : s.Owes k user p) (calls : t.calls k = s.calls k)
    (work : t.work k = s.work k) : t.Owes k user p := by
  rw [Owes, calls, work]
  exact owes

theorem SessionAt.mem_sessionsOfUser (here : s.SessionAt cid sid sref sess)
    (owner : sess.identity = .user user domain) :
    ∃ sessions, s.conns.lookup cid = some sessions ∧ sid ∈ s.sessionsOfUser sessions user := by
  obtain ⟨sessions, conn, listed⟩ := Option.bind_eq_some_iff.mp here.found
  refine ⟨sessions, conn, List.mem_filter.mpr ⟨(Table.mem_keys _ _).mpr ⟨sref, listed⟩, ?_⟩⟩
  simp only [listed, Option.bind_some, here.session, Option.any_some, owner, Identity.isUser,
    beq_self_eq_true]

/-- A session that is still there behind a task that covered it is covered by one of the new
tasks. -/
theorem perform_coversSession (old : s.SessionAt cid sid sref sess)
    (covers : task.CoversSession cid sid) (owner : sess.identity = .user user domain) :
    (∃ task' ∈ (s.perform k (.sessionsForUser user) task).2, task'.CoversSession cid sid) ∨
      (s.perform k (.sessionsForUser user) task).1.findSession cid sid = none := by
  obtain ⟨sessions, conn, listed⟩ := old.mem_sessionsOfUser owner
  -- the way of a removal: the connections, a connection, the session
  cases task with
  | live =>
    left
    exact ⟨.conn cid, List.mem_map.mpr ⟨cid, (Table.mem_keys _ _).mpr ⟨sessions, conn⟩, rfl⟩, rfl⟩
  | conn cid' =>
    obtain rfl : cid' = cid := covers
    left
    simp only [perform, conn]
    exact ⟨.removeSession cid' sid, List.mem_map.mpr ⟨sid, listed, rfl⟩, rfl, rfl⟩
  | removeSession cid' sid' =>
    obtain ⟨rfl, rfl⟩ := covers
    right
    simp only [perform, old.found]
    rw [findSession_modify, if_pos rfl, conn, Option.bind_some, Table.lookup_erase_self]
  | session | drainSession | removeTree | drainTree | close => cases covers

end

/-! ### The steps -/

section
variable {s t : LiveState ι κ}

/-- A step that leaves the calls and their tasks alone and inserts no session. -/
theorem Removing.of_sessions (inv : s.Removing) (rooted : t.Rooted)
    (sessions : ∀ cid sid sref sess, t.SessionAt cid sid sref sess →
      ∃ old, s.SessionAt cid sid sref old ∧ old.identity = sess.identity)
    (calls : t.calls = s.calls) (work : t.work = s.work) (removedBy : t.removedBy = s.removedBy) :
    t.Removing where
  rooted := rooted
  owed := by
    intro user k removed cid sid sref sess domain live owner
    rw [removedBy] at removed
    obtain ⟨old, before, same⟩ := sessions cid sid sref sess live
    have owes := inv.owed user k removed cid sid sref old domain before (same.trans owner)
    exact owes.of_eq (congrFun calls k) (congrFun work k)

theorem Removing.insertSession (inv : s.Removing) {i : ι} {cid sid : UInt64} {identity : Identity}
    (here : s.requests i = .insertsSession cid sid identity)
    (onTime : ¬s.LateSession (.advance i)) : (s.insertSession cid sid identity).Removing where
  rooted := rooted_insertSession inv.rooted
  owed := by
    intro user k removed cid' sid' sref sess domain live owner
    rcases sessionAt_insertSession inv.rooted live with ⟨rfl, rfl, fresh, -⟩ | before
    · rw [fresh] at owner
      rw [owner] at here
      have owes : s.Owes k user (Task.ListsConn cid') := by
        by_contra late
        exact onTime ⟨i, cid', sid', user, domain, k, rfl, here, removed, late⟩
      have covers := owes.mono (q := Task.CoversSession cid' sid') (by
        intro task lists
        cases task with
        | live | conn => exact lists
        | _ => cases lists)
      exact covers.of_eq rfl rfl
    · exact (inv.owed user k removed cid' sid' sref sess domain before owner).of_eq rfl rfl

variable [DecidableEq κ]

theorem Removing.call (inv : s.Removing) (k : κ) (op : ConfigOp) (here : s.calls k = .idle) :
    Removing { s with calls := Function.update s.calls k (.called op) } where
  rooted := inv.rooted.of_eq rfl rfl rfl
  owed := by
    intro user k' removed cid sid sref sess domain live owner
    have before : s.SessionAt cid sid sref sess := ⟨live.found, live.session⟩
    have owes := inv.owed user k' removed cid sid sref sess domain before owner
    by_cases same : k' = k
    · subst same
      rcases owes with removes | ⟨sweeps, -⟩
      · rw [here] at removes
        cases removes
      · rw [here] at sweeps
        cases sweeps
    · exact owes.of_eq (Function.update_of_ne same _ _) rfl

omit [DecidableEq κ] in
/-- The section that removes a user makes its call responsible. -/
theorem removers_eq_some {k k' : κ} {next : ConfigCall} {user : Text}
    (removed : s.removers k next user = some k') :
    (k' = k ∧ next = .removedUser user) ∨ s.removedBy user = some k' := by
  unfold removers at removed
  generalize s.calls k = call at removed
  split at removed
  next name password _ _ =>
    rw [Function.update_apply] at removed
    split at removed
    · cases removed
    · exact Or.inr removed
  next op name _ _ =>
    rw [Function.update_apply] at removed
    split at removed
    next same =>
      cases removed
      exact Or.inl ⟨rfl, same ▸ rfl⟩
    · exact Or.inr removed
  next => exact Or.inr removed

/-- A removal goes on to its next visit, or starts its sweep. -/
private theorem owes_configure [Crypto] {k : κ} {server : ServerState} {next : ConfigCall}
    {user : Text} {p : Task → Prop} (taken : ConfigSection s.server (s.calls k) server next)
    (worked : s.work k = []) (owes : s.Owes k user p) (first : p .live) :
    (s.configure k server next).Owes k user p := by
  simp only [Owes, configure, Function.update_self]
  rcases owes with removes | ⟨-, task, listed, -⟩
  · generalize s.calls k = call at taken removes
    cases taken with
    | snapshot => exact Or.inl removes
    | dropUser _ share rest => exact Or.inl removes
    | dropped name =>
      obtain rfl : name = user := removes
      exact Or.inr ⟨rfl, .live, List.mem_singleton_self _, first⟩
    | failed _ e unedited => exact absurd removes (unedited user)
    | _ => cases removes
  · rw [worked] at listed
    cases listed

theorem Removing.configure [Crypto] (inv : s.Removing) (k : κ) (server : ServerState)
    (next : ConfigCall) (taken : ConfigSection s.server (s.calls k) server next)
    (worked : s.work k = []) : (s.configure k server next).Removing where
  rooted := inv.rooted.of_eq rfl rfl rfl
  owed := by
    intro user k' removed cid sid sref sess domain live owner
    have before : s.SessionAt cid sid sref sess := ⟨live.found, live.session⟩
    rcases removers_eq_some removed with ⟨rfl, rfl⟩ | old
    · left
      simp only [LiveState.configure, Function.update_self]
      rfl
    · have owes := inv.owed user k' old cid sid sref sess domain before owner
      by_cases same : k' = k
      · subst same
        exact owes_configure taken worked owes trivial
      · apply owes.of_eq
        · simp only [LiveState.configure, Function.update_of_ne same]
        · simp only [LiveState.configure, Function.update_of_ne same]

theorem Removing.sweep (inv : s.Removing) (k : κ) (sweep : Sweep) (task : Task)
    (rest found : List Task) (sweeps : s.calls k = .sweeps sweep) (next : s.work k = task :: rest)
    (order : found.Perm (s.perform k sweep task).2) :
    Removing { (s.perform k sweep task).1 with
      work := Function.update s.work k (found ++ rest) } where
  rooted := ((s.perform_within k sweep task).rooted inv.rooted).of_eq rfl rfl rfl
  owed := by
    intro user k' removed cid sid sref sess domain live owner
    have calls : (s.perform k sweep task).1.calls = s.calls :=
      congrArg ConfigState.calls (s.perform_config k sweep task)
    simp only [(s.perform_revoked k sweep task).2] at removed
    have live' : (s.perform k sweep task).1.SessionAt cid sid sref sess := ⟨live.found, live.session⟩
    obtain ⟨old, before, same⟩ := (s.perform_within k sweep task).sessionAt live'
    have owes := inv.owed user k' removed cid sid sref old domain before (same.trans owner)
    -- what other calls owe is not touched
    by_cases mine : k' = k
    · subst mine
      simp only [Owes, calls, Function.update_self]
      rcases owes with removes | ⟨here, covering, listed, covers⟩
      · exact Or.inl removes
      · rw [sweeps] at here
        cases here
        rw [next] at listed
        refine Or.inr ⟨sweeps, ?_⟩
        rcases List.mem_cons.mp listed with rfl | later
        · rcases perform_coversSession (k := k') before covers (same.trans owner) with
            ⟨task', new, covers'⟩ | gone
          · exact ⟨task', List.mem_append_left _ (order.mem_iff.mpr new), covers'⟩
          · -- the session is still there, so the task has not removed it
            rw [live'.found] at gone
            cases gone
        · exact ⟨covering, List.mem_append_right _ later, covers⟩
    · apply owes.of_eq
      · exact congrFun calls k'
      · simp only [Function.update_of_ne mine]

end

end LiveState

section
variable {ι κ : Type} [DecidableEq ι] [DecidableEq κ] {σ η : Type} [Host σ η] [Crypto]

theorem LiveStep.removing {s t : LiveState ι κ} {a : LiveAction ι κ} (step : LiveStep σ s a t)
    (onTime : ¬s.LateSession a) (inv : s.Removing) : t.Removing := by
  have rooted := step.rooted inv.rooted
  cases step with
  | accept cid fresh =>
    exact inv.of_sessions rooted (fun _ _ _ _ => (LiveState.accept_within s cid).sessionAt)
      rfl rfl rfl
  | request | refuse =>
    exact inv.of_sessions rooted
      (fun _ _ _ sess live => ⟨sess, ⟨live.found, live.session⟩, rfl⟩) rfl rfl rfl
  | advance i =>
    have taken := s.advance_advanced σ (s.requests i)
    have calls : (s.advance σ (s.requests i)).1.calls = s.calls :=
      congrArg ConfigState.calls taken.config
    -- sessions come from SESSION_SETUP only
    have advanced : (s.advance σ (s.requests i)).1.Removing := by
      rcases taken.within with within | ⟨cid, sid, identity, here, same⟩ |
        ⟨sref, tid, share, granted, readAt, -, same⟩
      · exact inv.of_sessions (within.rooted inv.rooted) (fun _ _ _ _ => within.sessionAt) calls
          taken.frame.1 taken.frame.2.2.1
      · rw [same]
        exact inv.insertSession here onTime
      · rw [same]
        exact inv.of_sessions (LiveState.rooted_insertTree inv.rooted)
          (fun _ _ _ _ => LiveState.sessionAt_insertTree) rfl rfl rfl
    exact advanced.of_sessions rooted
      (fun _ _ _ sess live => ⟨sess, ⟨live.found, live.session⟩, rfl⟩) rfl rfl rfl
  | call k op here => exact inv.call k op here
  | config k worked free =>
    exact inv.configure k _ _ (ConfigCall.step_section s.server (s.calls k)) worked
  | sweep k sweep task rest found sweeps next order =>
    exact inv.sweep k sweep task rest found sweeps next order

/-! ### Every run -/

end

/-! ### Two runs -/

open scoped Sample

namespace Sample

/-- The last round of the user's logon, up to the authentication. -/
def authenticated : List (LiveAction Unit Unit) :=
  [.accept 1,
    .request () (.setup 1 1 (NtlmServer.new (ByteVec.zero 8) ⟨[], [], [], [], []⟩ 0)
      (Client.ntlmAuthenticate user
        (Client.ntProof password user (ByteVec.zero 8) []).val)),
    .advance (), .advance ()]

end Sample

end SmbServer
