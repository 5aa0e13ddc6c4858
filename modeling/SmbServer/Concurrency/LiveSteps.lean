import SmbServer.Concurrency.Live

/-!
# SmbServer.Concurrency.LiveSteps

What the sections of requests and of sweeps do to the tables: what is in a table afterwards was
there before, apart from what the section inserts.
-/

namespace SmbServer

open Lib

namespace Request

/-- After an error a request goes on with what it holds. -/
theorem refused_keeps {r next : Request} (refused : r.refused = some next) :
    next.handle = r.handle ∧ ∀ tref, next.Holds tref → r.Holds tref := by
  cases r with
  | idle | registers | closes | done => cases refused
  | stats tref h =>
    cases refused
    exact ⟨rfl, fun _ => id⟩
  | _ =>
    cases refused
    exact ⟨rfl, fun _ holds => absurd holds id⟩

theorem Arrives.empty {r : Request} (arrives : r.Arrives) :
    r.handle = none ∧ ∀ tref, ¬r.Holds tref := by
  cases r with
  | setup | treeConnect | create => exact ⟨rfl, fun _ => id⟩
  | _ => exact absurd arrives id

end Request

/-- A task that drains a tree or closes a handle. -/
def Task.Drains : Task → Prop
  | .drainTree _ | .close _ => True
  | _ => False

namespace LiveState

variable {ι κ : Type}

/-! ### Sections of requests -/

/-- A section of a request, with what it edits; `next` keeps the handle that the request holds
unless the section says otherwise, and works on a tree it has found. -/
inductive Advanced (s : LiveState ι κ) : Request → LiveState ι κ → Request → Prop where
  | same (r next : Request) (keeps : next.handle = r.handle)
      (found : ∀ tref, next.Holds tref → r.Holds tref ∨ ∃ sref tid, s.findTree sref tid = some tref) :
      Advanced s r s next
  | insertSession (cid sid : UInt64) (identity : Identity) :
      Advanced s (.insertsSession cid sid identity) (s.insertSession cid sid identity) .done
  | allocTreeId (sref : Nat) (tid : UInt32) (share : ShareBindings) (granted : Access)
      (readAt : Nat) :
      Advanced s (.allocsTreeId sref share granted readAt)
        (s.modifySession sref fun sess => { sess with nextTreeId := sess.nextTreeId + 1 })
        (.insertsTree sref tid share granted readAt)
  | insertTree (sref : Nat) (tid : UInt32) (share : ShareBindings) (granted : Access)
      (readAt : Nat) :
      Advanced s (.insertsTree sref tid share granted readAt)
        (s.insertTree sref tid share granted readAt) .done
  | openHandle (tref : Nat) :
      Advanced s (.opens tref) { s with handles := s.handles ++ [⟨tref, false⟩] }
        (.stats tref s.handles.length)
  -- the tree may have been taken out of its session
  | registerOpen (tref handle : Nat) :
      Advanced s (.registers tref handle) (s.registerOpen tref handle) .done
  | closeHandle (tref handle : Nat) :
      Advanced s (.closes tref handle) (s.closeHandle handle) .done

theorem advance_advanced (σ : Type) {η : Type} [Host σ η] [Crypto] (s : LiveState ι κ)
    (r : Request) : s.Advanced r (s.advance σ r).1 (s.advance σ r).2 := by
  -- a section that finds nothing ends the request, and edits nothing
  cases r with
  | idle => exact .same _ _ rfl fun _ => Or.inl
  | setup cid sid acceptor token => exact .same _ _ rfl fun _ => Or.inl
  | authenticates cid sid acceptor token users =>
    simp only [advance]
    split
    · exact .same _ _ rfl fun _ => Or.inl
    · exact .same _ _ rfl fun _ => Or.inl
  | insertsSession cid sid identity => exact .insertSession cid sid identity
  | treeConnect cid sid shareName =>
    simp only [advance]
    split
    · exact .same _ _ rfl fun _ => Or.inl
    · exact .same _ _ rfl fun _ => Or.inl
  | findsShare sref shareName =>
    simp only [advance]
    split
    · exact .same _ _ rfl fun _ => Or.inl
    · exact .same _ _ rfl fun _ => Or.inl
  | authorizes sref share =>
    simp only [advance]
    split
    · exact .same _ _ rfl fun _ => Or.inl
    · exact .same _ _ rfl fun _ => Or.inl
  | allocsTreeId sref share granted readAt =>
    simp only [advance]
    split
    · exact .same _ _ rfl fun _ => Or.inl
    · exact .allocTreeId sref _ share granted readAt
  | insertsTree sref tid share granted readAt => exact .insertTree sref tid share granted readAt
  | create cid sid tid =>
    simp only [advance]
    split
    · exact .same _ _ rfl fun _ => Or.inl
    · exact .same _ _ rfl fun _ => Or.inl
  | findsTree sref tid =>
    simp only [advance]
    split
    · exact .same _ _ rfl fun _ => Or.inl
    next tref found =>
      refine .same _ _ rfl ?_
      rintro tref' rfl
      exact Or.inr ⟨sref, tid, found⟩
  | opens tref => exact .openHandle tref
  | stats tref handle => exact .same _ _ rfl fun _ => Or.inl
  | registers tref handle => exact .registerOpen tref handle
  | closes tref handle => exact .closeHandle tref handle
  | done => exact .same _ _ rfl fun _ => Or.inl

/-! ### Tasks of sweeps -/

/-- A task of call `k`, with what it edits and the tasks that follow from it. Most tasks only make
a list, of tasks that neither drain a tree nor close a handle. -/
inductive Performed (s : LiveState ι κ) (k : κ) : Task → LiveState ι κ → List Task → Prop where
  | lists (task : Task) (found : List Task) (quiet : ¬task.Drains)
      (quiets : ∀ next ∈ found, ¬next.Drains) : Performed s k task s found
  | removeSession (cid sid : UInt64) (sref : Nat) (found : s.findSession cid sid = some sref) :
      Performed s k (.removeSession cid sid)
        { s with conns := s.conns.modify cid fun sessions => sessions.erase sid }
        [.drainSession sref]
  | drainSession (sref : Nat) (sess : LiveSession) (here : s.sessions[sref]? = some sess) :
      Performed s k (.drainSession sref)
        { s.modifySession sref fun sess => { sess with trees := Table.empty } with
          closedBy := s.closers k sess.trees.vals }
        (sess.trees.vals.map .drainTree)
  | removeTree (sref : Nat) (tid : UInt32) (tref : Nat) (found : s.findTree sref tid = some tref) :
      Performed s k (.removeTree sref tid)
        { s.modifySession sref fun sess => { sess with trees := sess.trees.erase tid } with
          closedBy := s.closers k [tref] }
        [.drainTree tref]
  | noTree (tref : Nat) (missing : s.trees[tref]? = none) : Performed s k (.drainTree tref) s []
  | drainTree (tref : Nat) (tree : LiveTree) (here : s.trees[tref]? = some tree) :
      Performed s k (.drainTree tref)
        (s.modifyTree tref fun tree => { tree with opens := Table.empty })
        (tree.opens.vals.map .close)
  | close (handle : Nat) : Performed s k (.close handle) (s.closeHandle handle) []

theorem perform_performed (s : LiveState ι κ) (k : κ) (sweep : Sweep) (task : Task) :
    s.Performed k task (s.perform k sweep task).1 (s.perform k sweep task).2 := by
  have nothing : ∀ next ∈ ([] : List Task), ¬next.Drains := by
    intro next listed
    cases listed
  -- the lists of tasks that only look for further ones
  have mapped : ∀ {α : Type} (f : α → Task), (∀ a, ¬(f a).Drains) → ∀ (as : List α),
      ∀ next ∈ as.map f, ¬next.Drains := by
    intro α f quiet as next listed
    obtain ⟨a, -, rfl⟩ := List.mem_map.mp listed
    exact quiet a
  cases task with
  | live => exact .lists _ _ id (mapped _ (fun _ => id) _)
  | conn cid =>
    simp only [perform]
    split
    · exact .lists _ _ id nothing
    · split
      · exact .lists _ _ id (mapped _ (fun _ => id) _)
      · exact .lists _ _ id (mapped _ (fun _ => id) _)
  | session sref =>
    simp only [perform]
    split
    · exact .lists _ _ id nothing
    · exact .lists _ _ id (mapped _ (fun _ => id) _)
  | removeSession cid sid =>
    simp only [perform]
    split
    · exact .lists _ _ id nothing
    next sref found => exact .removeSession cid sid sref found
  | drainSession sref =>
    simp only [perform]
    split
    · exact .lists _ _ id nothing
    next sess here => exact .drainSession sref sess here
  | removeTree sref tid =>
    simp only [perform]
    split
    · exact .lists _ _ id nothing
    next tref found => exact .removeTree sref tid tref found
  | drainTree tref =>
    simp only [perform]
    split
    next missing => exact .noTree tref missing
    next tree here => exact .drainTree tref tree here
  | close handle => exact .close handle

/-! ### What is where -/

/-- A session in the table of a live connection. -/
structure SessionAt (s : LiveState ι κ) (cid sid : UInt64) (sref : Nat) (sess : LiveSession) :
    Prop where
  found : s.findSession cid sid = some sref
  session : s.sessions[sref]? = some sess

/-- A tree in the table of a live session. -/
structure TreeAt (s : LiveState ι κ) (cid sid : UInt64) (sref : Nat) (sess : LiveSession)
    (tid : UInt32) (tref : Nat) (tree : LiveTree) : Prop extends s.SessionAt cid sid sref sess where
  listed : sess.trees.lookup tid = some tref
  tree : s.trees[tref]? = some tree

/-- Every arc in a table is one that has been handed out. -/
structure Rooted (s : LiveState ι κ) : Prop where
  sessions : ∀ cid sid sref, s.findSession cid sid = some sref → sref < s.sessions.length
  trees : ∀ sref tid tref, s.findTree sref tid = some tref → tref < s.trees.length

theorem rooted_start (server : ServerState) : (start server : LiveState ι κ).Rooted where
  sessions := by
    intro cid sid sref found
    cases found
  trees := by
    intro sref tid tref found
    cases found

/-- The tables of `t` hold nothing that those of `s` do not hold. -/
structure Within (t s : LiveState ι κ) : Prop where
  conns : ∀ cid sid sref, t.findSession cid sid = some sref → s.findSession cid sid = some sref
  sessions : ∀ (sref : Nat) (sess : LiveSession), t.sessions[sref]? = some sess →
    ∃ old : LiveSession, s.sessions[sref]? = some old ∧ old.identity = sess.identity ∧
      ∀ tid tref, sess.trees.lookup tid = some tref → old.trees.lookup tid = some tref
  trees : ∀ (tref : Nat) (tree : LiveTree), t.trees[tref]? = some tree →
    ∃ old : LiveTree, s.trees[tref]? = some old ∧
      old.share = tree.share ∧ old.readAt = tree.readAt
  sessionCount : t.sessions.length = s.sessions.length
  treeCount : t.trees.length = s.trees.length

namespace Within

variable {s t : LiveState ι κ}

theorem of_eq (conns : t.conns = s.conns) (sessions : t.sessions = s.sessions)
    (trees : t.trees = s.trees) : t.Within s where
  conns := by
    intro cid sid sref found
    rw [findSession, conns] at found
    exact found
  sessions := by
    intro sref sess found
    rw [sessions] at found
    exact ⟨sess, found, rfl, fun _ _ => id⟩
  trees := by
    intro tref tree found
    rw [trees] at found
    exact ⟨tree, found, rfl, rfl⟩
  sessionCount := by rw [sessions]
  treeCount := by rw [trees]

theorem findTree (w : t.Within s) {sref tref : Nat} {tid : UInt32}
    (found : t.findTree sref tid = some tref) : s.findTree sref tid = some tref := by
  obtain ⟨sess, here, listed⟩ := Option.bind_eq_some_iff.mp found
  obtain ⟨old, before, -, kept⟩ := w.sessions sref sess here
  exact Option.bind_eq_some_iff.mpr ⟨old, before, kept tid tref listed⟩

theorem rooted (w : t.Within s) (rooted : s.Rooted) : t.Rooted where
  sessions := by
    intro cid sid sref found
    rw [w.sessionCount]
    exact rooted.sessions cid sid sref (w.conns cid sid sref found)
  trees := by
    intro sref tid tref found
    rw [w.treeCount]
    exact rooted.trees sref tid tref (w.findTree found)

theorem sessionAt (w : t.Within s) {cid sid : UInt64} {sref : Nat} {sess : LiveSession}
    (here : t.SessionAt cid sid sref sess) :
    ∃ old, s.SessionAt cid sid sref old ∧ old.identity = sess.identity := by
  obtain ⟨old, before, same, -⟩ := w.sessions sref sess here.session
  exact ⟨old, ⟨w.conns cid sid sref here.found, before⟩, same⟩

theorem treeAt (w : t.Within s) {cid sid : UInt64} {sref : Nat} {sess : LiveSession} {tid : UInt32}
    {tref : Nat} {tree : LiveTree} (here : t.TreeAt cid sid sref sess tid tref tree) :
    ∃ old oldTree, s.TreeAt cid sid sref old tid tref oldTree ∧ old.identity = sess.identity ∧
      oldTree.share = tree.share ∧ oldTree.readAt = tree.readAt := by
  obtain ⟨old, before, same, kept⟩ := w.sessions sref sess here.session
  obtain ⟨oldTree, beforeTree, share, readAt⟩ := w.trees tref tree here.tree
  exact ⟨old, oldTree, ⟨⟨w.conns cid sid sref here.found, before⟩, kept tid tref here.listed,
    beforeTree⟩, same, share, readAt⟩

end Within

/-! ### Edits of single objects -/

theorem findSession_modify (s : LiveState ι κ) (cid cid' sid : UInt64)
    (f : Table UInt64 Nat → Table UInt64 Nat) :
    findSession { s with conns := s.conns.modify cid f } cid' sid =
      if cid' = cid then (s.conns.lookup cid').bind fun sessions => (f sessions).lookup sid
      else s.findSession cid' sid := by
  simp only [findSession, Table.lookup_modify]
  split
  · cases s.conns.lookup cid' <;> rfl
  · rfl

/-- A session whose table loses entries. -/
theorem modifySession_within (s : LiveState ι κ) (sref : Nat) (f : LiveSession → LiveSession)
    (identity : ∀ sess, (f sess).identity = sess.identity)
    (trees : ∀ sess tid tref, (f sess).trees.lookup tid = some tref →
      sess.trees.lookup tid = some tref) : (s.modifySession sref f).Within s where
  conns := fun _ _ _ found => found
  sessions := by
    intro sref' sess found
    simp only [modifySession, List.getElem?_modify] at found
    obtain ⟨old, before, rfl⟩ := Option.map_eq_some_iff.mp found
    refine ⟨old, before, ?_, ?_⟩
    · split
      · exact (identity old).symm
      · rfl
    -- the entries that `f` keeps were there
    · intro tid tref listed
      split at listed
      · exact trees old tid tref listed
      · exact listed
  trees := fun tref tree found => ⟨tree, found, rfl, rfl⟩
  sessionCount := List.length_modify ..
  treeCount := rfl

theorem modifyTree_within (s : LiveState ι κ) (tref : Nat) (f : LiveTree → LiveTree)
    (share : ∀ tree, (f tree).share = tree.share) (readAt : ∀ tree, (f tree).readAt = tree.readAt) :
    (s.modifyTree tref f).Within s where
  conns := fun _ _ _ found => found
  sessions := fun _ sess found => ⟨sess, found, rfl, fun _ _ => id⟩
  trees := by
    intro tref' tree found
    simp only [modifyTree, List.getElem?_modify] at found
    obtain ⟨old, before, rfl⟩ := Option.map_eq_some_iff.mp found
    refine ⟨old, before, ?_, ?_⟩
    · split
      · exact (share old).symm
      · rfl
    · split
      · exact (readAt old).symm
      · rfl
  sessionCount := rfl
  treeCount := List.length_modify ..

theorem removeSession_within (s : LiveState ι κ) (cid sid : UInt64) :
    Within { s with conns := s.conns.modify cid fun sessions => sessions.erase sid } s where
  conns := by
    intro cid' sid' sref found
    rw [findSession_modify] at found
    split at found
    · obtain ⟨sessions, here, listed⟩ := Option.bind_eq_some_iff.mp found
      rw [Table.lookup_erase] at listed
      split at listed
      · cases listed
      · exact Option.bind_eq_some_iff.mpr ⟨sessions, here, listed⟩
    · exact found
  sessions := fun _ sess found => ⟨sess, found, rfl, fun _ _ => id⟩
  trees := fun _ tree found => ⟨tree, found, rfl, rfl⟩
  sessionCount := rfl
  treeCount := rfl

theorem drainSession_within (s : LiveState ι κ) (sref : Nat) :
    (s.modifySession sref fun sess => { sess with trees := Table.empty }).Within s :=
  modifySession_within s sref _ (fun _ => rfl) fun _ _ _ listed => by cases listed

theorem removeTree_within (s : LiveState ι κ) (sref : Nat) (tid : UInt32) :
    (s.modifySession sref fun sess => { sess with trees := sess.trees.erase tid }).Within s := by
  refine modifySession_within s sref _ (fun _ => rfl) ?_
  intro sess tid' tref listed
  simp only [Table.lookup_erase] at listed
  split at listed
  · cases listed
  · exact listed

/-- No task puts anything into a table. -/
theorem Performed.within {s t : LiveState ι κ} {k : κ} {task : Task} {found : List Task}
    (done : s.Performed k task t found) : t.Within s := by
  cases done with
  | lists | noTree | close => exact Within.of_eq rfl rfl rfl
  | removeSession cid sid sref found => exact removeSession_within s cid sid
  | drainSession sref sess here =>
    have drained := drainSession_within s sref
    exact ⟨drained.conns, drained.sessions, drained.trees, drained.sessionCount,
      drained.treeCount⟩
  | removeTree sref tid tref found =>
    have removed := removeTree_within s sref tid
    exact ⟨removed.conns, removed.sessions, removed.trees, removed.sessionCount,
      removed.treeCount⟩
  | drainTree tref tree here => exact modifyTree_within s tref _ (fun _ => rfl) (fun _ => rfl)

theorem perform_within (s : LiveState ι κ) (k : κ) (sweep : Sweep) (task : Task) :
    (s.perform k sweep task).1.Within s :=
  (s.perform_performed k sweep task).within

/-! ### Insertions -/

section
variable {s : LiveState ι κ} {cid cid' sid sid' : UInt64} {sref sref' tref : Nat}
  {sess : LiveSession} {tid tid' : UInt32} {tree : LiveTree} {identity : Identity}
  {share : ShareBindings} {granted : Access} {readAt : Nat}

theorem getElem?_append_singleton {α : Type} {xs : List α} {a b : α} {n : Nat}
    (found : (xs ++ [a])[n]? = some b) : (n = xs.length ∧ b = a) ∨ xs[n]? = some b := by
  rcases Nat.lt_trichotomy n xs.length with before | here | behind
  · right
    rw [List.getElem?_append_left before] at found
    exact found
  · left
    subst here
    simp only [List.getElem?_concat_length, Option.some.injEq] at found
    exact ⟨rfl, found.symm⟩
  · rw [List.getElem?_eq_none (by simp; omega)] at found
    cases found

theorem findSession_insertSession
    (found : (s.insertSession cid sid identity).findSession cid' sid' = some sref) :
    (cid' = cid ∧ sid' = sid ∧ sref = s.sessions.length) ∨
      s.findSession cid' sid' = some sref := by
  have edited := (findSession_modify s cid cid' sid'
    fun sessions => sessions.insert sid s.sessions.length).symm.trans found
  split at edited
  next same =>
    obtain ⟨sessions, here, listed⟩ := Option.bind_eq_some_iff.mp edited
    rw [Table.lookup_insert] at listed
    split at listed
    next same' =>
      cases listed
      exact Or.inl ⟨same, same', rfl⟩
    · exact Or.inr (Option.bind_eq_some_iff.mpr ⟨sessions, here, listed⟩)
  · exact Or.inr edited

/-- A session in the tables is the new one or was there before. -/
theorem sessionAt_insertSession (rooted : s.Rooted)
    (here : (s.insertSession cid sid identity).SessionAt cid' sid' sref sess) :
    (cid' = cid ∧ sid' = sid ∧ sess.identity = identity ∧ sess.trees = Table.empty) ∨
      s.SessionAt cid' sid' sref sess := by
  rcases getElem?_append_singleton here.session with ⟨fresh, rfl⟩ | before
  · rcases findSession_insertSession here.found with ⟨same, same', -⟩ | old
    · exact Or.inl ⟨same, same', rfl, rfl⟩
    · exact absurd (rooted.sessions _ _ _ old) (by omega)
  · rcases findSession_insertSession here.found with ⟨-, -, fresh⟩ | old
    · rw [fresh, List.getElem?_eq_none (Nat.le_refl _)] at before
      cases before
    · exact Or.inr ⟨old, before⟩

/-- A session that has just been inserted has no trees. -/
theorem treeAt_insertSession (rooted : s.Rooted)
    (here : (s.insertSession cid sid identity).TreeAt cid' sid' sref sess tid tref tree) :
    s.TreeAt cid' sid' sref sess tid tref tree := by
  rcases sessionAt_insertSession rooted here.toSessionAt with ⟨-, -, -, empty⟩ | before
  · have listed := here.listed
    rw [empty] at listed
    cases listed
  · exact ⟨before, here.listed, here.tree⟩

theorem rooted_insertSession (rooted : s.Rooted) : (s.insertSession cid sid identity).Rooted where
  sessions := by
    intro cid' sid' sref found
    have count : (s.insertSession cid sid identity).sessions.length = s.sessions.length + 1 := by
      simp [insertSession]
    rcases findSession_insertSession found with ⟨-, -, fresh⟩ | before
    · omega
    · have bound := rooted.sessions _ _ _ before
      omega
  trees := by
    intro sref tid tref found
    obtain ⟨sess, here, listed⟩ := Option.bind_eq_some_iff.mp found
    rcases getElem?_append_singleton here with ⟨-, rfl⟩ | before
    · cases listed
    · exact rooted.trees sref tid tref (Option.bind_eq_some_iff.mpr ⟨sess, before, listed⟩)

/-- The sessions behind an inserted tree; only the table of `sref` is another one. -/
theorem getElem?_insertTree
    (here : (s.insertTree sref tid share granted readAt).sessions[sref']? = some sess) :
    ∃ old, s.sessions[sref']? = some old ∧ old.identity = sess.identity ∧
      ∀ tid' tref, sess.trees.lookup tid' = some tref →
        (sref' = sref ∧ tid' = tid ∧ tref = s.trees.length) ∨
          old.trees.lookup tid' = some tref := by
  simp only [insertTree, List.getElem?_modify] at here
  obtain ⟨old, before, rfl⟩ := Option.map_eq_some_iff.mp here
  refine ⟨old, before, ?_, ?_⟩
  · split <;> rfl
  -- a table that is not the one of `sref` is as it was
  · intro tid' tref listed
    split at listed
    next same =>
      simp only [Table.lookup_insert] at listed
      split at listed
      next same' =>
        cases listed
        exact Or.inl ⟨same.symm, same', rfl⟩
      · exact Or.inr listed
    · exact Or.inr listed

theorem sessionAt_insertTree
    (here : (s.insertTree sref tid share granted readAt).SessionAt cid sid sref' sess) :
    ∃ old, s.SessionAt cid sid sref' old ∧ old.identity = sess.identity := by
  obtain ⟨old, before, same, -⟩ := getElem?_insertTree here.session
  exact ⟨old, ⟨here.found, before⟩, same⟩

/-- A tree in the tables is the new one or was there before. -/
theorem treeAt_insertTree (rooted : s.Rooted)
    (here : (s.insertTree sref tid share granted readAt).TreeAt cid sid sref' sess tid' tref tree) :
    ∃ old, s.SessionAt cid sid sref' old ∧ old.identity = sess.identity ∧
      ((sref' = sref ∧ tid' = tid ∧ tree.share = share ∧ tree.readAt = readAt) ∨
        s.TreeAt cid sid sref' old tid' tref tree) := by
  obtain ⟨old, before, same, entries⟩ := getElem?_insertTree here.session
  refine ⟨old, ⟨here.found, before⟩, same, ?_⟩
  rcases entries tid' tref here.listed with ⟨there, there', fresh⟩ | listed
  · left
    rcases getElem?_append_singleton here.tree with ⟨-, rfl⟩ | known
    · exact ⟨there, there', rfl, rfl⟩
    · rw [fresh, List.getElem?_eq_none (Nat.le_refl _)] at known
      cases known
  · right
    have bound := rooted.trees sref' tid' tref (Option.bind_eq_some_iff.mpr ⟨old, before, listed⟩)
    rcases getElem?_append_singleton here.tree with ⟨fresh, -⟩ | known
    · omega
    · exact ⟨⟨here.found, before⟩, listed, known⟩

theorem rooted_insertTree (rooted : s.Rooted) :
    (s.insertTree sref tid share granted readAt).Rooted where
  sessions := by
    intro cid sid sref' found
    have count : (s.insertTree sref tid share granted readAt).sessions.length =
        s.sessions.length := List.length_modify ..
    rw [count]
    exact rooted.sessions cid sid sref' found
  trees := by
    intro sref' tid' tref found
    have count : (s.insertTree sref tid share granted readAt).trees.length =
        s.trees.length + 1 := by
      simp [insertTree]
    obtain ⟨sess, here, listed⟩ := Option.bind_eq_some_iff.mp found
    obtain ⟨old, before, -, entries⟩ := getElem?_insertTree here
    rcases entries tid' tref listed with ⟨-, -, fresh⟩ | known
    · omega
    · have bound := rooted.trees sref' tid' tref (Option.bind_eq_some_iff.mpr ⟨old, before, known⟩)
      omega

/-- A connection that has just been accepted has no sessions. -/
theorem accept_within (s : LiveState ι κ) (cid : UInt64) :
    Within { s with conns := s.conns.insert cid Table.empty } s where
  conns := by
    intro cid' sid sref found
    simp only [findSession, Table.lookup_insert] at found
    split at found
    · cases found
    · exact found
  sessions := fun _ sess found => ⟨sess, found, rfl, fun _ _ => id⟩
  trees := fun _ tree found => ⟨tree, found, rfl, rfl⟩
  sessionCount := rfl
  treeCount := rfl

end

/-- Apart from the two insertions, a section of a request puts nothing into a table. -/
theorem Advanced.within {s t : LiveState ι κ} {r next : Request} (taken : s.Advanced r t next) :
    t.Within s ∨ (∃ cid sid identity, r = .insertsSession cid sid identity ∧
        t = s.insertSession cid sid identity) ∨
      ∃ sref tid share granted readAt, r = .insertsTree sref tid share granted readAt ∧
        t = s.insertTree sref tid share granted readAt := by
  cases taken with
  | same | openHandle | closeHandle => exact Or.inl (Within.of_eq rfl rfl rfl)
  | insertSession cid sid identity => exact Or.inr (Or.inl ⟨cid, sid, identity, rfl, rfl⟩)
  | allocTreeId sref tid share granted readAt =>
    exact Or.inl (modifySession_within s sref _ (fun _ => rfl) (fun _ _ _ => id))
  | insertTree sref tid share granted readAt =>
    exact Or.inr (Or.inr ⟨sref, tid, share, granted, readAt, rfl, rfl⟩)
  | registerOpen tref handle =>
    exact Or.inl (modifyTree_within s tref _ (fun _ => rfl) (fun _ => rfl))

/-- What the rest of the state says, the tables do not depend on. -/
theorem Rooted.of_eq {s t : LiveState ι κ} (rooted : s.Rooted) (conns : t.conns = s.conns)
    (sessions : t.sessions = s.sessions) (trees : t.trees = s.trees) : t.Rooted :=
  (Within.of_eq conns sessions trees).rooted rooted

end LiveState

section
variable {ι κ : Type} [DecidableEq ι] [DecidableEq κ] {σ η : Type} [Host σ η] [Crypto]

theorem LiveStep.rooted {s t : LiveState ι κ} {a : LiveAction ι κ} (step : LiveStep σ s a t)
    (rooted : s.Rooted) : t.Rooted := by
  cases step with
  | accept cid fresh => exact (LiveState.accept_within s cid).rooted rooted
  | request | refuse | call | config => exact rooted.of_eq rfl rfl rfl
  | advance i =>
    -- only a new session and a new tree are not below the old state
    have advanced : (s.advance σ (s.requests i)).1.Rooted := by
      have taken := s.advance_advanced σ (s.requests i)
      rcases taken.within with within | ⟨cid, sid, identity, -, same⟩ |
        ⟨sref, tid, share, granted, readAt, -, same⟩
      · exact within.rooted rooted
      · rw [same]
        exact LiveState.rooted_insertSession rooted
      · rw [same]
        exact LiveState.rooted_insertTree rooted
    exact advanced.of_eq rfl rfl rfl
  | sweep k sweep task rest found sweeps next order =>
    exact ((LiveState.perform_within s k sweep task).rooted rooted).of_eq rfl rfl rfl

end

/-! ### The configuration behind a run -/

section
variable {ι κ : Type}

/-- The configuration calls without the rest of the system. -/
def LiveState.config (s : LiveState ι κ) : ConfigState κ := ⟨s.server, s.calls⟩

theorem LiveState.Advanced.config {s t : LiveState ι κ} {r next : Request}
    (taken : s.Advanced r t next) : t.config = s.config := by
  cases taken <;> rfl

/-- What the sections of requests do not touch. -/
theorem LiveState.Advanced.frame {s t : LiveState ι κ} {r next : Request}
    (taken : s.Advanced r t next) :
    t.work = s.work ∧ t.revoked = s.revoked ∧ t.removedBy = s.removedBy ∧
      t.closedBy = s.closedBy := by
  cases taken <;> exact ⟨rfl, rfl, rfl, rfl⟩

theorem LiveState.Performed.config {s t : LiveState ι κ} {k : κ} {task : Task} {found : List Task}
    (done : s.Performed k task t found) : t.config = s.config := by
  cases done <;> rfl

theorem LiveState.perform_config (s : LiveState ι κ) (k : κ) (sweep : Sweep) (task : Task) :
    (s.perform k sweep task).1.config = s.config :=
  (s.perform_performed k sweep task).config

theorem LiveState.Performed.frame {s t : LiveState ι κ} {k : κ} {task : Task} {found : List Task}
    (done : s.Performed k task t found) : t.revoked = s.revoked ∧ t.removedBy = s.removedBy := by
  cases done <;> exact ⟨rfl, rfl⟩

theorem LiveState.perform_revoked (s : LiveState ι κ) (k : κ) (sweep : Sweep) (task : Task) :
    (s.perform k sweep task).1.revoked = s.revoked ∧
      (s.perform k sweep task).1.removedBy = s.removedBy :=
  (s.perform_performed k sweep task).frame

variable [DecidableEq ι] [DecidableEq κ] {σ η : Type} [Host σ η] [Crypto]

/-- Seen from the configuration, a step is a step of a call or none. -/
theorem LiveStep.configStep {s t : LiveState ι κ} {a : LiveAction ι κ} (step : LiveStep σ s a t) :
    t.config = s.config ∨ ∃ b, ConfigStep s.config b t.config := by
  cases step with
  | accept | request | refuse => exact Or.inl rfl
  | advance i => exact Or.inl (s.advance_advanced σ (s.requests i)).config
  | call k op here => exact Or.inr ⟨_, .call s.config k op here⟩
  | config k worked free => exact Or.inr ⟨_, .advance s.config k free⟩
  | sweep k sweep task rest found sweeps next order =>
    exact Or.inl (s.perform_config k sweep task)

end

/-! ### Tasks belong to sweeps -/

/-- Only a sweep has tasks. -/
def LiveState.Working {ι κ : Type} (s : LiveState ι κ) : Prop :=
  ∀ k, s.work k ≠ [] → ∃ sweep, s.calls k = .sweeps sweep

section
variable {ι κ : Type} [DecidableEq ι] [DecidableEq κ] {σ η : Type} [Host σ η] [Crypto]

theorem LiveStep.working {s t : LiveState ι κ} {a : LiveAction ι κ} (step : LiveStep σ s a t)
    (working : s.Working) : t.Working := by
  cases step with
  | accept | request | refuse => exact working
  | advance i =>
    have taken := s.advance_advanced σ (s.requests i)
    have calls : (s.advance σ (s.requests i)).1.calls = s.calls :=
      congrArg ConfigState.calls taken.config
    intro k busy
    simp only [taken.frame.1] at busy
    simp only [calls]
    exact working k busy
  | call k op here =>
    intro k' busy
    obtain ⟨sweep, there⟩ := working k' busy
    -- a call that starts has no tasks yet
    have other : k' ≠ k := by
      rintro rfl
      rw [here] at there
      cases there
    exact ⟨sweep, by simpa only [Function.update_of_ne other] using there⟩
  | config k worked free =>
    intro k' busy
    by_cases same : k' = k
    · subst same
      simp only [LiveState.configure, Function.update_self] at busy ⊢
      cases next : ((s.calls k').step s.server).2 with
      | sweeps sweep => exact ⟨sweep, rfl⟩
      | _ =>
        rw [next] at busy
        exact absurd rfl busy
    · simp only [LiveState.configure, Function.update_of_ne same] at busy ⊢
      exact working k' busy
  | sweep k sweep task rest found sweeps next order =>
    have calls : (s.perform k sweep task).1.calls = s.calls :=
      congrArg ConfigState.calls (s.perform_config k sweep task)
    intro k' busy
    simp only [calls]
    by_cases same : k' = k
    · subst same
      exact ⟨sweep, sweeps⟩
    · simp only [Function.update_of_ne same] at busy
      exact working k' busy

/-- A call that has returned has no tasks left. -/
theorem LiveState.work_of_returned {s t : LiveState ι κ}
    {ok : LiveState ι κ → LiveAction ι κ → Prop} (run : Reaches (LiveStep σ) ok s t)
    (start : s.Working) {k : κ} {result : Except ConfigError Unit}
    (returned : t.calls k = .returned result) : t.work k = [] := by
  have working := run.invariant LiveState.Working (fun _ _ _ w _ step => step.working w) start
  by_contra busy
  obtain ⟨sweep, there⟩ := working k busy
  rw [returned] at there
  cases there

end

end SmbServer
