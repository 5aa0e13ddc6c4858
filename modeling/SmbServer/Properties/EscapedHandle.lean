import SmbServer.Client
import SmbServer.Concurrency.LiveSteps
import SmbServer.Concurrency.Script
import SmbServer.Properties.ConfigInvariant

/-!
# SmbServer.Properties.EscapedHandle

Configuration operations that close trees, against CREATE.

CREATE keeps the arc of its tree over two backend calls. When the tree has been closed in between,
the open is registered in a tree that nobody reaches any more, and its handle stays open.

## Main result

`escapedHandle`: in every run in which no open is registered late, a tree that a returned operation
has closed has no open, and every handle that was opened for it has been closed, as soon as no
CREATE on the tree is in flight.

## Proof strategy

The invariant `Closing` says where every handle is: closed, registered in its tree, on the list of
a sweep, or in the locals of a CREATE; and that a tree out of its session is still to be drained by
the operation that took it out, or empty.
-/

namespace SmbServer

open Lib

namespace LiveState

variable {ι κ : Type}

/-- The handle `h` was opened for `tref`. -/
def HandleOf (s : LiveState ι κ) (h tref : Nat) : Prop :=
  ∃ handle, s.handles[h]? = some handle ∧ handle.tree = tref

/-- The handle `h` is registered in `tref`. -/
def Registered (s : LiveState ι κ) (h tref : Nat) : Prop :=
  ∃ tree fid, s.trees[tref]? = some tree ∧ tree.opens.lookup fid = some h

/-- The next section of a request registers an open in a tree that a sweep has drained. -/
def LateOpen (s : LiveState ι κ) (a : LiveAction ι κ) : Prop :=
  ∃ i tref handle k, a = .advance i ∧ s.requests i = .registers tref handle ∧
    s.closedBy tref = some k ∧ .drainTree tref ∉ s.work k

/-- The next section of a request registers an open under the file id of another one. -/
def ReusesFileId (s : LiveState ι κ) (a : LiveAction ι κ) : Prop :=
  ∃ i tref handle tree, a = .advance i ∧ s.requests i = .registers tref handle ∧
    s.trees[tref]? = some tree ∧
      (tree.opens.lookup ⟨tree.nextVolatile, tree.nextVolatile⟩).isSome

/-- Where trees and handles are that have not been closed for good. -/
structure Closing (s : LiveState ι κ) : Prop where
  rooted : s.Rooted
  /-- A tree is in one place of one session until it is taken out. -/
  inTable : ∀ sref tid tref, s.findTree sref tid = some tref → s.closedBy tref = none
  unique : ∀ sref tid sref' tid' tref, s.findTree sref tid = some tref →
    s.findTree sref' tid' = some tref → sref' = sref ∧ tid' = tid
  known : ∀ tref k, s.closedBy tref = some k → tref < s.trees.length
  inUse : ∀ i tref, (s.requests i).Holds tref → tref < s.trees.length
  /-- A tree that has been taken out is drained by whoever took it out. -/
  drains : ∀ k tref, .drainTree tref ∈ s.work k → s.closedBy tref = some k
  drained : ∀ k tref tree, s.closedBy tref = some k → s.trees[tref]? = some tree →
    .drainTree tref ∈ s.work k ∨ tree.opens = Table.empty
  closes : ∀ k h, .close h ∈ s.work k → ∃ tref, s.HandleOf h tref ∧ s.closedBy tref = some k
  opens : ∀ h tref, s.Registered h tref → s.HandleOf h tref
  held : ∀ i tref h, (s.requests i).handle = some (tref, h) → s.HandleOf h tref
  located : ∀ h handle, s.handles[h]? = some handle → handle.closed = true ∨
    s.Registered h handle.tree ∨ (∃ k, .close h ∈ s.work k) ∨
      ∃ i, (s.requests i).handle = some (handle.tree, h)

namespace Closing

variable {s : LiveState ι κ}

/-! ### Requests -/

section
variable [DecidableEq ι]

/-- A request that goes on. A handle it lets go of is closed or registered. -/
theorem setRequest (inv : s.Closing) (i : ι) (next : Request)
    (held : ∀ tref h, next.handle = some (tref, h) → s.HandleOf h tref)
    (inUse : ∀ tref, next.Holds tref → tref < s.trees.length)
    (moved : ∀ tref h, (s.requests i).handle = some (tref, h) →
      next.handle = some (tref, h) ∨ s.Registered h tref ∨
        ∀ handle, s.handles[h]? = some handle → handle.closed = true) :
    Closing { s with requests := Function.update s.requests i next } where
  rooted := inv.rooted.of_eq rfl rfl rfl
  inTable := inv.inTable
  unique := inv.unique
  known := inv.known
  inUse := by
    intro j tref holds
    by_cases same : j = i
    · subst same
      simp only [Function.update_self] at holds
      exact inUse tref holds
    · simp only [Function.update_of_ne same] at holds
      exact inv.inUse j tref holds
  drains := inv.drains
  drained := inv.drained
  closes := inv.closes
  opens := inv.opens
  held := by
    intro j tref h holds
    by_cases same : j = i
    · subst same
      simp only [Function.update_self] at holds
      exact held tref h holds
    · simp only [Function.update_of_ne same] at holds
      exact inv.held j tref h holds
  -- only the handles of request `i` can have moved
  located := by
    intro h handle here
    rcases inv.located h handle here with closed | registered | closing | ⟨j, holds⟩
    · exact Or.inl closed
    · exact Or.inr (Or.inl registered)
    · exact Or.inr (Or.inr (Or.inl closing))
    · by_cases same : j = i
      · subst same
        rcases moved _ _ holds with kept | registered | closed
        · exact Or.inr (Or.inr (Or.inr ⟨j, by simpa only [Function.update_self] using kept⟩))
        · exact Or.inr (Or.inl registered)
        · exact Or.inl (closed handle here)
      · exact Or.inr (Or.inr (Or.inr ⟨j, by simpa only [Function.update_of_ne same] using holds⟩))

/-- `backend.open` returns a handle to a CREATE. -/
theorem openHandle (inv : s.Closing) (i : ι) (tref : Nat) (here : s.requests i = .opens tref) :
    Closing { s with
      handles := s.handles ++ [⟨tref, false⟩]
      requests := Function.update s.requests i (.stats tref s.handles.length) } := by
  -- the list of handles only grows, so what was opened stays where it was
  have kept : ∀ {h tref' : Nat}, s.HandleOf h tref' →
      ∃ handle, (s.handles ++ [(⟨tref, false⟩ : LiveHandle)])[h]? = some handle ∧
        handle.tree = tref' := by
    rintro h tref' ⟨handle, found, same⟩
    have bound := (List.getElem?_eq_some_iff.mp found).1
    exact ⟨handle, by rw [List.getElem?_append_left bound]; exact found, same⟩
  constructor
  case rooted => exact inv.rooted.of_eq rfl rfl rfl
  case inTable => exact inv.inTable
  case unique => exact inv.unique
  case known => exact inv.known
  case inUse =>
    intro j tref' holds
    by_cases same : j = i
    · subst same
      simp only [Function.update_self] at holds
      obtain rfl : tref = tref' := holds
      exact inv.inUse j tref (by rw [here]; rfl)
    · simp only [Function.update_of_ne same] at holds
      exact inv.inUse j tref' holds
  case drains => exact inv.drains
  case drained => exact inv.drained
  case closes =>
    intro k h task
    obtain ⟨tref', handle, closed⟩ := inv.closes k h task
    exact ⟨tref', kept handle, closed⟩
  case opens => exact fun h tref' registered => kept (inv.opens h tref' registered)
  case held =>
    intro j tref' h holds
    by_cases same : j = i
    · subst same
      simp only [Function.update_self, Request.handle, Option.some.injEq, Prod.mk.injEq] at holds
      obtain ⟨rfl, rfl⟩ := holds
      exact ⟨⟨tref, false⟩, List.getElem?_concat_length .., rfl⟩
    · simp only [Function.update_of_ne same] at holds
      exact kept (inv.held j tref' h holds)
  case located =>
    intro h handle found
    -- the new handle is in the locals of the CREATE
    rcases getElem?_append_singleton found with ⟨rfl, rfl⟩ | before
    · exact Or.inr (Or.inr (Or.inr ⟨i, by simp only [Function.update_self]; rfl⟩))
    · rcases inv.located h handle before with closed | registered | closing | ⟨j, holds⟩
      · exact Or.inl closed
      · exact Or.inr (Or.inl registered)
      · exact Or.inr (Or.inr (Or.inl closing))
      · have other : j ≠ i := by
          rintro rfl
          rw [here] at holds
          cases holds
        exact Or.inr (Or.inr (Or.inr ⟨j, by
          simpa only [Function.update_of_ne other] using holds⟩))

end

/-- A registration in a tree that is still to be drained, or that has not been taken out. -/
theorem registerOpen (inv : s.Closing) (tref h : Nat) (handle : s.HandleOf h tref)
    (onTime : ∀ k, s.closedBy tref = some k → .drainTree tref ∈ s.work k)
    (fresh : ∀ tree, s.trees[tref]? = some tree →
      tree.opens.lookup ⟨tree.nextVolatile, tree.nextVolatile⟩ = none) :
    (s.registerOpen tref h).Closing := by
  have within : (s.registerOpen tref h).Within s :=
    modifyTree_within s tref _ (fun _ => rfl) (fun _ => rfl)
  -- one entry is new, in `tref`; the file id was free, so none is lost
  have entries : ∀ tref' h', (s.registerOpen tref h).Registered h' tref' →
      s.Registered h' tref' ∨ (h' = h ∧ tref' = tref) := by
    rintro tref' h' ⟨tree, fid, found, listed⟩
    simp only [LiveState.registerOpen, modifyTree, List.getElem?_modify] at found
    obtain ⟨old, before, rfl⟩ := Option.map_eq_some_iff.mp found
    split at listed
    next same =>
      simp only [Table.lookup_insert] at listed
      split at listed
      · cases listed
        exact Or.inr ⟨rfl, same.symm⟩
      · exact Or.inl ⟨old, fid, before, listed⟩
    · exact Or.inl ⟨old, fid, before, listed⟩
  have kept : ∀ tref' h', s.Registered h' tref' → (s.registerOpen tref h).Registered h' tref' := by
    rintro tref' h' ⟨tree, fid, found, listed⟩
    refine ⟨_, fid, by
      simp only [LiveState.registerOpen, modifyTree, List.getElem?_modify, found]
      rfl, ?_⟩
    split
    next same =>
      subst same
      have other : fid ≠ ⟨tree.nextVolatile, tree.nextVolatile⟩ := by
        rintro rfl
        rw [fresh tree found] at listed
        cases listed
      simp only [Table.lookup_insert, if_neg other]
      exact listed
    · exact listed
  constructor
  case rooted => exact within.rooted inv.rooted
  case inTable => exact inv.inTable
  case unique => exact inv.unique
  case known =>
    intro tref' k closed
    rw [within.treeCount]
    exact inv.known tref' k closed
  case inUse =>
    intro i tref' holds
    rw [within.treeCount]
    exact inv.inUse i tref' holds
  case drains => exact inv.drains
  case drained =>
    intro k tref' tree closed found
    -- a tree that has been drained is not registered in any more: `onTime`
    by_cases same : tref' = tref
    · subst same
      exact Or.inl (onTime k closed)
    · simp only [LiveState.registerOpen, modifyTree, List.getElem?_modify] at found
      obtain ⟨old, before, rfl⟩ := Option.map_eq_some_iff.mp found
      rw [if_neg (Ne.symm same)]
      exact inv.drained k tref' old closed before
  case closes => exact inv.closes
  case opens =>
    intro h' tref' registered
    rcases entries tref' h' registered with before | ⟨rfl, rfl⟩
    · exact inv.opens h' tref' before
    · exact handle
  case held => exact inv.held
  case located =>
    intro h' handle' found
    rcases inv.located h' handle' found with closed | registered | closing | holds
    · exact Or.inl closed
    · exact Or.inr (Or.inl (kept _ _ registered))
    · exact Or.inr (Or.inr (Or.inl closing))
    · exact Or.inr (Or.inr (Or.inr holds))

/-- The handle has been registered, if the tree is there. -/
theorem registered_registerOpen {tref h : Nat} (bound : tref < s.trees.length) :
    (s.registerOpen tref h).Registered h tref := by
  refine ⟨_, ⟨s.trees[tref].nextVolatile, s.trees[tref].nextVolatile⟩, by
    simp only [LiveState.registerOpen, modifyTree, List.getElem?_modify,
      List.getElem?_eq_getElem bound]
    rfl, ?_⟩
  simp only [if_true, Table.lookup_insert_self]

/-- `Handle::close`. -/
theorem closeHandle (inv : s.Closing) (h : Nat) : (s.closeHandle h).Closing := by
  have kept : ∀ {h' tref : Nat}, s.HandleOf h' tref → (s.closeHandle h).HandleOf h' tref := by
    rintro h' tref ⟨handle, found, same⟩
    refine ⟨_, by
      simp only [LiveState.closeHandle, List.getElem?_modify, found]
      rfl, ?_⟩
    split <;> exact same
  constructor
  case rooted => exact inv.rooted.of_eq rfl rfl rfl
  case inTable => exact inv.inTable
  case unique => exact inv.unique
  case known => exact inv.known
  case inUse => exact inv.inUse
  case drains => exact inv.drains
  case drained => exact inv.drained
  case closes =>
    intro k h' task
    obtain ⟨tref, handle, closed⟩ := inv.closes k h' task
    exact ⟨tref, kept handle, closed⟩
  case opens => exact fun h' tref registered => kept (inv.opens h' tref registered)
  case held => exact fun i tref h' holds => kept (inv.held i tref h' holds)
  case located =>
    intro h' handle found
    simp only [LiveState.closeHandle, List.getElem?_modify] at found
    obtain ⟨old, before, rfl⟩ := Option.map_eq_some_iff.mp found
    split
    · exact Or.inl rfl
    · exact inv.located h' old before

theorem closed_closeHandle {h : Nat} (handle : LiveHandle)
    (found : (s.closeHandle h).handles[h]? = some handle) : handle.closed = true := by
  simp only [LiveState.closeHandle, List.getElem?_modify, if_true] at found
  obtain ⟨old, -, rfl⟩ := Option.map_eq_some_iff.mp found
  rfl

/-! ### Tables -/

/-- Tables that hold nothing new, beside the same trees, handles and tasks. -/
theorem of_tables {t : LiveState ι κ} (inv : s.Closing) (rooted : t.Rooted)
    (tables : ∀ sref tid tref, t.findTree sref tid = some tref → s.findTree sref tid = some tref)
    (trees : t.trees = s.trees) (handles : t.handles = s.handles)
    (requests : t.requests = s.requests) (work : t.work = s.work)
    (closedBy : t.closedBy = s.closedBy) : t.Closing where
  rooted := rooted
  inTable := by
    intro sref tid tref found
    rw [closedBy]
    exact inv.inTable sref tid tref (tables sref tid tref found)
  unique := by
    intro sref tid sref' tid' tref found found'
    exact inv.unique sref tid sref' tid' tref (tables _ _ _ found) (tables _ _ _ found')
  known := by
    rw [closedBy, trees]
    exact inv.known
  inUse := by
    rw [requests, trees]
    exact inv.inUse
  drains := by
    rw [work, closedBy]
    exact inv.drains
  drained := by
    rw [work, closedBy, trees]
    exact inv.drained
  closes := by
    simp only [HandleOf, work, closedBy, handles]
    exact inv.closes
  opens := by
    simp only [HandleOf, Registered, trees, handles]
    exact inv.opens
  held := by
    simp only [HandleOf, requests, handles]
    exact inv.held
  located := by
    simp only [Registered, requests, handles, work, trees]
    exact inv.located

theorem insertSession (inv : s.Closing) (cid sid : UInt64) (identity : Identity) :
    (s.insertSession cid sid identity).Closing := by
  apply inv.of_tables (rooted_insertSession inv.rooted) _ rfl rfl rfl rfl rfl
  intro sref tid tref found
  obtain ⟨sess, here, listed⟩ := Option.bind_eq_some_iff.mp found
  rcases getElem?_append_singleton here with ⟨-, rfl⟩ | before
  · cases listed
  · exact Option.bind_eq_some_iff.mpr ⟨sess, before, listed⟩

theorem insertTree (inv : s.Closing) (sref : Nat) (tid : UInt32) (share : ShareBindings)
    (granted : Access) (readAt : Nat) :
    (s.insertTree sref tid share granted readAt).Closing := by
  -- the new tree has a number that no table and no sweep has seen
  have tables : ∀ {sref' tid' tref},
      (s.insertTree sref tid share granted readAt).findTree sref' tid' = some tref →
        (sref' = sref ∧ tid' = tid ∧ tref = s.trees.length) ∨
          s.findTree sref' tid' = some tref := by
    intro sref' tid' tref found
    obtain ⟨sess, here, listed⟩ := Option.bind_eq_some_iff.mp found
    obtain ⟨old, before, -, entries⟩ := getElem?_insertTree here
    rcases entries tid' tref listed with fresh | known
    · exact Or.inl fresh
    · exact Or.inr (Option.bind_eq_some_iff.mpr ⟨old, before, known⟩)
  have kept : ∀ {h tref : Nat}, s.Registered h tref →
      (s.insertTree sref tid share granted readAt).Registered h tref := by
    rintro h tref ⟨tree, fid, found, listed⟩
    have bound := (List.getElem?_eq_some_iff.mp found).1
    exact ⟨tree, fid, (List.getElem?_append_left bound).trans found, listed⟩
  have count : (s.insertTree sref tid share granted readAt).trees.length = s.trees.length + 1 := by
    simp [LiveState.insertTree]
  constructor
  case rooted => exact rooted_insertTree inv.rooted
  case inTable =>
    intro sref' tid' tref found
    rcases tables found with ⟨-, -, rfl⟩ | before
    · cases closed : s.closedBy s.trees.length with
      | none => exact closed
      | some k => exact absurd (inv.known _ k closed) (Nat.lt_irrefl _)
    · exact inv.inTable sref' tid' tref before
  case unique =>
    intro sref₁ tid₁ sref₂ tid₂ tref found₁ found₂
    rcases tables found₁ with ⟨rfl, rfl, fresh₁⟩ | before₁
    · rcases tables found₂ with ⟨rfl, rfl, -⟩ | before₂
      · exact ⟨rfl, rfl⟩
      · exact absurd (inv.rooted.trees _ _ _ before₂) (by omega)
    · rcases tables found₂ with ⟨-, -, fresh₂⟩ | before₂
      · exact absurd (inv.rooted.trees _ _ _ before₁) (by omega)
      · exact inv.unique sref₁ tid₁ sref₂ tid₂ tref before₁ before₂
  case known =>
    intro tref k closed
    have bound := inv.known tref k closed
    omega
  case inUse =>
    intro i tref holds
    have bound := inv.inUse i tref holds
    omega
  case drains => exact inv.drains
  case drained =>
    intro k tref tree closed found
    rcases getElem?_append_singleton found with ⟨-, rfl⟩ | before
    · exact Or.inr rfl
    · exact inv.drained k tref tree closed before
  case closes => exact inv.closes
  case opens =>
    rintro h tref ⟨tree, fid, found, listed⟩
    rcases getElem?_append_singleton found with ⟨-, rfl⟩ | before
    · cases listed
    · exact inv.opens h tref ⟨tree, fid, before, listed⟩
  case held => exact inv.held
  case located =>
    intro h handle found
    rcases inv.located h handle found with closed | registered | closing | holds
    · exact Or.inl closed
    · exact Or.inr (Or.inl (kept registered))
    · exact Or.inr (Or.inr (Or.inl closing))
    · exact Or.inr (Or.inr (Or.inr holds))

/-! ### Tasks -/

section
variable [DecidableEq κ]

/-- What is listed once the list of `k` has been replaced was listed before. -/
theorem listed_before {work : κ → List Task} {k k' : κ} {tasks : List Task} {task : Task}
    (old : task ∈ tasks → task ∈ work k) (listed : task ∈ Function.update work k tasks k') :
    task ∈ work k' := by
  by_cases same : k' = k
  · subst same
    rw [Function.update_self] at listed
    exact old listed
  · rwa [Function.update_of_ne same] at listed

theorem listed_after {work : κ → List Task} {k k' : κ} {tasks : List Task} {task : Task}
    (kept : task ∈ work k → task ∈ tasks) (listed : task ∈ work k') :
    task ∈ Function.update work k tasks k' := by
  by_cases same : k' = k
  · subst same
    rw [Function.update_self]
    exact kept listed
  · rwa [Function.update_of_ne same]

/-- Tasks that close no handle and drain no tree come and go. -/
theorem setWork (inv : s.Closing) (k : κ) (tasks : List Task)
    (drains : ∀ tref, .drainTree tref ∈ tasks → .drainTree tref ∈ s.work k)
    (drained : ∀ tref, tref < s.trees.length → .drainTree tref ∈ s.work k →
      .drainTree tref ∈ tasks)
    (closes : ∀ h, .close h ∈ tasks ↔ .close h ∈ s.work k) :
    Closing { s with work := Function.update s.work k tasks } where
  rooted := inv.rooted.of_eq rfl rfl rfl
  inTable := inv.inTable
  unique := inv.unique
  known := inv.known
  inUse := inv.inUse
  drains := fun k' tref task => inv.drains k' tref (listed_before (drains tref) task)
  drained := by
    intro k' tref tree closed found
    rcases inv.drained k' tref tree closed found with task | empty
    · exact Or.inl (listed_after (drained tref (inv.known tref k' closed)) task)
    · exact Or.inr empty
  closes := fun k' h task => inv.closes k' h (listed_before (closes h).mp task)
  opens := inv.opens
  held := inv.held
  located := by
    intro h handle found
    rcases inv.located h handle found with closed | registered | ⟨k', task⟩ | holds
    · exact Or.inl closed
    · exact Or.inr (Or.inl registered)
    · exact Or.inr (Or.inr (Or.inl ⟨k', listed_after (closes h).mpr task⟩))
    · exact Or.inr (Or.inr (Or.inr holds))

/-- A task takes trees out of the table of one session and leaves them to be drained. -/
theorem takeTrees (inv : s.Closing) (k : κ) (sref : Nat) (f : LiveSession → LiveSession)
    (taken : List Nat) (tasks : List Task)
    (within : (s.modifySession sref f).Within s)
    (kept : ∀ sess tid tref, s.sessions[sref]? = some sess →
      (f sess).trees.lookup tid = some tref → tref ∉ taken)
    (were : ∀ tref ∈ taken, ∃ tid, s.findTree sref tid = some tref)
    (drains : ∀ tref, .drainTree tref ∈ tasks ↔ tref ∈ taken ∨ .drainTree tref ∈ s.work k)
    (closes : ∀ h, .close h ∈ tasks ↔ .close h ∈ s.work k) :
    Closing { s.modifySession sref f with
      closedBy := s.closers k taken
      work := Function.update s.work k tasks } := by
  have tables : ∀ {sref' tid tref}, (s.modifySession sref f).findTree sref' tid = some tref →
      s.findTree sref' tid = some tref ∧ tref ∉ taken := by
    intro sref' tid tref found
    obtain ⟨sess, here, listed⟩ := Option.bind_eq_some_iff.mp found
    obtain ⟨old, before, -, entries⟩ := within.sessions sref' sess here
    have known : s.findTree sref' tid = some tref :=
      Option.bind_eq_some_iff.mpr ⟨old, before, entries tid tref listed⟩
    refine ⟨known, fun out => ?_⟩
    -- a tree is in one place, so it would have been taken out of this one
    obtain ⟨tid', there⟩ := were tref out
    obtain ⟨rfl, -⟩ := inv.unique _ _ _ _ _ known there
    simp only [modifySession, List.getElem?_modify, before, if_true] at here
    cases here
    exact kept old tid tref before listed out
  have stays : ∀ {tref k'}, s.closedBy tref = some k' → s.closers k taken tref = some k' := by
    intro tref k' closed
    have out : tref ∉ taken := by
      intro out
      obtain ⟨tid, there⟩ := were tref out
      rw [inv.inTable _ _ _ there] at closed
      cases closed
    rw [closers, if_neg out]
    exact closed
  constructor
  case rooted => exact (within.rooted inv.rooted).of_eq rfl rfl rfl
  case inTable =>
    intro sref' tid tref found
    obtain ⟨known, out⟩ := tables found
    simp only [closers, if_neg out]
    exact inv.inTable sref' tid tref known
  case unique =>
    intro sref₁ tid₁ sref₂ tid₂ tref found₁ found₂
    exact inv.unique sref₁ tid₁ sref₂ tid₂ tref (tables found₁).1 (tables found₂).1
  case known =>
    intro tref k' closed
    simp only [closers] at closed
    split at closed
    next out =>
      obtain ⟨tid, there⟩ := were tref out
      exact inv.rooted.trees _ _ _ there
    · exact inv.known tref k' closed
  case inUse => exact inv.inUse
  case drains =>
    intro k' tref task
    by_cases same : k' = k
    · subst same
      simp only [Function.update_self] at task
      rcases (drains tref).mp task with out | before
      · simp only [closers, if_pos out]
      · exact stays (inv.drains k' tref before)
    · simp only [Function.update_of_ne same] at task
      exact stays (inv.drains k' tref task)
  case drained =>
    intro k' tref tree closed found
    simp only [closers] at closed
    split at closed
    next out =>
      cases closed
      left
      simp only [Function.update_self]
      exact (drains tref).mpr (Or.inl out)
    next =>
      rcases inv.drained k' tref tree closed found with task | empty
      · exact Or.inl (listed_after (fun before => (drains tref).mpr (Or.inr before)) task)
      · exact Or.inr empty
  case closes =>
    intro k' h task
    obtain ⟨tref, handle, closed⟩ := inv.closes k' h (listed_before (closes h).mp task)
    exact ⟨tref, handle, stays closed⟩
  case opens => exact inv.opens
  case held => exact inv.held
  case located =>
    intro h handle found
    rcases inv.located h handle found with closed | registered | ⟨k', task⟩ | holds
    · exact Or.inl closed
    · exact Or.inr (Or.inl registered)
    · exact Or.inr (Or.inr (Or.inl ⟨k', listed_after (closes h).mpr task⟩))
    · exact Or.inr (Or.inr (Or.inr holds))

/-- A task drains a tree and leaves its handles to be closed. -/
theorem drainTree (inv : s.Closing) (k : κ) (tref : Nat) (tree : LiveTree) (tasks : List Task)
    (here : s.trees[tref]? = some tree) (mine : .drainTree tref ∈ s.work k)
    (drains : ∀ tref', .drainTree tref' ∈ tasks → .drainTree tref' ∈ s.work k)
    (drained : ∀ tref', tref' ≠ tref → .drainTree tref' ∈ s.work k → .drainTree tref' ∈ tasks)
    (closes : ∀ h, .close h ∈ tasks ↔ h ∈ tree.opens.vals ∨ .close h ∈ s.work k) :
    Closing { s.modifyTree tref fun tree => { tree with opens := Table.empty } with
      work := Function.update s.work k tasks } := by
  have within : (s.modifyTree tref fun tree => { tree with opens := Table.empty }).Within s :=
    modifyTree_within s tref _ (fun _ => rfl) (fun _ => rfl)
  have closedBy := inv.drains k tref mine
  constructor
  case rooted => exact (within.rooted inv.rooted).of_eq rfl rfl rfl
  case inTable => exact inv.inTable
  case unique => exact inv.unique
  case known =>
    intro tref' k' closed
    have bound := inv.known tref' k' closed
    rw [← within.treeCount] at bound
    exact bound
  case inUse =>
    intro i tref' holds
    have bound := inv.inUse i tref' holds
    rw [← within.treeCount] at bound
    exact bound
  case drains => exact fun k' tref' task => inv.drains k' tref' (listed_before (drains tref') task)
  -- the tree of the task is empty now; every other one is still on its list
  case drained =>
    intro k' tref' tree' closed found
    simp only [modifyTree, List.getElem?_modify] at found
    obtain ⟨old, before, rfl⟩ := Option.map_eq_some_iff.mp found
    by_cases now : tref = tref'
    · right
      rw [if_pos now]
    · simp only [if_neg now]
      rcases inv.drained k' tref' old closed before with task | empty
      · exact Or.inl (listed_after (drained tref' (Ne.symm now)) task)
      · exact Or.inr empty
  case closes =>
    intro k' h task
    by_cases same : k' = k
    · subst same
      simp only [Function.update_self] at task
      rcases (closes h).mp task with registered | before
      · obtain ⟨fid, listed⟩ := (Table.mem_vals _ _).mp registered
        exact ⟨tref, inv.opens h tref ⟨tree, fid, here, listed⟩, closedBy⟩
      · exact inv.closes k' h before
    · simp only [Function.update_of_ne same] at task
      exact inv.closes k' h task
  case opens =>
    rintro h tref' ⟨tree', fid, found, listed⟩
    simp only [modifyTree, List.getElem?_modify] at found
    obtain ⟨old, before, rfl⟩ := Option.map_eq_some_iff.mp found
    split at listed
    · cases listed
    · exact inv.opens h tref' ⟨old, fid, before, listed⟩
  case held => exact inv.held
  case located =>
    intro h handle found
    rcases inv.located h handle found with closed | ⟨old, fid, before, listed⟩ | ⟨k', task⟩ | holds
    · exact Or.inl closed
    · by_cases now : tref = handle.tree
      · -- a handle of the drained tree is now on the list
        refine Or.inr (Or.inr (Or.inl ⟨k, ?_⟩))
        subst now
        rw [here] at before
        cases before
        simp only [Function.update_self]
        exact (closes h).mpr (Or.inl ((Table.mem_vals _ _).mpr ⟨fid, listed⟩))
      · refine Or.inr (Or.inl ⟨old, fid, ?_, listed⟩)
        simp only [modifyTree, List.getElem?_modify, before, if_neg now]
        rfl
    · have kept := listed_after (fun before => (closes h).mpr (Or.inr before)) task
      exact Or.inr (Or.inr (Or.inl ⟨k', kept⟩))
    · exact Or.inr (Or.inr (Or.inr holds))

/-- A closed handle is taken off the list. -/
theorem dropClose (inv : s.Closing) (k : κ) (h : Nat) (tasks : List Task)
    (closed : ∀ handle, s.handles[h]? = some handle → handle.closed = true)
    (drains : ∀ tref, .drainTree tref ∈ tasks ↔ .drainTree tref ∈ s.work k)
    (closes : ∀ h', .close h' ∈ tasks → .close h' ∈ s.work k)
    (others : ∀ h', h' ≠ h → .close h' ∈ s.work k → .close h' ∈ tasks) :
    Closing { s with work := Function.update s.work k tasks } where
  rooted := inv.rooted.of_eq rfl rfl rfl
  inTable := inv.inTable
  unique := inv.unique
  known := inv.known
  inUse := inv.inUse
  drains := fun k' tref task => inv.drains k' tref (listed_before (drains tref).mp task)
  drained := by
    intro k' tref tree taken found
    rcases inv.drained k' tref tree taken found with task | empty
    · exact Or.inl (listed_after (drains tref).mpr task)
    · exact Or.inr empty
  closes := fun k' h' task => inv.closes k' h' (listed_before (closes h') task)
  opens := inv.opens
  held := inv.held
  located := by
    intro h' handle found
    by_cases now : h' = h
    · subst now
      exact Or.inl (closed handle found)
    · rcases inv.located h' handle found with done | registered | ⟨k', task⟩ | holds
      · exact Or.inl done
      · exact Or.inr (Or.inl registered)
      · exact Or.inr (Or.inr (Or.inl ⟨k', listed_after (others h' now) task⟩))
      · exact Or.inr (Or.inr (Or.inr holds))

/-- A task of a sweep, with what it found in any order. -/
theorem performed (inv : s.Closing) {k : κ} {task : Task} {t : LiveState ι κ} {found : List Task}
    (done : s.Performed k task t found) (rest tasks : List Task) (next : s.work k = task :: rest)
    (order : ∀ task', task' ∈ tasks ↔ task' ∈ found ∨ task' ∈ rest) :
    Closing { t with work := Function.update s.work k tasks } := by
  have before : ∀ task', task' ∈ s.work k ↔ task' = task ∨ task' ∈ rest := by
    intro task'
    rw [next, List.mem_cons]
  -- a task that the sweep neither did nor found is listed as before
  have unlisted : ∀ {task' : Task}, task' ≠ task → task' ∉ found →
      (task' ∈ tasks ↔ task' ∈ s.work k) := by
    intro task' other new
    rw [order, before]
    constructor
    · rintro (listed | later)
      · exact absurd listed new
      · exact Or.inr later
    · rintro (same | later)
      · exact absurd same other
      · exact Or.inr later
  cases done with
  | lists task found quiet quiets =>
    -- these tasks neither drain a tree nor close a handle
    have same : ∀ task' : Task, task'.Drains → (task' ∈ tasks ↔ task' ∈ s.work k) := by
      intro task' drains
      apply unlisted
      · rintro rfl
        exact quiet drains
      · exact fun listed => quiets task' listed drains
    apply inv.setWork k tasks
    · exact fun tref listed => (same (.drainTree tref) trivial).mp listed
    · exact fun tref _ listed => (same (.drainTree tref) trivial).mpr listed
    · exact fun h => same (.close h) trivial
  | removeSession cid sid sref listed =>
    have worked : Closing { s with work := Function.update s.work k tasks } := by
      apply inv.setWork k tasks
      · exact fun tref listed => (unlisted (by simp) (by simp)).mp listed
      · exact fun tref _ listed => (unlisted (by simp) (by simp)).mpr listed
      · exact fun h => unlisted (by simp) (by simp)
    refine worked.of_tables ?_ (fun _ _ _ there => there) rfl rfl rfl rfl rfl
    exact ((removeSession_within s cid sid).rooted inv.rooted).of_eq rfl rfl rfl
  | drainSession sref sess here =>
    apply inv.takeTrees k sref _ sess.trees.vals tasks (drainSession_within s sref)
    · intro sess' tid tref _ listed
      cases listed
    · intro tref listed
      obtain ⟨tid, there⟩ := (Table.mem_vals _ _).mp listed
      exact ⟨tid, Option.bind_eq_some_iff.mpr ⟨sess, here, there⟩⟩
    · intro tref
      rw [order, before, List.mem_map]
      simp
    · exact fun h => unlisted (by simp) (by simp)
  | removeTree sref tid tref listed =>
    apply inv.takeTrees k sref _ [tref] tasks (removeTree_within s sref tid)
    · intro sess tid' tref' here there
      simp only [Table.lookup_erase] at there
      split at there
      · cases there
      next other =>
        simp only [List.mem_singleton]
        rintro rfl
        -- a second entry for the same tree would be in another place
        have again : s.findTree sref tid' = some tref' :=
          Option.bind_eq_some_iff.mpr ⟨sess, here, there⟩
        exact other (inv.unique _ _ _ _ _ listed again).2
    · intro tref' taken
      rw [List.mem_singleton.mp taken]
      exact ⟨tid, listed⟩
    · intro tref'
      rw [order, before]
      simp
    · exact fun h => unlisted (by simp) (by simp)
  | noTree tref missing =>
    apply inv.setWork k tasks
    · intro tref' listed
      rw [order] at listed
      rcases listed with new | later
      · cases new
      · exact (before _).mpr (Or.inr later)
    · intro tref' bound listed
      rw [order]
      rcases (before _).mp listed with same | later
      · cases same
        rw [List.getElem?_eq_getElem bound] at missing
        cases missing
      · exact Or.inr later
    · exact fun h => unlisted (by simp) (by simp)
  | drainTree tref tree here =>
    apply inv.drainTree k tref tree tasks here
    · exact (before _).mpr (Or.inl rfl)
    · intro tref' listed
      rw [order] at listed
      rcases listed with new | later
      · obtain ⟨h, -, same⟩ := List.mem_map.mp new
        cases same
      · exact (before _).mpr (Or.inr later)
    · intro tref' other listed
      rw [order]
      rcases (before _).mp listed with same | later
      · cases same
        exact absurd rfl other
      · exact Or.inr later
    · intro h
      rw [order, before, List.mem_map]
      simp
  | close h =>
    apply (inv.closeHandle h).dropClose k h tasks
    · exact fun handle found => closed_closeHandle handle found
    · exact fun tref => unlisted (by simp) (by simp)
    · intro h' listed
      rw [order] at listed
      rcases listed with new | later
      · cases new
      · exact (before _).mpr (Or.inr later)
    · intro h' other listed
      rw [order]
      rcases (before _).mp listed with same | later
      · cases same
        exact absurd rfl other
      · exact Or.inr later

end

/-! ### Sections of requests -/

section
variable [DecidableEq ι]

/-- A request that keeps its handle, on a tree that it has found. -/
theorem keepRequest (inv : s.Closing) (i : ι) (next : Request)
    (keeps : next.handle = (s.requests i).handle)
    (found : ∀ tref, next.Holds tref →
      (s.requests i).Holds tref ∨ ∃ sref tid, s.findTree sref tid = some tref) :
    Closing { s with requests := Function.update s.requests i next } := by
  apply inv.setRequest i next
  · intro tref h holds
    rw [keeps] at holds
    exact inv.held i tref h holds
  · intro tref holds
    rcases found tref holds with before | ⟨sref, tid, listed⟩
    · exact inv.inUse i tref before
    · exact inv.rooted.trees sref tid tref listed
  · intro tref h holds
    rw [← keeps] at holds
    exact Or.inl holds

/-- A request that holds nothing, before and after. -/
theorem letGo (inv : s.Closing) (i : ι) (next : Request) (nothing : next.handle = none)
    (none : ∀ tref, ¬next.Holds tref)
    (moved : ∀ tref h, (s.requests i).handle = some (tref, h) → s.Registered h tref ∨
      ∀ handle, s.handles[h]? = some handle → handle.closed = true) :
    Closing { s with requests := Function.update s.requests i next } := by
  apply inv.setRequest i next
  · intro tref h holds
    rw [nothing] at holds
    cases holds
  · exact fun tref holds => absurd holds (none tref)
  · exact fun tref h holds => Or.inr (moved tref h holds)

/-- A request that held no handle ends, or goes on without one. -/
theorem letGo_of_none (inv : s.Closing) (i : ι) (next : Request) (nothing : next.handle = none)
    (none : ∀ tref, ¬next.Holds tref) (free : (s.requests i).handle = Option.none) :
    Closing { s with requests := Function.update s.requests i next } := by
  apply inv.letGo i next nothing none
  intro tref h holds
  rw [free] at holds
  cases holds

theorem advanced (inv : s.Closing) (i : ι) {t : LiveState ι κ} {next : Request}
    (taken : s.Advanced (s.requests i) t next) (onTime : ¬s.LateOpen (.advance i))
    (fresh : ¬s.ReusesFileId (.advance i)) :
    Closing { t with requests := Function.update s.requests i next } := by
  -- the request's next section decides what is edited
  generalize here : s.requests i = r at taken
  cases taken with
  | same r next keeps found =>
    subst here
    exact inv.keepRequest i next keeps found
  | insertSession cid sid identity =>
    exact (inv.insertSession cid sid identity).letGo_of_none i .done rfl (fun _ => id)
      (congrArg Request.handle here)
  | allocTreeId sref tid share granted readAt =>
    have within : Within (s.modifySession sref fun sess =>
        { sess with nextTreeId := sess.nextTreeId + 1 }) s :=
      modifySession_within s sref _ (fun _ => rfl) (fun _ _ _ => id)
    have kept : Closing (s.modifySession sref fun sess =>
        { sess with nextTreeId := sess.nextTreeId + 1 }) :=
      inv.of_tables (within.rooted inv.rooted) (fun _ _ _ => within.findTree) rfl rfl rfl rfl rfl
    exact kept.letGo_of_none i _ rfl (fun _ => id) (congrArg Request.handle here)
  | insertTree sref tid share granted readAt =>
    exact (inv.insertTree sref tid share granted readAt).letGo_of_none i .done rfl (fun _ => id)
      (congrArg Request.handle here)
  | openHandle tref => exact inv.openHandle i tref here
  | registerOpen tref h =>
    -- the two conditions on the run are used here, and only here
    have registered : (s.registerOpen tref h).Closing := by
      apply inv.registerOpen tref h
      · exact inv.held i tref h (by rw [here]; rfl)
      · intro k closed
        by_contra drained
        exact onTime ⟨i, tref, h, k, rfl, here, closed, drained⟩
      · intro tree found
        cases taken : tree.opens.lookup ⟨tree.nextVolatile, tree.nextVolatile⟩ with
        | none => rfl
        | some h' => exact absurd ⟨i, tref, h, tree, rfl, here, found, by rw [taken]; rfl⟩ fresh
    apply registered.letGo i .done rfl (fun _ => id)
    intro tref' h' holds
    have before : (s.requests i).handle = some (tref', h') := holds
    rw [here] at before
    cases before
    exact Or.inl (registered_registerOpen (inv.inUse i tref (by rw [here]; rfl)))
  | closeHandle tref h =>
    apply (inv.closeHandle h).letGo i .done rfl (fun _ => id)
    intro tref' h' holds
    have before : (s.requests i).handle = some (tref', h') := holds
    rw [here] at before
    cases before
    exact Or.inr fun handle found => closed_closeHandle handle found

end

end Closing

end LiveState

section
variable {ι κ : Type} [DecidableEq ι] [DecidableEq κ] {σ η : Type} [Host σ η] [Crypto]

theorem LiveStep.closing {s t : LiveState ι κ} {a : LiveAction ι κ} (step : LiveStep σ s a t)
    (onTime : ¬s.LateOpen a) (fresh : ¬s.ReusesFileId a) (inv : s.Closing) : t.Closing := by
  have rooted := step.rooted inv.rooted
  cases step with
  | accept cid fresh =>
    exact inv.of_tables rooted (fun _ _ _ there => there) rfl rfl rfl rfl rfl
  | request i request arrives here =>
    exact inv.letGo_of_none i request arrives.empty.1 arrives.empty.2
      (congrArg Request.handle here)
  | advance i =>
    have taken := s.advance_advanced σ (s.requests i)
    have moved := inv.advanced i taken onTime fresh
    exact moved
  | refuse i next refused =>
    obtain ⟨keeps, found⟩ := Request.refused_keeps refused
    exact inv.keepRequest i next keeps fun tref holds => Or.inl (found tref holds)
  | call k op here =>
    exact inv.of_tables rooted (fun _ _ _ there => there) rfl rfl rfl rfl rfl
  | config k worked free =>
    have started : ∀ task ∈ LiveState.tasksOf ((s.calls k).step s.server).2, task = .live := by
      intro task listed
      unfold LiveState.tasksOf at listed
      split at listed
      · exact List.mem_singleton.mp listed
      · cases listed
    have worked : LiveState.Closing { s with
        work := Function.update s.work k (LiveState.tasksOf ((s.calls k).step s.server).2) } := by
      apply inv.setWork k
      · intro tref listed
        cases started _ listed
      · intro tref _ listed
        rw [worked] at listed
        cases listed
      · intro h
        rw [worked]
        constructor
        · intro listed
          cases started _ listed
        · intro listed
          cases listed
    exact worked.of_tables rooted (fun _ _ _ there => there) rfl rfl rfl rfl rfl
  | sweep k sweep task rest found sweeps next order =>
    have done := s.perform_performed k sweep task
    apply inv.performed done rest _ next
    intro task'
    rw [List.mem_append, order.mem_iff]

/-! ### Every run -/

/-- While no open is registered late, a tree that a returned operation has closed is empty, and
its handles are closed as soon as no CREATE holds the tree. -/
theorem escapedHandle (server : ServerState) (t : LiveState ι κ)
    (run : Reaches (LiveStep σ) (fun s a => ¬s.LateOpen a ∧ ¬s.ReusesFileId a)
      (LiveState.start server) t)
    (k : κ) (tref : Nat) (closed : t.closedBy tref = some k)
    (returned : t.calls k = .returned (.ok ())) :
    (∀ tree, t.trees[tref]? = some tree → tree.opens = Table.empty) ∧
      ((∀ i, ¬(t.requests i).Holds tref) →
        ∀ (h : Nat) (handle : LiveHandle), t.handles[h]? = some handle → handle.tree = tref →
          handle.closed = true) := by
  -- nothing is there at the start
  have start : (LiveState.start server : LiveState ι κ).Closing :=
    { rooted := LiveState.rooted_start server
      inTable := fun _ _ _ _ => rfl
      unique := fun _ _ _ _ _ found => by cases found
      known := fun _ _ closed => by cases closed
      inUse := fun _ _ holds => by cases holds
      drains := fun _ _ listed => by cases listed
      drained := fun _ _ _ closed => by cases closed
      closes := fun _ _ listed => by cases listed
      opens := fun _ _ registered => by
        obtain ⟨tree, fid, found, -⟩ := registered
        cases found
      held := fun _ _ _ holds => by cases holds
      located := fun _ _ found => by cases found }
  have inv := run.invariant LiveState.Closing
    (fun s a u inv meets step => step.closing meets.1 meets.2 inv) start
  -- a call that has returned has no task left
  have worked := LiveState.work_of_returned run (fun _ busy => absurd rfl busy) returned
  have empty : ∀ tree, t.trees[tref]? = some tree → tree.opens = Table.empty := by
    intro tree found
    rcases inv.drained k tref tree closed found with task | empty
    · rw [worked] at task
      cases task
    · exact empty
  refine ⟨empty, ?_⟩
  intro idle h handle found same
  subst same
  -- every other place of the handle is excluded
  rcases inv.located h handle found with done | ⟨tree, fid, there, listed⟩ | ⟨k', task⟩ | ⟨i, holds⟩
  · exact done
  · rw [empty tree there] at listed
    cases listed
  · -- the sweep of the tree's operation is over
    obtain ⟨tref, ⟨handle', found', same⟩, closed'⟩ := inv.closes k' h task
    rw [found] at found'
    cases found'
    rw [same, closed'] at closed
    cases closed
    rw [worked] at task
    cases task
  · exfalso
    apply idle i
    generalize t.requests i = r at holds
    cases r with
    | stats | registers | closes =>
      cases holds
      rfl
    | _ => cases holds

end

/-! ### Two runs -/

namespace LiveState

/-- The next section registers no open, or it does in a tree that has not been closed and under a
file id that is free. -/
def registersInTime {ι κ : Type} (s : LiveState ι κ) : LiveAction ι κ → Bool
  | .advance i =>
    match s.requests i with
    | .registers tref _ =>
      (s.closedBy tref).isNone &&
        s.trees[tref]?.all fun tree =>
          (tree.opens.lookup ⟨tree.nextVolatile, tree.nextVolatile⟩).isNone
    | _ => true
  | _ => true

theorem inTime_of_registersInTime {ι κ : Type} (s : LiveState ι κ) (a : LiveAction ι κ)
    (inTime : s.registersInTime a = true) : ¬s.LateOpen a ∧ ¬s.ReusesFileId a := by
  constructor
  · rintro ⟨i, tref, h, k, rfl, here, closed, -⟩
    simp [registersInTime, here, closed] at inTime
  · rintro ⟨i, tref, h, tree, rfl, here, found, taken⟩
    obtain ⟨h', listed⟩ := Option.isSome_iff_exists.mp taken
    simp [registersInTime, here, found, listed] at inTime

end LiveState

open scoped Sample

namespace Sample

/-- A connection with an anonymous session and a tree on a public share. -/
def connected : List (LiveAction (Fin 3) Unit) :=
  [.accept 1,
    .request 0 (.setup 1 1 (NtlmServer.new (ByteVec.zero 8) ⟨[], [], [], [], []⟩ 0)
      (Client.ntlmAuthenticate [] [])),
    .advance 0, .advance 0, .advance 0,
    .request 1 (.treeConnect 1 1 ['w']),
    .advance 1, .advance 1, .advance 1, .advance 1, .advance 1]

/-- CREATE, up to the handle that `backend.open` returns. -/
def opened : List (LiveAction (Fin 3) Unit) :=
  [.request 2 (.create 1 1 1), .advance 2, .advance 2, .advance 2]

/-- The rest of CREATE. -/
def registered : List (LiveAction (Fin 3) Unit) := [.advance 2, .advance 2]

/-- `remove_share`, up to the tree that its sweep drains. -/
def drained : List (LiveAction (Fin 3) Unit) :=
  [.call () (.removeShare ['w']), .config (), .sweep (), .sweep (), .sweep (), .sweep (), .sweep ()]

end Sample

/-- An open that has been registered before `remove_share` starts. -/
theorem escapedHandle_registered :
    ∃ handle : LiveHandle,
      ((LiveState.start Sample.builtServer : LiveState (Fin 3) Unit).script Unit
        (Sample.connected ++ Sample.opened ++ Sample.registered ++ Sample.drained ++
          [.sweep (), .config ()])).handles[0]? = some handle ∧ handle.closed = true := by
  let actions := Sample.connected ++ Sample.opened ++ Sample.registered ++ Sample.drained ++
    [.sweep (), .config ()]
  have plays := LiveState.plays_of_meets Unit LiveState.registersInTime
    LiveState.inTime_of_registersInTime
    (LiveState.start Sample.builtServer : LiveState (Fin 3) Unit) actions (by decide +kernel)
  have closed := escapedHandle Sample.builtServer _ (LiveState.script_reaches Unit _ _ plays) () 0
    (by decide +kernel) (ConfigCall.eq_returned (by decide +kernel))
  have opened : ((LiveState.start Sample.builtServer : LiveState (Fin 3) Unit).script Unit
      actions).handles[0]?.any (fun handle => handle.tree == 0) = true := by
    decide +kernel
  obtain ⟨handle, found, same⟩ := (Option.any_eq_true _ _).mp opened
  refine ⟨handle, found, closed.2 ?_ 0 handle found (beq_iff_eq.mp same)⟩
  intro i
  apply Request.not_holds_of_answered
  revert i
  decide +kernel

/-- CREATE registers its open in a tree that `remove_share` has closed. -/
theorem create_outruns_removal :
    ¬∀ t : LiveState (Fin 3) Unit,
      Reachable (LiveStep Unit) (LiveState.start Sample.builtServer) t →
        ∀ k tref, t.closedBy tref = some k → t.calls k = .returned (.ok ()) →
          (∀ tree, t.trees[tref]? = some tree → tree.opens = Table.empty) ∧
            ((∀ i, ¬(t.requests i).Holds tref) →
              ∀ (h : Nat) (handle : LiveHandle), t.handles[h]? = some handle →
                handle.tree = tref → handle.closed = true) := by
  intro safe
  let actions := Sample.connected ++ Sample.opened ++ Sample.drained ++ [.config ()] ++
    Sample.registered
  have run := LiveState.script_reachable Unit
    (LiveState.start Sample.builtServer : LiveState (Fin 3) Unit) actions (by decide +kernel)
  have empty := (safe _ run () 0 (by decide +kernel)
    (ConfigCall.eq_returned (by decide +kernel))).1
  -- the open sits in a tree that should be empty
  have registered : ((LiveState.start Sample.builtServer : LiveState (Fin 3) Unit).script Unit
      actions).trees[0]?.any (fun tree => (tree.opens.lookup ⟨1, 1⟩).isSome) = true := by
    decide +kernel
  obtain ⟨tree, found, listed⟩ := Option.any_eq_true _ _ |>.mp registered
  rw [empty tree found] at listed
  cases listed

end SmbServer
