import SmbServer.Client
import SmbServer.Effects.Config
import SmbServer.Effects.Sweeps

/-!
# SmbServer.Properties.CurrentAccess

The access of a live tree against the access control list that its share has now, when requests and
configuration operations run one after another.

## Main result

`currentAccess_iff`: over every run on a server that the builder made, in every state each live tree
outside `IPC$` is of a registered share and within what the share's list grants its identity,
exactly when no step of the run narrows the grant of a user who has a tree with the wider access.

## Proof strategy

A TREE_CONNECT grants what the list says at that moment, and no other request changes a list or adds
a tree. An operation that takes access away is followed by a sweep, and what its sweep does not
clear (`Sweep.clears`) has the access it had: `Edited.covers_iff`. The exception is an edit without
a sweep, `grant_share_user` with less than before.
-/

namespace SmbServer

open Lib

variable {σ η : Type} [Host σ η]

/-! ### The registry -/

/-- A share is registered under its name in lower case. It is not `IPC$`, and its list is its own. -/
structure ServerShares.Indexed (s : ServerShares) : Prop where
  keyed : ∀ key share, s.byName.lookup key = some share → key = share.name.toAsciiLowercase
  disk : ∀ key share, s.byName.lookup key = some share → share.isIpc = false
  fresh : ∀ key share, s.byName.lookup key = some share → share.arc < s.nextArc
  apart : ∀ key key' share share', s.byName.lookup key = some share →
    s.byName.lookup key' = some share' → share.arc = share'.arc → share = share'

namespace ServerShares

variable {s s' : ServerShares}

theorem Indexed.of_names (i : s.Indexed) (names : s'.byName = s.byName)
    (arcs : s'.nextArc = s.nextArc) : s'.Indexed := by
  constructor
  case keyed => rw [names]; exact i.keyed
  case disk => rw [names]; exact i.disk
  case fresh => rw [names, arcs]; exact i.fresh
  case apart => rw [names]; exact i.apart

theorem Indexed.remove (i : s.Indexed) (name : Text) : (s.remove name).Indexed := by
  have before : ∀ key share, (s.remove name).byName.lookup key = some share →
      s.byName.lookup key = some share := by
    intro key share found
    rw [ServerShares.remove, Table.lookup_erase] at found
    split at found
    · cases found
    · exact found
  constructor
  case keyed => exact fun key share found => i.keyed key share (before key share found)
  case disk => exact fun key share found => i.disk key share (before key share found)
  case fresh => exact fun key share found => i.fresh key share (before key share found)
  case apart =>
    intro key key' share share' found found'
    exact i.apart key key' share share' (before key share found) (before key' share' found')

theorem Indexed.register (i : s.Indexed) (name : Text) (backend : BackendRef) (acl : ShareAcl) :
    (s.register name backend acl).Indexed := by
  -- the only new entry is the new share, under its own key
  have old : ∀ key share, (s.register name backend acl).byName.lookup key = some share →
      (key = name.toAsciiLowercase ∧ share = ⟨name, backend, false, s.nextArc⟩) ∨
        s.byName.lookup key = some share := by
    intro key share found
    rw [ServerShares.register, Table.lookup_insert] at found
    split at found
    next same => exact .inl ⟨same, (Option.some.inj found).symm⟩
    next => exact .inr found
  constructor
  case keyed =>
    intro key share found
    rcases old key share found with ⟨rfl, rfl⟩ | before
    · rfl
    · exact i.keyed key share before
  case disk =>
    intro key share found
    rcases old key share found with ⟨-, rfl⟩ | before
    · rfl
    · exact i.disk key share before
  case fresh =>
    intro key share found
    rcases old key share found with ⟨-, rfl⟩ | before
    · exact Nat.lt_succ_self s.nextArc
    · exact Nat.lt_succ_of_lt (i.fresh key share before)
  case apart =>
    intro key key' share share' found found' same
    rcases old key share found with ⟨-, rfl⟩ | before <;>
      rcases old key' share' found' with ⟨-, rfl⟩ | before'
    · rfl
    · exact absurd same.symm (Nat.ne_of_lt (i.fresh key' share' before'))
    · exact absurd same (Nat.ne_of_lt (i.fresh key share before))
    · exact i.apart key key' share share' before before' same

theorem indexed_registerAll (shares : List Share) :
    (SmbServerBuilder.registerAll shares).Indexed := by
  have folded (shares : List Share) (s : ServerShares) (i : s.Indexed) :
      (shares.foldl (fun s share =>
        s.register share.name share.backend ⟨share.mode, share.users⟩) s).Indexed := by
    induction shares generalizing s with
    | nil => exact i
    | cons first rest ih => exact ih _ (i.register _ _ _)
  apply folded
  constructor <;> intros <;> contradiction

/-- A list without a user says of everybody else what it said. -/
theorem authorize_dropUser (acl : ShareAcl) (user : Text) (identity : Identity)
    (other : identity.isUser user = false) :
    authorize (acl.dropUser user).mode (acl.dropUser user).users identity =
      authorize acl.mode acl.users identity := by
  cases mode : acl.mode with
  | «public» | publicReadOnly => simp only [ShareAcl.dropUser, mode, authorize]
  | authenticatedOnly =>
    cases identity with
    | anonymous => simp only [ShareAcl.dropUser, mode, authorize]
    | user name domain =>
      have apart : name ≠ user := by simpa [Identity.isUser] using other
      simp only [ShareAcl.dropUser, mode, authorize, Table.lookup_erase, if_neg apart]

/-- What dropping a user from every list leaves: the names, and what the lists say of others. -/
theorem dropUser_spec (s : ServerShares) (user : Text) :
    (s.dropUser user).byName = s.byName ∧ (s.dropUser user).nextArc = s.nextArc ∧
      ∀ arc identity, identity.isUser user = false →
        authorize ((s.dropUser user).acls arc).mode ((s.dropUser user).acls arc).users identity =
          authorize (s.acls arc).mode (s.acls arc).users identity := by
  rw [dropUser]
  generalize s.all = shares
  induction shares generalizing s with
  | nil => exact ⟨rfl, rfl, fun _ _ _ => rfl⟩
  | cons first rest ih =>
    obtain ⟨names, arcs, lists⟩ := ih (s.setAcl first.arc ((s.acls first.arc).dropUser user))
    refine ⟨names, arcs, fun arc identity other => (lists arc identity other).trans ?_⟩
    rw [setAcl_acls]
    split
    next same =>
      subst same
      exact authorize_dropUser _ user identity other
    next => rfl

end ServerShares

theorem ServerState.indexed_of_build [Crypto] (b : SmbServerBuilder) (server : ServerState)
    (built : b.build = .ok server) : server.shares.Indexed := by
  have registered : server.shares = SmbServerBuilder.registerAll b.shares := by
    simp only [SmbServerBuilder.build] at built
    cases users : SmbServerBuilder.validateUsers b.userOrder with
    | error => rw [users] at built; cases built
    | ok =>
      cases shares : SmbServerBuilder.validateShares b.users [] b.shares with
      | error => rw [users, shares] at built; cases built
      | ok =>
        cases address : b.listenAddr with
        | none => rw [users, shares, address] at built; cases built
        | some => rw [users, shares, address] at built; cases built; rfl
  rw [registered]
  exact ServerShares.indexed_registerAll b.shares

/-! ### One tree -/

namespace ServerState

/-- The tree is of `IPC$`, or its share is still registered and its access is within what the
share's list grants the session's identity, clamped for the backend. -/
def Covers (σ : Type) {η : Type} [Host σ η] (server : ServerState) (v : TreeView) : Prop :=
  v.share.isIpc = false →
    server.findShare v.share.name = some v.share ∧
      ∃ granted, TreeConnect.grantedOn σ server v.share v.identity = some granted ∧
        v.grantedAccess.le granted

end ServerState

/-- The operation narrows the grant of a user to reading, and this is a tree of that user and share
that may write. -/
def ConfigOp.Undercuts (server : ServerState) (v : TreeView) : ConfigOp → Prop
  | .grantShareUser shareName user .read =>
    server.findShare shareName = some v.share ∧ v.identity.isUser user = true ∧
      v.grantedAccess = .readWrite
  | _ => False

section
variable {server server' : ServerState} {v : TreeView}

/-- Coverage rests on the share's registration and on what its list says of the identity. -/
theorem ServerState.Covers.of_same (covered : server.Covers σ v)
    (found : server.findShare v.share.name = some v.share →
      server'.findShare v.share.name = some v.share)
    (granted : server.findShare v.share.name = some v.share →
      authorize (server'.shares.acls v.share.arc).mode (server'.shares.acls v.share.arc).users
          v.identity =
        authorize (server.shares.acls v.share.arc).mode (server.shares.acls v.share.arc).users
          v.identity) : server'.Covers σ v := by
  intro disk
  obtain ⟨registered, level, current, within⟩ := covered disk
  refine ⟨found registered, level, ?_, within⟩
  simp only [TreeConnect.grantedOn, ServerState.aclOf, disk, Bool.false_eq_true, if_false]
    at current ⊢
  rw [granted registered]
  exact current

/-- A list with another user says of everybody else what it said. -/
private theorem authorize_insertUser (acl : ShareAcl) (user : Text) (access : Access)
    (identity : Identity) (other : identity.isUser user = false) :
    authorize acl.mode (acl.users.insert user access) identity =
      authorize acl.mode acl.users identity := by
  cases mode : acl.mode with
  | «public» | publicReadOnly => rfl
  | authenticatedOnly =>
    cases identity with
    | anonymous => rfl
    | user name domain =>
      have apart : name ≠ user := by simpa [Identity.isUser] using other
      simp only [authorize, Table.lookup_insert, if_neg apart]

/-- A grant to the user whose tree this is. There is no sweep behind it, so the tree keeps the
access it has. -/
private theorem covers_granted {shareName user : Text} {access : Access}
    (disk : v.share.isIpc = false) (covered : server.Covers σ v)
    (known : server.findShare shareName = some v.share)
    (notPublic : (server.shares.acls v.share.arc).mode.isPublic = false)
    (owned : v.identity.isUser user = true) :
    (server.withShares (server.shares.setAcl v.share.arc
        { server.shares.acls v.share.arc with
          users := (server.shares.acls v.share.arc).users.insert user access })).Covers σ v ↔
      ¬ConfigOp.Undercuts server v (.grantShareUser shareName user access) := by
  obtain ⟨registered, level, current, within⟩ := covered disk
  have mode : (server.shares.acls v.share.arc).mode = .authenticatedOnly := by
    cases mode : (server.shares.acls v.share.arc).mode with
    | «public» | publicReadOnly => rw [mode] at notPublic; cases notPublic
    | authenticatedOnly => rfl
  -- what the new list grants is the level of the operation
  have granted : TreeConnect.grantedOn σ (server.withShares (server.shares.setAcl v.share.arc
      { server.shares.acls v.share.arc with
        users := (server.shares.acls v.share.arc).users.insert user access }))
      v.share v.identity = some (clampForBackend (v.share.backend.capabilities σ) access) := by
    cases identity : v.identity with
    | anonymous => rw [identity] at owned; cases owned
    | user name domain =>
      obtain rfl : name = user := by simpa [identity, Identity.isUser] using owned
      simp [TreeConnect.grantedOn, ServerState.aclOf, disk, ServerState.withShares,
        ServerShares.setAcl_acls, mode, authorize]
  have now : (server.withShares (server.shares.setAcl v.share.arc
      { server.shares.acls v.share.arc with
        users := (server.shares.acls v.share.arc).users.insert user access })).Covers σ v ↔
      v.grantedAccess.le (clampForBackend (v.share.backend.capabilities σ) access) := by
    constructor
    · intro after
      obtain ⟨-, level', current', within'⟩ := after disk
      rwa [← Option.some.inj (current'.symm.trans granted)]
    · intro within' _
      exact ⟨registered, _, granted, within'⟩
  rw [now]
  cases access with
  | readWrite =>
    refine iff_of_true ?_ id
    rw [clampForBackend]
    split
    next readOnly =>
      -- what a read-only backend let through was reading
      simp only [TreeConnect.grantedOn, Option.map_eq_some_iff] at current
      obtain ⟨listed, -, rfl⟩ := current
      rw [clampForBackend, if_pos readOnly] at within
      cases listed <;> exact within
    next => exact .inr rfl
  | read =>
    have reads : clampForBackend (v.share.backend.capabilities σ) .read = .read := by
      rw [clampForBackend]
      split <;> rfl
    rw [reads]
    constructor
    · rintro (lower | absurd) ⟨-, -, wider⟩
      · rw [lower] at wider
        cases wider
      · cases absurd
    · intro free
      cases level : v.grantedAccess with
      | read => exact .inl rfl
      | readWrite => exact absurd ⟨known, owned, level⟩ free

/-- After an operation, a tree that the sweep leaves is covered if it was, unless the operation
undercuts it. -/
theorem ServerState.Edited.covers_iff [Crypto] {op : ConfigOp} {sweep : Sweep}
    (edited : server.Edited op server' sweep) (indexed : server.shares.Indexed)
    (disk : v.share.isIpc = false) (covered : server.Covers σ v)
    (left : sweep.clears v = false) : server'.Covers σ v ↔ ¬op.Undercuts server v := by
  obtain ⟨registered, -⟩ := covered disk
  cases edited with
  | addUser name password | sameMode shareName mode share known same =>
    exact iff_of_true (covered.of_same id fun _ => rfl) id
  | removeUser name known =>
    refine iff_of_true (covered.of_same (fun found => ?_) fun _ => ?_) id
    · have names := (server.shares.dropUser_spec name).1
      rwa [findShare, ServerShares.find, names]
    · exact (server.shares.dropUser_spec name).2.2 v.share.arc v.identity left
  | addShare share fresh =>
    have other : v.share.name.toAsciiLowercase ≠ share.name.toAsciiLowercase := by
      intro same
      rw [findShare, ServerShares.find, same] at registered
      exact absurd (registered.symm.trans fresh) (Option.some_ne_none _)
    refine iff_of_true (covered.of_same (fun found => ?_) fun _ => ?_) id
    · rw [findShare, ServerShares.find, withShares, ServerShares.register, Table.lookup_insert,
        if_neg other]
      exact found
    · have old := indexed.fresh _ v.share registered
      simp only [withShares, ServerShares.register, if_neg (Nat.ne_of_lt old)]
  | removeShare name known =>
    have other : v.share.name.toAsciiLowercase ≠ name.toAsciiLowercase := by
      simpa [Sweep.clears, Text.eqIgnoreAsciiCase] using left
    refine iff_of_true (covered.of_same (fun found => ?_) fun _ => rfl) id
    rw [findShare, ServerShares.find, withShares, ServerShares.remove, Table.lookup_erase,
      if_neg other]
    exact found
  | grantShareUser shareName user access share known notPublic =>
    by_cases same : v.share = share ∧ v.identity.isUser user = true
    · obtain ⟨rfl, owned⟩ := same
      exact covers_granted disk covered known notPublic owned
    · refine iff_of_true (covered.of_same id fun _ => ?_) ?_
      · rw [withShares, ServerShares.setAcl_acls]
        split
        next sameArc =>
          obtain rfl := indexed.apart _ _ _ _ registered known sameArc
          have other : v.identity.isUser user = false := by simpa using same
          exact authorize_insertUser (server.shares.acls v.share.arc) user access v.identity other
        next => rfl
      · intro undercuts
        cases access with
        | readWrite => exact undercuts
        | read =>
          obtain ⟨found, owned, -⟩ := undercuts
          exact same ⟨Option.some.inj (found.symm.trans known), owned⟩
  | revokeShareUser shareName user share known =>
    refine iff_of_true (covered.of_same id fun _ => ?_) id
    rw [withShares, ServerShares.setAcl_acls]
    split
    next same =>
      obtain rfl := indexed.apart _ _ _ _ registered known same
      have named := ServerState.name_of_findShare indexed.keyed known
      have other : v.identity.isUser user = false := by
        simpa [Sweep.clears, named] using left
      exact ServerShares.authorize_dropUser _ user v.identity other
    next => rfl
  | setShareMode shareName mode share known other =>
    refine iff_of_true (covered.of_same id fun _ => ?_) id
    rw [withShares, ServerShares.setAcl_acls]
    split
    next same =>
      -- the sweep would have cleared it
      obtain rfl := indexed.apart _ _ _ _ registered known same
      rw [Sweep.clears, ServerState.name_of_findShare indexed.keyed known] at left
      cases left
    next => rfl

end

/-! ### One connection -/

/-- Every live tree of the connection is covered. -/
def Connection.Covered (σ : Type) {η : Type} [Host σ η] (server : ServerState)
    (conn : Connection η) : Prop :=
  ∀ sid tid v, conn.treeView sid tid = some v → server.Covers σ v

section
variable [Crypto] {server : ServerState} {hdr : Smb2Header} {before after : Connection η}

omit [Crypto] [Host σ η] in
/-- A tree of a session that one was put into is the new one or was there before. -/
private theorem treeView_insertTree (conn : Connection η) (sid sid' : UInt64) (tid tid' : UInt32)
    (share : ShareBindings) (granted : Access) (v : TreeView)
    (h : (TreeConnect.insertTree sid (TreeConnect.new tid share granted) conn).treeView sid' tid' =
      some v) :
    (∃ sess, conn.sessions.lookup sid = some sess ∧ v = ⟨sess.identity, share, granted⟩) ∨
      conn.treeView sid' tid' = some v := by
  rw [Connection.treeView, TreeConnect.insertTree, Connection.lookup_modifySession] at h
  split at h
  next same =>
    subst same
    obtain ⟨sess', changed, here⟩ := Option.bind_eq_some_iff.mp h
    obtain ⟨sess, old, rfl⟩ := Option.map_eq_some_iff.mp changed
    obtain ⟨tree, there, rfl⟩ := Option.map_eq_some_iff.mp here
    rw [Table.lookup_insert] at there
    split at there
    · obtain rfl := Option.some.inj there
      exact .inl ⟨sess, old, rfl⟩
    · refine .inr ?_
      rw [Connection.treeView, old, Option.bind_some, there]
      rfl
  next => exact .inr h

theorem Edit.covered (e : Edit σ server hdr before after) (indexed : server.shares.Indexed)
    (covered : before.Covered σ server) : after.Covered σ server := by
  intro sid tid v here
  -- a request other than TREE_CONNECT gives no tree and widens none
  by_cases connect : hdr.command = .treeConnect
  · cases e with
    | treeId sid' cmd =>
      rw [TreeConnect.allocTreeId, Connection.treeView_modifySession] at here
      · exact covered sid tid v here
      · exact fun _ => rfl
      · exact fun _ => rfl
    | addTree tid' share granted name bound authorized cmd =>
      rcases treeView_insertTree _ _ _ _ _ _ _ _ here with ⟨sess, found, rfl⟩ | old
      · -- the list was asked just now
        intro disk
        rw [TreeConnect.bindShare] at bound
        split at bound
        · obtain rfl := Option.some.inj bound
          cases disk
        · refine ⟨?_, granted, authorized sess found, granted.le_refl⟩
          have key := indexed.keyed _ share bound
          rw [ServerState.findShare, ServerShares.find] at bound ⊢
          rwa [← key]
      · exact covered sid tid v old
    | preauth _ cmd | commit _ _ cmd | exchange _ cmd | sessionId cmd | acceptors _ cmd
    | logon _ _ _ _ cmd | snapshot _ _ cmd | dropSession _ cmd | dropTree _ _ cmd
    | register _ _ _ _ cmd | dropOpen _ _ _ cmd | disposition _ _ _ _ cmd
    | lastPath _ _ _ _ cmd | cursor _ _ _ _ cmd => simp [cmd] at connect
  · exact covered sid tid v (e.treeView connect sid tid v here)

theorem Edits.covered (es : Edits σ server hdr before after) (indexed : server.shares.Indexed)
    (covered : before.Covered σ server) : after.Covered σ server := by
  induction es with
  | refl => exact covered
  | tail _ last ih => exact last.covered indexed ih

/-- One element leaves every tree of its connection covered. -/
theorem dispatchOne_covered (indexed : server.shares.Indexed) (frame : Bytes) (ordinal : UInt32)
    (w : World σ η) (covered : w.conn.Covered σ server) :
    (dispatchOne server frame ordinal w).2.conn.Covered σ server := by
  rcases dispatchOne_effect server frame ordinal w with same | ⟨hdr, body, -, run⟩
  · rwa [same.conn]
  · exact Edits.covered run.conn indexed covered

end

/-! ### Every connection -/

namespace System

/-- Every live tree outside `IPC$` is of a registered share, and within what the share's list grants
its identity now. -/
def Covered (s : System σ η) : Prop :=
  ∀ cid conn, s.conns.lookup cid = some conn → conn.Covered σ s.server

variable [Crypto]

/-- The step is an operation that succeeds and undercuts a live tree. -/
def Undercuts (s : System σ η) (step : Step) : Prop :=
  ∃ op, step = .config op ∧ (s.configure op).1 = .ok () ∧
    ∃ cid conn sid tid v, s.conns.lookup cid = some conn ∧ conn.treeView sid tid = some v ∧
      op.Undercuts s.server v

end System

section
variable [Crypto]

theorem ServerState.Edited.indexed {server server' : ServerState} {op : ConfigOp} {sweep : Sweep}
    (edited : server.Edited op server' sweep) (indexed : server.shares.Indexed) :
    server'.shares.Indexed := by
  cases edited with
  | addUser | sameMode => exact indexed
  | removeUser name =>
    obtain ⟨names, arcs, -⟩ := server.shares.dropUser_spec name
    exact indexed.of_names names arcs
  | addShare share => exact indexed.register _ _ _
  | removeShare name => exact indexed.remove name
  | grantShareUser | revokeShareUser | setShareMode => exact indexed.of_names rfl rfl

theorem System.execute_indexed (s : System σ η) (step : Step) (indexed : s.server.shares.Indexed) :
    (s.execute step).server.shares.Indexed := by
  cases step with
  | accept | hangup => exact indexed
  | element | smb1 => rwa [System.execute, System.onConn_server]
  | config op =>
    rw [System.execute, System.configure]
    split
    · exact indexed
    next server sweep edited =>
      rw [System.onEach_server]
      exact (ServerState.edited_of_edit _ _ _ _ edited).indexed indexed

omit [Crypto] in
/-- A sweep of nothing leaves every connection alone. -/
private theorem lookup_onEach_none (s : System σ η) (cid : UInt64) :
    (s.onEach (Sweep.onConnection .none)).conns.lookup cid = s.conns.lookup cid := by
  rw [System.onEach]
  generalize s.conns.keys = cids
  induction cids generalizing s with
  | nil => rfl
  | cons first rest ih =>
    rw [List.foldl_cons, ih, System.lookup_onConn]
    split
    · exact Option.map_id'
    · rfl

/-- An operation on a state where every tree is covered. -/
theorem System.configure_covered_iff (s : System σ η) (op : ConfigOp)
    (indexed : s.server.shares.Indexed) (covered : s.Covered) :
    (s.configure op).2.Covered ↔ ¬s.Undercuts (.config op) := by
  cases success : s.server.edit op with
  | error e =>
    have unchanged : s.configure op = (.error e, s) := by simp only [System.configure, success]
    rw [unchanged]
    refine iff_of_true covered ?_
    rintro ⟨op', same, done, -⟩
    cases same
    rw [unchanged] at done
    cases done
  | ok result =>
    obtain ⟨server, sweep⟩ := result
    have edited := ServerState.edited_of_edit _ _ _ _ success
    have after : (s.configure op).2.server = server := by
      simp only [System.configure, success, System.onEach_server]
    constructor
    · rintro afterwards ⟨op', same, -, cid, conn, sid, tid, v, live, here, undercuts⟩
      cases same
      -- a grant has no sweep, so the tree is still there
      have silent : sweep = .none := by
        cases edited with
        | grantShareUser => rfl
        | sameMode => rfl
        | addUser => rfl
        | addShare => rfl
        | removeUser | removeShare | revokeShareUser | setShareMode => exact undercuts.elim
      have stays : (s.configure op).2.conns.lookup cid = some conn := by
        simp only [System.configure, success, silent, lookup_onEach_none, live]
      have disk : v.share.isIpc = false := by
        cases op with
        | grantShareUser shareName user access =>
          cases access with
          | readWrite => exact undercuts.elim
          | read => exact indexed.disk _ _ undercuts.1
        | _ => exact undercuts.elim
      have left : sweep.clears v = false := by rw [silent]; rfl
      have still := afterwards cid conn stays sid tid v here
      rw [after] at still
      exact (edited.covers_iff indexed disk (covered cid conn live sid tid v here) left).mp still
        undercuts
    · intro free cid conn' found sid tid v here disk
      obtain ⟨conn, live, swept⟩ := s.configure_swept op server sweep success cid conn' found
      obtain ⟨old, left⟩ := swept sid tid v here
      rw [after]
      refine (edited.covers_iff indexed disk (covered cid conn live sid tid v old) left).mpr ?_ disk
      intro undercuts
      refine free ⟨op, rfl, ?_, cid, conn, sid, tid, v, live, old, undercuts⟩
      simp only [System.configure, success]

/-- Only a configuration operation can undercut a grant. -/
theorem System.covered_iff_of_other (s : System σ η) {step : Step} (other : ∀ op, step ≠ .config op)
    (kept : (s.execute step).Covered) : (s.execute step).Covered ↔ ¬s.Undercuts step := by
  refine iff_of_true kept fun undercuts => ?_
  obtain ⟨op, same, -⟩ := undercuts
  exact other op same

/-- A step from a state where every tree is covered. -/
theorem System.execute_covered_iff (s : System σ η) (step : Step)
    (indexed : s.server.shares.Indexed) (covered : s.Covered) :
    (s.execute step).Covered ↔ ¬s.Undercuts step := by
  cases step with
  | accept =>
    apply s.covered_iff_of_other (fun _ => Step.noConfusion)
    intro cid conn found sid tid v here
    simp only [System.execute, System.accept, Table.lookup_insert] at found
    split at found
    · obtain rfl := Option.some.inj found
      cases here
    · exact covered cid conn found sid tid v here
  -- the dispatcher works on one connection; the others keep theirs
  | element cid e =>
    apply s.covered_iff_of_other (fun _ => Step.noConfusion)
    intro cid' conn' found
    rw [System.execute, System.onConn_server]
    rw [System.execute, System.lookup_onConn] at found
    split at found
    · obtain ⟨conn, live, rfl⟩ := Option.map_eq_some_iff.mp found
      exact dispatchOne_covered indexed e.bytes e.ordinal ⟨conn, s.env⟩ (covered _ conn live)
    · exact covered cid' conn' found
  | smb1 cid chosen =>
    apply s.covered_iff_of_other (fun _ => Step.noConfusion)
    intro cid' conn' found
    rw [System.execute, System.onConn_server]
    simp only [System.execute, System.lookup_onConn, (smb1_frame s.server chosen _).1,
      Option.map_id', ite_self] at found
    exact covered cid' conn' found
  | hangup cid =>
    apply s.covered_iff_of_other (fun _ => Step.noConfusion)
    intro cid' conn' found
    simp only [System.execute, System.hangup, Table.lookup_erase] at found
    split at found
    · cases found
    · exact covered cid' conn' found
  | config op => exact s.configure_covered_iff op indexed covered

/-! ### A run -/

/-- Over every run, every live tree stays within the access that the current list of its share
grants exactly when no operation narrows a grant under a tree that has more. -/
theorem currentAccess_iff (b : SmbServerBuilder) (server : ServerState)
    (built : b.build = .ok server) (host : σ) (events : List Event) :
    System.Throughout server host events (fun (s : System σ η) step => (s.execute step).Covered) ↔
      System.Throughout server host events fun (s : System σ η) step => ¬s.Undercuts step := by
  have indexed := ServerState.indexed_of_build b server built
  have nobody : (System.start server host : System σ η).Covered := by
    intro cid conn found
    cases found
  refine Always.congr (fun s => s.server.shares.Indexed ∧ s.Covered) _ _ ⟨indexed, nobody⟩ ?_ ?_
  · exact fun s step _ inv => s.execute_covered_iff step inv.1 inv.2
  · exact fun s step _ inv holds => ⟨s.execute_indexed step inv.1, holds⟩

end

/-! ### A narrower grant -/

open scoped Sample

namespace Sample

/-- The user connects to the share that lets it write. -/
def connectedUser : List Event :=
  session (userOn 0x0210 ++
    [Client.plain .treeConnect 1 0 (Client.treeConnectBody ['\\', '\\', 's', '\\', 'a'])])

/-- The application leaves the user reading only. -/
def narrows : ConfigOp := .grantShareUser ['a'] user .read

end Sample

theorem currentAccess_narrows :
    System.Throughout Sample.server () (Sample.connectedUser ++ [.config Sample.narrows])
        (fun (s : System Unit Unit) step => (s.execute step).Covered) ↔
      System.Throughout Sample.server () (Sample.connectedUser ++ [.config Sample.narrows])
        fun (s : System Unit Unit) step => ¬s.Undercuts step :=
  currentAccess_iff Sample.builder Sample.server Sample.build_builder () _

/-- The tree keeps its write access behind the grant. -/
theorem grant_keeps_access :
    ¬∀ events : List Event, System.Throughout Sample.server () events
      fun (s : System Unit Unit) step => (s.execute step).Covered := by
  intro all
  have run := all (Sample.connectedUser ++ [.config Sample.narrows])
  rw [System.Throughout, System.steps_append, Always.append, ← System.run_eq] at run
  have covered : (((System.start Sample.server ()).run Sample.connectedUser).execute
    (.config Sample.narrows) : System Unit Unit).Covered := run.2.1
  generalize after : ((System.start Sample.server ()).run Sample.connectedUser).execute
    (.config Sample.narrows) = s at covered
  -- the user's tree is wider than what the list grants now
  have reached : ((s.conns.lookup 1).any fun conn => (conn.treeView 1 1).any fun v =>
      v.grantedAccess == .readWrite && !v.share.isIpc &&
        TreeConnect.grantedOn Unit s.server v.share v.identity == some .read) = true := by
    rw [← after]
    decide +kernel
  simp only [Option.any_eq_true, Bool.and_eq_true, beq_iff_eq, Bool.not_eq_true'] at reached
  obtain ⟨conn, live, v, here, ⟨wide, disk⟩, narrow⟩ := reached
  obtain ⟨-, granted, current, within⟩ := covered 1 conn live 1 1 v here disk
  obtain rfl := Option.some.inj (narrow.symm.trans current)
  rw [wide] at within
  cases Access.eq_readWrite_of_le within

end SmbServer
