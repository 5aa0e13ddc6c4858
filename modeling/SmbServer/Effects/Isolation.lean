import SmbServer.Effects.Handles
import SmbServer.Effects.SessionIds

/-!
# SmbServer.Effects.Isolation

What one request reaches: the tree and the opens that its header names, and nothing of any other
tree or session.
-/

namespace SmbServer

open Lib

/-- The share that a call goes to. -/
def BackendCall.backend : BackendCall → Option BackendRef
  | .open backend _ _ _ | .unlink backend _ | .rename backend _ _ _ => some backend
  | .read .. | .writeOwned .. | .flush _ | .stat _ | .setTimes .. | .truncate .. | .listDir ..
  | .close _ => none

variable {σ η : Type}

namespace Connection

/-- The live tree that a request names. -/
def NamedTree (conn : Connection η) (hdr : Smb2Header) (tree : TreeConnect η) : Prop :=
  ∃ tid, hdr.treeId = some tid ∧ conn.findTree hdr.sessionId tid = some tree

/-- The number of a handle that is registered in the tree that a request names. -/
def Registered (conn : Connection η) (hdr : Smb2Header) (serial : Nat) : Prop :=
  ∃ tree fid file h, conn.NamedTree hdr tree ∧ tree.opens.lookup fid = some file ∧
    file.handle = some h ∧ serial = h.serial

/-- A call goes to the share of the tree that the request names, or to a handle registered there. -/
structure Reaches (conn : Connection η) (hdr : Smb2Header) (call : BackendCall) : Prop where
  backend : ∀ b, call.backend = some b → ∃ tree, conn.NamedTree hdr tree ∧
    b = tree.share.backend
  handle : ∀ serial, call.handle = some serial → conn.Registered hdr serial

end Connection

/-- Only the tree that a request names may differ; a TREE_CONNECT may add a tree without opens. -/
structure Confined (hdr : Smb2Header) (conn conn' : Connection η) : Prop where
  sessions : OtherSessions hdr.sessionId conn conn'
  trees : ∀ tid, hdr.treeId ≠ some tid →
    conn'.findTree hdr.sessionId tid = conn.findTree hdr.sessionId tid ∨
      (hdr.command = .treeConnect ∧ conn.findTree hdr.sessionId tid = none ∧
        ∃ tree, conn'.findTree hdr.sessionId tid = some tree ∧ tree.opens = Table.empty)

/-- What a request other than LOGOFF reaches. -/
structure Isolated (hdr : Smb2Header) (conn : Connection η) (new : List Issued)
    (conn' : Connection η) : Prop where
  backend : ∀ c ∈ new, ∀ b, c.call.backend = some b → ∃ tree, conn.NamedTree hdr tree ∧
    b = tree.share.backend
  handle : ∀ c ∈ new, ∀ serial, c.call.handle = some serial → conn.Registered hdr serial ∨
    (hdr.command = .create ∧ ∃ c' ∈ new, c'.opened = some serial)
  confined : Confined hdr conn conn'
  setup : hdr.command = .sessionSetup → new = [] ∧
    (conn'.sessions.lookup hdr.sessionId = conn.sessions.lookup hdr.sessionId ∨
      (conn.sessions.lookup hdr.sessionId = none ∧
        ∃ sess, conn'.sessions.lookup hdr.sessionId = some sess ∧ sess.trees = Table.empty))

/-- What a LOGOFF reaches: the handles of its session are closed. -/
structure OwnSession (hdr : Smb2Header) (conn : Connection η) (new : List Issued)
    (conn' : Connection η) : Prop where
  calls : ∀ c ∈ new, ∃ tid fid file h, conn.findOpen hdr.sessionId tid fid = some file ∧
    file.handle = some h ∧ c.call = .close h.serial
  sessions : OtherSessions hdr.sessionId conn conn'

/-! ### Changes of the named tree -/

section
variable {hdr : Smb2Header}

theorem Confined.refl (conn : Connection η) : Confined hdr conn conn :=
  ⟨fun _ _ => rfl, fun _ _ => .inl rfl⟩

/-- The same sessions hold the same trees. -/
theorem Confined.of_sessions {conn conn' : Connection η} (same : conn'.sessions = conn.sessions) :
    Confined hdr conn conn' := by
  constructor
  · intro sid _
    rw [same]
  · intro tid _
    exact .inl (by rw [Connection.findTree, Connection.findTree, same])

/-- An update of the tree that the request names. -/
def TreeEdit (hdr : Smb2Header) (conn conn' : Connection η) : Prop :=
  ∃ tid f, hdr.treeId = some tid ∧ conn' = conn.modifyTree hdr.sessionId tid f

theorem Confined.then_edit {a b c : Connection η} (first : Confined hdr a b)
    (second : TreeEdit hdr b c) : Confined hdr a c := by
  obtain ⟨tid, f, named, rfl⟩ := second
  constructor
  · intro sid other
    rw [Connection.modifyTree, Connection.lookup_modifySession, if_neg other]
    exact first.sessions sid other
  · intro tid' unnamed
    have apart : ¬(hdr.sessionId = hdr.sessionId ∧ tid' = tid) := by
      rintro ⟨-, rfl⟩
      exact unnamed named
    rw [Connection.findTree_modifyTree, if_neg apart]
    exact first.trees tid' unnamed

theorem Confined.of_edits {conn conn' : Connection η}
    (edits : Relation.ReflTransGen (TreeEdit hdr) conn conn') : Confined hdr conn conn' := by
  induction edits with
  | refl => exact .refl conn
  | tail _ last ih => exact ih.then_edit last

/-- A tree that leaves its session. -/
theorem Confined.of_otherTrees {conn conn' : Connection η} {tid : UInt32}
    (named : hdr.treeId = some tid) (sessions : OtherSessions hdr.sessionId conn conn')
    (trees : OtherTrees hdr.sessionId tid conn conn') : Confined hdr conn conn' := by
  refine ⟨sessions, fun tid' unnamed => .inl (trees _ _ ?_)⟩
  rintro ⟨-, rfl⟩
  exact unnamed named

/-- A tree of the session that is new. -/
theorem Confined.of_inserted {conn : Connection η} {sess : Session η} (share : ShareBindings)
    (granted : Access) (cmd : hdr.command = .treeConnect)
    (live : conn.sessions.lookup hdr.sessionId = some sess)
    (free : sess.trees.lookup sess.nextTreeId = none) :
    Confined hdr conn (TreeConnect.insertTree hdr.sessionId
      (TreeConnect.new sess.nextTreeId share granted)
      (TreeConnect.allocTreeId hdr.sessionId conn)) := by
  -- the session behind both updates: the counter is one further, and one tree is new
  have after : (TreeConnect.insertTree hdr.sessionId
      (TreeConnect.new sess.nextTreeId share granted)
      (TreeConnect.allocTreeId hdr.sessionId conn)).sessions.lookup hdr.sessionId =
        some { sess with
          nextTreeId := sess.nextTreeId + 1
          trees := sess.trees.insert sess.nextTreeId
            (TreeConnect.new sess.nextTreeId share granted) } := by
    rw [TreeConnect.insertTree, TreeConnect.allocTreeId, Connection.lookup_modifySession,
      if_pos rfl, Connection.lookup_modifySession, if_pos rfl, live]
    rfl
  constructor
  · intro sid other
    rw [TreeConnect.insertTree, TreeConnect.allocTreeId, Connection.lookup_modifySession,
      if_neg other, Connection.lookup_modifySession, if_neg other]
  · intro tid _
    simp only [Connection.findTree, after, live, Option.bind_some, Table.lookup_insert]
    split
    next same =>
      subst same
      exact .inr ⟨cmd, free, _, rfl, rfl⟩
    next => exact .inl rfl

end

/-! ### Calls -/

section
variable {hdr : Smb2Header} {conn : Connection η}

/-- The target of a request is in the tree that the request names. -/
theorem namedTree_of_lookupTarget {fid : FileId} {target : Target η}
    (found : lookupTarget conn hdr fid = .ok target) :
    hdr.treeId = some target.tid ∧ conn.NamedTree hdr target.tree ∧
      target.tree.opens.lookup fid = some target.file := by
  obtain ⟨tree, file⟩ := (lookupTarget_eq_ok conn hdr fid target).mp found
  obtain ⟨named, -, here⟩ := (lookupSessionTree_eq_ok conn hdr _ _).mp tree
  exact ⟨named, ⟨target.tid, named, here⟩, file⟩

theorem Names.registered {target : Target η} {serial : Nat}
    (h : Names conn hdr target serial) : conn.Registered hdr serial := by
  obtain ⟨fid, handle, found, live, same⟩ := h
  obtain ⟨-, named, here⟩ := namedTree_of_lookupTarget found
  exact ⟨target.tree, fid, target.file, handle, named, here, live, same⟩

/-- A call through a registered handle. -/
theorem Connection.Reaches.of_handle {call : BackendCall} {serial : Nat}
    (here : call.handle = some serial) (noBackend : call.backend = none)
    (registered : conn.Registered hdr serial) : conn.Reaches hdr call := by
  constructor
  · intro b named
    rw [noBackend] at named
    cases named
  · intro serial' named
    obtain rfl := Option.some.inj (here.symm.trans named)
    exact registered

/-- A call of the backend of the named tree. -/
theorem Connection.Reaches.of_backend {call : BackendCall} {tree : TreeConnect η}
    (named : conn.NamedTree hdr tree) (here : call.backend = some tree.share.backend)
    (noHandle : call.handle = none) : conn.Reaches hdr call := by
  constructor
  · intro b same
    exact ⟨tree, named, Option.some.inj (same.symm.trans here)⟩
  · intro serial absurd
    rw [noHandle] at absurd
    cases absurd

variable [Host σ η]

/-- Outside CREATE, a warranted call that closes nothing stays with the named tree. -/
theorem Warrant.reaches {next : Nat} {body : Bytes} {c : Issued}
    (h : Warrant conn next hdr body c) (noCreate : hdr.command ≠ .create)
    (noClose : c.call.closes = none) : conn.Reaches hdr c.call := by
  obtain ⟨origin, call⟩ := c
  -- a call under a path is one of the named tree's backend; a call under a handle is one of its
  -- opens
  cases call with
  | «open» backend path opts result =>
    obtain ⟨plan, cmd, -⟩ := h
    exact absurd cmd noCreate
  | unlink backend path =>
    obtain ⟨req, target, -, admitted, -, -, rfl, -⟩ := h
    obtain ⟨-, found⟩ := (Close.validate_eq_ok conn hdr body req target).mp admitted
    exact .of_backend (namedTree_of_lookupTarget found).2.1 rfl rfl
  | rename backend src dst replace =>
    obtain ⟨target, ⟨-, req, admitted, -⟩, -, rfl, -⟩ := h
    obtain ⟨-, -, found⟩ := (SetInfo.validate_eq_ok conn hdr body req target).mp admitted
    exact .of_backend (namedTree_of_lookupTarget found).2.1 rfl rfl
  | writeOwned serial offset data =>
    obtain ⟨req, target, handle, -, -, admitted, -, rfl⟩ := h
    obtain ⟨found, -, live⟩ := Write.validate_eq_ok conn hdr req target handle admitted
    exact .of_handle rfl rfl (Names.registered ⟨req.fileId, handle, found, live, rfl⟩)
  | setTimes serial times =>
    obtain ⟨target, handle, reaches, -, rfl⟩ := h
    exact .of_handle rfl rfl (reaches.names handle (.inl ⟨times, rfl⟩)).registered
  | truncate serial len =>
    obtain ⟨target, handle, reaches, -, rfl⟩ := h
    exact .of_handle rfl rfl (reaches.names handle (.inr ⟨len, rfl⟩)).registered
  | read serial offset len =>
    obtain ⟨target, names⟩ := h
    exact .of_handle rfl rfl names.registered
  | flush serial =>
    obtain ⟨target, names⟩ := h
    exact .of_handle rfl rfl names.registered
  | stat serial =>
    rcases h with ⟨cmd, -⟩ | ⟨target, names⟩
    · exact absurd cmd noCreate
    · exact .of_handle rfl rfl names.registered
  | listDir serial pattern =>
    obtain ⟨target, names, -⟩ := h
    exact .of_handle rfl rfl names.registered
  | close serial => cases noClose

end

/-- A request other than CREATE that stays with the named tree. -/
theorem Isolated.of_reaches {hdr : Smb2Header} {conn conn' : Connection η} {new : List Issued}
    (calls : ∀ c ∈ new, conn.Reaches hdr c.call) (confined : Confined hdr conn conn')
    (noSetup : hdr.command ≠ .sessionSetup) : Isolated hdr conn new conn' where
  backend c member := (calls c member).backend
  handle c member serial goes := .inl ((calls c member).handle serial goes)
  confined := confined
  setup cmd := absurd cmd noSetup

/-! ### Handlers that change their tables -/

section
variable [Host σ η] {server : ServerState} {hdr : Smb2Header} {body : Bytes}

theorem SetInfo.handle_confined (w : World σ η) :
    Effect (TreeEdit hdr) (fun _ => True) w (SetInfo.handle server hdr body w).2 := by
  simp only [SetInfo.handle, Action.bind_apply, getConn_apply]
  cases admitted : SetInfo.validate w.conn hdr body with
  | error status => exact Effect.refl w
  | ok pair =>
    obtain ⟨req, target⟩ := pair
    obtain ⟨-, -, found⟩ := (SetInfo.validate_eq_ok w.conn hdr body req target).mp admitted
    obtain ⟨named, -, -⟩ := namedTree_of_lookupTarget found
    -- both updates are updates of an open of the named tree
    have performed op : Action.Moves (Effect (TreeEdit hdr) fun _ => True)
        (SetInfo.perform (σ := σ) server hdr.sessionId req.fileId target op) := by
      cases op with
      | setTimes | truncate => exact Effect.bind (Effect.issue _ _ _ trivial) fun _ => Effect.pure _
      | disposition flag =>
        exact Effect.bind (Effect.modifyConn fun conn => ⟨target.tid, _, named, rfl⟩) fun _ =>
          Effect.pure _
      | rename path replace =>
        refine Effect.bind (Effect.record _ _) fun _ => ?_
        refine Effect.bind (Effect.issue _ _ _ trivial) fun answer => ?_
        cases answer with
        | error e => exact Effect.pure _
        | ok =>
          exact Effect.bind (Effect.modifyConn fun conn => ⟨target.tid, _, named, rfl⟩) fun _ =>
            Effect.pure _
      | allocation => exact Effect.pure _
    dsimp only
    refine (?_ : Action.Moves (Effect (TreeEdit hdr) fun _ => True) _) w
    split
    · refine Effect.bind (Effect.record _ _) fun _ => ?_
      split
      · exact Effect.pure _
      · exact performed _
    · split
      · exact Effect.pure _
      · exact performed _

theorem QueryDirectory.handle_confined (w : World σ η) :
    Effect (TreeEdit hdr) (fun _ => True) w (QueryDirectory.handle hdr body w).2 := by
  simp only [QueryDirectory.handle, Action.bind_apply, getConn_apply]
  cases admitted : QueryDirectory.validate w.conn hdr body with
  | error status => exact Effect.refl w
  | ok parts =>
    obtain ⟨req, target⟩ := parts
    obtain ⟨-, found, -⟩ := QueryDirectory.validate_eq_ok w.conn req target admitted
    obtain ⟨named, -, -⟩ := namedTree_of_lookupTarget found
    -- the cursor belongs to an open of the named tree
    have stored (cursor : DirCursor) : Action.Moves (Effect (TreeEdit hdr) fun _ => True)
        (modifyConn (QueryDirectory.storeCursor hdr.sessionId target.tid req.fileId cursor) :
          Action (World σ η) Unit) :=
      Effect.modifyConn fun conn => ⟨target.tid, _, named, rfl⟩
    refine Effect.bind (E := TreeEdit hdr) (Q := fun _ => True)
      (m := QueryDirectory.populate hdr.sessionId req target) ?_ (fun populated => ?_) w
    · rw [QueryDirectory.populate]
      split
      · exact Effect.pure _
      split
      · exact Effect.pure _
      · refine Effect.bind (Effect.issue _ _ _ trivial) fun answer => ?_
        cases answer with
        | error e => exact Effect.pure _
        | ok entries => exact Effect.bind (stored _) fun _ => Effect.pure _
    cases populated with
    | error status => exact Effect.pure _
    | ok =>
      refine Effect.bind Effect.getConn fun _ => ?_
      split
      · exact Effect.bind (Effect.panicAt _) fun _ => Effect.pure _
      · refine Effect.bind (stored _) fun _ => ?_
        split <;> exact Effect.pure _

end

/-! ### TREE_CONNECT -/

section
variable [Host σ η] {server : ServerState} {hdr : Smb2Header} {body : Bytes}

/-- The request is granted this access to this share in this session. -/
structure TreeConnect.Grants (σ : Type) {η : Type} [Host σ η] (server : ServerState)
    (conn : Connection η) (hdr : Smb2Header) (body : Bytes) (sess : Session η)
    (share : ShareBindings) (granted : Access) : Prop where
  session : lookupSession conn hdr.sessionId = .ok sess
  bound : ∃ name, validate body = .ok name ∧ bindShare server name = some share
  access : grantedOn σ server share sess.identity = some granted

/-- What a TREE_CONNECT that is granted leaves of the connection. -/
theorem TreeConnect.Grants.handle_conn {w : World σ η} {sess : Session η} {share : ShareBindings}
    {granted : Access} (h : Grants σ server w.conn hdr body sess share granted) :
    (TreeConnect.handle server hdr body w).2.conn =
      insertTree hdr.sessionId (TreeConnect.new sess.nextTreeId share granted)
        (allocTreeId hdr.sessionId w.conn) := by
  obtain ⟨name, named, bound⟩ := h.bound
  simp only [TreeConnect.handle, named, Action.bind_apply, getConn_apply, h.session, bound,
    h.access, modifyConn_apply, Action.pure_apply, World.setConn_conn]

/-- It is answered with the id that it takes. -/
theorem TreeConnect.Grants.handle_answer {w : World σ η} {sess : Session η} {share : ShareBindings}
    {granted : Access} (h : Grants σ server w.conn hdr body sess share granted) :
    (TreeConnect.handle server hdr body w).1 =
      { HandlerResponse.ok (response share granted) with
        overrideTreeId := some sess.nextTreeId } := by
  obtain ⟨name, named, bound⟩ := h.bound
  simp only [TreeConnect.handle, named, Action.bind_apply, getConn_apply, h.session, bound,
    h.access, Action.pure_apply]

/-- A TREE_CONNECT that is not granted changes nothing. -/
theorem TreeConnect.handle_cases (server : ServerState) (hdr : Smb2Header) (body : Bytes)
    (w : World σ η) :
    (TreeConnect.handle server hdr body w).2 = w ∨
      ∃ sess share granted, Grants σ server w.conn hdr body sess share granted := by
  rw [TreeConnect.handle]
  cases named : validate body with
  | error status => exact .inl rfl
  | ok name =>
    -- each check in front of the first update can end the request
    simp only [Action.bind_apply, getConn_apply]
    cases session : lookupSession w.conn hdr.sessionId with
    | error status => exact .inl rfl
    | ok sess =>
      cases bound : bindShare server name with
      | none => exact .inl rfl
      | some share =>
        cases access : grantedOn σ server share sess.identity with
        | none =>
          simp only [access]
          exact .inl rfl
        | some granted => exact .inr ⟨sess, share, granted, session, ⟨name, named, bound⟩, access⟩

end

variable [Host σ η] [Crypto]

/-- The request takes an id that is in use: a TREE_CONNECT that of a live tree of its session, a
SESSION_SETUP that of a live session. -/
inductive ReusesId (σ : Type) {η : Type} [Host σ η] (server : ServerState) (conn : Connection η)
    (hdr : Smb2Header) (body : Bytes) : Prop where
  | tree (sess : Session η) (share : ShareBindings) (granted : Access)
      (cmd : hdr.command = .treeConnect)
      (grants : TreeConnect.Grants σ server conn hdr body sess share granted)
      (live : (sess.trees.lookup sess.nextTreeId).isSome)
  | session (acceptor : NtlmServer) (token : SessionSetup.Token)
      (cmd : hdr.command = .sessionSetup)
      (round : conn.setupRound hdr.sessionId body =
        some (.authenticates hdr.sessionId acceptor token))
      (live : (conn.sessions.lookup hdr.sessionId).isSome)

section
variable {server : ServerState} {hdr : Smb2Header} {body : Bytes}

omit [Crypto] in
theorem TreeConnect.handle_confined (w : World σ η) (cmd : hdr.command = .treeConnect)
    (fresh : ¬ReusesId σ server w.conn hdr body) :
    Confined hdr w.conn (TreeConnect.handle server hdr body w).2.conn := by
  rcases TreeConnect.handle_cases server hdr body w with same | ⟨sess, share, granted, grants⟩
  · rw [same]
    exact .refl _
  · rw [grants.handle_conn]
    obtain ⟨-, live⟩ := (lookupSession_eq_ok _ _ _).mp grants.session
    refine .of_inserted share granted cmd live ?_
    cases free : sess.trees.lookup sess.nextTreeId with
    | none => rfl
    | some tree => exact absurd (.tree sess share granted cmd grants (by rw [free]; rfl)) fresh

/-- The commands that update a table in place. -/
def Command.Updates (command : Command) : Prop :=
  command = .negotiate ∨ command = .treeConnect ∨ command = .setInfo ∨ command = .queryDirectory

/-- Every other command that closes nothing leaves the connection alone. -/
theorem Edits.unchanged {conn conn' : Connection η} (edits : Edits σ server hdr conn conn')
    (noUpdate : ¬hdr.command.Updates) (noClose : ¬hdr.command.Closes)
    (noSetup : hdr.command ≠ .sessionSetup) : conn' = conn := by
  induction edits with
  | refl => rfl
  | tail _ last ih =>
    cases last with
    | preauth _ cmd | commit _ _ cmd => exact absurd (.inl cmd) noUpdate
    | exchange _ cmd | sessionId cmd | acceptors _ cmd | logon _ _ _ _ cmd | snapshot _ _ cmd =>
      exact absurd cmd noSetup
    | dropSession _ cmd => exact absurd (.inr (.inr (.inl cmd))) noClose
    | treeId _ cmd | addTree _ _ _ _ _ _ cmd => exact absurd (.inr (.inl cmd)) noUpdate
    | dropTree _ _ cmd => exact absurd (.inr (.inr (.inr cmd))) noClose
    | register _ _ _ _ cmd => exact absurd (.inl cmd) noClose
    | dropOpen _ _ _ cmd => exact absurd (.inr (.inl cmd)) noClose
    | disposition _ _ _ _ cmd | lastPath _ _ _ _ cmd =>
      exact absurd (.inr (.inr (.inl cmd))) noUpdate
    | cursor _ _ _ _ cmd => exact absurd (.inr (.inr (.inr cmd))) noUpdate

/-- NEGOTIATE leaves the sessions alone. -/
theorem Edits.sessions {conn conn' : Connection η} (edits : Edits σ server hdr conn conn')
    (cmd : hdr.command = .negotiate) : conn'.sessions = conn.sessions := by
  induction edits with
  | refl => rfl
  | tail _ last ih =>
    refine Eq.trans ?_ ih
    cases last with
    | preauth | commit | exchange | sessionId | acceptors => rfl
    | logon _ _ _ _ other | snapshot _ _ other | dropSession _ other | treeId _ other
    | addTree _ _ _ _ _ _ other | dropTree _ _ other | register _ _ _ _ other
    | dropOpen _ _ _ other | disposition _ _ _ _ other | lastPath _ _ _ _ other | cursor _ _ _ _ other =>
      rw [cmd] at other
      cases other

end

/-! ### One element -/

/-- What a request reaches between two worlds. -/
def IsolatedRun (hdr : Smb2Header) (w w' : World σ η) : Prop :=
  ∃ new, w'.env.calls = w.env.calls ++ new ∧ Isolated hdr w.conn new w'.conn

section
variable {server : ServerState} {frame : Bytes} {ordinal : UInt32} {w : World σ η}
  {hdr : Smb2Header} {body : Bytes}

omit [Host σ η] [Crypto] in
/-- The effect of a handler, seen between the worlds around the dispatch. -/
theorem IsolatedRun.around {w₁ w₂ w' : World σ η} (before : Alike w w₁)
    (run : IsolatedRun hdr w₁ w₂) (after : Alike w₂ w') : IsolatedRun hdr w w' := by
  obtain ⟨new, grown, isolated⟩ := run
  refine ⟨new, by rw [after.calls, grown, before.calls], ?_⟩
  rwa [after.conn, ← before.conn]

omit [Host σ η] [Crypto] in
theorem IsolatedRun.refl (w : World σ η) (noSetup : hdr.command ≠ .sessionSetup) :
    IsolatedRun hdr w w :=
  ⟨[], (List.append_nil _).symm, .of_reaches (by simp) (.refl _) noSetup⟩

omit [Crypto] in
theorem Create.Outcome.isolated {plan : Create.Plan η} {w' : World σ η}
    (h : Create.Outcome hdr.sessionId plan w w') (cmd : hdr.command = .create)
    (admitted : Create.validate w.conn hdr body = .ok plan) : IsolatedRun hdr w w' := by
  obtain ⟨found, -⟩ := Create.validate_eq_ok w.conn hdr body plan admitted
  obtain ⟨named, -, here⟩ := (lookupSessionTree_eq_ok w.conn hdr _ _).mp found
  have tree : w.conn.NamedTree hdr plan.tree := ⟨plan.tid, named, here⟩
  have noSetup : hdr.command ≠ .sessionSetup := by simp [cmd]
  cases h with
  | refused _ conn calls _ =>
    refine ⟨_, calls, .of_reaches ?_ (conn ▸ .refl _) noSetup⟩
    intro c member
    obtain rfl := List.mem_singleton.mp member
    exact .of_backend tree rfl rfl
  | abandoned inner _ _ conn calls _ =>
    refine ⟨_, calls, ?_, ?_, conn ▸ .refl _, fun setup => absurd setup noSetup⟩
    · intro c member b goes
      simp only [List.mem_cons, List.not_mem_nil, or_false] at member
      rcases member with rfl | rfl | rfl
      · exact ⟨plan.tree, tree, (Option.some.inj goes).symm⟩
      · cases goes
      · cases goes
    · intro c member serial goes
      simp only [List.mem_cons, List.not_mem_nil, or_false] at member
      -- both go to the handle that was just opened
      refine .inr ⟨cmd, plan.opening hdr.sessionId (some w.env.nextHandle), by simp, ?_⟩
      rcases member with rfl | rfl | rfl
      · cases goes
      · exact goes
      · exact goes
  | registered inner info _ _ conn calls _ =>
    refine ⟨_, calls, ?_, ?_, ?_, fun setup => absurd setup noSetup⟩
    · intro c member b goes
      simp only [List.mem_cons, List.not_mem_nil, or_false] at member
      rcases member with rfl | rfl
      · exact ⟨plan.tree, tree, (Option.some.inj goes).symm⟩
      · cases goes
    · intro c member serial goes
      simp only [List.mem_cons, List.not_mem_nil, or_false] at member
      refine .inr ⟨cmd, plan.opening hdr.sessionId (some w.env.nextHandle), by simp, ?_⟩
      rcases member with rfl | rfl
      · cases goes
      · exact goes
    · rw [conn]
      exact ((Confined.refl w.conn).then_edit ⟨plan.tid, _, named, rfl⟩).then_edit
        ⟨plan.tid, _, named, rfl⟩

omit [Host σ η] [Crypto] in
theorem Close.Outcome.isolated {req : CloseRequest} {target : Target η} {w' : World σ η}
    (h : Close.Outcome hdr.sessionId req target w w') (cmd : hdr.command = .close)
    (found : lookupTarget w.conn hdr req.fileId = .ok target) : IsolatedRun hdr w w' := by
  obtain ⟨named, tree, -⟩ := namedTree_of_lookupTarget found
  have registered (b : Boxed η) (live : target.file.handle = some b) :
      w.conn.Registered hdr b.serial :=
    Names.registered ⟨req.fileId, b, found, live, rfl⟩
  obtain ⟨stats, looked, calls⟩ := h.calls
  rw [List.append_assoc, List.append_assoc] at calls
  refine ⟨_, calls, .of_reaches ?_ ?_ (by simp [cmd])⟩
  · intro c member
    -- stat and close go through the handle of the open, unlink through its tree
    rcases List.mem_append.mp member with stat | member
    · obtain ⟨b, live, call⟩ := looked c stat
      rw [call]
      exact .of_handle rfl rfl (registered b live)
    rcases List.mem_append.mp member with close | unlink
    · obtain ⟨b, live, rfl⟩ := Option.map_eq_some_iff.mp (Option.mem_toList.mp close)
      exact .of_handle rfl rfl (registered b live)
    · split at unlink
      · obtain rfl := List.mem_singleton.mp unlink
        exact .of_backend tree rfl rfl
      · cases unlink
  · rw [h.conn]
    exact (Confined.refl w.conn).then_edit ⟨target.tid, _, named, rfl⟩

/-! ### Requests that end opens -/

omit [Crypto] in
/-- Ending opens makes the calls that close their handles. -/
theorem Ended.closing {opened : List (Opened η)} {env env' : Env σ} {new : List Issued}
    (h : Ended opened env env') (grown : env'.calls = env.calls ++ new) (c : Issued)
    (member : c ∈ new) : ∃ o ∈ opened, o.closing = some c.call := by
  have calls := h.calls
  rw [grown, List.map_append, List.append_cancel_left_eq] at calls
  have here : c.call ∈ opened.filterMap Opened.closing :=
    calls ▸ List.mem_map.mpr ⟨c, member, rfl⟩
  exact List.mem_filterMap.mp here

omit [Host σ η] [Crypto] in
/-- The open of a name, with the handle that its end closes. -/
theorem Connection.opened_closing {conn : Connection η} {k : OpenKey} {o : Opened η}
    {call : BackendCall} (found : conn.opened k = some o) (closes : o.closing = some call) :
    ∃ tree h, conn.findTree k.session k.tree = some tree ∧ tree.opens.lookup k.file = some o.file ∧
      o.file.handle = some h ∧ call = .close h.serial := by
  obtain ⟨tree, there, here⟩ := Option.bind_eq_some_iff.mp found
  obtain ⟨file, live, rfl⟩ := Option.map_eq_some_iff.mp here
  obtain ⟨h, handle, rfl⟩ := Option.map_eq_some_iff.mp closes
  exact ⟨tree, h, there, live, handle, rfl⟩

omit [Crypto] in
theorem TreeDisconnect.handle_cases (hdr : Smb2Header) (w : World σ η) :
    (TreeDisconnect.handle hdr w).2 = w ∨ ∃ tid, hdr.treeId = some tid ∧
      (TreeDisconnect.handle hdr w).2 = (removeTreeFromSession hdr.sessionId tid w).2 := by
  rw [TreeDisconnect.handle]
  cases named : hdr.treeId with
  | none => exact .inl rfl
  | some tid =>
    simp only [Action.bind_apply, getConn_apply]
    cases lookupSession w.conn hdr.sessionId with
    | error status => exact .inl rfl
    | ok sess =>
      refine .inr ⟨tid, rfl, ?_⟩
      simp only [Action.bind_apply, Connection.closeTree]
      split <;> rfl

omit [Crypto] in
theorem removeTree_isolated (tid : UInt32) (named : hdr.treeId = some tid)
    (noSetup : hdr.command ≠ .sessionSetup) (w : World σ η) :
    IsolatedRun hdr w (removeTreeFromSession hdr.sessionId tid w).2 := by
  have ended := ended_removeTree hdr.sessionId tid w
  obtain ⟨new, grown, -⟩ := (moves_removeTree (E := fun _ _ => True) (Q := fun _ => True)
    (fun _ _ => trivial) hdr.sessionId tid (fun _ => trivial) w).calls
  refine ⟨new, grown, .of_reaches ?_ ?_ noSetup⟩
  · intro c member
    obtain ⟨o, listed, closes⟩ := ended.closing grown c member
    obtain ⟨k, key, found⟩ := List.mem_filterMap.mp listed
    obtain ⟨session, same, -⟩ := Connection.mem_treeKeys w.conn hdr.sessionId tid k key
    obtain ⟨tree, h, there, live, handle, call⟩ := Connection.opened_closing found closes
    rw [session, same] at there
    rw [call]
    exact .of_handle rfl rfl ⟨tree, k.file, o.file, h, ⟨tid, named, there⟩, live, handle, rfl⟩
  · exact .of_otherTrees named (removeTree_otherSessions hdr.sessionId tid w)
      (removeTree_otherTrees hdr.sessionId tid w)

omit [Crypto] in
/-- A LOGOFF closes the handles of its session. -/
theorem closeSession_ownSession (w : World σ η) :
    ∃ new, (Connection.closeSession hdr.sessionId w).2.env.calls = w.env.calls ++ new ∧
      OwnSession hdr w.conn new (Connection.closeSession hdr.sessionId w).2.conn := by
  have ended := ended_closeSession hdr.sessionId w
  obtain ⟨new, grown, -⟩ := (moves_closeSession (E := fun _ _ => True) (Q := fun _ => True)
    (fun _ _ => trivial) hdr.sessionId (fun _ => trivial) w).calls
  refine ⟨new, grown, ?_, closeSession_otherSessions hdr.sessionId w⟩
  intro c member
  obtain ⟨o, listed, closes⟩ := ended.closing grown c member
  obtain ⟨k, key, found⟩ := List.mem_filterMap.mp listed
  obtain ⟨session, -⟩ := Connection.mem_sessionKeys w.conn hdr.sessionId k key
  obtain ⟨tree, h, there, live, handle, call⟩ := Connection.opened_closing found closes
  refine ⟨k.tree, k.file, o.file, h, ?_, handle, call⟩
  rw [Connection.findOpen, ← session, there]
  exact live

variable (server ordinal) in
theorem dispatchOne_logoff (accepted : Accepted w.conn frame hdr body)
    (cmd : hdr.command = .logoff) :
    ∃ new, (dispatchOne server frame ordinal w).2.env.calls = w.env.calls ++ new ∧
      OwnSession hdr w.conn new (dispatchOne server frame ordinal w).2.conn := by
  obtain ⟨w₁, before, after⟩ := dispatchOne_of_accepted server frame ordinal w hdr body accepted
    (by simp [cmd]) (by simp [cmd])
  simp only [dispatchCommand, cmd] at after
  rw [Logoff.handle] at after
  rw [after.calls, after.conn, ← before.calls, ← before.conn]
  split
  · exact ⟨[], (List.append_nil _).symm, by simp, fun _ _ => rfl⟩
  · exact closeSession_ownSession w₁

/-! ### Every other request -/

/-- SESSION_SETUP and NEGOTIATE make no call. -/
theorem dispatchOne_noCalls (accepted : Accepted w.conn frame hdr body)
    (hashed : hdr.command = .negotiate ∨ hdr.command = .sessionSetup) :
    Effect (Edit σ server hdr) (fun _ => False) w (dispatchOne server frame ordinal w).2 := by
  obtain ⟨parsed, verified, noCancel⟩ := accepted
  have outcome := dispatchOne_cases server frame ordinal w
  revert outcome
  generalize (dispatchOne server frame ordinal w).1 = answer
  generalize (dispatchOne server frame ordinal w).2 = w'
  intro outcome
  cases outcome with
  | malformed _ _ same => exact same.effect
  | rejected _ _ _ _ _ _ same => exact same.effect
  | cancelled _ _ _ _ _ _ same => exact same.effect
  | handled hdr' body' w₁ again _ _ same =>
    obtain ⟨rfl, rfl⟩ := Prod.mk.inj (Option.some.inj (parsed.symm.trans again))
    exact Effect.trans _ _ _ same.effect (runHandler_effect_silent server hdr frame body hashed w₁)

/-- A SESSION_SETUP adds a session without trees, or leaves the sessions alone. -/
theorem SetupTurn.isolated {conn conn' : Connection η}
    (turn : SetupTurn server hdr.sessionId body conn conn') (cmd : hdr.command = .sessionSetup)
    (fresh : ¬ReusesId σ server conn hdr body) : Isolated hdr conn [] conn' := by
  have kept (same : conn'.sessions = conn.sessions) : Isolated hdr conn [] conn' :=
    ⟨by simp, by simp, .of_sessions same, fun _ => ⟨rfl, .inl (by rw [same])⟩⟩
  cases turn with
  | idle _ same => exact kept same.sessions
  | opened _ sessions => exact kept sessions
  | refused _ _ _ sessions => exact kept sessions
  | completed acceptor token outcome sess round _ bare sessions =>
    -- a session that is already there would be one whose id is reused
    have free : conn.sessions.lookup hdr.sessionId = none := by
      cases found : conn.sessions.lookup hdr.sessionId with
      | none => rfl
      | some old => exact absurd (.session acceptor token cmd round (by rw [found]; rfl)) fresh
    have here : conn'.sessions.lookup hdr.sessionId = some sess := by rw [sessions, if_pos rfl]
    refine ⟨by simp, by simp, ⟨?_, ?_⟩, fun _ => ⟨rfl, .inr ⟨free, sess, here, bare.2⟩⟩⟩
    · intro sid other
      rw [sessions, if_neg other]
    · intro tid _
      left
      rw [Connection.findTree, Connection.findTree, here, free, Option.bind_some, bare.2]
      rfl

theorem dispatchOne_setup (accepted : Accepted w.conn frame hdr body)
    (cmd : hdr.command = .sessionSetup) (fresh : ¬ReusesId σ server w.conn hdr body) :
    IsolatedRun hdr w (dispatchOne server frame ordinal w).2 := by
  have silent : Effect (Edit σ server hdr) (fun _ => False) w
      (dispatchOne server frame ordinal w).2 := dispatchOne_noCalls accepted (.inr cmd)
  obtain ⟨new, grown, none⟩ := silent.calls
  obtain rfl : new = [] := List.eq_nil_iff_forall_not_mem.mpr none
  exact ⟨[], grown,
    (dispatchOne_turn server frame ordinal w hdr body accepted cmd).isolated cmd fresh⟩

/-- The tables behind a request that closes nothing. -/
theorem dispatchOne_confined (accepted : Accepted w.conn frame hdr body)
    (noClose : ¬hdr.command.Closes) (noSetup : hdr.command ≠ .sessionSetup)
    (fresh : ¬ReusesId σ server w.conn hdr body) :
    Confined hdr w.conn (dispatchOne server frame ordinal w).2.conn := by
  by_cases negotiate : hdr.command = .negotiate
  · have silent : Effect (Edit σ server hdr) (fun _ => False) w
        (dispatchOne server frame ordinal w).2 := dispatchOne_noCalls accepted (.inl negotiate)
    exact .of_sessions (Edits.sessions silent.conn negotiate)
  obtain ⟨w₁, before, after⟩ := dispatchOne_of_accepted server frame ordinal w hdr body accepted
    negotiate noSetup
  rw [after.conn]
  rw [← before.conn] at fresh ⊢
  -- outside these four commands a request without a close edits nothing
  by_cases updates : hdr.command.Updates
  · rcases updates with cmd | cmd | cmd | cmd
    · exact absurd cmd negotiate
    · simp only [dispatchCommand, cmd]
      exact TreeConnect.handle_confined w₁ cmd fresh
    · simp only [dispatchCommand, cmd]
      exact .of_edits (SetInfo.handle_confined w₁).conn
    · simp only [dispatchCommand, cmd]
      exact .of_edits (QueryDirectory.handle_confined w₁).conn
  · have edits := (dispatchCommand_effect server hdr body w₁).conn
    rw [Edits.unchanged edits updates noClose noSetup]
    exact .refl _

/-- A request that closes no handle. -/
theorem dispatchOne_using (accepted : Accepted w.conn frame hdr body)
    (noClose : ¬hdr.command.Closes) (noSetup : hdr.command ≠ .sessionSetup)
    (fresh : ¬ReusesId σ server w.conn hdr body) :
    IsolatedRun hdr w (dispatchOne server frame ordinal w).2 := by
  have confined : Confined hdr w.conn (dispatchOne server frame ordinal w).2.conn :=
    dispatchOne_confined accepted noClose noSetup fresh
  rcases dispatchOne_effect server frame ordinal w with same | ⟨hdr', body', again, run⟩
  · exact ⟨[], by rw [same.calls, List.append_nil], .of_reaches (by simp) confined noSetup⟩
  obtain ⟨rfl, rfl⟩ := Prod.mk.inj (Option.some.inj (accepted.1.symm.trans again.1))
  obtain ⟨new, grown, warranted⟩ := run.calls
  refine ⟨new, grown, .of_reaches ?_ confined noSetup⟩
  intro c member
  exact (warranted c member).reaches (fun cmd => noClose (.inl cmd))
    ((warranted c member).uses noClose).1

variable (server ordinal) in
/-- Every request but a LOGOFF stays with the tree that its header names, unless it takes an id
that is in use. -/
theorem dispatchOne_isolated (accepted : Accepted w.conn frame hdr body)
    (noLogoff : hdr.command ≠ .logoff) (fresh : ¬ReusesId σ server w.conn hdr body) :
    IsolatedRun hdr w (dispatchOne server frame ordinal w).2 := by
  by_cases setup : hdr.command = .sessionSetup
  · exact dispatchOne_setup accepted setup fresh
  by_cases closes : hdr.command.Closes
  swap
  · exact dispatchOne_using accepted closes setup fresh
  -- CREATE, CLOSE, LOGOFF and TREE_DISCONNECT are the requests that close handles
  rcases closes with cmd | cmd | cmd | cmd
  · rcases dispatchOne_create server frame ordinal w hdr body accepted cmd with
      same | ⟨plan, admitted, outcome⟩
    · exact .around same (.refl _ setup) (.refl _)
    · exact outcome.isolated cmd admitted
  · obtain ⟨w₁, before, after⟩ := dispatchOne_of_accepted server frame ordinal w hdr body accepted
      (by simp [cmd]) (by simp [cmd])
    refine .around before ?_ after
    simp only [dispatchCommand, cmd, Close.handle, Action.bind_apply, getConn_apply]
    cases admitted : Close.validate w₁.conn hdr body with
    | error status => exact .refl _ setup
    | ok pair =>
      obtain ⟨req, target⟩ := pair
      obtain ⟨-, found⟩ := (Close.validate_eq_ok w₁.conn hdr body req target).mp admitted
      exact (Close.perform_outcome server hdr.sessionId req target w₁).isolated cmd found
  · exact absurd cmd noLogoff
  · obtain ⟨w₁, before, after⟩ := dispatchOne_of_accepted server frame ordinal w hdr body accepted
      (by simp [cmd]) (by simp [cmd])
    refine .around before ?_ after
    simp only [dispatchCommand, cmd]
    rcases TreeDisconnect.handle_cases hdr w₁ with same | ⟨tid, named, removed⟩
    · rw [same]
      exact .refl _ setup
    · rw [removed]
      exact removeTree_isolated tid named setup w₁

end

end SmbServer
