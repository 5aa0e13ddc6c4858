import SmbServer.Effects.Admission
import SmbServer.Effects.Edit

/-!
# SmbServer.Effects.Handlers

What each handler does to its world: the edits of the connection, and for every call it issues the
request that warrants it.
-/

namespace SmbServer

open Lib

variable {σ η : Type} [Host σ η]

/-- From `w` to `w'` the connection is edited along `E`, calls that satisfy `Q` are added to the
record, and handle numbers are only taken. -/
structure Effect (E : Connection η → Connection η → Prop) (Q : Issued → Prop)
    (w w' : World σ η) : Prop where
  conn : Relation.ReflTransGen E w.conn w'.conn
  calls : ∃ new, w'.env.calls = w.env.calls ++ new ∧ ∀ c ∈ new, Q c
  handles : w.env.nextHandle ≤ w'.env.nextHandle

namespace Effect

variable {E E' : Connection η → Connection η → Prop} {Q Q' : Issued → Prop} {α β : Type}

omit [Host σ η] in
theorem refl (w : World σ η) : Effect E Q w w :=
  ⟨.refl, ⟨[], by simp⟩, Nat.le_refl _⟩

omit [Host σ η] in
theorem trans (w w' w'' : World σ η) (first : Effect E Q w w') (second : Effect E Q w' w'') :
    Effect E Q w w'' := by
  obtain ⟨new, grown, good⟩ := first.calls
  obtain ⟨new', grown', good'⟩ := second.calls
  refine ⟨first.conn.trans second.conn, ⟨new ++ new', ?_, ?_⟩,
    Nat.le_trans first.handles second.handles⟩
  · rw [grown', grown, List.append_assoc]
  · exact List.forall_mem_append.mpr ⟨good, good'⟩

omit [Host σ η] in
/-- Changes of the environment beside the record of calls. -/
theorem silent (w w' : World σ η) (conn : w'.conn = w.conn) (calls : w'.env.calls = w.env.calls)
    (handles : w'.env.nextHandle = w.env.nextHandle) : Effect E Q w w' :=
  ⟨conn ▸ .refl, ⟨[], by simp [calls]⟩, Nat.le_of_eq handles.symm⟩

omit [Host σ η] in
theorem mono {w w' : World σ η} (h : Effect E Q w w') (weaker : ∀ c, Q c → Q' c) :
    Effect E Q' w w' := by
  obtain ⟨new, grown, good⟩ := h.calls
  exact ⟨h.conn, ⟨new, grown, fun c member => weaker c (good c member)⟩, h.handles⟩

omit [Host σ η] in
/-- Without an edit the connection stays as it is. -/
theorem conn_eq {w w' : World σ η} (h : Effect (fun _ _ => False) Q w w') : w'.conn = w.conn := by
  cases h.conn.cases_head with
  | inl same => exact same.symm
  | inr first =>
    obtain ⟨_, absurd, -⟩ := first
    exact absurd.elim

/-! ### Actions -/

omit [Host σ η] in
theorem pure (a : α) : Action.Moves (Effect E Q) (Pure.pure a : Action (World σ η) α) :=
  Action.Moves.pure refl a

omit [Host σ η] in
theorem bind {m : Action (World σ η) α} {f : α → Action (World σ η) β}
    (first : Action.Moves (Effect E Q) m) (rest : ∀ a, Action.Moves (Effect E Q) (f a)) :
    Action.Moves (Effect E Q) (m >>= f) :=
  Action.Moves.bind trans first rest

omit [Host σ η] in
theorem getConn : Action.Moves (Effect E Q) (SmbServer.getConn : Action (World σ η) _) :=
  fun w => refl w

omit [Host σ η] in
/-- What an action that looks at the connection does from one world. -/
theorem withConn (w : World σ η) {f : Connection η → Action (World σ η) β}
    (rest : Action.Moves (Effect E Q) (f w.conn)) :
    Effect E Q w ((SmbServer.getConn >>= f : Action (World σ η) β) w).2 :=
  rest w

omit [Host σ η] in
theorem modifyConn {f : Connection η → Connection η} (edit : ∀ conn, E conn (f conn)) :
    Action.Moves (Effect E Q) (SmbServer.modifyConn f : Action (World σ η) Unit) :=
  fun w => ⟨.single (edit w.conn), ⟨[], by simp⟩, Nat.le_refl _⟩

omit [Host σ η] in
theorem record (armed : Bool) (event : TraceEvent) :
    Action.Moves (Effect E Q) (SmbServer.record armed event : Action (World σ η) Unit) := by
  intro w
  cases armed <;> exact silent _ _ rfl rfl rfl

omit [Host σ η] in
theorem panicAt (site : PanicSite) :
    Action.Moves (Effect E Q) (SmbServer.panicAt site : Action (World σ η) Unit) :=
  fun _ => silent _ _ rfl rfl rfl

theorem fillRandom (n : Nat) :
    Action.Moves (Effect E Q) (SmbServer.fillRandom n : Action (World σ η) _) :=
  fun _ => silent _ _ rfl rfl rfl

theorem nowFiletime : Action.Moves (Effect E Q) (SmbServer.nowFiletime : Action (World σ η) _) :=
  fun _ => silent _ _ rfl rfl rfl

omit [Host σ η] in
theorem issue (origin : Origin) (call : BackendCall) (f : σ → α × σ) (good : Q ⟨origin, call⟩) :
    Action.Moves (Effect E Q) (SmbServer.issue origin call f : Action (World σ η) α) :=
  fun w => ⟨.refl, ⟨[⟨origin, call⟩], by simp, by simpa using good⟩, Nat.le_refl _⟩

end Effect

/-! ### Who makes which call -/

variable [Crypto]

/-- The SET_INFO operation that a request reaches. -/
def SetInfo.Reaches (conn : Connection η) (hdr : Smb2Header) (body : Bytes)
    (target : Target η) (op : SetInfo.Operation η) : Prop :=
  hdr.command = .setInfo ∧ ∃ req, SetInfo.validate conn hdr body = .ok (req, target) ∧
    SetInfo.decode req.fileInformationClass req.buffer target.file = .ok op

/-- The number is that of the handle of an open that the request can name. -/
def Names (conn : Connection η) (hdr : Smb2Header) (target : Target η) (serial : Nat) : Prop :=
  ∃ fid h, lookupTarget conn hdr fid = .ok target ∧ target.file.handle = some h ∧
    serial = h.serial

/-- The commands that close handles. -/
def Command.Closes (command : Command) : Prop :=
  command = .create ∨ command = .close ∨ command = .logoff ∨ command = .treeDisconnect

/-- The request that warrants a call; `next` is the number of the next handle. -/
def Warrant (conn : Connection η) (next : Nat) (hdr : Smb2Header) (body : Bytes) (c : Issued) :
    Prop :=
  match c.call with
  | .open backend path opts result =>
    ∃ plan, hdr.command = .create ∧ Create.validate conn hdr body = .ok plan ∧
      c.origin = ⟨hdr.sessionId, plan.tid, plan.tree.grantedAccess, none⟩ ∧
      backend = plan.tree.share.backend ∧ path = plan.path ∧ opts = plan.opts ∧
      ∀ serial, result = some serial → serial = next
  | .unlink backend path =>
    ∃ req target, hdr.command = .close ∧ Close.validate conn hdr body = .ok (req, target) ∧
      c.origin = target.origin hdr.sessionId ∧ target.file.deleteOnClose = true ∧
      backend = target.tree.share.backend ∧ path = target.file.lastPath
  | .rename backend src dst replace =>
    ∃ target, SetInfo.Reaches conn hdr body target (.rename dst replace) ∧
      c.origin = target.origin hdr.sessionId ∧ backend = target.tree.share.backend ∧
      src = target.file.lastPath
  | .writeOwned serial _ _ =>
    ∃ req target h, hdr.command = .write ∧ WriteRequest.parse body = some req ∧
      Write.validate conn hdr req = .ok (target, h) ∧ c.origin = target.origin hdr.sessionId ∧
      serial = h.serial
  | .setTimes serial times =>
    ∃ target h, SetInfo.Reaches conn hdr body target (.setTimes h times) ∧
      c.origin = target.origin hdr.sessionId ∧ serial = h.serial
  | .truncate serial len =>
    ∃ target h, SetInfo.Reaches conn hdr body target (.truncate h len) ∧
      c.origin = target.origin hdr.sessionId ∧ serial = h.serial
  | .read serial _ _ | .flush serial => ∃ target, Names conn hdr target serial
  -- CREATE stats the handle that it has just opened; the others name one
  | .stat serial =>
    (hdr.command = .create ∧ serial = next) ∨ ∃ target, Names conn hdr target serial
  | .listDir serial _ => ∃ target, Names conn hdr target serial ∧ target.file.isDirectory = true
  -- which handle is closed is the subject of `Effects.Handles`
  | .close _ => hdr.command.Closes

variable {server : ServerState} {hdr : Smb2Header} {body : Bytes} {Q : Issued → Prop}

/-! ### Closing -/

omit [Crypto] in
/-- Closing handles, whatever is said about calls as long as a close satisfies it. -/
theorem moves_closeTreeState {E : Connection η → Connection η → Prop}
    (closes : ∀ origin serial, Q ⟨origin, .close serial⟩) (sid : UInt64) (tid : UInt32)
    (tree : TreeConnect η) :
    Action.Moves (Effect E Q) (closeTreeState sid tid tree : Action (World σ η) Unit) := by
  refine Action.Moves.forM Effect.refl Effect.trans _ fun file _ => ?_
  rw [closeOpen]
  split
  · exact Effect.bind (Effect.issue _ _ _ (closes _ _)) fun _ => Effect.pure _
  · exact Effect.pure _

omit [Crypto] in
theorem moves_closeSessionState {E : Connection η → Connection η → Prop}
    (closes : ∀ origin serial, Q ⟨origin, .close serial⟩) (sid : UInt64) (sess : Session η) :
    Action.Moves (Effect E Q) (closeSessionState sid sess : Action (World σ η) Unit) := by
  refine Action.Moves.forM Effect.refl Effect.trans _ fun tid _ => ?_
  split
  · exact moves_closeTreeState closes _ _ _
  · exact Effect.pure _

omit [Crypto] in
theorem moves_removeTree {E : Connection η → Connection η → Prop}
    (closes : ∀ origin serial, Q ⟨origin, .close serial⟩) (sid : UInt64) (tid : UInt32)
    (edit : ∀ conn : Connection η, E conn
      (conn.modifySession sid fun sess => { sess with trees := sess.trees.erase tid })) :
    Action.Moves (Effect E Q) (removeTreeFromSession sid tid : Action (World σ η) Bool) := by
  refine Effect.bind Effect.getConn fun conn => ?_
  split
  · exact Effect.bind (Effect.modifyConn edit) fun _ =>
      Effect.bind (moves_closeTreeState closes _ _ _) fun _ => Effect.pure _
  · exact Effect.pure _

omit [Crypto] in
theorem moves_closeSession {E : Connection η → Connection η → Prop}
    (closes : ∀ origin serial, Q ⟨origin, .close serial⟩) (sid : UInt64)
    (edit : ∀ conn : Connection η, E conn { conn with sessions := conn.sessions.erase sid }) :
    Action.Moves (Effect E Q) (Connection.closeSession sid : Action (World σ η) Bool) := by
  refine Effect.bind Effect.getConn fun conn => ?_
  split
  · exact Effect.bind (Effect.modifyConn edit) fun _ =>
      Effect.bind (moves_closeSessionState closes _ _) fun _ => Effect.pure _
  · exact Effect.pure _

/-! ### Sessions and trees -/

theorem Negotiate.handle_effect (cmd : hdr.command = .negotiate) :
    Action.Moves (Effect (Edit σ server hdr) Q)
      (Negotiate.handle server body : Action (World σ η) HandlerResponse) := by
  rw [Negotiate.handle]
  split
  · exact Effect.pure _
  split
  · exact Effect.pure _
  split
  · exact Effect.pure _
  refine Effect.bind (Effect.modifyConn fun conn => .commit conn _ _ cmd) fun _ => ?_
  split
  · refine Effect.bind (Effect.fillRandom _) fun salt => ?_
    exact Effect.bind (Effect.pure _) fun _ => Effect.bind Effect.getConn fun _ =>
      Effect.bind Effect.nowFiletime fun _ => Effect.pure _
  · exact Effect.bind (Effect.pure _) fun _ => Effect.bind Effect.getConn fun _ =>
      Effect.bind Effect.nowFiletime fun _ => Effect.pure _

theorem SessionSetup.firstRound_effect (cmd : hdr.command = .sessionSetup)
    (token : SessionSetup.Token) :
    Action.Moves (Effect (Edit σ server hdr) Q)
      (SessionSetup.firstRound server token : Action (World σ η) HandlerResponse) := by
  refine Effect.bind ?_ fun sid => ?_
  · exact fun w => ⟨.single (.sessionId w.conn cmd), ⟨[], by simp [SessionSetup.allocSessionId]⟩,
      Nat.le_refl _⟩
  refine Effect.bind (Effect.fillRandom _) fun challenge => ?_
  refine Effect.bind Effect.nowFiletime fun now => ?_
  dsimp only
  cases NtlmServer.step1Negotiate _ token.innerToken with
  | none => exact Effect.pure _
  | some acceptor =>
    exact Effect.bind (Effect.modifyConn fun conn => Edit.acceptors conn _ cmd) fun _ =>
      Effect.pure _

theorem SessionSetup.takeAcceptor_effect (cmd : hdr.command = .sessionSetup) (sid : UInt64) :
    Action.Moves (Effect (Edit σ server hdr) Q)
      (SessionSetup.takeAcceptor sid : Action (World σ η) _) := by
  intro w
  rw [SessionSetup.takeAcceptor]
  split
  · exact ⟨.single (.acceptors w.conn _ cmd), ⟨[], by simp⟩, Nat.le_refl _⟩
  · exact Effect.refl w

theorem SessionSetup.finalRound_effect (cmd : hdr.command = .sessionSetup) (sid : UInt64)
    (token : SessionSetup.Token) :
    Action.Moves (Effect (Edit σ server hdr) Q)
      (SessionSetup.finalRound server sid token : Action (World σ η) HandlerResponse) := by
  rw [SessionSetup.finalRound]
  split
  · exact Effect.pure _
  next nonzero =>
  refine Effect.bind (SessionSetup.takeAcceptor_effect cmd sid) fun pending => ?_
  split
  · exact Effect.pure _
  split
  · exact Effect.pure _
  refine Effect.bind Effect.getConn fun conn => ?_
  split
  · exact Effect.pure _
  · exact Effect.bind (Effect.modifyConn fun conn => .logon conn _ _ _ nonzero cmd) fun _ =>
      Effect.pure _

theorem SessionSetup.handle_effect (cmd : hdr.command = .sessionSetup) :
    Action.Moves (Effect (Edit σ server hdr) Q)
      (SessionSetup.handle server hdr body : Action (World σ η) HandlerResponse) := by
  rw [SessionSetup.handle]
  split
  · exact Effect.pure _
  split
  · exact SessionSetup.firstRound_effect cmd _
  · exact SessionSetup.finalRound_effect cmd _ _

theorem Logoff.handle_effect (cmd : hdr.command = .logoff)
    (closes : ∀ origin serial, Q ⟨origin, .close serial⟩) :
    Action.Moves (Effect (Edit σ server hdr) Q) (Logoff.handle hdr : Action (World σ η) _) := by
  rw [Logoff.handle]
  split
  · exact Effect.pure _
  · exact Effect.bind (moves_closeSession closes _ fun conn => .dropSession conn _ cmd) fun _ =>
      Effect.pure _

theorem TreeConnect.handle_effect (cmd : hdr.command = .treeConnect) :
    Action.Moves (Effect (Edit σ server hdr) Q)
      (TreeConnect.handle server hdr body : Action (World σ η) HandlerResponse) := by
  intro w
  rw [TreeConnect.handle]
  cases TreeConnect.validate body with
  | error status => exact Effect.refl w
  | ok name =>
    simp only [Action.bind_apply, getConn_apply]
    cases session : lookupSession w.conn hdr.sessionId with
    | error status => exact Effect.refl w
    | ok sess =>
      cases bound : TreeConnect.bindShare server name with
      | none => exact Effect.refl w
      | some share =>
        cases authorized : TreeConnect.grantedOn σ server share sess.identity with
        | none => simp only [authorized]; exact Effect.refl w
        | some granted =>
          simp only [authorized]
          -- the counter, then the tree under the number that it gave
          refine ⟨(Relation.ReflTransGen.single (.treeId w.conn hdr.sessionId cmd)).tail
            (.addTree (TreeConnect.allocTreeId hdr.sessionId w.conn) _ share granted name bound ?_
              cmd), ⟨[], by simp⟩, Nat.le_refl _⟩
          intro sess' here
          obtain ⟨-, found⟩ := (lookupSession_eq_ok w.conn hdr.sessionId sess).mp session
          rw [TreeConnect.allocTreeId, Connection.lookup_modifySession, if_pos rfl, found] at here
          obtain rfl := Option.some.inj here
          exact authorized

theorem TreeDisconnect.handle_effect (cmd : hdr.command = .treeDisconnect)
    (closes : ∀ origin serial, Q ⟨origin, .close serial⟩) :
    Action.Moves (Effect (Edit σ server hdr) Q)
      (TreeDisconnect.handle hdr : Action (World σ η) _) := by
  rw [TreeDisconnect.handle]
  split
  · exact Effect.pure _
  refine Effect.bind Effect.getConn fun conn => ?_
  split
  · exact Effect.pure _
  refine Effect.bind (moves_removeTree closes _ _ fun conn => .dropTree conn _ _ cmd)
    fun removed => ?_
  split
  · exact Effect.pure _
  · exact Effect.pure _

/-! ### Files -/

/-- The origin of the backend call of a CREATE, and of the calls through the new handle. -/
def Create.Plan.origin (plan : Create.Plan η) (sid : UInt64) : Origin :=
  ⟨sid, plan.tid, plan.tree.grantedAccess, none⟩

def Create.Plan.through (plan : Create.Plan η) (sid : UInt64) : Origin :=
  { plan.origin sid with
    openAccess := some (Create.openAccess plan.tree.grantedAccess plan.opts) }

/-- The call of the backend that opens the path, with its result. -/
def Create.Plan.opening (plan : Create.Plan η) (sid : UInt64) (result : Option Nat) : Issued :=
  ⟨plan.origin sid, .open plan.tree.share.backend plan.path plan.opts result⟩

/-- The open that an admitted request registers. -/
def Create.Plan.file (plan : Create.Plan η) (handle : Boxed η) (info : FileInfo) : Open η :=
  Open.new ⟨plan.tree.nextVolatile, plan.tree.nextVolatile⟩ handle
    (Create.openAccess plan.tree.grantedAccess plan.opts) plan.path info.isDirectory
    plan.opts.deleteOnClose

/-- How the backend part of a CREATE ends. -/
inductive Create.Outcome (sid : UInt64) (plan : Create.Plan η) (w w' : World σ η) : Prop where
  /-- The backend refuses. -/
  | refused
      (host : w'.env.host = (plan.tree.share.backend.open plan.path plan.opts w.env.host).2)
      (conn : w'.conn = w.conn)
      (calls : w'.env.calls = w.env.calls ++ [plan.opening sid none])
      (handles : w'.env.nextHandle = w.env.nextHandle)
      (answer : ∀ inner,
        (plan.tree.share.backend.open plan.path plan.opts w.env.host).1 ≠ .ok inner)
  /-- The new handle cannot be stat'ed and is closed again. -/
  | abandoned (inner : η)
      (opened : (plan.tree.share.backend.open plan.path plan.opts w.env.host).1 = .ok inner)
      (host : w'.env.host = (Host.close inner (Host.stat inner
        (plan.tree.share.backend.open plan.path plan.opts w.env.host).2).2).2)
      (conn : w'.conn = w.conn)
      (calls : w'.env.calls = w.env.calls ++ [plan.opening sid (some w.env.nextHandle),
        ⟨plan.through sid, .stat w.env.nextHandle⟩, ⟨plan.through sid, .close w.env.nextHandle⟩])
      (handles : w'.env.nextHandle = w.env.nextHandle + 1)
  /-- The open is registered. -/
  | registered (inner : η) (info : FileInfo)
      (opened : (plan.tree.share.backend.open plan.path plan.opts w.env.host).1 = .ok inner)
      (host : w'.env.host = (Host.stat inner
        (plan.tree.share.backend.open plan.path plan.opts w.env.host).2).2)
      (conn : w'.conn = Create.register sid plan.tid plan.tree
        (plan.file ⟨w.env.nextHandle, inner⟩ info) w.conn)
      (calls : w'.env.calls = w.env.calls ++ [plan.opening sid (some w.env.nextHandle),
        ⟨plan.through sid, .stat w.env.nextHandle⟩])
      (handles : w'.env.nextHandle = w.env.nextHandle + 1)

/-- Two worlds that differ in the trace and the recorded panics only. -/
structure Alike (w w' : World σ η) : Prop where
  conn : w'.conn = w.conn
  host : w'.env.host = w.env.host
  calls : w'.env.calls = w.env.calls
  handles : w'.env.nextHandle = w.env.nextHandle

omit [Host σ η] [Crypto] in
theorem Alike.refl (w : World σ η) : Alike w w := ⟨rfl, rfl, rfl, rfl⟩

omit [Host σ η] [Crypto] in
theorem Alike.trans {w w' w'' : World σ η} (first : Alike w w') (second : Alike w' w'') :
    Alike w w'' :=
  ⟨second.conn.trans first.conn, second.host.trans first.host, second.calls.trans first.calls,
    second.handles.trans first.handles⟩

omit [Host σ η] [Crypto] in
theorem Alike.effect {E : Connection η → Connection η → Prop} {Q : Issued → Prop}
    {w w' : World σ η} (h : Alike w w') : Effect E Q w w' :=
  Effect.silent w w' h.conn h.calls h.handles

omit [Host σ η] [Crypto] in
theorem alike_record (armed : Bool) (event : TraceEvent) (w : World σ η) :
    Alike w (record armed event w).2 := by
  cases armed <;> exact ⟨rfl, rfl, rfl, rfl⟩

omit [Crypto] in
theorem Create.perform_outcome (server : ServerState) (sid : UInt64) (plan : Create.Plan η)
    (w : World σ η) : Create.Outcome sid plan w (Create.perform server sid plan w).2 := by
  cases opened : plan.tree.share.backend.open plan.path plan.opts w.env.host with
  | mk answer host =>
    cases answer with
    | error e =>
      simp only [Create.perform, Action.bind_apply, backendOpen, opened, Action.pure_apply]
      obtain ⟨conn, after, calls, handles⟩ := alike_record server.traceSink
        (Create.traceEvent plan.req plan.path plan.opts none)
        ((w.setHost host).addCall (plan.opening sid none))
      exact .refused (by rw [opened]; exact after) conn calls handles (by simp [opened])
    | ok inner =>
      cases stat : Host.stat inner host with
      | mk info host' =>
        simp only [Create.perform, Action.bind_apply, backendOpen, opened, Boxed.stat, issue_apply,
          World.addCall_host, World.setHost_host, stat]
        cases info with
        -- the second error is the one of stat
        | error e =>
          refine .abandoned inner (by rw [opened]) ?_ ?_ ?_ ?_
          · rw [opened]
            simp only [Action.bind_apply, Boxed.close, issue_apply, stat]
            exact (alike_record _ _ _).host
          · exact (alike_record _ _ _).conn
          · refine (alike_record _ _ _).calls.trans ?_
            simp only [Boxed.close, issue_apply, World.addCall_calls, World.setHost_calls,
              List.append_assoc]
            rfl
          · exact (alike_record _ _ _).handles
        | ok info =>
          refine .registered inner info (by rw [opened]) ?_ ?_ ?_ ?_
          · rw [opened]
            exact (alike_record _ _ _).host.trans (by rw [stat]; rfl)
          · exact (alike_record _ _ _).conn
          · refine (alike_record _ _ _).calls.trans ?_
            simp only [modifyConn_apply, World.setConn_env, World.addCall_calls,
              World.setHost_calls, List.append_assoc]
            rfl
          · exact (alike_record _ _ _).handles

theorem Create.handle_effect (w : World σ η) (cmd : hdr.command = .create) :
    Effect (Edit σ server hdr) (Warrant w.conn w.env.nextHandle hdr body) w
      (Create.handle server hdr body w).2 := by
  simp only [Create.handle, Action.bind_apply, getConn_apply]
  cases admitted : Create.validate w.conn hdr body with
  | error status => exact Effect.refl w
  | ok plan =>
    -- every open of this request goes through its plan
    have opening (result : Option Nat) (named : ∀ n, result = some n → n = w.env.nextHandle) :
        Warrant w.conn w.env.nextHandle hdr body (plan.opening hdr.sessionId result) :=
      ⟨plan, cmd, admitted, rfl, rfl, rfl, rfl, named⟩
    cases Create.perform_outcome server hdr.sessionId plan w with
    | refused _ conn calls handles =>
      exact ⟨conn ▸ .refl, ⟨_, calls, by simpa using opening none nofun⟩, Nat.le_of_eq handles.symm⟩
    | abandoned inner _ _ conn calls handles =>
      refine ⟨conn ▸ .refl, ⟨_, calls, ?_⟩, handles ▸ Nat.le_succ _⟩
      simp only [List.forall_mem_cons]
      exact ⟨opening _ fun n eq => (Option.some.inj eq).symm, .inl ⟨cmd, rfl⟩, .inl cmd, by simp⟩
    | registered inner info _ _ conn calls handles =>
      refine ⟨conn ▸ .single (.register _ _ _ _ _ cmd), ⟨_, calls, ?_⟩, handles ▸ Nat.le_succ _⟩
      simp only [List.forall_mem_cons]
      exact ⟨opening _ fun n eq => (Option.some.inj eq).symm, .inl ⟨cmd, rfl⟩, by simp⟩

theorem Close.handle_effect (w : World σ η) (cmd : hdr.command = .close) :
    Effect (Edit σ server hdr) (Warrant w.conn w.env.nextHandle hdr body) w
      (Close.handle server hdr body w).2 := by
  simp only [Close.handle, Action.bind_apply, getConn_apply]
  cases admitted : Close.validate w.conn hdr body with
  | error status => exact Effect.refl w
  | ok pair =>
    obtain ⟨req, target⟩ := pair
    obtain ⟨-, named⟩ := (Close.validate_eq_ok w.conn hdr body req target).mp admitted
    -- behind the check the order is: the entry, the trace, stat, close, unlink
    suffices moves : Action.Moves
        (Effect (Edit σ server hdr) (Warrant w.conn w.env.nextHandle hdr body))
        (Close.perform server hdr.sessionId req target : Action (World σ η) _) from moves w
    refine Effect.bind (Effect.modifyConn fun conn => .dropOpen conn _ _ _ cmd) fun _ => ?_
    refine Effect.bind (Effect.record _ _) fun _ => ?_
    refine Effect.bind ?_ fun info => ?_
    · unfold Close.infoBeforeClose
      split
      next h _ live =>
        refine Effect.bind (Effect.issue _ _ _ (.inr ⟨target, req.fileId, h, named, live, rfl⟩))
          fun answer => ?_
        cases answer <;> exact Effect.pure _
      · exact Effect.pure _
    have unlinked : Action.Moves
        (Effect (Edit σ server hdr) (Warrant w.conn w.env.nextHandle hdr body))
        (if target.file.deleteOnClose = true then do
          let _ ← backendUnlink (target.origin hdr.sessionId) target.tree.share.backend
            target.file.lastPath
          return .ok (Close.response req info)
        else return .ok (Close.response req info) : Action (World σ η) HandlerResponse) := by
      split
      next marked =>
        exact Effect.bind (Effect.issue _ _ _ ⟨req, target, cmd, admitted, rfl, marked, rfl, rfl⟩)
          fun _ => Effect.pure _
      next => exact Effect.pure _
    cases target.file.handle with
    | none => exact unlinked
    | some h =>
      exact Effect.bind (Effect.issue (target.origin hdr.sessionId) (.close h.serial) _
        (.inr (.inl cmd))) fun _ => unlinked

theorem Flush.handle_effect (w : World σ η) :
    Effect (Edit σ server hdr) (Warrant w.conn w.env.nextHandle hdr body) w
      (Flush.handle hdr body w).2 := by
  cases parsed : FlushRequest.parse body with
  | none =>
    simp only [Flush.handle, parsed]
    exact Effect.refl w
  | some req =>
    simp only [Flush.handle, parsed]
    refine Effect.withConn w ?_
    split
    · exact Effect.pure _
    next target named =>
    split
    · exact Effect.pure _
    next h live =>
    refine Effect.bind (Effect.issue _ _ _ ⟨target, _, h, named, live, rfl⟩) fun answer => ?_
    cases answer <;> exact Effect.pure _

theorem Read.handle_effect (w : World σ η) :
    Effect (Edit σ server hdr) (Warrant w.conn w.env.nextHandle hdr body) w
      (Read.handle hdr body w).2 := by
  cases parsed : ReadRequest.parse body with
  | none =>
    simp only [Read.handle, parsed]
    exact Effect.refl w
  | some req =>
    simp only [Read.handle, parsed]
    refine Effect.withConn w ?_
    split
    · exact Effect.pure _
    split
    · exact Effect.pure _
    next target named =>
    split
    · exact Effect.pure _
    next h live =>
    -- the only call, under the handle of the target
    refine Effect.bind (Effect.issue _ _ _ ⟨target, _, h, named, live, rfl⟩) fun answer => ?_
    cases answer with
    | error e => exact Effect.pure _
    | ok bytes =>
      dsimp only
      split <;> exact Effect.pure _

theorem Write.handle_effect (w : World σ η) (cmd : hdr.command = .write) :
    Effect (Edit σ server hdr) (Warrant w.conn w.env.nextHandle hdr body) w
      (Write.handle server hdr body w).2 := by
  cases parsed : WriteRequest.parse body with
  | none =>
    simp only [Write.handle, parsed]
    exact Effect.refl w
  | some req =>
    simp only [Write.handle, parsed, Action.bind_apply, getConn_apply]
    -- a write is traced before it is checked
    have recorded := Effect.record (E := Edit σ server hdr)
      (Q := Warrant w.conn w.env.nextHandle hdr body) server.traceSink
      (.write req.fileId.write req.offset req.length) w
    refine Effect.trans _ _ _ recorded ?_
    rw [(alike_record server.traceSink (.write req.fileId.write req.offset req.length) w).conn]
    cases admitted : Write.validate w.conn hdr req with
    | error status => exact Effect.refl _
    | ok pair =>
      obtain ⟨target, h⟩ := pair
      refine (Effect.bind (Effect.issue _ _ _ ?_) fun answer => ?_) _
      · exact ⟨req, target, h, cmd, parsed, admitted, rfl, rfl⟩
      · cases answer <;> exact Effect.pure _

theorem SetInfo.perform_effect {conn : Connection η} {next : Nat} {target : Target η}
    {op : SetInfo.Operation η} (fid : FileId) (cmd : hdr.command = .setInfo)
    (reaches : SetInfo.Reaches conn hdr body target op) :
    Action.Moves (Effect (Edit σ server hdr) (Warrant conn next hdr body))
      (SetInfo.perform (σ := σ) server hdr.sessionId fid target op) := by
  -- one call at most; the connection is edited behind it
  cases op with
  | setTimes h times =>
    exact Effect.bind (Effect.issue _ _ _ ⟨target, h, reaches, rfl, rfl⟩) fun _ => Effect.pure _
  | truncate h len =>
    exact Effect.bind (Effect.issue _ _ _ ⟨target, h, reaches, rfl, rfl⟩) fun _ => Effect.pure _
  | disposition flag =>
    exact Effect.bind (Effect.modifyConn fun conn => .disposition conn _ _ _ _ cmd) fun _ =>
      Effect.pure _
  | rename path replace =>
    refine Effect.bind (Effect.record _ _) fun _ => ?_
    refine Effect.bind (Effect.issue _ _ _ ⟨target, reaches, rfl, rfl, rfl⟩) fun answer => ?_
    cases answer with
    | error e => exact Effect.pure _
    | ok =>
      exact Effect.bind (Effect.modifyConn fun conn => .lastPath conn _ _ _ _ cmd) fun _ =>
        Effect.pure _
  | allocation => exact Effect.pure _

theorem SetInfo.handle_effect (w : World σ η) (cmd : hdr.command = .setInfo) :
    Effect (Edit σ server hdr) (Warrant w.conn w.env.nextHandle hdr body) w
      (SetInfo.handle server hdr body w).2 := by
  simp only [SetInfo.handle, Action.bind_apply, getConn_apply]
  cases admitted : SetInfo.validate w.conn hdr body with
  | error status => exact Effect.refl w
  | ok pair =>
    obtain ⟨req, target⟩ := pair
    -- what is performed has been decoded from this request
    have performed op
        (decoded : SetInfo.decode req.fileInformationClass req.buffer target.file = .ok op) :
        Action.Moves (Effect (Edit σ server hdr) (Warrant w.conn w.env.nextHandle hdr body))
          (SetInfo.perform server hdr.sessionId req.fileId target op) :=
      SetInfo.perform_effect req.fileId cmd ⟨cmd, req, admitted, decoded⟩
    dsimp only
    refine (?_ : Action.Moves
      (Effect (Edit σ server hdr) (Warrant w.conn w.env.nextHandle hdr body)) _) w
    split
    · refine Effect.bind (Effect.record _ _) fun _ => ?_
      split
      · exact Effect.pure _
      next op decoded => exact performed op decoded
    · split
      · exact Effect.pure _
      next op decoded => exact performed op decoded

theorem QueryInfo.handle_effect (w : World σ η) :
    Effect (Edit σ server hdr) (Warrant w.conn w.env.nextHandle hdr body) w
      (QueryInfo.handle hdr body w).2 := by
  simp only [QueryInfo.handle, Action.bind_apply, getConn_apply]
  cases admitted : QueryInfo.validate w.conn hdr body with
  | error status => exact Effect.refl w
  | ok parts =>
    obtain ⟨req, infoType, target, h⟩ := parts
    obtain ⟨named, live⟩ := QueryInfo.validate_eq_ok w.conn hdr body req infoType target h admitted
    refine Effect.bind (Effect.issue _ _ _ (.inr ⟨target, _, h, named, live, rfl⟩))
      (fun answer => ?_) w
    split <;> exact Effect.pure _

theorem QueryDirectory.handle_effect (w : World σ η) (cmd : hdr.command = .queryDirectory) :
    Effect (Edit σ server hdr) (Warrant w.conn w.env.nextHandle hdr body) w
      (QueryDirectory.handle hdr body w).2 := by
  simp only [QueryDirectory.handle, Action.bind_apply, getConn_apply]
  cases admitted : QueryDirectory.validate w.conn hdr body with
  | error status => exact Effect.refl w
  | ok parts =>
    obtain ⟨req, target⟩ := parts
    obtain ⟨-, named, directory⟩ := QueryDirectory.validate_eq_ok w.conn req target admitted
    refine Effect.bind (E := Edit σ server hdr) (Q := Warrant w.conn w.env.nextHandle hdr body)
      (m := QueryDirectory.populate hdr.sessionId req target) ?_ (fun populated => ?_) w
    -- loading the cursor may list the directory once
    · rw [QueryDirectory.populate]
      split
      · exact Effect.pure _
      split
      · exact Effect.pure _
      next h live =>
        refine Effect.bind (Effect.issue _ _ _ ⟨target, ⟨_, h, named, live, rfl⟩, directory⟩)
          fun answer => ?_
        cases answer with
        | error e => exact Effect.pure _
        | ok entries =>
          exact Effect.bind (Effect.modifyConn fun conn => .cursor conn _ _ _ _ cmd) fun _ =>
            Effect.pure _
    cases populated with
    | error status => exact Effect.pure _
    | ok =>
      refine Effect.bind Effect.getConn fun _ => ?_
      split
      · exact Effect.bind (Effect.panicAt _) fun _ => Effect.pure _
      · refine Effect.bind (Effect.modifyConn fun conn => .cursor conn _ _ _ _ cmd) fun _ => ?_
        split <;> exact Effect.pure _

end SmbServer
