import SmbServer.Effects.Config
import SmbServer.Effects.Dispatch
import SmbServer.Steps

/-!
# SmbServer.Effects.System

From one element to one step of the running server: which calls a step issues and what warrants
them, how the environment grows, and the rule for invariants of every live connection.
-/

namespace SmbServer

open Lib

variable {σ η : Type} [Host σ η]

/-- A call that closes a handle. -/
def Closing (c : Issued) : Prop := ∃ serial, c.call = .close serial

/-- The number of the handle that a call opened. -/
def Issued.opened (c : Issued) : Option Nat :=
  match c.call with
  | .open _ _ _ result => result
  | _ => none

/-! ### The environment -/

/-- The record of calls is extended, and a handle opened since carries a number that was free and
is taken now. -/
structure Env.Grows (env env' : Env σ) : Prop where
  calls : ∃ new, env'.calls = env.calls ++ new ∧ ∀ c ∈ new, ∀ serial,
    c.opened = some serial → env.nextHandle ≤ serial ∧ serial < env'.nextHandle
  handles : env.nextHandle ≤ env'.nextHandle

omit [Host σ η] in
theorem Env.Grows.of_eq {env env' : Env σ} (calls : env'.calls = env.calls)
    (handles : env'.nextHandle = env.nextHandle) : env.Grows env' :=
  ⟨⟨[], by simp [calls]⟩, Nat.le_of_eq handles.symm⟩

omit [Host σ η] in
theorem Env.Grows.trans {env env' env'' : Env σ} (first : env.Grows env')
    (second : env'.Grows env'') : env.Grows env'' := by
  obtain ⟨new, grown, free⟩ := first.calls
  obtain ⟨new', grown', free'⟩ := second.calls
  refine ⟨⟨new ++ new', by rw [grown', grown, List.append_assoc], ?_⟩,
    Nat.le_trans first.handles second.handles⟩
  intro c member serial opened
  rcases List.mem_append.mp member with here | there
  · obtain ⟨low, high⟩ := free c here serial opened
    exact ⟨low, Nat.lt_of_lt_of_le high second.handles⟩
  · obtain ⟨low, high⟩ := free' c there serial opened
    exact ⟨Nat.le_trans first.handles low, high⟩

omit [Host σ η] in
/-- An effect that opens nothing. -/
theorem Effect.grows {E : Connection η → Connection η → Prop} {Q : Issued → Prop}
    {w w' : World σ η} (h : Effect E Q w w') (opens : ∀ c, Q c → c.opened = none) :
    w.env.Grows w'.env := by
  obtain ⟨new, grown, good⟩ := h.calls
  refine ⟨⟨new, grown, fun c member serial opened => ?_⟩, h.handles⟩
  rw [opens c (good c member)] at opened
  cases opened

omit [Host σ η] in
theorem Alike.grows {w w' : World σ η} (h : Alike w w') : w.env.Grows w'.env :=
  .of_eq h.calls h.handles

omit [Host σ η] in
theorem Closing.opened {c : Issued} (h : Closing c) : c.opened = none := by
  obtain ⟨serial, closing⟩ := h
  simp only [Issued.opened, closing]

variable [Crypto]

omit [Crypto] in
theorem Create.Outcome.grows {sid : UInt64} {plan : Create.Plan η} {w w' : World σ η}
    (h : Create.Outcome sid plan w w') : w.env.Grows w'.env := by
  -- only the open gives out a number, the next one
  cases h with
  | refused _ _ calls handles =>
    refine ⟨⟨_, calls, ?_⟩, Nat.le_of_eq handles.symm⟩
    intro c member serial opened
    obtain rfl := List.mem_singleton.mp member
    cases opened
  | abandoned _ _ _ _ calls handles =>
    refine ⟨⟨_, calls, ?_⟩, handles ▸ Nat.le_succ _⟩
    intro c member serial opened
    simp only [List.mem_cons, List.not_mem_nil, or_false] at member
    rcases member with rfl | rfl | rfl
    · obtain rfl := Option.some.inj opened
      exact ⟨Nat.le_refl _, handles ▸ Nat.lt_succ_self _⟩
    · cases opened
    · cases opened
  | registered _ _ _ _ _ calls handles =>
    refine ⟨⟨_, calls, ?_⟩, handles ▸ Nat.le_succ _⟩
    intro c member serial opened
    simp only [List.mem_cons, List.not_mem_nil, or_false] at member
    rcases member with rfl | rfl
    · obtain rfl := Option.some.inj opened
      exact ⟨Nat.le_refl _, handles ▸ Nat.lt_succ_self _⟩
    · cases opened

omit [Crypto] in
/-- Only a CREATE opens. -/
theorem Warrant.opened {conn : Connection η} {next : Nat} {hdr : Smb2Header} {body : Bytes}
    {c : Issued} (h : Warrant conn next hdr body c) (noCreate : hdr.command ≠ .create) :
    c.opened = none := by
  obtain ⟨origin, call⟩ := c
  cases call with
  | «open» backend path opts result =>
    obtain ⟨plan, cmd, -⟩ := h
    exact absurd cmd noCreate
  | _ => rfl

/-- What the handler of a CREATE runs in, and what is left of it. -/
private theorem dispatchOne_runs_create (server : ServerState) (frame : Bytes) (ordinal : UInt32)
    (w : World σ η) (hdr : Smb2Header) (body : Bytes) (accepted : Accepted w.conn frame hdr body)
    (cmd : hdr.command = .create) : ∃ w₁, Alike w w₁ ∧
      Alike (Create.handle server hdr body w₁).2 (dispatchOne server frame ordinal w).2 := by
  obtain ⟨w₁, before, after⟩ := dispatchOne_of_accepted server frame ordinal w hdr body accepted
    (by simp [cmd]) (by simp [cmd])
  have handler : dispatchCommand server hdr body w₁ = Create.handle server hdr body w₁ := by
    simp only [dispatchCommand, cmd]
  exact ⟨w₁, before, handler ▸ after⟩

/-- An admitted CREATE reaches its backend. -/
theorem dispatchOne_created (server : ServerState) (frame : Bytes) (ordinal : UInt32)
    (w : World σ η) (hdr : Smb2Header) (body : Bytes) (accepted : Accepted w.conn frame hdr body)
    (cmd : hdr.command = .create) (plan : Create.Plan η)
    (admitted : Create.validate w.conn hdr body = .ok plan) :
    Create.Outcome hdr.sessionId plan w (dispatchOne server frame ordinal w).2 := by
  obtain ⟨w₁, before, after⟩ :=
    dispatchOne_runs_create server frame ordinal w hdr body accepted cmd
  simp only [Create.handle, Action.bind_apply, getConn_apply, before.conn, admitted] at after
  -- the trace and the transcript around the handler leave connection and host alone
  cases Create.perform_outcome server hdr.sessionId plan w₁ with
  | refused host conn calls handles answer =>
    refine .refused ?_ ?_ ?_ ?_ (before.host ▸ answer)
    · rw [after.host, host, before.host]
    · rw [after.conn, conn, before.conn]
    · rw [after.calls, calls, before.calls]
    · rw [after.handles, handles, before.handles]
  | abandoned inner opened host conn calls handles =>
    rw [before.host] at opened host
    rw [before.calls, before.handles] at calls
    refine .abandoned inner opened ?_ ?_ ?_ ?_
    · rw [after.host, host]
    · rw [after.conn, conn, before.conn]
    · rw [after.calls, calls]
    · rw [after.handles, handles, before.handles]
  | registered inner info opened host conn calls handles =>
    rw [before.host] at opened host
    rw [before.calls, before.handles] at calls
    rw [before.conn, before.handles] at conn
    refine .registered inner info opened ?_ ?_ ?_ ?_
    · rw [after.host, host]
    · rw [after.conn, conn]
    · rw [after.calls, calls]
    · rw [after.handles, handles, before.handles]

/-- A CREATE, with the outcome of its backend part. -/
theorem dispatchOne_create (server : ServerState) (frame : Bytes) (ordinal : UInt32)
    (w : World σ η) (hdr : Smb2Header) (body : Bytes) (accepted : Accepted w.conn frame hdr body)
    (cmd : hdr.command = .create) :
    Alike w (dispatchOne server frame ordinal w).2 ∨
      ∃ plan, Create.validate w.conn hdr body = .ok plan ∧
        Create.Outcome hdr.sessionId plan w (dispatchOne server frame ordinal w).2 := by
  cases admitted : Create.validate w.conn hdr body with
  | error status =>
    obtain ⟨w₁, before, after⟩ :=
      dispatchOne_runs_create server frame ordinal w hdr body accepted cmd
    simp only [Create.handle, Action.bind_apply, getConn_apply, before.conn, admitted,
      Action.pure_apply] at after
    exact .inl (before.trans after)
  | ok plan =>
    exact .inr ⟨plan, rfl, dispatchOne_created server frame ordinal w hdr body accepted cmd plan
      admitted⟩

theorem dispatchOne_grows (server : ServerState) (frame : Bytes) (ordinal : UInt32)
    (w : World σ η) : w.env.Grows (dispatchOne server frame ordinal w).2.env := by
  rcases dispatchOne_effect server frame ordinal w with same | ⟨hdr, body, accepted, run⟩
  · exact same.grows
  · by_cases cmd : hdr.command = .create
    · rcases dispatchOne_create server frame ordinal w hdr body accepted cmd with
        same | ⟨plan, -, outcome⟩
      · exact same.grows
      · exact outcome.grows
    · exact run.grows fun c warrant => warrant.opened cmd

/-- The reply to an SMB1 request asks the clock and nothing else. -/
theorem smb1_frame (server : ServerState) (chosen : UInt16) (w : World σ η) :
    (handleSmb1MultiProtocol server chosen w).2.conn = w.conn ∧
      (handleSmb1MultiProtocol server chosen w).2.env.calls = w.env.calls ∧
      (handleSmb1MultiProtocol server chosen w).2.env.nextHandle = w.env.nextHandle :=
  ⟨rfl, rfl, rfl⟩

/-! ### Sweeps -/

section
omit [Crypto]

theorem Effect.closeSession (sid : UInt64) :
    Action.Moves (Effect Removal Closing) (Connection.closeSession sid : Action (World σ η) _) :=
  moves_closeSession (fun _ serial => ⟨serial, rfl⟩) sid fun conn => .session conn sid

theorem Effect.removeTree (sid : UInt64) (tid : UInt32) :
    Action.Moves (Effect Removal Closing)
      (removeTreeFromSession sid tid : Action (World σ η) _) :=
  moves_removeTree (fun _ serial => ⟨serial, rfl⟩) sid tid fun conn => .tree conn sid tid

theorem Effect.closeMatchingTrees (matchesTree : Session η → TreeConnect η → Bool) :
    Action.Moves (Effect Removal Closing)
      (Connection.closeMatchingTrees matchesTree : Action (World σ η) _) := by
  refine Effect.bind Effect.getConn fun conn => ?_
  refine Action.Moves.forM Effect.refl Effect.trans _ fun sid _ => ?_
  refine Effect.bind Effect.getConn fun conn => ?_
  split
  · refine Action.Moves.forM Effect.refl Effect.trans _ fun tid _ => ?_
    exact Effect.bind (Effect.removeTree _ _) fun _ => Effect.pure _
  · exact Effect.pure _

/-- A sweep takes sessions and trees away and closes handles. -/
theorem Effect.sweep (sweep : Sweep) :
    Action.Moves (Effect Removal Closing) (sweep.onConnection : Action (World σ η) _) := by
  cases sweep with
  | none => exact Effect.pure _
  | sessionsForUser user =>
    refine Effect.bind Effect.getConn fun conn => ?_
    refine Action.Moves.forM Effect.refl Effect.trans _ fun sid _ => ?_
    exact Effect.bind (Effect.closeSession _) fun _ => Effect.pure _
  | treesForShare | treesForUserShare => exact Effect.closeMatchingTrees _

end

/-! ### The connections of a system -/

namespace System

/-- `P` holds of every live connection. -/
def Conns (P : Env σ → Connection η → Prop) (s : System σ η) : Prop :=
  ∀ cid conn, s.conns.lookup cid = some conn → P s.env conn

section
variable {P : Env σ → Connection η → Prop}
omit [Host σ η] [Crypto]

theorem onConn_of_none {α : Type} (s : System σ η) (cid : UInt64) (m : Action (World σ η) α)
    (gone : s.conns.lookup cid = none) : (s.onConn cid m).2 = s := by
  simp only [onConn, gone]

theorem onConn_of_some {α : Type} (s : System σ η) (cid : UInt64) (m : Action (World σ η) α)
    (conn : Connection η) (live : s.conns.lookup cid = some conn) :
    (s.onConn cid m).2 = { s with
      conns := s.conns.modify cid fun _ => (m ⟨conn, s.env⟩).2.conn
      env := (m ⟨conn, s.env⟩).2.env } := by
  simp only [onConn, live]

theorem lookup_onConn {α : Type} (s : System σ η) (cid cid' : UInt64) (m : Action (World σ η) α) :
    (s.onConn cid m).2.conns.lookup cid' =
      if cid' = cid then (s.conns.lookup cid').map fun conn => (m ⟨conn, s.env⟩).2.conn
      else s.conns.lookup cid' := by
  cases live : s.conns.lookup cid with
  | none =>
    rw [onConn_of_none s cid m live]
    split
    next same => simp [same, live]
    next => rfl
  | some conn =>
    rw [onConn_of_some s cid m conn live]
    simp only [Table.lookup_modify]
    split
    next same => simp [same, live]
    next => rfl

@[simp] theorem onConn_server {α : Type} (s : System σ η) (cid : UInt64)
    (m : Action (World σ η) α) : (s.onConn cid m).2.server = s.server := by
  rw [onConn]
  split <;> rfl

/-- An action on one connection keeps an invariant of all when it keeps it of its own and the
environment it leaves keeps it of the others. `J` is an invariant of the environment alone. -/
theorem Conns.onConn {α : Type} {J : Env σ → Prop} (s : System σ η) (cid : UInt64)
    (m : Action (World σ η) α) (ok : J s.env) (inv : s.Conns P)
    (stays : ∀ env env', Env.Grows env env' → J env → J env')
    (grows : ∀ env env' conn, J env → Env.Grows env env' → P env conn → P env' conn)
    (env : ∀ w : World σ η, w.env.Grows (m w).2.env)
    (here : ∀ w : World σ η, J w.env → P w.env w.conn → P (m w).2.env (m w).2.conn) :
    J (s.onConn cid m).2.env ∧ (s.onConn cid m).2.Conns P := by
  cases live : s.conns.lookup cid with
  | none =>
    rw [onConn_of_none s cid m live]
    exact ⟨ok, inv⟩
  | some conn =>
    rw [onConn_of_some s cid m conn live]
    refine ⟨stays _ _ (env ⟨conn, s.env⟩) ok, ?_⟩
    -- the connection itself, or one that sees the calls of another
    intro cid' conn' found
    simp only [Table.lookup_modify] at found
    split at found
    next same =>
      subst same
      obtain ⟨old, before, rfl⟩ := Option.map_eq_some_iff.mp found
      exact here ⟨conn, s.env⟩ ok (inv _ conn live)
    next => exact grows _ _ _ ok (env ⟨conn, s.env⟩) (inv cid' conn' found)

theorem Conns.onEach {J : Env σ → Prop} (s : System σ η) (m : Action (World σ η) Unit)
    (ok : J s.env) (inv : s.Conns P)
    (stays : ∀ env env', Env.Grows env env' → J env → J env')
    (grows : ∀ env env' conn, J env → Env.Grows env env' → P env conn → P env' conn)
    (env : ∀ w : World σ η, w.env.Grows (m w).2.env)
    (here : ∀ w : World σ η, J w.env → P w.env w.conn → P (m w).2.env (m w).2.conn) :
    J (s.onEach m).env ∧ (s.onEach m).Conns P := by
  rw [System.onEach]
  generalize s.conns.keys = cids
  induction cids generalizing s with
  | nil => exact ⟨ok, inv⟩
  | cons cid rest ih =>
    obtain ⟨ok', inv'⟩ := Conns.onConn s cid m ok inv stays grows env here
    exact ih _ ok' inv'

end

/-- What a removal keeps, a sweep keeps. -/
theorem Conns.configure {J : Env σ → Prop} {P : Env σ → Connection η → Prop} (s : System σ η)
    (op : ConfigOp) (ok : J s.env) (inv : s.Conns P)
    (stays : ∀ env env', Env.Grows env env' → J env → J env')
    (grows : ∀ env env' conn, J env → Env.Grows env env' → P env conn → P env' conn)
    (removal : ∀ env conn conn', Removal conn conn' → P env conn → P env conn') :
    J (s.configure op).2.env ∧ (s.configure op).2.Conns P := by
  rw [System.configure]
  split
  · exact ⟨ok, inv⟩
  next server sweep _ =>
  have moves := Effect.sweep (σ := σ) (η := η) sweep
  have env (w : World σ η) : w.env.Grows (sweep.onConnection w).2.env :=
    (moves w).grows fun c closing => closing.opened
  refine Conns.onEach _ _ ok inv stays grows env fun w ok h => ?_
  have removed := (moves w).conn
  have grown := grows _ _ _ ok (env w) h
  revert removed grown
  generalize (sweep.onConnection w).2.conn = conn'
  intro removed grown
  -- a sweep is a run of removals on each connection
  induction removed with
  | refl => exact grown
  | tail _ r ih => exact removal _ _ _ r ih

omit [Host σ η] [Crypto] in
/-- What an action on every connection makes of each of them. -/
theorem onEach_lookup {R : Connection η → Connection η → Prop} (refl : ∀ conn, R conn conn)
    (trans : ∀ a b c, R a b → R b c → R a c) (m : Action (World σ η) Unit)
    (moves : ∀ w, R w.conn (m w).2.conn) (s : System σ η) (cid : UInt64) (conn' : Connection η)
    (found : (s.onEach m).conns.lookup cid = some conn') :
    ∃ conn, s.conns.lookup cid = some conn ∧ R conn conn' := by
  rw [onEach] at found
  generalize s.conns.keys = cids at found
  -- the connection is visited when its turn comes, or not at all
  induction cids generalizing s with
  | nil => exact ⟨conn', found, refl conn'⟩
  | cons first rest ih =>
    obtain ⟨mid, there, moved⟩ := ih (s.onConn first m).2 found
    cases live : s.conns.lookup first with
    | none =>
      rw [onConn_of_none s first m live] at there
      exact ⟨mid, there, moved⟩
    | some conn =>
      rw [onConn_of_some s first m conn live] at there
      simp only [Table.lookup_modify] at there
      split at there
      next same =>
        subst same
        obtain ⟨old, before, rfl⟩ := Option.map_eq_some_iff.mp there
        obtain rfl := Option.some.inj (live.symm.trans before)
        exact ⟨conn, before, trans _ _ _ (moves ⟨conn, s.env⟩) moved⟩
      next => exact ⟨mid, there, moved⟩

/-- A configuration operation only takes sessions and trees away. -/
theorem configure_lookup (s : System σ η) (op : ConfigOp) (cid : UInt64) (conn' : Connection η)
    (found : (s.configure op).2.conns.lookup cid = some conn') :
    ∃ conn, s.conns.lookup cid = some conn ∧ Relation.ReflTransGen Removal conn conn' := by
  rw [configure] at found
  split at found
  · exact ⟨conn', found, .refl⟩
  next server sweep _ =>
  exact onEach_lookup (fun _ => .refl) (fun _ _ _ => .trans) sweep.onConnection
    (fun w => (Effect.sweep sweep w).conn) { s with server := server } cid conn' found

/-- Where a live connection comes from: it is new, or one element or some removals away from what it
was. -/
theorem execute_lookup (s : System σ η) (step : Step) (cid : UInt64) (conn' : Connection η)
    (found : (s.execute step).conns.lookup cid = some conn') :
    (step = .accept ∧ cid = s.nextConnId ∧ conn' = Connection.new s.nextConnId
        s.server.config.serverGuid s.server.config.maxReadSize s.server.config.maxWriteSize) ∨
      ∃ conn, s.conns.lookup cid = some conn ∧
        ((∃ e, step = .element cid e ∧
            conn' = (dispatchOne s.server e.bytes e.ordinal ⟨conn, s.env⟩).2.conn) ∨
          Relation.ReflTransGen Removal conn conn') := by
  -- a step replaces at most its own connection
  cases step with
  | accept =>
    simp only [System.execute, accept, Table.lookup_insert] at found
    split at found
    next same => exact .inl ⟨rfl, same, (Option.some.inj found).symm⟩
    next => exact .inr ⟨conn', found, .inr .refl⟩
  | element cid' e =>
    simp only [System.execute, lookup_onConn] at found
    split at found
    next same =>
      subst same
      obtain ⟨conn, before, rfl⟩ := Option.map_eq_some_iff.mp found
      exact .inr ⟨conn, before, .inl ⟨e, rfl, rfl⟩⟩
    next => exact .inr ⟨conn', found, .inr .refl⟩
  | smb1 cid' chosen =>
    simp only [System.execute, lookup_onConn, (smb1_frame s.server chosen _).1, Option.map_id',
      ite_self] at found
    exact .inr ⟨conn', found, .inr .refl⟩
  | config op =>
    obtain ⟨conn, before, removed⟩ := s.configure_lookup op cid conn' found
    exact .inr ⟨conn, before, .inr removed⟩
  | hangup cid' =>
    simp only [System.execute, hangup, Table.lookup_erase] at found
    split at found
    · cases found
    · exact .inr ⟨conn', found, .inr .refl⟩

omit [Host σ η] [Crypto] in
@[simp] theorem onEach_server (s : System σ η) (m : Action (World σ η) Unit) :
    (s.onEach m).server = s.server := by
  rw [onEach]
  generalize s.conns.keys = cids
  induction cids generalizing s with
  | nil => rfl
  | cons cid rest ih => rw [List.foldl_cons, ih, onConn_server]

theorem configure_config (s : System σ η) (op : ConfigOp) :
    (s.configure op).2.server.config = s.server.config := by
  rw [configure]
  split
  · rfl
  next server sweep edited =>
    rw [onEach_server]
    exact (ServerState.edited_of_edit _ _ _ _ edited).config

/-- The configuration that connections are opened with never changes. -/
theorem execute_config (s : System σ η) (step : Step) :
    (s.execute step).server.config = s.server.config := by
  cases step with
  | accept | hangup => rfl
  | element | smb1 => rw [execute, onConn_server]
  | config op => exact s.configure_config op

theorem step_config (s : System σ η) (e : Event) : (s.step e).server.config = s.server.config := by
  cases e with
  | accept | hangup => rfl
  | frame cid bytes => rw [step, serve, onConn_server]
  | config op => exact s.configure_config op

/-- The rule for invariants of every live connection. -/
theorem Conns.execute {J : Env σ → Prop} {P : Env σ → Connection η → Prop}
    (stays : ∀ env env', Env.Grows env env' → J env → J env')
    (fresh : ∀ env cid guid maxRead maxWrite, P env (Connection.new cid guid maxRead maxWrite))
    (grows : ∀ env env' conn, J env → Env.Grows env env' → P env conn → P env' conn)
    (removal : ∀ env conn conn', Removal conn conn' → P env conn → P env conn')
    (element : ∀ (server : ServerState) (frame : Bytes) (ordinal : UInt32) (w : World σ η),
      J w.env → P w.env w.conn →
      P (dispatchOne server frame ordinal w).2.env (dispatchOne server frame ordinal w).2.conn)
    (s : System σ η) (step : Step) (inv : J s.env ∧ s.Conns P) :
    J (s.execute step).env ∧ (s.execute step).Conns P := by
  obtain ⟨ok, inv⟩ := inv
  cases step with
  | accept =>
    refine ⟨ok, fun cid conn found => ?_⟩
    simp only [System.execute, accept, Table.lookup_insert] at found
    split at found
    · obtain rfl := Option.some.inj found
      exact fresh _ _ _ _ _
    · exact inv cid conn found
  | element cid e =>
    exact Conns.onConn s cid _ ok inv stays grows (dispatchOne_grows s.server e.bytes e.ordinal)
      (element s.server e.bytes e.ordinal)
  -- this answer reads the configuration and the clock only
  | smb1 cid chosen =>
    have env (w : World σ η) : w.env.Grows (handleSmb1MultiProtocol s.server chosen w).2.env :=
      .of_eq (smb1_frame s.server chosen w).2.1 (smb1_frame s.server chosen w).2.2
    refine Conns.onConn s cid _ ok inv stays grows env fun w ok h => ?_
    rw [(smb1_frame s.server chosen w).1]
    exact grows _ _ _ ok (env w) h
  | config op => exact Conns.configure s op ok inv stays grows removal
  | hangup cid =>
    refine ⟨ok, fun cid' conn found => ?_⟩
    simp only [System.execute, hangup, Table.lookup_erase] at found
    split at found
    · cases found
    · exact inv cid' conn found

/-! ### The record of calls -/

/-- The step executes this request: its element is on a live connection, parses, and passes the
signature check. -/
def Executes (s : System σ η) (step : Step) (conn : Connection η) (hdr : Smb2Header)
    (body : Bytes) : Prop :=
  ∃ cid e, step = .element cid e ∧ s.conns.lookup cid = some conn ∧
    Accepted conn e.bytes hdr body

/-- Every call of a step closes a handle or is warranted by the request that the step executes. -/
theorem execute_calls (s : System σ η) (step : Step) :
    ∃ new, (s.execute step).env.calls = s.env.calls ++ new ∧ ∀ c ∈ new, Closing c ∨
      ∃ conn hdr body, s.Executes step conn hdr body ∧
        Warrant conn s.env.nextHandle hdr body c := by
  cases step with
  | accept | hangup => exact ⟨[], by simp [System.execute, accept, hangup]⟩
  | element cid e =>
    cases live : s.conns.lookup cid with
    | none => exact ⟨[], by simp [System.execute, onConn_of_none s cid _ live]⟩
    | some conn =>
      simp only [System.execute, onConn_of_some s cid _ conn live]
      rcases dispatchOne_effect s.server e.bytes e.ordinal ⟨conn, s.env⟩ with
        same | ⟨hdr, body, accepted, run⟩
      · exact ⟨[], by simp [same.calls]⟩
      · obtain ⟨new, grown, good⟩ := run.calls
        exact ⟨new, grown, fun c member => .inr ⟨conn, hdr, body,
          ⟨cid, e, rfl, live, accepted⟩, good c member⟩⟩
  | smb1 cid chosen =>
    cases live : s.conns.lookup cid with
    | none => exact ⟨[], by simp [System.execute, onConn_of_none s cid _ live]⟩
    | some conn =>
      exact ⟨[], by simp [System.execute, onConn_of_some s cid _ conn live,
        (smb1_frame s.server chosen _).2.1]⟩
  | config op =>
    simp only [System.execute, System.configure]
    split
    · exact ⟨[], by simp⟩
    next server sweep _ =>
    -- a sweep closes handles, on one connection after the other
    suffices swept : ∀ (cids : List UInt64) (s : System σ η), ∃ new,
        (cids.foldl (fun s cid => (s.onConn cid sweep.onConnection).2) s).env.calls =
          s.env.calls ++ new ∧ ∀ c ∈ new, Closing c by
      obtain ⟨new, grown, closing⟩ := swept _ { s with server := server }
      exact ⟨new, grown, fun c member => .inl (closing c member)⟩
    intro cids
    induction cids with
    | nil => exact fun s => ⟨[], by simp⟩
    | cons cid rest ih =>
      intro s
      obtain ⟨new, grown, closing⟩ := ih (s.onConn cid sweep.onConnection).2
      have first : ∃ front, (s.onConn cid sweep.onConnection).2.env.calls =
          s.env.calls ++ front ∧ ∀ c ∈ front, Closing c := by
        cases live : s.conns.lookup cid with
        | none => exact ⟨[], by simp [onConn_of_none s cid _ live]⟩
        | some conn =>
          rw [onConn_of_some s cid _ conn live]
          exact (Effect.sweep sweep ⟨conn, s.env⟩).calls
      obtain ⟨front, grown', closing'⟩ := first
      refine ⟨front ++ new, ?_, List.forall_mem_append.mpr ⟨closing', closing⟩⟩
      rw [List.foldl_cons, grown, grown', List.append_assoc]

/-- The rule for what is said of every call of a run: it holds when it is decided step by step. -/
theorem calls_iff {Inv : System σ η → Prop} {P : Issued → Prop} {Q : System σ η → Step → Prop}
    (server : ServerState) (host : σ) (events : List Event) (init : Inv (start server host))
    (preserved : ∀ s step, Inv s → Inv (s.execute step))
    (decided : ∀ s step new, Inv s → (s.execute step).env.calls = s.env.calls ++ new →
      (∀ c ∈ new, Closing c ∨ ∃ conn hdr body, s.Executes step conn hdr body ∧
        Warrant conn s.env.nextHandle hdr body c) → ((∀ c ∈ new, P c) ↔ Q s step)) :
    (∀ c ∈ ((start server host).run events).env.calls, P c) ↔ Throughout server host events Q := by
  have decide (s : System σ η) (step : Step) (inv : Inv s) : ∃ new,
      (s.execute step).env.calls = s.env.calls ++ new ∧ ((∀ c ∈ new, P c) ↔ Q s step) := by
    obtain ⟨new, grown, warranted⟩ := s.execute_calls step
    exact ⟨new, grown, decided s step new inv grown warranted⟩
  have whole := Always.log_iff (fun s => s.env.calls) preserved decide (start server host)
    ((start server host).steps events) init
  rw [run_eq, whole]
  simp [start, Throughout]

end System

end SmbServer
