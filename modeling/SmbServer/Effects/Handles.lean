import SmbServer.Effects.Calls
import SmbServer.Effects.System
import SmbServer.Effects.Teardown
import SmbServer.Effects.Gather

/-!
# SmbServer.Effects.Handles

The account of backend handles. A handle that was opened is held by one open, or has been closed;
`Accounts` says that an action keeps it so, whatever other connections hold meanwhile.
-/

namespace SmbServer

open Lib

/-- The handle that a call goes to. -/
def BackendCall.handle : BackendCall → Option Nat
  | .read n _ _ | .writeOwned n _ _ | .flush n | .stat n | .setTimes n _ | .truncate n _
  | .listDir n _ | .close n => some n
  | .open .. | .unlink .. | .rename .. => none

def BackendCall.closes : BackendCall → Option Nat
  | .close n => some n
  | _ => none

/-- The record of calls as a log of handle numbers. -/
def handleLedger : Ledger Issued where
  uses c := c.call.handle
  closes c := c.call.closes

/-! ### What is held -/

section
variable {η : Type}

def Open.held (file : Open η) : Multiset Nat :=
  match file.handle with
  | some h => {h.serial}
  | none => 0

def TreeConnect.held (tree : TreeConnect η) : Multiset Nat := tree.opens.collect Open.held

def Session.held (sess : Session η) : Multiset Nat := sess.trees.collect TreeConnect.held

/-- The handles of the opens of a connection. -/
def Connection.held (conn : Connection η) : Multiset Nat := conn.sessions.collect Session.held

theorem Connection.held_eq (conn : Connection η) : conn.held = conn.gather Open.held := rfl

/-- The handle of an open is held. -/
theorem Connection.mem_held (conn : Connection η) (sid : UInt64) (tid : UInt32) (fid : FileId)
    (file : Open η) (h : Boxed η) (found : conn.findOpen sid tid fid = some file)
    (live : file.handle = some h) : h.serial ∈ conn.held := by
  have own : h.serial ∈ file.held := by simp [Open.held, live]
  exact Multiset.mem_of_le (conn.le_gather Open.held sid tid fid file found) own

end

/-! ### One change -/

variable {σ η : Type} [Host σ η]

section
variable [Crypto] {server : ServerState} {hdr : Smb2Header}

/-- Only CREATE adds a handle. -/
theorem Edits.held_le {conn conn' : Connection η} (e : Edits σ server hdr conn conn')
    (noCreate : hdr.command ≠ .create) : conn'.held ≤ conn.held :=
  e.gather_le Open.held noCreate (fun _ _ => rfl) (fun _ _ => rfl) fun _ _ _ => rfl

end

/-! ### Accounts -/

/-- The handles that are held, and those that the record has closed. -/
abbrev Balanced (held : Multiset Nat) (env : Env σ) : Prop :=
  handleLedger.Balanced held env.calls env.nextHandle

/-- From `w` to `w'` the account stays balanced, whatever others hold. -/
def Accounts (w w' : World σ η) : Prop :=
  ∀ others, Balanced (others + w.conn.held) w.env → Balanced (others + w'.conn.held) w'.env

omit [Host σ η] in
theorem Accounts.refl (w : World σ η) : Accounts w w := fun _ h => h

omit [Host σ η] in
theorem Accounts.trans (w w' w'' : World σ η) (first : Accounts w w') (second : Accounts w' w'') :
    Accounts w w'' :=
  fun others h => second others (first others h)

omit [Host σ η] in
/-- Calls through handles that are held, none of which closes one. -/
theorem accounts_of_uses {w w' : World σ η} (conn : w'.conn.held ≤ w.conn.held)
    (calls : ∃ new, w'.env.calls = w.env.calls ++ new ∧
      ∀ c ∈ new, c.call.closes = none ∧ ∀ n, c.call.handle = some n → n ∈ w.conn.held)
    (handles : w.env.nextHandle ≤ w'.env.nextHandle) : Accounts w w' := by
  intro others balanced
  obtain ⟨new, grown, each⟩ := calls
  have used := balanced.useAll new fun c member => ⟨(each c member).1, fun n uses =>
    Multiset.mem_add.mpr (.inr ((each c member).2 n uses))⟩
  rw [← grown] at used
  exact used.mono (add_le_add (le_refl _) conn) handles

omit [Host σ η] in
theorem accounts_of_alike {w w' : World σ η} (h : Alike w w') : Accounts w w' :=
  accounts_of_uses (by rw [h.conn]) ⟨[], by simp [h.calls]⟩ (Nat.le_of_eq h.handles.symm)

/-! ### Closing -/

theorem balanced_closeOpen (sid : UInt64) (tid : UInt32) (access : Access) (file : Open η)
    (w : World σ η) (others : Multiset Nat) (balanced : Balanced (others + file.held) w.env) :
    Balanced others (closeOpen sid tid access file w).2.env := by
  rw [closeOpen]
  cases live : file.handle with
  | none =>
    rw [Open.held, live, add_zero] at balanced
    exact balanced
  | some h =>
    rw [Open.held, live] at balanced
    exact balanced.close ⟨⟨sid, tid, access, some file.grantedAccess⟩, .close h.serial⟩ rfl rfl

/-- Closing a tree that has left its table spends what it held. -/
theorem balanced_closeTreeState (sid : UInt64) (tid : UInt32) (tree : TreeConnect η)
    (w : World σ η) (others : Multiset Nat) (balanced : Balanced (others + tree.held) w.env) :
    Balanced others (closeTreeState sid tid tree w).2.env := by
  rw [closeTreeState]
  rw [TreeConnect.held, Table.collect] at balanced
  generalize tree.opens.vals = files at balanced ⊢
  induction files generalizing w with
  | nil =>
    rw [Multiset.coe_nil, Multiset.zero_bind, add_zero] at balanced
    exact balanced
  | cons file rest ih =>
    rw [← Multiset.cons_coe, Multiset.cons_bind, ← add_assoc, add_right_comm] at balanced
    exact ih _ (balanced_closeOpen sid tid tree.grantedAccess file w _ balanced)

theorem balanced_closeSessionState (sid : UInt64) (sess : Session η) (w : World σ η)
    (others : Multiset Nat) (balanced : Balanced (others + sess.held) w.env) :
    Balanced others (closeSessionState sid sess w).2.env := by
  rw [closeSessionState]
  rw [Session.held, Table.collect, ← Table.filterMap_lookup_keys] at balanced
  generalize sess.trees.keys = tids at balanced ⊢
  -- each tree takes its share of the handles that the session accounts for
  induction tids generalizing w with
  | nil =>
    rw [List.filterMap_nil, Multiset.coe_nil, Multiset.zero_bind, add_zero] at balanced
    exact balanced
  | cons tid rest ih =>
    refine ih _ ?_
    dsimp only
    rw [List.filterMap_cons] at balanced
    cases found : sess.trees.lookup tid with
    | none =>
      rw [found] at balanced
      exact balanced
    | some tree =>
      rw [found, ← Multiset.cons_coe, Multiset.cons_bind, ← add_assoc, add_right_comm] at balanced
      exact balanced_closeTreeState sid tid tree w _ balanced

omit [Host σ η] in
/-- Taking a tree out of its session takes what it held. -/
theorem held_eraseTree (conn : Connection η) (sid : UInt64) (tid : UInt32) (tree : TreeConnect η)
    (found : conn.findTree sid tid = some tree) :
    conn.held = (conn.modifySession sid fun sess =>
      { sess with trees := sess.trees.erase tid }).held + tree.held := by
  obtain ⟨sess, session, under⟩ := Option.bind_eq_some_iff.mp found
  rw [Connection.held, Table.collect_erase _ sid sess _ session, Connection.held,
    Connection.modifySession, Table.collect_modify _ sid sess _ _ session, add_assoc]
  congr 1
  exact Table.collect_erase _ tid tree _ under

theorem accounts_removeTree (sid : UInt64) (tid : UInt32) :
    Action.Moves Accounts (removeTreeFromSession sid tid : Action (World σ η) Bool) := by
  intro w others balanced
  have conn := removeTree_conn sid tid w
  simp only [removeTreeFromSession, Action.bind_apply, getConn_apply] at conn ⊢
  cases found : w.conn.findTree sid tid with
  | none => exact balanced
  | some tree =>
    rw [found] at conn
    simp only [Option.isSome_some, if_true] at conn
    simp only [Action.bind_apply, Action.pure_apply] at conn ⊢
    rw [conn]
    rw [held_eraseTree w.conn sid tid tree found, ← add_assoc] at balanced
    exact balanced_closeTreeState sid tid tree _ _ balanced

theorem accounts_closeSession (sid : UInt64) :
    Action.Moves Accounts (Connection.closeSession sid : Action (World σ η) Bool) := by
  intro w others balanced
  simp only [Connection.closeSession, Action.bind_apply, getConn_apply]
  cases found : w.conn.sessions.lookup sid with
  | none => exact balanced
  | some sess =>
    simp only [Action.bind_apply, Action.pure_apply]
    rw [closeSessionState_keepsConn sid sess]
    have whole : w.conn.held = ({ w.conn with sessions := w.conn.sessions.erase sid } :
        Connection η).held + sess.held := Table.collect_erase _ sid sess _ found
    rw [whole, ← add_assoc] at balanced
    exact balanced_closeSessionState sid sess _ _ balanced

theorem accounts_sweep (sweep : Sweep) :
    Action.Moves Accounts (sweep.onConnection : Action (World σ η) Unit) := by
  have matching (matchesTree : Session η → TreeConnect η → Bool) :
      Action.Moves Accounts
        (Connection.closeMatchingTrees matchesTree : Action (World σ η) Unit) := by
    refine Action.Moves.bind Accounts.trans (fun w => Accounts.refl w) fun conn => ?_
    refine Action.Moves.forM Accounts.refl Accounts.trans _ fun sid _ => ?_
    refine Action.Moves.bind Accounts.trans (fun w => Accounts.refl w) fun conn => ?_
    split
    · refine Action.Moves.forM Accounts.refl Accounts.trans _ fun tid _ => ?_
      exact Action.Moves.bind Accounts.trans (accounts_removeTree _ _) fun _ w => Accounts.refl w
    · exact fun w => Accounts.refl w
  cases sweep with
  | none => exact fun w => Accounts.refl w
  | sessionsForUser user =>
    refine Action.Moves.bind Accounts.trans (fun w => Accounts.refl w) fun conn => ?_
    refine Action.Moves.forM Accounts.refl Accounts.trans _ fun sid _ => ?_
    exact Action.Moves.bind Accounts.trans (accounts_closeSession _) fun _ w => Accounts.refl w
  | treesForShare | treesForUserShare => exact matching _

/-! ### CLOSE -/

/-- What CLOSE does to the connection and the record of calls. -/
structure Close.Outcome (sid : UInt64) (req : CloseRequest) (target : Target η)
    (w w' : World σ η) : Prop where
  conn : w'.conn = w.conn.modifyOpens sid target.tid fun opens => opens.erase req.fileId
  handles : w'.env.nextHandle = w.env.nextHandle
  calls : ∃ stats : List Issued,
    (∀ c ∈ stats, ∃ h, target.file.handle = some h ∧ c.call = .stat h.serial) ∧
      w'.env.calls = w.env.calls ++ stats ++
        (target.file.handle.map fun h => ⟨target.origin sid, .close h.serial⟩).toList ++
        if target.file.deleteOnClose then
          [⟨target.origin sid, .unlink target.tree.share.backend target.file.lastPath⟩] else []

/-- Looking at the attributes is a `stat` or nothing. -/
theorem Close.infoBeforeClose_calls (req : CloseRequest) (origin : Origin)
    (handle : Option (Boxed η)) (w : World σ η) :
    (infoBeforeClose req origin handle w).2.conn = w.conn ∧
      (infoBeforeClose req origin handle w).2.env.nextHandle = w.env.nextHandle ∧
      ∃ stats : List Issued, (∀ c ∈ stats, ∃ h, handle = some h ∧ c.call = .stat h.serial) ∧
        (infoBeforeClose req origin handle w).2.env.calls = w.env.calls ++ stats := by
  have nothing : (∀ c ∈ ([] : List Issued), ∃ h, handle = some h ∧ c.call = .stat h.serial) ∧
      w.env.calls = w.env.calls ++ [] := ⟨by simp, (List.append_nil _).symm⟩
  simp only [infoBeforeClose]
  -- attributes are looked up only on request, and only under a live handle
  cases wantAttrs req with
  | false => exact ⟨rfl, rfl, [], nothing⟩
  | true =>
    cases handle with
    | none => exact ⟨rfl, rfl, [], nothing⟩
    | some h =>
      have looked : ∀ c ∈ [(⟨origin, .stat h.serial⟩ : Issued)],
          ∃ h', some h = some h' ∧ c.call = .stat h'.serial := by
        intro c member
        obtain rfl := List.mem_singleton.mp member
        exact ⟨h, rfl, rfl⟩
      simp only [Action.bind_apply, Boxed.stat, issue_apply]
      cases (Host.stat (σ := σ) h.inner w.env.host).1 <;> exact ⟨rfl, rfl, _, looked, rfl⟩

theorem Close.perform_outcome (server : ServerState) (sid : UInt64) (req : CloseRequest)
    (target : Target η) (w : World σ η) :
    Close.Outcome sid req target w (Close.perform server sid req target w).2 := by
  simp only [Close.perform, Action.bind_apply, modifyConn_apply]
  have recorded := alike_record server.traceSink (.close req.fileId.write
    target.file.deleteOnClose target.file.lastPath.displayBackslash)
    (w.setConn (w.conn.modifyOpens sid target.tid fun opens => opens.erase req.fileId))
  -- what the trace has left is only known up to the connection and the calls
  revert recorded
  generalize (record server.traceSink _ (w.setConn _)).2 = w₁
  intro recorded
  obtain ⟨conn, handles, stats, looked, calls⟩ :=
    Close.infoBeforeClose_calls req (target.origin sid) target.file.handle w₁
  revert conn handles calls
  generalize Close.infoBeforeClose req (target.origin sid) target.file.handle w₁ = result
  obtain ⟨info, w₂⟩ := result
  intro conn handles calls
  rw [recorded.conn] at conn
  rw [recorded.handles] at handles
  rw [recorded.calls] at calls
  dsimp only at conn handles calls ⊢
  cases live : target.file.handle with
  | none =>
    cases marked : target.file.deleteOnClose <;>
      exact ⟨conn, handles, stats, looked, by simp [calls, live, marked, backendUnlink]⟩
  | some h =>
    cases marked : target.file.deleteOnClose <;>
      exact ⟨conn, handles, stats, looked,
        by simp [calls, live, marked, backendUnlink, Boxed.close]⟩

omit [Host σ η] in
theorem accounts_close {sid : UInt64} {req : CloseRequest} {target : Target η}
    {w w' : World σ η} (h : Close.Outcome sid req target w w')
    (found : w.conn.findOpen sid target.tid req.fileId = some target.file) : Accounts w w' := by
  intro others balanced
  obtain ⟨stats, looked, calls⟩ := h.calls
  have taken := w.conn.gather_eraseOpen Open.held sid target.tid req.fileId target.file found
  rw [Connection.held_eq, taken, ← add_assoc, ← Connection.held_eq] at balanced
  -- the open holds the one handle that is closed
  have own (h : Boxed η) (live : target.file.handle = some h) : target.file.held = {h.serial} := by
    simp only [Open.held, live]
  have stated := balanced.useAll stats fun c member => by
    obtain ⟨h, live, call⟩ := looked c member
    refine ⟨by simp only [handleLedger, call, BackendCall.closes], fun n uses => ?_⟩
    simp only [handleLedger, call, BackendCall.handle, Option.some.injEq] at uses
    rw [own h live, ← uses]
    exact Multiset.mem_add.mpr (.inr (Multiset.mem_singleton_self _))
  have closed : handleLedger.Balanced
      (others + (w.conn.modifyOpens sid target.tid fun opens => opens.erase req.fileId).held)
      (w.env.calls ++ stats ++
        (target.file.handle.map fun h => ⟨target.origin sid, .close h.serial⟩).toList)
      w.env.nextHandle := by
    cases live : target.file.handle with
    | none =>
      simp only [Open.held, live, add_zero] at stated
      simpa only [Option.map_none, Option.toList_none, List.append_nil] using stated
    | some h =>
      rw [own h live] at stated
      exact stated.close ⟨target.origin sid, .close h.serial⟩ rfl rfl
  rw [Balanced, h.conn, h.handles, calls]
  split
  · exact closed.use _ rfl nofun
  · rwa [List.append_nil]

/-! ### CREATE -/

theorem accounts_create {sid : UInt64} {plan : Create.Plan η} {w w' : World σ η}
    (h : Create.Outcome sid plan w w') : Accounts w w' := by
  intro others balanced
  -- the new handle is taken by the open, used by stat, and closed or registered
  have taken (result : Option Nat) : handleLedger.Balanced
      (others + w.conn.held + {w.env.nextHandle})
      (w.env.calls ++ [plan.opening sid result] ++
        [⟨plan.through sid, .stat w.env.nextHandle⟩]) (w.env.nextHandle + 1) := by
    have opens : handleLedger.uses (plan.opening sid result) = none := rfl
    refine (balanced.take.use _ rfl fun n uses => ?_).use _ rfl fun n uses => ?_
    · rw [opens] at uses
      cases uses
    obtain rfl := Option.some.inj uses
    exact Multiset.mem_add.mpr (.inr (Multiset.mem_singleton_self _))
  cases h with
  | refused _ conn calls handles =>
    rw [Balanced, conn, calls, handles]
    have opens : handleLedger.uses (plan.opening sid none) = none := rfl
    refine balanced.use _ rfl fun n uses => ?_
    rw [opens] at uses
    cases uses
  | abandoned inner _ _ conn calls handles =>
    rw [Balanced, conn, calls, handles]
    have closed := (taken (some w.env.nextHandle)).close
      ⟨plan.through sid, .close w.env.nextHandle⟩ rfl rfl
    simpa only [List.append_assoc, List.cons_append, List.nil_append] using closed
  | registered inner info _ _ conn calls handles =>
    rw [Balanced, conn, calls, handles]
    have more : (Create.register sid plan.tid plan.tree
        (plan.file ⟨w.env.nextHandle, inner⟩ info) w.conn).held ≤
          w.conn.held + {w.env.nextHandle} :=
      w.conn.gather_register_le Open.held sid plan.tid plan.tree _
    have whole := (taken (some w.env.nextHandle)).mono (add_assoc others _ _ ▸
      add_le_add (le_refl others) more) (Nat.le_refl _)
    simpa only [List.append_assoc, List.cons_append, List.nil_append] using whole

/-! ### One element -/

section
variable [Crypto]

omit [Host σ η] [Crypto] in
theorem Names.mem_held {conn : Connection η} {hdr : Smb2Header} {target : Target η} {n : Nat}
    (h : Names conn hdr target n) : n ∈ conn.held := by
  obtain ⟨fid, b, found, live, rfl⟩ := h
  exact conn.mem_held _ _ _ _ b (findOpen_of_lookupTarget conn hdr fid target found) live

omit [Host σ η] [Crypto] in
theorem SetInfo.Reaches.names {conn : Connection η} {hdr : Smb2Header} {body : Bytes}
    {target : Target η} {op : SetInfo.Operation η} (h : SetInfo.Reaches conn hdr body target op)
    (b : Boxed η) (calls : (∃ times, op = .setTimes b times) ∨ ∃ len, op = .truncate b len) :
    Names conn hdr target b.serial := by
  obtain ⟨-, req, admitted, decoded⟩ := h
  obtain ⟨-, -, found⟩ := (SetInfo.validate_eq_ok conn hdr body req target).mp admitted
  refine ⟨req.fileId, b, found, ?_, rfl⟩
  have shape := (SetInfo.decode_eq_ok _ _ _ op).mp decoded
  rcases calls with ⟨times, rfl⟩ | ⟨len, rfl⟩
  · cases shape with
    | setTimes _ _ _ live => exact live
  · cases shape with
    | truncate _ _ _ live => exact live

omit [Host σ η] [Crypto] in
/-- A request that closes nothing uses handles of its connection. -/
theorem Warrant.uses {conn : Connection η} {next : Nat} {hdr : Smb2Header} {body : Bytes}
    {c : Issued} (h : Warrant conn next hdr body c) (noCloses : ¬hdr.command.Closes) :
    c.call.closes = none ∧ ∀ n, c.call.handle = some n → n ∈ conn.held := by
  have noCreate : hdr.command ≠ .create := fun cmd => noCloses (.inl cmd)
  obtain ⟨origin, call⟩ := c
  -- calls under a path use no handle
  cases call with
  | «open» | unlink | rename => exact ⟨rfl, nofun⟩
  | close => exact absurd h noCloses
  | read | flush =>
    obtain ⟨target, names⟩ := h
    exact ⟨rfl, fun n uses => Option.some.inj uses ▸ names.mem_held⟩
  | stat =>
    obtain ⟨cmd, -⟩ | ⟨target, names⟩ := h
    · exact absurd cmd noCreate
    · exact ⟨rfl, fun n uses => Option.some.inj uses ▸ names.mem_held⟩
  | listDir =>
    obtain ⟨target, names, -⟩ := h
    exact ⟨rfl, fun n uses => Option.some.inj uses ▸ names.mem_held⟩
  | writeOwned =>
    obtain ⟨req, target, b, -, -, admitted, -, rfl⟩ := h
    obtain ⟨found, -, live⟩ := Write.validate_eq_ok conn hdr req target b admitted
    have names : Names conn hdr target b.serial := ⟨_, b, found, live, rfl⟩
    exact ⟨rfl, fun n uses => Option.some.inj uses ▸ names.mem_held⟩
  | setTimes =>
    obtain ⟨target, b, reaches, -, rfl⟩ := h
    exact ⟨rfl, fun n uses => Option.some.inj uses ▸ (reaches.names b (.inl ⟨_, rfl⟩)).mem_held⟩
  | truncate =>
    obtain ⟨target, b, reaches, -, rfl⟩ := h
    exact ⟨rfl, fun n uses => Option.some.inj uses ▸ (reaches.names b (.inr ⟨_, rfl⟩)).mem_held⟩

theorem accounts_dispatchOne (server : ServerState) (frame : Bytes) (ordinal : UInt32) :
    Action.Moves Accounts (dispatchOne server frame ordinal : Action (World σ η) _) := by
  intro w
  rcases dispatchOne_effect server frame ordinal w with same | ⟨hdr, body, accepted, run⟩
  · exact accounts_of_alike same
  by_cases closes : hdr.command.Closes
  -- CREATE accounts for its own handle, the other three for handles of the tables
  · rcases closes with cmd | cmd | cmd | cmd
    · rcases dispatchOne_create server frame ordinal w hdr body accepted cmd with
        same | ⟨plan, -, outcome⟩
      · exact accounts_of_alike same
      · exact accounts_create outcome
    all_goals
      obtain ⟨w₁, before, after⟩ := dispatchOne_of_accepted server frame ordinal w hdr body accepted
        (by simp [cmd]) (by simp [cmd])
      refine Accounts.trans _ _ _ (accounts_of_alike before)
        (Accounts.trans _ _ _ ?_ (accounts_of_alike after))
      simp only [dispatchCommand, cmd]
    · simp only [Close.handle, Action.bind_apply, getConn_apply]
      cases admitted : Close.validate w₁.conn hdr body with
      | error status => exact Accounts.refl _
      | ok pair =>
        obtain ⟨req, target⟩ := pair
        obtain ⟨-, found⟩ := (Close.validate_eq_ok w₁.conn hdr body req target).mp admitted
        exact accounts_close (Close.perform_outcome server hdr.sessionId req target w₁)
          (findOpen_of_lookupTarget w₁.conn hdr req.fileId target found)
    · rw [Logoff.handle]
      split
      · exact Accounts.refl _
      · exact accounts_closeSession _ w₁
    · rw [TreeDisconnect.handle]
      cases hdr.treeId with
      | none => exact Accounts.refl _
      | some tid =>
      refine (?_ : Action.Moves Accounts _) w₁
      refine Action.Moves.bind Accounts.trans (fun w => Accounts.refl w) fun conn => ?_
      split
      · exact fun w => Accounts.refl w
      refine Action.Moves.bind Accounts.trans (accounts_removeTree _ _) fun removed => ?_
      split <;> exact fun w => Accounts.refl w
  · obtain ⟨new, grown, warranted⟩ := run.calls
    exact accounts_of_uses (Edits.held_le run.conn fun cmd => closes (.inl cmd))
      ⟨new, grown, fun c member => (warranted c member).uses closes⟩ run.handles

end

end SmbServer
