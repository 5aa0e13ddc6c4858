import SmbServer.Client
import SmbServer.Effects.Answer

/-!
# SmbServer.Properties.LiveContext

Which requests succeed without a live context: the session, tree and open that they name.

Main result: over every run, the requests of a step succeed within a live context only, if and only
if the step executes no LOGOFF of an unknown session, no LOCK or OPLOCK_BREAK outside an open, and
no VALIDATE_NEGOTIATE_INFO outside a tree.

Proof strategy: a check never stops a request with STATUS_SUCCESS (`NeverSuccess`), so a handler
that starts with a lookup succeeds only when the lookup does. The four handlers without a lookup
are evaluated.
-/

namespace SmbServer

open Lib

/-! ### Live contexts -/

namespace Connection

variable {η : Type}

/-- The header names a live session. -/
def LiveSession (conn : Connection η) (hdr : Smb2Header) : Prop :=
  (conn.sessions.lookup hdr.sessionId).isSome

/-- The header names a live tree, of a session that is live for it to be found. -/
def LiveTree (conn : Connection η) (hdr : Smb2Header) : Prop :=
  ∃ tid, hdr.treeId = some tid ∧ (conn.findTree hdr.sessionId tid).isSome

/-- The FileId at an offset of the body names an open of the tree that the header names. -/
def LiveOpen (conn : Connection η) (hdr : Smb2Header) (body : Bytes) (offset : Nat) : Prop :=
  ∃ tid, hdr.treeId = some tid ∧ (conn.findOpen hdr.sessionId tid
    ⟨readU64 body offset, readU64 body (offset + 8)⟩).isSome

/-- What has to be live for a request. -/
def LiveContext (conn : Connection η) (hdr : Smb2Header) (body : Bytes) : Prop :=
  match hdr.command with
  | .negotiate | .sessionSetup | .echo | .cancel => True
  | .logoff | .treeConnect => conn.LiveSession hdr
  | .lock | .oplockBreak => conn.LiveOpen hdr body 8
  | _ => conn.LiveTree hdr

end Connection

/-- A request that its handler answers with success although its context is not live. -/
inductive SkipsContext {η : Type} (conn : Connection η) (hdr : Smb2Header) (body : Bytes) :
    Prop where
  | logoff (cmd : hdr.command = .logoff) (nonzero : hdr.sessionId ≠ 0)
      (dead : ¬conn.LiveSession hdr)
  | lock (cmd : hdr.command = .lock) (dead : ¬conn.LiveOpen hdr body 8)
  | oplockBreak (cmd : hdr.command = .oplockBreak) (dead : ¬conn.LiveOpen hdr body 8)
  | ioctl (req : IoctlRequest) (cmd : hdr.command = .ioctl)
      (parsed : IoctlRequest.parse body = some req)
      (validates : Fsctl.fromU32 req.ctlCode = .validateNegotiateInfo)
      (dead : ¬conn.LiveTree hdr)

section
variable {η : Type} {conn : Connection η} {hdr : Smb2Header} {body : Bytes}

theorem SkipsContext.dead (skips : SkipsContext conn hdr body) : ¬conn.LiveContext hdr body := by
  rw [Connection.LiveContext]
  cases skips with
  | logoff cmd _ dead => rwa [cmd]
  | lock cmd dead => rwa [cmd]
  | oplockBreak cmd dead => rwa [cmd]
  | ioctl _ cmd _ _ dead => rwa [cmd]

theorem SkipsContext.command (skips : SkipsContext conn hdr body) :
    hdr.command ≠ .negotiate ∧ hdr.command ≠ .sessionSetup := by
  cases skips <;> simp [*]

end

/-! ### Checks -/

/-- A check stops a request with a failure, if it does. -/
def NeverSuccess {α : Type} (check : Except NtStatus α) : Prop := check ≠ .error statusSuccess

section
variable {α β : Type} {η : Type}

theorem NeverSuccess.ok (a : α) : NeverSuccess (.ok a) := by
  intro success
  cases success

theorem NeverSuccess.error {status : NtStatus} (failure : status ≠ statusSuccess) :
    NeverSuccess (.error status : Except NtStatus α) := by
  intro success
  exact failure (Except.error.inj success)

theorem NeverSuccess.bind {check : Except NtStatus α} {f : α → Except NtStatus β}
    (first : NeverSuccess check) (rest : ∀ a, NeverSuccess (f a)) : NeverSuccess (check >>= f) := by
  cases check with
  | error status =>
    intro success
    exact first (congrArg Except.error (Except.error.inj success))
  | ok a => exact rest a

/-- A request that a check stops is not answered with success. -/
theorem NeverSuccess.status {check : Except NtStatus α} {status : NtStatus}
    (h : NeverSuccess check) (stopped : check = .error status) : status ≠ statusSuccess := by
  rintro rfl
  exact h stopped

theorem lookupSession_fails (conn : Connection η) (sid : UInt64) :
    NeverSuccess (lookupSession conn sid) := by
  rw [lookupSession]
  split
  · exact .error (by decide)
  split
  · exact .ok _
  · exact .error (by decide)

theorem lookupSessionTree_fails (conn : Connection η) (hdr : Smb2Header) :
    NeverSuccess (lookupSessionTree conn hdr) := by
  rw [lookupSessionTree]
  split
  · exact .error (by decide)
  refine .bind (lookupSession_fails conn hdr.sessionId) fun sess => ?_
  split
  · exact .ok _
  · exact .error (by decide)

theorem lookupTarget_fails (conn : Connection η) (hdr : Smb2Header) (fid : FileId) :
    NeverSuccess (lookupTarget conn hdr fid) := by
  refine .bind (lookupSessionTree_fails conn hdr) fun (tid, tree) => ?_
  dsimp only
  split
  · exact .ok _
  · exact .error (by decide)

theorem TreeConnect.validate_fails (body : Bytes) : NeverSuccess (TreeConnect.validate body) := by
  rw [TreeConnect.validate]
  split
  · exact .error (by decide)
  split
  · exact .error (by decide)
  · exact .ok _

theorem Create.decodePath_fails (name : Bytes) : NeverSuccess (Create.decodePath name) := by
  rw [Create.decodePath]
  split
  · exact .error (by decide)
  split
  · exact .ok _
  · exact .error (by decide)

theorem Create.openOptions_fails (granted : Access) (path : SmbPath) (req : CreateRequest) :
    NeverSuccess (Create.openOptions granted path req) := by
  rw [Create.openOptions]
  split
  · exact .error (by decide)
  dsimp only
  repeat' split
  all_goals first
    | exact .error (by decide)
    | exact .ok _

theorem Create.validate_fails (conn : Connection η) (hdr : Smb2Header) (body : Bytes) :
    NeverSuccess (Create.validate conn hdr body) := by
  rw [Create.validate]
  split
  · exact .error (by decide)
  next req _ =>
  refine .bind (lookupSessionTree_fails conn hdr) fun pair => ?_
  refine .bind (Create.decodePath_fails req.name) fun path => ?_
  exact .bind (Create.openOptions_fails _ path req) fun opts => .ok _

theorem Close.validate_fails (conn : Connection η) (hdr : Smb2Header) (body : Bytes) :
    NeverSuccess (Close.validate conn hdr body) := by
  rw [Close.validate]
  split
  · exact .error (by decide)
  next req _ => exact .bind (lookupTarget_fails conn hdr req.fileId) fun target => .ok _

theorem Write.validate_fails (conn : Connection η) (hdr : Smb2Header) (req : WriteRequest) :
    NeverSuccess (Write.validate conn hdr req) := by
  rw [Write.validate]
  split
  · exact .error (by decide)
  refine .bind (lookupSessionTree_fails conn hdr) fun pair => ?_
  dsimp only
  repeat' split
  all_goals first
    | exact .error (by decide)
    | exact .ok _

theorem QueryInfo.validate_fails (conn : Connection η) (hdr : Smb2Header) (body : Bytes) :
    NeverSuccess (QueryInfo.validate conn hdr body) := by
  rw [QueryInfo.validate]
  split
  · exact .error (by decide)
  next req _ =>
  split
  · exact .error (by decide)
  refine .bind (lookupTarget_fails conn hdr req.fileId) fun target => ?_
  split
  · exact .ok _
  · exact .error (by decide)

theorem QueryDirectory.validate_fails (conn : Connection η) (hdr : Smb2Header) (body : Bytes) :
    NeverSuccess (QueryDirectory.validate conn hdr body) := by
  rw [QueryDirectory.validate]
  split
  · exact .error (by decide)
  next req _ =>
  split
  · exact .error (by decide)
  refine .bind (lookupTarget_fails conn hdr req.fileId) fun target => ?_
  split
  · exact .error (by decide)
  · exact .ok _

theorem SetInfo.validate_fails (conn : Connection η) (hdr : Smb2Header) (body : Bytes) :
    NeverSuccess (SetInfo.validate conn hdr body) := by
  rw [SetInfo.validate]
  split
  · exact .error (by decide)
  next req _ =>
  split
  · exact .error (by decide)
  split
  · exact .error (by decide)
  exact .bind (lookupTarget_fails conn hdr req.fileId) fun target => .ok _

/-! ### Lookups that succeed -/

theorem Connection.LiveTree.of_lookup {conn : Connection η} {hdr : Smb2Header} {tid : UInt32}
    {tree : TreeConnect η} (found : lookupSessionTree conn hdr = .ok (tid, tree)) :
    conn.LiveTree hdr := by
  obtain ⟨named, -, here⟩ := (lookupSessionTree_eq_ok conn hdr tid tree).mp found
  exact ⟨tid, named, by rw [here]; rfl⟩

theorem Connection.LiveTree.of_target {conn : Connection η} {hdr : Smb2Header} {fid : FileId}
    {target : Target η} (found : lookupTarget conn hdr fid = .ok target) : conn.LiveTree hdr :=
  .of_lookup ((lookupTarget_eq_ok conn hdr fid target).mp found).1

theorem Connection.LiveSession.of_lookup {conn : Connection η} {hdr : Smb2Header}
    {sess : Session η} (found : lookupSession conn hdr.sessionId = .ok sess) :
    conn.LiveSession hdr := by
  rw [Connection.LiveSession, ((lookupSession_eq_ok conn hdr.sessionId sess).mp found).2]
  rfl

end

/-! ### Handlers -/

section
variable {σ η : Type} [Host σ η] {server : ServerState} {hdr : Smb2Header} {body : Bytes}
  {w : World σ η}

theorem TreeConnect.handle_live
    (success : (TreeConnect.handle server hdr body w).1.status = statusSuccess) :
    w.conn.LiveSession hdr := by
  cases named : TreeConnect.validate body with
  | error status =>
    simp only [TreeConnect.handle, named] at success
    exact absurd success ((TreeConnect.validate_fails _).status named)
  | ok shareName =>
    simp only [TreeConnect.handle, named, Action.bind_apply, getConn_apply] at success
    cases found : lookupSession w.conn hdr.sessionId with
    | error status =>
      simp only [found] at success
      exact absurd success ((lookupSession_fails _ _).status found)
    | ok sess => exact .of_lookup found

theorem TreeDisconnect.handle_live
    (success : (TreeDisconnect.handle hdr w).1.status = statusSuccess) :
    w.conn.LiveTree hdr := by
  cases named : hdr.treeId with
  | none =>
    simp only [TreeDisconnect.handle, named] at success
    cases success
  | some tid =>
    simp only [TreeDisconnect.handle, named, Action.bind_apply, getConn_apply] at success
    cases found : lookupSession w.conn hdr.sessionId with
    | error status =>
      simp only [found] at success
      cases success
    | ok sess =>
      cases here : w.conn.findTree hdr.sessionId tid with
      | none =>
        have closed : Connection.closeTree hdr.sessionId tid w = (false, w) := by
          simp only [Connection.closeTree, removeTreeFromSession, Action.bind_apply,
            getConn_apply, here, Action.pure_apply]
        simp only [found, Action.bind_apply, closed] at success
        cases success
      | some tree => exact ⟨tid, named, by rw [here]; rfl⟩

theorem Create.handle_live
    (success : (Create.handle server hdr body w).1.status = statusSuccess) :
    w.conn.LiveTree hdr := by
  simp only [Create.handle, Action.bind_apply, getConn_apply] at success
  cases admitted : Create.validate w.conn hdr body with
  | error status =>
    simp only [admitted] at success
    exact absurd success ((Create.validate_fails _ _ _).status admitted)
  | ok plan => exact .of_lookup (Create.validate_eq_ok _ _ _ _ admitted).1

theorem Close.handle_live
    (success : (Close.handle server hdr body w).1.status = statusSuccess) :
    w.conn.LiveTree hdr := by
  simp only [Close.handle, Action.bind_apply, getConn_apply] at success
  cases admitted : Close.validate w.conn hdr body with
  | error status =>
    simp only [admitted] at success
    exact absurd success ((Close.validate_fails _ _ _).status admitted)
  | ok pair =>
    obtain ⟨req, target⟩ := pair
    exact .of_target ((Close.validate_eq_ok _ _ _ _ _).mp admitted).2

theorem Flush.handle_live
    (success : (Flush.handle hdr body w).1.status = statusSuccess) : w.conn.LiveTree hdr := by
  cases parsed : FlushRequest.parse body with
  | none =>
    simp only [Flush.handle, parsed] at success
    cases success
  | some req =>
    simp only [Flush.handle, parsed, Action.bind_apply, getConn_apply] at success
    cases found : lookupTarget w.conn hdr ⟨req.fileIdPersistent, req.fileIdVolatile⟩ with
    | error status =>
      simp only [found] at success
      exact absurd success ((lookupTarget_fails _ _ _).status found)
    | ok target => exact .of_target found

theorem Read.handle_live
    (success : (Read.handle hdr body w).1.status = statusSuccess) : w.conn.LiveTree hdr := by
  cases parsed : ReadRequest.parse body with
  | none =>
    simp only [Read.handle, parsed] at success
    cases success
  | some req =>
    cases found : lookupTarget w.conn hdr req.fileId with
    | error status =>
      revert success
      simp only [Read.handle, parsed]
      refine returns_withConn
        (P := fun r : HandlerResponse => r.status = statusSuccess → w.conn.LiveTree hdr) w ?_
      rw [found]
      split
      · exact .pure fun success => by cases success
      · exact .pure fun success => absurd success ((lookupTarget_fails _ _ _).status found)
    | ok target => exact .of_target found

theorem Write.handle_live
    (success : (Write.handle server hdr body w).1.status = statusSuccess) :
    w.conn.LiveTree hdr := by
  cases parsed : WriteRequest.parse body with
  | none =>
    simp only [Write.handle, parsed] at success
    cases success
  | some req =>
    simp only [Write.handle, parsed, Action.bind_apply, getConn_apply,
      (alike_record _ _ w).conn] at success
    cases admitted : Write.validate w.conn hdr req with
    | error status =>
      simp only [admitted] at success
      exact absurd success ((Write.validate_fails _ _ _).status admitted)
    | ok pair =>
      obtain ⟨target, h⟩ := pair
      exact .of_target (Write.validate_eq_ok _ _ _ _ _ admitted).1

theorem QueryInfo.handle_live
    (success : (QueryInfo.handle hdr body w).1.status = statusSuccess) :
    w.conn.LiveTree hdr := by
  simp only [QueryInfo.handle, Action.bind_apply, getConn_apply] at success
  cases admitted : QueryInfo.validate w.conn hdr body with
  | error status =>
    simp only [admitted] at success
    exact absurd success ((QueryInfo.validate_fails _ _ _).status admitted)
  | ok parts =>
    obtain ⟨req, infoType, target, h⟩ := parts
    exact .of_target (QueryInfo.validate_eq_ok _ _ _ _ _ _ _ admitted).1

theorem QueryDirectory.handle_live
    (success : (QueryDirectory.handle hdr body w).1.status = statusSuccess) :
    w.conn.LiveTree hdr := by
  simp only [QueryDirectory.handle, Action.bind_apply, getConn_apply] at success
  cases admitted : QueryDirectory.validate w.conn hdr body with
  | error status =>
    simp only [admitted] at success
    exact absurd success ((QueryDirectory.validate_fails _ _ _).status admitted)
  | ok pair =>
    obtain ⟨req, target⟩ := pair
    exact .of_target (QueryDirectory.validate_eq_ok _ _ _ admitted).2.1

theorem SetInfo.handle_live
    (success : (SetInfo.handle server hdr body w).1.status = statusSuccess) :
    w.conn.LiveTree hdr := by
  simp only [SetInfo.handle, Action.bind_apply, getConn_apply] at success
  cases admitted : SetInfo.validate w.conn hdr body with
  | error status =>
    simp only [admitted] at success
    exact absurd success ((SetInfo.validate_fails _ _ _).status admitted)
  | ok pair =>
    obtain ⟨req, target⟩ := pair
    exact .of_target ((SetInfo.validate_eq_ok _ _ _ _ _).mp admitted).2.2

/-! ### The router -/

variable [Crypto]

/-- A request that succeeds has a live context or skips the check. -/
theorem dispatchCommand_live (noNegotiate : hdr.command ≠ .negotiate)
    (noSetup : hdr.command ≠ .sessionSetup)
    (success : (dispatchCommand server hdr body w).1.status = statusSuccess) :
    w.conn.LiveContext hdr body ∨ SkipsContext w.conn hdr body := by
  rw [Connection.LiveContext]
  rw [dispatchCommand] at success
  cases cmd : hdr.command with
  | negotiate => exact absurd cmd noNegotiate
  | sessionSetup => exact absurd cmd noSetup
  | echo => exact .inl trivial
  | cancel => exact .inl trivial
  -- LOGOFF, LOCK, OPLOCK_BREAK and one IOCTL do not look their context up
  | logoff =>
    simp only [cmd, Logoff.handle] at success
    by_cases zero : hdr.sessionId = 0
    · simp only [zero, if_true] at success
      cases success
    · by_cases live : w.conn.LiveSession hdr
      · exact .inl live
      · exact .inr (.logoff cmd zero live)
  | lock =>
    by_cases live : w.conn.LiveOpen hdr body 8
    · exact .inl live
    · exact .inr (.lock cmd live)
  | oplockBreak =>
    by_cases live : w.conn.LiveOpen hdr body 8
    · exact .inl live
    · exact .inr (.oplockBreak cmd live)
  | ioctl =>
    by_cases live : w.conn.LiveTree hdr
    · exact .inl live
    simp only [cmd] at success
    cases parsed : IoctlRequest.parse body with
    | none =>
      simp only [Ioctl.handle, parsed] at success
      cases success
    | some req =>
      cases code : Fsctl.fromU32 req.ctlCode with
      | validateNegotiateInfo => exact .inr (.ioctl req cmd parsed code live)
      | _ =>
        simp only [Ioctl.handle, parsed, Action.bind_apply, getConn_apply, code] at success
        cases success
  | changeNotify =>
    simp only [cmd] at success
    cases success
  -- every other handler looks it up first
  | treeConnect =>
    simp only [cmd] at success
    exact .inl (TreeConnect.handle_live success)
  | treeDisconnect =>
    simp only [cmd] at success
    exact .inl (TreeDisconnect.handle_live success)
  | create =>
    simp only [cmd] at success
    exact .inl (Create.handle_live success)
  | close =>
    simp only [cmd] at success
    exact .inl (Close.handle_live success)
  | flush =>
    simp only [cmd] at success
    exact .inl (Flush.handle_live success)
  | read =>
    simp only [cmd] at success
    exact .inl (Read.handle_live success)
  | write =>
    simp only [cmd] at success
    exact .inl (Write.handle_live success)
  | queryDirectory =>
    simp only [cmd] at success
    exact .inl (QueryDirectory.handle_live success)
  | queryInfo =>
    simp only [cmd] at success
    exact .inl (QueryInfo.handle_live success)
  | setInfo =>
    simp only [cmd] at success
    exact .inl (SetInfo.handle_live success)

/-- A request that skips the check is answered with success. -/
theorem SkipsContext.succeeds (skips : SkipsContext w.conn hdr body) :
    (dispatchCommand server hdr body w).1.status = statusSuccess := by
  cases skips with
  | logoff cmd nonzero =>
    simp only [dispatchCommand, cmd, Logoff.handle, nonzero, if_false, Action.bind_apply,
      Action.pure_apply]
    rfl
  | lock cmd =>
    simp only [dispatchCommand, cmd]
    rfl
  | oplockBreak cmd =>
    simp only [dispatchCommand, cmd]
    rfl
  | ioctl req cmd parsed validates =>
    simp only [dispatchCommand, cmd, Ioctl.handle, parsed, Action.bind_apply, getConn_apply,
      validates, Action.pure_apply]
    rfl

omit [Host σ η] in
theorem verifyRequestSignature_fails (conn : Connection η) (hdr : Smb2Header) (frame : Bytes) :
    NeverSuccess (verifyRequestSignature conn hdr frame) := by
  unfold verifyRequestSignature
  dsimp only
  repeat' split
  all_goals first
    | exact .error (by decide)
    | exact .ok _

/-! ### A step -/

/-- The step is a request on the connection, answered with STATUS_SUCCESS. -/
def System.Succeeds (s : System σ η) (step : Step) (conn : Connection η) (hdr : Smb2Header)
    (body : Bytes) : Prop :=
  ∃ cid e bytes, step = .element cid e ∧ s.conns.lookup cid = some conn ∧
    Smb2Header.parse e.bytes = some (hdr, body) ∧
    (dispatchOne s.server e.bytes e.ordinal ⟨conn, s.env⟩).1 = some bytes ∧
    readU32 bytes 0x08 = statusSuccess

/-- Only an accepted request succeeds. -/
theorem accepted_of_success {server : ServerState} {frame : Bytes} {ordinal : UInt32}
    {w : World σ η} {hdr : Smb2Header} {body bytes : Bytes}
    (parsed : Smb2Header.parse frame = some (hdr, body))
    (answer : (dispatchOne server frame ordinal w).1 = some bytes)
    (success : readU32 bytes 0x08 = statusSuccess) : Accepted w.conn frame hdr body := by
  refine ⟨parsed, ?_⟩
  have outcome := dispatchOne_cases server frame ordinal w
  rw [answer] at outcome
  generalize sent : some bytes = reply at outcome
  generalize (dispatchOne server frame ordinal w).2 = w' at outcome
  cases outcome with
  | malformed => cases sent
  | cancelled => cases sent
  | rejected hdr' body' status w' again rejected =>
    obtain rfl := Option.some.inj sent
    rw [readU32_status_buildResponseBytes] at success
    exact absurd success ((verifyRequestSignature_fails _ _ _).status rejected)
  | handled hdr' body' w₁ again verified cmd =>
    obtain ⟨rfl, rfl⟩ := Prod.mk.inj (Option.some.inj (parsed.symm.trans again))
    exact ⟨verified, cmd⟩

theorem System.Succeeds.executes {s : System σ η} {step : Step} {conn : Connection η}
    {hdr : Smb2Header} {body : Bytes} (h : s.Succeeds step conn hdr body) :
    s.Executes step conn hdr body := by
  obtain ⟨cid, e, bytes, rfl, live, parsed, answer, success⟩ := h
  exact ⟨cid, e, rfl, live, accepted_of_success parsed answer success⟩

/-- An accepted request that is not hashed succeeds when its handler does. -/
theorem System.Executes.succeeds_iff {s : System σ η} {step : Step} {conn : Connection η}
    {hdr : Smb2Header} {body : Bytes} (h : s.Executes step conn hdr body)
    (noNegotiate : hdr.command ≠ .negotiate) (noSetup : hdr.command ≠ .sessionSetup) :
    ∃ w₁ : World σ η, w₁.conn = conn ∧ (s.Succeeds step conn hdr body ↔
      (dispatchCommand s.server hdr body w₁).1.status = statusSuccess) := by
  obtain ⟨cid, e, rfl, live, accepted⟩ := h
  obtain ⟨w₁, before, answer, -⟩ := dispatchOne_answer s.server e.bytes e.ordinal ⟨conn, s.env⟩
    hdr body accepted noNegotiate noSetup
  refine ⟨w₁, before.conn, ?_⟩
  rw [← readU32_status_buildResponseBytes]
  constructor
  · rintro ⟨cid', e', bytes, same, _, _, sent, success⟩
    cases same
    rwa [← Option.some.inj (sent.symm.trans answer)]
  · intro success
    exact ⟨cid, e, _, rfl, live, accepted.1, answer, success⟩

/-- Over every run, the requests of a step succeed within a live context only, exactly when the
step executes no request that skips the check. -/
theorem liveContext_iff (server : ServerState) (host : σ) (events : List Event) :
    System.Throughout server host events fun (s : System σ η) step =>
      (∀ conn hdr body, s.Succeeds step conn hdr body → conn.LiveContext hdr body) ↔
        ∀ conn hdr body, s.Executes step conn hdr body → ¬SkipsContext conn hdr body := by
  refine System.Throughout.of_invariant (fun _ => True) server host events trivial
    (fun _ _ inv => inv) ?_
  intro s step _
  constructor
  -- a request that skips the check succeeds all the same
  · intro live conn hdr body executes skips
    obtain ⟨noNegotiate, noSetup⟩ := skips.command
    obtain ⟨w₁, rfl, succeeds⟩ := executes.succeeds_iff noNegotiate noSetup
    exact skips.dead (live _ hdr body (succeeds.mpr skips.succeeds))
  · intro checked conn hdr body success
    have executes := success.executes
    by_cases hashed : hdr.command = .negotiate ∨ hdr.command = .sessionSetup
    · -- the two commands that need no context
      rw [Connection.LiveContext]
      rcases hashed with cmd | cmd
      · rw [cmd]
        trivial
      · rw [cmd]
        trivial
    · obtain ⟨noNegotiate, noSetup⟩ := not_or.mp hashed
      obtain ⟨w₁, rfl, succeeds⟩ := executes.succeeds_iff noNegotiate noSetup
      have answered := dispatchCommand_live noNegotiate noSetup (succeeds.mp success)
      exact answered.resolve_right (checked _ hdr body executes)

end

/-! ### A LOCK without a session -/

open scoped Sample

/-- A LOCK from a client that has not even negotiated. -/
def Sample.strayLock : Bytes := Client.plain .lock 0 0 []

theorem lock_without_session :
    ¬∀ events : List Event, System.Throughout Sample.server () events
      fun (s : System Unit Unit) step => ∀ conn hdr body,
        s.Succeeds step conn hdr body → conn.LiveContext hdr body := by
  intro all
  let s : System Unit Unit := (System.start Sample.server ()).run [.accept]
  have reached : (s.conns.lookup 1).any (fun conn =>
      (Smb2Header.parse (Element.single Sample.strayLock).bytes).any fun found =>
        ((dispatchOne s.server (Element.single Sample.strayLock).bytes 0 ⟨conn, s.env⟩).1.any
          fun bytes => readU32 bytes 0x08 == statusSuccess) &&
        found.1.command == .lock && (conn.sessions.lookup found.1.sessionId).isNone) = true := by
    decide +kernel
  simp only [Option.any_eq_true, Bool.and_eq_true, beq_iff_eq, Option.isNone_iff_eq_none,
    Prod.exists] at reached
  obtain ⟨conn, live, hdr, body, parsed, ⟨⟨bytes, answer, success⟩, lock⟩, gone⟩ := reached
  have last := (all ([.accept] ++ [.frame 1 Sample.strayLock])).last (by decide +kernel)
    (by decide +kernel)
  have context := last conn hdr body ⟨1, _, bytes, rfl, live, parsed, answer, success⟩
  rw [Connection.LiveContext, lock] at context
  obtain ⟨tid, -, found⟩ := context
  rw [Connection.findOpen, Connection.findTree, gone] at found
  cases found

end SmbServer
