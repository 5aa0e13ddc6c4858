import SmbServer.Effects.Handlers

/-!
# SmbServer.Effects.Dispatch

From the handlers to one dispatched element: which responses are plain, what the router and the
preauth hashing around it do to the world, and what `dispatchOne` does with a frame.
-/

namespace SmbServer

open Lib

variable {σ η : Type} [Host σ η]

/-! ### Responses

Each rule says what a handler can answer with: an error, or the response of its command. A property
of all of these holds of what the handler returns, wherever it starts. -/

section
variable {server : ServerState} {hdr : Smb2Header} {body : Bytes} {P : HandlerResponse → Prop}

theorem Logoff.handle_returns (err : ∀ status, P (.err status)) (ok : P (.ok emptyResponse)) :
    Action.Returns P (Logoff.handle hdr : Action (World σ η) _) := by
  rw [Logoff.handle]
  split
  · exact .pure (err _)
  · exact .bind fun _ => .pure ok

theorem TreeConnect.handle_returns (err : ∀ status, P (.err status))
    (ok : ∀ share granted tid,
      P { HandlerResponse.ok (response share granted) with overrideTreeId := some tid }) :
    Action.Returns P (TreeConnect.handle server hdr body : Action (World σ η) _) := by
  rw [TreeConnect.handle]
  split
  · exact .pure (err _)
  refine .bind fun _ => ?_
  split
  · exact .pure (err _)
  split
  · exact .pure (err _)
  split
  · exact .pure (err _)
  · exact .bind fun _ => .bind fun _ => .pure (ok _ _ _)

theorem TreeDisconnect.handle_returns (err : ∀ status, P (.err status))
    (ok : P (.ok emptyResponse)) :
    Action.Returns P (TreeDisconnect.handle hdr : Action (World σ η) _) := by
  rw [TreeDisconnect.handle]
  split
  · exact .pure (err _)
  refine .bind fun _ => ?_
  split
  · exact .pure (err _)
  refine .bind fun _ => ?_
  split
  · exact .pure (err _)
  · exact .pure ok

theorem Create.handle_returns (err : ∀ status, P (.err status))
    (ok : ∀ (req : CreateRequest) intent info fid,
      P (.ok (response intent info fid (responseContexts req)))) :
    Action.Returns P (Create.handle server hdr body : Action (World σ η) _) := by
  refine .bind fun _ => ?_
  split
  · exact .pure (err _)
  refine .bind fun opened => ?_
  cases opened with
  | error e => exact .bind fun _ => .pure (err _)
  | ok handle =>
    refine .bind fun info => ?_
    cases info with
    | error e => exact .bind fun _ => .bind fun _ => .pure (err _)
    | ok info => exact .bind fun _ => .bind fun _ => .pure (ok _ _ _ _)

theorem Close.handle_returns (err : ∀ status, P (.err status))
    (ok : ∀ req info, P (.ok (response req info))) :
    Action.Returns P (Close.handle server hdr body : Action (World σ η) _) := by
  refine .bind fun _ => ?_
  split
  · exact .pure (err _)
  refine .bind fun _ => .bind fun _ => .bind fun _ => ?_
  dsimp only
  split <;> split <;>
    first
    | exact .bind fun _ => .bind fun _ => .pure (ok _ _)
    | exact .bind fun _ => .pure (ok _ _)
    | exact .pure (ok _ _)

theorem Flush.handle_returns (err : ∀ status, P (.err status)) (ok : P (.ok emptyResponse)) :
    Action.Returns P (Flush.handle hdr body : Action (World σ η) _) := by
  rw [Flush.handle]
  split
  · exact .pure (err _)
  refine .bind fun _ => ?_
  split
  · exact .pure (err _)
  split
  · exact .pure (err _)
  refine .bind fun answer => ?_
  cases answer
  · exact .pure (err _)
  · exact .pure ok

theorem Read.handle_returns (err : ∀ status, P (.err status))
    (ok : ∀ req bytes (h : η) (s : σ), ReadRequest.parse body = some req →
      (Host.read h req.offset req.length s).1 = .ok bytes → P (.ok (response bytes))) :
    Action.Returns P (Read.handle hdr body : Action (World σ η) _) := by
  rw [Read.handle]
  split
  · exact .pure (err _)
  next req parsed =>
  refine .bind fun _ => ?_
  split
  · exact .pure (err _)
  split
  · exact .pure (err _)
  split
  · exact .pure (err _)
  next h _ =>
  refine .seq (issue_returns _ _ _) fun answer => ?_
  -- the bytes are what the backend has answered, in the state that it was asked in
  rintro ⟨s, answered⟩
  cases answer with
  | error e => exact .pure (err _)
  | ok bytes =>
    dsimp only
    split
    · exact .pure (err _)
    · exact .pure (ok req bytes h.inner s parsed answered.symm)

theorem Write.handle_returns (err : ∀ status, P (.err status))
    (ok : ∀ count, P (.ok (WriteResponse.new count).write)) :
    Action.Returns P (Write.handle server hdr body : Action (World σ η) _) := by
  rw [Write.handle]
  split
  · exact .pure (err _)
  refine .bind fun _ => .bind fun _ => ?_
  split
  · exact .pure (err _)
  refine .bind fun answer => ?_
  cases answer
  · exact .pure (err _)
  · exact .pure (ok _)

omit [Host σ η] in
theorem Ioctl.handle_returns (err : ∀ status, P (.err status))
    (ok : ∀ req (conn : Connection η),
      P (.ok (response req (validateNegotiateInfo server conn)))) :
    Action.Returns P (Ioctl.handle server body : Action (World σ η) _) := by
  rw [Ioctl.handle]
  split
  · exact .pure (err _)
  refine .bind fun _ => ?_
  split
  · exact .pure (ok _ _)
  all_goals exact .pure (err _)

theorem QueryInfo.handle_returns (err : ∀ status, P (.err status))
    (ok : ∀ req infoType fid (h : η) (s : σ) caps buf,
      buffer infoType req fid (Host.stat h s).1 caps = .ok buf → P (respond req buf)) :
    Action.Returns P (QueryInfo.handle hdr body : Action (World σ η) _) := by
  refine .bind fun _ => ?_
  split
  · exact .pure (err _)
  next h _ =>
  refine .seq (issue_returns _ _ _) ?_
  rintro _ ⟨s, rfl⟩
  dsimp only
  split
  · exact .pure (err _)
  next encoded => exact .pure (ok _ _ _ h.inner s _ _ encoded)

theorem SetInfo.handle_returns (err : ∀ status, P (.err status)) (ok : P (.ok setInfoResponse)) :
    Action.Returns P (SetInfo.handle server hdr body : Action (World σ η) _) := by
  have responded (result : SmbResult Unit) : P (respond result) := by
    cases result
    · exact err _
    · exact ok
  -- every operation ends in the one answer, or in an error
  have performed (fid : FileId) (target : Target η) (op : SetInfo.Operation η) :
      Action.Returns P
        (SetInfo.perform server hdr.sessionId fid target op : Action (World σ η) _) := by
    cases op with
    | setTimes h times => exact .bind fun _ => .pure (responded _)
    | truncate h len => exact .bind fun _ => .pure (responded _)
    | disposition flag => exact .bind fun _ => .pure (responded _)
    | rename path replace =>
      refine .bind fun _ => .bind fun answer => ?_
      cases answer with
      | error e => exact .pure (err _)
      | ok => exact .bind fun _ => .pure (responded _)
    | allocation => exact .pure (responded _)
  refine .bind fun _ => ?_
  split
  · exact .pure (err _)
  dsimp only
  split
  · refine .bind fun _ => ?_
    split
    · exact .pure (err _)
    · exact performed _ _ _
  · split
    · exact .pure (err _)
    · exact performed _ _ _

theorem QueryDirectory.handle_plain :
    Action.Returns HandlerResponse.Plain
      (QueryDirectory.handle hdr body : Action (World σ η) _) := by
  refine .bind fun _ => ?_
  split
  · exact .pure (HandlerResponse.plain_err _)
  refine .bind fun populated => ?_
  cases populated with
  | error status => exact .pure (HandlerResponse.plain_err _)
  | ok =>
    refine .bind fun _ => ?_
    split
    · exact .bind fun _ => .pure (HandlerResponse.plain_err _)
    · refine .bind fun _ => ?_
      split
      · exact .pure (HandlerResponse.plain_err _)
      · exact .pure (HandlerResponse.plain_ok _)

omit [Host σ η] in
theorem QueryInfo.respond_plain (req : QueryInfoRequest) (buf : Bytes) :
    (respond req buf).Plain := by
  rw [respond]
  split
  · exact HandlerResponse.plain_err _
  · exact HandlerResponse.plain_ok _

end

variable [Crypto]

open HandlerResponse (plain_ok plain_err) in
/-- Only NEGOTIATE and SESSION_SETUP name a session of their own or ask for no signature. -/
theorem dispatchCommand_plain (server : ServerState) (hdr : Smb2Header) (body : Bytes)
    (noNegotiate : hdr.command ≠ .negotiate) (noSetup : hdr.command ≠ .sessionSetup) :
    Action.Returns HandlerResponse.Plain
      (dispatchCommand server hdr body : Action (World σ η) _) := by
  rw [dispatchCommand]
  cases cmd : hdr.command with
  | negotiate => exact absurd cmd noNegotiate
  | sessionSetup => exact absurd cmd noSetup
  | logoff => exact Logoff.handle_returns plain_err (plain_ok _)
  | treeConnect => exact TreeConnect.handle_returns plain_err fun _ _ _ => ⟨rfl, rfl, rfl⟩
  | treeDisconnect => exact TreeDisconnect.handle_returns plain_err (plain_ok _)
  | create => exact Create.handle_returns plain_err fun _ _ _ _ => plain_ok _
  | close => exact Close.handle_returns plain_err fun _ _ => plain_ok _
  | flush => exact Flush.handle_returns plain_err (plain_ok _)
  | read => exact Read.handle_returns plain_err fun _ _ _ _ _ _ => plain_ok _
  | write => exact Write.handle_returns plain_err fun _ => plain_ok _
  | ioctl => exact Ioctl.handle_returns plain_err fun _ _ => plain_ok _
  | queryDirectory => exact QueryDirectory.handle_plain
  | queryInfo =>
    exact QueryInfo.handle_returns plain_err fun _ _ _ _ _ _ _ _ => QueryInfo.respond_plain _ _
  | setInfo => exact SetInfo.handle_returns plain_err (plain_ok _)
  | lock | echo | oplockBreak => exact .pure (plain_ok _)
  | changeNotify | cancel => exact .pure (plain_err _)

/-! ### The router -/

theorem dispatchCommand_effect (server : ServerState) (hdr : Smb2Header) (body : Bytes)
    (w : World σ η) :
    Effect (Edit σ server hdr) (Warrant w.conn w.env.nextHandle hdr body) w
      (dispatchCommand server hdr body w).2 := by
  -- these requests close handles under no particular name
  have closes (allowed : hdr.command.Closes) (origin : Origin) (serial : Nat) :
      Warrant w.conn w.env.nextHandle hdr body ⟨origin, .close serial⟩ := allowed
  rw [dispatchCommand]
  cases cmd : hdr.command with
  | negotiate => exact Negotiate.handle_effect cmd w
  | sessionSetup => exact SessionSetup.handle_effect cmd w
  | logoff => exact Logoff.handle_effect cmd (closes (.inr (.inr (.inl cmd)))) w
  | treeConnect => exact TreeConnect.handle_effect cmd w
  | treeDisconnect => exact TreeDisconnect.handle_effect cmd (closes (.inr (.inr (.inr cmd)))) w
  | create => exact Create.handle_effect w cmd
  | close => exact Close.handle_effect w cmd
  | flush => exact Flush.handle_effect w
  | read => exact Read.handle_effect w
  | write => exact Write.handle_effect w cmd
  | ioctl =>
    simp only [Ioctl.handle]
    cases IoctlRequest.parse body with
    | none => exact Effect.refl w
    | some req =>
      refine (Effect.bind Effect.getConn fun _ => ?_) w
      split <;> exact Effect.pure _
  | queryDirectory => exact QueryDirectory.handle_effect w cmd
  | queryInfo => exact QueryInfo.handle_effect w
  | setInfo => exact SetInfo.handle_effect w cmd
  | lock | echo | oplockBreak | changeNotify | cancel => exact Effect.refl w

/-- NEGOTIATE and SESSION_SETUP make no call at all. -/
theorem dispatchCommand_effect_silent (server : ServerState) (hdr : Smb2Header) (body : Bytes)
    (cmd : hdr.command = .negotiate ∨ hdr.command = .sessionSetup) :
    Action.Moves (Effect (Edit σ server hdr) fun _ => False)
      (dispatchCommand server hdr body : Action (World σ η) _) := by
  rcases cmd with cmd | cmd
  · simp only [dispatchCommand, cmd]
    exact Negotiate.handle_effect cmd
  · simp only [dispatchCommand, cmd]
    exact SessionSetup.handle_effect cmd

/-! ### The preauth hashing around a handler -/

section
variable {server : ServerState} {hdr : Smb2Header} {Q : Issued → Prop}

theorem preauthBefore_effect (frame : Bytes) :
    Action.Moves (Effect (Edit σ server hdr) Q)
      (preauthBefore hdr frame : Action (World σ η) _) := by
  refine Effect.bind Effect.getConn fun conn => ?_
  split
  next cmd =>
    exact Effect.bind (Effect.modifyConn fun conn => .preauth conn _ cmd) fun _ => Effect.pure _
  split
  next setup =>
    refine Effect.bind (fun w => ?_) fun _ => Effect.pure _
    rw [takeSessionPreauth]
    split
    · exact ⟨.single (.exchange w.conn _ setup.1), ⟨[], by simp⟩, Nat.le_refl _⟩
    · exact Effect.refl w
  next => exact Effect.pure _

omit [Host σ η] in
/-- For every other command nothing is hashed. -/
theorem preauthBefore_of_ne (frame : Bytes) (noNegotiate : hdr.command ≠ .negotiate)
    (noSetup : hdr.command ≠ .sessionSetup) (w : World σ η) :
    preauthBefore hdr frame w = (none, w) := by
  simp only [preauthBefore, Action.bind_apply, getConn_apply, noNegotiate, noSetup, false_and,
    if_false, Action.pure_apply]

theorem takeSnapshot_effect (cmd : hdr.command = .sessionSetup) (resp : HandlerResponse)
    (sessionPreauth : Option PreauthIntegrity) :
    Action.Moves (Effect (Edit σ server hdr) Q)
      (takeSnapshot resp sessionPreauth : Action (World σ η) _) := by
  rw [takeSnapshot]
  split
  · exact Effect.pure _
  split
  · exact Effect.panicAt _
  · exact Effect.modifyConn fun conn => .snapshot conn _ _ cmd

omit [Host σ η] in
theorem takeSnapshot_of_none (resp : HandlerResponse)
    (none : resp.takePreauthSnapshotForSession = none)
    (sessionPreauth : Option PreauthIntegrity) (w : World σ η) :
    takeSnapshot resp sessionPreauth w = ((), w) := by
  simp only [takeSnapshot, none, Action.pure_apply]

theorem preauthAfter_effect (dialect : Option Dialect) (sessionPreauth : Option PreauthIntegrity)
    (bytes : Bytes) :
    Action.Moves (Effect (Edit σ server hdr) Q)
      (preauthAfter hdr dialect sessionPreauth bytes : Action (World σ η) _) := by
  unfold preauthAfter
  split
  next cmd => exact Effect.modifyConn fun conn => .preauth conn _ cmd
  split
  next setup =>
    split
    · split
      · exact Effect.pure _
      · exact Effect.modifyConn fun conn => .exchange conn _ setup.1
    · exact Effect.modifyConn fun conn => .exchange conn _ setup.1
  next => exact Effect.pure _

omit [Host σ η] in
/-- The hashing behind a response leaves the sessions and the algorithm alone. -/
theorem preauthAfter_frame (dialect : Option Dialect) (sessionPreauth : Option PreauthIntegrity)
    (bytes : Bytes) (w : World σ η) :
    (preauthAfter hdr dialect sessionPreauth bytes w).2.conn.sessions = w.conn.sessions ∧
      (preauthAfter hdr dialect sessionPreauth bytes w).2.conn.signingAlgo =
        w.conn.signingAlgo := by
  unfold preauthAfter
  split
  · exact ⟨rfl, rfl⟩
  split
  · split
    · cases sessionPreauth <;> exact ⟨rfl, rfl⟩
    · exact ⟨rfl, rfl⟩
  · exact ⟨rfl, rfl⟩

omit [Host σ η] in
theorem preauthAfter_of_ne (dialect : Option Dialect) (sessionPreauth : Option PreauthIntegrity)
    (bytes : Bytes) (noNegotiate : hdr.command ≠ .negotiate)
    (noSetup : hdr.command ≠ .sessionSetup) (w : World σ η) :
    preauthAfter hdr dialect sessionPreauth bytes w = ((), w) := by
  simp only [preauthAfter, noNegotiate, noSetup, false_and, if_false, Action.pure_apply]

end

omit [Crypto] in
/-- NEGOTIATE asks for no snapshot. -/
theorem Negotiate.handle_noSnapshot (server : ServerState) (body : Bytes) :
    Action.Returns (fun r => r.takePreauthSnapshotForSession = none)
      (Negotiate.handle server body : Action (World σ η) _) := by
  rw [Negotiate.handle]
  split
  · exact .pure rfl
  split
  · exact .pure rfl
  split
  · exact .pure rfl
  refine .bind fun _ => ?_
  split
  · exact .bind fun _ => .bind fun _ => .bind fun _ => .bind fun _ => .pure rfl
  · exact .bind fun _ => .bind fun _ => .bind fun _ => .pure rfl

/-! ### One handler with its hashing -/

omit [Host σ η] [Crypto] in
theorem alike_bindTraceKey (server : ServerState) (hdr : Smb2Header) (ordinal : UInt32)
    (w : World σ η) : Alike w (bindTraceKey server hdr ordinal w).2 :=
  ⟨rfl, rfl, rfl, rfl⟩

/-- Without preauth hashing the response is built from what the handler returned and left. -/
theorem runHandler_of_ne (server : ServerState) (hdr : Smb2Header) (frame body : Bytes)
    (noNegotiate : hdr.command ≠ .negotiate) (noSetup : hdr.command ≠ .sessionSetup)
    (w : World σ η) :
    (runHandler server hdr frame body w).1 =
        buildResponseBytes (dispatchCommand server hdr body w).2.conn hdr
          (dispatchCommand server hdr body w).1 ∧
      Alike (dispatchCommand server hdr body w).2 (runHandler server hdr frame body w).2 := by
  have plain := dispatchCommand_plain server hdr body noNegotiate noSetup w
  simp only [runHandler, Action.bind_apply, getConn_apply,
    preauthBefore_of_ne frame noNegotiate noSetup, takeSnapshot_of_none _ plain.2.2,
    preauthAfter_of_ne _ _ _ noNegotiate noSetup, Action.pure_apply]
  exact ⟨trivial, alike_record _ _ _⟩

/-- NEGOTIATE and SESSION_SETUP make no call, nor does the hashing around them. -/
theorem runHandler_effect_silent (server : ServerState) (hdr : Smb2Header) (frame body : Bytes)
    (hashed : hdr.command = .negotiate ∨ hdr.command = .sessionSetup) :
    Action.Moves (Effect (Edit σ server hdr) fun _ => False)
      (runHandler server hdr frame body : Action (World σ η) _) := by
  refine Effect.bind Effect.getConn fun conn => ?_
  refine Effect.bind (preauthBefore_effect frame) fun sessionPreauth => ?_
  intro w
  have first := dispatchCommand_effect_silent server hdr body hashed w
  rw [Action.bind_apply]
  refine Effect.trans _ _ _ first ?_
  -- NEGOTIATE takes no snapshot; a logon's edits the new session alone
  have snapshot : Effect (Edit σ server hdr) (fun _ => False) (dispatchCommand server hdr body w).2
      (takeSnapshot (dispatchCommand server hdr body w).1 sessionPreauth
        (dispatchCommand server hdr body w).2).2 := by
    rcases hashed with cmd | cmd
    · have none : (dispatchCommand server hdr body w).1.takePreauthSnapshotForSession = none := by
        simp only [dispatchCommand, cmd]
        exact Negotiate.handle_noSnapshot server body w
      rw [takeSnapshot_of_none _ none]
      exact Effect.refl _
    · exact takeSnapshot_effect cmd _ _ _
  rw [Action.bind_apply]
  refine Effect.trans _ _ _ snapshot ?_
  refine (Effect.bind Effect.getConn fun conn => ?_) _
  exact Effect.bind (Effect.record _ _) fun _ =>
    Effect.bind (preauthAfter_effect _ _ _) fun _ => Effect.pure _

theorem runHandler_effect (server : ServerState) (hdr : Smb2Header) (frame body : Bytes)
    (w : World σ η) :
    Effect (Edit σ server hdr) (Warrant w.conn w.env.nextHandle hdr body) w
      (runHandler server hdr frame body w).2 := by
  by_cases hashed : hdr.command = .negotiate ∨ hdr.command = .sessionSetup
  · exact (runHandler_effect_silent server hdr frame body hashed w).mono fun _ absurd => absurd.elim
  · obtain ⟨noNegotiate, noSetup⟩ := not_or.mp hashed
    exact Effect.trans _ _ _ (dispatchCommand_effect server hdr body w)
      (runHandler_of_ne server hdr frame body noNegotiate noSetup w).2.effect

/-! ### One element -/

/-- How the dispatch of one element ends. -/
inductive Dispatched (server : ServerState) (frame : Bytes) (w : World σ η) :
    Option Bytes → World σ η → Prop where
  | malformed (w' : World σ η) (parsed : Smb2Header.parse frame = none) (same : Alike w w') :
      Dispatched server frame w none w'
  | rejected (hdr : Smb2Header) (body : Bytes) (status : NtStatus) (w' : World σ η)
      (parsed : Smb2Header.parse frame = some (hdr, body))
      (verified : verifyRequestSignature w.conn hdr frame = .error status) (same : Alike w w') :
      Dispatched server frame w (some (buildResponseBytes w.conn hdr (.err status))) w'
  | cancelled (hdr : Smb2Header) (body : Bytes) (w' : World σ η)
      (parsed : Smb2Header.parse frame = some (hdr, body))
      (verified : verifyRequestSignature w.conn hdr frame = .ok ())
      (cmd : hdr.command = .cancel) (same : Alike w w') :
      Dispatched server frame w none w'
  | handled (hdr : Smb2Header) (body : Bytes) (w' : World σ η)
      (parsed : Smb2Header.parse frame = some (hdr, body))
      (verified : verifyRequestSignature w.conn hdr frame = .ok ())
      (cmd : hdr.command ≠ .cancel) (same : Alike w w') :
      Dispatched server frame w (some (runHandler server hdr frame body w').1)
        (runHandler server hdr frame body w').2

theorem dispatchOne_cases (server : ServerState) (frame : Bytes) (ordinal : UInt32)
    (w : World σ η) :
    Dispatched server frame w (dispatchOne server frame ordinal w).1
      (dispatchOne server frame ordinal w).2 := by
  rw [dispatchOne]
  cases parsed : Smb2Header.parse frame with
  | none => exact .malformed w parsed (.refl w)
  | some parts =>
    obtain ⟨hdr, body⟩ := parts
    simp only [Action.bind_apply, getConn_apply]
    generalize bound : (bindTraceKey server hdr ordinal w).2 = w₁
    generalize recorded : (record server.traceSink
      (.request hdr.command hdr.sessionId (hdr.treeId.getD 0)) w₁).2 = w₂
    -- the trace is no part of the connection or of what the host is asked
    have same : Alike w w₂ :=
      (bound ▸ alike_bindTraceKey server hdr ordinal w).trans (recorded ▸ alike_record _ _ w₁)
    rw [same.conn]
    cases verified : verifyRequestSignature w.conn hdr frame with
    | error status =>
      exact .rejected hdr body status _ parsed verified (same.trans (alike_record _ _ w₂))
    | ok =>
      by_cases cmd : hdr.command = .cancel
      · simp only [cmd, if_true]
        exact .cancelled hdr body _ parsed verified cmd same
      · simp only [cmd, if_false]
        exact .handled hdr body w₂ parsed verified cmd same

/-- The request a frame is executed as: it parses and its signature is accepted. -/
def Accepted (conn : Connection η) (frame : Bytes) (hdr : Smb2Header) (body : Bytes) : Prop :=
  Smb2Header.parse frame = some (hdr, body) ∧
    verifyRequestSignature conn hdr frame = .ok () ∧ hdr.command ≠ .cancel

/-- Either the element does nothing, or its request is accepted and executed. -/
theorem dispatchOne_effect (server : ServerState) (frame : Bytes) (ordinal : UInt32)
    (w : World σ η) :
    Alike w (dispatchOne server frame ordinal w).2 ∨
      ∃ hdr body, Accepted w.conn frame hdr body ∧
        Effect (Edit σ server hdr) (Warrant w.conn w.env.nextHandle hdr body) w
          (dispatchOne server frame ordinal w).2 := by
  have outcome := dispatchOne_cases server frame ordinal w
  revert outcome
  generalize (dispatchOne server frame ordinal w).1 = answer
  generalize (dispatchOne server frame ordinal w).2 = w'
  intro outcome
  cases outcome with
  | malformed _ _ same => exact .inl same
  | rejected _ _ _ _ _ _ same => exact .inl same
  | cancelled _ _ _ _ _ _ same => exact .inl same
  | handled hdr body w₁ parsed verified cmd same =>
    have run := runHandler_effect server hdr frame body w₁
    rw [same.conn, same.handles] at run
    exact .inr ⟨hdr, body, ⟨parsed, verified, cmd⟩, Effect.trans _ _ _ same.effect run⟩

/-- An accepted request is handled. -/
theorem dispatchOne_handled (server : ServerState) (frame : Bytes) (ordinal : UInt32)
    (w : World σ η) (hdr : Smb2Header) (body : Bytes) (accepted : Accepted w.conn frame hdr body) :
    ∃ w₁, Alike w w₁ ∧
      (dispatchOne server frame ordinal w).1 = some (runHandler server hdr frame body w₁).1 ∧
      (dispatchOne server frame ordinal w).2 = (runHandler server hdr frame body w₁).2 := by
  obtain ⟨parsed, verified, noCancel⟩ := accepted
  have outcome := dispatchOne_cases server frame ordinal w
  revert outcome
  generalize (dispatchOne server frame ordinal w).1 = answer
  generalize (dispatchOne server frame ordinal w).2 = w'
  intro outcome
  -- acceptance excludes the other three ways
  cases outcome with
  | malformed _ none => rw [parsed] at none; cases none
  | rejected hdr' body' status _ again error =>
    obtain ⟨rfl, rfl⟩ := Prod.mk.inj (Option.some.inj (parsed.symm.trans again))
    rw [verified] at error
    cases error
  | cancelled hdr' body' _ again _ cmd =>
    obtain ⟨rfl, rfl⟩ := Prod.mk.inj (Option.some.inj (parsed.symm.trans again))
    exact absurd cmd noCancel
  | handled hdr' body' w₁ again _ _ same =>
    obtain ⟨rfl, rfl⟩ := Prod.mk.inj (Option.some.inj (parsed.symm.trans again))
    exact ⟨w₁, same, rfl, rfl⟩

/-- An accepted request that is not hashed is answered with what its handler returns; nothing else
changes the world. -/
theorem dispatchOne_answer (server : ServerState) (frame : Bytes) (ordinal : UInt32)
    (w : World σ η) (hdr : Smb2Header) (body : Bytes) (accepted : Accepted w.conn frame hdr body)
    (noNegotiate : hdr.command ≠ .negotiate) (noSetup : hdr.command ≠ .sessionSetup) :
    ∃ w₁, Alike w w₁ ∧
      (dispatchOne server frame ordinal w).1 = some (buildResponseBytes
        (dispatchCommand server hdr body w₁).2.conn hdr (dispatchCommand server hdr body w₁).1) ∧
      Alike (dispatchCommand server hdr body w₁).2 (dispatchOne server frame ordinal w).2 := by
  obtain ⟨w₁, same, answer, after⟩ := dispatchOne_handled server frame ordinal w hdr body accepted
  have run := runHandler_of_ne server hdr frame body noNegotiate noSetup w₁
  refine ⟨w₁, same, ?_, ?_⟩
  · rw [answer, run.1]
  · rw [after]
    exact run.2

/-- An accepted request that is not hashed runs its handler; nothing else changes the world. -/
theorem dispatchOne_of_accepted (server : ServerState) (frame : Bytes) (ordinal : UInt32)
    (w : World σ η) (hdr : Smb2Header) (body : Bytes) (accepted : Accepted w.conn frame hdr body)
    (noNegotiate : hdr.command ≠ .negotiate) (noSetup : hdr.command ≠ .sessionSetup) :
    ∃ w₁, Alike w w₁ ∧ Alike (dispatchCommand server hdr body w₁).2
      (dispatchOne server frame ordinal w).2 := by
  obtain ⟨w₁, before, -, after⟩ := dispatchOne_answer server frame ordinal w hdr body accepted
    noNegotiate noSetup
  exact ⟨w₁, before, after⟩

end SmbServer
