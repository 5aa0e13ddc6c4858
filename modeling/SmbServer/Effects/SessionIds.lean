import SmbServer.Effects.System

/-!
# SmbServer.Effects.SessionIds

What one request does to the session ids of its connection: a SESSION_SETUP opens an exchange under
a fresh id or takes the acceptor of one, LOGOFF gives an id up, and every other command leaves the
acceptors and the allocator alone.
-/

namespace SmbServer

open Lib

variable {σ η : Type}

/-! ### Rounds -/

/-- The round that a SESSION_SETUP gets to. -/
inductive SetupRound where
  | opens
  | authenticates (sid : UInt64) (acceptor : NtlmServer) (token : SessionSetup.Token)

/-- A first round allocates an id; a later one authenticates when an acceptor waits for it. -/
def Connection.setupRound (conn : Connection η) (sid : UInt64) (body : Bytes) :
    Option SetupRound :=
  match SessionSetup.validate body with
  | .error _ => none
  | .ok token =>
    if token.isFirstRound then some .opens
    else if sid = 0 then none
    else (conn.pendingAuths.lookup sid).map fun pending => .authenticates sid pending.1 token

/-- The sessions, the acceptors and the allocator are the same. -/
structure SameIds (conn conn' : Connection η) : Prop where
  sessions : conn'.sessions = conn.sessions
  pendingAuths : conn'.pendingAuths = conn.pendingAuths
  nextSessionId : conn'.nextSessionId = conn.nextSessionId

theorem SameIds.refl (conn : Connection η) : SameIds conn conn := ⟨rfl, rfl, rfl⟩

theorem SameIds.of_eq {conn conn' : Connection η} (same : conn' = conn) : SameIds conn conn' :=
  same ▸ .refl conn

theorem SameIds.trans {a b c : Connection η} (first : SameIds a b) (second : SameIds b c) :
    SameIds a c :=
  ⟨second.sessions.trans first.sessions, second.pendingAuths.trans first.pendingAuths,
    second.nextSessionId.trans first.nextSessionId⟩

/-- The round depends on the acceptors only. -/
theorem SameIds.setupRound {conn conn' : Connection η} (same : SameIds conn conn') (sid : UInt64)
    (body : Bytes) : conn'.setupRound sid body = conn.setupRound sid body := by
  rw [Connection.setupRound, Connection.setupRound, same.pendingAuths]

variable [Host σ η] [Crypto]

/-- What a SESSION_SETUP does to the ids of its connection. -/
inductive SetupTurn (server : ServerState) (sid : UInt64) (body : Bytes)
    (conn conn' : Connection η) : Prop where
  -- no round: the ids are untouched
  | idle (round : conn.setupRound sid body = none) (same : SameIds conn conn')
  | opened (round : conn.setupRound sid body = some .opens)
      (sessions : conn'.sessions = conn.sessions)
      (pendingAuths : conn'.pendingAuths = conn.pendingAuths ∨
        ∃ acceptor, conn'.pendingAuths = conn.pendingAuths.insert conn.nextSessionId acceptor)
      (nextSessionId : conn'.nextSessionId = conn.nextSessionId + 1)
  | refused (acceptor : NtlmServer) (token : SessionSetup.Token)
      (round : conn.setupRound sid body = some (.authenticates sid acceptor token))
      (sessions : conn'.sessions = conn.sessions)
      (pendingAuths : conn'.pendingAuths = conn.pendingAuths.erase sid)
      (nextSessionId : conn'.nextSessionId = conn.nextSessionId)
  -- the one round that adds a session, under the id that the header names
  | completed (acceptor : NtlmServer) (token : SessionSetup.Token) (outcome : AuthOutcome)
      (sess : Session η)
      (round : conn.setupRound sid body = some (.authenticates sid acceptor token))
      (authenticated : acceptor.authenticate token.innerToken server.users.lookup = some outcome)
      (fresh : sess.identity = outcome.identity ∧ sess.trees = Table.empty)
      (sessions : ∀ sid', conn'.sessions.lookup sid' =
        if sid' = sid then some sess else conn.sessions.lookup sid')
      (pendingAuths : conn'.pendingAuths = conn.pendingAuths.erase sid)
      (nextSessionId : conn'.nextSessionId = conn.nextSessionId)

section
variable {server : ServerState} {sid : UInt64} {body : Bytes}

omit [Host σ η] in
/-- The hashing in front of a handler leaves the ids alone. -/
theorem SetupTurn.after {conn₀ conn conn' : Connection η} (same : SameIds conn₀ conn)
    (h : SetupTurn server sid body conn conn') : SetupTurn server sid body conn₀ conn' := by
  have rounds := same.setupRound sid body
  -- each case speaks of the tables and the counter, which are the same
  cases h with
  | idle round both =>
    exact .idle (rounds.symm.trans round) (same.trans both)
  | opened round sessions pending next =>
    refine .opened (rounds.symm.trans round) (sessions.trans same.sessions) ?_ ?_
    · rwa [same.pendingAuths, same.nextSessionId] at pending
    · rwa [same.nextSessionId] at next
  | refused acceptor token round sessions pending next =>
    refine .refused acceptor token (rounds.symm.trans round) (sessions.trans same.sessions) ?_ ?_
    · rwa [same.pendingAuths] at pending
    · rwa [same.nextSessionId] at next
  | completed acceptor token outcome sess round authenticated fresh sessions pending next =>
    refine .completed acceptor token outcome sess (rounds.symm.trans round) authenticated fresh
      ?_ ?_ ?_
    · rwa [same.sessions] at sessions
    · rwa [same.pendingAuths] at pending
    · rwa [same.nextSessionId] at next

omit [Host σ η] in
/-- Nor does the hashing behind it. -/
theorem SetupTurn.before {conn conn' conn₁ : Connection η} (h : SetupTurn server sid body conn conn')
    (same : SameIds conn' conn₁) : SetupTurn server sid body conn conn₁ := by
  cases h with
  | idle round both =>
    exact .idle round (both.trans same)
  | opened round sessions pending next =>
    refine .opened round (same.sessions.trans sessions) ?_ (same.nextSessionId.trans next)
    rwa [same.pendingAuths]
  | refused acceptor token round sessions pending next =>
    exact .refused acceptor token round (same.sessions.trans sessions)
      (same.pendingAuths.trans pending) (same.nextSessionId.trans next)
  | completed acceptor token outcome sess round authenticated fresh sessions pending next =>
    refine .completed acceptor token outcome sess round authenticated fresh ?_
      (same.pendingAuths.trans pending) (same.nextSessionId.trans next)
    rwa [same.sessions]

/-! ### The two rounds, with the snapshot of the session -/

omit [Host σ η] [Crypto] in
/-- The round of a body that decodes. -/
theorem setupRound_of_valid (conn : Connection η) {token : SessionSetup.Token}
    (valid : SessionSetup.validate body = .ok token) :
    conn.setupRound sid body =
      if token.isFirstRound then some .opens
      else if sid = 0 then none
      else (conn.pendingAuths.lookup sid).map fun pending =>
        .authenticates sid pending.1 token := by
  simp only [Connection.setupRound, valid]

omit [Host σ η] in
/-- The snapshot changes what is in a session, not which sessions there are. -/
theorem takeSnapshot_logon (resp : HandlerResponse) (p : Option PreauthIntegrity) (w : World σ η)
    (named : ∀ sid', resp.takePreauthSnapshotForSession = some sid' → sid' = sid)
    (sess : Session η) (live : w.conn.sessions.lookup sid = some sess) :
    ∃ sess', sess'.identity = sess.identity ∧ sess'.trees = sess.trees ∧
      (takeSnapshot resp p w).2.conn.pendingAuths = w.conn.pendingAuths ∧
      (takeSnapshot resp p w).2.conn.nextSessionId = w.conn.nextSessionId ∧
      ∀ sid', (takeSnapshot resp p w).2.conn.sessions.lookup sid' =
        if sid' = sid then some sess' else w.conn.sessions.lookup sid' := by
  -- without a snapshot every session is the one it was
  have unchanged (sid' : UInt64) : w.conn.sessions.lookup sid' =
      if sid' = sid then some sess else w.conn.sessions.lookup sid' := by
    split
    next same => rw [same, live]
    next => rfl
  rw [takeSnapshot]
  cases asked : resp.takePreauthSnapshotForSession with
  | none => exact ⟨sess, rfl, rfl, rfl, rfl, unchanged⟩
  | some sid' =>
    obtain rfl := named sid' asked
    cases p with
    | none => exact ⟨sess, rfl, rfl, rfl, rfl, unchanged⟩
    | some snap =>
      refine ⟨stashSnapshot snap w.conn sess, stashSnapshot_identity _ _ _, stashSnapshot_trees _ _ _,
        rfl, rfl, fun sid => ?_⟩
      · simp only [modifyConn_apply, World.setConn_conn, Connection.lookup_modifySession]
        split
        next same => rw [same, live, Option.map_some]
        next => rfl

omit [Host σ η] in
/-- A logon authenticates. -/
theorem SessionSetup.authenticate_of_logon {users : Table Text UserCreds} {allowed : Bool}
    {acceptor : NtlmServer} {inner : Bytes} {outcome : AuthOutcome}
    (granted : SessionSetup.logon users allowed acceptor inner = some outcome) :
    acceptor.authenticate inner users.lookup = some outcome := by
  rw [SessionSetup.logon] at granted
  cases authenticated : acceptor.authenticate inner users.lookup with
  | none =>
    rw [authenticated] at granted
    cases granted
  | some found =>
    rw [authenticated] at granted
    dsimp only at granted
    split at granted
    · cases granted
    · exact granted

theorem SessionSetup.firstRound_turn (token : SessionSetup.Token)
    (valid : SessionSetup.validate body = .ok token) (first : token.isFirstRound = true)
    (w : World σ η) (p : Option PreauthIntegrity) :
    SetupTurn server sid body w.conn
      (takeSnapshot (SessionSetup.firstRound server token w).1 p
        (SessionSetup.firstRound server token w).2).2.conn := by
  have round : w.conn.setupRound sid body = some .opens := by
    rw [setupRound_of_valid w.conn valid, if_pos first]
  simp only [firstRound, Action.bind_apply, allocSessionId]
  generalize challenged : SmbServer.fillRandom 8 (w.setConn
    { w.conn with nextSessionId := w.conn.nextSessionId + 1 }) = drawn
  obtain ⟨challenge, w₁⟩ := drawn
  generalize timed : SmbServer.nowFiletime w₁ = clock
  obtain ⟨now, w₂⟩ := clock
  -- only the counter has moved when the acceptor is asked
  have same : w₂.conn = { w.conn with nextSessionId := w.conn.nextSessionId + 1 } := by
    have first := congrArg (fun r => r.2.conn) challenged
    have second := congrArg (fun r => r.2.conn) timed
    exact second.symm.trans first.symm
  dsimp only
  cases NtlmServer.step1Negotiate _ token.innerToken with
  | none =>
    rw [takeSnapshot_of_none _ rfl]
    simp only [Action.pure_apply, same]
    exact .opened round rfl (.inl rfl) rfl
  | some acceptor =>
    rw [takeSnapshot_of_none _ rfl]
    simp only [Action.bind_apply, modifyConn_apply, Action.pure_apply, World.setConn_conn, same]
    exact .opened round rfl (.inr ⟨_, rfl⟩) rfl

omit [Host σ η] in
theorem SessionSetup.finalRound_turn (token : SessionSetup.Token)
    (valid : SessionSetup.validate body = .ok token) (later : token.isFirstRound = false)
    (w : World σ η) (p : Option PreauthIntegrity) :
    SetupTurn server sid body w.conn
      (takeSnapshot (SessionSetup.finalRound server sid token w).1 p
        (SessionSetup.finalRound server sid token w).2).2.conn := by
  have rounds : w.conn.setupRound sid body = _ := setupRound_of_valid w.conn valid
  rw [later, if_neg (by decide)] at rounds
  rw [finalRound]
  by_cases zero : sid = 0
  · rw [if_pos zero] at rounds ⊢
    exact .idle rounds (.refl _)
  rw [if_neg zero] at rounds ⊢
  rw [Action.bind_apply, takeAcceptor]
  cases found : w.conn.pendingAuths.lookup sid with
  | none =>
    rw [found] at rounds
    exact .idle rounds (.refl _)
  | some pair =>
    obtain ⟨acceptor, rawForm⟩ := pair
    rw [found] at rounds
    generalize taken : w.setConn
      { w.conn with pendingAuths := w.conn.pendingAuths.erase sid } = w₁
    have same : w₁.conn = { w.conn with pendingAuths := w.conn.pendingAuths.erase sid } := by
      rw [← taken, World.setConn_conn]
    -- Whatever comes of it, the acceptor is gone.
    have refused : SetupTurn server sid body w.conn w₁.conn := by
      rw [same]
      exact .refused acceptor token rounds rfl rfl rfl
    dsimp only
    cases granted : logon server.users server.anonymousAllowed acceptor token.innerToken with
    | none => exact refused
    | some outcome =>
      simp only [Action.bind_apply, getConn_apply]
      cases dialect : w₁.conn.dialect with
      | none => exact refused
      | some d =>
        simp only [Action.bind_apply, modifyConn_apply, Action.pure_apply]
        have named : ∀ sid', (success sid outcome rawForm d).takePreauthSnapshotForSession =
            some sid' → sid' = sid := by
          intro sid' asked
          simp only [success] at asked
          split at asked
          · exact (Option.some.inj asked).symm
          · cases asked
        obtain ⟨sess, identity, trees, pending, next, sessions⟩ :=
          takeSnapshot_logon (success sid outcome rawForm d) p
            (w₁.setConn (insertSession sid (newSession sid outcome d) w₁.conn)) named _
            (Table.lookup_insert_self _ _ _)
        rw [World.setConn_conn] at pending next sessions
        refine .completed acceptor token outcome sess rounds (authenticate_of_logon granted)
          ⟨identity, trees⟩ ?_ ?_ ?_
        · intro sid'
          rw [sessions, insertSession, same]
          simp only [Table.lookup_insert]
          split <;> rfl
        · rw [pending, insertSession, same]
        · rw [next, insertSession, same]

theorem SessionSetup.handle_turn (hdr : Smb2Header) (w : World σ η)
    (p : Option PreauthIntegrity) :
    SetupTurn server hdr.sessionId body w.conn
      (takeSnapshot (SessionSetup.handle server hdr body w).1 p
        (SessionSetup.handle server hdr body w).2).2.conn := by
  rw [handle]
  cases valid : validate body with
  | error status =>
    rw [takeSnapshot_of_none _ rfl]
    exact .idle (by simp only [Connection.setupRound, valid]) (.refl _)
  | ok token =>
    dsimp only
    cases first : token.isFirstRound with
    | true => exact firstRound_turn token valid first w p
    | false => exact finalRound_turn token valid first w p

/-! ### One element -/

omit [Host σ η] in
theorem preauthBefore_ids (hdr : Smb2Header) (frame : Bytes) (w : World σ η) :
    SameIds w.conn (preauthBefore hdr frame w).2.conn := by
  simp only [preauthBefore, Action.bind_apply, getConn_apply]
  by_cases negotiate : hdr.command = .negotiate
  · simp only [negotiate, if_true]
    exact ⟨rfl, rfl, rfl⟩
  by_cases latest : hdr.command = .sessionSetup ∧ w.conn.dialect = some .smb311
  · simp only [latest, reduceCtorEq, if_false, and_self, if_true, Action.bind_apply,
      Action.pure_apply, takeSessionPreauth]
    split <;> exact ⟨rfl, rfl, rfl⟩
  · simp only [negotiate, latest, if_false]
    exact .refl _

omit [Host σ η] in
theorem preauthAfter_ids (hdr : Smb2Header) (dialect : Option Dialect)
    (p : Option PreauthIntegrity) (bytes : Bytes) (w : World σ η) :
    SameIds w.conn (preauthAfter hdr dialect p bytes w).2.conn := by
  unfold preauthAfter
  split
  · exact ⟨rfl, rfl, rfl⟩
  split
  · split
    · cases p <;> exact ⟨rfl, rfl, rfl⟩
    · exact ⟨rfl, rfl, rfl⟩
  · exact .refl _

theorem runHandler_turn (hdr : Smb2Header) (frame : Bytes) (w : World σ η)
    (cmd : hdr.command = .sessionSetup) :
    SetupTurn server hdr.sessionId body w.conn (runHandler server hdr frame body w).2.conn := by
  have handler (w : World σ η) :
      dispatchCommand server hdr body w = SessionSetup.handle server hdr body w := by
    simp only [dispatchCommand, cmd]
  have before := preauthBefore_ids hdr frame w
  simp only [runHandler, Action.bind_apply, getConn_apply, Action.pure_apply, handler]
  generalize preauthBefore hdr frame w = prepared at *
  obtain ⟨p, w₁⟩ := prepared
  have turn : SetupTurn server hdr.sessionId body w₁.conn _ :=
    SessionSetup.handle_turn hdr w₁ p
  generalize takeSnapshot (SessionSetup.handle server hdr body w₁).1 p
    (SessionSetup.handle server hdr body w₁).2 = stashed at turn ⊢
  refine (turn.after before).before (.trans ?_ (preauthAfter_ids _ _ _ _ _))
  exact .of_eq (alike_record _ _ _).conn

end

/-- Sessions go away, and nothing else happens to the ids. -/
structure FewerSessions (conn conn' : Connection η) : Prop where
  views : ∀ sid v, conn'.sessionView sid = some v → conn.sessionView sid = some v
  pendingAuths : conn'.pendingAuths = conn.pendingAuths
  nextSessionId : conn'.nextSessionId = conn.nextSessionId

section
omit [Host σ η] [Crypto]

theorem FewerSessions.refl (conn : Connection η) : FewerSessions conn conn :=
  ⟨fun _ _ seen => seen, rfl, rfl⟩

theorem FewerSessions.trans {a b c : Connection η} (first : FewerSessions a b)
    (second : FewerSessions b c) : FewerSessions a c :=
  ⟨fun sid v seen => first.views sid v (second.views sid v seen),
    second.pendingAuths.trans first.pendingAuths,
    second.nextSessionId.trans first.nextSessionId⟩

theorem Removal.fewerSessions {conn conn' : Connection η} (r : Removal conn conn') :
    FewerSessions conn conn' := by
  refine ⟨fun sid v seen => r.sessionView sid v seen, ?_, ?_⟩
  · cases r <;> rfl
  · cases r <;> rfl

end

theorem Edits.fewerSessions {server : ServerState} {hdr : Smb2Header} {conn conn' : Connection η}
    (run : Edits σ server hdr conn conn') (noSetup : hdr.command ≠ .sessionSetup) :
    FewerSessions conn conn' := by
  refine ⟨fun sid v seen => run.sessionView_before noSetup sid v seen, ?_, ?_⟩
  · induction run with
    | refl => rfl
    | tail _ last ih =>
      refine Eq.trans ?_ ih
      cases last with
      | acceptors _ cmd => exact absurd cmd noSetup
      | _ => rfl
  · induction run with
    | refl => rfl
    | tail _ last ih =>
      refine Eq.trans ?_ ih
      cases last with
      | sessionId cmd => exact absurd cmd noSetup
      | _ => rfl

/-- The SESSION_SETUP round that a frame gets to, and the id it names. -/
def Connection.roundOf (conn : Connection η) (frame : Bytes) : Option SetupRound :=
  match Smb2Header.parse frame with
  | none => none
  | some (hdr, body) =>
    match verifyRequestSignature conn hdr frame with
    | .error _ => none
    | .ok () => if hdr.command = .sessionSetup then conn.setupRound hdr.sessionId body else none

/-- What an accepted SESSION_SETUP does to the ids of its connection. -/
theorem dispatchOne_turn (server : ServerState) (frame : Bytes) (ordinal : UInt32) (w : World σ η)
    (hdr : Smb2Header) (body : Bytes) (accepted : Accepted w.conn frame hdr body)
    (cmd : hdr.command = .sessionSetup) :
    SetupTurn server hdr.sessionId body w.conn (dispatchOne server frame ordinal w).2.conn := by
  obtain ⟨w₁, same, -, after⟩ := dispatchOne_handled server frame ordinal w hdr body accepted
  rw [after, ← same.conn]
  exact runHandler_turn hdr frame w₁ cmd

/-- What one element does to the ids of its connection. -/
theorem dispatchOne_ids (server : ServerState) (frame : Bytes) (ordinal : UInt32) (w : World σ η) :
    (w.conn.roundOf frame = none ∧
        FewerSessions w.conn (dispatchOne server frame ordinal w).2.conn) ∨
      ∃ hdr body, Accepted w.conn frame hdr body ∧ hdr.command = .sessionSetup ∧
        w.conn.roundOf frame = w.conn.setupRound hdr.sessionId body ∧
        SetupTurn server hdr.sessionId body w.conn
          (dispatchOne server frame ordinal w).2.conn := by
  have outcome := dispatchOne_cases server frame ordinal w
  revert outcome
  generalize (dispatchOne server frame ordinal w).1 = answer
  generalize (dispatchOne server frame ordinal w).2 = w'
  intro outcome
  -- a frame that is not handled is no round
  cases outcome with
  | malformed _ parsed same =>
    exact .inl ⟨by simp only [Connection.roundOf, parsed], same.conn ▸ .refl _⟩
  | rejected hdr body status _ parsed verified same =>
    exact .inl ⟨by simp only [Connection.roundOf, parsed, verified], same.conn ▸ .refl _⟩
  | cancelled hdr body _ parsed verified cmd same =>
    refine .inl ⟨?_, same.conn ▸ .refl _⟩
    simp only [Connection.roundOf, parsed, verified, cmd, reduceCtorEq, if_false]
  | handled hdr body w₁ parsed verified cmd same =>
    by_cases setup : hdr.command = .sessionSetup
    · refine .inr ⟨hdr, body, ⟨parsed, verified, cmd⟩, setup, ?_, ?_⟩
      · simp only [Connection.roundOf, parsed, verified, setup, if_true]
      · rw [← same.conn]
        exact runHandler_turn hdr frame w₁ setup
    · refine .inl ⟨?_, ?_⟩
      · simp only [Connection.roundOf, parsed, verified, setup, if_false]
      · rw [← same.conn]
        exact Edits.fewerSessions (runHandler_effect server hdr frame body w₁).conn setup

end SmbServer
