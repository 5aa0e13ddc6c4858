import SmbServer.Client

/-!
# SmbServer.Properties.SigningKey

The signing key a session is established with.

Main result:

  Over every run, a user session is established with the key of its dialect if and only if the
  dialect is 3.0, 3.0.2 or 3.1.1, or deriving the 3.0 key gives the session key back.

Proof strategy: a session comes into being in the last round of a SESSION_SETUP only, with the 3.0
key for every dialect but 3.1.1, where the dispatcher replaces a zero key by the one derived from
the preauth snapshot. No other command touches what a session keeps.
-/

namespace SmbServer

open Lib

section

variable [Crypto]

/-- The signing key that a dialect asks for; the wildcard of an SMB1 reply asks for none. -/
def Dialect.KeyOf (dialect : Dialect) (v : SessionView) : Prop :=
  match dialect with
  | .smb2Wildcard => True
  | .smb202 => v.signingKey = v.sessionBaseKey
  | .smb210 => v.signingKey = v.sessionBaseKey
  | .smb300 => v.signingKey = signingKey30 v.sessionBaseKey
  | .smb302 => v.signingKey = signingKey30 v.sessionBaseKey
  | .smb311 => ∃ snap, v.preauthSnapshot = some snap ∧
      v.signingKey = signingKey311 v.sessionBaseKey snap

/-- The signing key that a session is given. -/
def Dialect.Given (dialect : Dialect) (v : SessionView) : Prop :=
  match dialect with
  | .smb311 => ∃ snap, v.preauthSnapshot = some snap ∧
      v.signingKey = signingKey311 v.sessionBaseKey snap
  | _ => v.signingKey = signingKey30 v.sessionBaseKey

/-- When the key that is given is the one that the dialect asks for. -/
theorem Dialect.keyOf_iff (dialect : Dialect) (v : SessionView) (given : dialect.Given v) :
    dialect.KeyOf v ↔ (dialect ≠ .smb202 ∧ dialect ≠ .smb210) ∨
      signingKey30 v.sessionBaseKey = v.sessionBaseKey := by
  cases dialect with
  | smb202 | smb210 =>
    have same : v.signingKey = signingKey30 v.sessionBaseKey := given
    simp [KeyOf, same]
  | smb300 | smb302 | smb311 => exact ⟨fun _ => .inl (by simp), fun _ => given⟩
  | smb2Wildcard => exact ⟨fun _ => .inl (by simp), fun _ => trivial⟩

end

section

variable {σ η : Type} [Host σ η] [Crypto]

/-! ### The handler -/

/-- What a SESSION_SETUP does to the sessions: nothing, or a logon. -/
inductive SessionSetup.Outcome (conn : Connection η) (resp : HandlerResponse)
    (conn' : Connection η) : Prop where
  | unchanged (snapshot : resp.takePreauthSnapshotForSession = none)
      (sessions : conn'.sessions = conn.sessions)
  | logon (sid : UInt64) (outcome : AuthOutcome) (dialect : Dialect)
      (before : conn.dialect = some dialect) (after : conn'.dialect = some dialect)
      (snapshot : resp.takePreauthSnapshotForSession =
        if dialect = .smb311 then some sid else none)
      (sessions : conn'.sessions =
        conn.sessions.insert sid (SessionSetup.newSession sid outcome dialect))

omit [Host σ η] [Crypto] in
private theorem takeAcceptor_frame (sid : UInt64) (w : World σ η) :
    (SessionSetup.takeAcceptor sid w).2.conn.sessions = w.conn.sessions ∧
      (SessionSetup.takeAcceptor sid w).2.conn.dialect = w.conn.dialect := by
  rw [SessionSetup.takeAcceptor]
  split <;> exact ⟨rfl, rfl⟩

theorem SessionSetup.firstRound_outcome (server : ServerState) (token : SessionSetup.Token)
    (w : World σ η) :
    SessionSetup.Outcome w.conn (SessionSetup.firstRound server token w).1
      (SessionSetup.firstRound server token w).2.conn := by
  simp only [SessionSetup.firstRound, Action.bind_apply, SessionSetup.allocSessionId]
  generalize challenged : SmbServer.fillRandom 8 (w.setConn
    { w.conn with nextSessionId := w.conn.nextSessionId + 1 }) = drawn
  obtain ⟨challenge, w₁⟩ := drawn
  generalize timed : SmbServer.nowFiletime w₁ = clock
  obtain ⟨now, w₂⟩ := clock
  have same : w₂.conn.sessions = w.conn.sessions := by
    have first := congrArg (fun r => r.2.conn.sessions) challenged
    have second := congrArg (fun r => r.2.conn.sessions) timed
    exact second.symm.trans first.symm
  dsimp only
  cases NtlmServer.step1Negotiate _ token.innerToken with
  | none => exact .unchanged rfl same
  | some acceptor => exact .unchanged rfl same

omit [Host σ η] in
theorem SessionSetup.finalRound_outcome (server : ServerState) (sid : UInt64)
    (token : SessionSetup.Token) (w : World σ η) :
    SessionSetup.Outcome w.conn (SessionSetup.finalRound server sid token w).1
      (SessionSetup.finalRound server sid token w).2.conn := by
  rw [SessionSetup.finalRound]
  split
  · exact .unchanged rfl rfl
  have frame := takeAcceptor_frame sid w
  rw [Action.bind_apply]
  generalize SessionSetup.takeAcceptor sid w = taken at frame
  obtain ⟨pending, w₁⟩ := taken
  obtain ⟨sessions, dialect⟩ := frame
  -- every way out but a logon leaves the sessions as they are
  cases pending with
  | none => exact .unchanged rfl sessions
  | some pair =>
    obtain ⟨acceptor, rawForm⟩ := pair
    dsimp only
    cases SessionSetup.logon server.users server.anonymousAllowed acceptor token.innerToken with
    | none => exact .unchanged rfl sessions
    | some outcome =>
      simp only [Action.bind_apply, getConn_apply]
      cases found : w₁.conn.dialect with
      | none => exact .unchanged rfl sessions
      | some d =>
        exact .logon sid outcome d (dialect.symm.trans found) found rfl (by rw [← sessions]; rfl)

theorem SessionSetup.handle_outcome (server : ServerState) (hdr : Smb2Header) (body : Bytes)
    (w : World σ η) :
    SessionSetup.Outcome w.conn (SessionSetup.handle server hdr body w).1
      (SessionSetup.handle server hdr body w).2.conn := by
  rw [SessionSetup.handle]
  cases SessionSetup.validate body with
  | error status => exact .unchanged rfl rfl
  | ok token =>
    dsimp only
    split
    · exact SessionSetup.firstRound_outcome server token w
    · exact SessionSetup.finalRound_outcome server hdr.sessionId token w

/-! ### The hashing around it -/

omit [Host σ η] [Crypto] in
private theorem takeSessionPreauth_frame (sid : UInt64) (w : World σ η) :
    (takeSessionPreauth sid w).2.conn.sessions = w.conn.sessions ∧
      (takeSessionPreauth sid w).2.conn.dialect = w.conn.dialect := by
  rw [takeSessionPreauth]
  split <;> exact ⟨rfl, rfl⟩

omit [Host σ η] in
/-- Before a SESSION_SETUP the exchange's hash is at hand whenever the dialect is 3.1.1. -/
theorem preauthBefore_setup (hdr : Smb2Header) (frame : Bytes) (w : World σ η)
    (cmd : hdr.command = .sessionSetup) :
    (preauthBefore hdr frame w).2.conn.sessions = w.conn.sessions ∧
      (preauthBefore hdr frame w).2.conn.dialect = w.conn.dialect ∧
        (w.conn.dialect = some .smb311 → (preauthBefore hdr frame w).1.isSome) := by
  have frames := takeSessionPreauth_frame hdr.sessionId w
  by_cases dialect : w.conn.dialect = some .smb311
  · simp only [preauthBefore, Action.bind_apply, getConn_apply, cmd, reduceCtorEq, if_false,
      dialect, and_self, if_true, Action.pure_apply]
    exact ⟨frames.1, frames.2.trans dialect, fun _ => rfl⟩
  · simp only [preauthBefore, Action.bind_apply, getConn_apply, cmd, reduceCtorEq, if_false,
      dialect, and_false, Action.pure_apply]
    exact ⟨trivial, trivial, False.elim⟩

omit [Host σ η] in
/-- What the snapshot leaves of the sessions of a logon. -/
theorem takeSnapshot_sessions (sid : UInt64) (outcome : AuthOutcome) (dialect : Dialect)
    (resp : HandlerResponse) (sessionPreauth : Option PreauthIntegrity) (w : World σ η)
    (sessions : Table UInt64 (Session η))
    (logon : w.conn.sessions =
      sessions.insert sid (SessionSetup.newSession sid outcome dialect))
    (after : w.conn.dialect = some dialect)
    (snapshot : resp.takePreauthSnapshotForSession = if dialect = .smb311 then some sid else none)
    (hashed : dialect = .smb311 → sessionPreauth.isSome) (sid' : UInt64) (v : SessionView)
    (seen : (takeSnapshot resp sessionPreauth w).2.conn.sessionView sid' = some v) :
    (sessions.lookup sid').map Session.view = some v ∨ dialect.Given v := by
  -- over 3.1.1 the key is derived with the hash that is taken here, else it was derived before
  by_cases latest : dialect = .smb311
  · obtain ⟨snap, stored⟩ := Option.isSome_iff_exists.mp (hashed latest)
    simp only [takeSnapshot, snapshot, latest, if_true, stored, modifyConn_apply,
      World.setConn_conn, Connection.sessionView, Connection.lookup_modifySession, logon,
      Table.lookup_insert] at seen
    split at seen
    · subst latest
      simp only [Option.map_some, stashSnapshot, after, if_true, Option.some.injEq] at seen
      exact .inr (seen ▸ ⟨snap, rfl, rfl⟩)
    · exact .inl seen
  · rw [if_neg latest] at snapshot
    rw [takeSnapshot_of_none _ snapshot, Connection.sessionView, logon, Table.lookup_insert] at seen
    split at seen
    · obtain rfl := Option.some.inj seen
      right
      cases dialect with
      | smb311 => exact absurd rfl latest
      | _ => rfl
    · exact .inl seen

/-- A session that a SESSION_SETUP leaves was there before or was given its key. -/
theorem runHandler_setup (server : ServerState) (hdr : Smb2Header) (frame body : Bytes)
    (w : World σ η) (cmd : hdr.command = .sessionSetup) (sid : UInt64) (v : SessionView)
    (seen : (runHandler server hdr frame body w).2.conn.sessionView sid = some v) :
    w.conn.sessionView sid = some v ∨ ∃ dialect, w.conn.dialect = some dialect ∧
      dialect.Given v := by
  obtain ⟨sessions, dialect, hashed⟩ := preauthBefore_setup hdr frame w cmd
  simp only [runHandler, Action.bind_apply, getConn_apply, Action.pure_apply,
    Connection.sessionView, (preauthAfter_frame _ _ _ _).1, (alike_record _ _ _).conn] at seen
  generalize preauthBefore hdr frame w = before at *
  obtain ⟨sessionPreauth, w₁⟩ := before
  have handler : dispatchCommand server hdr body w₁ = SessionSetup.handle server hdr body w₁ := by
    simp only [dispatchCommand, cmd]
  simp only [handler] at seen
  have outcome := SessionSetup.handle_outcome server hdr body w₁
  generalize SessionSetup.handle server hdr body w₁ = handled at *
  obtain ⟨resp, w₂⟩ := handled
  rw [Connection.sessionView, ← sessions, ← dialect]
  cases outcome with
  | unchanged snapshot same =>
    rw [takeSnapshot_of_none _ snapshot, same] at seen
    exact .inl seen
  | logon sid' outcome d before after snapshot logged =>
    -- the hash of the exchange was set up before the handler ran
    have ready (latest : d = .smb311) : sessionPreauth.isSome :=
      hashed (dialect.symm.trans (before.trans (congrArg some latest)))
    rcases takeSnapshot_sessions sid' outcome d resp sessionPreauth w₂ _ logged after snapshot
      ready sid v seen with old | given
    · exact .inl old
    · exact .inr ⟨d, before, given⟩

/-! ### A step -/

/-- The step establishes a session: on some connection, which was `conn` before, the session keeps
`v` from here on and did not before. -/
def System.Establishes (s : System σ η) (step : Step) (conn : Connection η) (sid : UInt64)
    (v : SessionView) : Prop :=
  conn.sessionView sid ≠ some v ∧ ∃ cid conn', s.conns.lookup cid = some conn ∧
    (s.execute step).conns.lookup cid = some conn' ∧ conn'.sessionView sid = some v

/-- A session that one element leaves was there before or was given its key. -/
theorem dispatchOne_given (server : ServerState) (frame : Bytes) (ordinal : UInt32)
    (w : World σ η) (sid : UInt64) (v : SessionView)
    (seen : (dispatchOne server frame ordinal w).2.conn.sessionView sid = some v) :
    w.conn.sessionView sid = some v ∨ ∃ dialect, w.conn.dialect = some dialect ∧
      dialect.Given v := by
  have outcome := dispatchOne_cases server frame ordinal w
  revert outcome seen
  generalize (dispatchOne server frame ordinal w).1 = answer
  generalize (dispatchOne server frame ordinal w).2 = w'
  intro seen outcome
  cases outcome with
  | malformed _ _ same => exact .inl (same.conn ▸ seen)
  | rejected _ _ _ _ _ _ same => exact .inl (same.conn ▸ seen)
  | cancelled _ _ _ _ _ _ same => exact .inl (same.conn ▸ seen)
  | handled hdr body w₁ _ _ _ same =>
    rw [← same.conn]
    by_cases setup : hdr.command = .sessionSetup
    · exact runHandler_setup server hdr frame body w₁ setup sid v seen
    · have run := runHandler_effect server hdr frame body w₁
      exact .inl (Edits.sessionView_before run.conn setup sid v seen)

theorem System.Establishes.given {s : System σ η} {step : Step} {conn : Connection η}
    {sid : UInt64} {v : SessionView} (h : s.Establishes step conn sid v) :
    ∃ dialect, conn.dialect = some dialect ∧ dialect.Given v := by
  obtain ⟨new, cid, conn', live, after, seen⟩ := h
  cases step with
  | accept =>
    simp only [System.execute, System.accept, Table.lookup_insert] at after
    split at after
    · obtain rfl := Option.some.inj after
      cases seen
    · obtain rfl := Option.some.inj (live.symm.trans after)
      exact absurd seen new
  -- only an element of the connection itself enters a session
  | element cid' e =>
    simp only [System.execute, System.lookup_onConn, live, Option.map_some] at after
    split at after
    · obtain rfl := Option.some.inj after
      exact (dispatchOne_given s.server e.bytes e.ordinal ⟨conn, s.env⟩ sid v seen).resolve_left new
    · obtain rfl := Option.some.inj after
      exact absurd seen new
  | smb1 cid' chosen =>
    simp only [System.execute, System.lookup_onConn, live, Option.map_some,
      (smb1_frame s.server chosen _).1, ite_self, Option.some.injEq] at after
    exact absurd (after ▸ seen) new
  -- a change only removes: what is there afterwards was there before
  | config op =>
    obtain ⟨old, before, removed⟩ := s.configure_lookup op cid conn' after
    obtain rfl := Option.some.inj (live.symm.trans before)
    refine absurd ?_ new
    clear after new
    induction removed with
    | refl => exact seen
    | tail _ r ih => exact ih (r.sessionView sid v seen)
  | hangup cid' =>
    simp only [System.execute, System.hangup, Table.lookup_erase] at after
    split at after
    · cases after
    · obtain rfl := Option.some.inj (live.symm.trans after)
      exact absurd seen new

/-- Over every run, a session is established with the key of its dialect exactly when the dialect
is neither 2.0.2 nor 2.1, or deriving the 3.0 key gives the session key back. -/
theorem signingKey_iff (server : ServerState) (host : σ) (events : List Event) :
    System.Throughout server host events fun s step => ∀ (conn : Connection η) sid v,
      s.Establishes step conn sid v → v.identity.isAnonymous = false →
        ∃ dialect, conn.dialect = some dialect ∧
          (dialect.KeyOf v ↔ (dialect ≠ .smb202 ∧ dialect ≠ .smb210) ∨
            signingKey30 v.sessionBaseKey = v.sessionBaseKey) := by
  refine System.Throughout.of_invariant (fun _ => True) server host events trivial
    (fun _ _ inv => inv) ?_
  intro s step _ conn sid v established _
  obtain ⟨dialect, here, given⟩ := established.given
  exact ⟨dialect, here, dialect.keyOf_iff v given⟩

end

/-! ### A logon over 2.1 -/

open scoped Sample

/-- The NEGOTIATE and the first round of a logon over 2.1, and its last round. -/
def Sample.challenged : List Bytes := (Sample.userOn 0x0210).take 2

def Sample.authenticate : Bytes := (Sample.userOn 0x0210).getD 2 []

/-- The session of a logon over 2.1 does not sign with its session key. -/
theorem smb210_signs_with_derived_key :
    ¬∀ events : List Event, System.Throughout Sample.server () events
      fun s step => ∀ conn sid v, s.Establishes step conn sid v →
        v.identity.isAnonymous = false →
          ∃ dialect, conn.dialect = some dialect ∧ dialect.KeyOf v := by
  intro all
  let before := Sample.session Sample.challenged
  let s : System Unit Unit := (System.start Sample.server ()).run before
  let step : Step := .element 1 (.single Sample.authenticate)
  have reached : (s.conns.lookup 1).any (fun conn =>
      ((s.execute step).conns.lookup 1).any fun conn' =>
        (conn'.sessionView 1).any fun v =>
          conn.dialect = some .smb210 && (conn.sessionView 1).isNone &&
            !v.identity.isAnonymous && v.signingKey ≠ v.sessionBaseKey) = true := by
    decide +kernel
  simp only [Option.any_eq_true, Bool.and_eq_true, decide_eq_true_eq, Bool.not_eq_true',
    Option.isNone_iff_eq_none] at reached
  obtain ⟨conn, live, conn', after, v, seen, ⟨⟨dialect, new⟩, user⟩, derived⟩ := reached
  have last := (all (before ++ [.frame 1 Sample.authenticate])).last (by decide +kernel)
    (by decide +kernel)
  obtain ⟨d, here, key⟩ := last conn 1 v ⟨by simp [new], 1, conn', live, after, seen⟩ user
  obtain rfl := Option.some.inj (dialect.symm.trans here)
  exact derived key

end SmbServer
