import SmbServer.Effects.Preauth
import SmbServer.Effects.SessionIds
import SmbServer.Properties.NtlmAgreement
import SmbServer.Properties.ReadableReplies

/-!
# SmbServer.Properties.Authentication

What stands behind a session.

## Main result

`sessions_authenticated`: over every run, a session that is live on a connection goes back to two
requests of that connection. The first one made the server draw a challenge and send it out under
the id of the session. The second one came in under that id while the challenge was waiting, and
proved the password of the user against that challenge and the user table of that moment, with an
integrity code, if there was one, over the three messages. An anonymous session goes back to such a
pair too, on a server that let anonymous clients in at that moment.

## Proof strategy

`SessionSetup.Leg` is what one SESSION_SETUP does to acceptors and sessions, with the contents of
both; the hashing around the handler leaves them alone. `Earned` and `Waiting` are kept by every
step, with the step itself as the newest witness.
-/

namespace SmbServer

open Lib

section

variable {σ η : Type} [Host σ η]

/-! ### The first leg -/

/-- The acceptor of a first round: the host has drawn its challenge, and it keeps the NEGOTIATE and
the CHALLENGE. -/
structure Challenged (server : ServerState) (host : σ) (token : SessionSetup.Token)
    (acceptor : NtlmServer) : Prop where
  drawn : acceptor.serverChallenge = (Host.fillRandom 8 host).1
  negotiateBytes : acceptor.negotiateBytes = token.innerToken
  challengeBytes : ∃ params, acceptor.challengeBytes = buildChallenge params ∧
    params.serverChallenge = acceptor.serverChallenge ∧
    params.targetName = server.config.netbiosName

omit [Host σ η] in
/-- What the first message adds to an acceptor. -/
theorem NtlmServer.step1_fields {s negotiating : NtlmServer} {blob : Bytes}
    (step : s.step1Negotiate blob = some negotiating) :
    negotiating.serverChallenge = s.serverChallenge ∧ negotiating.targetInfo = s.targetInfo ∧
      negotiating.negotiateBytes = blob := by
  obtain ⟨n, parsed, same⟩ := Option.bind_eq_some_iff.mp step
  cases same
  refine ⟨rfl, rfl, ?_⟩
  -- the message is kept as it came
  simp only [NtlmNegotiate.parse, Option.bind_eq_bind, Option.bind_eq_some_iff] at parsed
  obtain ⟨_, _, parsed⟩ := parsed
  split at parsed
  · cases parsed
  · simp only [Option.bind_eq_some_iff] at parsed
    obtain ⟨_, -, _, -, _, -, _, -, last⟩ := parsed
    cases last
    rfl

theorem infix_writeTlv (tag : UInt8) (content : Bytes) : content <:+: writeTlv tag content :=
  ⟨tag :: derLen content.length, [], by rw [writeTlv, List.append_nil]⟩

/-- The token that a response carries can be found in it. -/
theorem infix_encodeRespToken (state : NegState) (mech : Option Bytes) (token : Bytes) :
    token <:+: encodeRespToken state mech (some token) none := by
  have field : token <:+: optionalField tagCtx2 tagOctet (some token) :=
    (infix_writeTlv tagOctet token).trans (infix_writeTlv tagCtx2 _)
  unfold encodeRespToken
  refine .trans (.trans ?_ (infix_writeTlv tagSequence _)) (infix_writeTlv tagCtx1 _)
  obtain ⟨before, behind, same⟩ := field
  rw [← same]
  refine ⟨writeTlv tagCtx0 (writeTlv tagEnumerated [state.toByte]) ++
    optionalField tagCtx1 tagObject mech ++ before,
    behind ++ optionalField tagCtx3 tagOctet none, ?_⟩
  simp only [List.append_assoc]

theorem infix_buildResponse (blob : Bytes) (flags : UInt16) :
    blob <:+: SessionSetup.buildResponse blob flags := by
  rw [SessionSetup.buildResponse, SessionSetupResponse.write]
  exact (List.suffix_append _ _).isInfix

/-! ### Both legs -/

variable [Crypto]

/-- What a SESSION_SETUP does to the acceptors and the sessions of its connection. -/
inductive SessionSetup.Leg (server : ServerState) (sid : UInt64) (body : Bytes)
    (conn : Connection η) (host : σ) (resp : HandlerResponse) (conn' : Connection η) : Prop where
  | idle (pendingAuths : conn'.pendingAuths = conn.pendingAuths)
      (sessions : conn'.sessions = conn.sessions)
  | challenged (token : Token) (acceptor : NtlmServer) (rawForm : Bool)
      (valid : validate body = .ok token) (first : token.isFirstRound = true)
      (made : Challenged server host token acceptor)
      (id : resp.overrideSessionId = some conn.nextSessionId)
      (sent : acceptor.challengeBytes <:+: resp.body)
      (pendingAuths : conn'.pendingAuths =
        conn.pendingAuths.insert conn.nextSessionId (acceptor, rawForm))
      (sessions : conn'.sessions = conn.sessions)
  | refused (pendingAuths : conn'.pendingAuths = conn.pendingAuths.erase sid)
      (sessions : conn'.sessions = conn.sessions)
  | completed (token : Token) (acceptor : NtlmServer) (rawForm : Bool) (outcome : AuthOutcome)
      (dialect : Dialect) (valid : validate body = .ok token)
      (waiting : conn.pendingAuths.lookup sid = some (acceptor, rawForm))
      (granted : logon server.users server.anonymousAllowed acceptor token.innerToken =
        some outcome)
      (pendingAuths : conn'.pendingAuths = conn.pendingAuths.erase sid)
      (sessions : conn'.sessions = conn.sessions.insert sid (newSession sid outcome dialect))

namespace SessionSetup

variable {server : ServerState} {sid : UInt64} {body : Bytes}

theorem firstRound_leg (token : Token) (valid : validate body = .ok token)
    (first : token.isFirstRound = true) (w : World σ η) :
    Leg server sid body w.conn w.env.host (firstRound server token w).1
      (firstRound server token w).2.conn := by
  simp only [firstRound, Action.bind_apply, allocSessionId]
  generalize drawn : SmbServer.fillRandom 8 (w.setConn
    { w.conn with nextSessionId := w.conn.nextSessionId + 1 }) = random
  obtain ⟨challenge, w₁⟩ := random
  generalize timed : SmbServer.nowFiletime w₁ = clock
  obtain ⟨now, w₂⟩ := clock
  have same : w₂.conn = { w.conn with nextSessionId := w.conn.nextSessionId + 1 } := by
    have random := congrArg (fun r => r.2.conn) drawn
    have clock := congrArg (fun r => r.2.conn) timed
    exact clock.symm.trans random.symm
  have chosen : challenge = (Host.fillRandom 8 w.env.host).1 :=
    (congrArg Prod.fst drawn).symm
  dsimp only
  generalize fresh : NtlmServer.new challenge ⟨server.config.netbiosName, server.config.netbiosName,
    server.config.netbiosName, [], []⟩ now = new
  cases step : new.step1Negotiate token.innerToken with
  | none =>
    simp only [Action.pure_apply, same]
    exact .idle rfl rfl
  | some negotiating =>
    obtain ⟨serverChallenge, targetInfo, negotiateBytes⟩ := NtlmServer.step1_fields step
    rw [← fresh] at serverChallenge targetInfo
    simp only [Action.bind_apply, modifyConn_apply, Action.pure_apply, World.setConn_conn, same]
    refine .challenged token negotiating.challenge.2 token.isRawNtlmssp valid first ?_ rfl ?_ rfl rfl
    · refine ⟨serverChallenge.trans chosen, negotiateBytes, _, rfl, rfl, ?_⟩
      rw [targetInfo]
      rfl
    · -- raw or wrapped
      refine List.IsInfix.trans ?_ (infix_buildResponse _ 0)
      cases token.isRawNtlmssp with
      | true => exact List.infix_rfl
      | false => exact infix_encodeRespToken _ _ _

theorem finalRound_leg (token : Token) (valid : validate body = .ok token) (w : World σ η) :
    Leg server sid body w.conn w.env.host (finalRound server sid token w).1
      (finalRound server sid token w).2.conn := by
  rw [finalRound]
  by_cases zero : sid = 0
  · rw [if_pos zero]
    exact .idle rfl rfl
  rw [if_neg zero, Action.bind_apply, takeAcceptor]
  cases waiting : w.conn.pendingAuths.lookup sid with
  | none => exact .idle rfl rfl
  | some pair =>
    obtain ⟨acceptor, rawForm⟩ := pair
    generalize taken : w.setConn
      { w.conn with pendingAuths := w.conn.pendingAuths.erase sid } = w₁
    have same : w₁.conn = { w.conn with pendingAuths := w.conn.pendingAuths.erase sid } := by
      rw [← taken, World.setConn_conn]
    dsimp only
    cases granted : logon server.users server.anonymousAllowed acceptor token.innerToken with
    | none =>
      simp only [Action.pure_apply, same]
      exact .refused rfl rfl
    | some outcome =>
      simp only [Action.bind_apply, getConn_apply]
      cases dialect : w₁.conn.dialect with
      | none =>
        simp only [Action.pure_apply, same]
        exact .refused rfl rfl
      | some d =>
        simp only [Action.bind_apply, modifyConn_apply, Action.pure_apply, World.setConn_conn, same]
        exact .completed token acceptor rawForm outcome d valid waiting granted rfl rfl

theorem handle_leg (server : ServerState) (hdr : Smb2Header) (body : Bytes) (w : World σ η) :
    Leg server hdr.sessionId body w.conn w.env.host (handle server hdr body w).1
      (handle server hdr body w).2.conn := by
  rw [handle]
  cases valid : validate body with
  | error status => exact .idle rfl rfl
  | ok token =>
    dsimp only
    cases first : token.isFirstRound with
    | true => exact firstRound_leg token valid first w
    | false => exact finalRound_leg token valid w

/-- A leg looks at the acceptors, the sessions and the allocator only. -/
theorem Leg.of_sameIds {conn conn₁ conn' : Connection η} {host : σ} {resp : HandlerResponse}
    (leg : Leg server sid body conn₁ host resp conn') (same : SameIds conn conn₁) :
    Leg server sid body conn host resp conn' := by
  cases leg with
  | idle pendingAuths sessions =>
    exact .idle (pendingAuths.trans same.pendingAuths) (sessions.trans same.sessions)
  | challenged token acceptor rawForm valid first made id sent pendingAuths sessions =>
    rw [same.nextSessionId] at id
    rw [same.pendingAuths, same.nextSessionId] at pendingAuths
    exact .challenged token acceptor rawForm valid first made id sent pendingAuths
      (sessions.trans same.sessions)
  | refused pendingAuths sessions =>
    exact .refused (same.pendingAuths ▸ pendingAuths) (sessions.trans same.sessions)
  | completed token acceptor rawForm outcome dialect valid waiting granted pendingAuths sessions =>
    rw [same.pendingAuths] at waiting pendingAuths
    rw [same.sessions] at sessions
    exact .completed token acceptor rawForm outcome dialect valid waiting granted pendingAuths
      sessions

end SessionSetup

/-! ### One element -/

/-- What a session keeps of its logon. -/
def Session.credentials (sess : Session η) : Identity × Key := (sess.identity, sess.sessionBaseKey)

/-- The identity and the session key of a live session. -/
def Connection.credentials (conn : Connection η) (sid : UInt64) : Option (Identity × Key) :=
  (conn.sessions.lookup sid).map Session.credentials

omit [Host σ η] in
theorem takeSnapshot_credentials (resp : HandlerResponse) (p : Option PreauthIntegrity)
    (w : World σ η) (sid : UInt64) :
    (takeSnapshot resp p w).2.conn.pendingAuths = w.conn.pendingAuths ∧
      (takeSnapshot resp p w).2.conn.credentials sid = w.conn.credentials sid := by
  have kept (snap : PreauthIntegrity) (conn : Connection η) (sess : Session η) :
      (stashSnapshot snap conn sess).credentials = sess.credentials := by
    rw [stashSnapshot]
    split <;> rfl
  rw [takeSnapshot]
  cases resp.takePreauthSnapshotForSession with
  | none => exact ⟨rfl, rfl⟩
  | some sid' =>
    cases p with
    | none => exact ⟨rfl, rfl⟩
    | some snap =>
      simp only [modifyConn_apply, World.setConn_conn, Connection.credentials,
        Connection.lookup_modifySession]
      refine ⟨rfl, ?_⟩
      by_cases same : sid = sid'
      · rw [if_pos same, Option.map_map]
        congr 1
        funext sess
        exact kept snap w.conn sess
      · rw [if_neg same]

/-- The leg that an accepted SESSION_SETUP goes through, and what it is answered. -/
theorem dispatchOne_leg (server : ServerState) (frame : Bytes) (ordinal : UInt32) (w : World σ η)
    (hdr : Smb2Header) (body : Bytes) (accepted : Accepted w.conn frame hdr body)
    (cmd : hdr.command = .sessionSetup) :
    ∃ resp conn' reply,
      SessionSetup.Leg server hdr.sessionId body w.conn w.env.host resp conn' ∧
      (dispatchOne server frame ordinal w).1 = some reply ∧
      readU64 reply 0x28 = resp.overrideSessionId.getD hdr.sessionId ∧
      resp.body <:+: reply ∧
      (dispatchOne server frame ordinal w).2.conn.pendingAuths = conn'.pendingAuths ∧
      ∀ sid, (dispatchOne server frame ordinal w).2.conn.credentials sid =
        conn'.credentials sid := by
  obtain ⟨w₁, same, answer, after⟩ := dispatchOne_handled server frame ordinal w hdr body accepted
  have handler (w : World σ η) :
      dispatchCommand server hdr body w = SessionSetup.handle server hdr body w := by
    simp only [dispatchCommand, cmd]
  have ids := preauthBefore_ids hdr frame w₁
  have host : (preauthBefore hdr frame w₁).2.env.host = w₁.env.host := by
    by_cases latest : w₁.conn.dialect = some .smb311
    · rw [preauthBefore_latest hdr frame w₁ cmd latest, takeSessionPreauth]
      split <;> rfl
    · simp only [preauthBefore, Action.bind_apply, getConn_apply, cmd, reduceCtorEq, if_false,
        latest, and_false, Action.pure_apply]
  rw [answer, after]
  simp only [runHandler, Action.bind_apply, getConn_apply, Action.pure_apply, handler]
  generalize preauthBefore hdr frame w₁ = prepared at *
  obtain ⟨p, w₂⟩ := prepared
  have leg := SessionSetup.handle_leg server hdr body w₂
  dsimp only at ids host leg ⊢
  generalize SessionSetup.handle server hdr body w₂ = handled at *
  obtain ⟨resp, w₃⟩ := handled
  dsimp only at leg ⊢
  have whole : SameIds w.conn w₂.conn := (SameIds.of_eq same.conn).trans ids
  rw [host, same.host] at leg
  refine ⟨resp, w₃.conn, _, leg.of_sameIds whole, rfl, readU64_buildResponseBytes _ _ _, ?_, ?_, ?_⟩
  · rw [← drop_buildResponseBytes (takeSnapshot resp p w₃).2.conn hdr resp]
    exact (List.drop_suffix _ _).isInfix
  · rw [(preauthAfter_ids _ _ _ _ _).pendingAuths, (alike_record _ _ _).conn]
    exact (takeSnapshot_credentials resp p w₃ 0).1
  · intro sid
    rw [Connection.credentials, (preauthAfter_ids _ _ _ _ _).sessions, (alike_record _ _ _).conn]
    exact (takeSnapshot_credentials resp p w₃ sid).2

/-! ### A run -/

/-- The element of a connection makes the server draw a challenge, which it sends out under `sid`. -/
structure System.Challenges (s : System σ η) (cid : UInt64) (e : Element) (sid : UInt64)
    (acceptor : NtlmServer) : Prop where
  request : ∃ conn hdr body token, s.conns.lookup cid = some conn ∧
    Accepted conn e.bytes hdr body ∧ hdr.command = .sessionSetup ∧
    SessionSetup.validate body = .ok token ∧ token.isFirstRound = true ∧
    Challenged s.server s.env.host token acceptor ∧
    ∃ reply, (dispatchOne s.server e.bytes e.ordinal ⟨conn, s.env⟩).1 = some reply ∧
      readU64 reply 0x28 = sid ∧ acceptor.challengeBytes <:+: reply

/-- The credentials that a token proves to an acceptor. -/
inductive Proves (server : ServerState) (acceptor : NtlmServer) (token : Bytes) :
    Identity × Key → Prop where
  | anonymous (allowed : server.anonymousAllowed = true) :
      Proves server acceptor token (.anonymous, ByteVec.zero 16)
  | user (auth : NtlmAuthenticate) (key : Key) (parsed : NtlmAuthenticate.parse token = some auth)
      (accepts : acceptor.Accepts server.users.lookup auth key) :
      Proves server acceptor token (.user auth.user auth.domain, key)

/-- The element of a connection proves credentials under `sid`, while the acceptor waits there. -/
structure System.Redeems (s : System σ η) (cid : UInt64) (e : Element) (sid : UInt64)
    (acceptor : NtlmServer) (credentials : Identity × Key) : Prop where
  request : ∃ conn hdr body token rawForm, s.conns.lookup cid = some conn ∧
    Accepted conn e.bytes hdr body ∧ hdr.command = .sessionSetup ∧ hdr.sessionId = sid ∧
    conn.pendingAuths.lookup sid = some (acceptor, rawForm) ∧
    SessionSetup.validate body = .ok token ∧
    Proves s.server acceptor token.innerToken credentials

/-- The challenge of the acceptor has been sent under `sid` in the course of the steps. -/
def Waiting (init : System σ η) (steps : List Step) (cid sid : UInt64) (acceptor : NtlmServer) :
    Prop :=
  ∃ before first behind, steps = before ++ .element cid first :: behind ∧
    (runAll System.execute init before).Challenges cid first sid acceptor

/-- Credentials have been proved under `sid` against a challenge that was sent before. -/
def Earned (init : System σ η) (steps : List Step) (cid sid : UInt64)
    (credentials : Identity × Key) : Prop :=
  ∃ before last behind acceptor, steps = before ++ .element cid last :: behind ∧
    Waiting init before cid sid acceptor ∧
    (runAll System.execute init before).Redeems cid last sid acceptor credentials

theorem Waiting.append {init : System σ η} {steps : List Step} {cid sid : UInt64}
    {acceptor : NtlmServer} (before : Waiting init steps cid sid acceptor) (more : List Step) :
    Waiting init (steps ++ more) cid sid acceptor := by
  obtain ⟨front, first, behind, rfl, challenges⟩ := before
  exact ⟨front, first, behind ++ more, by rw [List.append_assoc, List.cons_append], challenges⟩

theorem Earned.append {init : System σ η} {steps : List Step} {cid sid : UInt64}
    {credentials : Identity × Key} (before : Earned init steps cid sid credentials)
    (more : List Step) : Earned init (steps ++ more) cid sid credentials := by
  obtain ⟨front, last, behind, acceptor, rfl, waiting, redeems⟩ := before
  exact ⟨front, last, behind ++ more, acceptor, by rw [List.append_assoc, List.cons_append],
    waiting, redeems⟩

omit [Host σ η] in
/-- An anonymous client gets the zero key. -/
theorem NtlmServer.key_of_anonymous {s : NtlmServer} {blob : Bytes}
    {lookup : Text → Option UserCreds} {key : Key}
    (ok : s.authenticate blob lookup = some ⟨.anonymous, key⟩) : key = ByteVec.zero 16 := by
  simp only [authenticate, Option.bind_eq_bind, Option.bind_eq_some_iff] at ok
  obtain ⟨auth, -, ok⟩ := ok
  split at ok
  · cases ok
    rfl
  · obtain ⟨creds, -, ok⟩ := Option.bind_eq_some_iff.mp ok
    split at ok
    · cases ok
    · split at ok
      · cases ok
      · obtain ⟨exported, -, ok⟩ := Option.bind_eq_some_iff.mp ok
        split at ok <;> cases ok

omit [Host σ η] in
/-- What a logon is granted for is what the token proves. -/
theorem SessionSetup.proves_of_logon {server : ServerState} {acceptor : NtlmServer}
    {token : Bytes} {outcome : AuthOutcome}
    (granted : logon server.users server.anonymousAllowed acceptor token = some outcome) :
    Proves server acceptor token (outcome.identity, outcome.sessionKey) := by
  have authenticated := authenticate_of_logon granted
  obtain ⟨identity, key⟩ := outcome
  cases identity with
  | user user domain =>
    obtain ⟨auth, parsed, rfl, rfl, accepts⟩ := authenticate_eq_user.mp authenticated
    exact .user auth key parsed accepts
  | anonymous =>
    rw [NtlmServer.key_of_anonymous authenticated]
    -- the gate behind the acceptor
    apply Proves.anonymous
    rw [logon, authenticated] at granted
    dsimp only at granted
    cases allowed : server.anonymousAllowed with
    | true => rfl
    | false =>
      have gated : (Identity.anonymous.isAnonymous && !false) = true := rfl
      rw [allowed, if_pos gated] at granted
      cases granted

section
omit [Host σ η] [Crypto]

/-- Where sessions only go away, the credentials that are left were there before. -/
theorem FewerSessions.credentials {conn conn' : Connection η} (fewer : FewerSessions conn conn')
    {sid : UInt64} {credentials : Identity × Key}
    (seen : conn'.credentials sid = some credentials) :
    conn.credentials sid = some credentials := by
  have ofView (conn : Connection η) : conn.credentials sid =
      (conn.sessionView sid).map fun v => (v.identity, v.sessionBaseKey) := by
    rw [Connection.credentials, Connection.sessionView, Option.map_map]
    rfl
  rw [ofView] at seen
  obtain ⟨v, view, same⟩ := Option.map_eq_some_iff.mp seen
  rw [ofView, fewer.views sid v view, Option.map_some, same]

end

/-- Every acceptor and every session of a live connection goes back to the steps. -/
structure Explained (init : System σ η) (steps : List Step) (s : System σ η) : Prop where
  waiting : ∀ cid conn sid acceptor rawForm, s.conns.lookup cid = some conn →
    conn.pendingAuths.lookup sid = some (acceptor, rawForm) → Waiting init steps cid sid acceptor
  backed : ∀ cid conn sid credentials, s.conns.lookup cid = some conn →
    conn.credentials sid = some credentials → Earned init steps cid sid credentials

/-- A connection that has only lost sessions. -/
theorem Explained.fewer {init s : System σ η} {steps : List Step} (before : Explained init steps s)
    {cid : UInt64} {conn conn' : Connection η} (live : s.conns.lookup cid = some conn)
    (fewer : FewerSessions conn conn') (step : Step) :
    (∀ sid acceptor rawForm, conn'.pendingAuths.lookup sid = some (acceptor, rawForm) →
        Waiting init (steps ++ [step]) cid sid acceptor) ∧
      ∀ sid credentials, conn'.credentials sid = some credentials →
        Earned init (steps ++ [step]) cid sid credentials := by
  constructor
  · intro sid acceptor rawForm waits
    rw [fewer.pendingAuths] at waits
    exact (before.waiting cid conn sid acceptor rawForm live waits).append [step]
  · intro sid credentials seen
    exact (before.backed cid conn sid credentials live (fewer.credentials seen)).append [step]

/-- A connection that has gone through a SESSION_SETUP. -/
theorem Explained.setup {init s : System σ η} {steps : List Step}
    (reached : runAll System.execute init steps = s) (before : Explained init steps s)
    {cid : UInt64} {conn conn' : Connection η} (live : s.conns.lookup cid = some conn)
    (e : Element) {hdr : Smb2Header} {body : Bytes} (accepted : Accepted conn e.bytes hdr body)
    (cmd : hdr.command = .sessionSetup)
    (after : conn' = (dispatchOne s.server e.bytes e.ordinal ⟨conn, s.env⟩).2.conn) :
    (∀ sid acceptor rawForm, conn'.pendingAuths.lookup sid = some (acceptor, rawForm) →
        Waiting init (steps ++ [.element cid e]) cid sid acceptor) ∧
      ∀ sid credentials, conn'.credentials sid = some credentials →
        Earned init (steps ++ [.element cid e]) cid sid credentials := by
  obtain ⟨resp, conn₁, reply, leg, answer, id, sent, pendingAuths, credentials⟩ :=
    dispatchOne_leg s.server e.bytes e.ordinal ⟨conn, s.env⟩ hdr body accepted cmd
  rw [← after] at pendingAuths credentials
  -- what was there before is explained by the steps before
  have oldWaiting (sid : UInt64) (acceptor : NtlmServer) (rawForm : Bool)
      (waits : conn.pendingAuths.lookup sid = some (acceptor, rawForm)) :
      Waiting init (steps ++ [.element cid e]) cid sid acceptor :=
    (before.waiting cid conn sid acceptor rawForm live waits).append _
  have oldEarned (sid : UInt64) (given : Identity × Key) (seen : conn.credentials sid = some given) :
      Earned init (steps ++ [.element cid e]) cid sid given :=
    (before.backed cid conn sid given live seen).append _
  have sameCredentials (same : conn₁.sessions = conn.sessions) (sid : UInt64) :
      conn'.credentials sid = conn.credentials sid := by
    rw [credentials, Connection.credentials, same]
    rfl
  have erased (gone : conn₁.pendingAuths = conn.pendingAuths.erase hdr.sessionId) (sid : UInt64)
      (pending : NtlmServer × Bool) (waits : conn'.pendingAuths.lookup sid = some pending) :
      conn.pendingAuths.lookup sid = some pending := by
    rw [pendingAuths, gone, Table.lookup_erase] at waits
    split at waits
    · cases waits
    · exact waits
  cases leg with
  | idle same sessions =>
    refine ⟨fun sid acceptor rawForm waits => ?_, fun sid given seen => ?_⟩
    · rw [pendingAuths, same] at waits
      exact oldWaiting sid acceptor rawForm waits
    · rw [sameCredentials sessions] at seen
      exact oldEarned sid given seen
  | refused gone sessions =>
    refine ⟨fun sid acceptor rawForm waits => ?_, fun sid given seen => ?_⟩
    · exact oldWaiting sid acceptor rawForm (erased gone sid _ waits)
    · rw [sameCredentials sessions] at seen
      exact oldEarned sid given seen
  | challenged token acceptor rawForm valid first made named given inserted sessions =>
    refine ⟨fun sid acceptor' rawForm' waits => ?_, fun sid given seen => ?_⟩
    · rw [pendingAuths, inserted, Table.lookup_insert] at waits
      split at waits
      next own =>
        -- the acceptor of this very element
        cases waits
        refine ⟨steps, e, [], rfl, ?_⟩
        rw [reached]
        refine ⟨conn, hdr, body, token, live, accepted, cmd, valid, first, made, reply, answer, ?_,
          given.trans sent⟩
        rw [id, named, own, Option.getD_some]
      next other => exact oldWaiting sid acceptor' rawForm' waits
    · rw [sameCredentials sessions] at seen
      exact oldEarned sid given seen
  | completed token acceptor rawForm outcome dialect valid waiting granted gone inserted =>
    refine ⟨fun sid acceptor' rawForm' waits => ?_, fun sid given seen => ?_⟩
    · exact oldWaiting sid acceptor' rawForm' (erased gone sid _ waits)
    · rw [credentials, Connection.credentials, inserted, Table.lookup_insert] at seen
      split at seen
      next own =>
        -- the session of this very element
        cases seen
        rw [← own] at waiting
        refine ⟨steps, e, [], acceptor, rfl,
          before.waiting cid conn sid acceptor rawForm live waiting, ?_⟩
        rw [reached]
        exact ⟨conn, hdr, body, token, rawForm, live, accepted, cmd, own.symm, waiting, valid,
          SessionSetup.proves_of_logon granted⟩
      next other => exact oldEarned sid given seen

theorem explained (init : System σ η) (bare : init.conns = Table.empty) (steps : List Step) :
    Explained init steps (runAll System.execute init steps) := by
  induction steps using List.reverseRecOn with
  | nil =>
    constructor
    · intro cid conn sid acceptor rawForm live
      rw [runAll_nil, bare] at live
      cases live
    · intro cid conn sid credentials live
      rw [runAll_nil, bare] at live
      cases live
  | append_singleton steps step ih =>
    -- every connection is explained, wherever it comes from
    have each (cid : UInt64) (conn' : Connection η)
        (found : (runAll System.execute init (steps ++ [step])).conns.lookup cid = some conn') :
        (∀ sid acceptor rawForm, conn'.pendingAuths.lookup sid = some (acceptor, rawForm) →
            Waiting init (steps ++ [step]) cid sid acceptor) ∧
          ∀ sid credentials, conn'.credentials sid = some credentials →
            Earned init (steps ++ [step]) cid sid credentials := by
      rw [runAll_append, runAll_cons, runAll_nil] at found
      rcases System.execute_lookup _ step cid conn' found with ⟨rfl, rfl, rfl⟩ |
        ⟨conn, live, ⟨e, rfl, rfl⟩ | removed⟩
      · refine ⟨fun sid acceptor rawForm waits => ?_, fun sid given seen => ?_⟩
        · cases waits
        · cases seen
      · rcases dispatchOne_ids (runAll System.execute init steps).server e.bytes e.ordinal
          ⟨conn, (runAll System.execute init steps).env⟩ with
          ⟨-, fewer⟩ | ⟨hdr, body, accepted, cmd, -⟩
        · exact ih.fewer live fewer _
        · exact ih.setup rfl live e accepted cmd rfl
      · apply ih.fewer live
        clear found
        induction removed with
        | refl => exact .refl conn
        | tail _ last ih => exact ih.trans last.fewerSessions
    exact ⟨fun cid conn sid acceptor rawForm found => (each cid conn found).1 sid acceptor rawForm,
      fun cid conn sid credentials found => (each cid conn found).2 sid credentials⟩

/-- Over every run, a live session goes back to a challenge of its own connection, sent under its
id, and to a proof of its credentials against that challenge. -/
theorem sessions_authenticated (server : ServerState) (host : σ) (events : List Event)
    (cid sid : UInt64) (conn : Connection η) (sess : Session η)
    (live : ((System.start server host).run events).conns.lookup cid = some conn)
    (found : conn.sessions.lookup sid = some sess) :
    Earned (System.start server host) ((System.start server host).steps events) cid sid
      (sess.identity, sess.sessionBaseKey) := by
  rw [System.run_eq] at live
  have all := explained (System.start server host) rfl
    ((System.start server host).steps events)
  apply all.backed cid conn sid _ live
  rw [Connection.credentials, found]
  rfl

end

/-! ### A logon -/

open scoped Sample

/-- The user of a session over 3.1.1 has proved the password. -/
theorem sessions_authenticated_user : ∃ (conn : Connection Unit) (sess : Session Unit),
    conn.sessions.lookup 1 = some sess ∧ sess.identity = .user Sample.user [] ∧
      Earned (System.start Sample.server ())
        ((System.start Sample.server ()).steps (Sample.session (Sample.userOn 0x0311))) 1 1
        (sess.identity, sess.sessionBaseKey) := by
  have reached : (((System.start Sample.server () : System Unit Unit).run
      (Sample.session (Sample.userOn 0x0311))).conns.lookup 1).any (fun conn =>
        (conn.sessions.lookup 1).any fun sess => sess.identity = .user Sample.user []) = true := by
    decide +kernel
  obtain ⟨conn, live, reached⟩ := (Option.any_eq_true _ _).mp reached
  obtain ⟨sess, found, identity⟩ := (Option.any_eq_true _ _).mp reached
  exact ⟨conn, sess, found, of_decide_eq_true identity,
    sessions_authenticated Sample.server () _ 1 1 conn sess live found⟩

end SmbServer
