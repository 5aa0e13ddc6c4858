import SmbServer.Effects.Negotiation

/-!
# SmbServer.Effects.Preauth

What NEGOTIATE and SESSION_SETUP do to the running preauth hashes of their connection: the
connection's own, those of the exchanges that are pending, and the snapshots of the sessions.
-/

namespace SmbServer

open Lib

variable {σ η : Type}

/-! ### What the hashing rests on -/

/-- The dialect, the hashes and the acceptors are the same. -/
structure Unhashed (conn conn' : Connection η) : Prop where
  dialect : conn'.dialect = conn.dialect
  preauth : conn'.preauth = conn.preauth
  sessionPreauth : conn'.sessionPreauth = conn.sessionPreauth
  pendingAuths : conn'.pendingAuths = conn.pendingAuths

theorem Unhashed.refl (conn : Connection η) : Unhashed conn conn := ⟨rfl, rfl, rfl, rfl⟩

theorem Unhashed.trans {conn conn' conn'' : Connection η} (first : Unhashed conn conn')
    (second : Unhashed conn' conn'') : Unhashed conn conn'' :=
  ⟨second.dialect.trans first.dialect, second.preauth.trans first.preauth,
    second.sessionPreauth.trans first.sessionPreauth,
    second.pendingAuths.trans first.pendingAuths⟩

theorem Removal.unhashed {conn conn' : Connection η} (r : Removal conn conn') :
    Unhashed conn conn' := by
  cases r <;> exact ⟨rfl, rfl, rfl, rfl⟩

variable [Host σ η] [Crypto]

/-- Only NEGOTIATE and SESSION_SETUP touch the hashes. -/
theorem Edits.unhashed {server : ServerState} {hdr : Smb2Header} {conn conn' : Connection η}
    (run : Edits σ server hdr conn conn') (noNegotiate : hdr.command ≠ .negotiate)
    (noSetup : hdr.command ≠ .sessionSetup) : Unhashed conn conn' := by
  induction run with
  | refl => exact .refl conn
  | tail _ last ih =>
    refine ih.trans ?_
    cases last with
    | preauth _ cmd | commit _ _ cmd => exact absurd cmd noNegotiate
    | exchange _ cmd | sessionId cmd | acceptors _ cmd | logon _ _ _ _ cmd | snapshot _ _ cmd =>
      exact absurd cmd noSetup
    | _ => exact ⟨rfl, rfl, rfl, rfl⟩

omit [Host σ η] in
/-- A response that asks not to be signed goes out as it is when it is the last one. -/
theorem laidOut_unsigned (conn after : Connection η) (hdr : Smb2Header) (resp : HandlerResponse)
    (skip : resp.skipSigning = true) :
    laidOut after true (buildResponseBytes conn hdr resp) = buildResponseBytes conn hdr resp := by
  have noKey : responseKey conn hdr resp = none := by
    simp only [responseKey, skip, Bool.not_true, Bool.false_and, Bool.false_eq_true, if_false]
  have plain := buildResponseBytes_of_none conn hdr resp noKey
  rw [laidOut, placeResponse, if_pos rfl, resign, plain]
  rfl

/-! ### NEGOTIATE -/

/-- A NEGOTIATE that commits `d`: request and reply are hashed. -/
structure Negotiate.Hashed (d : Dialect) (frame : Bytes) (conn : Connection η) (reply : Bytes)
    (conn' : Connection η) : Prop where
  status : readU32 reply 0x08 = statusSuccess
  asBuilt : ∀ after : Connection η, laidOut after true reply = reply
  dialect : conn'.dialect = some d
  preauth : conn'.preauth = (conn.preauth.update frame).update reply
  sessions : conn'.sessions = conn.sessions
  sessionPreauth : conn'.sessionPreauth = conn.sessionPreauth
  pendingAuths : conn'.pendingAuths = conn.pendingAuths

theorem runHandler_commits (server : ServerState) (hdr : Smb2Header) (frame body : Bytes)
    (w : World σ η) (cmd : hdr.command = .negotiate) (d : Dialect)
    (picks : Negotiate.picks body = some d) :
    Negotiate.Hashed d frame w.conn (runHandler server hdr frame body w).1
      (runHandler server hdr frame body w).2.conn := by
  -- the request is hashed in front of the handler, the reply behind it
  have before : preauthBefore hdr frame w =
      (none, w.setConn { w.conn with preauth := w.conn.preauth.update frame }) := by
    simp only [preauthBefore, Action.bind_apply, getConn_apply, cmd, if_true, updatePreauth,
      modifyConn_apply, Action.pure_apply]
  have after (dialect : Option Dialect) (reply : Bytes) (w : World σ η) :
      preauthAfter hdr dialect none reply w =
        ((), w.setConn { w.conn with preauth := w.conn.preauth.update reply }) := by
    simp only [preauthAfter, cmd, if_true, updatePreauth, modifyConn_apply]
  have handler (w : World σ η) :
      dispatchCommand server hdr body w = Negotiate.handle server body w := by
    simp only [dispatchCommand, cmd]
  simp only [runHandler, Action.bind_apply, getConn_apply, Action.pure_apply, handler, before,
    after, World.setConn_conn, (alike_record _ _ _).conn]
  have outcome := Negotiate.handle_outcome server body
    (w.setConn { w.conn with preauth := w.conn.preauth.update frame })
  have noSnapshot := Negotiate.handle_noSnapshot server body
    (w.setConn { w.conn with preauth := w.conn.preauth.update frame })
  revert outcome noSnapshot
  generalize Negotiate.handle server body
    (w.setConn { w.conn with preauth := w.conn.preauth.update frame }) = result
  obtain ⟨resp, w₂⟩ := result
  intro outcome noSnapshot
  dsimp only at outcome noSnapshot ⊢
  -- a snapshot is what a logon takes, and this is none
  rw [takeSnapshot_of_none _ noSnapshot]
  cases outcome with
  | refused _ none =>
    rw [picks] at none
    cases none
  | committed d' guid sized count offset now rest _ picks' conn =>
    obtain rfl := Option.some.inj (picks.symm.trans picks')
    have status := readU32_status_buildResponseBytes w₂.conn hdr
      { HandlerResponse.ok ((Negotiate.response server sized d.asU16
        Negotiate.negotiateCapabilities count offset now).write ++ rest) with skipSigning := true }
    refine ⟨status, fun after => laidOut_unsigned _ after hdr _ rfl, ?_, ?_, ?_, ?_, ?_⟩
    all_goals rw [conn]; rfl

/-! ### The rounds of a SESSION_SETUP -/

namespace SessionSetup

/-- The body opens an exchange. -/
def Opens (body : Bytes) : Prop := ∃ token, validate body = .ok token ∧ token.isFirstRound = true

/-- The body continues an exchange. -/
def Continues (body : Bytes) : Prop :=
  ∃ token, validate body = .ok token ∧ token.isFirstRound = false

/-- A round of a SESSION_SETUP: it fails, having taken the acceptor if it continues an exchange; or
it is challenged under a fresh id; or it completes the exchange of its id. -/
inductive Round (sid : UInt64) (body : Bytes) (conn : Connection η) :
    HandlerResponse → Connection η → Prop where
  | failed (status : NtStatus) (next : UInt64) (acceptors : Table UInt64 (NtlmServer × Bool))
      (noSuccess : status ≠ statusSuccess) (noChallenge : status ≠ statusMoreProcessingRequired)
      (others : ∀ sid', sid' ≠ sid → acceptors.lookup sid' = conn.pendingAuths.lookup sid')
      (own : acceptors.lookup sid = conn.pendingAuths.lookup sid ∨ acceptors.lookup sid = none)
      (taken : sid ≠ 0 → Continues body → acceptors.lookup sid = none) :
      Round sid body conn (.err status)
        { conn with nextSessionId := next, pendingAuths := acceptors }
  | challenged (resp : HandlerResponse) (next newSid : UInt64) (acceptor : NtlmServer × Bool)
      (opens : Opens body) (status : resp.status = statusMoreProcessingRequired)
      (id : resp.overrideSessionId = some newSid) (skip : resp.skipSigning = true)
      (noSnapshot : resp.takePreauthSnapshotForSession = none) :
      Round sid body conn resp
        { conn with
          nextSessionId := next
          pendingAuths := conn.pendingAuths.insert newSid acceptor }
  | completed (outcome : AuthOutcome) (rawForm : Bool) (d : Dialect) (nonzero : sid ≠ 0)
      (pending : (conn.pendingAuths.lookup sid).isSome) (dialect : conn.dialect = some d) :
      Round sid body conn (success sid outcome rawForm d)
        (insertSession sid (newSession sid outcome d)
          { conn with pendingAuths := conn.pendingAuths.erase sid })

theorem firstRound_round (server : ServerState) (sid : UInt64) (body : Bytes) (token : Token)
    (valid : validate body = .ok token) (first : token.isFirstRound = true) (w : World σ η) :
    Round sid body w.conn (firstRound server token w).1 (firstRound server token w).2.conn := by
  have opens : Opens body := ⟨token, valid, first⟩
  simp only [firstRound, Action.bind_apply, allocSessionId]
  generalize challenged : SmbServer.fillRandom 8 (w.setConn
    { w.conn with nextSessionId := w.conn.nextSessionId + 1 }) = drawn
  obtain ⟨challenge, w₁⟩ := drawn
  generalize timed : SmbServer.nowFiletime w₁ = clock
  obtain ⟨now, w₂⟩ := clock
  -- the challenge and the clock come from the host; of the connection only the counter has moved
  have same : w₂.conn = { w.conn with nextSessionId := w.conn.nextSessionId + 1 } := by
    have first := congrArg (fun r => r.2.conn) challenged
    have second := congrArg (fun r => r.2.conn) timed
    exact second.symm.trans first.symm
  dsimp only
  cases NtlmServer.step1Negotiate _ token.innerToken with
  | none =>
    simp only [Action.pure_apply, same]
    refine .failed statusLogonFailure _ w.conn.pendingAuths (by decide) (by decide)
      (fun _ _ => rfl) (.inl rfl) ?_
    -- a body of the first leg does not continue an exchange
    rintro - ⟨token', valid', later⟩
    obtain rfl := Except.ok.inj (valid.symm.trans valid')
    rw [first] at later
    cases later
  | some acceptor =>
    simp only [Action.bind_apply, modifyConn_apply, Action.pure_apply, World.setConn_conn, same]
    exact .challenged _ _ _ _ opens rfl rfl rfl rfl

omit [Host σ η] in
theorem finalRound_round (server : ServerState) (sid : UInt64) (body : Bytes) (token : Token)
    (w : World σ η) :
    Round sid body w.conn (finalRound server sid token w).1
      (finalRound server sid token w).2.conn := by
  rw [finalRound]
  by_cases zero : sid = 0
  · rw [if_pos zero]
    exact .failed statusInvalidParameter _ w.conn.pendingAuths (by decide) (by decide)
      (fun _ _ => rfl) (.inl rfl) fun nonzero => absurd zero nonzero
  rw [if_neg zero, Action.bind_apply, takeAcceptor]
  cases found : w.conn.pendingAuths.lookup sid with
  | none =>
    exact .failed statusUserSessionDeleted _ w.conn.pendingAuths (by decide) (by decide)
      (fun _ _ => rfl) (.inl rfl) fun _ _ => found
  | some pair =>
    obtain ⟨acceptor, rawForm⟩ := pair
    -- behind this point the acceptor is out of the table, whatever the outcome
    have refused (status : NtStatus) (noSuccess : status ≠ statusSuccess)
        (noChallenge : status ≠ statusMoreProcessingRequired) :
        Round sid body w.conn (.err status)
          { w.conn with pendingAuths := w.conn.pendingAuths.erase sid } := by
      refine .failed status _ _ noSuccess noChallenge (fun sid' other => ?_)
        (.inr (Table.lookup_erase_self _ _)) fun _ _ => Table.lookup_erase_self _ _
      rw [Table.lookup_erase, if_neg other]
    generalize taken : w.setConn
      { w.conn with pendingAuths := w.conn.pendingAuths.erase sid } = w₁
    have same : w₁.conn = { w.conn with pendingAuths := w.conn.pendingAuths.erase sid } := by
      rw [← taken, World.setConn_conn]
    rw [← same] at refused
    dsimp only
    cases logon server.users server.anonymousAllowed acceptor token.innerToken with
    | none => exact refused statusLogonFailure (by decide) (by decide)
    | some outcome =>
      simp only [Action.bind_apply, getConn_apply]
      cases dialect : w₁.conn.dialect with
      | none => exact refused statusInvalidParameter (by decide) (by decide)
      | some d =>
        have before : w.conn.dialect = some d := by rwa [same] at dialect
        simp only [Action.bind_apply, modifyConn_apply, Action.pure_apply, World.setConn_conn, same]
        exact .completed outcome rawForm d zero (by simp [found]) before

omit [Host σ η] [Crypto] in
/-- A body that does not parse is answered with an error of its own. -/
theorem validate_error {body : Bytes} {status : NtStatus} (h : validate body = .error status) :
    status ≠ statusSuccess ∧ status ≠ statusMoreProcessingRequired := by
  have invalid : statusInvalidParameter ≠ statusSuccess ∧
    statusInvalidParameter ≠ statusMoreProcessingRequired := by decide
  have failure : statusLogonFailure ≠ statusSuccess ∧
    statusLogonFailure ≠ statusMoreProcessingRequired := by decide
  have unsupported : statusNotSupported ≠ statusSuccess ∧
    statusNotSupported ≠ statusMoreProcessingRequired := by decide
  -- every way out of the parser has one of the three statuses
  rw [validate] at h
  split at h
  · exact Except.error.inj h ▸ invalid
  split at h
  · exact Except.error.inj h ▸ invalid
  rw [decodeBlob] at h
  split at h
  · cases h
  split at h
  · split at h
    · exact Except.error.inj h ▸ failure
    split at h
    · exact Except.error.inj h ▸ unsupported
    · cases h
  · split at h
    · exact Except.error.inj h ▸ failure
    · cases h

theorem handle_round (server : ServerState) (hdr : Smb2Header) (body : Bytes) (w : World σ η) :
    Round hdr.sessionId body w.conn (handle server hdr body w).1
      (handle server hdr body w).2.conn := by
  rw [handle]
  cases valid : validate body with
  | error status =>
    obtain ⟨noSuccess, noChallenge⟩ := validate_error valid
    refine .failed status _ w.conn.pendingAuths noSuccess noChallenge (fun _ _ => rfl) (.inl rfl) ?_
    rintro - ⟨token, valid', -⟩
    rw [valid] at valid'
    cases valid'
  | ok token =>
    dsimp only
    cases first : token.isFirstRound with
    | true => exact firstRound_round server hdr.sessionId body token valid first w
    | false => exact finalRound_round server hdr.sessionId body token w

end SessionSetup

/-! ### The hashing around a round -/

/-- The hash that a SESSION_SETUP continues. -/
def Connection.continued (conn : Connection η) (sid : UInt64) : PreauthIntegrity :=
  (if sid ≠ 0 then conn.sessionPreauth.lookup sid else none).getD conn.preauth

omit [Host σ η] [Crypto] in
/-- The hash is taken out of the table. -/
theorem takeSessionPreauth_eq (sid : UInt64) (w : World σ η) :
    ∃ hashes : Table UInt64 PreauthIntegrity,
      (∀ sid', hashes.lookup sid' = if sid' = sid ∧ sid' ≠ 0 then none
        else w.conn.sessionPreauth.lookup sid') ∧
      takeSessionPreauth sid w = (w.conn.continued sid,
        w.setConn { w.conn with sessionPreauth := hashes }) := by
  rw [takeSessionPreauth, Connection.continued]
  -- a request without a session id takes nothing
  cases found : (if sid ≠ 0 then w.conn.sessionPreauth.lookup sid else none) with
  | none =>
    refine ⟨w.conn.sessionPreauth, fun sid' => ?_, rfl⟩
    split
    next same =>
      obtain ⟨rfl, nonzero⟩ := same
      rwa [if_pos nonzero] at found
    next => rfl
  | some p =>
    refine ⟨w.conn.sessionPreauth.erase sid, fun sid' => ?_, rfl⟩
    have nonzero : sid ≠ 0 := by
      rintro rfl
      simp at found
    rw [Table.lookup_erase]
    by_cases same : sid' = sid
    · simp [same, nonzero]
    · simp [same]

omit [Host σ η] in
theorem preauthBefore_latest (hdr : Smb2Header) (frame : Bytes) (w : World σ η)
    (cmd : hdr.command = .sessionSetup) (latest : w.conn.dialect = some .smb311) :
    preauthBefore hdr frame w = (some ((takeSessionPreauth hdr.sessionId w).1.update frame),
      (takeSessionPreauth hdr.sessionId w).2) := by
  simp only [preauthBefore, Action.bind_apply, getConn_apply, cmd, reduceCtorEq, if_false, latest,
    and_self, if_true, Action.pure_apply]

omit [Host σ η] in
/-- Behind the response it is stored under the id of a challenge, and dropped otherwise. -/
theorem preauthAfter_latest (hdr : Smb2Header) (p : PreauthIntegrity) (reply : Bytes)
    (w : World σ η) {dialect : Option Dialect} (cmd : hdr.command = .sessionSetup)
    (latest : dialect = some .smb311) :
    (preauthAfter hdr dialect (some p) reply w).2.conn =
      { w.conn with
        sessionPreauth :=
          if readU32 reply 0x08 = statusMoreProcessingRequired then
            w.conn.sessionPreauth.insert (readU64 reply 0x28) (p.update reply)
          else w.conn.sessionPreauth.erase hdr.sessionId } := by
  simp only [preauthAfter, cmd, reduceCtorEq, if_false, latest, and_self, if_true]
  split <;> rfl

/-- What a SESSION_SETUP over 3.1.1 does to the hashes. -/
inductive SessionSetup.Hashed (sid : UInt64) (frame body : Bytes) (conn : Connection η) :
    Bytes → Connection η → Prop where
  | failed (reply : Bytes) (next : UInt64) (hashes : Table UInt64 PreauthIntegrity)
      (acceptors : Table UInt64 (NtlmServer × Bool))
      (noSuccess : readU32 reply 0x08 ≠ statusSuccess)
      (noChallenge : readU32 reply 0x08 ≠ statusMoreProcessingRequired)
      (dropped : ∀ sid', hashes.lookup sid' =
        if sid' = sid then none else conn.sessionPreauth.lookup sid')
      (others : ∀ sid', sid' ≠ sid → acceptors.lookup sid' = conn.pendingAuths.lookup sid')
      (own : acceptors.lookup sid = conn.pendingAuths.lookup sid ∨ acceptors.lookup sid = none)
      (taken : sid ≠ 0 → Continues body → acceptors.lookup sid = none) :
      Hashed sid frame body conn reply
        { conn with
          nextSessionId := next
          sessionPreauth := hashes
          pendingAuths := acceptors }
  | challenged (reply : Bytes) (next newSid : UInt64) (hashes : Table UInt64 PreauthIntegrity)
      (acceptor : NtlmServer × Bool) (opens : Opens body)
      (status : readU32 reply 0x08 = statusMoreProcessingRequired)
      (id : readU64 reply 0x28 = newSid)
      (asBuilt : ∀ after : Connection η, laidOut after true reply = reply)
      (stored : ∀ sid', hashes.lookup sid' =
        if sid' = newSid then some (((conn.continued sid).update frame).update reply)
        else if sid' = sid ∧ sid' ≠ 0 then none else conn.sessionPreauth.lookup sid') :
      Hashed sid frame body conn reply
        { conn with
          nextSessionId := next
          sessionPreauth := hashes
          pendingAuths := conn.pendingAuths.insert newSid acceptor }
  | completed (reply : Bytes) (sess : Session η) (sessions : Table UInt64 (Session η))
      (hashes : Table UInt64 PreauthIntegrity) (nonzero : sid ≠ 0)
      (status : readU32 reply 0x08 = statusSuccess) (id : readU64 reply 0x28 = sid)
      (pending : (conn.pendingAuths.lookup sid).isSome)
      (snapshot : sess.preauthSnapshot = some ((conn.continued sid).update frame))
      (logon : ∀ sid', sessions.lookup sid' =
        if sid' = sid then some sess else conn.sessions.lookup sid')
      (dropped : ∀ sid', hashes.lookup sid' =
        if sid' = sid then none else conn.sessionPreauth.lookup sid') :
      Hashed sid frame body conn reply
        { conn with
          sessions := sessions
          sessionPreauth := hashes
          pendingAuths := conn.pendingAuths.erase sid }

theorem runHandler_latest (server : ServerState) (hdr : Smb2Header) (frame body : Bytes)
    (w : World σ η) (cmd : hdr.command = .sessionSetup)
    (latest : w.conn.dialect = some .smb311) :
    SessionSetup.Hashed hdr.sessionId frame body w.conn (runHandler server hdr frame body w).1
      (runHandler server hdr frame body w).2.conn := by
  obtain ⟨hashes, without, taken⟩ := takeSessionPreauth_eq hdr.sessionId w
  -- the hash is taken out, continued with the request, and handed over
  have before := preauthBefore_latest hdr frame w cmd latest
  rw [taken] at before
  have handler (w : World σ η) :
      dispatchCommand server hdr body w = SessionSetup.handle server hdr body w := by
    simp only [dispatchCommand, cmd]
  simp only [runHandler, Action.bind_apply, getConn_apply, Action.pure_apply, handler, before]
  generalize hashed : (w.conn.continued hdr.sessionId).update frame = p
  have round := SessionSetup.handle_round server hdr body
    (w.setConn { w.conn with sessionPreauth := hashes })
  rw [World.setConn_conn] at round
  revert round
  generalize SessionSetup.handle server hdr body
    (w.setConn { w.conn with sessionPreauth := hashes }) = result
  obtain ⟨resp, ⟨conn₂, env⟩⟩ := result
  intro round
  dsimp only at round ⊢
  have status (conn : Connection η) : readU32 (buildResponseBytes conn hdr resp) 0x08 =
      resp.status := readU32_status_buildResponseBytes conn hdr resp
  have sessionId (conn : Connection η) : readU64 (buildResponseBytes conn hdr resp) 0x28 =
      resp.overrideSessionId.getD hdr.sessionId := readU64_buildResponseBytes conn hdr resp
  rw [preauthAfter_latest hdr p _ _ cmd latest]
  simp only [status, sessionId, (alike_record _ _ _).conn]
  have erased (sid : UInt64) : (hashes.erase hdr.sessionId).lookup sid =
      if sid = hdr.sessionId then none else w.conn.sessionPreauth.lookup sid := by
    rw [Table.lookup_erase, without]
    by_cases same : sid = hdr.sessionId <;> simp [same]
  -- it comes back for a challenge only; a logon takes it along in the session
  cases round with
  | failed status' next acceptors noSuccess noChallenge others own taken =>
    have noMore : (HandlerResponse.err status').status ≠ statusMoreProcessingRequired := noChallenge
    rw [takeSnapshot_of_none _ rfl, if_neg noMore]
    exact .failed _ next _ acceptors (by rwa [status]) (by rwa [status]) erased others own taken
  | challenged _ next newSid acceptor opens challenge id skip noSnapshot =>
    rw [takeSnapshot_of_none _ noSnapshot, if_pos challenge]
    refine .challenged _ next newSid _ acceptor opens ((status _).trans challenge) ?_
      (fun after => laidOut_unsigned _ after hdr resp skip) fun sid => ?_
    · rw [sessionId, id, Option.getD_some]
    · rw [id, Option.getD_some, Table.lookup_insert, without, hashed]
  | completed outcome rawForm d nonzero pending dialect =>
    obtain rfl := Option.some.inj (latest.symm.trans dialect)
    have noMore : (SessionSetup.success hdr.sessionId outcome rawForm .smb311).status ≠
      statusMoreProcessingRequired := (by decide : statusSuccess ≠ statusMoreProcessingRequired)
    have stash (w : World σ η) :
        takeSnapshot (SessionSetup.success hdr.sessionId outcome rawForm .smb311) (some p) w =
          ((), w.setConn (w.conn.modifySession hdr.sessionId (stashSnapshot p w.conn))) := by
      simp only [takeSnapshot, SessionSetup.success, if_true, modifyConn_apply]
    rw [stash, if_neg noMore]
    let inserted : Connection η := SessionSetup.insertSession hdr.sessionId
      (SessionSetup.newSession hdr.sessionId outcome .smb311)
      { w.conn with
        sessionPreauth := hashes
        pendingAuths := w.conn.pendingAuths.erase hdr.sessionId }
    refine .completed _
      (stashSnapshot p inserted (SessionSetup.newSession hdr.sessionId outcome .smb311)) _ _
      nonzero (status _) (sessionId _) pending ?_ (fun sid => ?_) erased
    · rw [hashed, stashSnapshot]
      split <;> rfl
    · simp only [World.setConn_conn, Connection.lookup_modifySession, SessionSetup.insertSession,
        Table.lookup_insert]
      by_cases same : sid = hdr.sessionId
      · simp only [same, if_true, Option.map_some]
        rfl
      · simp only [same, if_false]

/-- Over an older dialect nothing is hashed, and a logon has no snapshot. -/
theorem runHandler_older (server : ServerState) (hdr : Smb2Header) (frame body : Bytes)
    (w : World σ η) (cmd : hdr.command = .sessionSetup)
    (older : w.conn.dialect ≠ some .smb311) :
    ∃ resp, SessionSetup.Round hdr.sessionId body w.conn resp
      (runHandler server hdr frame body w).2.conn := by
  -- the hashing in front of the handler and behind it asks for 3.1.1
  have before : preauthBefore hdr frame w = (none, w) := by
    simp only [preauthBefore, Action.bind_apply, getConn_apply, cmd, reduceCtorEq, if_false, older,
      and_false, Action.pure_apply]
  have after (reply : Bytes) (w' : World σ η) :
      preauthAfter hdr w.conn.dialect none reply w' = ((), w') := by
    simp only [preauthAfter, cmd, reduceCtorEq, if_false, older, and_false, Action.pure_apply]
  have handler : dispatchCommand server hdr body w = SessionSetup.handle server hdr body w := by
    simp only [dispatchCommand, cmd]
  simp only [runHandler, Action.bind_apply, getConn_apply, Action.pure_apply, before, after,
    handler, (alike_record _ _ _).conn]
  have round := SessionSetup.handle_round server hdr body w
  revert round
  generalize SessionSetup.handle server hdr body w = result
  obtain ⟨resp, ⟨conn₂, env⟩⟩ := result
  intro round
  have noSnapshot : resp.takePreauthSnapshotForSession = none := by
    cases round with
    | failed => rfl
    | challenged _ _ _ _ _ _ _ _ noSnapshot => exact noSnapshot
    | completed outcome rawForm d _ _ dialect =>
      have another : d ≠ .smb311 := fun same => older (same ▸ dialect)
      simp only [another, if_false]
  rw [takeSnapshot_of_none _ noSnapshot]
  exact ⟨resp, round⟩

end SmbServer
