import SmbServer.Client
import SmbServer.Effects.Preauth

/-!
# SmbServer.Properties.PreauthTranscript

The preauth snapshot of an SMB 3.1.1 session.

Main result:

  Over every run, the snapshot of every 3.1.1 session is the hash chain over the accepted NEGOTIATE,
  its response, the SESSION_SETUP that opened the exchange, the challenge, and the SESSION_SETUP
  that completed it, as they went over the wire, provided that a connection negotiates once and
  with nothing pending, that a SESSION_SETUP with the id of a pending exchange continues it, and
  that what is hashed is dispatched as it was received and sent as it was built.

Proof strategy: an observer keeps the messages of each connection by what the replies say. The
running hashes of a connection are the chains over the observer's messages; each element is one
case, and a frame is its elements one after another.
-/

namespace SmbServer

open Lib

/-! ### What goes over the wire -/

/-- An element as it was received, the reply that was built for it, and what was sent of it. -/
structure Passage where
  request : Bytes
  reply : Option Bytes
  sent : Option Bytes

/-- The five messages of a logon. -/
structure LogonMessages where
  negotiate : Bytes
  negotiated : Bytes
  setup : Bytes
  challenge : Bytes
  authenticate : Bytes

/-- The hash chain over the messages, in their order. -/
def LogonMessages.hash [Crypto] (m : LogonMessages) : PreauthIntegrity :=
  ((((PreauthIntegrity.new.update m.negotiate).update m.negotiated).update m.setup).update
    m.challenge).update m.authenticate

/-- What an observer of one connection keeps: the accepted NEGOTIATE, the opening round of each
session id, and the messages of each logon that completed. -/
structure Transcript where
  negotiate : Option (Bytes × Option Bytes)
  rounds : UInt64 → Option (Bytes × Option Bytes)
  established : UInt64 → Option LogonMessages

namespace Transcript

def empty : Transcript := ⟨none, fun _ => none, fun _ => none⟩

/-- The messages of a logon that completes with this request. -/
def logon (t : Transcript) (sid : UInt64) (authenticate : Bytes) : Option LogonMessages := do
  let (negotiate, negotiated) ← t.negotiate
  let (setup, challenge) ← t.rounds sid
  return ⟨negotiate, ← negotiated, setup, ← challenge, authenticate⟩

/-- One passage; the status and the session id of the reply say which message it is. -/
def observe (t : Transcript) (p : Passage) : Transcript :=
  match Smb2Header.parse p.request, p.reply with
  | some (hdr, _), some reply =>
    let status := readU32 reply 0x08
    let sid := readU64 reply 0x28
    if hdr.command = .negotiate then
      if status = statusSuccess then { t with negotiate := some (p.request, p.sent) } else t
    else if hdr.command = .sessionSetup then
      if status = statusMoreProcessingRequired then
        { t with rounds := Function.update t.rounds sid (some (p.request, p.sent)) }
      else if status = statusSuccess then
        { t with established := Function.update t.established sid (t.logon sid p.request) }
      else t
    else t
  | _, _ => t

end Transcript

section
variable {σ η : Type}

/-- What goes over the wire for an exchange: its reply in its place, if the frame is answered. -/
def Exchange.passage [Crypto] (answered : Bool) (after : Connection η) (x : Exchange η)
    (behind : List (Exchange η)) : Passage where
  request := x.element.received
  reply := x.reply
  sent := if answered then x.reply.map (laidOut after (behind.all (·.reply.isNone))) else none

def passages [Crypto] (answered : Bool) (after : Connection η) : List (Exchange η) → List Passage
  | [] => []
  | x :: behind => x.passage answered after behind :: passages answered after behind

variable [Host σ η] [Crypto]

/-- The passages of a frame. -/
def framePassages (server : ServerState) (frame : Bytes) (w : World σ η) : List Passage :=
  match smb1Choice frame with
  | some _ => []
  | none =>
    passages (dispatchFrame server frame w).1.isSome (dispatchFrame server frame w).2.conn
      (frameExchanges server frame w)

omit [Host σ η] [Crypto] in
private theorem all_isNone (xs : List (Exchange η)) :
    xs.all (·.reply.isNone) = (xs.filterMap (·.reply)).isEmpty := by
  induction xs with
  | nil => rfl
  | cons x rest ih =>
    rw [List.all_cons, List.filterMap_cons, ih]
    cases x.reply <;> rfl

omit [Host σ η] in
private theorem filterMap_passages (after : Connection η) (xs : List (Exchange η)) :
    (passages true after xs).filterMap (·.sent) = stitched after (xs.filterMap (·.reply)) := by
  induction xs with
  | nil => rfl
  | cons x behind ih =>
    rw [passages, List.filterMap_cons, List.filterMap_cons, ih, Exchange.passage, all_isNone]
    cases x.reply with
    | none => rfl
    | some reply => cases behind.filterMap (·.reply) <;> rfl

omit [Host σ η] in
private theorem map_passages (answered : Bool) (after : Connection η) (xs : List (Exchange η)) :
    (passages answered after xs).map (·.request) = xs.map (·.element.received) := by
  induction xs with
  | nil => rfl
  | cons x behind ih =>
    rw [passages, List.map_cons, List.map_cons, ih]
    rfl

/-- The passages of a frame are what goes over the wire: the split of the frame, and the split of
the payload that answers it. -/
theorem framePassages_wire (server : ServerState) (frame payload : Bytes) (w : World σ η)
    (noSmb1 : smb1Choice frame = none) (answer : (dispatchFrame server frame w).1 = some payload)
    (short : payload.length < 2 ^ 32) :
    (framePassages server frame w).map (·.request) = splitCompound frame ∧
      (framePassages server frame w).filterMap (·.sent) = splitCompound payload := by
  have executed := exchanges_executed (frame.length + 1) server frame initialContext 0 w
  have received := splitPayload_eq (frame.length + 1) server frame initialContext 0 w
  have whole := dispatchFrame_eq server frame payload w noSmb1 answer
  simp only [framePassages, noSmb1, answer, Option.isSome_some, map_passages, filterMap_passages]
  refine ⟨received.symm, ?_⟩
  rw [whole] at short ⊢
  refine (splitCompound_stitch _ _ (fun r member => ?_) short).symm
  obtain ⟨x, here, sent⟩ := List.mem_filterMap.mp member
  obtain ⟨w', done⟩ := executed x here
  obtain ⟨conn, hdr, resp, -, rfl, -⟩ :=
    dispatchOne_built server x.element.bytes x.element.ordinal w' r (done.reply.trans sent)
  exact response_buildResponseBytes conn hdr resp

/-! ### The hashes of a connection and its transcript -/

namespace Transcript

/-- The hashes of a 3.1.1 connection are chains over the transcript. -/
structure Latest (t : Transcript) (conn : Connection η) : Prop where
  negotiated : ∃ request reply, t.negotiate = some (request, some reply) ∧
    conn.preauth = (PreauthIntegrity.new.update request).update reply
  pending : ∀ sid, sid ≠ 0 →
    (conn.pendingAuths.lookup sid).isSome = (conn.sessionPreauth.lookup sid).isSome
  rounds : ∀ sid p, sid ≠ 0 → conn.sessionPreauth.lookup sid = some p →
    ∃ setup challenge, t.rounds sid = some (setup, some challenge) ∧
      p = (conn.preauth.update setup).update challenge
  established : ∀ sid v, conn.sessionView sid = some v →
    ∃ m, t.established sid = some m ∧ v.preauthSnapshot = some m.hash

/-- The connection before its NEGOTIATE, over an older dialect, and over 3.1.1. -/
structure Hashes (t : Transcript) (conn : Connection η) : Prop where
  fresh : conn.dialect = none →
    conn.preauth = PreauthIntegrity.new ∧ ∀ sid, conn.sessionView sid = none
  older : conn.dialect ≠ some .smb311 → (∀ sid, conn.sessionPreauth.lookup sid = none) ∧
    ∀ sid v, conn.sessionView sid = some v → v.preauthSnapshot = none
  latest : conn.dialect = some .smb311 → t.Latest conn

omit [Host σ η] in
theorem Latest.hashes {t : Transcript} {conn : Connection η} (h : t.Latest conn)
    (latest : conn.dialect = some .smb311) : t.Hashes conn :=
  ⟨fun none => (by rw [latest] at none; cases none), fun older => absurd latest older, fun _ => h⟩

omit [Host σ η] in
theorem Hashes.mono {t : Transcript} {conn conn' : Connection η} (h : t.Hashes conn)
    (same : Unhashed conn conn')
    (sessions : ∀ sid v, conn'.sessionView sid = some v → conn.sessionView sid = some v) :
    t.Hashes conn' := by
  obtain ⟨dialect, preauth, sessionPreauth, pendingAuths⟩ := same
  -- one clause for each dialect state; the fields it reads are the same in both connections
  refine ⟨fun none => ?_, fun older => ?_, fun latest => ?_⟩
  · obtain ⟨new, gone⟩ := h.fresh (dialect ▸ none)
    refine ⟨preauth.trans new, fun sid => ?_⟩
    cases seen : conn'.sessionView sid with
    | none => rfl
    | some v => exact nomatch (gone sid).symm.trans (sessions sid v seen)
  · obtain ⟨empty, plain⟩ := h.older (dialect ▸ older)
    exact ⟨sessionPreauth ▸ empty, fun sid v seen => plain sid v (sessions sid v seen)⟩
  · obtain ⟨negotiated, pending, rounds, established⟩ := h.latest (dialect ▸ latest)
    refine ⟨?_, ?_, ?_, fun sid v seen => established sid v (sessions sid v seen)⟩
    · rwa [preauth]
    · rwa [pendingAuths, sessionPreauth]
    · rwa [sessionPreauth, preauth]

end Transcript

/-- The element is one that the hashes follow: a NEGOTIATE comes first, and with nothing pending;
a SESSION_SETUP continues the exchange whose id it carries; and what is hashed is dispatched as it
was received, and answered at the end of the payload (`closes`). -/
def Element.Followed (conn : Connection η) (e : Element) (closes : Prop) : Prop :=
  ∀ hdr body, Accepted conn e.bytes hdr body →
    (hdr.command = .negotiate → conn.dialect = none ∧
      ∃ d, Negotiate.picks body = some d ∧ (d = .smb311 →
        (∀ sid, conn.pendingAuths.lookup sid = none) ∧ e.bytes = e.received ∧ closes)) ∧
    (hdr.command = .sessionSetup → conn.dialect = some .smb311 →
      e.bytes = e.received ∧ (SessionSetup.Opens body → closes) ∧
        (hdr.sessionId ≠ 0 → (conn.pendingAuths.lookup hdr.sessionId).isSome →
          SessionSetup.Continues body))

/-! ### One element -/

namespace Transcript

omit [Host σ η] [Crypto] in
private theorem observe_ignored (t : Transcript) (request : Bytes) (reply sent : Option Bytes)
    (other : ∀ hdr body bytes, Smb2Header.parse request = some (hdr, body) → reply = some bytes →
      (hdr.command ≠ .negotiate ∧ hdr.command ≠ .sessionSetup) ∨
        readU32 bytes 0x08 ≠ statusSuccess ∧
          readU32 bytes 0x08 ≠ statusMoreProcessingRequired) :
    t.observe ⟨request, reply, sent⟩ = t := by
  simp only [observe]
  split
  next hdr body bytes parsed =>
    rcases other hdr body bytes parsed rfl with ⟨noNegotiate, noSetup⟩ | ⟨noSuccess, noChallenge⟩
    · simp only [noNegotiate, noSetup, if_false]
    · simp only [noSuccess, noChallenge, if_false, ite_self]
  next => rfl

omit [Host σ η] in
theorem Hashes.negotiate {t : Transcript} {conn conn' : Connection η} {d : Dialect}
    {frame reply : Bytes} (h : t.Hashes conn) (t' : Transcript) (fresh : conn.dialect = none)
    (hashed : Negotiate.Hashed d frame conn reply conn')
    (kept : d = .smb311 → (∀ sid, conn.pendingAuths.lookup sid = none) ∧
      t'.negotiate = some (frame, some reply)) : t'.Hashes conn' := by
  obtain ⟨new, gone⟩ := h.fresh fresh
  obtain ⟨empty, -⟩ := h.older (by simp [fresh])
  -- nothing was dispatched before the dialect was set, so there is no session to speak of
  have nobody (sid : UInt64) : conn'.sessionView sid = none := by
    rw [Connection.sessionView, hashed.sessions]
    exact gone sid
  refine ⟨fun none => ?_, fun _ => ⟨fun sid => ?_, fun sid v seen => ?_⟩, fun latest => ?_⟩
  · rw [hashed.dialect] at none
    cases none
  · rw [hashed.sessionPreauth, empty]
  · rw [nobody] at seen
    cases seen
  · obtain ⟨idle, negotiated⟩ := kept (Option.some.inj (hashed.dialect.symm.trans latest))
    refine ⟨⟨frame, reply, negotiated, ?_⟩, fun sid _ => ?_, fun sid p _ found => ?_,
      fun sid v seen => ?_⟩
    -- the running hash starts at zero, as the transcript's does
    · rw [hashed.preauth, new]
    · rw [hashed.pendingAuths, hashed.sessionPreauth, idle, empty]
      rfl
    · rw [hashed.sessionPreauth, empty] at found
      cases found
    · rw [nobody] at seen
      cases seen

omit [Host σ η] in
/-- A round over an older dialect. -/
theorem Hashes.older_round {t : Transcript} {conn conn' : Connection η} {sid : UInt64}
    {body : Bytes} {resp : HandlerResponse} (h : t.Hashes conn) (t' : Transcript)
    (older : conn.dialect ≠ some .smb311)
    (round : SessionSetup.Round sid body conn resp conn') : t'.Hashes conn' := by
  obtain ⟨empty, plain⟩ := h.older older
  cases round with
  | failed | challenged =>
    exact ⟨h.fresh, fun _ => ⟨empty, plain⟩, fun latest => absurd latest older⟩
  | completed outcome rawForm d nonzero pending dialect =>
    refine ⟨fun none => ?_, fun _ => ⟨empty, fun sid' v seen => ?_⟩,
      fun latest => absurd latest older⟩
    · exact nomatch dialect.symm.trans none
    · simp only [Connection.sessionView, SessionSetup.insertSession, Table.lookup_insert] at seen
      split at seen
      · obtain rfl := Option.some.inj seen
        rfl
      · exact plain sid' v seen

omit [Host σ η] in
/-- A round over 3.1.1. -/
theorem Hashes.latest_round {t : Transcript} {conn conn' : Connection η} {sid : UInt64}
    {frame body reply : Bytes} {hdr : Smb2Header} {rest : Bytes} (sent : Option Bytes)
    (h : t.Hashes conn) (latest : conn.dialect = some .smb311)
    (parsed : Smb2Header.parse frame = some (hdr, rest)) (cmd : hdr.command = .sessionSetup)
    (hashed : SessionSetup.Hashed sid frame body conn reply conn')
    (asSent : SessionSetup.Opens body → (∀ after : Connection η, laidOut after true reply = reply) →
      sent = some reply)
    (continues : sid ≠ 0 → (conn.pendingAuths.lookup sid).isSome → SessionSetup.Continues body) :
    (t.observe ⟨frame, some reply, sent⟩).Hashes conn' := by
  obtain ⟨⟨request, negotiated, kept, preauth⟩, pending, rounds, established⟩ := h.latest latest
  have more : statusMoreProcessingRequired ≠ statusSuccess := by decide
  cases hashed with
  -- the reply is not of a status that the transcript notes, so it stays as it is
  | failed next hashes acceptors noSuccess noChallenge dropped others own taken =>
    rw [observe_ignored t _ _ _ fun _ _ bytes _ same => by
      obtain rfl := Option.some.inj same
      exact .inr ⟨noSuccess, noChallenge⟩]
    refine Latest.hashes ⟨⟨request, negotiated, kept, preauth⟩, fun sid' nonzero => ?_,
      fun sid' p nonzero found => ?_, established⟩ latest
    · rw [dropped]
      by_cases same : sid' = sid
      · -- what was pending under this id has been taken
        subst same
        have gone : acceptors.lookup sid' = none := by
          cases waiting : conn.pendingAuths.lookup sid' with
          | none => exact own.elim (fun same => same.trans waiting) id
          | some acceptor => exact taken nonzero (continues nonzero (by rw [waiting]; rfl))
        rw [gone, if_pos rfl]
        rfl
      · rw [others sid' same, if_neg same]
        exact pending sid' nonzero
    · rw [dropped] at found
      split at found
      · cases found
      · exact rounds sid' p nonzero found
  -- a first round: its hash is stored under the id that the reply hands out
  | challenged next newSid hashes acceptor opens status id asBuilt stored =>
    -- a token that opens an exchange cannot continue the one pending under its id
    have idle : sid ≠ 0 → conn.pendingAuths.lookup sid = none := by
      intro nonzero
      by_contra waiting
      obtain ⟨token, valid, first⟩ := opens
      obtain ⟨token', valid', later⟩ := continues nonzero (Option.isSome_iff_ne_none.mpr waiting)
      obtain rfl := Except.ok.inj (valid.symm.trans valid')
      rw [first] at later
      cases later
    -- so the hash that the round continues is the connection's own
    have clean : conn.continued sid = conn.preauth := by
      rw [Connection.continued]
      split
      next nonzero =>
        have same := pending sid nonzero
        rw [idle nonzero, Option.isSome_none] at same
        rw [Option.isSome_eq_false_iff.mp same.symm |> Option.isNone_iff_eq_none.mp,
          Option.getD_none]
      next => rfl
    have observed : t.observe ⟨frame, some reply, sent⟩ =
        { t with rounds := Function.update t.rounds newSid (some (frame, some reply)) } := by
      simp only [observe, parsed, cmd, reduceCtorEq, if_false, status, if_true, id, asSent opens asBuilt]
    rw [observed]
    refine Latest.hashes ⟨⟨request, negotiated, kept, preauth⟩, fun sid' nonzero => ?_,
      fun sid' p nonzero found => ?_, established⟩ latest
    · rw [stored, Table.lookup_insert]
      by_cases new : sid' = newSid
      · rw [if_pos new, if_pos new]
        rfl
      rw [if_neg new, if_neg new]
      split
      next same =>
        rw [same.1, idle (same.1 ▸ nonzero)]
        rfl
      next => exact pending sid' nonzero
    · rw [stored] at found
      by_cases new : sid' = newSid
      · rw [if_pos new, clean] at found
        exact ⟨frame, reply, by simp only [new, Function.update_self], (Option.some.inj found).symm⟩
      rw [if_neg new] at found
      split at found
      · cases found
      · obtain ⟨setup, challenge, round, chain⟩ := rounds sid' p nonzero found
        exact ⟨setup, challenge, by simp only [Function.update_of_ne new, round], chain⟩
  -- the last round: the exchange leaves the table and its hash becomes the session's snapshot
  | completed sess sessions hashes nonzero status id waiting snapshot logon dropped =>
    have stored := pending sid nonzero
    rw [waiting] at stored
    obtain ⟨p, found⟩ := Option.isSome_iff_exists.mp stored.symm
    obtain ⟨setup, challenge, round, chain⟩ := rounds sid p nonzero found
    -- all five messages are at hand
    have whole : t.logon sid frame = some ⟨request, negotiated, setup, challenge, frame⟩ := by
      simp only [Transcript.logon, kept, round]
      rfl
    have observed : t.observe ⟨frame, some reply, sent⟩ = { t with
        established := Function.update t.established sid
          (some ⟨request, negotiated, setup, challenge, frame⟩) } := by
      simp only [observe, parsed, cmd, reduceCtorEq, if_false, status, if_true, more.symm, id, whole]
    rw [observed]
    refine Latest.hashes ⟨⟨request, negotiated, kept, preauth⟩, fun sid' nonzero => ?_,
      fun sid' p nonzero found => ?_, fun sid' v seen => ?_⟩ latest
    · rw [dropped, Table.lookup_erase]
      split
      · rfl
      · exact pending sid' nonzero
    · rw [dropped] at found
      split at found
      · cases found
      · exact rounds sid' p nonzero found
    · simp only [Connection.sessionView, logon] at seen
      by_cases same : sid' = sid
      · simp only [same, if_true, Option.map_some, Option.some.injEq] at seen
        refine ⟨⟨request, negotiated, setup, challenge, frame⟩,
          by simp only [same, Function.update_self], ?_⟩
        rw [← seen, Session.view, snapshot, Connection.continued, if_pos nonzero, found,
          Option.getD_some, chain, preauth]
        rfl
      · rw [if_neg same] at seen
        obtain ⟨m, messages, hash⟩ := established sid' v seen
        exact ⟨m, by simp only [Function.update_of_ne same, messages], hash⟩

end Transcript

omit [Host σ η] in
/-- A rejected signature has a status of its own. -/
private theorem rejected_status {conn : Connection η} {hdr : Smb2Header} {frame : Bytes}
    {status : NtStatus} (rejected : verifyRequestSignature conn hdr frame = .error status) :
    status ≠ statusSuccess ∧ status ≠ statusMoreProcessingRequired := by
  have deleted : statusUserSessionDeleted ≠ statusSuccess ∧
    statusUserSessionDeleted ≠ statusMoreProcessingRequired := by decide
  have denied : statusAccessDenied ≠ statusSuccess ∧
    statusAccessDenied ≠ statusMoreProcessingRequired := by decide
  -- the two statuses that the check returns; every other branch accepts
  rw [verifyRequestSignature] at rejected
  split at rejected
  · cases rejected
  split at rejected
  · cases rejected
  dsimp only at rejected
  split at rejected
  · split at rejected
    · exact Except.error.inj rejected ▸ deleted
    · cases rejected
  split at rejected
  · split at rejected
    · cases rejected
    split at rejected
    · cases rejected
    · exact Except.error.inj rejected ▸ denied
  split at rejected
  · exact Except.error.inj rejected ▸ denied
  · cases rejected

/-- An element that is followed keeps the hashes chains over the transcript. -/
theorem dispatchOne_hashes (server : ServerState) (e : Element) (w : World σ η) (t : Transcript)
    (sent : Option Bytes) {closes : Prop} (h : t.Hashes w.conn) (followed : e.Followed w.conn closes)
    (asSent : closes → ∀ reply, (dispatchOne server e.bytes e.ordinal w).1 = some reply →
      (∀ after : Connection η, laidOut after true reply = reply) → sent = some reply) :
    (t.observe ⟨e.received, (dispatchOne server e.bytes e.ordinal w).1, sent⟩).Hashes
      (dispatchOne server e.bytes e.ordinal w).2.conn := by
  have outcome := dispatchOne_cases server e.bytes e.ordinal w
  revert outcome asSent
  generalize (dispatchOne server e.bytes e.ordinal w).1 = answer
  generalize (dispatchOne server e.bytes e.ordinal w).2 = after
  intro asSent outcome
  -- The command on the wire is the one that is executed.
  have command {hdr hdr' : Smb2Header} {body body' : Bytes}
      (parsed : Smb2Header.parse e.bytes = some (hdr, body))
      (received : Smb2Header.parse e.received = some (hdr', body')) : hdr'.command = hdr.command := by
    obtain ⟨hdr'', body'', again, same, -⟩ := e.parse_bytes received
    obtain ⟨rfl, rfl⟩ := Prod.mk.inj (Option.some.inj (again.symm.trans parsed))
    exact same.symm
  cases outcome with
  | malformed _ _ same =>
    rw [Transcript.observe_ignored t _ _ _ (by simp), same.conn]
    exact h
  | cancelled _ _ _ _ _ _ same =>
    rw [Transcript.observe_ignored t _ _ _ (by simp), same.conn]
    exact h
  | rejected hdr body status _ parsed rejected same =>
    rw [Transcript.observe_ignored t _ _ _ fun _ _ bytes _ built => by
      obtain rfl := Option.some.inj built
      rw [readU32_status_buildResponseBytes]
      exact .inr (rejected_status rejected), same.conn]
    exact h
  | handled hdr body w₁ parsed verified noCancel same =>
    obtain ⟨negotiates, sets⟩ := followed hdr body ⟨parsed, verified, noCancel⟩
    rw [← same.conn] at h negotiates sets
    by_cases cmd : hdr.command = .negotiate
    · obtain ⟨fresh, d, picks, kept⟩ := negotiates cmd
      have hashed := runHandler_commits server hdr e.bytes body w₁ cmd d picks
      refine h.negotiate _ fresh hashed fun latest => ?_
      obtain ⟨idle, received, closes⟩ := kept latest
      refine ⟨idle, ?_⟩
      rw [asSent closes _ rfl hashed.asBuilt, ← received]
      simp only [Transcript.observe, parsed, cmd, if_true, hashed.status]
    by_cases setup : hdr.command = .sessionSetup
    · by_cases latest : w₁.conn.dialect = some .smb311
      · obtain ⟨received, opens, continues⟩ := sets setup latest
        have hashed := runHandler_latest server hdr e.bytes body w₁ setup latest
        rw [← received]
        exact h.latest_round sent latest parsed setup hashed
          (fun opened => asSent (opens opened) _ rfl) continues
      · obtain ⟨resp, round⟩ := runHandler_older server hdr e.bytes body w₁ setup latest
        exact h.older_round _ latest round
    · rw [Transcript.observe_ignored t _ _ _ fun hdr' body' bytes received _ => by
        rw [command parsed received]
        exact .inl ⟨cmd, setup⟩]
      have run := runHandler_effect server hdr e.bytes body w₁
      exact h.mono (Edits.unhashed run.conn cmd setup)
        (Edits.sessionView_before run.conn setup)

/-! ### One frame -/

omit [Host σ η] [Crypto] in
private theorem sub_of_splitElement {available sub : Bytes} {hdr : Smb2Header} {next : Nat}
    (split : splitElement available = some (hdr, sub, next)) (more : next ≠ 0) :
    sub = available.take next := by
  simp only [splitElement] at split
  split at split
  · cases split
  split at split
  · obtain ⟨-, -, rfl⟩ := by simpa using split
    exact absurd rfl more
  split at split
  · cases split
  · obtain ⟨-, rfl, rfl⟩ := by simpa using split
    rfl

/-- A frame that splits to its end is executed to its end. -/
theorem dispatchElements_isSome (fuel : Nat) (server : ServerState) (available : Bytes)
    (ctx : RelatedContext) (ordinal : UInt32) (w : World σ η) (rest : available ≠ [])
    (whole : (splitPayload fuel available).flatten = available) :
    (dispatchElements fuel server available ctx ordinal w).1.isSome := by
  induction fuel generalizing available ctx ordinal w with
  -- with no fuel the split is empty, which a frame that is not empty cannot be
  | zero => exact absurd whole.symm rest
  | succ fuel ih =>
    rw [splitPayload] at whole
    rw [dispatchElements]
    cases split : splitElement available with
    | none =>
      rw [split] at whole
      exact absurd whole.symm rest
    | some parts =>
      obtain ⟨hdr, sub, next⟩ := parts
      simp only [split, Action.bind_apply] at whole ⊢
      by_cases last : next = 0 ∨ available.length ≤ next
      · simp only [last, if_true, Action.pure_apply, Option.isSome_some]
      · simp only [last, if_false, Action.bind_apply, Action.pure_apply, Option.isSome_map]
        rw [if_neg last, List.flatten_cons] at whole
        obtain ⟨positive, inside⟩ := not_or.mp last
        have front := sub_of_splitElement split positive
        -- what is behind the element is not empty, and splits to its end as the whole did
        refine ih _ _ _ _ ?_ ?_
        · rw [ne_eq, List.drop_eq_nil_iff]
          exact inside
        · have parts := (List.take_append_drop next available).symm
          rw [front] at whole
          exact List.append_cancel_left (whole.trans parts)

/-- The first element of what is left of a frame. -/
private theorem first_hashes (server : ServerState) (e : Element) (w : World σ η) (t : Transcript)
    (answered : Bool) (after : Connection η) (behind : List (Exchange η)) {splits : Prop}
    (h : t.Hashes w.conn) (executed : ∀ y ∈ behind, ∃ w' : World σ η, y.Executed server w')
    (whole : splits → (dispatchOne server e.bytes e.ordinal w).1.isSome → answered = true)
    (followed : e.Followed w.conn ((∀ y ∈ behind, y.Cancelled) ∧ splits)) :
    (t.observe (Exchange.passage answered after
      ⟨e, w.conn, (dispatchOne server e.bytes e.ordinal w).1⟩ behind)).Hashes
        (dispatchOne server e.bytes e.ordinal w).2.conn := by
  refine dispatchOne_hashes server e w t _ h followed ?_
  rintro ⟨cancelled, splits⟩ reply sent asBuilt
  have last : behind.all (·.reply.isNone) = true := by
    refine List.all_eq_true.mpr fun y member => ?_
    obtain ⟨w', done⟩ := executed y member
    rw [Option.isNone_iff_eq_none]
    exact done.reply_eq_none_iff.mpr (cancelled y member)
  rw [whole splits (by rw [sent]; rfl), if_pos rfl, sent, Option.map_some, last, asBuilt]

/-- The elements of a frame, one after another. -/
theorem exchanges_hashes (fuel : Nat) (server : ServerState) (available : Bytes)
    (ctx : RelatedContext) (ordinal : UInt32) (w : World σ η) (t : Transcript) (answered : Bool)
    (after : Connection η) {splits : Prop} (h : t.Hashes w.conn)
    (whole : splits → ∀ x ∈ exchanges fuel server available ctx ordinal w, x.reply.isSome →
      answered = true)
    (followed : ∀ before x behind,
      exchanges fuel server available ctx ordinal w = before ++ x :: behind →
        x.element.Followed x.conn ((∀ y ∈ behind, y.Cancelled) ∧ splits)) :
    ((passages answered after (exchanges fuel server available ctx ordinal w)).foldl
      Transcript.observe t).Hashes
        (dispatchElements fuel server available ctx ordinal w).2.conn := by
  induction fuel generalizing available ctx ordinal w t with
  | zero => exact h
  | succ fuel ih =>
    have executed := exchanges_executed (fuel + 1) server available ctx ordinal w
    rw [exchanges] at whole followed executed ⊢
    rw [dispatchElements]
    cases split : splitElement available with
    | none => exact h
    | some parts =>
      obtain ⟨hdr, sub, next⟩ := parts
      have bytes : (⟨sub, ctx, ordinal⟩ : Element).bytes = (effectiveElement ctx hdr sub).1 :=
        Element.bytes_of_splitElement split ctx ordinal
      simp only [split, Action.bind_apply] at whole followed executed ⊢
      by_cases last : next = 0 ∨ available.length ≤ next
      -- the last element: nothing is behind it
      · simp only [last, if_true, Action.pure_apply] at whole followed executed ⊢
        rw [← bytes] at whole followed ⊢
        exact first_hashes server ⟨sub, ctx, ordinal⟩ w t answered after [] h
          (fun _ member => absurd member List.not_mem_nil)
          (fun splits replied => whole splits _ (List.mem_singleton_self _) replied)
          (followed [] _ [] rfl)
      · simp only [last, if_false, Action.bind_apply, Action.pure_apply] at whole followed executed ⊢
        rw [← bytes] at whole followed executed ⊢
        -- the first element, and the induction from the world and the transcript behind it
        have first := first_hashes server ⟨sub, ctx, ordinal⟩ w t answered after _ h
          (fun y member => executed y (List.mem_cons_of_mem _ member))
          (fun splits replied => whole splits _ List.mem_cons_self replied)
          (followed [] _ _ rfl)
        refine ih _ _ _ _ _ first (fun splits x member => whole splits x
          (List.mem_cons_of_mem _ member)) fun before x behind split => ?_
        exact followed (_ :: before) x behind (congrArg (_ :: ·) split)

/-! ### Runs -/

/-- The transcripts of all connections, one event after another. -/
def transcribe (ts : UInt64 → Transcript) (s : System σ η) : Event → UInt64 → Transcript
  | .accept => Function.update ts s.nextConnId .empty
  | .frame cid frame =>
    match s.conns.lookup cid with
    | none => ts
    | some conn =>
      Function.update ts cid
        ((framePassages s.server frame ⟨conn, s.env⟩).foldl Transcript.observe (ts cid))
  | _ => ts

/-- Every element of the frame is one that the hashes follow; its reply closes the payload when
nothing behind it is answered and the frame splits to its end. -/
def System.Follows (s : System σ η) (e : Event) : Prop :=
  ∀ cid frame (conn : Connection η), e = .frame cid frame → s.conns.lookup cid = some conn →
    smb1Choice frame = none → ∀ before x behind,
      frameExchanges s.server frame ⟨conn, s.env⟩ = before ++ x :: behind →
        x.element.Followed x.conn
          ((∀ y ∈ behind, y.Cancelled) ∧ (splitCompound frame).flatten = frame)

/-- The snapshot of every 3.1.1 session is the hash chain over the messages of its logon. -/
def SnapshotsTranscribed (p : System σ η × (UInt64 → Transcript)) : Prop :=
  ∀ cid conn sid v, p.1.conns.lookup cid = some conn → conn.sessionView sid = some v →
    v.preauthSnapshot.isSome ∨ conn.dialect = some .smb311 →
      ∃ m, (p.2 cid).established sid = some m ∧ v.preauthSnapshot = some m.hash

/-- The hashes of every live connection are chains over its transcript. -/
def AllHashes (p : System σ η × (UInt64 → Transcript)) : Prop :=
  ∀ cid conn, p.1.conns.lookup cid = some conn → (p.2 cid).Hashes conn

omit [Host σ η] in
theorem AllHashes.snapshots {p : System σ η × (UInt64 → Transcript)} (h : AllHashes p) :
    SnapshotsTranscribed p := by
  intro cid conn sid v live seen latest
  have hashes := h cid conn live
  by_cases dialect : conn.dialect = some .smb311
  · exact (hashes.latest dialect).established sid v seen
  · have plain := (hashes.older dialect).2 sid v seen
    simp [plain, dialect] at latest

omit [Host σ η] in
theorem hashes_new (cid : UInt64) (guid : ByteVec 16) (read write : UInt32) :
    Transcript.empty.Hashes (Connection.new cid guid read write : Connection η) := by
  refine ⟨fun _ => ⟨rfl, fun _ => rfl⟩, fun _ => ⟨fun _ => rfl, fun sid v seen => ?_⟩, nofun⟩
  cases seen

theorem frame_hashes (server : ServerState) (frame : Bytes) (w : World σ η) (t : Transcript)
    (h : t.Hashes w.conn) (followed : smb1Choice frame = none → ∀ before x behind,
      frameExchanges server frame w = before ++ x :: behind →
        x.element.Followed x.conn
          ((∀ y ∈ behind, y.Cancelled) ∧ (splitCompound frame).flatten = frame)) :
    ((framePassages server frame w).foldl Transcript.observe t).Hashes
      (dispatchFrame server frame w).2.conn := by
  cases choice : smb1Choice frame with
  | some chosen =>
    simp only [framePassages, choice, dispatchFrame, Action.bind_apply, Action.pure_apply,
      (smb1_frame server chosen w).1, List.foldl_nil]
    exact h
  | none =>
    simp only [framePassages, choice]
    rw [dispatchFrame_world server frame w choice]
    refine exchanges_hashes (frame.length + 1) server frame initialContext 0 w t _ _ h ?_
      (followed choice)
    intro splits x member replied
    -- The payload is stitched from this reply and the others.
    obtain ⟨reply, sent⟩ := Option.isSome_iff_exists.mp replied
    have rest : frame ≠ [] := by
      rintro rfl
      simp [exchanges, splitElement, Smb2Header.parse, smb2HeaderLen] at member
    have executed := dispatchElements_isSome (frame.length + 1) server frame initialContext 0 w rest
      splits
    obtain ⟨responses, done⟩ := Option.isSome_iff_exists.mp executed
    have same := dispatchElements_eq _ _ _ _ _ _ responses done
    have here : reply ∈ responses := same ▸ List.mem_filterMap.mpr ⟨x, member, sent⟩
    cases responses with
    | nil => cases here
    | cons first others =>
      simp only [dispatchFrame, choice, Action.bind_apply, done, Action.pure_apply, getConn_apply,
        Option.isSome_some]

theorem allHashes_step (p : System σ η × (UInt64 → Transcript)) (e : Event) (inv : AllHashes p)
    (follows : p.1.Follows e) : AllHashes (watch System.step transcribe p e) := by
  obtain ⟨s, ts⟩ := p
  intro cid conn' found
  simp only [watch] at found ⊢
  cases e with
  -- a new connection with an empty transcript; the others are untouched
  | accept =>
    simp only [System.step, System.accept, Table.lookup_insert, transcribe] at found ⊢
    split at found
    next new =>
      obtain rfl := Option.some.inj found
      rw [new, Function.update_self]
      exact hashes_new _ _ _ _
    next old =>
      rw [Function.update_of_ne old]
      exact inv cid conn' found
  -- a frame changes its own connection and that connection's transcript
  | frame cid' frame =>
    simp only [System.step, System.serve, System.lookup_onConn] at found
    simp only [transcribe]
    split at found
    next same =>
      subst same
      obtain ⟨conn, live, rfl⟩ := Option.map_eq_some_iff.mp found
      simp only [live, Function.update_self]
      exact frame_hashes s.server frame ⟨conn, s.env⟩ (ts cid) (inv cid conn live)
        (follows cid frame conn rfl live)
    next other =>
      cases s.conns.lookup cid' with
      | none => exact inv cid conn' found
      | some conn =>
        simp only [Function.update_of_ne other]
        exact inv cid conn' found
  -- an administrative change only takes sessions and trees away
  | config op =>
    obtain ⟨conn, live, removed⟩ := s.configure_lookup op cid conn' found
    have hashes := inv cid conn live
    clear found live
    -- over the removals that the change makes on the connection
    induction removed with
    | refl => exact hashes
    | tail _ last ih => exact ih.mono last.unhashed last.sessionView
  | hangup cid' =>
    simp only [System.step, System.hangup, Table.lookup_erase] at found
    split at found
    · cases found
    · exact inv cid conn' found

/-- Over every run whose elements the hashes follow, the snapshot of every 3.1.1 session is the hash
chain over the messages of its logon as they went over the wire. -/
theorem snapshots_transcribed (server : ServerState) (host : σ) (events : List Event)
    (followed : System.EachEvent (η := η) server host events System.Follows) :
    SnapshotsTranscribed (runAll (watch System.step transcribe)
      (System.start server host, fun _ => .empty) events) := by
  refine AllHashes.snapshots ?_
  have watched : Always (watch System.step transcribe) (fun p e => p.1.Follows e)
      ((System.start server host : System σ η), fun _ => Transcript.empty) events :=
    Always.watched transcribe _ _ followed
  refine Always.invariant _ allHashes_step _ _ ?_ watched
  intro cid conn live
  cases live

/-! ### A client with one request to a frame -/

/-- The request keeps to the rules of its connection: it negotiates first and with nothing pending,
and continues the exchange whose id it carries. -/
def keepsOrder (conn : Connection η) (frame : Bytes) : Bool :=
  match Smb2Header.parse frame with
  | none => true
  | some (hdr, body) =>
    match hdr.command with
    | .negotiate =>
      conn.dialect.isNone && conn.pendingAuths.keys.isEmpty && (Negotiate.picks body).isSome
    | .sessionSetup =>
      (conn.pendingAuths.lookup hdr.sessionId).isNone ||
        (SessionSetup.validate body).toOption.any (!·.isFirstRound)
    | _ => true

omit [Host σ η] in
theorem followed_of_keepsOrder (conn : Connection η) (e : Element) {closes : Prop}
    (received : e.bytes = e.received) (order : keepsOrder conn e.bytes = true) (last : closes) :
    e.Followed conn closes := by
  rintro hdr body ⟨parsed, -, -⟩
  simp only [keepsOrder, parsed] at order
  refine ⟨fun cmd => ?_, fun cmd _ => ⟨received, fun _ => last, fun _ pending => ?_⟩⟩
  -- a NEGOTIATE
  · simp only [cmd, Bool.and_eq_true, Option.isNone_iff_eq_none, List.isEmpty_iff] at order
    obtain ⟨⟨fresh, idle⟩, picks⟩ := order
    obtain ⟨d, picked⟩ := Option.isSome_iff_exists.mp picks
    refine ⟨fresh, d, picked, fun _ => ⟨fun sid => ?_, received, last⟩⟩
    cases found : conn.pendingAuths.lookup sid with
    | none => rfl
    | some acceptor =>
      have key := (conn.pendingAuths.mem_keys sid).mpr ⟨acceptor, found⟩
      rw [idle] at key
      cases key
  -- a SESSION_SETUP under an id with an exchange pending
  · obtain ⟨acceptor, found⟩ := Option.isSome_iff_exists.mp pending
    simp only [cmd, found, Option.isNone_some, Bool.false_or] at order
    cases valid : SessionSetup.validate body with
    | error status => simp [valid, Except.toOption] at order
    | ok token =>
      simp only [valid, Except.toOption, Option.any_some, Bool.not_eq_true'] at order
      exact ⟨token, valid, order⟩

/-- A frame is a single request that keeps to the rules. -/
def System.keepsOrder (s : System σ η) : Event → Bool
  | .frame cid frame =>
    isSingle frame && (s.conns.lookup cid).all fun conn => SmbServer.keepsOrder conn frame
  | _ => true

def keepsOrderAll (s : System σ η) : List Event → Bool
  | [] => true
  | e :: events => s.keepsOrder e && keepsOrderAll (s.step e) events

theorem System.follows_of_keepsOrder (s : System σ η) (e : Event) (order : s.keepsOrder e = true) :
    s.Follows e := by
  rintro cid frame conn rfl live - before x behind exchanged
  rw [keepsOrder, live, Option.all_some, Bool.and_eq_true] at order
  obtain ⟨single, order⟩ := order
  obtain ⟨-, received⟩ := s.expand_single cid frame (by rw [live]; rfl) single
  simp only [isSingle, Bool.and_eq_true, beq_iff_eq, Option.any_eq_true, Bool.not_eq_true',
    Prod.exists] at single
  obtain ⟨-, hdr, sub, next, alone, ⟨rfl, rfl⟩, -⟩ := single
  have one : ∃ reply, frameExchanges s.server sub ⟨conn, s.env⟩ = [⟨.single sub, conn, reply⟩] := by
    simp only [frameExchanges, exchanges, alone, true_or, if_true]
    exact ⟨_, rfl⟩
  obtain ⟨reply, one⟩ := one
  rw [one] at exchanged
  obtain ⟨rfl, rest⟩ : before = [] ∧ ⟨.single sub, conn, reply⟩ :: [] = x :: behind := by
    cases before with
    | nil => exact ⟨rfl, exchanged⟩
    | cons _ before => simp at exchanged
  obtain ⟨rfl, rfl⟩ := List.cons.inj rest
  refine followed_of_keepsOrder conn _ received (received.symm ▸ order) ⟨by simp, ?_⟩
  simp only [splitCompound, splitPayload, alone, true_or, if_true, List.flatten_singleton]

theorem follows_of_keepsOrderAll (s : System σ η) (events : List Event)
    (order : keepsOrderAll s events = true) : Always System.step System.Follows s events := by
  induction events generalizing s with
  | nil => trivial
  | cons e rest ih =>
    rw [keepsOrderAll, Bool.and_eq_true] at order
    exact ⟨s.follows_of_keepsOrder e order.1, ih _ order.2⟩

end

/-! ### A logon over 3.1.1 -/

open scoped Sample

/-- The logon of the user over 3.1.1 keeps to the rules. -/
theorem snapshots_transcribed_logon :
    SnapshotsTranscribed (runAll (watch System.step transcribe)
      ((System.start Sample.server () : System Unit Unit), fun _ => .empty)
      (Sample.session (Sample.userOn 0x0311))) :=
  snapshots_transcribed Sample.server () _ (follows_of_keepsOrderAll _ _ (by decide +kernel))

/-- The logon, with an empty SESSION_SETUP between its two rounds. -/
def Sample.interruptedLogon : List Event :=
  let frames := Sample.userOn 0x0311
  Sample.session (frames.take 2 ++ [Client.plain .sessionSetup 1 0 (Client.sessionSetupBody [])] ++
    frames.drop 2)

/-- The hash of the exchange is gone when its last round arrives. -/
theorem interrupted_logon_hash :
    ¬∀ events : List Event, SnapshotsTranscribed (runAll (watch System.step transcribe)
      ((System.start Sample.server () : System Unit Unit), fun _ => .empty) events) := by
  intro all
  -- the run is evaluated once, as a test on the state that it reaches
  have reached :
      let p := runAll (watch System.step transcribe)
        ((System.start Sample.server () : System Unit Unit), fun _ => .empty)
        Sample.interruptedLogon
      (p.1.conns.lookup 1).any (fun conn => (conn.sessionView 1).any fun v =>
        v.preauthSnapshot.isSome && ((p.2 1).established 1).all fun m =>
          v.preauthSnapshot ≠ some m.hash) = true := by
    decide +kernel
  have transcribed := all Sample.interruptedLogon
  -- the rest holds of any state that passes the test
  revert reached transcribed
  generalize runAll (watch System.step transcribe)
    ((System.start Sample.server () : System Unit Unit), fun _ => .empty)
    Sample.interruptedLogon = p
  intro reached transcribed
  simp only [Option.any_eq_true, Bool.and_eq_true] at reached
  obtain ⟨conn, live, v, seen, latest, other⟩ := reached
  obtain ⟨m, messages, hash⟩ := transcribed 1 conn 1 v live seen (.inl latest)
  simp [messages, hash] at other

end SmbServer
