import SmbServer.Effects.Answer
import SmbServer.Client

/-!
# SmbServer.Properties.SignedResponse

A signed request gets a signed response, except for LOGOFF.

Main result:

  The response to a verified signed request on a live user session carries the SIGNED flag and
  verifies under the key and the algorithm of the session exactly when the command is not LOGOFF.

Proof strategy: the key is looked up behind the handler. No handler but that of LOGOFF takes a
session away or changes what it keeps (`Edits.sessionView`), and the response names the request's
own session because it is plain; so the lookup finds the session that verified the request. LOGOFF
removes the session first, finds nothing and clears the flag.
-/

namespace SmbServer

open Lib

section

variable {σ η : Type} [Host σ η] [Crypto]

/-! ### The session behind the handler -/

omit [Crypto] in
/-- LOGOFF leaves no session under its number. -/
theorem Logoff.handle_lookup (hdr : Smb2Header) (nonzero : hdr.sessionId ≠ 0) (w : World σ η) :
    (Logoff.handle hdr w).2.conn.sessions.lookup hdr.sessionId = none := by
  simp only [Logoff.handle, nonzero, if_false, Action.bind_apply, Action.pure_apply,
    Connection.closeSession, getConn_apply]
  cases found : w.conn.sessions.lookup hdr.sessionId with
  | none => exact found
  | some sess =>
    have kept := Effect.conn_eq (moves_closeSessionState (Q := fun _ => True)
      (fun _ _ => trivial) hdr.sessionId sess
      (w.setConn { w.conn with sessions := w.conn.sessions.erase hdr.sessionId }))
    simp only [Action.bind_apply, modifyConn_apply, Action.pure_apply, kept]
    exact Table.lookup_erase_self _ _

/-- A verified signed request on a live user session with a signing key. -/
structure VerifiedRequest (conn : Connection η) (frame : Bytes) (hdr : Smb2Header)
    (body : Bytes) (sess : Session η) : Prop where
  parsed : Smb2Header.parse frame = some (hdr, body)
  live : conn.sessions.lookup hdr.sessionId = some sess
  user : sess.identity.isAnonymous = false
  key : sess.signingKey ≠ ByteVec.zero 16
  signed : hasFlag hdr.flags smb2FlagsSigned = true
  verified : verify frame sess.signingKey conn.signingAlgo = true

omit [Host σ η] in
theorem VerifiedRequest.accepted {conn : Connection η} {frame : Bytes} {hdr : Smb2Header}
    {body : Bytes} {sess : Session η} (req : VerifiedRequest conn frame hdr body sess)
    (nonzero : hdr.sessionId ≠ 0) : verifyRequestSignature conn hdr frame = .ok () := by
  simp only [verifyRequestSignature, nonzero, req.live, req.signed, req.user, req.verified,
    if_true, Bool.false_eq_true, ite_self]

/-- The response of one element is signed unless the element logs off. -/
theorem signedResponse_iff (server : ServerState) (ordinal : UInt32) (w : World σ η)
    (frame : Bytes) (hdr : Smb2Header) (body : Bytes) (sess : Session η)
    (req : VerifiedRequest w.conn frame hdr body sess) (nonzero : hdr.sessionId ≠ 0)
    (noNegotiate : hdr.command ≠ .negotiate) (noSetup : hdr.command ≠ .sessionSetup)
    (noCancel : hdr.command ≠ .cancel) :
    (∃ bytes, (dispatchOne server frame ordinal w).1 = some bytes ∧
        SignedUnder bytes sess.signingKey w.conn.signingAlgo) ↔
      hdr.command ≠ .logoff := by
  have outcome := dispatchOne_cases server frame ordinal w
  revert outcome
  generalize (dispatchOne server frame ordinal w).1 = answer
  generalize (dispatchOne server frame ordinal w).2 = after
  intro outcome
  cases outcome with
  -- the request parses, verifies and is not a CANCEL: only the last case is left
  | malformed _ parsed => rw [req.parsed] at parsed; cases parsed
  | rejected hdr' body' status _ parsed verified =>
    obtain ⟨rfl, rfl⟩ := Prod.mk.inj (Option.some.inj (req.parsed.symm.trans parsed))
    rw [req.accepted nonzero] at verified
    cases verified
  | cancelled hdr' body' _ parsed _ cmd =>
    obtain ⟨rfl, rfl⟩ := Prod.mk.inj (Option.some.inj (req.parsed.symm.trans parsed))
    exact absurd cmd noCancel
  | handled hdr' body' w₁ parsed verified cmd same =>
    obtain ⟨rfl, rfl⟩ := Prod.mk.inj (Option.some.inj (req.parsed.symm.trans parsed))
    rw [(runHandler_of_ne server hdr frame body noNegotiate noSetup w₁).1]
    have plain := dispatchCommand_plain server hdr body noNegotiate noSetup w₁
    have key := responseKey_of_signed (dispatchCommand server hdr body w₁).2.conn hdr _ plain noSetup
      req.signed nonzero
    constructor
    -- a LOGOFF removes the session before the response is built, so there is no key left
    · rintro ⟨bytes, sent, flagged, -⟩ logoff
      obtain rfl := Option.some.inj sent
      have gone : (dispatchCommand server hdr body w₁).2.conn.sessionView hdr.sessionId = none := by
        simp only [dispatchCommand, logoff, Connection.sessionView,
          Logoff.handle_lookup hdr nonzero w₁, Option.map_none]
      rw [gone, Option.bind_none] at key
      rw [buildResponseBytes_of_none _ _ _ key] at flagged
      cases flagged
    -- any other command keeps the session and the algorithm
    · intro noLogoff
      have edits := (dispatchCommand_effect server hdr body w₁).conn
      have view : (dispatchCommand server hdr body w₁).2.conn.sessionView hdr.sessionId =
          some sess.view := by
        rw [Edits.sessionView edits noSetup noLogoff, same.conn, Connection.sessionView, req.live,
          Option.map_some]
      have algo := (Edits.dialect edits noNegotiate).2
      rw [view, Option.bind_some, if_pos ⟨req.user, req.key⟩] at key
      refine ⟨_, rfl, ?_⟩
      have signed := buildResponseBytes_of_some _ _ _ _ key
      rwa [algo, same.conn] at signed

/-! ### Runs -/

/-- The step is an element with a verified signed request, other than NEGOTIATE, SESSION_SETUP and
CANCEL. -/
def SignedRequest (s : System σ η) (step : Step) (conn : Connection η) (hdr : Smb2Header)
    (sess : Session η) : Prop :=
  ∃ cid e body, step = .element cid e ∧ s.conns.lookup cid = some conn ∧
    VerifiedRequest conn e.bytes hdr body sess ∧ hdr.command ≠ .negotiate ∧
      hdr.command ≠ .sessionSetup ∧ hdr.command ≠ .cancel

/-- The element's response carries the SIGNED flag and verifies under the session's key and the
connection's algorithm. -/
def AnsweredSigned (s : System σ η) (step : Step) (conn : Connection η) (sess : Session η) : Prop :=
  ∃ cid e bytes, step = .element cid e ∧
    (dispatchOne s.server e.bytes e.ordinal ⟨conn, s.env⟩).1 = some bytes ∧
    SignedUnder bytes sess.signingKey conn.signingAlgo

omit [Host σ η] [Crypto] in
/-- Where no session has the number zero, a live one has another. -/
theorem Connection.session_ne_zero {conn : Connection η} {sid : UInt64} {sess : Session η}
    (noZero : conn.sessions.lookup 0 = none) (live : conn.sessions.lookup sid = some sess) :
    sid ≠ 0 := by
  rintro rfl
  rw [noZero] at live
  cases live

/-- In every state that a server reaches no session has the number zero. -/
theorem noSessionZero_execute (s : System σ η) (step : Step)
    (inv : s.Conns fun _ conn => conn.sessions.lookup 0 = none) :
    (s.execute step).Conns fun _ conn => conn.sessions.lookup 0 = none := by
  refine (System.Conns.execute (J := fun _ => True) (fun _ _ _ _ => trivial)
    (fun _ _ _ _ _ => rfl) (fun _ _ _ _ _ h => h) ?_ ?_ s step ⟨trivial, inv⟩).2
  · intro _ conn conn' r h
    have gone := r.sessionView 0
    simp only [Connection.sessionView, h, Option.map_none, Option.map_eq_some_iff] at gone
    by_contra live
    obtain ⟨sess, found⟩ := Option.ne_none_iff_exists'.mp live
    cases gone sess.view ⟨sess, found, rfl⟩
  · intro server frame ordinal w _ h
    rcases dispatchOne_effect server frame ordinal w with same | ⟨hdr, body, -, run⟩
    · rwa [same.conn]
    · have edits := run.conn
      revert edits
      generalize (dispatchOne server frame ordinal w).2.conn = conn'
      intro edits
      induction edits with
      | refl => exact h
      | tail _ e ih => exact e.noSessionZero ih

/-- Over every run, a signed request is answered signed exactly when it is not a LOGOFF. -/
theorem answeredSigned_iff (server : ServerState) (host : σ) (events : List Event) :
    System.Throughout server host events fun s step => ∀ (conn : Connection η) hdr sess,
      SignedRequest s step conn hdr sess →
        (AnsweredSigned s step conn sess ↔ hdr.command ≠ .logoff) := by
  refine System.Throughout.of_invariant _ server host events (fun _ _ found => nomatch found)
    noSessionZero_execute ?_
  rintro s step inv conn hdr sess ⟨cid, e, body, rfl, live, req, noNegotiate, noSetup, noCancel⟩
  have nonzero : hdr.sessionId ≠ 0 := Connection.session_ne_zero (inv cid conn live) req.live
  rw [← signedResponse_iff s.server e.ordinal ⟨conn, s.env⟩ e.bytes hdr body sess req
    nonzero noNegotiate noSetup noCancel]
  constructor
  · rintro ⟨_, _, bytes, same, sent, good⟩
    cases same
    exact ⟨bytes, sent, good⟩
  · rintro ⟨bytes, sent, good⟩
    exact ⟨cid, e, bytes, rfl, sent, good⟩

end

/-! ### LOGOFF -/

open scoped Sample

/-- The signed LOGOFF of a session logged on over 2.1. -/
def Sample.signedLogoff : Bytes :=
  Client.signed (signingKey30 Sample.userKey) .hmacSha256 .logoff 1 0 Client.emptyBody

/-- A logon over 2.1 and a signed LOGOFF: the reply is not signed. -/
theorem logoff_answered_unsigned :
    ¬∀ events : List Event, System.Throughout Sample.server () events
      fun s step => ∀ conn hdr sess, SignedRequest s step conn hdr sess →
        AnsweredSigned s step conn sess := by
  intro all
  let before := Sample.session (Sample.userOn 0x0210)
  let s : System Unit Unit := (System.start Sample.server ()).run before
  have reached : (s.conns.lookup 1).any (fun conn =>
      (Smb2Header.parse Sample.signedLogoff).any fun found =>
        (conn.sessions.lookup found.1.sessionId).any fun sess =>
          !sess.identity.isAnonymous && sess.signingKey ≠ ByteVec.zero 16 &&
            hasFlag found.1.flags smb2FlagsSigned && found.1.command = .logoff &&
            verify Sample.signedLogoff sess.signingKey conn.signingAlgo) = true := by
    decide +kernel
  simp only [Option.any_eq_true, Bool.and_eq_true, decide_eq_true_eq,
    Bool.not_eq_true', Prod.exists] at reached
  obtain ⟨conn, live, hdr, body, parsed, sess, session, ⟨⟨⟨user, key⟩, signed⟩, logoff⟩,
    verified⟩ := reached
  -- the reply would have to be signed
  have last := (all (before ++ [.frame 1 Sample.signedLogoff])).last (by decide +kernel)
    (by decide +kernel)
  have bytes : (Element.single Sample.signedLogoff).bytes = Sample.signedLogoff :=
    (s.expand_single 1 _ (by decide +kernel) (by decide +kernel)).2
  have request : VerifiedRequest conn (Element.single Sample.signedLogoff).bytes hdr body sess :=
    bytes.symm ▸ ⟨parsed, session, user, key, signed, verified⟩
  have nonzero : hdr.sessionId ≠ 0 := by
    have named : (Smb2Header.parse Sample.signedLogoff).any (fun found => found.1.sessionId ≠ 0)
        = true := by decide +kernel
    simpa [parsed] using named
  obtain ⟨_, _, response, same, sent, good⟩ := last conn hdr sess
    ⟨1, _, body, rfl, live, request, by simp [logoff], by simp [logoff], by simp [logoff]⟩
  cases same
  exact (signedResponse_iff s.server 0 ⟨conn, s.env⟩ _ hdr body sess request nonzero
    (by simp [logoff]) (by simp [logoff]) (by simp [logoff])).mp ⟨response, sent, good⟩ logoff

end SmbServer
