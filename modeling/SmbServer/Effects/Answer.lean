import SmbServer.Effects.Stitch

/-!
# SmbServer.Effects.Answer

The response to one element: which key it is signed with, that it is a response the stitcher can
lay out, and the connection that it was built on.
-/

namespace SmbServer

open Lib

variable {σ η : Type} [Host σ η] [Crypto]

/-- A message with the SIGNED flag and a signature under this key. -/
def SignedUnder (bytes : Bytes) (key : Key) (algo : SigningAlgo) : Prop :=
  hasFlag (readU32 bytes 0x10) smb2FlagsSigned = true ∧ verify bytes key algo = true

omit [Host σ η] [Crypto] in
theorem responseHeader_sessionId (hdr : Smb2Header) (resp : HandlerResponse)
    (plain : resp.Plain) : (responseHeader hdr resp).sessionId = hdr.sessionId := by
  simp only [responseHeader, plain.1, Option.getD_none]

omit [Host σ η] [Crypto] in
/-- The key of a plain response to a signed request: that of its session, if there is one. -/
theorem responseKey_of_signed (conn : Connection η) (hdr : Smb2Header) (resp : HandlerResponse)
    (plain : resp.Plain) (noSetup : hdr.command ≠ .sessionSetup)
    (signed : hasFlag hdr.flags smb2FlagsSigned = true) (nonzero : hdr.sessionId ≠ 0) :
    responseKey conn hdr resp =
      (conn.sessionView hdr.sessionId).bind fun sess =>
        if sess.identity.isAnonymous = false ∧ sess.signingKey ≠ ByteVec.zero 16 then
          some sess.signingKey
        else none := by
  have setup : (hdr.command == Command.sessionSetup) = false := by simpa using noSetup
  simp only [responseKey, responseHeader_sessionId hdr resp plain, plain.2.1, signed, setup,
    Connection.sessionView, bne_iff_ne, ne_eq, nonzero, not_false_eq_true, Bool.not_false,
    Bool.true_and, Bool.false_and, Bool.or_false, Bool.and_true, if_true]
  cases conn.sessions.lookup hdr.sessionId with
  | none => rfl
  | some sess => simp [Session.view]

omit [Host σ η] in
/-- A response built with a key is signed under it. -/
theorem buildResponseBytes_of_some (conn : Connection η) (hdr : Smb2Header)
    (resp : HandlerResponse) (key : Key) (h : responseKey conn hdr resp = some key) :
    SignedUnder (buildResponseBytes conn hdr resp) key conn.signingAlgo := by
  simp only [buildResponseBytes, h]
  constructor
  · rw [readU32, slice_sign _ _ _ _ _ (.inl (by decide)), ← readU32,
      Smb2Header.readU32_flags_write]
    exact hasFlag_or_self _ _ (by decide)
  · refine verify_sign _ _ _ ?_
    rw [List.length_append, Smb2Header.length_write, smb2HeaderLen]
    omega

omit [Host σ η] in
/-- A response built without a key does not carry the flag. -/
theorem buildResponseBytes_of_none (conn : Connection η) (hdr : Smb2Header)
    (resp : HandlerResponse) (h : responseKey conn hdr resp = none) :
    hasFlag (readU32 (buildResponseBytes conn hdr resp) 0x10) smb2FlagsSigned = false := by
  simp only [buildResponseBytes, h]
  rw [Smb2Header.readU32_flags_write]
  exact hasFlag_clear_self _ _

omit [Host σ η] [Crypto] in
/-- A response is signed with the key of the session that it names. -/
theorem responseKey_eq_some (conn : Connection η) (hdr : Smb2Header) (resp : HandlerResponse)
    (key : Key) (h : responseKey conn hdr resp = some key) :
    ∃ sess, conn.sessions.lookup (responseHeader hdr resp).sessionId = some sess ∧
      sess.identity.isAnonymous = false ∧ sess.signingKey = key := by
  simp only [responseKey] at h
  split at h
  · cases found : conn.sessions.lookup (responseHeader hdr resp).sessionId with
    | none => simp [found] at h
    | some sess =>
      simp only [found] at h
      split at h
      next signs =>
        simp only [Bool.and_eq_true, Bool.not_eq_true', decide_eq_true_eq] at signs
        exact ⟨sess, rfl, signs.1.1, Option.some.inj h⟩
      next => cases h
  · cases h

omit [Host σ η] in
/-- Signed or not, the header in front of the signature is the one that was built. -/
theorem slice_buildResponseBytes (conn : Connection η) (hdr : Smb2Header)
    (resp : HandlerResponse) : ∃ flags, ∀ off len, off + len ≤ sigOff →
      slice (buildResponseBytes conn hdr resp) off len =
        slice ({ responseHeader hdr resp with flags := flags }.write ++ resp.body) off len := by
  cases h : responseKey conn hdr resp with
  | none =>
    refine ⟨(responseHeader hdr resp).flags &&& ~~~smb2FlagsSigned, fun off len inside => ?_⟩
    simp only [buildResponseBytes, h]
  | some key =>
    refine ⟨(responseHeader hdr resp).flags ||| smb2FlagsSigned, fun off len inside => ?_⟩
    simp only [buildResponseBytes, h]
    exact slice_sign _ _ _ _ _ (.inl inside)

omit [Host σ η] in
/-- Signed or not, the body follows the header. -/
theorem slice_body_buildResponseBytes (conn : Connection η) (hdr : Smb2Header)
    (resp : HandlerResponse) (off len : Nat) :
    slice (buildResponseBytes conn hdr resp) (smb2HeaderLen + off) len =
      slice resp.body off len := by
  have behind (h : Smb2Header) :
      slice (h.write ++ resp.body) (smb2HeaderLen + off) len = slice resp.body off len := by
    rw [slice_append_right _ _ _ _ (by rw [Smb2Header.length_write]; omega),
      Smb2Header.length_write, Nat.add_sub_cancel_left]
  simp only [buildResponseBytes]
  cases responseKey conn hdr resp with
  | none => exact behind _
  | some key =>
    refine (slice_sign _ _ _ _ _ (.inr ?_)).trans (behind _)
    simp only [sigOff, sigLen, smb2HeaderLen]
    omega

omit [Host σ η] in
theorem length_buildResponseBytes (conn : Connection η) (hdr : Smb2Header)
    (resp : HandlerResponse) :
    (buildResponseBytes conn hdr resp).length = smb2HeaderLen + resp.body.length := by
  simp only [buildResponseBytes]
  cases responseKey conn hdr resp <;>
    simp only [length_sign, List.length_append, Smb2Header.length_write]

omit [Host σ η] in
theorem response_buildResponseBytes (conn : Connection η) (hdr : Smb2Header)
    (resp : HandlerResponse) : Response (buildResponseBytes conn hdr resp) := by
  obtain ⟨flags, front⟩ := slice_buildResponseBytes conn hdr resp
  have long : smb2HeaderLen ≤ (buildResponseBytes conn hdr resp).length := by
    rw [length_buildResponseBytes]
    exact Nat.le_add_right _ _
  constructor
  · refine (Smb2Header.begins_write _ _).of_front long fun off len inside => front off len ?_
    simp only [sigOff]
    omega
  · rw [readU32, front 0x14 4 (by decide), ← readU32, Smb2Header.readU32_nextCommand_write]
    rfl

omit [Host σ η] in
theorem readU64_buildResponseBytes (conn : Connection η) (hdr : Smb2Header)
    (resp : HandlerResponse) :
    readU64 (buildResponseBytes conn hdr resp) 0x28 = (responseHeader hdr resp).sessionId := by
  obtain ⟨flags, front⟩ := slice_buildResponseBytes conn hdr resp
  rw [readU64, front 0x28 8 (by decide), ← readU64, Smb2Header.readU64_sessionId_write]

omit [Host σ η] in
theorem readU32_status_buildResponseBytes (conn : Connection η) (hdr : Smb2Header)
    (resp : HandlerResponse) : readU32 (buildResponseBytes conn hdr resp) 0x08 = resp.status := by
  obtain ⟨flags, front⟩ := slice_buildResponseBytes conn hdr resp
  rw [readU32, front 0x08 4 (by decide), ← readU32, Smb2Header.readU32_status_write]
  rfl

omit [Host σ η] in
theorem readU32_treeId_buildResponseBytes (conn : Connection η) (hdr : Smb2Header)
    (resp : HandlerResponse) : readU32 (buildResponseBytes conn hdr resp) 0x24 =
      resp.overrideTreeId.getD (hdr.treeId.getD 0) := by
  obtain ⟨flags, front⟩ := slice_buildResponseBytes conn hdr resp
  rw [readU32, front 0x24 4 (by decide), ← readU32]
  exact Smb2Header.readU32_treeId_write _ 0 _ rfl _

/-! ### One element -/

/-- The connection that an answer was built on, as far as signatures go, is the one that the
element leaves. -/
theorem dispatchOne_built (server : ServerState) (frame : Bytes) (ordinal : UInt32)
    (w : World σ η) (bytes : Bytes) (answer : (dispatchOne server frame ordinal w).1 = some bytes) :
    ∃ (conn : Connection η) (hdr : Smb2Header) (resp : HandlerResponse),
      (∃ body, Smb2Header.parse frame = some (hdr, body)) ∧
        bytes = buildResponseBytes conn hdr resp ∧
        conn.sessions = (dispatchOne server frame ordinal w).2.conn.sessions ∧
          conn.signingAlgo = (dispatchOne server frame ordinal w).2.conn.signingAlgo := by
  have outcome := dispatchOne_cases server frame ordinal w
  rw [answer] at outcome
  revert outcome
  generalize (dispatchOne server frame ordinal w).2 = after
  generalize sent : some bytes = reply
  intro outcome
  -- a rejection is built on the connection as it was, a response behind its handler
  cases outcome with
  | malformed => cases sent
  | cancelled => cases sent
  | rejected hdr body status _ parsed _ same =>
    obtain rfl := Option.some.inj sent
    exact ⟨w.conn, hdr, .err status, ⟨body, parsed⟩, rfl, by rw [same.conn], by rw [same.conn]⟩
  | handled hdr body w₁ parsed _ _ _ =>
    obtain rfl := Option.some.inj sent
    simp only [runHandler, Action.bind_apply, getConn_apply, Action.pure_apply]
    refine ⟨_, hdr, _, ⟨body, parsed⟩, rfl, ?_, ?_⟩
    · rw [(preauthAfter_frame _ _ _ _).1, (alike_record _ _ _).conn]
    · rw [(preauthAfter_frame _ _ _ _).2, (alike_record _ _ _).conn]

/-- An element without an answer leaves the connection as it was. -/
theorem dispatchOne_silent (server : ServerState) (frame : Bytes) (ordinal : UInt32)
    (w : World σ η) (silent : (dispatchOne server frame ordinal w).1 = none) :
    Alike w (dispatchOne server frame ordinal w).2 := by
  have outcome := dispatchOne_cases server frame ordinal w
  rw [silent] at outcome
  revert outcome
  generalize (dispatchOne server frame ordinal w).2 = after
  generalize sent : (none : Option Bytes) = reply
  intro outcome
  cases outcome with
  | malformed _ _ same => exact same
  | cancelled _ _ _ _ _ _ same => exact same
  | rejected => cases sent
  | handled => cases sent

end SmbServer
