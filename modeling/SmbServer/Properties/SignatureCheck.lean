import SmbServer.Properties.SignedResponse
import SmbServer.Proto.MacAgreement
import SmbServer.Effects.Inherit

/-!
# SmbServer.Properties.SignatureCheck

Which bytes a request's signature is checked over.

Main result:

  The server accepts a signed element for exactly the signatures that verify over the bytes it
  received if and only if the element inherits nothing from the elements in front of it.

Proof strategy: `verifyRequestSignature` runs on the bytes that `inheritRelatedContext` has
rewritten. The rewriting never reaches the signature field, so a message that it does change is a
different message with the same signature, and some MAC tells the two apart.
-/

namespace SmbServer

open Lib

/-! ### What an element inherits -/

/-- The element is unrelated, or each of its session id, tree id and file id that is all ones is
replaced by all ones. -/
def Element.InheritsNothing (e : Element) : Prop :=
  ∀ hdr body, Smb2Header.parse e.received = some (hdr, body) →
    hasFlag hdr.flags smb2FlagsRelatedOperations = true →
    (readU64 e.received 0x28 = maxU64 → e.context.prevSessionId = maxU64) ∧
    (readU32 e.received 0x24 = maxU32 → e.context.prevTreeId = maxU32) ∧
    ∀ fileId off, e.context.prevCreateFileId = some fileId →
      fileIdBodyOffset hdr.command = some off →
      smb2HeaderLen + off + 16 ≤ e.received.length →
      readU64 e.received (smb2HeaderLen + off) = maxU64 →
      readU64 e.received (smb2HeaderLen + off + 8) = maxU64 → fileId.val = FileId.any.write

section

variable (ctx : RelatedContext) (sub : Bytes) (hdr : Smb2Header)

theorem inheritSession_eq_self_iff (long : smb2HeaderLen ≤ sub.length) :
    (inheritSession ctx sub hdr).1 = sub ↔
      (readU64 sub 0x28 = maxU64 → ctx.prevSessionId = maxU64) := by
  rw [smb2HeaderLen] at long
  rw [inheritSession]
  split
  next ones =>
    rw [patch_eq_self_iff _ _ _ (by rw [length_u64le]; omega), length_u64le,
      ← readU64_eq_iff _ _ _ (by omega), ones]
    exact ⟨fun same _ => same.symm, fun same => (same rfl).symm⟩
  next other => exact ⟨fun _ ones => absurd ones other, fun _ => rfl⟩

theorem inheritTree_eq_self_iff (long : smb2HeaderLen ≤ sub.length) :
    (inheritTree ctx sub hdr).1 = sub ↔
      (readU32 sub 0x24 = maxU32 → ctx.prevTreeId = maxU32) := by
  rw [smb2HeaderLen] at long
  rw [inheritTree]
  split
  next ones =>
    rw [patch_eq_self_iff _ _ _ (by rw [length_u32le]; omega), length_u32le,
      ← readU32_eq_iff _ _ _ (by omega), ones]
    exact ⟨fun same _ => same.symm, fun same => (same rfl).symm⟩
  next other => exact ⟨fun _ ones => absurd ones other, fun _ => rfl⟩

theorem inheritFileId_eq_self_iff (command : Command) :
    inheritFileId ctx command sub = sub ↔
      ∀ fileId off, ctx.prevCreateFileId = some fileId → fileIdBodyOffset command = some off →
        smb2HeaderLen + off + 16 ≤ sub.length → readU64 sub (smb2HeaderLen + off) = maxU64 →
        readU64 sub (smb2HeaderLen + off + 8) = maxU64 → fileId.val = FileId.any.write := by
  unfold inheritFileId
  split
  next captured bodyOffset prev named =>
    dsimp only
    split
    next cond =>
      obtain ⟨fits, low, high⟩ := cond
      -- the sixteen bytes that the patch replaces are all ones
      have ones : slice sub (smb2HeaderLen + bodyOffset) 16 = FileId.any.write := by
        rw [slice_add sub _ 8 8, (readU64_eq_iff _ _ _ (by omega)).mp low,
          (readU64_eq_iff _ _ _ (by omega)).mp high]
        rfl
      rw [patch_eq_self_iff _ _ _ (by rw [ByteVec.length_val]; exact fits), ByteVec.length_val, ones]
      constructor
      · rintro same fileId off here there - - -
        obtain rfl := Option.some.inj (prev.symm.trans here)
        exact same.symm
      · intro all
        exact (all captured bodyOffset prev named fits low high).symm
    next cond =>
      constructor
      · rintro - fileId off here there fits low high
        obtain rfl := Option.some.inj (named.symm.trans there)
        exact absurd ⟨fits, low, high⟩ cond
      · exact fun _ => rfl
  next none =>
    constructor
    · rintro - fileId off here there
      exact absurd there (none fileId off here)
    · exact fun _ => rfl

private theorem inheritSession_of_slice (long : smb2HeaderLen ≤ sub.length)
    (same : slice (inheritSession ctx sub hdr).1 0x28 8 = slice sub 0x28 8) :
    (inheritSession ctx sub hdr).1 = sub := by
  rw [smb2HeaderLen] at long
  rw [inheritSession] at same ⊢
  split at same
  next ones =>
    have fits : 0x28 + (u64le ctx.prevSessionId).length ≤ sub.length := by
      rw [length_u64le]; omega
    have written := slice_patch sub 0x28 (u64le ctx.prevSessionId) fits
    rw [length_u64le] at written
    rw [if_pos ones, patch_eq_self_iff _ _ _ fits, length_u64le, ← same, written]
  next other => rw [if_neg other]

private theorem inheritTree_of_slice (long : smb2HeaderLen ≤ sub.length)
    (same : slice (inheritTree ctx sub hdr).1 0x24 4 = slice sub 0x24 4) :
    (inheritTree ctx sub hdr).1 = sub := by
  rw [smb2HeaderLen] at long
  rw [inheritTree] at same ⊢
  split at same
  next ones =>
    have fits : 0x24 + (u32le ctx.prevTreeId).length ≤ sub.length := by
      rw [length_u32le]; omega
    have written := slice_patch sub 0x24 (u32le ctx.prevTreeId) fits
    rw [length_u32le] at written
    rw [if_pos ones, patch_eq_self_iff _ _ _ fits, length_u32le, ← same, written]
  next other => rw [if_neg other]

private theorem inheritTree_bytes (hdr' : Smb2Header) :
    (inheritTree ctx sub hdr).1 = (inheritTree ctx sub hdr').1 := by
  rw [inheritTree, inheritTree]
  split <;> rfl

/-- The rewriting changes nothing exactly when none of its three parts does. -/
theorem inheritRelatedContext_eq_self_iff (long : smb2HeaderLen ≤ sub.length) :
    (inheritRelatedContext ctx sub hdr).1 = sub ↔
      (inheritSession ctx sub hdr).1 = sub ∧ (inheritTree ctx sub hdr).1 = sub ∧
        inheritFileId ctx hdr.command sub = sub := by
  have first := length_inheritSession ctx sub hdr long
  have long' : smb2HeaderLen ≤ (inheritSession ctx sub hdr).1.length := by rw [first]; exact long
  have command := command_inheritRelated ctx sub hdr
  simp only [inheritRelatedContext, command]
  constructor
  · intro same
    -- the three patches are apart, so the bytes of each are seen in the result
    have session : (inheritSession ctx sub hdr).1 = sub := by
      refine inheritSession_of_slice ctx sub hdr long ?_
      conv_rhs => rw [← same]
      rw [slice_inheritFileId_front _ _ _ _ _ (by omega),
        slice_inheritTree _ _ _ long' _ _ (.inr (by omega))]
    rw [session, inheritTree_bytes ctx sub _ hdr] at same
    have tree : (inheritTree ctx sub hdr).1 = sub := by
      refine inheritTree_of_slice ctx sub hdr long ?_
      conv_rhs => rw [← same]
      rw [slice_inheritFileId_front _ _ _ _ _ (by omega)]
    rw [tree] at same
    exact ⟨session, tree, same⟩
  · rintro ⟨session, tree, file⟩
    rw [session, inheritTree_bytes ctx sub _ hdr, tree, file]

end

/-- An element is dispatched as it was received exactly when it inherits nothing. -/
theorem Element.bytes_eq_received_iff (e : Element) : e.bytes = e.received ↔ e.InheritsNothing := by
  rw [Element.bytes, InheritsNothing]
  cases parsed : Smb2Header.parse e.received with
  | none => simp
  | some parts =>
    obtain ⟨hdr, body⟩ := parts
    have long : smb2HeaderLen ≤ e.received.length :=
      Nat.le_of_not_lt fun short => by simp [Smb2Header.parse, short] at parsed
    simp only [effectiveElement, Option.some.injEq, Prod.mk.injEq, and_imp]
    split
    next related =>
      rw [inheritRelatedContext_eq_self_iff _ _ _ long, inheritSession_eq_self_iff _ _ _ long,
        inheritTree_eq_self_iff _ _ _ long, inheritFileId_eq_self_iff]
      constructor
      · rintro all hdr' body' rfl - -
        exact all
      · intro all
        exact all hdr body rfl rfl related
    next unrelated =>
      simp only [true_iff]
      rintro hdr' body' rfl - related
      exact absurd related unrelated

section

variable {σ η : Type} [Host σ η] [Crypto]

/-! ### The signature check -/

/-- The step is a signed element, other than NEGOTIATE, of a live user session. -/
structure SignedElement (s : System σ η) (step : Step) (conn : Connection η) (e : Element)
    (hdr : Smb2Header) (sess : Session η) : Prop where
  element : ∃ cid, step = .element cid e ∧ s.conns.lookup cid = some conn
  parsed : ∃ body, Smb2Header.parse e.bytes = some (hdr, body)
  command : hdr.command ≠ .negotiate
  signed : hasFlag hdr.flags smb2FlagsSigned = true
  live : conn.sessions.lookup hdr.sessionId = some sess
  user : sess.identity.isAnonymous = false

omit [Host σ η] in
/-- For a signed element of a live user session the check is the MAC comparison. -/
theorem verifyRequestSignature_iff (conn : Connection η) (hdr : Smb2Header) (frame : Bytes)
    (sess : Session η) (command : hdr.command ≠ .negotiate) (nonzero : hdr.sessionId ≠ 0)
    (signed : hasFlag hdr.flags smb2FlagsSigned = true)
    (live : conn.sessions.lookup hdr.sessionId = some sess)
    (user : sess.identity.isAnonymous = false) :
    verifyRequestSignature conn hdr frame = .ok () ↔
      verify frame sess.signingKey conn.signingAlgo = true := by
  simp only [verifyRequestSignature, command, nonzero, signed, live, user, if_true, if_false,
    Bool.false_eq_true]
  split
  next good => simp [good]
  next bad => simp [bad]

/-- Whatever the MAC, the server accepts an element exactly when its signature verifies over the
bytes received. -/
def CheckedAsReceived (conn : Connection η) (e : Element) (hdr : Smb2Header)
    (sess : Session η) : Prop :=
  ∀ crypto : Crypto, @verifyRequestSignature η crypto conn hdr e.bytes = .ok () ↔
    @verify crypto e.received sess.signingKey conn.signingAlgo = true

/-- Over every run, the signatures of an element are checked over the received bytes exactly when
the element inherits nothing. -/
theorem checkedAsReceived_iff (server : ServerState) (host : σ) (events : List Event) :
    System.Throughout server host events fun s step => ∀ (conn : Connection η) e hdr sess,
      SignedElement s step conn e hdr sess →
        (CheckedAsReceived conn e hdr sess ↔ e.InheritsNothing) := by
  refine System.Throughout.of_invariant _ server host events (fun _ _ found => nomatch found)
    noSessionZero_execute ?_
  intro s step inv conn e hdr sess element
  obtain ⟨cid, rfl, here⟩ := element.element
  obtain ⟨body, parsed⟩ := element.parsed
  have nonzero : hdr.sessionId ≠ 0 := Connection.session_ne_zero (inv cid conn here) element.live
  have long : 64 ≤ e.bytes.length :=
    Nat.le_of_not_lt fun short => by simp [Smb2Header.parse, smb2HeaderLen, short] at parsed
  rw [← e.bytes_eq_received_iff, ← verify_forall_iff e.length_bytes long e.slice_bytes_signature
    sess.signingKey conn.signingAlgo]
  refine forall_congr' fun crypto => ?_
  rw [verifyRequestSignature_iff conn hdr e.bytes sess element.command nonzero element.signed
    element.live element.user]
  exact Bool.eq_iff_iff.symm

end

/-! ### A related element -/

open scoped Sample

/-- Two signed ECHO requests of one session, the second related to the first. -/
def Sample.firstEcho : Bytes :=
  Client.signedFirst (signingKey30 Sample.userKey) .hmacSha256 .echo 1 0 Client.emptyBody

def Sample.relatedEcho : Bytes :=
  Client.signedRelated (signingKey30 Sample.userKey) .hmacSha256 .echo Client.emptyBody

/-- The signature of the related ECHO verifies as received and is rejected. -/
theorem relatedEcho_rejected :
    ¬∀ events : List Event, System.Throughout Sample.server () events
      fun s step => ∀ conn e hdr sess, SignedElement s step conn e hdr sess →
        (verifyRequestSignature conn hdr e.bytes = .ok () ↔
          verify e.received sess.signingKey conn.signingAlgo = true) := by
  intro all
  let before := Sample.session (Sample.userOn 0x0210)
  let first : Element := .single Sample.firstEcho
  let second : Element := ⟨Sample.relatedEcho, ⟨1, 0, none⟩, 1⟩
  have frame := (all (before ++ [.frame 1 (Sample.firstEcho ++ Sample.relatedEcho)])).lastFrame
    [(1, first), (1, second)] (by decide +kernel)
  -- the state between the two elements of the frame
  let s : System Unit Unit :=
    ((System.start Sample.server ()).run before).execute (.element 1 first)
  have reached : (s.conns.lookup 1).any (fun conn =>
      (Smb2Header.parse second.bytes).any fun found =>
        (conn.sessions.lookup found.1.sessionId).any fun sess =>
          !sess.identity.isAnonymous && hasFlag found.1.flags smb2FlagsSigned &&
            found.1.command ≠ .negotiate &&
            verify second.received sess.signingKey conn.signingAlgo &&
            (verifyRequestSignature conn found.1 second.bytes).toBool == false) = true := by
    decide +kernel
  simp only [Option.any_eq_true, Bool.and_eq_true, decide_eq_true_eq, beq_iff_eq,
    Bool.not_eq_true', Prod.exists] at reached
  obtain ⟨conn, live, hdr, body, parsed, sess, session, ⟨⟨⟨user, signed⟩, command⟩, verified⟩,
    rejected⟩ := reached
  have accepted := (frame.2.1 conn second hdr sess
    ⟨⟨1, rfl, live⟩, ⟨body, parsed⟩, command, signed, session, user⟩).mpr verified
  rw [accepted] at rejected
  cases rejected

end SmbServer
