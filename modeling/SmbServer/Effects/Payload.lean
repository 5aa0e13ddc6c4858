import SmbServer.Effects.Inherit
import SmbServer.Effects.Twin

/-!
# SmbServer.Effects.Payload

Two requests that differ in the payload of an unsigned WRITE. Nothing in front of the backend looks
at the payload: not the compound's rewriting of ids, not the check of the signature, not the
handler.
-/

namespace SmbServer

open Lib

/-- The header and the fixed part of a WRITE. -/
def writeFixedLen : Nat := smb2HeaderLen + 48

/-- The same bytes, or an unsigned WRITE with another payload of the same length. -/
inductive SameElement : Bytes → Bytes → Prop where
  | same (sub : Bytes) : SameElement sub sub
  | payload (front tail tail' body : Bytes) (hdr : Smb2Header)
      (fixed : front.length = writeFixedLen) (length : tail.length = tail'.length)
      (parsed : Smb2Header.parse front = some (hdr, body)) (write : hdr.command = .write)
      (unsigned : hasFlag hdr.flags smb2FlagsSigned = false) :
      SameElement (front ++ tail) (front ++ tail')

/-! ### The header -/

/-- The header and what is in front of the payload are read from the front. -/
theorem Smb2Header.parse_append {front : Bytes} {hdr : Smb2Header} {body : Bytes}
    (parsed : Smb2Header.parse front = some (hdr, body)) (tail : Bytes) :
    Smb2Header.parse (front ++ tail) = some (hdr, body ++ tail) := by
  have long := Smb2Header.long_of_parse parsed
  have whole := Smb2Header.parse_take (front ++ tail) front.length long (by simp)
  rw [List.take_left' rfl, parsed] at whole
  cases read : Smb2Header.parse (front ++ tail) with
  | none => simp [read] at whole
  | some parts =>
    obtain ⟨hdr', behind⟩ := parts
    simp only [read, Option.map_some, Option.some.injEq, Prod.mk.injEq] at whole
    obtain ⟨rfl, -⟩ := whole
    rw [Smb2Header.body_of_parse read, Smb2Header.body_of_parse parsed,
      List.drop_append_of_le_length long]

section

variable (ctx : RelatedContext) (front tail : Bytes) (hdr : Smb2Header)

theorem inheritSession_append (long : smb2HeaderLen ≤ front.length) :
    inheritSession ctx (front ++ tail) hdr =
      ((inheritSession ctx front hdr).1 ++ tail, (inheritSession ctx front hdr).2) := by
  rw [smb2HeaderLen] at long
  have read : readU64 (front ++ tail) 0x28 = readU64 front 0x28 :=
    congrArg u64OfLe (slice_append_left _ _ _ _ (by omega))
  rw [inheritSession, inheritSession, read]
  split
  · rw [patch_append_left _ _ _ _ (by rw [length_u64le]; omega)]
  · rfl

theorem inheritTree_append (long : smb2HeaderLen ≤ front.length) :
    inheritTree ctx (front ++ tail) hdr =
      ((inheritTree ctx front hdr).1 ++ tail, (inheritTree ctx front hdr).2) := by
  rw [smb2HeaderLen] at long
  have read : readU32 (front ++ tail) 0x24 = readU32 front 0x24 :=
    congrArg u32OfLe (slice_append_left _ _ _ _ (by omega))
  rw [inheritTree, inheritTree, read]
  split
  · rw [patch_append_left _ _ _ _ (by rw [length_u32le]; omega)]
  · rfl

/-- A FileId ends within the fixed part of a WRITE. -/
theorem fileIdBodyOffset_le {command : Command} {off : Nat}
    (h : fileIdBodyOffset command = some off) : off ≤ 24 := by
  cases command <;> simp only [fileIdBodyOffset, reduceCtorEq, Option.some.injEq] at h <;> omega

theorem inheritFileId_append (command : Command) (long : writeFixedLen ≤ front.length) :
    inheritFileId ctx command (front ++ tail) = inheritFileId ctx command front ++ tail := by
  rw [writeFixedLen, smb2HeaderLen] at long
  unfold inheritFileId
  split
  next fileId bodyOffset _ named =>
    have within := fileIdBodyOffset_le named
    -- both words of the file id, and the bytes that are patched, lie in front of the tail
    have first : readU64 (front ++ tail) (smb2HeaderLen + bodyOffset) =
        readU64 front (smb2HeaderLen + bodyOffset) :=
      congrArg u64OfLe (slice_append_left _ _ _ _ (by rw [smb2HeaderLen]; omega))
    have second : readU64 (front ++ tail) (smb2HeaderLen + bodyOffset + 8) =
        readU64 front (smb2HeaderLen + bodyOffset + 8) :=
      congrArg u64OfLe (slice_append_left _ _ _ _ (by rw [smb2HeaderLen]; omega))
    have fits : smb2HeaderLen + bodyOffset + 16 ≤ front.length := by rw [smb2HeaderLen]; omega
    have fits' : smb2HeaderLen + bodyOffset + 16 ≤ (front ++ tail).length := by
      rw [List.length_append]
      omega
    simp only [first, second, fits, fits', true_and]
    split
    · exact patch_append_left _ _ _ _ (by rw [ByteVec.length_val]; exact fits)
    · rfl
  next => rfl

theorem effectiveElement_append (long : writeFixedLen ≤ front.length) :
    effectiveElement ctx hdr (front ++ tail) =
      ((effectiveElement ctx hdr front).1 ++ tail, (effectiveElement ctx hdr front).2) := by
  have header : smb2HeaderLen ≤ front.length := Nat.le_trans (Nat.le_add_right _ 48) long
  have first := length_inheritSession ctx front hdr header
  have second := length_inheritTree ctx (inheritSession ctx front hdr).1
    (inheritSession ctx front hdr).2 (by rw [first]; exact header)
  unfold effectiveElement
  split
  · simp only [inheritRelatedContext]
    rw [inheritSession_append ctx front tail hdr header]
    dsimp only
    rw [inheritTree_append _ _ _ _ (by rw [first]; exact header)]
    dsimp only
    rw [inheritFileId_append _ _ _ _ (by rw [second, first]; exact long)]
  · rfl

end

/-- What is inherited does not come from a payload and does not go there. -/
theorem SameElement.effective {sub sub' : Bytes} (same : SameElement sub sub')
    (ctx : RelatedContext) {hdr : Smb2Header} {body : Bytes}
    (header : Smb2Header.parse sub = some (hdr, body)) :
    (effectiveElement ctx hdr sub).2 = (effectiveElement ctx hdr sub').2 ∧
      SameElement (effectiveElement ctx hdr sub).1 (effectiveElement ctx hdr sub').1 := by
  cases same with
  | same => exact ⟨rfl, .same _⟩
  | payload front tail tail' body' hdr' fixed length parsed write unsigned =>
    have known := Smb2Header.parse_append parsed tail
    obtain ⟨rfl, -⟩ := Prod.mk.inj (Option.some.inj (known.symm.trans header))
    have bytes : (Element.mk front ctx 0).bytes = (effectiveElement ctx hdr' front).1 := by
      simp only [Element.bytes, parsed]
    obtain ⟨hdr, behind, read, command, flags, -⟩ := (Element.mk front ctx 0).parse_bytes parsed
    have long := (Element.mk front ctx 0).length_bytes
    rw [bytes] at read long
    rw [effectiveElement_append _ _ _ _ (Nat.le_of_eq fixed.symm),
      effectiveElement_append _ _ _ _ (Nat.le_of_eq fixed.symm)]
    exact ⟨rfl, .payload _ tail tail' _ hdr (long.trans fixed) length read (command.trans write)
      (by rw [flags]; exact unsigned)⟩

/-! ### The handler of WRITE -/

/-- Two bodies with the same fixed part and payloads of one length are parsed to requests that
differ in their data. -/
theorem WriteRequest.parse_payload {buf buf' : Bytes} {req : WriteRequest}
    (whole : buf.length = buf'.length)
    (reads : ∀ off len, off + len ≤ 48 → slice buf off len = slice buf' off len)
    (parsed : WriteRequest.parse buf = some req) :
    ∃ data, WriteRequest.parse buf' = some { req with data := data } ∧
      req.data.length = data.length := by
  -- every word of the request lies in the fixed part
  have reads16 (off : Nat) (inside : off + 2 ≤ 48) : readU16 buf off = readU16 buf' off := by
    rw [readU16, reads off 2 inside, readU16]
  have reads32 (off : Nat) (inside : off + 4 ≤ 48) : readU32 buf off = readU32 buf' off := by
    rw [readU32, reads off 4 inside, readU32]
  have reads64 (off : Nat) (inside : off + 8 ≤ 48) : readU64 buf off = readU64 buf' off := by
    rw [readU64, reads off 8 inside, readU64]
  obtain ⟨long, rfl⟩ := (WriteRequest.parse_eq_some buf req).mp parsed
  have long' := long
  rw [reads32 4 (by omega), whole] at long'
  refine ⟨slice buf' 48 (if readU32 buf' 4 = 0 then 1 else (readU32 buf' 4).toNat),
    (WriteRequest.parse_eq_some buf' _).mpr ⟨long', ?_⟩, ?_⟩
  · rw [reads16 0 (by omega), reads16 2 (by omega), reads32 4 (by omega), reads64 8 (by omega),
      reads64 16 (by omega), reads64 24 (by omega), reads32 32 (by omega), reads32 36 (by omega),
      reads16 40 (by omega), reads16 42 (by omega), reads32 44 (by omega)]
  · rw [length_slice _ _ _ long, length_slice _ _ _ long', reads32 4 (by omega)]

variable {σ η : Type} [Host σ η] {R : σ → σ → Prop} (alike : AnswersAlike R)

include alike

/-- Two requests that differ in the payload are answered alike and leave the same trace. -/
theorem AnswersAlike.write_agrees (server : ServerState) (hdr : Smb2Header) {body body' : Bytes}
    (whole : body.length = body'.length)
    (reads : ∀ off len, off + len ≤ 48 → slice body off len = slice body' off len) :
    Action.Agrees (World.Twin R) (Write.handle server hdr body : Action (World σ η) HandlerResponse)
      (Write.handle server hdr body') := by
  cases parsed : WriteRequest.parse body with
  | none =>
    have parsed' : WriteRequest.parse body' = none := by
      cases other : WriteRequest.parse body' with
      | none => rfl
      | some req =>
        obtain ⟨data, read, -⟩ := WriteRequest.parse_payload whole.symm
          (fun off len inside => (reads off len inside).symm) other
        rw [parsed] at read
        cases read
    simp only [Write.handle, parsed, parsed']
    exact .pure _
  | some req =>
    obtain ⟨data, parsed', length⟩ := WriteRequest.parse_payload whole reads parsed
    simp only [Write.handle, parsed, parsed']
    refine .bind (Steady.record _ _) fun _ => .bind Steady.getConn fun conn => ?_
    have checks : Write.validate conn hdr { req with data := data } =
        Write.validate conn hdr req := rfl
    rw [checks]
    split
    · exact .pure _
    next h _ =>
    -- The one call that carries the payload.
    refine .bind (Steady.issued (alike.writeOwned h.inner req.offset _ _ length)) fun answer => ?_
    split <;> exact .pure _

/-! ### One element -/

namespace AnswersAlike

variable [Crypto]

theorem dispatchCommand_steady (server : ServerState) (hdr : Smb2Header) (body : Bytes) :
    Steady R (dispatchCommand server hdr body : Action (World σ η) HandlerResponse) := by
  unfold dispatchCommand
  -- a WRITE agrees also with itself, its data being of one length
  cases hdr.command with
  | negotiate => exact alike.negotiate_steady server body
  | sessionSetup => exact alike.sessionSetup_steady server hdr body
  | logoff => exact alike.logoff_steady hdr
  | treeConnect => exact treeConnect_steady server hdr body
  | treeDisconnect => exact alike.treeDisconnect_steady hdr
  | create => exact alike.create_steady server hdr body
  | close => exact alike.close_steady server hdr body
  | flush => exact alike.flush_steady hdr body
  | read => exact alike.read_steady hdr body
  | write => exact alike.write_agrees server hdr rfl fun _ _ _ => rfl
  | ioctl => exact ioctl_steady server body
  | queryDirectory => exact alike.queryDirectory_steady hdr body
  | queryInfo => exact alike.queryInfo_steady hdr body
  | setInfo => exact alike.setInfo_steady server hdr body
  | lock | echo | changeNotify | oplockBreak | cancel => exact .pure _

omit [Host σ η] [Crypto] alike in
theorem takeSessionPreauth_steady (sid : UInt64) :
    Steady R (takeSessionPreauth sid : Action (World σ η) PreauthIntegrity) := by
  intro w w' twin
  simp only [takeSessionPreauth, ← twin.conn]
  split
  · exact ⟨rfl, rfl, twin.env⟩
  · exact ⟨rfl, twin⟩

omit alike in
/-- The hashing and the response around handlers that agree. The frame itself is hashed for
NEGOTIATE and SESSION_SETUP only. -/
theorem runHandler_agrees (server : ServerState) (hdr : Smb2Header)
    {frame frame' body body' : Bytes} (frames : frame = frame' ∨ hdr.command = .write)
    (handlers : Action.Agrees (World.Twin R)
      (dispatchCommand server hdr body : Action (World σ η) HandlerResponse)
      (dispatchCommand server hdr body')) :
    Action.Agrees (World.Twin R) (runHandler server hdr frame body : Action (World σ η) Bytes)
      (runHandler server hdr frame' body') := by
  -- a WRITE is hashed by nothing, so the frames may differ
  have before : Action.Agrees (World.Twin R)
      (preauthBefore hdr frame : Action (World σ η) _) (preauthBefore hdr frame') := by
    refine .bind Steady.getConn fun conn => ?_
    rcases frames with rfl | write
    · split
      · exact .bind (Steady.modifyConn _) fun _ => .pure _
      split
      · exact .bind (takeSessionPreauth_steady _) fun _ => .pure _
      · exact .pure _
    · rw [write, if_neg (by decide), if_neg (fun both => absurd both.1 (by decide)),
        if_neg (by decide), if_neg (fun both => absurd both.1 (by decide))]
      exact .pure _
  have taken (resp : HandlerResponse) (preauth : Option PreauthIntegrity) :
      Steady R (takeSnapshot resp preauth : Action (World σ η) Unit) := by
    unfold takeSnapshot
    split
    · exact .pure _
    split
    · exact .panicAt _
    · exact .modifyConn _
  -- the response is hashed, and the responses agree
  have behind (dialect : Option Dialect) (preauth : Option PreauthIntegrity) (bytes : Bytes) :
      Steady R (preauthAfter hdr dialect preauth bytes : Action (World σ η) Unit) := by
    unfold preauthAfter
    split
    · exact .modifyConn _
    split
    · split
      · split
        · exact .pure _
        · exact .modifyConn _
      · exact .modifyConn _
    · exact .pure _
  refine .bind Steady.getConn fun conn => .bind before fun preauth => ?_
  refine .bind handlers fun resp => .bind (taken _ _) fun _ => .bind Steady.getConn fun _ => ?_
  exact .bind (Steady.record _ _) fun _ => .bind (behind _ _ _) fun _ => .pure _

omit [Host σ η] alike [Crypto] in
theorem bindTraceKey_steady (server : ServerState) (hdr : Smb2Header) (ordinal : UInt32) :
    Steady R (bindTraceKey server hdr ordinal : Action (World σ η) Unit) := by
  intro w w' twin
  obtain ⟨conn, env⟩ := twin
  refine ⟨rfl, conn, env.host, env.nextHandle, env.trace, ?_, env.panics⟩
  simp only [bindTraceKey, conn]

omit [Host σ η] alike in
/-- Without a signature there is nothing to compare a frame with. -/
theorem verify_of_unsigned (conn : Connection η) (hdr : Smb2Header) (frame frame' : Bytes)
    (unsigned : hasFlag hdr.flags smb2FlagsSigned = false) :
    verifyRequestSignature conn hdr frame = verifyRequestSignature conn hdr frame' := by
  simp only [verifyRequestSignature, unsigned, Bool.false_eq_true, if_false]

theorem dispatchOne_agrees (server : ServerState) {frame frame' : Bytes}
    (same : SameElement frame frame') (ordinal : UInt32) :
    Action.Agrees (World.Twin R) (dispatchOne server frame ordinal : Action (World σ η) _)
      (dispatchOne server frame' ordinal) := by
  -- The header is one, and so is what the check of the signature says.
  have dispatched (hdr : Smb2Header) (body body' : Bytes)
      (parsed : Smb2Header.parse frame = some (hdr, body))
      (parsed' : Smb2Header.parse frame' = some (hdr, body'))
      (verified : ∀ conn : Connection η, verifyRequestSignature conn hdr frame =
        verifyRequestSignature conn hdr frame')
      (handlers : Action.Agrees (World.Twin R)
        (runHandler server hdr frame body : Action (World σ η) Bytes)
        (runHandler server hdr frame' body')) :
      Action.Agrees (World.Twin R) (dispatchOne server frame ordinal : Action (World σ η) _)
        (dispatchOne server frame' ordinal) := by
    simp only [dispatchOne, parsed, parsed']
    refine .bind (bindTraceKey_steady _ _ _) fun _ => .bind (Steady.record _ _) fun _ => ?_
    refine .bind Steady.getConn fun conn => ?_
    rw [← verified conn]
    split
    · exact .bind (Steady.record _ _) fun _ => .pure _
    split
    · exact .pure _
    · exact .bind handlers fun _ => .pure _
  cases same with
  | same =>
    cases parsed : Smb2Header.parse frame with
    | none =>
      simp only [dispatchOne, parsed]
      exact .pure _
    | some parts =>
      obtain ⟨hdr, body⟩ := parts
      exact dispatched hdr body body parsed parsed (fun _ => rfl)
        (runHandler_agrees server hdr (.inl rfl) (alike.dispatchCommand_steady server hdr body))
  | payload front tail tail' body hdr fixed length parsed write unsigned =>
    refine dispatched hdr _ _ (Smb2Header.parse_append parsed tail)
      (Smb2Header.parse_append parsed tail') (fun conn => verify_of_unsigned conn hdr _ _ unsigned)
      (runHandler_agrees server hdr (.inr write) ?_)
    simp only [dispatchCommand, write]
    have fixedBody : body.length = 48 := by
      rw [Smb2Header.body_of_parse parsed, List.length_drop, fixed, writeFixedLen]
      omega
    refine alike.write_agrees server hdr ?_ fun off len inside => ?_
    · rw [List.length_append, List.length_append, length]
    · rw [slice_append_left _ _ _ _ (by omega), slice_append_left _ _ _ _ (by omega)]

end AnswersAlike

end SmbServer
