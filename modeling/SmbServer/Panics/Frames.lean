import SmbServer.Panics.Wire
import SmbServer.Effects.Answer

/-!
# SmbServer.Panics.Frames

What the dispatcher does with the bytes of frames and responses, with its panics: splitting a
compound, inheriting ids, signatures, stitching, and the SMB1 dialect strings.
-/

namespace SmbServer.Panicking

open Lib Risky

/-! ### Elements -/

/-- The sub-frame at the front of what is left of a frame. -/
def splitElement (available : Bytes) : RiskyParser (Smb2Header × Bytes × Nat) := do
  let (hdr, _) ← Smb2Header.parse available
  let next := hdr.nextCommand.toNat
  if next = 0 then return (hdr, available, 0)
  else if next < smb2HeaderLen ∨ next > available.length then RiskyParser.reject
  else do
    let sub ← rangeTo available next
    return (hdr, sub, next)

theorem splitElement_eq (available : Bytes) :
    splitElement available = .ofOption (SmbServer.splitElement available) := by
  rw [splitElement, SmbServer.splitElement, Smb2Header.parse_eq]
  cases SmbServer.Smb2Header.parse available with
  | none => rfl
  | some parts =>
    obtain ⟨hdr, body⟩ := parts
    rw [RiskyParser.some_bind]
    dsimp only
    split
    · rfl
    split
    · rfl
    next inside =>
      rw [rangeTo_of_le (Nat.not_lt.mp (not_or.mp inside).2)]
      rfl

def inheritSession (ctx : RelatedContext) (sub : Bytes) (hdr : Smb2Header) :
    Risky (Bytes × Smb2Header) := do
  if (← readU64 sub 0x28) = maxU64 then
    let sub ← copyInto sub 0x28 0x30 (u64le ctx.prevSessionId)
    return (sub, { hdr with sessionId := ctx.prevSessionId })
  else return (sub, hdr)

def inheritTree (ctx : RelatedContext) (sub : Bytes) (hdr : Smb2Header) :
    Risky (Bytes × Smb2Header) := do
  if (← readU32 sub 0x24) = maxU32 then
    let sub ← copyInto sub 0x24 0x28 (u32le ctx.prevTreeId)
    return (sub,
      match hdr.tail with
      | .sync reserved _ => { hdr with tail := .sync reserved ctx.prevTreeId }
      | .async _ => hdr)
  else return (sub, hdr)

/-- The words are read when there is room for them. -/
def fileIdIsAny (sub : Bytes) (offset : Nat) : Risky Bool :=
  if offset + 16 ≤ sub.length then do
    if (← readU64 sub offset) = maxU64 then return (← readU64 sub (offset + 8)) == maxU64
    else return false
  else return false

def inheritFileId (ctx : RelatedContext) (command : Command) (sub : Bytes) : Risky Bytes :=
  match ctx.prevCreateFileId, fileIdBodyOffset command with
  | some fileId, some bodyOffset => do
    let offset := smb2HeaderLen + bodyOffset
    if ← fileIdIsAny sub offset then copyInto sub offset (offset + 16) fileId.val
    else return sub
  | _, _ => return sub

/-- `inherit_related_context` -/
def inheritRelatedContext (ctx : RelatedContext) (sub : Bytes) (hdr : Smb2Header) :
    Risky (Bytes × Smb2Header) := do
  let (sub, hdr) ← inheritSession ctx sub hdr
  let (sub, hdr) ← inheritTree ctx sub hdr
  return (← inheritFileId ctx hdr.command sub, hdr)

def effectiveElement (ctx : RelatedContext) (hdr : Smb2Header) (sub : Bytes) :
    Risky (Bytes × Smb2Header) :=
  if hasFlag hdr.flags smb2FlagsRelatedOperations then inheritRelatedContext ctx sub hdr
  else return (sub, hdr)

/-- `capture_create_file_id` -/
def captureCreateFileId (response : Bytes) : Risky (Option (ByteVec 16)) :=
  if response.length < smb2HeaderLen + 80 then return none
  else do
    if (← readU32 response 0x08) ≠ statusSuccess then return none
    else
      let offset := smb2HeaderLen + 64
      let fileId ← filled 16 (← range response offset (offset + 16))
      return some fileId

def nextFileId (ctx : RelatedContext) (command : Command) :
    Option Bytes → Risky (Option (ByteVec 16))
  | some bytes =>
    if command = .create then captureCreateFileId bytes else return ctx.prevCreateFileId
  | none => return ctx.prevCreateFileId

def nextContext (ctx : RelatedContext) (hdr : Smb2Header) (response : Option Bytes) :
    Risky RelatedContext := do
  let prevCreateFileId ← nextFileId ctx hdr.command response
  return ⟨hdr.sessionId, hdr.treeId.getD 0, prevCreateFileId⟩

section

variable (ctx : RelatedContext) {sub : Bytes} (long : smb2HeaderLen ≤ sub.length)
include long

theorem inheritSession_eq (hdr : Smb2Header) :
    inheritSession ctx sub hdr = .ok (SmbServer.inheritSession ctx sub hdr) := by
  rw [smb2HeaderLen] at long
  have room : 0x28 + (u64le ctx.prevSessionId).length ≤ sub.length := by
    rw [length_u64le]
    omega
  have patched := copyInto_patch room
  rw [length_u64le] at patched
  rw [inheritSession, SmbServer.inheritSession, readU64_eq (by omega), ok_bind, patched]
  split <;> rfl

theorem inheritTree_eq (hdr : Smb2Header) :
    inheritTree ctx sub hdr = .ok (SmbServer.inheritTree ctx sub hdr) := by
  rw [smb2HeaderLen] at long
  have room : 0x24 + (u32le ctx.prevTreeId).length ≤ sub.length := by
    rw [length_u32le]
    omega
  have patched := copyInto_patch room
  rw [length_u32le] at patched
  rw [inheritTree, SmbServer.inheritTree, readU32_eq (by omega), ok_bind, patched]
  split <;> rfl

omit long in
theorem inheritFileId_eq (command : Command) :
    inheritFileId ctx command sub = .ok (SmbServer.inheritFileId ctx command sub) := by
  rw [inheritFileId, SmbServer.inheritFileId]
  cases ctx.prevCreateFileId with
  | none => rfl
  | some fileId =>
    cases fileIdBodyOffset command with
    | none => rfl
    | some bodyOffset =>
      dsimp only
      generalize smb2HeaderLen + bodyOffset = offset
      by_cases room : offset + 16 ≤ sub.length
      · have patched := @copyInto_patch sub fileId.val offset (by rwa [ByteVec.length_val])
        rw [ByteVec.length_val] at patched
        rw [fileIdIsAny, if_pos room, readU64_eq (by omega), ok_bind, readU64_eq (by omega),
          ok_bind, patched]
        by_cases first : Lib.readU64 sub offset = maxU64
        · by_cases second : Lib.readU64 sub (offset + 8) = maxU64
          · rw [if_pos first, if_pos ⟨room, first, second⟩, second]
            rfl
          · rw [if_pos first, if_neg fun all => second all.2.2, beq_eq_false_iff_ne.mpr second]
            rfl
        · rw [if_neg first, if_neg fun all => first all.2.1]
          rfl
      · rw [fileIdIsAny, if_neg room, if_neg fun all => room all.1]
        rfl

theorem inheritRelatedContext_eq (hdr : Smb2Header) :
    inheritRelatedContext ctx sub hdr = .ok (SmbServer.inheritRelatedContext ctx sub hdr) := by
  rw [inheritRelatedContext, inheritSession_eq ctx long, ok_bind, SmbServer.inheritRelatedContext]
  have same : (SmbServer.inheritSession ctx sub hdr).1.length = sub.length := by
    rw [SmbServer.inheritSession]
    split
    · refine length_patch _ _ _ ?_
      rw [length_u64le]
      rw [smb2HeaderLen] at long
      omega
    · rfl
  generalize SmbServer.inheritSession ctx sub hdr = inherited at same
  obtain ⟨sub', hdr'⟩ := inherited
  have long : smb2HeaderLen ≤ sub'.length := long.trans (Nat.le_of_eq same.symm)
  dsimp only
  rw [inheritTree_eq ctx long, ok_bind, inheritFileId_eq]
  rfl

theorem effectiveElement_eq (hdr : Smb2Header) :
    effectiveElement ctx hdr sub = .ok (SmbServer.effectiveElement ctx hdr sub) := by
  rw [effectiveElement, SmbServer.effectiveElement]
  split
  · exact inheritRelatedContext_eq ctx long hdr
  · rfl

end

theorem captureCreateFileId_eq (response : Bytes) :
    captureCreateFileId response = .ok (SmbServer.captureCreateFileId response) := by
  rw [captureCreateFileId, SmbServer.captureCreateFileId]
  by_cases short : response.length < smb2HeaderLen + 80
  · rw [if_pos short, if_pos (.inl short)]
    rfl
  have long := Nat.not_lt.mp short
  rw [smb2HeaderLen] at long
  rw [if_neg short, readU32_eq (by omega), ok_bind]
  by_cases failed : Lib.readU32 response 0x08 ≠ statusSuccess
  · rw [if_pos failed, if_pos (.inr failed)]
    rfl
  · have inside : smb2HeaderLen + 64 + 16 ≤ response.length := Nat.not_lt.mp short
    rw [if_neg failed, if_neg (not_or.mpr ⟨short, failed⟩)]
    dsimp only
    rw [range_slice inside, ok_bind, filled_of_length (length_slice _ _ _ inside)]
    rfl

theorem nextContext_eq (ctx : RelatedContext) (hdr : Smb2Header) (response : Option Bytes) :
    nextContext ctx hdr response = .ok (SmbServer.nextContext ctx hdr response) := by
  rw [nextContext, SmbServer.nextContext.eq_def]
  cases response with
  | none => rfl
  | some bytes =>
    rw [nextFileId, captureCreateFileId_eq]
    dsimp only
    split <;> rfl

/-! ### Signatures -/

section

variable {η : Type}

/-- `verify_request_signature` -/
def verifyRequestSignature [Crypto] (conn : Connection η) (hdr : Smb2Header) (frame : Bytes) :
    Risky (Except NtStatus Unit) :=
  if hdr.command = .negotiate then return .ok ()
  else if hdr.sessionId = 0 then return .ok ()
  else
    let signed := hasFlag hdr.flags smb2FlagsSigned
    match conn.sessions.lookup hdr.sessionId with
    | none => if signed then return .error statusUserSessionDeleted else return .ok ()
    | some sess =>
      if signed then
        if sess.identity.isAnonymous then return .ok ()
        else do
          match ← verify frame sess.signingKey conn.signingAlgo with
          | .ok () => return .ok ()
          | .error _ => return .error statusAccessDenied
      else if hdr.command ≠ .sessionSetup ∧ sess.signingRequired ∧ ¬sess.identity.isAnonymous then
        return .error statusAccessDenied
      else return .ok ()

/-- The flags are read from a body that is long enough to have them. -/
def isGuestResponse (setupSuccess : Bool) (body : Bytes) : Risky Bool :=
  if setupSuccess && body.length ≥ 4 then do
    return (← index body 2) &&& 0x01 != 0
  else return false

def responseKey (conn : Connection η) (reqHdr : Smb2Header) (resp : HandlerResponse) :
    Risky (Option Key) :=
  let sid := (responseHeader reqHdr resp).sessionId
  let setupSuccess := reqHdr.command == .sessionSetup && resp.status == statusSuccess
  if !resp.skipSigning && sid != 0 &&
      (hasFlag reqHdr.flags smb2FlagsSigned || setupSuccess) then
    match conn.sessions.lookup sid with
    | some sess => do
      let guestResponse ← isGuestResponse setupSuccess resp.body
      return if !sess.identity.isAnonymous && !guestResponse &&
        sess.signingKey ≠ ByteVec.zero 16 then some sess.signingKey else none
    | none => return none
  else return none

/-- `build_response_bytes` -/
def buildResponseBytes [Crypto] (conn : Connection η) (reqHdr : Smb2Header)
    (resp : HandlerResponse) : Risky Bytes := do
  let hdr := responseHeader reqHdr resp
  match ← responseKey conn reqHdr resp with
  | some key =>
    let front ← Smb2Header.write { hdr with flags := hdr.flags ||| smb2FlagsSigned }
    return (← sign (front ++ resp.body) key conn.signingAlgo).2
  | none =>
    let front ← Smb2Header.write { hdr with flags := hdr.flags &&& ~~~smb2FlagsSigned }
    return front ++ resp.body

theorem verifyRequestSignature_eq [Crypto] (conn : Connection η) (hdr : Smb2Header)
    (frame : Bytes) :
    verifyRequestSignature conn hdr frame =
      .ok (SmbServer.verifyRequestSignature conn hdr frame) := by
  rw [verifyRequestSignature, SmbServer.verifyRequestSignature]
  split
  · rfl
  split
  · rfl
  dsimp only
  cases conn.sessions.lookup hdr.sessionId with
  | none =>
    dsimp only
    split <;> rfl
  | some sess =>
    dsimp only
    split
    · split
      · rfl
      · have same := Sign.verify_eq_ok frame sess.signingKey conn.signingAlgo
        rw [verify_eq, ok_bind]
        cases verified : Sign.verify frame sess.signingKey conn.signingAlgo with
        | ok done =>
          rw [if_pos (same.mp verified)]
          rfl
        | error e =>
          have fails : ¬ SmbServer.verify frame sess.signingKey conn.signingAlgo = true := by
            intro holds
            rw [same.mpr holds] at verified
            cases verified
          rw [if_neg fails]
          rfl
    · split <;> rfl

theorem isGuestResponse_eq (setupSuccess : Bool) (body : Bytes) :
    isGuestResponse setupSuccess body =
      .ok (setupSuccess && body.length ≥ 4 && body.getD 2 0 &&& 0x01 != 0) := by
  rw [isGuestResponse]
  by_cases long : (setupSuccess && body.length ≥ 4) = true
  · have inside : 2 < body.length := by
      have long := of_decide_eq_true (Bool.and_eq_true_iff.mp long).2
      omega
    have third : body.getD 2 0 = body[2] := by
      rw [List.getD_eq_getElem?_getD, List.getElem?_eq_getElem inside, Option.getD_some]
    rw [if_pos long, long, index_of_lt inside, third]
    rfl
  · rw [if_neg long, Bool.eq_false_iff.mpr long]
    rfl

theorem responseKey_eq (conn : Connection η) (reqHdr : Smb2Header) (resp : HandlerResponse) :
    responseKey conn reqHdr resp = .ok (SmbServer.responseKey conn reqHdr resp) := by
  rw [responseKey, SmbServer.responseKey]
  dsimp only
  split
  · cases conn.sessions.lookup (responseHeader reqHdr resp).sessionId with
    | none => rfl
    | some sess =>
      dsimp only
      rw [isGuestResponse_eq]
      rfl
  · rfl

theorem buildResponseBytes_eq [Crypto] (conn : Connection η) (reqHdr : Smb2Header)
    (resp : HandlerResponse) :
    buildResponseBytes conn reqHdr resp =
      .ok (SmbServer.buildResponseBytes conn reqHdr resp) := by
  rw [buildResponseBytes, SmbServer.buildResponseBytes, responseKey_eq, ok_bind]
  cases SmbServer.responseKey conn reqHdr resp with
  | none =>
    dsimp only
    rw [Smb2Header.write_eq]
    rfl
  | some key =>
    dsimp only
    rw [Smb2Header.write_eq, ok_bind, sign_eq, ok_bind, Sign.sign_eq]
    rfl

end

/-! ### Stitching -/

/-- The loop that lays the responses out, and where each starts and how long it was. -/
def layOut (out : Bytes) (ranges : List (Nat × Nat)) :
    List Bytes → Risky (Bytes × List (Nat × Nat))
  | [] => return (out, ranges)
  | [last] => return (out ++ last, ranges ++ [(out.length, last.length)])
  | response :: rest => do
    let next := align8 response.length
    let linked ← copyInto response 0x14 0x18 (u32le (UInt32.ofNat next))
    let padded := out ++ linked ++ List.replicate (next - linked.length) 0
    layOut padded (ranges ++ [(out.length, response.length)]) rest

/-- The loop that signs them again. -/
def signAgain {η : Type} [Crypto] (conn : Connection η) (out : Bytes) :
    List (Nat × Nat) → Risky Bytes
  | [] => return out
  | (start, len) :: rest => do
    if !hasFlag (← readU32 out (start + 0x10)) smb2FlagsSigned then signAgain conn out rest
    else
      match conn.sessions.lookup (← readU64 out (start + 0x28)) with
      | none => signAgain conn out rest
      | some sess =>
        if sess.identity.isAnonymous then signAgain conn out rest
        else
          let msg ← range out start (start + len)
          let signed ← sign msg sess.signingKey conn.signingAlgo
          signAgain conn (patch out start signed.2) rest

/-- `stitch_responses` -/
def stitchResponses {η : Type} [Crypto] (conn : Connection η) (responses : List Bytes) :
    Risky Bytes := do
  let (out, ranges) ← layOut [] [] responses
  signAgain conn out ranges

/-- Where the responses start, from `off` on. -/
def rangesOf (off : Nat) : List (Bytes × Nat) → List (Nat × Nat)
  | [] => []
  | (placed, len) :: rest => (off, len) :: rangesOf (off + placed.length) rest

theorem layOut_eq (responses : List Bytes)
    (long : ∀ r ∈ responses, smb2HeaderLen ≤ r.length) (out : Bytes)
    (ranges : List (Nat × Nat)) :
    layOut out ranges responses =
      .ok (out ++ (placeResponses responses).flatMap Prod.fst,
        ranges ++ rangesOf out.length (placeResponses responses)) := by
  fun_induction placeResponses responses generalizing out ranges with
  | case1 =>
    rw [layOut, List.flatMap_nil, List.append_nil, rangesOf, List.append_nil]
    rfl
  | case2 last =>
    rw [layOut, List.flatMap_cons, List.flatMap_nil, List.append_nil]
    rfl
  | case3 response rest more ih =>
    have here := long response List.mem_cons_self
    rw [smb2HeaderLen] at here
    have room : 0x14 + (u32le (UInt32.ofNat (align8 response.length))).length ≤
        response.length := by
      rw [length_u32le]
      omega
    have linked := copyInto_patch room
    rw [length_u32le] at linked
    rw [layOut.eq_3 _ _ _ _ more]
    dsimp only
    rw [linked, ok_bind, length_patch _ _ _ room,
      ih fun r member => long r (List.mem_cons_of_mem _ member)]
    have placed : placeResponse false response =
        patch response 0x14 (u32le (UInt32.ofNat (align8 response.length))) ++
          List.replicate (align8 response.length - response.length) 0 := rfl
    rw [List.flatMap_cons, rangesOf, placed]
    simp only [List.append_assoc, List.length_append, List.cons_append, List.nil_append]

/-- One response is signed again where it lies. -/
theorem signAgain_cons {η : Type} [Crypto] (conn : Connection η) (front bytes back : Bytes)
    {len : Nat} (long : smb2HeaderLen ≤ len) (fits : len ≤ bytes.length)
    (rest : List (Nat × Nat)) :
    signAgain conn (front ++ (bytes ++ back)) ((front.length, len) :: rest) =
      signAgain conn (front ++ (resign conn bytes len ++ back)) rest := by
  rw [smb2HeaderLen] at long
  have within (off n : Nat) (inside : off + n ≤ bytes.length) :
      slice (front ++ (bytes ++ back)) (front.length + off) n = slice bytes off n := by
    rw [slice_append_right _ _ _ _ (Nat.le_add_right _ _), Nat.add_sub_cancel_left,
      slice_append_left _ _ _ _ inside]
  have flags : readU32 (front ++ (bytes ++ back)) (front.length + 0x10) =
      .ok (Lib.readU32 bytes 0x10) := by
    rw [readU32_eq (by simp only [List.length_append]; omega), Lib.readU32, within _ _ (by omega)]
    rfl
  have sessionId : readU64 (front ++ (bytes ++ back)) (front.length + 0x28) =
      .ok (Lib.readU64 bytes 0x28) := by
    rw [readU64_eq (by simp only [List.length_append]; omega), Lib.readU64, within _ _ (by omega)]
    rfl
  have here : range (front ++ (bytes ++ back)) front.length (front.length + len) =
      .ok (bytes.take len) := by
    rw [range_slice (by simp only [List.length_append]; omega)]
    have found := within 0 len (by omega)
    rw [Nat.add_zero] at found
    rw [found]
    rfl
  rw [signAgain, flags, ok_bind, resign]
  split
  · rfl
  rw [sessionId, ok_bind]
  cases conn.sessions.lookup (Lib.readU64 bytes 0x28) with
  | none => rfl
  | some sess =>
    dsimp only
    split
    · rfl
    · have signed : (SmbServer.sign (bytes.take len) sess.signingKey conn.signingAlgo).length =
          len := by
        rw [length_sign, List.length_take_of_le fits]
      have place := patch_append_right front (bytes ++ back) 0
        (SmbServer.sign (bytes.take len) sess.signingKey conn.signingAlgo)
      rw [Nat.add_zero] at place
      rw [here, ok_bind, sign_eq, ok_bind, Sign.sign_eq, place,
        patch_append_left _ _ _ _ (by rw [signed]; omega), patch, signed]
      simp only [List.take_zero, List.nil_append, Nat.zero_add]

theorem signAgain_eq {η : Type} [Crypto] (conn : Connection η) (placed : List (Bytes × Nat))
    (long : ∀ p ∈ placed, smb2HeaderLen ≤ p.2 ∧ p.2 ≤ p.1.length) (front : Bytes) :
    signAgain conn (front ++ placed.flatMap Prod.fst) (rangesOf front.length placed) =
      .ok (front ++ placed.flatMap fun p => resign conn p.1 p.2) := by
  induction placed generalizing front with
  | nil => rfl
  | cons first rest ih =>
    obtain ⟨room, fits⟩ := long first List.mem_cons_self
    have later := ih (fun p member => long p (List.mem_cons_of_mem _ member))
      (front ++ resign conn first.1 first.2)
    rw [List.length_append, length_resign, List.append_assoc, List.append_assoc] at later
    rw [List.flatMap_cons, List.flatMap_cons, rangesOf, signAgain_cons conn _ _ _ room fits, later]

theorem placeResponses_long (responses : List Bytes)
    (long : ∀ r ∈ responses, smb2HeaderLen ≤ r.length) :
    ∀ p ∈ placeResponses responses, smb2HeaderLen ≤ p.2 ∧ p.2 ≤ p.1.length := by
  fun_induction placeResponses responses with
  | case1 => exact fun p member => absurd member List.not_mem_nil
  | case2 last =>
    intro p member
    obtain rfl := List.mem_singleton.mp member
    exact ⟨long last List.mem_cons_self, Nat.le_refl _⟩
  | case3 response rest more ih =>
    intro p member
    rcases List.mem_cons.mp member with rfl | later
    · have here := long response List.mem_cons_self
      refine ⟨here, ?_⟩
      rw [smb2HeaderLen] at here
      simp only [placeResponse, Bool.false_eq_true, if_false, List.length_append]
      rw [length_patch _ _ _ (by rw [length_u32le]; omega)]
      exact Nat.le_add_right _ _
    · exact ih (fun r member => long r (List.mem_cons_of_mem _ member)) p later

theorem stitchResponses_eq {η : Type} [Crypto] (conn : Connection η) (responses : List Bytes)
    (long : ∀ r ∈ responses, smb2HeaderLen ≤ r.length) :
    stitchResponses conn responses = .ok (SmbServer.stitchResponses conn responses) := by
  rw [stitchResponses, layOut_eq responses long, ok_bind]
  exact signAgain_eq conn _ (placeResponses_long responses long) []

/-! ### SMB1 dialects -/

/-- The scan over the strings behind position `i`, up to the first that is malformed. -/
def dialectStrings (blob : Bytes) (i : Nat) : Risky (List Bytes) :=
  if _more : i < blob.length then do
    if (← index blob i) ≠ 0x02 then return []
    else do
      let rest ← rangeFrom blob (i + 1)
      match rest.findIdx? (· == 0) with
      | none => return []
      | some nul =>
        let s ← range blob (i + 1) (i + 1 + nul)
        let names ← dialectStrings blob (i + 1 + nul + 1)
        return s :: names
  else return []
termination_by blob.length - i

/-- `handle_smb1_multi_protocol` up to its choice. -/
def smb1Choice (frame : Bytes) : Risky (Option UInt16) :=
  if frame.length < 35 then return none
  else do
    if (← range frame 0 4) ≠ [0xFF, 0x53, 0x4D, 0x42] then return none
    else if (← index frame 4) ≠ 0x72 then return none
    else
      let byteCount ← u16At frame 33
      let blobEnd := min (35 + byteCount.toNat) frame.length
      let blob ← range frame 35 blobEnd
      let names ← dialectStrings blob 0
      if names.contains smb2WildcardName then return some Dialect.smb2Wildcard.asU16
      else if names.contains smb202Name then return some Dialect.smb202.asU16
      else return none

theorem takeNul_eq (b : Bytes) :
    takeNul b = (b.findIdx? (· == 0)).map fun nul => (b.take nul, b.drop (nul + 1)) := by
  induction b with
  | nil => rfl
  | cons first rest ih =>
    rw [takeNul, List.findIdx?_cons]
    by_cases ended : first = 0
    · rw [if_pos ended, ended]
      rfl
    · rw [if_neg ended, beq_eq_false_iff_ne.mpr ended, ih]
      cases rest.findIdx? (· == 0) <;> rfl

theorem smb1Dialects_marked (fuel : Nat) (rest : Bytes) :
    smb1Dialects (fuel + 1) (0x02 :: rest) =
      match takeNul rest with
      | some (s, behind) => s :: smb1Dialects fuel behind
      | none => [] :=
  rfl

theorem smb1Dialects_unmarked (fuel : Nat) {first : UInt8} (other : first ≠ 0x02) (rest : Bytes) :
    smb1Dialects (fuel + 1) (first :: rest) = [] := by
  rw [smb1Dialects.eq_def]
  dsimp only
  split
  next same =>
    cases same
    exact absurd rfl other
  next => rfl

theorem dialectStrings_eq (blob : Bytes) (i fuel : Nat) (enough : blob.length - i < fuel) :
    dialectStrings blob i = .ok (smb1Dialects fuel (blob.drop i)) := by
  induction fuel generalizing i with
  | zero => exact absurd enough (Nat.not_lt_zero _)
  | succ fuel ih =>
    rw [dialectStrings]
    by_cases more : i < blob.length
    · have rest : rangeFrom blob (i + 1) = .ok (blob.drop (i + 1)) := rangeFrom_of_le more
      rw [dif_pos more, index_of_lt more, ok_bind, List.drop_eq_getElem_cons more, rest, ok_bind]
      by_cases marked : blob[i] = 0x02
      · rw [if_neg (not_not.mpr marked), marked, smb1Dialects_marked, takeNul_eq]
        cases found : (blob.drop (i + 1)).findIdx? (· == 0) with
        | none => rfl
        | some nul =>
          obtain ⟨inside, -⟩ := List.findIdx?_eq_some_iff_getElem.mp found
          rw [List.length_drop] at inside
          dsimp only [Option.map_some]
          rw [range_slice (by omega), ok_bind, ih _ (by omega), ok_bind, List.drop_drop,
            Nat.add_assoc (i + 1)]
          rfl
      · rw [if_pos marked, smb1Dialects_unmarked fuel marked]
        rfl
    · rw [dif_neg more, List.drop_eq_nil_of_le (Nat.not_lt.mp more)]
      rfl

theorem smb1Choice_eq (frame : Bytes) : smb1Choice frame = .ok (SmbServer.smb1Choice frame) := by
  rw [smb1Choice, SmbServer.smb1Choice]
  by_cases short : frame.length < 35
  · rw [if_pos short, if_pos (.inl short)]
    rfl
  have magic : range frame 0 4 = .ok (slice frame 0 4) :=
    @range_slice frame 0 4 (by omega)
  have inside : 4 < frame.length := by omega
  rw [if_neg short, magic, ok_bind, index_of_lt inside, ok_bind,
    List.getElem?_eq_getElem inside]
  by_cases other : slice frame 0 4 ≠ [0xFF, 0x53, 0x4D, 0x42]
  · rw [if_pos other, if_pos (.inr (.inl other))]
    rfl
  by_cases noNegotiate : frame[4] ≠ 0x72
  · have wrong : some frame[4] ≠ some 0x72 := fun same => noNegotiate (Option.some.inj same)
    rw [if_neg other, if_pos noNegotiate, if_pos (.inr (.inr wrong))]
    rfl
  have right : ¬ some frame[4] ≠ some 0x72 := by
    rw [not_not.mp noNegotiate]
    exact not_not.mpr rfl
  rw [if_neg other, if_neg noNegotiate,
    if_neg (not_or.mpr ⟨short, not_or.mpr ⟨other, right⟩⟩), u16At_of_le (by omega), ok_bind]
  dsimp only
  have blob : range frame 35 (min (35 + (readU16 frame 33).toNat) frame.length) =
      .ok (slice frame 35 (readU16 frame 33).toNat) := by
    rw [range_of_le (by omega) (Nat.min_le_right _ _), slice]
    congr 1
    rw [List.take_eq_take_iff, List.length_drop]
    omega
  have shorter : (slice frame 35 (readU16 frame 33).toNat).length - 0 < frame.length := by
    rw [slice, List.length_take, List.length_drop]
    omega
  rw [blob, ok_bind, dialectStrings_eq _ _ _ shorter, ok_bind, List.drop_zero]
  split
  · rfl
  split <;> rfl

end SmbServer.Panicking
