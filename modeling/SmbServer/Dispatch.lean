import SmbServer.Handlers

/-!
# SmbServer.Dispatch

Per-frame dispatch (`dispatch.rs`): splitting a compound, handing the context of one element to a
related next one, checking the request's signature, running the handler, building and signing the
response, and stitching the responses of a compound together.
-/

namespace SmbServer

open Lib

/-! ### Related requests -/

def maxU64 : UInt64 := 0xFFFFFFFFFFFFFFFF

def maxU32 : UInt32 := 0xFFFFFFFF

/-- Where a command's body carries its FileId. -/
def fileIdBodyOffset : Command → Option Nat
  | .close => some 8
  | .flush => some 8
  | .lock => some 8
  | .ioctl => some 8
  | .queryDirectory => some 8
  | .changeNotify => some 8
  | .oplockBreak => some 8
  | .read => some 16
  | .write => some 16
  | .queryInfo => some 24
  | .setInfo => some 16
  | _ => none

/-- What a compound hands on from one element to the next. -/
structure RelatedContext where
  prevSessionId : UInt64
  prevTreeId : UInt32
  prevCreateFileId : Option (ByteVec 16)
  deriving DecidableEq

def inheritSession (ctx : RelatedContext) (sub : Bytes) (hdr : Smb2Header) : Bytes × Smb2Header :=
  if readU64 sub 0x28 = maxU64 then
    (patch sub 0x28 (u64le ctx.prevSessionId), { hdr with sessionId := ctx.prevSessionId })
  else (sub, hdr)

def inheritTree (ctx : RelatedContext) (sub : Bytes) (hdr : Smb2Header) : Bytes × Smb2Header :=
  if readU32 sub 0x24 = maxU32 then
    (patch sub 0x24 (u32le ctx.prevTreeId),
      match hdr.tail with
      | .sync reserved _ => { hdr with tail := .sync reserved ctx.prevTreeId }
      | .async _ => hdr)
  else (sub, hdr)

def inheritFileId (ctx : RelatedContext) (command : Command) (sub : Bytes) : Bytes :=
  match ctx.prevCreateFileId, fileIdBodyOffset command with
  | some fileId, some bodyOffset =>
    let offset := smb2HeaderLen + bodyOffset
    if offset + 16 ≤ sub.length ∧ readU64 sub offset = maxU64 ∧ readU64 sub (offset + 8) = maxU64
    then patch sub offset fileId.val
    else sub
  | _, _ => sub

/-- `inherit_related_context`: all-ones session, tree and file ids are replaced in the buffer and
in the parsed header. -/
def inheritRelatedContext (ctx : RelatedContext) (sub : Bytes) (hdr : Smb2Header) :
    Bytes × Smb2Header :=
  let (sub, hdr) := inheritSession ctx sub hdr
  let (sub, hdr) := inheritTree ctx sub hdr
  (inheritFileId ctx hdr.command sub, hdr)

/-- The FileId of a successful CREATE response. -/
def captureCreateFileId (response : Bytes) : Option (ByteVec 16) :=
  if response.length < smb2HeaderLen + 80 ∨ readU32 response 0x08 ≠ statusSuccess then none
  else some (ByteVec.ofBytes 16 (slice response (smb2HeaderLen + 64) 16))

/-! ### Signatures -/

variable {σ η : Type} [Host σ η] [Crypto]

/-- `verify_request_signature`. -/
def verifyRequestSignature (conn : Connection η) (hdr : Smb2Header) (frame : Bytes) :
    Except NtStatus Unit :=
  if hdr.command = .negotiate then .ok ()
  else if hdr.sessionId = 0 then .ok ()
  else
    let signed := hasFlag hdr.flags smb2FlagsSigned
    match conn.sessions.lookup hdr.sessionId with
    | none => if signed then .error statusUserSessionDeleted else .ok ()
    | some sess =>
      if signed then
        if sess.identity.isAnonymous then .ok ()
        else if verify frame sess.signingKey conn.signingAlgo then .ok ()
        else .error statusAccessDenied
      else if hdr.command ≠ .sessionSetup ∧ sess.signingRequired ∧ ¬sess.identity.isAnonymous then
        .error statusAccessDenied
      else .ok ()

/-- The response header before the decision on signing. -/
def responseHeader (reqHdr : Smb2Header) (resp : HandlerResponse) : Smb2Header :=
  { reqHdr with
    flags := (reqHdr.flags ||| smb2FlagsServerToRedir) &&& ~~~smb2FlagsAsyncCommand
    nextCommand := 0
    channelSequenceStatus := resp.status
    tail := .sync 0 (resp.overrideTreeId.getD (reqHdr.treeId.getD 0))
    sessionId := resp.overrideSessionId.getD reqHdr.sessionId
    signature := ByteVec.zero 16 }

/-- The key a response is signed with, if it is signed. -/
def responseKey (conn : Connection η) (reqHdr : Smb2Header) (resp : HandlerResponse) :
    Option Key :=
  let sid := (responseHeader reqHdr resp).sessionId
  let setupSuccess := reqHdr.command == .sessionSetup && resp.status == statusSuccess
  if !resp.skipSigning && sid != 0 &&
      (hasFlag reqHdr.flags smb2FlagsSigned || setupSuccess) then
    match conn.sessions.lookup sid with
    | some sess =>
      let guestResponse := setupSuccess && resp.body.length ≥ 4 &&
        resp.body.getD 2 0 &&& 0x01 != 0
      if !sess.identity.isAnonymous && !guestResponse && sess.signingKey ≠ ByteVec.zero 16 then
        some sess.signingKey
      else none
    | none => none
  else none

/-- `build_response_bytes`. -/
def buildResponseBytes (conn : Connection η) (reqHdr : Smb2Header) (resp : HandlerResponse) :
    Bytes :=
  let hdr := responseHeader reqHdr resp
  match responseKey conn reqHdr resp with
  | some key =>
    sign ({ hdr with flags := hdr.flags ||| smb2FlagsSigned }.write ++ resp.body) key
      conn.signingAlgo
  | none => { hdr with flags := hdr.flags &&& ~~~smb2FlagsSigned }.write ++ resp.body

/-! ### One element -/

/-- The preauth hash that a SESSION_SETUP continues: its exchange's, else the connection's. -/
def takeSessionPreauth (sid : UInt64) : Action (World σ η) PreauthIntegrity := fun w =>
  match (if sid ≠ 0 then w.conn.sessionPreauth.lookup sid else none) with
  | some preauth =>
    (preauth, w.setConn { w.conn with sessionPreauth := w.conn.sessionPreauth.erase sid })
  | none => (w.conn.preauth, w)

def updatePreauth (bytes : Bytes) : Action (World σ η) Unit :=
  modifyConn fun conn => { conn with preauth := conn.preauth.update bytes }

/-- The hashing before the handler; the result is the exchange's hash for a 3.1.1
SESSION_SETUP. -/
def preauthBefore (hdr : Smb2Header) (frame : Bytes) :
    Action (World σ η) (Option PreauthIntegrity) := do
  let conn ← getConn
  if hdr.command = .negotiate then
    updatePreauth frame
    return none
  else if hdr.command = .sessionSetup ∧ conn.dialect = some .smb311 then
    let p ← takeSessionPreauth hdr.sessionId
    return some (p.update frame)
  else return none

/-- Stash the snapshot in the session and derive its 3.1.1 signing key. -/
def stashSnapshot (snap : PreauthIntegrity) (conn : Connection η) (sess : Session η) :
    Session η :=
  let sess := { sess with preauthSnapshot := some snap }
  if conn.dialect = some .smb311 then
    { sess with signingKey := signingKey311 sess.sessionBaseKey snap }
  else sess

section
omit [Host σ η]
variable (snap : PreauthIntegrity) (conn : Connection η) (sess : Session η)

/-- The snapshot is about keys only. -/
@[simp] theorem stashSnapshot_trees : (stashSnapshot snap conn sess).trees = sess.trees := by
  rw [stashSnapshot]
  split <;> rfl

@[simp] theorem stashSnapshot_identity :
    (stashSnapshot snap conn sess).identity = sess.identity := by
  rw [stashSnapshot]
  split <;> rfl

@[simp] theorem stashSnapshot_nextTreeId :
    (stashSnapshot snap conn sess).nextTreeId = sess.nextTreeId := by
  rw [stashSnapshot]
  split <;> rfl

end

/-- The snapshot a completed 3.1.1 logon asked for. -/
def takeSnapshot (resp : HandlerResponse) (sessionPreauth : Option PreauthIntegrity) :
    Action (World σ η) Unit :=
  match resp.takePreauthSnapshotForSession with
  | none => pure ()
  | some sid =>
    match sessionPreauth with
    | none => panicAt .preauthSnapshot
    | some snap => modifyConn fun conn => conn.modifySession sid (stashSnapshot snap conn)

/-- The hashing behind the response; `dialect` is the one before the handler ran. -/
def preauthAfter (hdr : Smb2Header) (dialect : Option Dialect)
    (sessionPreauth : Option PreauthIntegrity) (bytes : Bytes) : Action (World σ η) Unit :=
  if hdr.command = .negotiate then updatePreauth bytes
  else if hdr.command = .sessionSetup ∧ dialect = some .smb311 then
    if readU32 bytes 0x08 = statusMoreProcessingRequired then
      match sessionPreauth with
      | none => pure ()
      | some p => modifyConn fun conn =>
        { conn with sessionPreauth :=
            conn.sessionPreauth.insert (readU64 bytes 0x28) (p.update bytes) }
    else modifyConn fun conn =>
      { conn with sessionPreauth := conn.sessionPreauth.erase hdr.sessionId }
  else pure ()

/-- Bind the task's trace key for one element. -/
def bindTraceKey (server : ServerState) (hdr : Smb2Header) (ordinal : UInt32) :
    Action (World σ η) Unit := fun w =>
  let key := if server.traceSink then
      some ⟨w.conn.connectionId, hdr.messageId, ordinal⟩
    else none
  ((), { w with env := { w.env with traceKey := key } })

/-- The handler between the two halves of the preauth hashing, and the response it builds. -/
def runHandler (server : ServerState) (hdr : Smb2Header) (frame body : Bytes) :
    Action (World σ η) Bytes := do
  let conn ← getConn
  let dialect := conn.dialect
  let sessionPreauth ← preauthBefore hdr frame
  let resp ← dispatchCommand server hdr body
  takeSnapshot resp sessionPreauth
  let conn ← getConn
  let bytes := buildResponseBytes conn hdr resp
  record server.traceSink (.response (readU32 bytes 0x08))
  preauthAfter hdr dialect sessionPreauth bytes
  return bytes

/-- `dispatch_one`: `none` when the header does not parse, and for CANCEL. -/
def dispatchOne (server : ServerState) (frame : Bytes) (ordinal : UInt32) :
    Action (World σ η) (Option Bytes) :=
  match Smb2Header.parse frame with
  | none => return none
  | some (hdr, body) => do
    bindTraceKey server hdr ordinal
    record server.traceSink (.request hdr.command hdr.sessionId (hdr.treeId.getD 0))
    let conn ← getConn
    match verifyRequestSignature conn hdr frame with
    | .error status =>
      let bytes := buildResponseBytes conn hdr (.err status)
      record server.traceSink (.response status)
      return some bytes
    | .ok () =>
      if hdr.command = .cancel then return none
      return some (← runHandler server hdr frame body)

/-! ### Compounds -/

def align8 (n : Nat) : Nat := (n + 7) / 8 * 8

/-- One response in its place: `NextCommand` patched and zero padding behind all but the last. -/
def placeResponse (isLast : Bool) (response : Bytes) : Bytes :=
  if isLast then response
  else
    patch response 0x14 (u32le (UInt32.ofNat (align8 response.length))) ++
      List.replicate (align8 response.length - response.length) 0

/-- The placed responses, each with the length of the response without its padding. -/
def placeResponses : List Bytes → List (Bytes × Nat)
  | [] => []
  | [last] => [(placeResponse true last, last.length)]
  | response :: rest => (placeResponse false response, response.length) :: placeResponses rest

/-- Sign a placed response again, over its bytes without the padding, when it is flagged as signed
and its session is still there. -/
def resign (conn : Connection η) (placed : Bytes) (len : Nat) : Bytes :=
  if !hasFlag (readU32 placed 0x10) smb2FlagsSigned then placed
  else
    match conn.sessions.lookup (readU64 placed 0x28) with
    | none => placed
    | some sess =>
      if sess.identity.isAnonymous then placed
      else sign (placed.take len) sess.signingKey conn.signingAlgo ++ placed.drop len

/-- `stitch_responses`. -/
def stitchResponses (conn : Connection η) (responses : List Bytes) : Bytes :=
  (placeResponses responses).flatMap fun (placed, len) => resign conn placed len

/-- The first sub-frame of what is left of a frame: its header, its bytes, and where the next one
starts (0 for the last). -/
def splitElement (available : Bytes) : Option (Smb2Header × Bytes × Nat) :=
  match Smb2Header.parse available with
  | none => none
  | some (hdr, _) =>
    let next := hdr.nextCommand.toNat
    if next = 0 then some (hdr, available, 0)
    else if next < smb2HeaderLen ∨ next > available.length then none
    else some (hdr, available.take next, next)

omit [Host σ η] [Crypto] in
/-- A sub-frame begins with the header it was split by. -/
theorem parse_of_splitElement {available sub : Bytes} {hdr : Smb2Header} {next : Nat}
    (split : splitElement available = some (hdr, sub, next)) :
    ∃ body, Smb2Header.parse sub = some (hdr, body) := by
  simp only [splitElement] at split
  cases parsed : Smb2Header.parse available with
  | none => simp [parsed] at split
  | some parts =>
    obtain ⟨hdr', body⟩ := parts
    simp only [parsed] at split
    split at split
    · obtain ⟨rfl, rfl, -⟩ := by simpa using split
      exact ⟨body, parsed⟩
    split at split
    · cases split
    next fits =>
      obtain ⟨rfl, rfl, -⟩ := by simpa using split
      rw [Smb2Header.parse_take _ _ (by omega) (by omega), parsed]
      exact ⟨_, rfl⟩

/-- The bytes an element is dispatched with, and its effective header. -/
def effectiveElement (ctx : RelatedContext) (hdr : Smb2Header) (sub : Bytes) :
    Bytes × Smb2Header :=
  if hasFlag hdr.flags smb2FlagsRelatedOperations then inheritRelatedContext ctx sub hdr
  else (sub, hdr)

/-- The context for the element behind one with this header and response. -/
def nextContext (ctx : RelatedContext) (hdr : Smb2Header) (response : Option Bytes) :
    RelatedContext where
  prevSessionId := hdr.sessionId
  prevTreeId := hdr.treeId.getD 0
  prevCreateFileId :=
    match response with
    | some bytes => if hdr.command = .create then captureCreateFileId bytes
      else ctx.prevCreateFileId
    | none => ctx.prevCreateFileId

/-- The loop of `dispatch_frame` over what is left of the frame. Every round but the last consumes
a header's length at least, so `fuel` rounds are enough for a frame shorter than `fuel`. The result
is `none` when the rest is malformed, whatever was executed before. -/
def dispatchElements (fuel : Nat) (server : ServerState) (available : Bytes)
    (ctx : RelatedContext) (ordinal : UInt32) : Action (World σ η) (Option (List Bytes)) :=
  match fuel with
  | 0 => return none
  | fuel + 1 =>
    match splitElement available with
    | none => return none
    | some (hdr, sub, next) => do
      let (sub, hdr) := effectiveElement ctx hdr sub
      let response ← dispatchOne server sub ordinal
      if next = 0 ∨ available.length ≤ next then return some response.toList
      else
        let rest ← dispatchElements fuel server (available.drop next) (nextContext ctx hdr response)
          (if ordinal = maxU32 then maxU32 else ordinal + 1)
        return rest.map (response.toList ++ ·)

/-! ### SMB1 multi-protocol negotiation -/

/-- The position behind the first zero byte, and the bytes in front of it. -/
def takeNul : Bytes → Option (Bytes × Bytes)
  | [] => none
  | b :: rest =>
    if b = 0 then some ([], rest)
    else (takeNul rest).map fun (s, behind) => (b :: s, behind)

/-- `b"SMB 2.???"` and `b"SMB 2.002"` -/
def smb2WildcardName : Bytes := [0x53, 0x4D, 0x42, 0x20, 0x32, 0x2E, 0x3F, 0x3F, 0x3F]

def smb202Name : Bytes := [0x53, 0x4D, 0x42, 0x20, 0x32, 0x2E, 0x30, 0x30, 0x32]

/-- The dialect strings of an SMB1 NEGOTIATE, up to the first that is malformed. The source
compares them as UTF-8 strings; both names are ASCII, so their bytes decide. -/
def smb1Dialects (fuel : Nat) (blob : Bytes) : List Bytes :=
  match fuel with
  | 0 => []
  | fuel + 1 =>
    match blob with
    | 0x02 :: rest =>
      match takeNul rest with
      | some (s, behind) => s :: smb1Dialects fuel behind
      | none => []
    | _ => []

/-- The dialect an SMB1 NEGOTIATE is answered with, if it lists one. -/
def smb1Choice (frame : Bytes) : Option UInt16 :=
  if frame.length < 35 ∨ slice frame 0 4 ≠ [0xFF, 0x53, 0x4D, 0x42] ∨ frame[4]? ≠ some 0x72 then
    none
  else
    let byteCount := (readU16 frame 33).toNat
    let names := smb1Dialects frame.length (slice frame 35 byteCount)
    if names.contains smb2WildcardName then some Dialect.smb2Wildcard.asU16
    else if names.contains smb202Name then some Dialect.smb202.asU16
    else none

/-- The request header that the SMB1 reply is built from. -/
def smb1RequestHeader : Smb2Header :=
  { Smb2Header.default with command := .negotiate, tail := .sync 0 0xFFFF }

def handleSmb1MultiProtocol (server : ServerState) (chosen : UInt16) :
    Action (World σ η) Bytes := do
  let resp ← Negotiate.multiProtocolResponse server chosen
  let conn ← getConn
  return buildResponseBytes conn smb1RequestHeader resp

/-! ### One frame -/

def initialContext : RelatedContext := ⟨0, 0, none⟩

/-- `dispatch_frame`. -/
def dispatchFrame (server : ServerState) (frame : Bytes) : Action (World σ η) (Option Bytes) :=
  match smb1Choice frame with
  | some chosen => do return some (← handleSmb1MultiProtocol server chosen)
  | none => do
    match ← dispatchElements (frame.length + 1) server frame initialContext 0 with
    | none => return none
    | some [] => return none
    | some responses =>
      let conn ← getConn
      return some (stitchResponses conn responses)

end SmbServer
