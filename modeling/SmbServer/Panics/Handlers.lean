import SmbServer.Panics.Contexts
import SmbServer.Panics.Path
import SmbServer.Panics.Spnego
import SmbServer.Effects.Admission
import SmbServer.Handlers

/-!
# SmbServer.Panics.Handlers

The handlers with their panics. Those that cannot panic are taken from the model.
-/

namespace SmbServer.Panicking

open Lib Risky RiskyAction

variable {σ η : Type} [Host σ η]

/-! ### SESSION_SETUP -/

namespace SessionSetup

open SmbServer.SessionSetup (Token allocSessionId takeAcceptor insertSession success buildResponse)

def decodeBlob (blob : Bytes) : Risky (Except NtStatus Token) :=
  if ntlmsspSignature.isPrefixOf blob then do
    let msgType ← if blob.length ≥ 12 then u32At blob 8 else pure 0
    return .ok ⟨blob, msgType == msgNegotiate, true⟩
  else do
    if (← index blob 0) = 0x60 then
      match ← (decodeInitToken blob).run with
      | none => return .error statusLogonFailure
      | some init =>
        if !init.mechTypes.contains oidNtlmssp then return .error statusNotSupported
        else return .ok ⟨init.mechToken.getD [], true, false⟩
    else
      match ← (decodeRespToken blob).run with
      | none => return .error statusLogonFailure
      | some resp => return .ok ⟨resp.responseToken.getD [], false, false⟩

def validate (body : Bytes) : Risky (Except NtStatus Token) :=
  match SessionSetupRequest.parse body with
  | none => return .error statusInvalidParameter
  | some req =>
    if req.securityBuffer.isEmpty then return .error statusInvalidParameter
    else decodeBlob req.securityBuffer

def firstRound (server : ServerState) (token : Token) :
    RiskyAction (World σ η) HandlerResponse := do
  let newSid ← total allocSessionId
  let serverChallenge ← total (fillRandom 8)
  let netbios := server.config.netbiosName
  let now ← total nowFiletime
  let acceptor := SmbServer.NtlmServer.new serverChallenge ⟨netbios, netbios, netbios, [], []⟩ now
  match ← raise (NtlmServer.step1Negotiate acceptor token.innerToken).run with
  | none => return .err statusLogonFailure
  | some acceptor =>
    let (challengeBlob, acceptor) := acceptor.challenge
    let outbound :=
      if token.isRawNtlmssp then challengeBlob
      else encodeRespToken .acceptIncomplete (some oidNtlmssp) (some challengeBlob) none
    total (modifyConn fun conn => { conn with
      pendingAuths := conn.pendingAuths.insert newSid (acceptor, token.isRawNtlmssp) })
    return { body := buildResponse outbound 0
             status := statusMoreProcessingRequired
             overrideTreeId := none
             overrideSessionId := some newSid
             skipSigning := true
             takePreauthSnapshotForSession := none }

section

variable [Crypto]

def logon (users : Table Text UserCreds) (anonymousAllowed : Bool) (acceptor : NtlmServer)
    (innerToken : Bytes) : Risky (Option AuthOutcome) := do
  match ← (NtlmServer.authenticate acceptor innerToken users.lookup).run with
  | none => return none
  | some outcome =>
    if outcome.identity.isAnonymous && !anonymousAllowed then return none else return some outcome

def initialSigningKey (sessionBaseKey : Key) : Dialect → Risky Key
  | .smb311 => return ByteVec.zero 16
  | _ => signingKey30 sessionBaseKey

def newSession (sid : UInt64) (outcome : AuthOutcome) (dialect : Dialect) :
    Risky (Session η) := do
  let signingKey ← initialSigningKey outcome.sessionKey dialect
  return Session.new sid outcome.identity outcome.sessionKey signingKey false none

def finalRound (server : ServerState) (sid : UInt64) (token : Token) :
    RiskyAction (World σ η) HandlerResponse :=
  if sid = 0 then return .err statusInvalidParameter
  else do
    match ← total (takeAcceptor sid) with
    | none => return .err statusUserSessionDeleted
    | some (acceptor, rawForm) =>
      match ← raise (logon server.users server.anonymousAllowed acceptor token.innerToken) with
      | none => return .err statusLogonFailure
      | some outcome =>
        let conn ← total getConn
        match conn.dialect with
        | none => return .err statusInvalidParameter
        | some dialect =>
          let sess ← raise (newSession sid outcome dialect)
          total (modifyConn (insertSession sid sess))
          return success sid outcome rawForm dialect

def handle (server : ServerState) (hdr : Smb2Header) (body : Bytes) :
    RiskyAction (World σ η) HandlerResponse := do
  match ← raise (validate body) with
  | .error status => return .err status
  | .ok token =>
    if token.isFirstRound then firstRound server token
    else finalRound server hdr.sessionId token

end

theorem decodeBlob_eq {blob : Bytes} (more : blob ≠ []) :
    decodeBlob blob = .ok (SmbServer.SessionSetup.decodeBlob blob) := by
  obtain ⟨first, rest, rfl⟩ := List.exists_cons_of_ne_nil more
  rw [decodeBlob, SmbServer.SessionSetup.decodeBlob]
  cases ntlmsspSignature.isPrefixOf (first :: rest) with
  | true =>
    by_cases long : (first :: rest).length ≥ 12
    · have field := @u32At_of_le (first :: rest) 8 long
      simp only [if_true, if_pos long, field]
      rfl
    · simp only [if_true, if_neg long]
      rfl
  | false =>
    have head : index (first :: rest) 0 = .ok first := rfl
    rw [head, decodeInitToken_eq, decodeRespToken_eq]
    by_cases outer : first = 0x60
    · simp only [Bool.false_eq_true, if_false, ok_bind, outer, if_true, List.head?_cons,
        RiskyParser.run_ofOption]
      cases SmbServer.decodeInitToken (0x60 :: rest) with
      | none => rfl
      | some init =>
        dsimp only
        split <;> rfl
    · simp only [Bool.false_eq_true, if_false, ok_bind, if_neg outer, List.head?_cons,
        Option.some.injEq, RiskyParser.run_ofOption]
      cases SmbServer.decodeRespToken (first :: rest) <;> rfl

theorem validate_eq (body : Bytes) :
    validate body = .ok (SmbServer.SessionSetup.validate body) := by
  rw [validate, SmbServer.SessionSetup.validate]
  cases SessionSetupRequest.parse body with
  | none => rfl
  | some req =>
    dsimp only
    cases more : req.securityBuffer.isEmpty with
    | true => rfl
    | false => exact decodeBlob_eq (List.isEmpty_eq_false_iff.mp more)

theorem firstRound_eq (server : ServerState) (token : Token) :
    firstRound server token =
      total (SmbServer.SessionSetup.firstRound server token : Action (World σ η) _) := by
  refine total_bind fun newSid => total_bind fun serverChallenge => total_bind fun now => ?_
  dsimp only
  rw [NtlmServer.step1Negotiate_eq, RiskyParser.run_ofOption, raise_ok_bind]
  cases SmbServer.NtlmServer.step1Negotiate _ token.innerToken with
  | none => rfl
  | some acceptor => rfl

section

variable [Crypto]

theorem logon_eq (users : Table Text UserCreds) (anonymousAllowed : Bool) (acceptor : NtlmServer)
    (innerToken : Bytes) :
    logon users anonymousAllowed acceptor innerToken =
      .ok (SmbServer.SessionSetup.logon users anonymousAllowed acceptor innerToken) := by
  rw [logon, SmbServer.SessionSetup.logon, NtlmServer.authenticate_eq, RiskyParser.run_ofOption,
    ok_bind]
  cases acceptor.authenticate innerToken users.lookup with
  | none => rfl
  | some outcome =>
    dsimp only
    split <;> rfl

omit [Host σ η] in
theorem newSession_eq (sid : UInt64) (outcome : AuthOutcome) (dialect : Dialect) :
    newSession sid outcome dialect =
      .ok (SmbServer.SessionSetup.newSession sid outcome dialect : Session η) := by
  rw [newSession]
  cases dialect with
  | smb311 => rfl
  | _ =>
    rw [initialSigningKey, signingKey30_eq]
    · rfl
    · intro absurd
      cases absurd

omit [Host σ η] in
theorem finalRound_eq (server : ServerState) (sid : UInt64) (token : Token) :
    finalRound server sid token =
      total (SmbServer.SessionSetup.finalRound server sid token : Action (World σ η) _) := by
  rw [finalRound, SmbServer.SessionSetup.finalRound]
  split
  · rfl
  refine total_bind fun pending => ?_
  cases pending with
  | none => rfl
  | some pair =>
    obtain ⟨acceptor, rawForm⟩ := pair
    dsimp only
    rw [logon_eq, raise_ok_bind]
    cases SmbServer.SessionSetup.logon server.users server.anonymousAllowed acceptor
        token.innerToken with
    | none => rfl
    | some outcome =>
      refine total_bind fun conn => ?_
      cases conn.dialect with
      | none => rfl
      | some dialect =>
        dsimp only
        rw [newSession_eq]
        rfl

theorem handle_eq (server : ServerState) (hdr : Smb2Header) (body : Bytes) :
    handle server hdr body =
      total (SmbServer.SessionSetup.handle server hdr body : Action (World σ η) _) := by
  rw [handle, SmbServer.SessionSetup.handle, validate_eq, raise_ok_bind]
  cases SmbServer.SessionSetup.validate body with
  | error status => rfl
  | ok token =>
    dsimp only
    split
    · exact firstRound_eq server token
    · exact finalRound_eq server hdr.sessionId token

end

end SessionSetup

/-! ### TREE_CONNECT -/

namespace TreeConnect

open SmbServer.TreeConnect (extractShareName bindShare grantedOn allocTreeId insertTree response)

/-- `path_str` -/
def pathStr (path : Bytes) : Risky (Option Text) :=
  if path.length % 2 ≠ 0 then return none
  else do
    let units ← utf16Units path
    return some (fromUtf16Lossy units)

def validate (body : Bytes) : Risky (Except NtStatus Text) :=
  match TreeConnectRequest.parse body with
  | none => return .error statusInvalidParameter
  | some req => do
    match extractShareName ((← pathStr req.path).getD []) with
    | none => return .error statusBadNetworkName
    | some name => return .ok name

def handle (server : ServerState) (hdr : Smb2Header) (body : Bytes) :
    RiskyAction (World σ η) HandlerResponse := do
  match ← raise (validate body) with
  | .error status => return .err status
  | .ok shareName =>
    let conn ← total getConn
    match lookupSession conn hdr.sessionId with
    | .error status => return .err status
    | .ok sess =>
      match bindShare server shareName with
      | none => return .err statusBadNetworkName
      | some share =>
        match grantedOn σ server share sess.identity with
        | none => return .err statusAccessDenied
        | some granted =>
          let treeId := sess.nextTreeId
          total (modifyConn (allocTreeId hdr.sessionId))
          total (modifyConn (insertTree hdr.sessionId (.new treeId share granted)))
          return { HandlerResponse.ok (response share granted) with overrideTreeId := some treeId }

theorem validate_eq (body : Bytes) :
    validate body = .ok (SmbServer.TreeConnect.validate body) := by
  rw [validate, SmbServer.TreeConnect.validate]
  cases TreeConnectRequest.parse body with
  | none => rfl
  | some req =>
    have decoded : pathStr req.path = .ok req.pathStr := by
      rw [pathStr, TreeConnectRequest.pathStr, utf16Units_eq]
      split <;> rfl
    dsimp only
    rw [decoded, ok_bind]
    cases extractShareName (req.pathStr.getD []) <;> rfl

theorem handle_eq (server : ServerState) (hdr : Smb2Header) (body : Bytes) :
    handle server hdr body =
      total (SmbServer.TreeConnect.handle server hdr body : Action (World σ η) _) := by
  rw [handle, SmbServer.TreeConnect.handle, validate_eq, raise_ok_bind]
  cases SmbServer.TreeConnect.validate body with
  | error status => rfl
  | ok shareName =>
    refine total_bind fun conn => ?_
    cases lookupSession conn hdr.sessionId with
    | error status => rfl
    | ok sess =>
      dsimp only
      cases bindShare server shareName with
      | none => rfl
      | some share =>
        dsimp only
        cases grantedOn σ server share sess.identity <;> rfl

end TreeConnect

/-! ### CREATE -/

/-- The array of sixteen bytes that the trace takes for a FileId. -/
def fileIdBytes (fid : FileId) : Risky Bytes := do
  let bytes ← unwrap (tryInto 16 (u64le fid.persistent ++ u64le fid.volatile))
  return bytes.val

theorem fileIdBytes_eq (fid : FileId) : fileIdBytes fid = .ok fid.write := by
  have array : tryInto 16 (u64le fid.persistent ++ u64le fid.volatile) = some _ :=
    tryInto_of_length fid.length_write
  rw [fileIdBytes, array]
  rfl

namespace Create

open SmbServer.Create (Plan openOptions openAccess register response aaplCmdServerQuery
  aaplReqServerCaps aaplReqVolumeCaps aaplServerCapsUnixBased)

def decodePath (name : Bytes) : Risky (Except NtStatus SmbPath) := do
  match ← utf16leToUnits name with
  | none => return .error statusObjectNameInvalid
  | some units =>
    match ← SmbPath.fromUtf16 units with
    | .ok path => return .ok path
    | .error _ => return .error statusObjectNameInvalid

def validate (conn : Connection η) (hdr : Smb2Header) (body : Bytes) :
    Risky (Except NtStatus (Plan η)) :=
  match CreateRequest.parse body with
  | none => return .error statusInvalidParameter
  | some req =>
    match lookupSessionTree conn hdr with
    | .error status => return .error status
    | .ok (tid, tree) => do
      match ← decodePath req.name with
      | .error status => return .error status
      | .ok path =>
        match openOptions tree.grantedAccess path req with
        | .error status => return .error status
        | .ok opts => return .ok { req, tid, tree, path, opts }

def buildAaplResponseContext (aapl : CreateContext) : Risky (Option CreateContext) :=
  if aapl.data.length ≠ 24 then return none
  else do
    if (← u32Of aapl.data 0 4) ≠ aaplCmdServerQuery then return none
    else
      let requestBitmap ← u64Of aapl.data 8 16
      let serverCaps := requestBitmap &&& aaplReqServerCaps != 0
      let volumeCaps := requestBitmap &&& aaplReqVolumeCaps != 0
      let replyBitmap := (if serverCaps then aaplReqServerCaps else 0) |||
        (if volumeCaps then aaplReqVolumeCaps else 0)
      let data := (if serverCaps then u64le aaplServerCapsUnixBased else []) ++
        (if volumeCaps then u64le 0 else [])
      return some
        { name := SmbServer.CreateContext.nameAapl
          data := u32le aaplCmdServerQuery ++ u32le 0 ++ u64le replyBitmap ++ data }

def parsedContexts (req : CreateRequest) : Risky (List CreateContext) := do
  return (← (CreateContext.parseChain req.createContexts).run).getD []

def responseContexts (contexts : List CreateContext) : Risky Bytes := do
  match contexts.find? (·.name == SmbServer.CreateContext.nameAapl) with
  | none => return []
  | some aapl =>
    match ← buildAaplResponseContext aapl with
    | none => return []
    | some ctx => CreateContext.encodeChain [ctx]

def recordTrace (server : ServerState) (plan : Plan η) (contexts : List CreateContext)
    (fid : Option Bytes) : RiskyAction (World σ η) Unit :=
  total (record server.traceSink
    (.create plan.path.displayBackslash plan.req.createOptions plan.opts.directory
      plan.opts.nonDirectory plan.req.createDisposition plan.req.desiredAccess
      fid (contexts.map fun c => ⟨c.name, UInt32.ofNat c.data.length⟩)))

def perform (server : ServerState) (sid : UInt64) (plan : Plan η) :
    RiskyAction (World σ η) HandlerResponse := do
  let contexts ← raise (parsedContexts plan.req)
  let tree := plan.tree
  let granted := openAccess tree.grantedAccess plan.opts
  let origin : Origin := ⟨sid, plan.tid, tree.grantedAccess, none⟩
  match ← total (backendOpen origin tree.share.backend plan.path plan.opts) with
  | .error e =>
    recordTrace server plan contexts none
    return .ofError e
  | .ok handle =>
    let through : Origin := { origin with openAccess := some granted }
    match ← total (handle.stat through) with
    | .error e =>
      let _ ← total (handle.close through)
      recordTrace server plan contexts none
      return .ofError e
    | .ok info =>
      let fid : FileId := ⟨tree.nextVolatile, tree.nextVolatile⟩
      let o := Open.new fid handle granted plan.path info.isDirectory plan.opts.deleteOnClose
      total (modifyConn (register sid plan.tid tree o))
      let bytes ← raise (fileIdBytes fid)
      recordTrace server plan contexts (some bytes)
      let encoded ← raise (responseContexts contexts)
      return .ok (response plan.opts.intent info fid encoded)

def handle (server : ServerState) (hdr : Smb2Header) (body : Bytes) :
    RiskyAction (World σ η) HandlerResponse := do
  let conn ← total getConn
  match ← raise (validate conn hdr body) with
  | .error status => return .err status
  | .ok plan => perform server hdr.sessionId plan

theorem decodePath_eq (name : Bytes) :
    decodePath name = .ok (SmbServer.Create.decodePath name) := by
  rw [decodePath, SmbServer.Create.decodePath, utf16leToUnits_eq, ok_bind]
  cases SmbServer.utf16leToUnits name with
  | none => rfl
  | some units =>
    dsimp only
    rw [SmbPath.fromUtf16_eq, ok_bind]
    cases SmbServer.SmbPath.fromUtf16 units <;> rfl

omit [Host σ η] in
theorem validate_eq (conn : Connection η) (hdr : Smb2Header) (body : Bytes) :
    validate conn hdr body = .ok (SmbServer.Create.validate conn hdr body) := by
  rw [validate, SmbServer.Create.validate]
  cases CreateRequest.parse body with
  | none => rfl
  | some req =>
    cases lookupSessionTree conn hdr with
    | error status => rfl
    | ok found =>
      obtain ⟨tid, tree⟩ := found
      dsimp only
      rw [decodePath_eq, ok_bind]
      cases SmbServer.Create.decodePath req.name with
      | error status => rfl
      | ok path =>
        simp only [bind, Except.bind]
        cases openOptions tree.grantedAccess path req <;> rfl

theorem buildAaplResponseContext_eq (aapl : CreateContext) :
    buildAaplResponseContext aapl = .ok (SmbServer.Create.buildAaplResponseContext aapl) := by
  rw [buildAaplResponseContext, SmbServer.Create.buildAaplResponseContext]
  by_cases other : aapl.data.length ≠ 24
  · rw [if_pos other, if_pos other]
    rfl
  have command : u32Of aapl.data 0 4 = .ok (Lib.readU32 aapl.data 0) := u32Of_of_le (by omega)
  have bitmap : u64Of aapl.data 8 16 = .ok (Lib.readU64 aapl.data 8) := u64Of_of_le (by omega)
  rw [if_neg other, if_neg other, command, ok_bind]
  split
  · rfl
  · rw [bitmap]
    rfl

theorem parsedContexts_eq (req : CreateRequest) :
    parsedContexts req = .ok (SmbServer.Create.parsedContexts req) := by
  rw [parsedContexts, CreateContext.parseChain_eq, RiskyParser.run_ofOption]
  rfl

theorem responseContexts_eq (req : CreateRequest) :
    responseContexts (SmbServer.Create.parsedContexts req) =
      .ok (SmbServer.Create.responseContexts req) := by
  rw [responseContexts, SmbServer.Create.responseContexts]
  cases (SmbServer.Create.parsedContexts req).find? (·.name == SmbServer.CreateContext.nameAapl) with
  | none => rfl
  | some aapl =>
    dsimp only [Option.bind_some]
    rw [buildAaplResponseContext_eq, ok_bind]
    cases SmbServer.Create.buildAaplResponseContext aapl with
    | none => rfl
    | some ctx => exact CreateContext.encodeChain_eq [ctx]

theorem perform_eq (server : ServerState) (sid : UInt64) (plan : Plan η) :
    perform server sid plan =
      total (SmbServer.Create.perform server sid plan : Action (World σ η) _) := by
  rw [perform, SmbServer.Create.perform, parsedContexts_eq, raise_ok_bind]
  refine total_bind fun opened => ?_
  cases opened with
  | error e => rfl
  | ok handle =>
    refine total_bind fun stat => ?_
    cases stat with
    | error e => rfl
    | ok info =>
      refine total_bind fun _ => ?_
      rw [fileIdBytes_eq, raise_ok_bind]
      refine total_bind fun _ => ?_
      rw [responseContexts_eq]
      rfl

theorem handle_eq (server : ServerState) (hdr : Smb2Header) (body : Bytes) :
    handle server hdr body =
      total (SmbServer.Create.handle server hdr body : Action (World σ η) _) := by
  refine total_bind fun conn => ?_
  rw [validate_eq, raise_ok_bind]
  cases SmbServer.Create.validate conn hdr body with
  | error status => rfl
  | ok plan => exact perform_eq server hdr.sessionId plan

end Create

end SmbServer.Panicking
