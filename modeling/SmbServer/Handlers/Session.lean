import SmbServer.Handlers.Response
import SmbServer.Proto.Spnego

/-!
# SmbServer.Handlers.Session

NEGOTIATE, SESSION_SETUP and LOGOFF: the dialect and signing algorithm of a connection, the two
rounds of an NTLM logon, and the end of a session.
-/

namespace SmbServer

open Lib

variable {σ η : Type} [Host σ η]

/-! ### NEGOTIATE -/

namespace Negotiate

def negotiateSecurityMode : UInt16 := 0x0001

/-- DFS, leasing and large MTU. -/
def negotiateCapabilities : UInt32 := 0x00000001 ||| 0x00000002 ||| 0x00000004

def supported : List UInt16 := [0x0202, 0x0210, 0x0300, 0x0302, 0x0311]

/-- The highest supported dialect among those offered. -/
def choose (offered : List UInt16) : Option UInt16 :=
  offered.foldl (fun chosen d =>
    if supported.contains d then
      match chosen with
      | none => some d
      | some prev => if d > prev then some d else some prev
    else chosen) none

def signingAlgoFor : Dialect → SigningAlgo
  | .smb202 => .hmacSha256
  | .smb210 => .hmacSha256
  | _ => .aesCmac

/-- SMB2 header and the fixed part of the response. -/
def securityBufferOffset : UInt16 := 64 + 64

/-- The two contexts of a 3.1.1 response. -/
def responseContexts (salt : Bytes) : List NegotiateContext :=
  let preauthData := PreauthIntegrityCapabilities.write
    { hashAlgorithmCount := 1
      saltLength := 32
      hashAlgorithms := [PreauthIntegrityCapabilities.hashSha512]
      salt := salt }
  let signingData := SigningCapabilities.write
    { signingAlgorithmCount := 1
      signingAlgorithms := [SigningCapabilities.algorithmAesCmac] }
  [{ contextType := NegotiateContext.typePreauthIntegrity
     dataLength := UInt16.ofNat preauthData.length
     reserved := 0
     data := preauthData },
   { contextType := NegotiateContext.typeSigning
     dataLength := UInt16.ofNat signingData.length
     reserved := 0
     data := signingData }]

/-- The next multiple of eight behind the security buffer. -/
def contextOffset (securityBuffer : Bytes) : UInt32 :=
  (securityBufferOffset.toUInt32 + (UInt16.ofNat securityBuffer.length).toUInt32 + 7) &&& ~~~7

/-- The body: the fixed part and security buffer, then for 3.1.1 padding and the contexts. -/
def responseBody (resp : NegotiateResponse) (contexts : Bytes) : Bytes :=
  let body := resp.write
  if contexts.isEmpty then body
  else
    let cur := 64 + body.length
    body ++ List.replicate (resp.negotiateContextOffsetOrReserved2.toNat - cur) 0 ++ contexts

def commit (dialect : Dialect) (clientGuid : ByteVec 16) (conn : Connection η) : Connection η :=
  { conn with
    dialect := some dialect
    clientGuid := clientGuid
    signingAlgo := signingAlgoFor dialect }

def response (server : ServerState) (conn : Connection η) (chosen : UInt16) (capabilities : UInt32)
    (contextCount : UInt16) (contextOffset : UInt32) (systemTime : UInt64) :
    NegotiateResponse where
  structureSize := 65
  securityMode := negotiateSecurityMode
  dialectRevision := chosen
  negotiateContextCountOrReserved := contextCount
  serverGuid := server.config.serverGuid
  capabilities := capabilities
  maxTransactSize := conn.maxReadSize
  maxReadSize := conn.maxReadSize
  maxWriteSize := conn.maxWriteSize
  systemTime := systemTime
  serverStartTime := server.serverStartFiletime
  securityBufferOffset := securityBufferOffset
  securityBufferLength := UInt16.ofNat encodeInitResponse.length
  negotiateContextOffsetOrReserved2 := contextOffset
  securityBuffer := encodeInitResponse

def handle (server : ServerState) (body : Bytes) : Action (World σ η) HandlerResponse :=
  match NegotiateRequest.parse body with
  | none => return .err statusInvalidParameter
  | some req =>
    match choose req.dialects with
    | none => return .err statusNotSupported
    | some chosen =>
      match Dialect.fromU16 chosen with
      | none => return .err statusNotSupported
      | some dialect => do
        modifyConn (commit dialect req.clientGuid)
        let contexts ←
          if dialect = .smb311 then do
            let salt ← fillRandom 32
            pure (responseContexts salt.val)
          else pure []
        let offset := if dialect = .smb311 then contextOffset encodeInitResponse else 0
        let conn ← getConn
        let now ← nowFiletime
        let resp := response server conn chosen negotiateCapabilities
          (UInt16.ofNat contexts.length) offset now
        return { HandlerResponse.ok (responseBody resp (NegotiateContext.encodeList contexts)) with
          skipSigning := true }

/-- The reply to an SMB1 multi-protocol request; the dialect is not committed here. -/
def multiProtocolResponse (server : ServerState) (chosen : UInt16) :
    Action (World σ η) HandlerResponse := do
  let conn ← getConn
  let now ← nowFiletime
  let resp := response server conn chosen 0 0 0 now
  return { HandlerResponse.ok resp.write with skipSigning := true }

end Negotiate

/-! ### SESSION_SETUP -/

namespace SessionSetup

/-- The NTLM message inside a security blob, and how it was wrapped. -/
structure Token where
  innerToken : Bytes
  isFirstRound : Bool
  isRawNtlmssp : Bool
  deriving DecidableEq

/-- Raw NTLMSSP, a GSS-API `NegTokenInit`, or a `NegTokenResp`. -/
def decodeBlob (blob : Bytes) : Except NtStatus Token :=
  if ntlmsspSignature.isPrefixOf blob then
    let msgType := if blob.length ≥ 12 then readU32 blob 8 else 0
    .ok ⟨blob, msgType == msgNegotiate, true⟩
  else if blob.head? = some 0x60 then
    match decodeInitToken blob with
    | none => .error statusLogonFailure
    | some init =>
      if !init.mechTypes.contains oidNtlmssp then .error statusNotSupported
      else .ok ⟨init.mechToken.getD [], true, false⟩
  else
    match decodeRespToken blob with
    | none => .error statusLogonFailure
    | some resp => .ok ⟨resp.responseToken.getD [], false, false⟩

/-- The parsed request's token. -/
def validate (body : Bytes) : Except NtStatus Token :=
  match SessionSetupRequest.parse body with
  | none => .error statusInvalidParameter
  | some req =>
    if req.securityBuffer.isEmpty then .error statusInvalidParameter
    else decodeBlob req.securityBuffer

def buildResponse (spnegoBlob : Bytes) (sessionFlags : UInt16) : Bytes :=
  SessionSetupResponse.write
    { structureSize := 9
      sessionFlags := sessionFlags
      securityBufferOffset := 64 + 8
      securityBufferLength := UInt16.ofNat spnegoBlob.length
      securityBuffer := spnegoBlob }

def allocSessionId : Action (World σ η) UInt64 := fun w =>
  (w.conn.nextSessionId, w.setConn { w.conn with nextSessionId := w.conn.nextSessionId + 1 })

/-- First round: a fresh session id, an acceptor, and the server challenge. -/
def firstRound (server : ServerState) (token : Token) : Action (World σ η) HandlerResponse := do
  let newSid ← allocSessionId
  let serverChallenge ← fillRandom 8
  let netbios := server.config.netbiosName
  let now ← nowFiletime
  let acceptor := NtlmServer.new serverChallenge ⟨netbios, netbios, netbios, [], []⟩ now
  match acceptor.step1Negotiate token.innerToken with
  | none => return .err statusLogonFailure
  | some acceptor =>
    let (challengeBlob, acceptor) := acceptor.challenge
    let outbound :=
      if token.isRawNtlmssp then challengeBlob
      else encodeRespToken .acceptIncomplete (some oidNtlmssp) (some challengeBlob) none
    modifyConn fun conn => { conn with
      pendingAuths := conn.pendingAuths.insert newSid (acceptor, token.isRawNtlmssp) }
    return { body := buildResponse outbound 0
             status := statusMoreProcessingRequired
             overrideTreeId := none
             overrideSessionId := some newSid
             skipSigning := true
             takePreauthSnapshotForSession := none }

/-- Take the acceptor that waits under `sid`. -/
def takeAcceptor (sid : UInt64) : Action (World σ η) (Option (NtlmServer × Bool)) := fun w =>
  match w.conn.pendingAuths.lookup sid with
  | some pending =>
    (some pending, w.setConn { w.conn with pendingAuths := w.conn.pendingAuths.erase sid })
  | none => (none, w)

/-- Authenticate against a copy of the user table, then gate anonymous logon. -/
def logon (users : Table Text UserCreds) (anonymousAllowed : Bool) [Crypto]
    (acceptor : NtlmServer) (innerToken : Bytes) : Option AuthOutcome :=
  match acceptor.authenticate innerToken users.lookup with
  | none => none
  | some outcome =>
    if outcome.identity.isAnonymous && !anonymousAllowed then none else some outcome

/-- The signing key a session starts with; for 3.1.1 the dispatcher replaces it. -/
def initialSigningKey [Crypto] (sessionBaseKey : Key) : Dialect → Key
  | .smb311 => ByteVec.zero 16
  | _ => signingKey30 sessionBaseKey

/-- The session of a successful logon. -/
def newSession [Crypto] (sid : UInt64) (outcome : AuthOutcome) (dialect : Dialect) : Session η :=
  Session.new sid outcome.identity outcome.sessionKey
    (initialSigningKey outcome.sessionKey dialect) false none

def insertSession (sid : UInt64) (sess : Session η) (conn : Connection η) : Connection η :=
  { conn with sessions := conn.sessions.insert sid sess }

/-- The response to a completed logon. -/
def success (sid : UInt64) (outcome : AuthOutcome) (rawForm : Bool) (dialect : Dialect) :
    HandlerResponse where
  body := buildResponse
    (if rawForm then [] else encodeRespToken .acceptCompleted none none none)
    (if outcome.identity.isAnonymous then SessionSetupResponse.flagIsGuest else 0)
  status := statusSuccess
  overrideTreeId := none
  overrideSessionId := some sid
  skipSigning := outcome.identity.isAnonymous
  takePreauthSnapshotForSession := if dialect = .smb311 then some sid else none

/-- Follow-up round: consume the acceptor, authenticate, create the session. -/
def finalRound [Crypto] (server : ServerState) (sid : UInt64) (token : Token) :
    Action (World σ η) HandlerResponse :=
  if sid = 0 then return .err statusInvalidParameter
  else do
    match ← takeAcceptor sid with
    | none => return .err statusUserSessionDeleted
    | some (acceptor, rawForm) =>
      match logon server.users server.anonymousAllowed acceptor token.innerToken with
      | none => return .err statusLogonFailure
      | some outcome =>
        let conn ← getConn
        match conn.dialect with
        | none => return .err statusInvalidParameter
        | some dialect =>
          modifyConn (insertSession sid (newSession sid outcome dialect))
          return success sid outcome rawForm dialect

def handle [Crypto] (server : ServerState) (hdr : Smb2Header) (body : Bytes) :
    Action (World σ η) HandlerResponse :=
  match validate body with
  | .error status => return .err status
  | .ok token =>
    if token.isFirstRound then firstRound server token
    else finalRound server hdr.sessionId token

end SessionSetup

/-! ### LOGOFF -/

namespace Logoff

def handle (hdr : Smb2Header) : Action (World σ η) HandlerResponse :=
  if hdr.sessionId = 0 then return .err statusUserSessionDeleted
  else do
    let _ ← Connection.closeSession hdr.sessionId
    return .ok emptyResponse

end Logoff

end SmbServer
