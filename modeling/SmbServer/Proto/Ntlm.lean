import SmbServer.Proto.Crypto

/-!
# SmbServer.Proto.Ntlm

The server side of NTLMv2 (`proto/auth/ntlm.rs`): the three messages, the acceptor that keeps the
bytes of the first two for the integrity code of the third, and the identity and session key that a
valid AUTHENTICATE yields.
-/

namespace SmbServer

open Lib

/-- `b"NTLMSSP\0"` -/
def ntlmsspSignature : Bytes := [0x4E, 0x54, 0x4C, 0x4D, 0x53, 0x53, 0x50, 0]

def msgNegotiate : UInt32 := 1
def msgChallenge : UInt32 := 2
def msgAuthenticate : UInt32 := 3

namespace NtlmFlags

def negotiateUnicode : UInt32 := 0x00000001
def requestTarget : UInt32 := 0x00000004
def negotiateSign : UInt32 := 0x00000010
def negotiateNtlm : UInt32 := 0x00000200
def negotiateAlwaysSign : UInt32 := 0x00008000
def targetTypeServer : UInt32 := 0x00020000
def negotiateExtendedSessionsecurity : UInt32 := 0x00080000
def negotiateTargetInfo : UInt32 := 0x00800000
def negotiateVersion : UInt32 := 0x02000000
def negotiate128 : UInt32 := 0x20000000
def negotiateKeyExch : UInt32 := 0x40000000
def negotiate56 : UInt32 := 0x80000000

end NtlmFlags

/-! ### Attribute-value pairs -/

structure AvPair where
  id : UInt16
  value : Bytes
  deriving DecidableEq

def avEol : UInt16 := 0x0000
def avNbComputerName : UInt16 := 0x0001
def avNbDomainName : UInt16 := 0x0002
def avDnsComputerName : UInt16 := 0x0003
def avDnsDomainName : UInt16 := 0x0004
def avTimestamp : UInt16 := 0x0007

def encodeAvPairs (pairs : List AvPair) : Bytes :=
  (pairs.flatMap fun p => u16le p.id ++ u16le (UInt16.ofNat p.value.length) ++ p.value) ++
    u16le avEol ++ u16le 0

/-- The loop of `decode_av_pairs` from position `i`, which ends at the terminator. Every round moves
four bytes forward at least, so `fuel` rounds are enough for a list shorter than `fuel`. -/
def decodeAvPairsFrom (fuel : Nat) (buf : Bytes) (i : Nat) : Option (List AvPair) :=
  match fuel with
  | 0 => none
  | fuel + 1 =>
    if buf.length < i + 4 then none
    else
      let id := readU16 buf i
      let len := (readU16 buf (i + 2)).toNat
      if id = avEol then some []
      else if buf.length < i + 4 + len then none
      else (decodeAvPairsFrom fuel buf (i + 4 + len)).map (⟨id, slice buf (i + 4) len⟩ :: ·)

def decodeAvPairs (buf : Bytes) : Option (List AvPair) :=
  decodeAvPairsFrom (buf.length + 1) buf 0

/-! ### Message fields -/

/-- A `(len, offset)` descriptor; the maximal length is not kept. -/
structure Field where
  len : UInt16
  offset : UInt32

def readField (buf : Bytes) (pos : Nat) : Option Field :=
  if buf.length < pos + 8 then none else some ⟨readU16 buf pos, readU32 buf (pos + 4)⟩

def sliceField (buf : Bytes) (f : Field) : Option Bytes :=
  if f.offset.toNat + f.len.toNat > buf.length then none
  else some (slice buf f.offset.toNat f.len.toNat)

/-- An empty field is empty wherever its offset points. -/
def fieldBytes (buf : Bytes) (f : Field) : Option Bytes :=
  if f.len = 0 then some [] else sliceField buf f

def checkSignature (buf : Bytes) (expectedMsg : UInt32) : Option Unit :=
  if buf.length < 12 then none
  else if slice buf 0 8 ≠ ntlmsspSignature then none
  else if readU32 buf 8 ≠ expectedMsg then none
  else some ()

/-- The private `utf16le_to_string` of `ntlm.rs`, which drops an odd last byte. -/
def ntlmString (b : Bytes) : Text := fromUtf16Lossy (utf16Units b)

/-! ### NEGOTIATE -/

structure NtlmNegotiate where
  flags : UInt32
  domain : Bytes
  workstation : Bytes
  raw : Bytes

def NtlmNegotiate.parse (buf : Bytes) : Option NtlmNegotiate := do
  checkSignature buf msgNegotiate
  if buf.length < 32 then none
  let domainField ← readField buf 16
  let wsField ← readField buf 24
  let domain ← fieldBytes buf domainField
  let workstation ← fieldBytes buf wsField
  return { flags := readU32 buf 12, domain, workstation, raw := buf }

/-! ### CHALLENGE -/

structure ChallengeParams where
  serverChallenge : ByteVec 8
  targetName : Text
  nbDomainName : Text
  nbComputerName : Text
  dnsDomainName : Text
  dnsComputerName : Text
  timestamp : UInt64
  flags : UInt32

def buildChallenge (p : ChallengeParams) : Bytes :=
  let targetName := utf16le p.targetName
  let targetInfo := encodeAvPairs
    [⟨avNbDomainName, utf16le p.nbDomainName⟩, ⟨avNbComputerName, utf16le p.nbComputerName⟩,
      ⟨avDnsDomainName, utf16le p.dnsDomainName⟩, ⟨avDnsComputerName, utf16le p.dnsComputerName⟩,
      ⟨avTimestamp, u64le p.timestamp⟩]
  let tnLen := UInt16.ofNat targetName.length
  let tiLen := UInt16.ofNat targetInfo.length
  ntlmsspSignature ++ u32le msgChallenge ++ u16le tnLen ++ u16le tnLen ++ u32le 56 ++
    u32le p.flags ++ p.serverChallenge.val ++ List.replicate 8 0 ++ u16le tiLen ++ u16le tiLen ++
    u32le (56 + UInt32.ofNat targetName.length) ++ [6, 1, 0, 0x1D, 0, 0, 0, 0x0F] ++
    targetName ++ targetInfo

/-! ### AUTHENTICATE -/

structure NtlmAuthenticate where
  flags : UInt32
  lmResponse : Bytes
  ntResponse : Bytes
  domain : Text
  user : Text
  workstation : Text
  encryptedRandomSessionKey : Bytes
  /-- The integrity code and its offset in `raw`. -/
  mic : Option (ByteVec 16 × Nat)
  raw : Bytes

/-- The smallest non-zero offset among the non-empty fields; `u32::MAX` when there is none. -/
def minPayloadOffset (fields : List Field) : UInt32 :=
  fields.foldl (fun low f => if f.len > 0 ∧ f.offset > 0 ∧ f.offset < low then f.offset else low)
    0xFFFFFFFF

def NtlmAuthenticate.parse (buf : Bytes) : Option NtlmAuthenticate := do
  checkSignature buf msgAuthenticate
  if buf.length < 64 then none
  let lmField ← readField buf 12
  let ntField ← readField buf 20
  let domainField ← readField buf 28
  let userField ← readField buf 36
  let wsField ← readField buf 44
  let keyField ← readField buf 52
  let minOff := minPayloadOffset [lmField, ntField, domainField, userField, wsField, keyField]
  let mic := if minOff ≠ 0xFFFFFFFF ∧ minOff.toNat ≥ 88 ∧ buf.length ≥ 88 then
      some (ByteVec.ofBytes 16 (slice buf 72 16), 72)
    else none
  let lmResponse ← fieldBytes buf lmField
  let ntResponse ← fieldBytes buf ntField
  let domainBytes ← fieldBytes buf domainField
  let userBytes ← fieldBytes buf userField
  let wsBytes ← fieldBytes buf wsField
  let encryptedRandomSessionKey ← fieldBytes buf keyField
  return { flags := readU32 buf 60
           lmResponse, ntResponse
           domain := ntlmString domainBytes
           user := ntlmString userBytes
           workstation := ntlmString wsBytes
           encryptedRandomSessionKey, mic
           raw := buf }

/-! ### The acceptor -/

inductive Identity where
  | anonymous
  | user (user domain : Text)
  deriving DecidableEq, Repr

def Identity.isAnonymous : Identity → Bool
  | .anonymous => true
  | .user _ _ => false

/-- `matches!(identity, Identity::User { user, .. } if user == name)`. -/
def Identity.isUser (i : Identity) (name : Text) : Bool :=
  match i with
  | .anonymous => false
  | .user u _ => u == name

structure AuthOutcome where
  identity : Identity
  sessionKey : Key
  deriving DecidableEq

structure UserCreds where
  ntHash : ByteVec 16
  deriving DecidableEq

structure NtlmTargetInfo where
  targetName : Text
  nbDomain : Text
  nbComputer : Text
  dnsDomain : Text
  dnsComputer : Text

/-- The acceptor between the rounds of one SESSION_SETUP exchange. -/
structure NtlmServer where
  serverChallenge : ByteVec 8
  targetInfo : NtlmTargetInfo
  timestamp : UInt64
  serverFlags : UInt32
  negotiatedFlags : UInt32
  negotiateBytes : Bytes
  challengeBytes : Bytes

namespace NtlmServer

def defaultFlags : UInt32 :=
  NtlmFlags.negotiateUnicode ||| NtlmFlags.requestTarget ||| NtlmFlags.negotiateNtlm |||
    NtlmFlags.negotiateSign ||| NtlmFlags.negotiateAlwaysSign |||
    NtlmFlags.negotiateExtendedSessionsecurity ||| NtlmFlags.targetTypeServer |||
    NtlmFlags.negotiateTargetInfo ||| NtlmFlags.negotiateVersion ||| NtlmFlags.negotiate128 |||
    NtlmFlags.negotiateKeyExch ||| NtlmFlags.negotiate56

def new (serverChallenge : ByteVec 8) (target : NtlmTargetInfo) (timestamp : UInt64) :
    NtlmServer where
  serverChallenge := serverChallenge
  targetInfo := target
  timestamp := timestamp
  serverFlags := defaultFlags
  negotiatedFlags := defaultFlags
  negotiateBytes := []
  challengeBytes := []

/-- Record the client's NEGOTIATE and intersect the flags. -/
def step1Negotiate (s : NtlmServer) (blob : Bytes) : Option NtlmServer := do
  let n ← NtlmNegotiate.parse blob
  return { s with
    negotiatedFlags := (s.serverFlags &&& n.flags) ||| NtlmFlags.negotiateTargetInfo |||
      NtlmFlags.targetTypeServer ||| NtlmFlags.negotiateUnicode
    negotiateBytes := n.raw }

/-- The CHALLENGE bytes and the acceptor that remembers them. -/
def challenge (s : NtlmServer) : Bytes × NtlmServer :=
  let blob := buildChallenge
    { serverChallenge := s.serverChallenge
      targetName := s.targetInfo.targetName
      nbDomainName := s.targetInfo.nbDomain
      nbComputerName := s.targetInfo.nbComputer
      dnsDomainName := s.targetInfo.dnsDomain
      dnsComputerName := s.targetInfo.dnsComputer
      timestamp := s.timestamp
      flags := s.negotiatedFlags }
  (blob, { s with challengeBytes := blob })

end NtlmServer

variable [Crypto]

/-- MD4 of the UTF-16LE password. -/
def ntHash (password : Text) : ByteVec 16 := Crypto.md4 (utf16le password)

def UserCreds.fromPassword (password : Text) : UserCreds := ⟨SmbServer.ntHash password⟩

/-- `NTOWFv2`: the user name is uppercased, the domain is not. -/
def ntowfV2 (hash : ByteVec 16) (user domain : Text) : ByteVec 16 :=
  Crypto.hmacMd5 hash.val (utf16le (Crypto.toUppercase user) ++ utf16le domain)

namespace NtlmServer

/-- The session key of an AUTHENTICATE whose proof held: the exported key when the client wrapped
one, else the session base key. -/
def exportedKey (auth : NtlmAuthenticate) (keyExchangeKey : Key) : Option Key :=
  if hasKeyExch auth.flags ∧ auth.encryptedRandomSessionKey ≠ [] then
    if auth.encryptedRandomSessionKey.length ≠ 16 then none
    else some (Crypto.rc4 keyExchangeKey (ByteVec.ofBytes 16 auth.encryptedRandomSessionKey))
  else some keyExchangeKey
where
  hasKeyExch (flags : UInt32) : Bool := flags &&& NtlmFlags.negotiateKeyExch != 0

/-- Whether the integrity code, when one was parsed, is the right one. -/
def micHolds (s : NtlmServer) (auth : NtlmAuthenticate) (sessionKey : Key) : Bool :=
  match auth.mic with
  | some (supplied, off) =>
    if s.negotiateBytes.isEmpty then true
    else if auth.raw.length < off + 16 then false
    else
      supplied == Crypto.hmacMd5 sessionKey.val
        (s.negotiateBytes ++ s.challengeBytes ++ patch auth.raw off (ByteVec.zero 16).val)
  | none => true

/-- `authenticate`: `none` for every `Err`. -/
def authenticate (s : NtlmServer) (blob : Bytes) (lookup : Text → Option UserCreds) :
    Option AuthOutcome := do
  let auth ← NtlmAuthenticate.parse blob
  if auth.user.isEmpty && auth.ntResponse.isEmpty then
    return { identity := .anonymous, sessionKey := ByteVec.zero 16 }
  let creds ← lookup auth.user
  let responseKeyNt := ntowfV2 creds.ntHash auth.user auth.domain
  if auth.ntResponse.length < 16 then none
  let ntProof := Crypto.hmacMd5 responseKeyNt.val
    (s.serverChallenge.val ++ auth.ntResponse.drop 16)
  if auth.ntResponse.take 16 ≠ ntProof.val then none
  let keyExchangeKey := Crypto.hmacMd5 responseKeyNt.val ntProof.val
  let sessionKey ← exportedKey auth keyExchangeKey
  if !s.micHolds auth sessionKey then none
  return { identity := .user auth.user auth.domain, sessionKey := sessionKey }

/-- A user identity is one the lookup knew, under the name it was looked up by. -/
theorem lookup_of_authenticate (s : NtlmServer) (blob : Bytes) (lookup : Text → Option UserCreds)
    (outcome : AuthOutcome) (user domain : Text)
    (ok : s.authenticate blob lookup = some outcome) (id : outcome.identity = .user user domain) :
    ∃ creds, lookup user = some creds := by
  simp only [authenticate, Option.bind_eq_bind, Option.bind_eq_some_iff] at ok
  obtain ⟨auth, -, ok⟩ := ok
  split at ok
  · simp only [Option.pure_def, Option.some.injEq] at ok
    rw [← ok] at id
    cases id
  · obtain ⟨creds, found, ok⟩ := Option.bind_eq_some_iff.mp ok
    split at ok
    · cases ok
    · split at ok
      · cases ok
      · obtain ⟨key, -, ok⟩ := Option.bind_eq_some_iff.mp ok
        split at ok
        · cases ok
        · simp only [Option.pure_def, Option.some.injEq] at ok
          rw [← ok] at id
          injection id with same
          exact ⟨creds, same ▸ found⟩

end NtlmServer

end SmbServer
