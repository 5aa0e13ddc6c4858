import SmbServer.Steps
import SmbServer.Effects.System

/-!
# SmbServer.Client

Frames as a client writes them, for the concrete runs that separate what a general theorem says
from what the program was meant to do: request headers and bodies, an NTLMv2 logon, signatures.
The primitives of `Sample.crypto` are checksums, so that a run can be evaluated; the application
behind `Sample.host` accepts every call.
-/

namespace SmbServer

open Lib

namespace Client

/-! ### Requests -/

/-- A request header; everything that a server does not look at is zero. -/
def header (command : Command) (flags : UInt32) (sid : UInt64) (tid : UInt32) : Smb2Header :=
  { Smb2Header.default with
    command := command
    flags := flags
    sessionId := sid
    tail := .sync 0 tid }

/-- An unsigned request. -/
def plain (command : Command) (sid : UInt64) (tid : UInt32) (body : Bytes) : Bytes :=
  (header command 0 sid tid).write ++ body

/-- A request signed under `key`. -/
def signed [Crypto] (key : Key) (algo : SigningAlgo) (command : Command) (sid : UInt64)
    (tid : UInt32) (body : Bytes) : Bytes :=
  sign ((header command smb2FlagsSigned sid tid).write ++ body) key algo

/-- A signed element in front of another one, padded to eight bytes. -/
def signedFirst [Crypto] (key : Key) (algo : SigningAlgo) (command : Command) (sid : UInt64)
    (tid : UInt32) (body : Bytes) : Bytes :=
  let len := align8 (smb2HeaderLen + body.length)
  let hdr := { header command smb2FlagsSigned sid tid with nextCommand := UInt32.ofNat len }
  sign (hdr.write ++ body ++ List.replicate (len - smb2HeaderLen - body.length) 0) key algo

/-- A signed last element that inherits its session and its tree. -/
def signedRelated [Crypto] (key : Key) (algo : SigningAlgo) (command : Command) (body : Bytes) :
    Bytes :=
  let flags := smb2FlagsSigned ||| smb2FlagsRelatedOperations
  sign ((header command flags maxU64 maxU32).write ++ body) key algo

def negotiateBody (dialects : List UInt16) : Bytes :=
  u16le 36 ++ u16le (UInt16.ofNat dialects.length) ++ u16le 1 ++ u16le 0 ++ u32le 0 ++
    List.replicate 16 0 ++ u64le 0 ++ dialects.flatMap u16le

def sessionSetupBody (blob : Bytes) : Bytes :=
  u16le 25 ++ [0, 1] ++ u32le 0 ++ u32le 0 ++ u16le 88 ++ u16le (UInt16.ofNat blob.length) ++
    u64le 0 ++ blob

def treeConnectBody (path : Text) : Bytes :=
  u16le 9 ++ u16le 0 ++ u16le 72 ++ u16le (UInt16.ofNat (utf16le path).length) ++ utf16le path

def createBody (access disposition options : UInt32) (name : Text) : Bytes :=
  u16le 57 ++ [0, 0] ++ u32le 0 ++ u64le 0 ++ u64le 0 ++ u32le access ++ u32le 0 ++ u32le 7 ++
    u32le disposition ++ u32le options ++ u16le 120 ++
    u16le (UInt16.ofNat (utf16le name).length) ++ u32le 0 ++ u32le 0 ++ utf16le name

def closeBody (fid : FileId) : Bytes := u16le 24 ++ u16le 0 ++ u32le 0 ++ fid.write

def readBody (fid : FileId) (length : UInt32) : Bytes :=
  u16le 49 ++ [0, 0] ++ u32le length ++ u64le 0 ++ fid.write ++ u32le 0 ++ u32le 0 ++ u32le 0 ++
    u16le 0 ++ u16le 0 ++ [0]

def writeBody (fid : FileId) (offset : UInt64) (data : Bytes) : Bytes :=
  u16le 49 ++ u16le 112 ++ u32le (UInt32.ofNat data.length) ++ u64le offset ++ fid.write ++
    u32le 0 ++ u32le 0 ++ u16le 0 ++ u16le 0 ++ u32le 0 ++ data

def setInfoBody (infoClass : UInt8) (fid : FileId) (buffer : Bytes) : Bytes :=
  u16le 33 ++ [1, infoClass] ++ u32le (UInt32.ofNat buffer.length) ++ u16le 96 ++ u16le 0 ++
    u32le 0 ++ fid.write ++ buffer

def queryDirectoryBody (infoClass flags : UInt8) (fid : FileId) (length : UInt32) (pattern : Text) :
    Bytes :=
  u16le 33 ++ [infoClass, flags] ++ u32le 0 ++ fid.write ++ u16le 96 ++
    u16le (UInt16.ofNat (utf16le pattern).length) ++ u32le length ++ utf16le pattern

def queryInfoBody (infoType infoClass : UInt8) (fid : FileId) (length : UInt32) : Bytes :=
  u16le 41 ++ [infoType, infoClass] ++ u32le length ++ u16le 0 ++ u16le 0 ++ u32le 0 ++ u32le 0 ++
    u32le 0 ++ fid.write

/-- The buffer of FileRenameInformation. -/
def renameBuffer (replace : Bool) (name : Text) : Bytes :=
  [if replace then 1 else 0] ++ List.replicate 15 0 ++
    u32le (UInt32.ofNat (utf16le name).length) ++ utf16le name

/-- A body of four bytes: LOGOFF, TREE_DISCONNECT and ECHO. -/
def emptyBody : Bytes := u16le 4 ++ u16le 0

/-! ### NTLM -/

/-- NEGOTIATE_MESSAGE with empty domain and workstation. -/
def ntlmNegotiate : Bytes :=
  ntlmsspSignature ++ u32le msgNegotiate ++ u32le NtlmFlags.negotiateUnicode ++
    List.replicate 16 0

/-- AUTHENTICATE_MESSAGE; user and response follow the fixed part of 64 bytes. -/
def ntlmAuthenticate (user : Text) (ntResponse : Bytes) : Bytes :=
  let name := utf16le user
  let field (len offset : Nat) : Bytes :=
    u16le (UInt16.ofNat len) ++ u16le (UInt16.ofNat len) ++ u32le (UInt32.ofNat offset)
  ntlmsspSignature ++ u32le msgAuthenticate ++ field 0 64 ++
    field ntResponse.length (64 + name.length) ++ field 0 64 ++ field name.length 64 ++
    field 0 64 ++ field 0 64 ++ u32le NtlmFlags.negotiateUnicode ++ name ++ ntResponse

variable [Crypto]

/-- The proof that answers a challenge, and the session key both sides derive from it. -/
def ntProof (password user : Text) (challenge : ByteVec 8) (blob : Bytes) : ByteVec 16 :=
  Crypto.hmacMd5 (ntowfV2 (ntHash password) user []).val (challenge.val ++ blob)

def sessionKey (password user : Text) (challenge : ByteVec 8) (blob : Bytes) : Key :=
  Crypto.hmacMd5 (ntowfV2 (ntHash password) user []).val (ntProof password user challenge blob).val

/-- The frames of a logon over raw NTLMSSP, behind a NEGOTIATE for one dialect. -/
def logon (dialect : UInt16) (sid : UInt64) (password user : Text) (challenge : ByteVec 8) :
    List Bytes :=
  [plain .negotiate 0 0 (negotiateBody [dialect]),
    plain .sessionSetup 0 0 (sessionSetupBody ntlmNegotiate),
    plain .sessionSetup sid 0 (sessionSetupBody
      (ntlmAuthenticate user ((ntProof password user challenge []).val)))]

end Client

/-! ### Runs of single requests -/

section
variable {σ η : Type} [Host σ η] [Crypto]

/-- Every frame is one request on the live connection and passes the check where it is executed. -/
def System.checkFrames (check : System σ η → Bytes → Bool) (cid : UInt64) :
    System σ η → List Bytes → Bool
  | _, [] => true
  | s, frame :: rest =>
    (s.conns.lookup cid).isSome && isSingle frame && check s frame &&
      checkFrames check cid (s.execute (.element cid (.single frame))) rest

/-- What the check is enough for holds of every step. -/
theorem System.always_of_checkFrames {Q : System σ η → Step → Prop}
    {check : System σ η → Bytes → Bool} {cid : UInt64}
    (enough : ∀ s frame, check s frame = true → Q s (.element cid (.single frame)))
    (s : System σ η) (frames : List Bytes) (checked : checkFrames check cid s frames = true) :
    Always execute Q s (s.steps (frames.map (.frame cid))) := by
  induction frames generalizing s with
  | nil => trivial
  | cons frame rest ih =>
    simp only [checkFrames, Bool.and_eq_true] at checked
    obtain ⟨⟨⟨live, single⟩, here⟩, later⟩ := checked
    obtain ⟨alone, -⟩ := s.expand_single cid frame live single
    have next : s.step (.frame cid frame) = s.execute (.element cid (.single frame)) := by
      rw [step_eq, alone, runAll_cons, runAll_nil]
    rw [List.map_cons, steps, alone, next, List.singleton_append, Always.cons]
    exact ⟨enough s frame here, ih _ later⟩

/-- The open that the frame closes, when it is executed. -/
def System.closing (s : System σ η) (cid : UInt64) (frame : Bytes) : Option (Target η) := do
  let conn ← s.conns.lookup cid
  let (hdr, body) ← Smb2Header.parse (Element.single frame).bytes
  if hdr.command = .close then
    match verifyRequestSignature conn hdr (Element.single frame).bytes,
      Close.validate conn hdr body with
    | .ok (), .ok (_, target) => some target
    | _, _ => none
  else none

omit [Host σ η] in
theorem System.closing_eq_some {s : System σ η} {cid : UInt64} {frame : Bytes}
    {target : Target η} : s.closing cid frame = some target ↔ ∃ conn hdr body req,
      s.Executes (.element cid (.single frame)) conn hdr body ∧ hdr.command = .close ∧
        Close.validate conn hdr body = .ok (req, target) := by
  constructor
  · intro closes
    obtain ⟨conn, live, closes⟩ := Option.bind_eq_some_iff.mp closes
    obtain ⟨⟨hdr, body⟩, parsed, closes⟩ := Option.bind_eq_some_iff.mp closes
    dsimp only at closes
    split at closes
    next close =>
      split at closes
      next req _ verified admitted =>
        cases closes
        exact ⟨conn, hdr, body, req, ⟨cid, _, rfl, live, parsed, verified, by simp [close]⟩, close,
          admitted⟩
      next => cases closes
    next => cases closes
  · rintro ⟨conn, hdr, body, req, ⟨cid', e, same, live, parsed, verified, -⟩, close, admitted⟩
    obtain ⟨rfl, rfl⟩ := Step.element.inj same
    rw [closing, live, Option.bind_eq_bind, Option.bind_some, parsed, Option.bind_eq_bind,
      Option.bind_some]
    simp only [if_pos close, verified, admitted]

end

/-! ### A server to run against -/

namespace Sample

/-- A checksum of `n` bytes. -/
def digest (n : Nat) (b : Bytes) : ByteVec n :=
  ⟨leBytes n (b.foldl (fun acc x => acc * 257 + x.toNat + 1) 1), length_leBytes n _⟩

scoped instance crypto : Crypto where
  hmacSha256 key msg := digest 32 (key ++ msg)
  aesCmac key msg := digest 16 (key.val ++ msg)
  sha512 b := digest 64 b
  md4 b := digest 16 b
  hmacMd5 key msg := digest 16 (key ++ msg)
  rc4 _ b := b
  toUppercase s := s.map Char.toUpper

def fileInfo : FileInfo where
  name := []
  endOfFile := 0
  allocationSize := 0
  creationTime := 0
  lastAccessTime := 0
  lastWriteTime := 0
  changeTime := 0
  isDirectory := false
  fileIndex := 0

/-- An application without state; backend 1 is read-only. -/
scoped instance host : Host Unit Unit where
  capabilities n := ⟨n == 1, true, true⟩
  «open» _ _ _ s := (.ok (), s)
  unlink _ _ s := (.ok (), s)
  rename _ _ _ _ s := (.ok (), s)
  read _ _ _ s := (.ok [], s)
  writeOwned _ _ data s := (.ok (UInt32.ofNat data.length), s)
  flush _ s := (.ok (), s)
  stat _ s := (.ok fileInfo, s)
  setTimes _ _ s := (.ok (), s)
  truncate _ _ s := (.ok (), s)
  listDir _ _ s := (.ok [], s)
  close _ s := (.ok (), s)
  fillRandom n s := (ByteVec.zero n, s)
  nowFiletime s := (0, s)

/-- `"al"` -/
def user : Text := ['a', 'l']

def password : Text := ['p']

/-- `"a"`, `"w"` and `"r"` -/
def guarded : Share where
  name := ['a']
  backend := .custom 0
  mode := .authenticatedOnly
  users := Table.empty.insert user .readWrite

def writable : Share where
  name := ['w']
  backend := .custom 0
  mode := .«public»
  users := Table.empty

def readOnly : Share where
  name := ['r']
  backend := .custom 0
  mode := .publicReadOnly
  users := Table.empty

def builder : SmbServerBuilder where
  listenAddr := some []
  users := Table.empty.insert user password
  userOrder := [user]
  shares := [guarded, writable, readOnly]
  netbiosName := some ['S']
  maxReadSize := 65536
  maxWriteSize := 65536
  serverGuid := some (ByteVec.zero 16)
  traceSink := false
  hostname := []
  randomGuid := ByteVec.zero 16
  startFiletime := 0

/-- The server that `builder` builds. -/
def server : ServerState where
  config := ⟨['S'], 65536, 65536, ByteVec.zero 16⟩
  users := builder.userTable
  shares := SmbServerBuilder.registerAll builder.shares
  serverStartFiletime := 0
  traceSink := false

theorem build_builder : builder.build = .ok server := rfl

/-- A client that connects and sends frames over connection 1. -/
def session (frames : List Bytes) : List Event := .accept :: frames.map (.frame 1)

theorem throughout_session {σ η : Type} [Host σ η] {Q : System σ η → Step → Prop}
    {check : System σ η → Bytes → Bool} (accepted : ∀ s, Q s .accept)
    (enough : ∀ s frame, check s frame = true → Q s (.element 1 (.single frame)))
    (server : ServerState) (host : σ) (frames : List Bytes)
    (checked : System.checkFrames check 1 (System.start server host).accept frames = true) :
    System.Throughout server host (session frames) Q :=
  ⟨accepted _, System.always_of_checkFrames enough _ frames checked⟩

/-- The anonymous logon, and a TREE_CONNECT to a share. -/
def anonymousOn (share : Text) : List Bytes :=
  [Client.plain .negotiate 0 0 (Client.negotiateBody [0x0210]),
    Client.plain .sessionSetup 0 0 (Client.sessionSetupBody Client.ntlmNegotiate),
    Client.plain .sessionSetup 1 0 (Client.sessionSetupBody (Client.ntlmAuthenticate [] [])),
    Client.plain .treeConnect 1 0 (Client.treeConnectBody (['\\', '\\', 's', '\\'] ++ share))]

/-- The logon of the user at some dialect. -/
def userOn (dialect : UInt16) : List Bytes :=
  Client.logon dialect 1 password user (ByteVec.zero 8)

def userKey : Key := Client.sessionKey password user (ByteVec.zero 8) []

end Sample

end SmbServer
