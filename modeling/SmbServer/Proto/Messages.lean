import SmbServer.Proto.Reader
import SmbServer.Text

/-!
# SmbServer.Proto.Messages

The wire structures of `proto/messages`: what each request parser reads and the bytes each response
encoder writes. A variable-length field sits directly behind the fixed part, whatever its offset
field says.
-/

namespace SmbServer

open Lib

/-- The 16-byte file identifier. -/
structure FileId where
  persistent : UInt64
  volatile : UInt64
  deriving DecidableEq, Repr

namespace FileId

/-- The "any" FileId `0xFFFF…FFFF`. -/
def any : FileId := ⟨0xFFFFFFFFFFFFFFFF, 0xFFFFFFFFFFFFFFFF⟩

def write (fid : FileId) : Bytes := u64le fid.persistent ++ u64le fid.volatile

def read : Reader FileId := do return ⟨← Reader.u64, ← Reader.u64⟩

@[simp] theorem length_write (fid : FileId) : fid.write.length = 16 := by simp [write]

theorem read_append (fid : FileId) (rest : Bytes) : read (fid.write ++ rest) = some (fid, rest) := by
  have split : fid.write ++ rest = u64le fid.persistent ++ (u64le fid.volatile ++ rest) :=
    List.append_assoc _ _ _
  simp only [read, bind, StateT.bind, split, Reader.u64_append, Reader.pure_apply,
    Option.bind_some]

theorem read_bind_append {β : Type} (f : FileId → Reader β) (fid : FileId) (rest : Bytes) :
    (read >>= f) (fid.write ++ rest) = f fid rest := by
  simp only [bind, StateT.bind, read_append, Option.bind_some]

theorem read_rest {buf rest : Bytes} {fid : FileId} (h : read buf = some (fid, rest)) :
    rest = buf.drop 16 := by
  obtain ⟨_, _, persistent, _, _, volatile, done⟩ := by
    simpa only [read, Reader.bind_eq_some] using h
  rw [← (Reader.pure_eq_some.mp done).2, Reader.u64_rest volatile, Reader.u64_rest persistent,
    List.drop_drop]

theorem read_bind {β : Type} {buf : Bytes} {y : β × Bytes} {f : FileId → Reader β} :
    (read >>= f) buf = some y ↔
      16 ≤ buf.length ∧ f ⟨readU64 buf 0, readU64 buf 8⟩ (buf.drop 16) = some y := by
  simp only [read, bind_assoc, Reader.u64_bind, pure_bind, List.length_drop, List.drop_drop,
    readU64, slice_drop]
  constructor
  · rintro ⟨_, both, last⟩
    exact ⟨by omega, last⟩
  · rintro ⟨both, last⟩
    exact ⟨by omega, by omega, last⟩

end FileId

/-! ### NEGOTIATE -/

inductive Dialect where
  | smb202
  | smb210
  | smb300
  | smb302
  | smb311
  | smb2Wildcard
  deriving DecidableEq, Repr

def Dialect.fromU16 (v : UInt16) : Option Dialect :=
  if v = 0x0202 then some .smb202
  else if v = 0x0210 then some .smb210
  else if v = 0x0300 then some .smb300
  else if v = 0x0302 then some .smb302
  else if v = 0x0311 then some .smb311
  else if v = 0x02FF then some .smb2Wildcard
  else none

def Dialect.asU16 : Dialect → UInt16
  | .smb202 => 0x0202
  | .smb210 => 0x0210
  | .smb300 => 0x0300
  | .smb302 => 0x0302
  | .smb311 => 0x0311
  | .smb2Wildcard => 0x02FF

/-- A dialect that was read is the number it was read from. -/
theorem Dialect.asU16_of_fromU16 {v : UInt16} {d : Dialect} (read : fromU16 v = some d) :
    d.asU16 = v := by
  unfold fromU16 at read
  split_ifs at read <;> cases read <;> simp_all [asU16]

structure NegotiateRequest where
  structureSize : UInt16
  dialectCount : UInt16
  securityMode : UInt16
  reserved : UInt16
  capabilities : UInt32
  clientGuid : ByteVec 16
  negotiateContextOffsetOrClientStartTime : UInt64
  dialects : List UInt16

def NegotiateRequest.parse (buf : Bytes) : Option NegotiateRequest := Reader.parse (do
  let structureSize ← Reader.u16
  let dialectCount ← Reader.u16
  let securityMode ← Reader.u16
  let reserved ← Reader.u16
  let capabilities ← Reader.u32
  let clientGuid ← Reader.array 16
  let negotiateContextOffsetOrClientStartTime ← Reader.u64
  let dialects ← Reader.u16s dialectCount.toNat
  return { structureSize, dialectCount, securityMode, reserved, capabilities, clientGuid,
           negotiateContextOffsetOrClientStartTime, dialects }) buf

structure NegotiateResponse where
  structureSize : UInt16
  securityMode : UInt16
  dialectRevision : UInt16
  negotiateContextCountOrReserved : UInt16
  serverGuid : ByteVec 16
  capabilities : UInt32
  maxTransactSize : UInt32
  maxReadSize : UInt32
  maxWriteSize : UInt32
  systemTime : UInt64
  serverStartTime : UInt64
  securityBufferOffset : UInt16
  securityBufferLength : UInt16
  negotiateContextOffsetOrReserved2 : UInt32
  securityBuffer : Bytes

def NegotiateResponse.write (r : NegotiateResponse) : Bytes :=
  u16le r.structureSize ++ u16le r.securityMode ++ u16le r.dialectRevision ++
    u16le r.negotiateContextCountOrReserved ++ r.serverGuid.val ++ u32le r.capabilities ++
    u32le r.maxTransactSize ++ u32le r.maxReadSize ++ u32le r.maxWriteSize ++
    u64le r.systemTime ++ u64le r.serverStartTime ++ u16le r.securityBufferOffset ++
    u16le r.securityBufferLength ++ u32le r.negotiateContextOffsetOrReserved2 ++ r.securityBuffer

/-- The fields of a written response that VALIDATE_NEGOTIATE_INFO repeats, at their offsets. -/
theorem NegotiateResponse.slices_write (r : NegotiateResponse) (rest : Bytes) :
    slice (r.write ++ rest) 2 2 = u16le r.securityMode ∧
      slice (r.write ++ rest) 4 2 = u16le r.dialectRevision ∧
      slice (r.write ++ rest) 8 16 = r.serverGuid.val ∧
      slice (r.write ++ rest) 24 4 = u32le r.capabilities := by
  let behindGuid := u32le r.maxTransactSize ++ u32le r.maxReadSize ++ u32le r.maxWriteSize ++
    u64le r.systemTime ++ u64le r.serverStartTime ++ u16le r.securityBufferOffset ++
    u16le r.securityBufferLength ++ u32le r.negotiateContextOffsetOrReserved2 ++
    r.securityBuffer ++ rest
  have shape : r.write ++ rest = u16le r.structureSize ++ (u16le r.securityMode ++
      (u16le r.dialectRevision ++ (u16le r.negotiateContextCountOrReserved ++
        (r.serverGuid.val ++ (u32le r.capabilities ++ behindGuid))))) := by
    simp only [write, behindGuid, List.append_assoc]
  refine ⟨?_, ?_, ?_, ?_⟩
  · rw [shape]
    exact slice_between _ _ _ 2 2 (length_u16le _) (length_u16le _)
  · rw [shape, ← List.append_assoc]
    exact slice_between _ _ _ 4 2 (by simp) (length_u16le _)
  · rw [shape, ← List.append_assoc, ← List.append_assoc, ← List.append_assoc]
    exact slice_between _ _ _ 8 16 (by simp) (ByteVec.length_val _)
  · rw [shape, ← List.append_assoc, ← List.append_assoc, ← List.append_assoc,
      ← List.append_assoc]
    exact slice_between _ _ _ 24 4 (by simp) (length_u32le _)

/-- One NEGOTIATE_CONTEXT. -/
structure NegotiateContext where
  contextType : UInt16
  dataLength : UInt16
  reserved : UInt32
  data : Bytes
  deriving DecidableEq

namespace NegotiateContext

def typePreauthIntegrity : UInt16 := 0x0001

def typeSigning : UInt16 := 0x0008

def write (c : NegotiateContext) : Bytes :=
  u16le c.contextType ++ u16le c.dataLength ++ u32le c.reserved ++ c.data

/-- The contexts behind `out`, each but the first padded to 8 bytes from the list's start. -/
def encodeListFrom (out : Bytes) : List NegotiateContext → Bytes
  | [] => out
  | c :: rest =>
    encodeListFrom (out ++ List.replicate ((8 - out.length % 8) % 8) 0 ++ c.write) rest

def encodeList (list : List NegotiateContext) : Bytes := encodeListFrom [] list

/-- One context from the front. -/
def read : Reader NegotiateContext := do
  let contextType ← Reader.u16
  let dataLength ← Reader.u16
  let reserved ← Reader.u32
  let data ← Reader.bytes dataLength.toNat
  return { contextType, dataLength, reserved, data }

/-- The loop of `parse_list`: each context is aligned to 8 bytes from the list's start, of which
`consumed` bytes are behind. -/
def parseListFrom : Nat → Bytes → Nat → Option (List NegotiateContext)
  | 0, _, _ => some []
  | count + 1, buf, consumed =>
    let pad := (8 - consumed % 8) % 8
    if buf.length < pad then none
    else
      match read (buf.drop pad) with
      | none => none
      | some (ctx, rest) =>
        let took := (buf.drop pad).length - rest.length
        (parseListFrom count rest (consumed + pad + took)).map (ctx :: ·)

def parseList (buf : Bytes) (count : UInt16) : Option (List NegotiateContext) :=
  parseListFrom count.toNat buf 0

end NegotiateContext

structure PreauthIntegrityCapabilities where
  hashAlgorithmCount : UInt16
  saltLength : UInt16
  hashAlgorithms : List UInt16
  salt : Bytes

def PreauthIntegrityCapabilities.hashSha512 : UInt16 := 0x0001

def PreauthIntegrityCapabilities.write (c : PreauthIntegrityCapabilities) : Bytes :=
  u16le c.hashAlgorithmCount ++ u16le c.saltLength ++ c.hashAlgorithms.flatMap u16le ++ c.salt

structure SigningCapabilities where
  signingAlgorithmCount : UInt16
  signingAlgorithms : List UInt16

def SigningCapabilities.algorithmAesCmac : UInt16 := 0x0001

def SigningCapabilities.write (c : SigningCapabilities) : Bytes :=
  u16le c.signingAlgorithmCount ++ c.signingAlgorithms.flatMap u16le

/-! ### SESSION_SETUP and LOGOFF -/

structure SessionSetupRequest where
  structureSize : UInt16
  flags : UInt8
  securityMode : UInt8
  capabilities : UInt32
  channel : UInt32
  securityBufferOffset : UInt16
  securityBufferLength : UInt16
  previousSessionId : UInt64
  securityBuffer : Bytes

def SessionSetupRequest.parse (buf : Bytes) : Option SessionSetupRequest := Reader.parse (do
  let structureSize ← Reader.u16
  let flags ← Reader.u8
  let securityMode ← Reader.u8
  let capabilities ← Reader.u32
  let channel ← Reader.u32
  let securityBufferOffset ← Reader.u16
  let securityBufferLength ← Reader.u16
  let previousSessionId ← Reader.u64
  let securityBuffer ← Reader.bytes securityBufferLength.toNat
  return { structureSize, flags, securityMode, capabilities, channel, securityBufferOffset,
           securityBufferLength, previousSessionId, securityBuffer }) buf

structure SessionSetupResponse where
  structureSize : UInt16
  sessionFlags : UInt16
  securityBufferOffset : UInt16
  securityBufferLength : UInt16
  securityBuffer : Bytes

def SessionSetupResponse.flagIsGuest : UInt16 := 0x0001

def SessionSetupResponse.write (r : SessionSetupResponse) : Bytes :=
  u16le r.structureSize ++ u16le r.sessionFlags ++ u16le r.securityBufferOffset ++
    u16le r.securityBufferLength ++ r.securityBuffer

/-- The bodies of a structure size and one reserved word: LOGOFF, TREE_DISCONNECT, LOCK, FLUSH and
ECHO responses. -/
def emptyResponse : Bytes := u16le 4 ++ u16le 0

/-! ### TREE_CONNECT -/

structure TreeConnectRequest where
  structureSize : UInt16
  flags : UInt16
  pathOffset : UInt16
  pathLength : UInt16
  path : Bytes

def TreeConnectRequest.parse (buf : Bytes) : Option TreeConnectRequest := Reader.parse (do
  let structureSize ← Reader.u16
  let flags ← Reader.u16
  let pathOffset ← Reader.u16
  let pathLength ← Reader.u16
  let path ← Reader.bytes pathLength.toNat
  return { structureSize, flags, pathOffset, pathLength, path }) buf

def TreeConnectRequest.pathStr (r : TreeConnectRequest) : Option Text :=
  if r.path.length % 2 ≠ 0 then none else some (fromUtf16Lossy (utf16Units r.path))

structure TreeConnectResponse where
  structureSize : UInt16
  shareType : UInt8
  reserved : UInt8
  shareFlags : UInt32
  capabilities : UInt32
  maximalAccess : UInt32

def TreeConnectResponse.write (r : TreeConnectResponse) : Bytes :=
  u16le r.structureSize ++ [r.shareType, r.reserved] ++ u32le r.shareFlags ++
    u32le r.capabilities ++ u32le r.maximalAccess

/-! ### CREATE -/

structure CreateRequest where
  structureSize : UInt16
  securityFlags : UInt8
  requestedOplockLevel : UInt8
  impersonationLevel : UInt32
  smbCreateFlags : UInt64
  reserved : UInt64
  desiredAccess : UInt32
  fileAttributes : UInt32
  shareAccess : UInt32
  createDisposition : UInt32
  createOptions : UInt32
  nameOffset : UInt16
  nameLength : UInt16
  createContextsOffset : UInt32
  createContextsLength : UInt32
  name : Bytes
  createContexts : Bytes

def CreateRequest.parse (buf : Bytes) : Option CreateRequest := Reader.parse (do
  let structureSize ← Reader.u16
  let securityFlags ← Reader.u8
  let requestedOplockLevel ← Reader.u8
  let impersonationLevel ← Reader.u32
  let smbCreateFlags ← Reader.u64
  let reserved ← Reader.u64
  let desiredAccess ← Reader.u32
  let fileAttributes ← Reader.u32
  let shareAccess ← Reader.u32
  let createDisposition ← Reader.u32
  let createOptions ← Reader.u32
  let nameOffset ← Reader.u16
  let nameLength ← Reader.u16
  let createContextsOffset ← Reader.u32
  let createContextsLength ← Reader.u32
  let name ← Reader.bytes nameLength.toNat
  let createContexts ← Reader.bytes createContextsLength.toNat
  return { structureSize, securityFlags, requestedOplockLevel, impersonationLevel, smbCreateFlags,
           reserved, desiredAccess, fileAttributes, shareAccess, createDisposition, createOptions,
           nameOffset, nameLength, createContextsOffset, createContextsLength, name,
           createContexts }) buf

structure CreateResponse where
  structureSize : UInt16
  oplockLevel : UInt8
  flags : UInt8
  createAction : UInt32
  creationTime : UInt64
  lastAccessTime : UInt64
  lastWriteTime : UInt64
  changeTime : UInt64
  allocationSize : UInt64
  endOfFile : UInt64
  fileAttributes : UInt32
  reserved2 : UInt32
  fileId : FileId
  createContextsOffset : UInt32
  createContextsLength : UInt32
  createContexts : Bytes

def CreateResponse.write (r : CreateResponse) : Bytes :=
  u16le r.structureSize ++ [r.oplockLevel, r.flags] ++ u32le r.createAction ++
    u64le r.creationTime ++ u64le r.lastAccessTime ++ u64le r.lastWriteTime ++
    u64le r.changeTime ++ u64le r.allocationSize ++ u64le r.endOfFile ++
    u32le r.fileAttributes ++ u32le r.reserved2 ++ r.fileId.write ++
    u32le r.createContextsOffset ++ u32le r.createContextsLength ++ r.createContexts

/-- One entry of a create-context chain. -/
structure CreateContext where
  name : Bytes
  data : Bytes
  deriving DecidableEq

namespace CreateContext

/-- `b"AAPL"` -/
def nameAapl : Bytes := [0x41, 0x41, 0x50, 0x4C]

/-- The entry at the front of `entry` and its `Next` offset; `none` is a malformed chain. -/
def parseEntry (entry : Bytes) : Option (CreateContext × Nat) :=
  if entry.length < 16 then none
  else
    let next := (readU32 entry 0).toNat
    let nameOffset := (readU16 entry 4).toNat
    let nameLength := (readU16 entry 6).toNat
    let dataOffset := (readU16 entry 10).toNat
    let dataLength := (readU32 entry 12).toNat
    if entry.length < nameOffset + nameLength then none
    else if dataLength = 0 then some (⟨slice entry nameOffset nameLength, []⟩, next)
    else if entry.length < dataOffset + dataLength then none
    else some (⟨slice entry nameOffset nameLength, slice entry dataOffset dataLength⟩, next)

/-- The loop of `parse_chain`. Every round but the last moves the cursor forward, so `fuel` rounds
are enough for a chain shorter than `fuel`. -/
def parseChainFrom (fuel : Nat) (chain : Bytes) (cursorOff : Nat) : Option (List CreateContext) :=
  match fuel with
  | 0 => none
  | fuel + 1 =>
    if chain.length < cursorOff then none
    else
      match parseEntry (chain.drop cursorOff) with
      | none => none
      | some (ctx, next) =>
        if next = 0 then some [ctx]
        else (parseChainFrom fuel chain (cursorOff + next)).map (ctx :: ·)

def parseChain (chain : Bytes) : Option (List CreateContext) :=
  if chain.isEmpty then some [] else parseChainFrom (chain.length + 1) chain 0

def pad8 (n : Nat) : Bytes := List.replicate ((8 - n % 8) % 8) 0

/-- One encoded entry without the padding to its successor. -/
def encodeEntry (ctx : CreateContext) (next : Nat) : Bytes :=
  let pad := pad8 (16 + ctx.name.length)
  u32le (UInt32.ofNat next) ++ u16le 16 ++ u16le (UInt16.ofNat ctx.name.length) ++ u16le 0 ++
    u16le (UInt16.ofNat (16 + ctx.name.length + pad.length)) ++
    u32le (UInt32.ofNat ctx.data.length) ++ ctx.name ++ pad ++ ctx.data

/-- `encode_chain`: entries padded to 8 bytes, `Next` the distance to the following entry. -/
def encodeChain : List CreateContext → Bytes
  | [] => []
  | [ctx] => encodeEntry ctx 0
  | ctx :: rest =>
    let len := (encodeEntry ctx 0).length
    let pad := pad8 len
    encodeEntry ctx (len + pad.length) ++ pad ++ encodeChain rest

end CreateContext

/-! ### CLOSE and FLUSH -/

structure CloseRequest where
  structureSize : UInt16
  flags : UInt16
  reserved : UInt32
  fileId : FileId

def CloseRequest.parse (buf : Bytes) : Option CloseRequest := Reader.parse (do
  let structureSize ← Reader.u16
  let flags ← Reader.u16
  let reserved ← Reader.u32
  let fileId ← FileId.read
  return { structureSize, flags, reserved, fileId }) buf

structure CloseResponse where
  structureSize : UInt16
  flags : UInt16
  reserved : UInt32
  creationTime : UInt64
  lastAccessTime : UInt64
  lastWriteTime : UInt64
  changeTime : UInt64
  allocationSize : UInt64
  endOfFile : UInt64
  fileAttributes : UInt32

def CloseResponse.write (r : CloseResponse) : Bytes :=
  u16le r.structureSize ++ u16le r.flags ++ u32le r.reserved ++ u64le r.creationTime ++
    u64le r.lastAccessTime ++ u64le r.lastWriteTime ++ u64le r.changeTime ++
    u64le r.allocationSize ++ u64le r.endOfFile ++ u32le r.fileAttributes

structure FlushRequest where
  structureSize : UInt16
  reserved1 : UInt16
  reserved2 : UInt32
  fileIdPersistent : UInt64
  fileIdVolatile : UInt64

def FlushRequest.parse (buf : Bytes) : Option FlushRequest := Reader.parse (do
  let structureSize ← Reader.u16
  let reserved1 ← Reader.u16
  let reserved2 ← Reader.u32
  let fileIdPersistent ← Reader.u64
  let fileIdVolatile ← Reader.u64
  return { structureSize, reserved1, reserved2, fileIdPersistent, fileIdVolatile }) buf

/-! ### READ and WRITE -/

structure ReadRequest where
  structureSize : UInt16
  padding : UInt8
  flags : UInt8
  length : UInt32
  offset : UInt64
  fileId : FileId
  minimumCount : UInt32
  channel : UInt32
  remainingBytes : UInt32
  readChannelInfoOffset : UInt16
  readChannelInfoLength : UInt16
  buffer : Bytes

def ReadRequest.parse (buf : Bytes) : Option ReadRequest := Reader.parse (do
  let structureSize ← Reader.u16
  let padding ← Reader.u8
  let flags ← Reader.u8
  let length ← Reader.u32
  let offset ← Reader.u64
  let fileId ← FileId.read
  let minimumCount ← Reader.u32
  let channel ← Reader.u32
  let remainingBytes ← Reader.u32
  let readChannelInfoOffset ← Reader.u16
  let readChannelInfoLength ← Reader.u16
  let buffer ← Reader.bytes
    (if readChannelInfoLength = 0 then 1 else readChannelInfoLength.toNat)
  return { structureSize, padding, flags, length, offset, fileId, minimumCount, channel,
           remainingBytes, readChannelInfoOffset, readChannelInfoLength, buffer }) buf

/-- The length that a READ asks for. -/
theorem ReadRequest.length_eq {body : Bytes} {req : ReadRequest}
    (parsed : ReadRequest.parse body = some req) : req.length = readU32 body 4 := by
  obtain ⟨rest, read⟩ := Reader.parse_eq_some.mp parsed
  simp only [Reader.bind_eq_some, Reader.pure_eq_some] at read
  obtain ⟨_, _, size, _, _, padding, _, _, flags, _, _, length, -, -, -, -, -, -, -, -, -, -, -, -,
    -, -, -, -, -, -, -, -, -, -, -, -, rfl, -⟩ := read
  rw [Reader.u16_rest size] at padding
  rw [Reader.u8_rest padding] at flags
  rw [Reader.u8_rest flags] at length
  rw [(Reader.u32_eq length).1]
  simp only [readU32_drop]

structure ReadResponse where
  structureSize : UInt16
  dataOffset : UInt8
  reserved : UInt8
  dataLength : UInt32
  dataRemaining : UInt32
  flags : UInt32
  data : Bytes

def ReadResponse.standardDataOffset : UInt8 := 0x50

def ReadResponse.write (r : ReadResponse) : Bytes :=
  u16le r.structureSize ++ [r.dataOffset, r.reserved] ++ u32le r.dataLength ++
    u32le r.dataRemaining ++ u32le r.flags ++ r.data

structure WriteRequest where
  structureSize : UInt16
  dataOffset : UInt16
  length : UInt32
  offset : UInt64
  fileId : FileId
  channel : UInt32
  remainingBytes : UInt32
  writeChannelInfoOffset : UInt16
  writeChannelInfoLength : UInt16
  flags : UInt32
  data : Bytes

def WriteRequest.parse (buf : Bytes) : Option WriteRequest := Reader.parse (do
  let structureSize ← Reader.u16
  let dataOffset ← Reader.u16
  let length ← Reader.u32
  let offset ← Reader.u64
  let fileId ← FileId.read
  let channel ← Reader.u32
  let remainingBytes ← Reader.u32
  let writeChannelInfoOffset ← Reader.u16
  let writeChannelInfoLength ← Reader.u16
  let flags ← Reader.u32
  let data ← Reader.bytes (if length = 0 then 1 else length.toNat)
  return { structureSize, dataOffset, length, offset, fileId, channel, remainingBytes,
           writeChannelInfoOffset, writeChannelInfoLength, flags, data }) buf

/-- What the parser reads, of a body that is long enough. -/
theorem WriteRequest.parse_eq_some (buf : Bytes) (req : WriteRequest) :
    WriteRequest.parse buf = some req ↔
      48 + (if readU32 buf 4 = 0 then 1 else (readU32 buf 4).toNat) ≤ buf.length ∧
        { structureSize := readU16 buf 0
          dataOffset := readU16 buf 2
          length := readU32 buf 4
          offset := readU64 buf 8
          fileId := ⟨readU64 buf 16, readU64 buf 24⟩
          channel := readU32 buf 32
          remainingBytes := readU32 buf 36
          writeChannelInfoOffset := readU16 buf 40
          writeChannelInfoLength := readU16 buf 42
          flags := readU32 buf 44
          data := slice buf 48 (if readU32 buf 4 = 0 then 1 else (readU32 buf 4).toNat) } =
            req := by
  simp only [WriteRequest.parse, Reader.parse_eq_some, Reader.u16_bind, Reader.u32_bind,
    Reader.u64_bind, Reader.bytes_bind, FileId.read_bind, Reader.pure_eq_some, List.drop_drop,
    List.length_drop, slice_drop, readU16_drop, readU32_drop, readU64_drop, Nat.reduceAdd,
    Nat.add_zero, exists_and_left, exists_eq', and_true]
  constructor
  · rintro ⟨-, -, -, -, -, -, -, -, -, fixed, fits, read⟩
    exact ⟨by omega, read⟩
  · rintro ⟨fits, read⟩
    refine ⟨?_, ?_, ?_, ?_, ?_, ?_, ?_, ?_, ?_, ?_, ?_, read⟩ <;> omega

structure WriteResponse where
  structureSize : UInt16
  reserved : UInt16
  count : UInt32
  remaining : UInt32
  writeChannelInfoOffset : UInt16
  writeChannelInfoLength : UInt16

def WriteResponse.new (count : UInt32) : WriteResponse where
  structureSize := 17
  reserved := 0
  count := count
  remaining := 0
  writeChannelInfoOffset := 0
  writeChannelInfoLength := 0

def WriteResponse.write (r : WriteResponse) : Bytes :=
  u16le r.structureSize ++ u16le r.reserved ++ u32le r.count ++ u32le r.remaining ++
    u16le r.writeChannelInfoOffset ++ u16le r.writeChannelInfoLength

/-! ### QUERY_INFO, SET_INFO and QUERY_DIRECTORY -/

inductive InfoType where
  | file
  | fileSystem
  | security
  | quota
  deriving DecidableEq, Repr

def InfoType.fromU8 (v : UInt8) : Option InfoType :=
  if v = 1 then some .file
  else if v = 2 then some .fileSystem
  else if v = 3 then some .security
  else if v = 4 then some .quota
  else none

structure QueryInfoRequest where
  structureSize : UInt16
  infoType : UInt8
  fileInformationClass : UInt8
  outputBufferLength : UInt32
  inputBufferOffset : UInt16
  reserved : UInt16
  inputBufferLength : UInt32
  additionalInformation : UInt32
  flags : UInt32
  fileId : FileId
  inputBuffer : Bytes

def QueryInfoRequest.parse (buf : Bytes) : Option QueryInfoRequest := Reader.parse (do
  let structureSize ← Reader.u16
  let infoType ← Reader.u8
  let fileInformationClass ← Reader.u8
  let outputBufferLength ← Reader.u32
  let inputBufferOffset ← Reader.u16
  let reserved ← Reader.u16
  let inputBufferLength ← Reader.u32
  let additionalInformation ← Reader.u32
  let flags ← Reader.u32
  let fileId ← FileId.read
  let inputBuffer ← Reader.bytes inputBufferLength.toNat
  return { structureSize, infoType, fileInformationClass, outputBufferLength, inputBufferOffset,
           reserved, inputBufferLength, additionalInformation, flags, fileId, inputBuffer }) buf

/-- The QUERY_INFO and QUERY_DIRECTORY responses: a length-counted buffer behind eight bytes. -/
structure BufferResponse where
  structureSize : UInt16
  outputBufferOffset : UInt16
  outputBufferLength : UInt32
  buffer : Bytes

def BufferResponse.write (r : BufferResponse) : Bytes :=
  u16le r.structureSize ++ u16le r.outputBufferOffset ++ u32le r.outputBufferLength ++ r.buffer

structure SetInfoRequest where
  structureSize : UInt16
  infoType : UInt8
  fileInformationClass : UInt8
  bufferLength : UInt32
  bufferOffset : UInt16
  reserved : UInt16
  additionalInformation : UInt32
  fileId : FileId
  buffer : Bytes

def SetInfoRequest.parse (buf : Bytes) : Option SetInfoRequest := Reader.parse (do
  let structureSize ← Reader.u16
  let infoType ← Reader.u8
  let fileInformationClass ← Reader.u8
  let bufferLength ← Reader.u32
  let bufferOffset ← Reader.u16
  let reserved ← Reader.u16
  let additionalInformation ← Reader.u32
  let fileId ← FileId.read
  let buffer ← Reader.bytes bufferLength.toNat
  return { structureSize, infoType, fileInformationClass, bufferLength, bufferOffset, reserved,
           additionalInformation, fileId, buffer }) buf

/-- `SetInfoResponse::default`. -/
def setInfoResponse : Bytes := u16le 2

structure QueryDirectoryRequest where
  structureSize : UInt16
  fileInformationClass : UInt8
  flags : UInt8
  fileIndex : UInt32
  fileId : FileId
  fileNameOffset : UInt16
  fileNameLength : UInt16
  outputBufferLength : UInt32
  fileName : Bytes

namespace QueryDirectoryRequest

def flagRestartScans : UInt8 := 0x01
def flagReturnSingleEntry : UInt8 := 0x02
def flagReopen : UInt8 := 0x10

def parse (buf : Bytes) : Option QueryDirectoryRequest := Reader.parse (do
  let structureSize ← Reader.u16
  let fileInformationClass ← Reader.u8
  let flags ← Reader.u8
  let fileIndex ← Reader.u32
  let fileId ← FileId.read
  let fileNameOffset ← Reader.u16
  let fileNameLength ← Reader.u16
  let outputBufferLength ← Reader.u32
  let fileName ← Reader.bytes fileNameLength.toNat
  return { structureSize, fileInformationClass, flags, fileIndex, fileId, fileNameOffset,
           fileNameLength, outputBufferLength, fileName }) buf

/-- The buffer length that a QUERY_DIRECTORY asks for. -/
theorem outputBufferLength_eq {body : Bytes} {req : QueryDirectoryRequest}
    (parsed : parse body = some req) : req.outputBufferLength = readU32 body 28 := by
  obtain ⟨rest, read⟩ := Reader.parse_eq_some.mp parsed
  simp only [Reader.bind_eq_some, Reader.pure_eq_some] at read
  obtain ⟨_, _, size, _, _, infoClass, _, _, flags, _, _, index, _, _, fileId, _, _, nameOffset,
    _, _, nameLength, _, _, length, -, -, -, rfl, -⟩ := read
  rw [Reader.u16_rest size] at infoClass
  rw [Reader.u8_rest infoClass] at flags
  rw [Reader.u8_rest flags] at index
  rw [(Reader.u32_eq index).2] at fileId
  rw [FileId.read_rest fileId] at nameOffset
  rw [Reader.u16_rest nameOffset] at nameLength
  rw [Reader.u16_rest nameLength] at length
  rw [(Reader.u32_eq length).1]
  simp only [readU32_drop]

end QueryDirectoryRequest

/-! ### IOCTL -/

inductive Fsctl where
  | validateNegotiateInfo
  | dfsGetReferrals
  | dfsGetReferralsEx
  | pipeTranscede
  | pipePeek
  | pipeWait
  | lmrRequestResiliency
  | queryNetworkInterfaceInfo
  | other (code : UInt32)
  deriving DecidableEq, Repr

def Fsctl.fromU32 (code : UInt32) : Fsctl :=
  if code = 0x00140204 then .validateNegotiateInfo
  else if code = 0x00060194 then .dfsGetReferrals
  else if code = 0x00060198 then .dfsGetReferralsEx
  else if code = 0x0011C017 then .pipeTranscede
  else if code = 0x0011400C then .pipePeek
  else if code = 0x0011C018 then .pipeWait
  else if code = 0x001C0017 then .lmrRequestResiliency
  else if code = 0x001FC017 then .queryNetworkInterfaceInfo
  else .other code

structure IoctlRequest where
  structureSize : UInt16
  reserved : UInt16
  ctlCode : UInt32
  fileId : FileId
  inputOffset : UInt32
  inputCount : UInt32
  maxInputResponse : UInt32
  outputOffset : UInt32
  outputCount : UInt32
  maxOutputResponse : UInt32
  flags : UInt32
  reserved2 : UInt32
  input : Bytes

def IoctlRequest.parse (buf : Bytes) : Option IoctlRequest := Reader.parse (do
  let structureSize ← Reader.u16
  let reserved ← Reader.u16
  let ctlCode ← Reader.u32
  let fileId ← FileId.read
  let inputOffset ← Reader.u32
  let inputCount ← Reader.u32
  let maxInputResponse ← Reader.u32
  let outputOffset ← Reader.u32
  let outputCount ← Reader.u32
  let maxOutputResponse ← Reader.u32
  let flags ← Reader.u32
  let reserved2 ← Reader.u32
  let input ← Reader.bytes inputCount.toNat
  return { structureSize, reserved, ctlCode, fileId, inputOffset, inputCount, maxInputResponse,
           outputOffset, outputCount, maxOutputResponse, flags, reserved2, input }) buf

structure IoctlResponse where
  structureSize : UInt16
  reserved : UInt16
  ctlCode : UInt32
  fileId : FileId
  inputOffset : UInt32
  inputCount : UInt32
  outputOffset : UInt32
  outputCount : UInt32
  flags : UInt32
  reserved2 : UInt32
  output : Bytes

def IoctlResponse.write (r : IoctlResponse) : Bytes :=
  u16le r.structureSize ++ u16le r.reserved ++ u32le r.ctlCode ++ r.fileId.write ++
    u32le r.inputOffset ++ u32le r.inputCount ++ u32le r.outputOffset ++ u32le r.outputCount ++
    u32le r.flags ++ u32le r.reserved2 ++ r.output

theorem IoctlResponse.slice_output (r : IoctlResponse) :
    slice r.write 48 r.output.length = r.output := by
  have shape : r.write = (u16le r.structureSize ++ u16le r.reserved ++ u32le r.ctlCode ++
      r.fileId.write ++ u32le r.inputOffset ++ u32le r.inputCount ++ u32le r.outputOffset ++
      u32le r.outputCount ++ u32le r.flags ++ u32le r.reserved2) ++ (r.output ++ []) := by
    simp only [write, List.append_nil]
  rw [shape]
  exact slice_between _ _ _ 48 _ (by simp) rfl

/-! ### ERROR -/

/-- `ErrorResponse::status`: no error context and the one mandatory byte of error data. -/
def errorResponse : Bytes := u16le 9 ++ [0, 0] ++ u32le 0 ++ [0]

end SmbServer
