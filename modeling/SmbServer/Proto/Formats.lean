import SmbServer.Lib.Format
import SmbServer.Proto.FileRequest

/-!
# SmbServer.Proto.Formats

The wire structures of `proto/messages` as formats: one list of fields for each structure, from
which `binrw` derives a reader and a writer. The counts are the `#[br(count = …)]` attributes.

The readers of the requests and the writers of the responses are those of the server's two
directions; the formats give the other direction of each, which is what a client runs.
-/

namespace SmbServer

open Lib

/-- A format over bytes. -/
abbrev Wire (α : Type) := Format UInt8 α

namespace Wire

def word8 : Wire UInt8 where
  read := Reader.u8
  write x := [x]
  Fits _ := True
  exact buf x rest := by
    cases buf with
    | nil => simp [Reader.u8]
    | cons b behind => simp [Reader.u8]

def word16 : Wire UInt16 :=
  (Format.symbols 2).convert u16OfLe u16le u16le_u16OfLe fun x _ => u16OfLe_u16le x

def word32 : Wire UInt32 :=
  (Format.symbols 4).convert u32OfLe u32le u32le_u32OfLe fun x _ => u32OfLe_u32le x

def word64 : Wire UInt64 :=
  (Format.symbols 8).convert u64OfLe u64le u64le_u64OfLe fun x _ => u64OfLe_u64le x

abbrev bytes (count : Nat) : Wire Bytes := Format.symbols count

def array (n : Nat) : Wire (ByteVec n) :=
  (Format.symbols n).convert (ByteVec.ofBytes n) (·.val) (fun b long => ByteVec.ofBytes_val b long)
    fun v _ => Subtype.ext (ByteVec.ofBytes_val v.val v.property)

section
variable (n : Nat) (x : UInt8) (x₂ : UInt16) (x₄ : UInt32) (x₈ : UInt64) (v : ByteVec n)

@[simp] theorem read_word8 : word8.read = Reader.u8 := rfl

@[simp] theorem read_word16 : word16.read = Reader.u16 := rfl

@[simp] theorem read_word32 : word32.read = Reader.u32 := rfl

@[simp] theorem read_word64 : word64.read = Reader.u64 := rfl

@[simp] theorem read_bytes : Format.readSymbols n = Reader.bytes n := rfl

@[simp] theorem read_array : (array n).read = Reader.array n := rfl

@[simp] theorem write_word8 : word8.write x = [x] := rfl

@[simp] theorem write_word16 : word16.write = u16le := rfl

@[simp] theorem write_word32 : word32.write = u32le := rfl

@[simp] theorem write_word64 : word64.write = u64le := rfl

@[simp] theorem write_array : (array n).write v = v.val := rfl

@[simp] theorem fits_word8 : word8.Fits x := trivial

@[simp] theorem fits_word16 : word16.Fits x₂ := length_u16le x₂

@[simp] theorem fits_word32 : word32.Fits x₄ := length_u32le x₄

@[simp] theorem fits_word64 : word64.Fits x₈ := length_u64le x₈

@[simp] theorem fits_array : (array n).Fits v := ByteVec.length_val v

end

@[simp] theorem read_word16s (count : Nat) :
    Format.readTimes Reader.u16 count = Reader.u16s count := by
  induction count with
  | zero => rfl
  | succ count ih => rw [Format.readTimes, Reader.u16s, ih]

end Wire

open Wire

/-! ### The FileId -/

def FileId.format : Wire FileId :=
  (word64.seq fun _persistent => word64).convert
    (fun ⟨persistent, volatile⟩ => ⟨persistent, volatile⟩)
    (fun m => (m.persistent, m.volatile))
    (fun _ _ => rfl) (fun _ _ => rfl)

@[simp] theorem FileId.read_format : format.read = FileId.read := by
  simp only [format, Format.read_convert, Format.read_seq, read_word64, bind_assoc, pure_bind,
    FileId.read]

@[simp] theorem FileId.write_format (fid : FileId) : format.write fid = fid.write := rfl

@[simp] theorem FileId.fits_format (fid : FileId) : format.Fits fid := by
  simp [format]

/-! ### NEGOTIATE -/

@[simp] def NegotiateRequest.format : Wire NegotiateRequest :=
  (word16.seq fun _structureSize => word16.seq fun dialectCount => word16.seq fun _securityMode =>
    word16.seq fun _reserved => word32.seq fun _capabilities => (array 16).seq fun _clientGuid =>
    word64.seq fun _negotiateContextOffsetOrClientStartTime =>
    word16.times dialectCount.toNat).convert
    (fun ⟨structureSize, dialectCount, securityMode, reserved, capabilities, clientGuid,
     negotiateContextOffsetOrClientStartTime, dialects⟩ =>
      ⟨structureSize, dialectCount, securityMode, reserved, capabilities, clientGuid,
       negotiateContextOffsetOrClientStartTime, dialects⟩)
    (fun m => (m.structureSize, m.dialectCount, m.securityMode, m.reserved, m.capabilities,
     m.clientGuid, m.negotiateContextOffsetOrClientStartTime, m.dialects))
    (fun _ _ => rfl) (fun _ _ => rfl)

@[simp] def NegotiateResponse.format : Wire NegotiateResponse :=
  (word16.seq fun _structureSize => word16.seq fun _securityMode =>
    word16.seq fun _dialectRevision => word16.seq fun _negotiateContextCountOrReserved =>
    (array 16).seq fun _serverGuid => word32.seq fun _capabilities =>
    word32.seq fun _maxTransactSize => word32.seq fun _maxReadSize =>
    word32.seq fun _maxWriteSize => word64.seq fun _systemTime => word64.seq fun _serverStartTime =>
    word16.seq fun _securityBufferOffset => word16.seq fun securityBufferLength =>
    word32.seq fun _negotiateContextOffsetOrReserved2 => bytes securityBufferLength.toNat).convert
    (fun ⟨structureSize, securityMode, dialectRevision, negotiateContextCountOrReserved,
     serverGuid, capabilities, maxTransactSize, maxReadSize, maxWriteSize, systemTime,
     serverStartTime, securityBufferOffset, securityBufferLength,
     negotiateContextOffsetOrReserved2, securityBuffer⟩ =>
      ⟨structureSize, securityMode, dialectRevision, negotiateContextCountOrReserved, serverGuid,
       capabilities, maxTransactSize, maxReadSize, maxWriteSize, systemTime, serverStartTime,
       securityBufferOffset, securityBufferLength, negotiateContextOffsetOrReserved2,
       securityBuffer⟩)
    (fun m => (m.structureSize, m.securityMode, m.dialectRevision,
     m.negotiateContextCountOrReserved, m.serverGuid, m.capabilities, m.maxTransactSize,
     m.maxReadSize, m.maxWriteSize, m.systemTime, m.serverStartTime, m.securityBufferOffset,
     m.securityBufferLength, m.negotiateContextOffsetOrReserved2, m.securityBuffer))
    (fun _ _ => rfl) (fun _ _ => rfl)

@[simp] def NegotiateContext.format : Wire NegotiateContext :=
  (word16.seq fun _contextType => word16.seq fun dataLength => word32.seq fun _reserved =>
    bytes dataLength.toNat).convert
    (fun ⟨contextType, dataLength, reserved, data⟩ => ⟨contextType, dataLength, reserved, data⟩)
    (fun m => (m.contextType, m.dataLength, m.reserved, m.data))
    (fun _ _ => rfl) (fun _ _ => rfl)

@[simp] def PreauthIntegrityCapabilities.format : Wire PreauthIntegrityCapabilities :=
  (word16.seq fun hashAlgorithmCount => word16.seq fun saltLength =>
    (word16.times hashAlgorithmCount.toNat).seq fun _hashAlgorithms =>
    bytes saltLength.toNat).convert
    (fun ⟨hashAlgorithmCount, saltLength, hashAlgorithms, salt⟩ =>
      ⟨hashAlgorithmCount, saltLength, hashAlgorithms, salt⟩)
    (fun m => (m.hashAlgorithmCount, m.saltLength, m.hashAlgorithms, m.salt))
    (fun _ _ => rfl) (fun _ _ => rfl)

structure EncryptionCapabilities where
  cipherCount : UInt16
  ciphers : List UInt16

@[simp] def EncryptionCapabilities.format : Wire EncryptionCapabilities :=
  (word16.seq fun cipherCount => word16.times cipherCount.toNat).convert
    (fun ⟨cipherCount, ciphers⟩ => ⟨cipherCount, ciphers⟩)
    (fun m => (m.cipherCount, m.ciphers))
    (fun _ _ => rfl) (fun _ _ => rfl)

@[simp] def SigningCapabilities.format : Wire SigningCapabilities :=
  (word16.seq fun signingAlgorithmCount => word16.times signingAlgorithmCount.toNat).convert
    (fun ⟨signingAlgorithmCount, signingAlgorithms⟩ => ⟨signingAlgorithmCount, signingAlgorithms⟩)
    (fun m => (m.signingAlgorithmCount, m.signingAlgorithms))
    (fun _ _ => rfl) (fun _ _ => rfl)

/-! ### SESSION_SETUP -/

@[simp] def SessionSetupRequest.format : Wire SessionSetupRequest :=
  (word16.seq fun _structureSize => word8.seq fun _flags => word8.seq fun _securityMode =>
    word32.seq fun _capabilities => word32.seq fun _channel =>
    word16.seq fun _securityBufferOffset => word16.seq fun securityBufferLength =>
    word64.seq fun _previousSessionId => bytes securityBufferLength.toNat).convert
    (fun ⟨structureSize, flags, securityMode, capabilities, channel, securityBufferOffset,
     securityBufferLength, previousSessionId, securityBuffer⟩ =>
      ⟨structureSize, flags, securityMode, capabilities, channel, securityBufferOffset,
       securityBufferLength, previousSessionId, securityBuffer⟩)
    (fun m => (m.structureSize, m.flags, m.securityMode, m.capabilities, m.channel,
     m.securityBufferOffset, m.securityBufferLength, m.previousSessionId, m.securityBuffer))
    (fun _ _ => rfl) (fun _ _ => rfl)

@[simp] def SessionSetupResponse.format : Wire SessionSetupResponse :=
  (word16.seq fun _structureSize => word16.seq fun _sessionFlags =>
    word16.seq fun _securityBufferOffset => word16.seq fun securityBufferLength =>
    bytes securityBufferLength.toNat).convert
    (fun ⟨structureSize, sessionFlags, securityBufferOffset, securityBufferLength,
     securityBuffer⟩ =>
      ⟨structureSize, sessionFlags, securityBufferOffset, securityBufferLength, securityBuffer⟩)
    (fun m => (m.structureSize, m.sessionFlags, m.securityBufferOffset, m.securityBufferLength,
     m.securityBuffer))
    (fun _ _ => rfl) (fun _ _ => rfl)

/-! ### Bodies without content -/

/-- A structure size and a reserved word, the body of nine messages. -/
structure EmptyBody where
  structureSize : UInt16
  reserved : UInt16

@[simp] def EmptyBody.format : Wire EmptyBody :=
  (word16.seq fun _structureSize => word16).convert
    (fun ⟨structureSize, reserved⟩ => ⟨structureSize, reserved⟩)
    (fun m => (m.structureSize, m.reserved))
    (fun _ _ => rfl) (fun _ _ => rfl)

def EmptyBody.default : EmptyBody where
  structureSize := 4
  reserved := 0

abbrev LogoffRequest := EmptyBody

abbrev LogoffResponse := EmptyBody

abbrev TreeDisconnectRequest := EmptyBody

abbrev TreeDisconnectResponse := EmptyBody

abbrev FlushResponse := EmptyBody

abbrev LockResponse := EmptyBody

abbrev CancelRequest := EmptyBody

abbrev EchoRequest := EmptyBody

abbrev EchoResponse := EmptyBody

/-! ### TREE_CONNECT -/

@[simp] def TreeConnectRequest.format : Wire TreeConnectRequest :=
  (word16.seq fun _structureSize => word16.seq fun _flags => word16.seq fun _pathOffset =>
    word16.seq fun pathLength => bytes pathLength.toNat).convert
    (fun ⟨structureSize, flags, pathOffset, pathLength, path⟩ =>
      ⟨structureSize, flags, pathOffset, pathLength, path⟩)
    (fun m => (m.structureSize, m.flags, m.pathOffset, m.pathLength, m.path))
    (fun _ _ => rfl) (fun _ _ => rfl)

@[simp] def TreeConnectResponse.format : Wire TreeConnectResponse :=
  (word16.seq fun _structureSize => word8.seq fun _shareType => word8.seq fun _reserved =>
    word32.seq fun _shareFlags => word32.seq fun _capabilities => word32).convert
    (fun ⟨structureSize, shareType, reserved, shareFlags, capabilities, maximalAccess⟩ =>
      ⟨structureSize, shareType, reserved, shareFlags, capabilities, maximalAccess⟩)
    (fun m => (m.structureSize, m.shareType, m.reserved, m.shareFlags, m.capabilities,
     m.maximalAccess))
    (fun _ _ => rfl) (fun _ _ => rfl)

/-! ### CREATE -/

@[simp] def CreateRequest.format : Wire CreateRequest :=
  (word16.seq fun _structureSize => word8.seq fun _securityFlags =>
    word8.seq fun _requestedOplockLevel => word32.seq fun _impersonationLevel =>
    word64.seq fun _smbCreateFlags => word64.seq fun _reserved => word32.seq fun _desiredAccess =>
    word32.seq fun _fileAttributes => word32.seq fun _shareAccess =>
    word32.seq fun _createDisposition => word32.seq fun _createOptions =>
    word16.seq fun _nameOffset => word16.seq fun nameLength =>
    word32.seq fun _createContextsOffset => word32.seq fun createContextsLength =>
    (bytes nameLength.toNat).seq fun _name => bytes createContextsLength.toNat).convert
    (fun ⟨structureSize, securityFlags, requestedOplockLevel, impersonationLevel, smbCreateFlags,
     reserved, desiredAccess, fileAttributes, shareAccess, createDisposition, createOptions,
     nameOffset, nameLength, createContextsOffset, createContextsLength, name, createContexts⟩ =>
      ⟨structureSize, securityFlags, requestedOplockLevel, impersonationLevel, smbCreateFlags,
       reserved, desiredAccess, fileAttributes, shareAccess, createDisposition, createOptions,
       nameOffset, nameLength, createContextsOffset, createContextsLength, name, createContexts⟩)
    (fun m => (m.structureSize, m.securityFlags, m.requestedOplockLevel, m.impersonationLevel,
     m.smbCreateFlags, m.reserved, m.desiredAccess, m.fileAttributes, m.shareAccess,
     m.createDisposition, m.createOptions, m.nameOffset, m.nameLength, m.createContextsOffset,
     m.createContextsLength, m.name, m.createContexts))
    (fun _ _ => rfl) (fun _ _ => rfl)

@[simp] def CreateResponse.format : Wire CreateResponse :=
  (word16.seq fun _structureSize => word8.seq fun _oplockLevel => word8.seq fun _flags =>
    word32.seq fun _createAction => word64.seq fun _creationTime =>
    word64.seq fun _lastAccessTime => word64.seq fun _lastWriteTime => word64.seq fun _changeTime =>
    word64.seq fun _allocationSize => word64.seq fun _endOfFile => word32.seq fun _fileAttributes =>
    word32.seq fun _reserved2 => FileId.format.seq fun _fileId =>
    word32.seq fun _createContextsOffset => word32.seq fun createContextsLength =>
    bytes createContextsLength.toNat).convert
    (fun ⟨structureSize, oplockLevel, flags, createAction, creationTime, lastAccessTime,
     lastWriteTime, changeTime, allocationSize, endOfFile, fileAttributes, reserved2, fileId,
     createContextsOffset, createContextsLength, createContexts⟩ =>
      ⟨structureSize, oplockLevel, flags, createAction, creationTime, lastAccessTime,
       lastWriteTime, changeTime, allocationSize, endOfFile, fileAttributes, reserved2, fileId,
       createContextsOffset, createContextsLength, createContexts⟩)
    (fun m => (m.structureSize, m.oplockLevel, m.flags, m.createAction, m.creationTime,
     m.lastAccessTime, m.lastWriteTime, m.changeTime, m.allocationSize, m.endOfFile,
     m.fileAttributes, m.reserved2, m.fileId, m.createContextsOffset, m.createContextsLength,
     m.createContexts))
    (fun _ _ => rfl) (fun _ _ => rfl)

/-! ### CLOSE and FLUSH -/

@[simp] def CloseRequest.format : Wire CloseRequest :=
  (word16.seq fun _structureSize => word16.seq fun _flags => word32.seq fun _reserved =>
    FileId.format).convert
    (fun ⟨structureSize, flags, reserved, fileId⟩ => ⟨structureSize, flags, reserved, fileId⟩)
    (fun m => (m.structureSize, m.flags, m.reserved, m.fileId))
    (fun _ _ => rfl) (fun _ _ => rfl)

@[simp] def CloseResponse.format : Wire CloseResponse :=
  (word16.seq fun _structureSize => word16.seq fun _flags => word32.seq fun _reserved =>
    word64.seq fun _creationTime => word64.seq fun _lastAccessTime =>
    word64.seq fun _lastWriteTime => word64.seq fun _changeTime => word64.seq fun _allocationSize =>
    word64.seq fun _endOfFile => word32).convert
    (fun ⟨structureSize, flags, reserved, creationTime, lastAccessTime, lastWriteTime, changeTime,
     allocationSize, endOfFile, fileAttributes⟩ =>
      ⟨structureSize, flags, reserved, creationTime, lastAccessTime, lastWriteTime, changeTime,
       allocationSize, endOfFile, fileAttributes⟩)
    (fun m => (m.structureSize, m.flags, m.reserved, m.creationTime, m.lastAccessTime,
     m.lastWriteTime, m.changeTime, m.allocationSize, m.endOfFile, m.fileAttributes))
    (fun _ _ => rfl) (fun _ _ => rfl)

@[simp] def FlushRequest.format : Wire FlushRequest :=
  (word16.seq fun _structureSize => word16.seq fun _reserved1 => word32.seq fun _reserved2 =>
    word64.seq fun _fileIdPersistent => word64).convert
    (fun ⟨structureSize, reserved1, reserved2, fileIdPersistent, fileIdVolatile⟩ =>
      ⟨structureSize, reserved1, reserved2, fileIdPersistent, fileIdVolatile⟩)
    (fun m => (m.structureSize, m.reserved1, m.reserved2, m.fileIdPersistent, m.fileIdVolatile))
    (fun _ _ => rfl) (fun _ _ => rfl)

/-! ### READ and WRITE -/

@[simp] def ReadRequest.format : Wire ReadRequest :=
  (word16.seq fun _structureSize => word8.seq fun _padding => word8.seq fun _flags =>
    word32.seq fun _length => word64.seq fun _offset => FileId.format.seq fun _fileId =>
    word32.seq fun _minimumCount => word32.seq fun _channel => word32.seq fun _remainingBytes =>
    word16.seq fun _readChannelInfoOffset => word16.seq fun readChannelInfoLength =>
    bytes (if readChannelInfoLength = 0 then 1 else readChannelInfoLength.toNat)).convert
    (fun ⟨structureSize, padding, flags, length, offset, fileId, minimumCount, channel,
     remainingBytes, readChannelInfoOffset, readChannelInfoLength, buffer⟩ =>
      ⟨structureSize, padding, flags, length, offset, fileId, minimumCount, channel,
       remainingBytes, readChannelInfoOffset, readChannelInfoLength, buffer⟩)
    (fun m => (m.structureSize, m.padding, m.flags, m.length, m.offset, m.fileId, m.minimumCount,
     m.channel, m.remainingBytes, m.readChannelInfoOffset, m.readChannelInfoLength, m.buffer))
    (fun _ _ => rfl) (fun _ _ => rfl)

@[simp] def ReadResponse.format : Wire ReadResponse :=
  (word16.seq fun _structureSize => word8.seq fun _dataOffset => word8.seq fun _reserved =>
    word32.seq fun dataLength => word32.seq fun _dataRemaining => word32.seq fun _flags =>
    bytes dataLength.toNat).convert
    (fun ⟨structureSize, dataOffset, reserved, dataLength, dataRemaining, flags, data⟩ =>
      ⟨structureSize, dataOffset, reserved, dataLength, dataRemaining, flags, data⟩)
    (fun m => (m.structureSize, m.dataOffset, m.reserved, m.dataLength, m.dataRemaining, m.flags,
     m.data))
    (fun _ _ => rfl) (fun _ _ => rfl)

@[simp] def WriteRequest.format : Wire WriteRequest :=
  (word16.seq fun _structureSize => word16.seq fun _dataOffset => word32.seq fun length =>
    word64.seq fun _offset => FileId.format.seq fun _fileId => word32.seq fun _channel =>
    word32.seq fun _remainingBytes => word16.seq fun _writeChannelInfoOffset =>
    word16.seq fun _writeChannelInfoLength => word32.seq fun _flags =>
    bytes (if length = 0 then 1 else length.toNat)).convert
    (fun ⟨structureSize, dataOffset, length, offset, fileId, channel, remainingBytes,
     writeChannelInfoOffset, writeChannelInfoLength, flags, data⟩ =>
      ⟨structureSize, dataOffset, length, offset, fileId, channel, remainingBytes,
       writeChannelInfoOffset, writeChannelInfoLength, flags, data⟩)
    (fun m => (m.structureSize, m.dataOffset, m.length, m.offset, m.fileId, m.channel,
     m.remainingBytes, m.writeChannelInfoOffset, m.writeChannelInfoLength, m.flags, m.data))
    (fun _ _ => rfl) (fun _ _ => rfl)

@[simp] def WriteResponse.format : Wire WriteResponse :=
  (word16.seq fun _structureSize => word16.seq fun _reserved => word32.seq fun _count =>
    word32.seq fun _remaining => word16.seq fun _writeChannelInfoOffset => word16).convert
    (fun ⟨structureSize, reserved, count, remaining, writeChannelInfoOffset,
     writeChannelInfoLength⟩ =>
      ⟨structureSize, reserved, count, remaining, writeChannelInfoOffset, writeChannelInfoLength⟩)
    (fun m => (m.structureSize, m.reserved, m.count, m.remaining, m.writeChannelInfoOffset,
     m.writeChannelInfoLength))
    (fun _ _ => rfl) (fun _ _ => rfl)

/-! ### LOCK -/

def LockElement.format : Wire LockElement :=
  (word64.seq fun _offset => word64.seq fun _length => word32.seq fun _flags => word32).convert
    (fun ⟨offset, length, flags, reserved⟩ => ⟨offset, length, flags, reserved⟩)
    (fun m => (m.offset, m.length, m.flags, m.reserved))
    (fun _ _ => rfl) (fun _ _ => rfl)

@[simp] theorem LockElement.read_format : format.read = LockElement.read := by
  simp only [format, Format.read_convert, Format.read_seq, read_word64, read_word32, bind_assoc,
    pure_bind, LockElement.read]

@[simp] theorem LockElement.fits_format (element : LockElement) : format.Fits element := by
  simp [format]

@[simp] theorem LockElement.read_many (count : Nat) :
    Format.readTimes LockElement.read count = LockElement.readMany count := by
  induction count with
  | zero => rfl
  | succ count ih => rw [Format.readTimes, LockElement.readMany, ih]

@[simp] def LockRequest.format : Wire LockRequest :=
  (word16.seq fun _structureSize => word16.seq fun lockCount => word32.seq fun _lockSequence =>
    FileId.format.seq fun _fileId => LockElement.format.times lockCount.toNat).convert
    (fun ⟨structureSize, lockCount, lockSequence, fileId, locks⟩ =>
      ⟨structureSize, lockCount, lockSequence, fileId, locks⟩)
    (fun m => (m.structureSize, m.lockCount, m.lockSequence, m.fileId, m.locks))
    (fun _ _ => rfl) (fun _ _ => rfl)

/-! ### IOCTL -/

@[simp] def IoctlRequest.format : Wire IoctlRequest :=
  (word16.seq fun _structureSize => word16.seq fun _reserved => word32.seq fun _ctlCode =>
    FileId.format.seq fun _fileId => word32.seq fun _inputOffset => word32.seq fun inputCount =>
    word32.seq fun _maxInputResponse => word32.seq fun _outputOffset =>
    word32.seq fun _outputCount => word32.seq fun _maxOutputResponse => word32.seq fun _flags =>
    word32.seq fun _reserved2 => bytes inputCount.toNat).convert
    (fun ⟨structureSize, reserved, ctlCode, fileId, inputOffset, inputCount, maxInputResponse,
     outputOffset, outputCount, maxOutputResponse, flags, reserved2, input⟩ =>
      ⟨structureSize, reserved, ctlCode, fileId, inputOffset, inputCount, maxInputResponse,
       outputOffset, outputCount, maxOutputResponse, flags, reserved2, input⟩)
    (fun m => (m.structureSize, m.reserved, m.ctlCode, m.fileId, m.inputOffset, m.inputCount,
     m.maxInputResponse, m.outputOffset, m.outputCount, m.maxOutputResponse, m.flags, m.reserved2,
     m.input))
    (fun _ _ => rfl) (fun _ _ => rfl)

@[simp] def IoctlResponse.format : Wire IoctlResponse :=
  (word16.seq fun _structureSize => word16.seq fun _reserved => word32.seq fun _ctlCode =>
    FileId.format.seq fun _fileId => word32.seq fun _inputOffset => word32.seq fun _inputCount =>
    word32.seq fun _outputOffset => word32.seq fun outputCount => word32.seq fun _flags =>
    word32.seq fun _reserved2 => bytes outputCount.toNat).convert
    (fun ⟨structureSize, reserved, ctlCode, fileId, inputOffset, inputCount, outputOffset,
     outputCount, flags, reserved2, output⟩ =>
      ⟨structureSize, reserved, ctlCode, fileId, inputOffset, inputCount, outputOffset,
       outputCount, flags, reserved2, output⟩)
    (fun m => (m.structureSize, m.reserved, m.ctlCode, m.fileId, m.inputOffset, m.inputCount,
     m.outputOffset, m.outputCount, m.flags, m.reserved2, m.output))
    (fun _ _ => rfl) (fun _ _ => rfl)

/-! ### QUERY_DIRECTORY, CHANGE_NOTIFY, QUERY_INFO and SET_INFO -/

@[simp] def QueryDirectoryRequest.format : Wire QueryDirectoryRequest :=
  (word16.seq fun _structureSize => word8.seq fun _fileInformationClass => word8.seq fun _flags =>
    word32.seq fun _fileIndex => FileId.format.seq fun _fileId => word16.seq fun _fileNameOffset =>
    word16.seq fun fileNameLength => word32.seq fun _outputBufferLength =>
    bytes fileNameLength.toNat).convert
    (fun ⟨structureSize, fileInformationClass, flags, fileIndex, fileId, fileNameOffset,
     fileNameLength, outputBufferLength, fileName⟩ =>
      ⟨structureSize, fileInformationClass, flags, fileIndex, fileId, fileNameOffset,
       fileNameLength, outputBufferLength, fileName⟩)
    (fun m => (m.structureSize, m.fileInformationClass, m.flags, m.fileIndex, m.fileId,
     m.fileNameOffset, m.fileNameLength, m.outputBufferLength, m.fileName))
    (fun _ _ => rfl) (fun _ _ => rfl)

@[simp] def ChangeNotifyRequest.format : Wire ChangeNotifyRequest :=
  (word16.seq fun _structureSize => word16.seq fun _flags => word32.seq fun _outputBufferLength =>
    FileId.format.seq fun _fileId => word32.seq fun _completionFilter => word32).convert
    (fun ⟨structureSize, flags, outputBufferLength, fileId, completionFilter, reserved⟩ =>
      ⟨structureSize, flags, outputBufferLength, fileId, completionFilter, reserved⟩)
    (fun m => (m.structureSize, m.flags, m.outputBufferLength, m.fileId, m.completionFilter,
     m.reserved))
    (fun _ _ => rfl) (fun _ _ => rfl)

@[simp] def QueryInfoRequest.format : Wire QueryInfoRequest :=
  (word16.seq fun _structureSize => word8.seq fun _infoType =>
    word8.seq fun _fileInformationClass => word32.seq fun _outputBufferLength =>
    word16.seq fun _inputBufferOffset => word16.seq fun _reserved =>
    word32.seq fun inputBufferLength => word32.seq fun _additionalInformation =>
    word32.seq fun _flags => FileId.format.seq fun _fileId => bytes inputBufferLength.toNat).convert
    (fun ⟨structureSize, infoType, fileInformationClass, outputBufferLength, inputBufferOffset,
     reserved, inputBufferLength, additionalInformation, flags, fileId, inputBuffer⟩ =>
      ⟨structureSize, infoType, fileInformationClass, outputBufferLength, inputBufferOffset,
       reserved, inputBufferLength, additionalInformation, flags, fileId, inputBuffer⟩)
    (fun m => (m.structureSize, m.infoType, m.fileInformationClass, m.outputBufferLength,
     m.inputBufferOffset, m.reserved, m.inputBufferLength, m.additionalInformation, m.flags,
     m.fileId, m.inputBuffer))
    (fun _ _ => rfl) (fun _ _ => rfl)

@[simp] def BufferResponse.format : Wire BufferResponse :=
  (word16.seq fun _structureSize => word16.seq fun _outputBufferOffset =>
    word32.seq fun outputBufferLength => bytes outputBufferLength.toNat).convert
    (fun ⟨structureSize, outputBufferOffset, outputBufferLength, buffer⟩ =>
      ⟨structureSize, outputBufferOffset, outputBufferLength, buffer⟩)
    (fun m => (m.structureSize, m.outputBufferOffset, m.outputBufferLength, m.buffer))
    (fun _ _ => rfl) (fun _ _ => rfl)

abbrev QueryDirectoryResponse := BufferResponse

abbrev ChangeNotifyResponse := BufferResponse

abbrev QueryInfoResponse := BufferResponse

@[simp] def SetInfoRequest.format : Wire SetInfoRequest :=
  (word16.seq fun _structureSize => word8.seq fun _infoType =>
    word8.seq fun _fileInformationClass => word32.seq fun bufferLength =>
    word16.seq fun _bufferOffset => word16.seq fun _reserved =>
    word32.seq fun _additionalInformation => FileId.format.seq fun _fileId =>
    bytes bufferLength.toNat).convert
    (fun ⟨structureSize, infoType, fileInformationClass, bufferLength, bufferOffset, reserved,
     additionalInformation, fileId, buffer⟩ =>
      ⟨structureSize, infoType, fileInformationClass, bufferLength, bufferOffset, reserved,
       additionalInformation, fileId, buffer⟩)
    (fun m => (m.structureSize, m.infoType, m.fileInformationClass, m.bufferLength,
     m.bufferOffset, m.reserved, m.additionalInformation, m.fileId, m.buffer))
    (fun _ _ => rfl) (fun _ _ => rfl)

structure SetInfoResponse where
  structureSize : UInt16

@[simp] def SetInfoResponse.format : Wire SetInfoResponse :=
  word16.convert
    (fun structureSize => ⟨structureSize⟩)
    (·.structureSize)
    (fun _ _ => rfl) (fun _ _ => rfl)

/-! ### OPLOCK_BREAK -/

@[simp] def OplockBreakNotification.format : Wire OplockBreakNotification :=
  (word16.seq fun _structureSize => word8.seq fun _oplockLevel => word8.seq fun _reserved =>
    word32.seq fun _reserved2 => FileId.format).convert
    (fun ⟨structureSize, oplockLevel, reserved, reserved2, fileId⟩ =>
      ⟨structureSize, oplockLevel, reserved, reserved2, fileId⟩)
    (fun m => (m.structureSize, m.oplockLevel, m.reserved, m.reserved2, m.fileId))
    (fun _ _ => rfl) (fun _ _ => rfl)

/-! ### ERROR -/

/-- `status` and, from 3.1.1 on, error contexts. -/
structure ErrorResponse where
  structureSize : UInt16
  errorContextCount : UInt8
  reserved : UInt8
  byteCount : UInt32
  errorData : Bytes

@[simp] def ErrorResponse.format : Wire ErrorResponse :=
  (word16.seq fun _structureSize => word8.seq fun _errorContextCount => word8.seq fun _reserved =>
    word32.seq fun byteCount => bytes (if byteCount = 0 then 1 else byteCount.toNat)).convert
    (fun ⟨structureSize, errorContextCount, reserved, byteCount, errorData⟩ =>
      ⟨structureSize, errorContextCount, reserved, byteCount, errorData⟩)
    (fun m => (m.structureSize, m.errorContextCount, m.reserved, m.byteCount, m.errorData))
    (fun _ _ => rfl) (fun _ _ => rfl)

structure ErrorContext where
  errorDataLength : UInt32
  errorId : UInt32
  errorContextData : Bytes

@[simp] def ErrorContext.format : Wire ErrorContext :=
  (word32.seq fun errorDataLength => word32.seq fun _errorId =>
    bytes errorDataLength.toNat).convert
    (fun ⟨errorDataLength, errorId, errorContextData⟩ =>
      ⟨errorDataLength, errorId, errorContextData⟩)
    (fun m => (m.errorDataLength, m.errorId, m.errorContextData))
    (fun _ _ => rfl) (fun _ _ => rfl)

end SmbServer
