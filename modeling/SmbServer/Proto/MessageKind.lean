import SmbServer.Proto.Formats

/-!
# SmbServer.Proto.MessageKind

All structures of `proto/messages` at once: a kind names one of them, its reader and writer are the
ones the server has for it, or those of its field list where the server has none, and the two
directions agree with the field list.
-/

namespace SmbServer

open Lib Wire

/-- The structures of `proto/messages` with a wire form of their own. -/
inductive MessageKind where
  | negotiateRequest
  | negotiateResponse
  | negotiateContext
  | preauthIntegrityCapabilities
  | encryptionCapabilities
  | signingCapabilities
  | sessionSetupRequest
  | sessionSetupResponse
  | logoffRequest
  | logoffResponse
  | treeConnectRequest
  | treeConnectResponse
  | treeDisconnectRequest
  | treeDisconnectResponse
  | createRequest
  | createResponse
  | closeRequest
  | closeResponse
  | flushRequest
  | flushResponse
  | readRequest
  | readResponse
  | writeRequest
  | writeResponse
  | lockRequest
  | lockResponse
  | ioctlRequest
  | ioctlResponse
  | cancelRequest
  | echoRequest
  | echoResponse
  | queryDirectoryRequest
  | queryDirectoryResponse
  | changeNotifyRequest
  | changeNotifyResponse
  | queryInfoRequest
  | queryInfoResponse
  | setInfoRequest
  | setInfoResponse
  | oplockBreakNotification
  | errorResponse
  | errorContext
  deriving DecidableEq, Repr

namespace MessageKind

/-- What a message of the kind holds. -/
abbrev Body : MessageKind → Type
  | .negotiateRequest => NegotiateRequest
  | .negotiateResponse => NegotiateResponse
  | .negotiateContext => NegotiateContext
  | .preauthIntegrityCapabilities => PreauthIntegrityCapabilities
  | .encryptionCapabilities => EncryptionCapabilities
  | .signingCapabilities => SigningCapabilities
  | .sessionSetupRequest => SessionSetupRequest
  | .sessionSetupResponse => SessionSetupResponse
  | .logoffRequest => LogoffRequest
  | .logoffResponse => LogoffResponse
  | .treeConnectRequest => TreeConnectRequest
  | .treeConnectResponse => TreeConnectResponse
  | .treeDisconnectRequest => TreeDisconnectRequest
  | .treeDisconnectResponse => TreeDisconnectResponse
  | .createRequest => CreateRequest
  | .createResponse => CreateResponse
  | .closeRequest => CloseRequest
  | .closeResponse => CloseResponse
  | .flushRequest => FlushRequest
  | .flushResponse => FlushResponse
  | .readRequest => ReadRequest
  | .readResponse => ReadResponse
  | .writeRequest => WriteRequest
  | .writeResponse => WriteResponse
  | .lockRequest => LockRequest
  | .lockResponse => LockResponse
  | .ioctlRequest => IoctlRequest
  | .ioctlResponse => IoctlResponse
  | .cancelRequest => CancelRequest
  | .echoRequest => EchoRequest
  | .echoResponse => EchoResponse
  | .queryDirectoryRequest => QueryDirectoryRequest
  | .queryDirectoryResponse => QueryDirectoryResponse
  | .changeNotifyRequest => ChangeNotifyRequest
  | .changeNotifyResponse => ChangeNotifyResponse
  | .queryInfoRequest => QueryInfoRequest
  | .queryInfoResponse => QueryInfoResponse
  | .setInfoRequest => SetInfoRequest
  | .setInfoResponse => SetInfoResponse
  | .oplockBreakNotification => OplockBreakNotification
  | .errorResponse => ErrorResponse
  | .errorContext => ErrorContext

/-- The field list of the kind. -/
def format : (kind : MessageKind) → Wire kind.Body
  | .negotiateRequest => NegotiateRequest.format
  | .negotiateResponse => NegotiateResponse.format
  | .negotiateContext => NegotiateContext.format
  | .preauthIntegrityCapabilities => PreauthIntegrityCapabilities.format
  | .encryptionCapabilities => EncryptionCapabilities.format
  | .signingCapabilities => SigningCapabilities.format
  | .sessionSetupRequest => SessionSetupRequest.format
  | .sessionSetupResponse => SessionSetupResponse.format
  | .logoffRequest => EmptyBody.format
  | .logoffResponse => EmptyBody.format
  | .treeConnectRequest => TreeConnectRequest.format
  | .treeConnectResponse => TreeConnectResponse.format
  | .treeDisconnectRequest => EmptyBody.format
  | .treeDisconnectResponse => EmptyBody.format
  | .createRequest => CreateRequest.format
  | .createResponse => CreateResponse.format
  | .closeRequest => CloseRequest.format
  | .closeResponse => CloseResponse.format
  | .flushRequest => FlushRequest.format
  | .flushResponse => EmptyBody.format
  | .readRequest => ReadRequest.format
  | .readResponse => ReadResponse.format
  | .writeRequest => WriteRequest.format
  | .writeResponse => WriteResponse.format
  | .lockRequest => LockRequest.format
  | .lockResponse => EmptyBody.format
  | .ioctlRequest => IoctlRequest.format
  | .ioctlResponse => IoctlResponse.format
  | .cancelRequest => EmptyBody.format
  | .echoRequest => EmptyBody.format
  | .echoResponse => EmptyBody.format
  | .queryDirectoryRequest => QueryDirectoryRequest.format
  | .queryDirectoryResponse => BufferResponse.format
  | .changeNotifyRequest => ChangeNotifyRequest.format
  | .changeNotifyResponse => BufferResponse.format
  | .queryInfoRequest => QueryInfoRequest.format
  | .queryInfoResponse => BufferResponse.format
  | .setInfoRequest => SetInfoRequest.format
  | .setInfoResponse => SetInfoResponse.format
  | .oplockBreakNotification => OplockBreakNotification.format
  | .errorResponse => ErrorResponse.format
  | .errorContext => ErrorContext.format

/-- `parse`, with a reader of its own where the server reads the kind. -/
def parse : (kind : MessageKind) → Bytes → Option kind.Body
  | .negotiateRequest => NegotiateRequest.parse
  | .sessionSetupRequest => SessionSetupRequest.parse
  | .treeConnectRequest => TreeConnectRequest.parse
  | .createRequest => CreateRequest.parse
  | .closeRequest => CloseRequest.parse
  | .flushRequest => FlushRequest.parse
  | .readRequest => ReadRequest.parse
  | .writeRequest => WriteRequest.parse
  | .lockRequest => LockRequest.parse
  | .ioctlRequest => IoctlRequest.parse
  | .queryDirectoryRequest => QueryDirectoryRequest.parse
  | .changeNotifyRequest => ChangeNotifyRequest.parse
  | .queryInfoRequest => QueryInfoRequest.parse
  | .setInfoRequest => SetInfoRequest.parse
  | .oplockBreakNotification => OplockBreakNotification.parse
  | .negotiateContext => Reader.parse NegotiateContext.read
  | kind => kind.format.parse

/-- `write_to`, with a writer of its own where the server writes the kind. -/
def write : (kind : MessageKind) → kind.Body → Bytes
  | .negotiateResponse => NegotiateResponse.write
  | .negotiateContext => NegotiateContext.write
  | .preauthIntegrityCapabilities => PreauthIntegrityCapabilities.write
  | .signingCapabilities => SigningCapabilities.write
  | .sessionSetupResponse => SessionSetupResponse.write
  | .treeConnectResponse => TreeConnectResponse.write
  | .createResponse => CreateResponse.write
  | .closeResponse => CloseResponse.write
  | .readResponse => ReadResponse.write
  | .writeResponse => WriteResponse.write
  | .ioctlResponse => IoctlResponse.write
  | .queryDirectoryResponse => BufferResponse.write
  | .changeNotifyResponse => BufferResponse.write
  | .queryInfoResponse => BufferResponse.write
  | kind => kind.format.write

/-- Every counted field has the length that its count says. -/
def Sized : (kind : MessageKind) → kind.Body → Prop
  | .negotiateRequest, m => m.dialects.length = m.dialectCount.toNat
  | .negotiateResponse, m => m.securityBuffer.length = m.securityBufferLength.toNat
  | .negotiateContext, m => m.data.length = m.dataLength.toNat
  | .preauthIntegrityCapabilities, m =>
    m.hashAlgorithms.length = m.hashAlgorithmCount.toNat ∧ m.salt.length = m.saltLength.toNat
  | .encryptionCapabilities, m => m.ciphers.length = m.cipherCount.toNat
  | .signingCapabilities, m => m.signingAlgorithms.length = m.signingAlgorithmCount.toNat
  | .sessionSetupRequest, m => m.securityBuffer.length = m.securityBufferLength.toNat
  | .sessionSetupResponse, m => m.securityBuffer.length = m.securityBufferLength.toNat
  | .treeConnectRequest, m => m.path.length = m.pathLength.toNat
  | .createRequest, m =>
    m.name.length = m.nameLength.toNat ∧ m.createContexts.length = m.createContextsLength.toNat
  | .createResponse, m => m.createContexts.length = m.createContextsLength.toNat
  | .readRequest, m =>
    m.buffer.length = (if m.readChannelInfoLength = 0 then 1 else m.readChannelInfoLength.toNat)
  | .readResponse, m => m.data.length = m.dataLength.toNat
  | .writeRequest, m => m.data.length = (if m.length = 0 then 1 else m.length.toNat)
  | .lockRequest, m => m.locks.length = m.lockCount.toNat
  | .ioctlRequest, m => m.input.length = m.inputCount.toNat
  | .ioctlResponse, m => m.output.length = m.outputCount.toNat
  | .queryDirectoryRequest, m => m.fileName.length = m.fileNameLength.toNat
  | .queryDirectoryResponse, m => m.buffer.length = m.outputBufferLength.toNat
  | .changeNotifyResponse, m => m.buffer.length = m.outputBufferLength.toNat
  | .queryInfoRequest, m => m.inputBuffer.length = m.inputBufferLength.toNat
  | .queryInfoResponse, m => m.buffer.length = m.outputBufferLength.toNat
  | .setInfoRequest, m => m.buffer.length = m.bufferLength.toNat
  | .errorResponse, m => m.errorData.length = (if m.byteCount = 0 then 1 else m.byteCount.toNat)
  | .errorContext, m => m.errorContextData.length = m.errorDataLength.toNat
  | _, _ => True

/-! ### The server's readers and writers -/

/-- The server reads what the field list says. -/
theorem parse_eq_format (kind : MessageKind) (buf : Bytes) :
    kind.parse buf = kind.format.parse buf := by
  cases kind with
  | negotiateRequest | sessionSetupRequest | treeConnectRequest | createRequest | closeRequest |
    flushRequest | readRequest | writeRequest | lockRequest | ioctlRequest |
    queryDirectoryRequest | changeNotifyRequest | queryInfoRequest | setInfoRequest |
    oplockBreakNotification | negotiateContext =>
    refine congrArg (Reader.parse · buf) ?_
    simp [format, NegotiateContext.read]
  | _ => rfl

/-- The server writes what the field list says. -/
theorem write_eq_format (kind : MessageKind) (m : kind.Body) :
    kind.write m = kind.format.write m := by
  cases kind with
  | negotiateResponse | negotiateContext | preauthIntegrityCapabilities | signingCapabilities |
    sessionSetupResponse | treeConnectResponse | createResponse | closeResponse | readResponse |
    writeResponse | ioctlResponse | queryDirectoryResponse | changeNotifyResponse |
    queryInfoResponse =>
    simp [format, write, NegotiateResponse.write, NegotiateContext.write,
      PreauthIntegrityCapabilities.write, SigningCapabilities.write, SessionSetupResponse.write,
      TreeConnectResponse.write, CreateResponse.write, CloseResponse.write, ReadResponse.write,
      WriteResponse.write, IoctlResponse.write, BufferResponse.write]
  | _ => rfl

/-- The values that fit a field list are those whose counts are right. -/
theorem fits_iff_sized (kind : MessageKind) (m : kind.Body) :
    kind.format.Fits m ↔ kind.Sized m := by
  cases kind <;> simp [format, Sized]

/-- A body is accepted exactly when it starts with a message whose counts are right. -/
theorem parse_eq_some (kind : MessageKind) (buf : Bytes) (m : kind.Body) :
    kind.parse buf = some m ↔ kind.Sized m ∧ ∃ rest, buf = kind.write m ++ rest := by
  rw [parse_eq_format, Format.parse_eq_some, fits_iff_sized, write_eq_format]

/-- No written message is the start of another one. -/
theorem write_unique (kind : MessageKind) {m m' : kind.Body} {rest rest' : Bytes}
    (sized : kind.Sized m) (sized' : kind.Sized m')
    (same : kind.write m ++ rest = kind.write m' ++ rest') : m = m' ∧ rest = rest' := by
  rw [write_eq_format, write_eq_format] at same
  exact kind.format.write_unique ((kind.fits_iff_sized m).mpr sized)
    ((kind.fits_iff_sized m').mpr sized') same

end MessageKind

end SmbServer
