/-!
# SmbServer.Ntstatus

The NTSTATUS codes of `ntstatus.rs` that a handler, the dispatcher or an error mapping uses.
-/

namespace SmbServer

abbrev NtStatus := UInt32

def statusSuccess : NtStatus := 0x00000000
def statusNoMoreFiles : NtStatus := 0x80000006
def statusInvalidParameter : NtStatus := 0xC000000D
def statusObjectNameNotFound : NtStatus := 0xC000000F
def statusEndOfFile : NtStatus := 0xC0000011
def statusMoreProcessingRequired : NtStatus := 0xC0000016
def statusAccessDenied : NtStatus := 0xC0000022
def statusObjectNameInvalid : NtStatus := 0xC0000033
def statusObjectNameCollision : NtStatus := 0xC0000035
def statusObjectPathNotFound : NtStatus := 0xC000003A
def statusSharingViolation : NtStatus := 0xC0000043
def statusLogonFailure : NtStatus := 0xC000006D
def statusFsDriverRequired : NtStatus := 0xC000019C
def statusNotSupported : NtStatus := 0xC00000BB
def statusFileIsADirectory : NtStatus := 0xC00000BA
def statusNetworkNameDeleted : NtStatus := 0xC00000C9
def statusBadNetworkName : NtStatus := 0xC00000CC
def statusUnexpectedIoError : NtStatus := 0xC000009C
def statusDirectoryNotEmpty : NtStatus := 0xC0000101
def statusNotADirectory : NtStatus := 0xC0000103
def statusUserSessionDeleted : NtStatus := 0xC000015C
def statusInfoLengthMismatch : NtStatus := 0xC0000004
def statusFileClosed : NtStatus := 0xC0000128
def statusInvalidInfoClass : NtStatus := 0xC0000003
def statusNoEasOnFile : NtStatus := 0xC0000052

/-- What a `ShareBackend` or a `Handle` may fail with (`error.rs`). -/
inductive SmbError where
  | notFound
  | pathNotFound
  | accessDenied
  | exists
  | notEmpty
  | isDirectory
  | notADirectory
  | nameInvalid
  | sharing
  | notSupported
  | io
  deriving DecidableEq, Repr

abbrev SmbResult (α : Type) := Except SmbError α

def SmbError.toNtStatus : SmbError → NtStatus
  | .notFound => statusObjectNameNotFound
  | .pathNotFound => statusObjectPathNotFound
  | .accessDenied => statusAccessDenied
  | .exists => statusObjectNameCollision
  | .notEmpty => statusDirectoryNotEmpty
  | .isDirectory => statusFileIsADirectory
  | .notADirectory => statusNotADirectory
  | .nameInvalid => statusObjectNameInvalid
  | .sharing => statusSharingViolation
  | .notSupported => statusNotSupported
  | .io => statusUnexpectedIoError

/-- No backend error is reported to the client as a success. -/
theorem SmbError.toNtStatus_ne_success (e : SmbError) : e.toNtStatus ≠ statusSuccess := by
  cases e <;> decide

end SmbServer
