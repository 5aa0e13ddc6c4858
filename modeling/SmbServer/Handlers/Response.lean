import SmbServer.Server.State
import SmbServer.Conn.Close

/-!
# SmbServer.Handlers.Response

What a handler returns to the dispatcher (`HandlerResponse` of `dispatch.rs`).
-/

namespace SmbServer

open Lib

structure HandlerResponse where
  body : Bytes
  status : NtStatus
  overrideTreeId : Option UInt32
  overrideSessionId : Option UInt64
  skipSigning : Bool
  takePreauthSnapshotForSession : Option UInt64
  deriving DecidableEq

namespace HandlerResponse

def ok (body : Bytes) : HandlerResponse where
  body := body
  status := statusSuccess
  overrideTreeId := none
  overrideSessionId := none
  skipSigning := false
  takePreauthSnapshotForSession := none

def err (status : NtStatus) : HandlerResponse where
  body := errorResponse
  status := status
  overrideTreeId := none
  overrideSessionId := none
  skipSigning := false
  takePreauthSnapshotForSession := none

/-- The status of a backend error as a response. -/
def ofError (e : SmbError) : HandlerResponse := err e.toNtStatus

/-- Neither header override, nor a skipped signature, nor a snapshot: what every handler but
NEGOTIATE, SESSION_SETUP and TREE_CONNECT returns. -/
def Plain (r : HandlerResponse) : Prop :=
  r.overrideSessionId = none ∧ r.skipSigning = false ∧ r.takePreauthSnapshotForSession = none

theorem plain_ok (body : Bytes) : (ok body).Plain := ⟨rfl, rfl, rfl⟩

theorem plain_err (status : NtStatus) : (err status).Plain := ⟨rfl, rfl, rfl⟩

end HandlerResponse

end SmbServer
