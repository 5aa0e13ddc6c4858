import SmbServer.Handlers.Session
import SmbServer.Handlers.Tree
import SmbServer.Handlers.SetInfo
import SmbServer.Handlers.Query

/-!
# SmbServer.Handlers

The handlers without state of their own, and the command router (`handlers/mod.rs`).
-/

namespace SmbServer

open Lib

variable {σ η : Type} [Host σ η]

namespace Ioctl

/-- VALIDATE_NEGOTIATE_INFO: capabilities, server GUID, security mode and dialect. -/
def validateNegotiateInfo (server : ServerState) (conn : Connection η) : Bytes :=
  u32le Negotiate.negotiateCapabilities ++ server.config.serverGuid.val ++
    u16le Negotiate.negotiateSecurityMode ++ u16le ((conn.dialect.map Dialect.asU16).getD 0)

def response (req : IoctlRequest) (out : Bytes) : Bytes :=
  IoctlResponse.write
    { structureSize := 49
      reserved := 0
      ctlCode := req.ctlCode
      fileId := req.fileId
      inputOffset := 0
      inputCount := 0
      outputOffset := 0x70
      outputCount := UInt32.ofNat out.length
      flags := 0
      reserved2 := 0
      output := out }

def handle (server : ServerState) (body : Bytes) : Action (World σ η) HandlerResponse :=
  match IoctlRequest.parse body with
  | none => return .err statusInvalidParameter
  | some req => do
    let conn ← getConn
    match Fsctl.fromU32 req.ctlCode with
    | .validateNegotiateInfo => return .ok (response req (validateNegotiateInfo server conn))
    | .dfsGetReferrals => return .err statusFsDriverRequired
    | .dfsGetReferralsEx => return .err statusFsDriverRequired
    | _ => return .err statusNotSupported

end Ioctl

/-- OPLOCK_BREAK is acknowledged without an oplock ever being granted. -/
def oplockBreakResponse : Bytes :=
  u16le 24 ++ [0, 0] ++ u32le 0 ++ FileId.any.write

/-- `dispatch_command`. -/
def dispatchCommand [Crypto] (server : ServerState) (hdr : Smb2Header) (body : Bytes) :
    Action (World σ η) HandlerResponse :=
  match hdr.command with
  | .negotiate => Negotiate.handle server body
  | .sessionSetup => SessionSetup.handle server hdr body
  | .logoff => Logoff.handle hdr
  | .treeConnect => TreeConnect.handle server hdr body
  | .treeDisconnect => TreeDisconnect.handle hdr
  | .create => Create.handle server hdr body
  | .close => Close.handle server hdr body
  | .flush => Flush.handle hdr body
  | .read => Read.handle hdr body
  | .write => Write.handle server hdr body
  | .lock => return .ok emptyResponse
  | .ioctl => Ioctl.handle server body
  | .echo => return .ok emptyResponse
  | .queryDirectory => QueryDirectory.handle hdr body
  | .changeNotify => return .err statusNotSupported
  | .queryInfo => QueryInfo.handle hdr body
  | .setInfo => SetInfo.handle server hdr body
  | .oplockBreak => return .ok oplockBreakResponse
  | .cancel => return .err statusInvalidParameter

end SmbServer
