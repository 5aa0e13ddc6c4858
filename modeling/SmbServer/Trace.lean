import SmbServer.Proto.Header
import SmbServer.Text

/-!
# SmbServer.Trace

The events that an armed trace sink receives (`trace.rs`).
-/

namespace SmbServer

open Lib

structure TraceKey where
  connectionId : UInt64
  messageId : UInt64
  compoundOrdinal : UInt32
  deriving DecidableEq

structure CreateContextInfo where
  name : Bytes
  dataLen : UInt32
  deriving DecidableEq

inductive TraceEvent where
  | request (cmd : Command) (sessionId : UInt64) (treeId : UInt32)
  | response (status : UInt32)
  | create (path : Text) (createOptions : UInt32) (directory nonDirectory : Bool)
      (createDisposition desiredAccess : UInt32) (fileId : Option Bytes)
      (contexts : List CreateContextInfo)
  | setInfoRename (replaceIfExists : Bool) (newName resolvedSource : Text)
  | setInfoOther (infoClass : UInt8)
  | write (fileId : Bytes) (offset : UInt64) (length : UInt32)
  | close (fileId : Bytes) (deleteOnClose : Bool) (lastPath : Text)
  deriving DecidableEq

/-- One `TraceSink::record` call. -/
structure TraceRecord where
  key : Option TraceKey
  event : TraceEvent
  deriving DecidableEq

end SmbServer
