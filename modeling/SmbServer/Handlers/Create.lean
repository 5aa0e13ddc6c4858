import SmbServer.Handlers.Response

/-!
# SmbServer.Handlers.Create

CREATE. Everything up to the backend call is decided by `validate` from the tree's access and the
request; `handle` then opens, stats and registers.
-/

namespace SmbServer

open Lib

namespace Create

def fileReadData : UInt32 := 0x00000001
def fileWriteData : UInt32 := 0x00000002
def fileAppendData : UInt32 := 0x00000004
def fileReadAttributes : UInt32 := 0x00000080
def fileWriteAttributes : UInt32 := 0x00000100
def deleteAccess : UInt32 := 0x00010000
def genericRead : UInt32 := 0x80000000
def genericWrite : UInt32 := 0x40000000
def genericAll : UInt32 := 0x10000000
def maxAllowed : UInt32 := 0x02000000

def fileDirectoryFile : UInt32 := 0x00000001
def fileNonDirectoryFile : UInt32 := 0x00000040
def fileDeleteOnClose : UInt32 := 0x00001000

def fileOpened : UInt32 := 0x00000001
def fileCreated : UInt32 := 0x00000002

/-- The disposition as an intent. -/
def intentOf (disposition : UInt32) : Option OpenIntent :=
  if disposition = 0 ∨ disposition = 5 then some .overwriteOrCreate
  else if disposition = 1 then some .open
  else if disposition = 2 then some .create
  else if disposition = 3 then some .openOrCreate
  else if disposition = 4 then some .truncate
  else none

def wantRead (desiredAccess : UInt32) : Bool :=
  hasFlag desiredAccess
    (fileReadData ||| fileReadAttributes ||| genericRead ||| genericAll ||| maxAllowed)

def wantWrite (desiredAccess : UInt32) : Bool :=
  hasFlag desiredAccess
    (fileWriteData ||| fileAppendData ||| fileWriteAttributes ||| deleteAccess ||| genericWrite |||
      genericAll ||| maxAllowed)

/-- The intents that may create or truncate. -/
def intentWrites : OpenIntent → Bool
  | .open => false
  | _ => true

/-- Decode and validate the name. -/
def decodePath (name : Bytes) : Except NtStatus SmbPath :=
  match utf16leToUnits name with
  | none => .error statusObjectNameInvalid
  | some units =>
    match SmbPath.fromUtf16 units with
    | .ok path => .ok path
    | .error _ => .error statusObjectNameInvalid

/-- The checks between the name and the backend call: what is opened, and how. -/
def openOptions (granted : Access) (path : SmbPath) (req : CreateRequest) :
    Except NtStatus OpenOptions :=
  match intentOf req.createDisposition with
  | none => .error statusInvalidParameter
  | some intent =>
    let write := wantWrite req.desiredAccess
    let directory := hasFlag req.createOptions fileDirectoryFile
    let nonDirectory := hasFlag req.createOptions fileNonDirectoryFile
    if write && !granted.allowsWrite then .error statusAccessDenied
    else if !granted.allowsWrite && intentWrites intent then .error statusAccessDenied
    else if directory && nonDirectory then .error statusInvalidParameter
    else if directory && (intent == .overwriteOrCreate || intent == .truncate) then
      .error statusInvalidParameter
    else if directory && path.streamName.isSome then .error statusInvalidParameter
    else
      .ok { read := wantRead req.desiredAccess || !write
            write := write
            intent := intent
            directory := directory
            nonDirectory := nonDirectory
            deleteOnClose := hasFlag req.createOptions fileDeleteOnClose }

/-- An admitted request: the tree it runs in and the backend call it makes. -/
structure Plan (η : Type) where
  req : CreateRequest
  tid : UInt32
  tree : TreeConnect η
  path : SmbPath
  opts : OpenOptions

def validate {η : Type} (conn : Connection η) (hdr : Smb2Header) (body : Bytes) :
    Except NtStatus (Plan η) :=
  match CreateRequest.parse body with
  | none => .error statusInvalidParameter
  | some req => do
    let (tid, tree) ← lookupSessionTree conn hdr
    let path ← decodePath req.name
    let opts ← openOptions tree.grantedAccess path req
    return { req, tid, tree, path, opts }

/-! ### The AAPL context -/

def aaplCmdServerQuery : UInt32 := 1
def aaplReqServerCaps : UInt64 := 0x1
def aaplReqVolumeCaps : UInt64 := 0x2
def aaplServerCapsUnixBased : UInt64 := 0x4

def buildAaplResponseContext (aapl : CreateContext) : Option CreateContext :=
  if aapl.data.length ≠ 24 then none
  else if readU32 aapl.data 0 ≠ aaplCmdServerQuery then none
  else
    let requestBitmap := readU64 aapl.data 8
    let serverCaps := requestBitmap &&& aaplReqServerCaps != 0
    let volumeCaps := requestBitmap &&& aaplReqVolumeCaps != 0
    let replyBitmap := (if serverCaps then aaplReqServerCaps else 0) |||
      (if volumeCaps then aaplReqVolumeCaps else 0)
    let data := (if serverCaps then u64le aaplServerCapsUnixBased else []) ++
      (if volumeCaps then u64le 0 else [])
    some
      { name := CreateContext.nameAapl
        data := u32le aaplCmdServerQuery ++ u32le 0 ++ u64le replyBitmap ++ data }

/-- Malformed contexts count as none. -/
def parsedContexts (req : CreateRequest) : List CreateContext :=
  (CreateContext.parseChain req.createContexts).getD []

/-- The encoded contexts of the response. -/
def responseContexts (req : CreateRequest) : Bytes :=
  match ((parsedContexts req).find? (·.name == CreateContext.nameAapl)).bind
      buildAaplResponseContext with
  | some ctx => CreateContext.encodeChain [ctx]
  | none => []

/-! ### The handler -/

/-- The access recorded in the open. -/
def openAccess (granted : Access) (opts : OpenOptions) : Access :=
  if opts.write then granted else .read

/-- Allocate a FileId in the tree and register the open under it. -/
def register {η : Type} (sid : UInt64) (tid : UInt32) (tree : TreeConnect η) (o : Open η)
    (conn : Connection η) : Connection η :=
  (conn.modifyTree sid tid fun tree => { tree with nextVolatile := tree.nextVolatile + 1 })
    |>.modifyOpens sid tid fun opens =>
      opens.insert ⟨tree.nextVolatile, tree.nextVolatile⟩ o

def response (intent : OpenIntent) (info : FileInfo) (fid : FileId) (contexts : Bytes) : Bytes :=
  CreateResponse.write
    { structureSize := 89
      oplockLevel := 0
      flags := 0
      createAction := if intent = .create then fileCreated else fileOpened
      creationTime := info.creationTime
      lastAccessTime := info.lastAccessTime
      lastWriteTime := info.lastWriteTime
      changeTime := info.changeTime
      allocationSize := info.allocationSize
      endOfFile := info.endOfFile
      fileAttributes := info.attributes
      reserved2 := 0
      fileId := fid
      createContextsOffset := if contexts.isEmpty then 0 else 152
      createContextsLength := UInt32.ofNat contexts.length
      createContexts := contexts }

def traceEvent (req : CreateRequest) (path : SmbPath) (opts : OpenOptions)
    (fid : Option FileId) : TraceEvent :=
  .create path.displayBackslash req.createOptions opts.directory opts.nonDirectory
    req.createDisposition req.desiredAccess (fid.map FileId.write)
    ((parsedContexts req).map fun c => ⟨c.name, UInt32.ofNat c.data.length⟩)

variable {σ η : Type} [Host σ η]

/-- Open, stat and register. -/
def perform (server : ServerState) (sid : UInt64) (plan : Plan η) :
    Action (World σ η) HandlerResponse := do
  let tree := plan.tree
  let granted := openAccess tree.grantedAccess plan.opts
  let origin : Origin := ⟨sid, plan.tid, tree.grantedAccess, none⟩
  match ← backendOpen origin tree.share.backend plan.path plan.opts with
  | .error e =>
    record server.traceSink (traceEvent plan.req plan.path plan.opts none)
    return .ofError e
  | .ok handle =>
    let through : Origin := { origin with openAccess := some granted }
    match ← handle.stat through with
    | .error e =>
      let _ ← handle.close through
      record server.traceSink (traceEvent plan.req plan.path plan.opts none)
      return .ofError e
    | .ok info =>
      let fid : FileId := ⟨tree.nextVolatile, tree.nextVolatile⟩
      let o := Open.new fid handle granted plan.path info.isDirectory plan.opts.deleteOnClose
      modifyConn (register sid plan.tid tree o)
      record server.traceSink (traceEvent plan.req plan.path plan.opts (some fid))
      return .ok (response plan.opts.intent info fid (responseContexts plan.req))

def handle (server : ServerState) (hdr : Smb2Header) (body : Bytes) :
    Action (World σ η) HandlerResponse := do
  let conn ← getConn
  match validate conn hdr body with
  | .error status => return .err status
  | .ok plan => perform server hdr.sessionId plan

end Create

end SmbServer
