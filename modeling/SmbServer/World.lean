import SmbServer.Conn.State
import SmbServer.Trace
import SmbServer.Lib.Action

/-!
# SmbServer.World

What a request runs in: its connection, and the environment that all connections share. Every call
that leaves the server is recorded in `Env.calls` together with the tree, and the open, that it
went through; the record is never read back.
-/

namespace SmbServer

open Lib

/-- The tree, and for a handle call the open, that a backend call goes through. -/
structure Origin where
  session : UInt64
  tree : UInt32
  treeAccess : Access
  openAccess : Option Access
  deriving DecidableEq, Repr

/-- A call of a `ShareBackend` or `Handle` method; a handle is named by its serial number. -/
inductive BackendCall where
  | open (backend : BackendRef) (path : SmbPath) (opts : OpenOptions) (result : Option Nat)
  | unlink (backend : BackendRef) (path : SmbPath)
  | rename (backend : BackendRef) (src dst : SmbPath) (replace : Bool)
  | read (handle : Nat) (offset : UInt64) (len : UInt32)
  | writeOwned (handle : Nat) (offset : UInt64) (data : Bytes)
  | flush (handle : Nat)
  | stat (handle : Nat)
  | setTimes (handle : Nat) (times : FileTimes)
  | truncate (handle : Nat) (len : UInt64)
  | listDir (handle : Nat) (pattern : Option Text)
  | close (handle : Nat)
  deriving DecidableEq

structure Issued where
  origin : Origin
  call : BackendCall
  deriving DecidableEq

/-- An `expect` of the source that would have panicked. -/
inductive PanicSite where
  | preauthSnapshot
  | directoryCursor
  deriving DecidableEq, Repr

/-- What the connections share: the host, and what the server has done with it so far. -/
structure Env (σ : Type) where
  host : σ
  nextHandle : Nat
  calls : List Issued
  trace : List TraceRecord
  traceKey : Option TraceKey
  panics : List PanicSite

/-- What one request reads and changes. -/
structure World (σ η : Type) where
  conn : Connection η
  env : Env σ

variable {σ η α : Type}

namespace World

def setConn (w : World σ η) (conn : Connection η) : World σ η := { w with conn := conn }

def setHost (w : World σ η) (host : σ) : World σ η := { w with env := { w.env with host := host } }

def addCall (w : World σ η) (c : Issued) : World σ η :=
  { w with env := { w.env with calls := w.env.calls ++ [c] } }

@[simp] theorem setConn_conn (w : World σ η) (c : Connection η) : (w.setConn c).conn = c := rfl
@[simp] theorem setConn_env (w : World σ η) (c : Connection η) : (w.setConn c).env = w.env := rfl
@[simp] theorem setHost_conn (w : World σ η) (h : σ) : (w.setHost h).conn = w.conn := rfl
@[simp] theorem setHost_host (w : World σ η) (h : σ) : (w.setHost h).env.host = h := rfl
@[simp] theorem setHost_calls (w : World σ η) (h : σ) : (w.setHost h).env.calls = w.env.calls :=
  rfl
@[simp] theorem setHost_nextHandle (w : World σ η) (h : σ) :
    (w.setHost h).env.nextHandle = w.env.nextHandle := rfl
@[simp] theorem addCall_conn (w : World σ η) (c : Issued) : (w.addCall c).conn = w.conn := rfl
@[simp] theorem addCall_host (w : World σ η) (c : Issued) :
    (w.addCall c).env.host = w.env.host := rfl
@[simp] theorem addCall_calls (w : World σ η) (c : Issued) :
    (w.addCall c).env.calls = w.env.calls ++ [c] := rfl
@[simp] theorem addCall_nextHandle (w : World σ η) (c : Issued) :
    (w.addCall c).env.nextHandle = w.env.nextHandle := rfl

end World

/-! ### Actions -/

def getConn : Action (World σ η) (Connection η) := fun w => (w.conn, w)

def modifyConn (f : Connection η → Connection η) : Action (World σ η) Unit :=
  fun w => ((), w.setConn (f w.conn))

/-- Record an event under the request's key, when a sink is armed. -/
def record (armed : Bool) (event : TraceEvent) : Action (World σ η) Unit := fun w =>
  if armed then
    ((), { w with env := { w.env with trace := w.env.trace ++ [⟨w.env.traceKey, event⟩] } })
  else ((), w)

/-- An `expect` that fails. -/
def panicAt (site : PanicSite) : Action (World σ η) Unit := fun w =>
  ((), { w with env := { w.env with panics := w.env.panics ++ [site] } })

def fillRandom [Host σ η] (n : Nat) : Action (World σ η) (ByteVec n) := fun w =>
  let (bytes, host) := Host.fillRandom n w.env.host
  (bytes, w.setHost host)

def nowFiletime [Host σ η] : Action (World σ η) UInt64 := fun w =>
  let (now, host) := Host.nowFiletime w.env.host
  (now, w.setHost host)

/-- Call out: the host answers, and the call is recorded. -/
def issue (origin : Origin) (call : BackendCall) (f : σ → α × σ) : Action (World σ η) α := fun w =>
  let (answer, host) := f w.env.host
  (answer, (w.setHost host).addCall ⟨origin, call⟩)

@[simp] theorem getConn_apply (w : World σ η) : getConn w = (w.conn, w) := rfl

@[simp] theorem modifyConn_apply (f : Connection η → Connection η) (w : World σ η) :
    modifyConn f w = ((), w.setConn (f w.conn)) := rfl

@[simp] theorem issue_apply (origin : Origin) (call : BackendCall) (f : σ → α × σ)
    (w : World σ η) :
    issue origin call f w =
      ((f w.env.host).1, (w.setHost (f w.env.host).2).addCall ⟨origin, call⟩) := rfl

/-- What an action returns behind a look at the connection. -/
theorem returns_withConn {P : α → Prop} (w : World σ η) {f : Connection η → Action (World σ η) α}
    (rest : Action.Returns P (f w.conn)) : P ((getConn >>= f) w).1 :=
  rest w

/-- A call returns what the host answers in some state. -/
theorem issue_returns (origin : Origin) (call : BackendCall) (f : σ → α × σ) :
    Action.Returns (fun answer => ∃ s, answer = (f s).1)
      (issue origin call f : Action (World σ η) α) :=
  fun w => ⟨w.env.host, rfl⟩

variable [Host σ η]

/-- `ShareBackend::open`; a handle it returns is boxed under a fresh number. -/
def backendOpen (origin : Origin) (backend : BackendRef) (path : SmbPath) (opts : OpenOptions) :
    Action (World σ η) (SmbResult (Boxed η)) := fun w =>
  match backend.open path opts w.env.host with
  | (.ok inner, host) =>
    let serial := w.env.nextHandle
    let w := (w.setHost host).addCall ⟨origin, .open backend path opts (some serial)⟩
    (.ok ⟨serial, inner⟩, { w with env := { w.env with nextHandle := serial + 1 } })
  | (.error e, host) =>
    (.error e, (w.setHost host).addCall ⟨origin, .open backend path opts none⟩)

def backendUnlink (origin : Origin) (backend : BackendRef) (path : SmbPath) :
    Action (World σ η) (SmbResult Unit) :=
  issue origin (.unlink backend path) (backend.unlink path)

def backendRename (origin : Origin) (backend : BackendRef) (src dst : SmbPath) (replace : Bool) :
    Action (World σ η) (SmbResult Unit) :=
  issue origin (.rename backend src dst replace) (backend.rename src dst replace)

namespace Boxed

def read (h : Boxed η) (origin : Origin) (offset : UInt64) (len : UInt32) :
    Action (World σ η) (SmbResult Bytes) :=
  issue origin (.read h.serial offset len) (Host.read h.inner offset len)

def writeOwned (h : Boxed η) (origin : Origin) (offset : UInt64) (data : Bytes) :
    Action (World σ η) (SmbResult UInt32) :=
  issue origin (.writeOwned h.serial offset data) (Host.writeOwned h.inner offset data)

def flush (h : Boxed η) (origin : Origin) : Action (World σ η) (SmbResult Unit) :=
  issue origin (.flush h.serial) (Host.flush h.inner)

def stat (h : Boxed η) (origin : Origin) : Action (World σ η) (SmbResult FileInfo) :=
  issue origin (.stat h.serial) (Host.stat h.inner)

def setTimes (h : Boxed η) (origin : Origin) (times : FileTimes) :
    Action (World σ η) (SmbResult Unit) :=
  issue origin (.setTimes h.serial times) (Host.setTimes h.inner times)

def truncate (h : Boxed η) (origin : Origin) (len : UInt64) :
    Action (World σ η) (SmbResult Unit) :=
  issue origin (.truncate h.serial len) (Host.truncate h.inner len)

def listDir (h : Boxed η) (origin : Origin) (pattern : Option Text) :
    Action (World σ η) (SmbResult (List DirEntry)) :=
  issue origin (.listDir h.serial pattern) (Host.listDir h.inner pattern)

def close (h : Boxed η) (origin : Origin) : Action (World σ η) (SmbResult Unit) :=
  issue origin (.close h.serial) (Host.close h.inner)

end Boxed

end SmbServer
