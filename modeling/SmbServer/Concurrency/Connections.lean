import SmbServer.Lib.Interleave
import SmbServer.Conn.Loop
import SmbServer.System

/-!
# SmbServer.Concurrency.Connections

The server with the tasks of its connections (`SmbServer::serve`, `connection_loop`), interleaved in
any order. A frame is dispatched to its end before another action; `SmbServer.System` is what is
left when only the frames, not the tasks that carry them, are looked at.
-/

namespace SmbServer

open Lib

/-- What has happened to the shared state; a frame is logged with the task that had it dispatched,
and with its answer. -/
inductive LogEntry where
  | accept
  | frame (task : Nat) (connId : UInt64) (frame : Bytes) (answer : Option Bytes)
  | config (op : ConfigOp)
  | hangup (connId : UInt64)

def LogEntry.event : LogEntry → Event
  | .accept => .accept
  | .frame _ connId bytes _ => .frame connId bytes
  | .config op => .config op
  | .hangup connId => .hangup connId

/-- The frame and the answer, if the entry is a task's own. -/
def LogEntry.exchangeOf (task : Nat) : LogEntry → Option (Bytes × Option Bytes)
  | .frame task' _ bytes answer => if task' = task then some (bytes, answer) else none
  | _ => none

/-- The shared state, the flag of `shutdown()`, and the tasks of every connection that has been
accepted. `log` is history. -/
structure Connections (σ η : Type) where
  system : System σ η
  shuttingDown : Bool
  loops : List ConnectionLoop
  log : List LogEntry

inductive ServerAction where
  | accept (socket : Source)
  | task (i : Nat) (a : LoopAction)
  | config (op : ConfigOp)
  | shutdown

variable {σ η : Type} [Host σ η] [Crypto]

namespace Connections

omit [Host σ η] [Crypto] in
/-- The frames that a task has had dispatched, and their answers. -/
def exchanges (s : Connections σ η) (task : Nat) : List (Bytes × Option Bytes) :=
  s.log.filterMap (LogEntry.exchangeOf task)

/-- A server that has just started. -/
def start (server : ServerState) (host : σ) : Connections σ η where
  system := System.start server host
  shuttingDown := false
  loops := []
  log := []

end Connections

/-- What an action of a task reads and changes of the shared state, and what is logged of it. -/
inductive SharedStep (s : Connections σ η) (i : Nat) (connId : UInt64) :
    LoopAction → System σ η → List LogEntry → Prop where
  | read : SharedStep s i connId .read s.system []
  | readFails : SharedStep s i connId .readFails s.system []
  | loadFlag : SharedStep s i connId (.loadFlag s.shuttingDown) s.system []
  | dispatch (frame : Bytes) (answer : Option Bytes) (system : System σ η)
      (served : s.system.serve connId frame = (some answer, system)) :
      SharedStep s i connId (.dispatch frame answer) system [.frame i connId frame answer]
  | send : SharedStep s i connId .send s.system []
  | recv : SharedStep s i connId .recv s.system []
  | write : SharedStep s i connId .write s.system []
  | writeFails : SharedStep s i connId .writeFails s.system []
  | unregister :
      SharedStep s i connId .unregister (s.system.hangup connId) [.hangup connId]

inductive ServerStep : Connections σ η → ServerAction → Connections σ η → Prop where
  | accept (s : Connections σ η) (socket : Source) :
      ServerStep s (.accept socket)
        { s with
          system := s.system.accept
          loops := s.loops ++ [.start s.system.nextConnId socket]
          log := s.log ++ [.accept] }
  | task (s : Connections σ η) (i : Nat) (a : LoopAction) (l l' : ConnectionLoop)
      (system : System σ η) (entries : List LogEntry) (here : s.loops[i]? = some l)
      (step : LoopStep l a l') (shared : SharedStep s i l.connId a system entries) :
      ServerStep s (.task i a)
        { s with system := system, loops := s.loops.set i l', log := s.log ++ entries }
  | config (s : Connections σ η) (op : ConfigOp) :
      ServerStep s (.config op)
        { s with system := (s.system.configure op).2, log := s.log ++ [.config op] }
  | shutdown (s : Connections σ η) : ServerStep s .shutdown { s with shuttingDown := true }

end SmbServer
