import SmbServer.Lib.Twin
import SmbServer.System

/-!
# SmbServer.Effects.Twin

Two runs of the server next to each other, over hosts that answer alike. What they may differ in is
the record of calls and the state of the host; every handler keeps the rest the same. Its only call
with file content is that of WRITE.
-/

namespace SmbServer

open Lib

/-! ### What two runs share -/

/-- The states of the host that `R` relates answer every call alike, and a write of as many bytes
alike. -/
structure AnswersAlike {σ η : Type} [Host σ η] (R : σ → σ → Prop) : Prop where
  «open» (n : Nat) (path : SmbPath) (opts : OpenOptions) :
    Action.Agrees R (Host.open n path opts) (Host.open n path opts)
  unlink (n : Nat) (path : SmbPath) : Action.Agrees R (Host.unlink n path) (Host.unlink n path)
  rename (n : Nat) (src dst : SmbPath) (replace : Bool) :
    Action.Agrees R (Host.rename n src dst replace) (Host.rename n src dst replace)
  read (h : η) (offset : UInt64) (len : UInt32) :
    Action.Agrees R (Host.read h offset len) (Host.read h offset len)
  -- the one call whose arguments may differ between the runs
  writeOwned (h : η) (offset : UInt64) (data data' : Bytes) (length : data.length = data'.length) :
    Action.Agrees R (Host.writeOwned h offset data) (Host.writeOwned h offset data')
  flush (h : η) : Action.Agrees R (Host.flush h) (Host.flush h)
  stat (h : η) : Action.Agrees R (Host.stat h) (Host.stat h)
  setTimes (h : η) (times : FileTimes) :
    Action.Agrees R (Host.setTimes h times) (Host.setTimes h times)
  truncate (h : η) (len : UInt64) : Action.Agrees R (Host.truncate h len) (Host.truncate h len)
  listDir (h : η) (pattern : Option Text) :
    Action.Agrees R (Host.listDir h pattern) (Host.listDir h pattern)
  close (h : η) : Action.Agrees R (Host.close h) (Host.close h)
  fillRandom (n : Nat) : Action.Agrees R (Host.fillRandom n) (Host.fillRandom n)
  nowFiletime : Action.Agrees R Host.nowFiletime Host.nowFiletime

/-- The same but for the record of calls, over related hosts. -/
structure Env.Twin {σ : Type} (R : σ → σ → Prop) (env env' : Env σ) : Prop where
  host : R env.host env'.host
  nextHandle : env.nextHandle = env'.nextHandle
  trace : env.trace = env'.trace
  traceKey : env.traceKey = env'.traceKey
  panics : env.panics = env'.panics

structure World.Twin {σ η : Type} (R : σ → σ → Prop) (w w' : World σ η) : Prop where
  conn : w.conn = w'.conn
  env : Env.Twin R w.env w'.env

/-- Next to itself, the action returns the same and leaves the same. -/
def Steady {σ η α : Type} (R : σ → σ → Prop) (m : Action (World σ η) α) : Prop :=
  Action.Agrees (World.Twin R) m m

namespace Steady

variable {σ η α β : Type} {R : σ → σ → Prop}

theorem pure (a : α) : Steady R (Pure.pure a : Action (World σ η) α) := Action.Agrees.pure a

theorem bind {m : Action (World σ η) α} {f : α → Action (World σ η) β} (first : Steady R m)
    (rest : ∀ a, Steady R (f a)) : Steady R (m >>= f) :=
  Action.Agrees.bind first rest

theorem forM {body : α → Action (World σ η) Unit} (xs : List α)
    (each : ∀ a ∈ xs, Steady R (body a)) : Steady R (xs.forM body) :=
  Action.Agrees.forM xs each

/-- An action on the connection alone. -/
theorem of_conn {m : Action (World σ η) α} (f : Connection η → α × Connection η)
    (acts : ∀ w, m w = ((f w.conn).1, w.setConn (f w.conn).2)) : Steady R m := by
  intro w w' twin
  rw [acts, acts, twin.conn]
  exact ⟨rfl, rfl, twin.env⟩

theorem getConn : Steady R (SmbServer.getConn : Action (World σ η) _) :=
  fun _ _ twin => ⟨twin.conn, twin⟩

theorem modifyConn (f : Connection η → Connection η) :
    Steady R (SmbServer.modifyConn f : Action (World σ η) Unit) :=
  of_conn (fun conn => ((), f conn)) fun _ => rfl

theorem allocSessionId : Steady R (SessionSetup.allocSessionId : Action (World σ η) _) :=
  of_conn (fun conn => (conn.nextSessionId, { conn with nextSessionId := conn.nextSessionId + 1 }))
    fun _ => rfl

theorem takeAcceptor (sid : UInt64) :
    Steady R (SessionSetup.takeAcceptor sid : Action (World σ η) _) := by
  intro w w' twin
  simp only [SessionSetup.takeAcceptor, ← twin.conn]
  split
  · exact ⟨rfl, rfl, twin.env⟩
  · exact ⟨rfl, twin⟩

theorem record (armed : Bool) (event : TraceEvent) :
    Steady R (SmbServer.record armed event : Action (World σ η) Unit) := by
  intro w w' twin
  cases armed with
  | false => exact ⟨rfl, twin⟩
  | true =>
    obtain ⟨conn, env⟩ := twin
    refine ⟨rfl, conn, env.host, env.nextHandle, ?_, env.traceKey, env.panics⟩
    simp only [SmbServer.record, if_true, env.trace, env.traceKey]

theorem panicAt (site : PanicSite) :
    Steady R (SmbServer.panicAt site : Action (World σ η) Unit) := by
  intro w w' twin
  obtain ⟨conn, env⟩ := twin
  refine ⟨rfl, conn, env.host, env.nextHandle, env.trace, env.traceKey, ?_⟩
  simp only [SmbServer.panicAt, env.panics]

/-- Calls that the hosts answer alike, whatever is recorded of them. -/
theorem issued {origin : Origin} {call call' : BackendCall} {f f' : σ → α × σ}
    (alike : Action.Agrees R f f') :
    Action.Agrees (World.Twin R) (SmbServer.issue origin call f : Action (World σ η) α)
      (SmbServer.issue origin call' f') := by
  intro w w' twin
  obtain ⟨conn, env⟩ := twin
  obtain ⟨same, host⟩ := alike _ _ env.host
  exact ⟨same, conn, host, env.nextHandle, env.trace, env.traceKey, env.panics⟩

theorem issue {origin : Origin} {call : BackendCall} {f : σ → α × σ}
    (alike : Action.Agrees R f f) :
    Steady R (SmbServer.issue origin call f : Action (World σ η) α) :=
  issued alike

end Steady

variable {σ η : Type} [Host σ η] {R : σ → σ → Prop} (alike : AnswersAlike R)

/-! ### Calls -/

namespace AnswersAlike

include alike

theorem fillRandom_steady (n : Nat) : Steady R (SmbServer.fillRandom n : Action (World σ η) _) := by
  intro w w' twin
  obtain ⟨conn, env⟩ := twin
  obtain ⟨same, host⟩ := alike.fillRandom n _ _ env.host
  exact ⟨same, conn, host, env.nextHandle, env.trace, env.traceKey, env.panics⟩

theorem nowFiletime_steady : Steady R (SmbServer.nowFiletime : Action (World σ η) _) := by
  intro w w' twin
  obtain ⟨conn, env⟩ := twin
  obtain ⟨same, host⟩ := alike.nowFiletime _ _ env.host
  exact ⟨same, conn, host, env.nextHandle, env.trace, env.traceKey, env.panics⟩

/-- A new handle gets the same number in both runs. -/
theorem open_steady (origin : Origin) (backend : BackendRef) (path : SmbPath)
    (opts : OpenOptions) : Steady R (backendOpen origin backend path opts : Action (World σ η) _) := by
  have answers : Action.Agrees R (backend.open path opts) (backend.open path opts) := by
    cases backend with
    | custom n => exact alike.open n path opts
    | notSupported => exact fun _ _ related => ⟨rfl, related⟩
  intro w w' twin
  obtain ⟨conn, env⟩ := twin
  obtain ⟨same, host⟩ := answers _ _ env.host
  simp only [backendOpen]
  revert same host
  generalize backend.open path opts w.env.host = here
  generalize backend.open path opts w'.env.host = there
  obtain ⟨answer, after⟩ := here
  obtain ⟨answer', after'⟩ := there
  -- the answers are the same, and so is the number that a new handle gets
  rintro (rfl : answer = answer') host
  cases answer with
  | error e => exact ⟨rfl, conn, host, env.nextHandle, env.trace, env.traceKey, env.panics⟩
  | ok inner =>
    refine ⟨by rw [env.nextHandle], conn, host, ?_, env.trace, env.traceKey, env.panics⟩
    simp only [env.nextHandle]

theorem unlink_steady (origin : Origin) (backend : BackendRef) (path : SmbPath) :
    Steady R (backendUnlink origin backend path : Action (World σ η) _) := by
  apply Steady.issue
  cases backend with
  | custom n => exact alike.unlink n path
  | notSupported => exact fun _ _ related => ⟨rfl, related⟩

theorem rename_steady (origin : Origin) (backend : BackendRef) (src dst : SmbPath)
    (replace : Bool) :
    Steady R (backendRename origin backend src dst replace : Action (World σ η) _) := by
  apply Steady.issue
  cases backend with
  | custom n => exact alike.rename n src dst replace
  | notSupported => exact fun _ _ related => ⟨rfl, related⟩

/-! ### Closing -/

theorem closeOpen_steady (sid : UInt64) (tid : UInt32) (access : Access) (file : Open η) :
    Steady R (closeOpen sid tid access file : Action (World σ η) Unit) := by
  unfold closeOpen
  split
  next h _ => exact .bind (.issue (alike.close h.inner)) fun _ => .pure _
  next => exact .pure _

theorem closeTreeState_steady (sid : UInt64) (tid : UInt32) (tree : TreeConnect η) :
    Steady R (closeTreeState sid tid tree : Action (World σ η) Unit) :=
  .forM _ fun file _ => alike.closeOpen_steady sid tid _ file

theorem closeSessionState_steady (sid : UInt64) (sess : Session η) :
    Steady R (closeSessionState sid sess : Action (World σ η) Unit) := by
  refine .forM _ fun tid _ => ?_
  split
  · exact alike.closeTreeState_steady _ _ _
  · exact .pure _

theorem removeTree_steady (sid : UInt64) (tid : UInt32) :
    Steady R (removeTreeFromSession sid tid : Action (World σ η) Bool) := by
  refine .bind .getConn fun conn => ?_
  split
  · exact .bind (.modifyConn _) fun _ =>
      .bind (alike.closeTreeState_steady _ _ _) fun _ => .pure _
  · exact .pure _

theorem closeSession_steady (sid : UInt64) :
    Steady R (Connection.closeSession sid : Action (World σ η) Bool) := by
  refine .bind .getConn fun conn => ?_
  split
  · exact .bind (.modifyConn _) fun _ =>
      .bind (alike.closeSessionState_steady _ _) fun _ => .pure _
  · exact .pure _

theorem closeMatchingTrees_steady (matchesTree : Session η → TreeConnect η → Bool) :
    Steady R (Connection.closeMatchingTrees matchesTree : Action (World σ η) Unit) := by
  refine .bind .getConn fun conn => .forM _ fun sid _ => ?_
  refine .bind .getConn fun conn => ?_
  split
  · refine .forM _ fun tid _ => ?_
    exact .bind (alike.removeTree_steady _ _) fun _ => .pure _
  · exact .pure _

theorem sweep_steady (sweep : Sweep) :
    Steady R (sweep.onConnection : Action (World σ η) Unit) := by
  cases sweep with
  | none => exact .pure _
  | sessionsForUser user =>
    refine .bind .getConn fun conn => .forM _ fun sid _ => ?_
    exact .bind (alike.closeSession_steady _) fun _ => .pure _
  | treesForShare | treesForUserShare => exact alike.closeMatchingTrees_steady _

/-! ### Sessions and trees -/

theorem negotiate_steady (server : ServerState) (body : Bytes) :
    Steady R (Negotiate.handle server body : Action (World σ η) HandlerResponse) := by
  unfold Negotiate.handle
  split
  · exact .pure _
  split
  · exact .pure _
  split
  · exact .pure _
  refine .bind (.modifyConn _) fun _ => ?_
  split
  · refine .bind (alike.fillRandom_steady _) fun salt => ?_
    exact .bind (.pure _) fun _ => .bind .getConn fun _ => .bind alike.nowFiletime_steady fun _ =>
      .pure _
  · exact .bind (.pure _) fun _ => .bind .getConn fun _ => .bind alike.nowFiletime_steady fun _ =>
      .pure _

theorem multiProtocol_steady (server : ServerState) (chosen : UInt16) :
    Steady R (Negotiate.multiProtocolResponse server chosen : Action (World σ η) _) :=
  .bind .getConn fun _ => .bind alike.nowFiletime_steady fun _ => .pure _

theorem sessionSetup_steady [Crypto] (server : ServerState) (hdr : Smb2Header) (body : Bytes) :
    Steady R (SessionSetup.handle server hdr body : Action (World σ η) HandlerResponse) := by
  unfold SessionSetup.handle
  split
  · exact .pure _
  next token _ =>
  split
  · -- The first round draws a challenge and looks at the clock.
    refine .bind Steady.allocSessionId fun sid => ?_
    refine .bind (alike.fillRandom_steady 8) fun challenge => ?_
    refine .bind alike.nowFiletime_steady fun now => ?_
    dsimp only
    cases NtlmServer.step1Negotiate _ token.innerToken with
    | none => exact .pure _
    | some acceptor => exact .bind (.modifyConn _) fun _ => .pure _
  · unfold SessionSetup.finalRound
    split
    · exact .pure _
    refine .bind (Steady.takeAcceptor _) fun pending => ?_
    split
    · exact .pure _
    split
    · exact .pure _
    refine .bind .getConn fun conn => ?_
    split
    · exact .pure _
    · exact .bind (.modifyConn _) fun _ => .pure _

theorem logoff_steady (hdr : Smb2Header) :
    Steady R (Logoff.handle hdr : Action (World σ η) HandlerResponse) := by
  unfold Logoff.handle
  split
  · exact .pure _
  · exact .bind (alike.closeSession_steady _) fun _ => .pure _

omit alike in
theorem treeConnect_steady (server : ServerState) (hdr : Smb2Header) (body : Bytes) :
    Steady R (TreeConnect.handle server hdr body : Action (World σ η) HandlerResponse) := by
  unfold TreeConnect.handle
  split
  · exact .pure _
  refine .bind .getConn fun conn => ?_
  split
  · exact .pure _
  split
  · exact .pure _
  split
  · exact .pure _
  · exact .bind (.modifyConn _) fun _ => .bind (.modifyConn _) fun _ => .pure _

theorem treeDisconnect_steady (hdr : Smb2Header) :
    Steady R (TreeDisconnect.handle hdr : Action (World σ η) HandlerResponse) := by
  unfold TreeDisconnect.handle
  split
  · exact .pure _
  refine .bind .getConn fun conn => ?_
  split
  · exact .pure _
  refine .bind (alike.removeTree_steady _ _) fun removed => ?_
  split <;> exact .pure _

/-! ### Files -/

theorem create_steady (server : ServerState) (hdr : Smb2Header) (body : Bytes) :
    Steady R (Create.handle server hdr body : Action (World σ η) HandlerResponse) := by
  refine .bind .getConn fun conn => ?_
  split
  · exact .pure _
  next plan _ =>
  refine .bind (alike.open_steady _ _ _ _) fun opened => ?_
  split
  · exact .bind (.record _ _) fun _ => .pure _
  next h =>
  refine .bind (.issue (alike.stat h.inner)) fun info => ?_
  split
  · exact .bind (.issue (alike.close h.inner)) fun _ => .bind (.record _ _) fun _ => .pure _
  · exact .bind (.modifyConn _) fun _ => .bind (.record _ _) fun _ => .pure _

theorem close_steady (server : ServerState) (hdr : Smb2Header) (body : Bytes) :
    Steady R (Close.handle server hdr body : Action (World σ η) HandlerResponse) := by
  refine .bind .getConn fun conn => ?_
  split
  · exact .pure _
  next req target _ =>
  -- the mark and the path come from the open, which is the same in both
  have unlinked (response : HandlerResponse) : Steady R (if target.file.deleteOnClose = true then do
        let _ ← backendUnlink (target.origin hdr.sessionId) target.tree.share.backend
          target.file.lastPath
        return response
      else return response : Action (World σ η) HandlerResponse) := by
    split
    · exact .bind (alike.unlink_steady _ _ _) fun _ => .pure _
    · exact .pure _
  refine .bind (.modifyConn _) fun _ => .bind (.record _ _) fun _ => .bind ?_ fun info => ?_
  · unfold Close.infoBeforeClose
    split
    next h _ _ =>
      refine .bind (.issue (alike.stat h.inner)) fun answer => ?_
      cases answer <;> exact .pure _
    next => exact .pure _
  cases target.file.handle with
  | none => exact unlinked _
  | some h => exact .bind (.issue (alike.close h.inner)) fun _ => unlinked _

theorem flush_steady (hdr : Smb2Header) (body : Bytes) :
    Steady R (Flush.handle hdr body : Action (World σ η) HandlerResponse) := by
  unfold Flush.handle
  split
  · exact .pure _
  refine .bind .getConn fun conn => ?_
  split
  · exact .pure _
  split
  · exact .pure _
  next h _ =>
  refine .bind (.issue (alike.flush h.inner)) fun answer => ?_
  split <;> exact .pure _

theorem read_steady (hdr : Smb2Header) (body : Bytes) :
    Steady R (Read.handle hdr body : Action (World σ η) HandlerResponse) := by
  unfold Read.handle
  split
  · exact .pure _
  refine .bind .getConn fun conn => ?_
  split
  · exact .pure _
  split
  · exact .pure _
  split
  · exact .pure _
  next h _ =>
  refine .bind (.issue (alike.read h.inner _ _)) fun answer => ?_
  split
  · exact .pure _
  split <;> exact .pure _

theorem setInfo_steady (server : ServerState) (hdr : Smb2Header) (body : Bytes) :
    Steady R (SetInfo.handle server hdr body : Action (World σ η) HandlerResponse) := by
  have performed (sid : UInt64) (fid : FileId) (target : Target η) (op : SetInfo.Operation η) :
      Steady R (SetInfo.perform server sid fid target op : Action (World σ η) _) := by
    cases op with
    | setTimes h times => exact .bind (.issue (alike.setTimes h.inner times)) fun _ => .pure _
    | truncate h len => exact .bind (.issue (alike.truncate h.inner len)) fun _ => .pure _
    | disposition flag => exact .bind (.modifyConn _) fun _ => .pure _
    | allocation => exact .pure _
    | rename dst replace =>
      refine .bind (.record _ _) fun _ => .bind (alike.rename_steady _ _ _ _ _) fun answer => ?_
      cases answer with
      | error e => exact .pure _
      | ok => exact .bind (.modifyConn _) fun _ => .pure _
  refine .bind .getConn fun conn => ?_
  split
  · exact .pure _
  -- The decoded operation stands behind the record of the class, or behind nothing.
  split
  · split
    · exact .bind (.record _ _) fun _ => .pure _
    · exact .pure _
  · split
    · exact .bind (.record _ _) fun _ => performed _ _ _ _
    · exact performed _ _ _ _

theorem queryInfo_steady (hdr : Smb2Header) (body : Bytes) :
    Steady R (QueryInfo.handle hdr body : Action (World σ η) HandlerResponse) := by
  refine .bind .getConn fun conn => ?_
  split
  · exact .pure _
  next h _ =>
  refine .bind (.issue (alike.stat h.inner)) fun answer => ?_
  dsimp only
  split <;> exact .pure _

theorem queryDirectory_steady (hdr : Smb2Header) (body : Bytes) :
    Steady R (QueryDirectory.handle hdr body : Action (World σ η) HandlerResponse) := by
  refine .bind .getConn fun conn => ?_
  split
  · exact .pure _
  refine .bind ?_ fun populated => ?_
  -- the snapshot is the answer of the backend, restarted or kept
  · unfold QueryDirectory.populate
    split
    · exact .pure _
    split
    · exact .pure _
    next h _ =>
    refine .bind (.issue (alike.listDir h.inner _)) fun answer => ?_
    cases answer with
    | error e => exact .pure _
    | ok entries => exact .bind (.modifyConn _) fun _ => .pure _
  split
  · exact .pure _
  refine .bind .getConn fun conn => ?_
  split
  · exact .bind (.panicAt _) fun _ => .pure _
  · refine .bind (.modifyConn _) fun _ => ?_
    split <;> exact .pure _

omit [Host σ η] alike in
theorem ioctl_steady (server : ServerState) (body : Bytes) :
    Steady R (Ioctl.handle server body : Action (World σ η) HandlerResponse) := by
  unfold Ioctl.handle
  split
  · exact .pure _
  refine .bind .getConn fun conn => ?_
  split <;> exact .pure _

end AnswersAlike

end SmbServer
