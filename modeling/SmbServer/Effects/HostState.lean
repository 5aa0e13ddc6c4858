import SmbServer.Effects.Trees

/-!
# SmbServer.Effects.HostState

What a request does to the state of the host. Most calls only ask; a part of the state that they
leave alone changes in the calls of CREATE, WRITE, SET_INFO and CLOSE and nowhere else.
-/

namespace SmbServer

open Lib

variable {σ η τ α β : Type} [Host σ η]

/-- The calls that only ask, and those for randomness and the time, leave this part of the host's
state alone. -/
structure Observed (view : σ → τ) : Prop where
  read (h : η) (offset : UInt64) (len : UInt32) (s : σ) :
    view (Host.read h offset len s).2 = view s
  flush (h : η) (s : σ) : view (Host.flush h s).2 = view s
  stat (h : η) (s : σ) : view (Host.stat h s).2 = view s
  listDir (h : η) (pattern : Option Text) (s : σ) : view (Host.listDir h pattern s).2 = view s
  close (h : η) (s : σ) : view (Host.close h s).2 = view s
  fillRandom (n : Nat) (s : σ) : view (Host.fillRandom n s).2 = view s
  nowFiletime (s : σ) : view (Host.nowFiletime s).2 = view s

omit [Host σ η] in
/-- The part of the host's state is the same in both worlds. -/
def Still (view : σ → τ) (w w' : World σ η) : Prop := view w'.env.host = view w.env.host

namespace Still

variable {view : σ → τ}

omit [Host σ η] in
theorem refl (w : World σ η) : Still view w w := rfl

omit [Host σ η] in
theorem trans (w w' w'' : World σ η) (first : Still view w w') (second : Still view w' w'') :
    Still view w w'' :=
  Eq.trans second first

omit [Host σ η] in
theorem of_alike {w w' : World σ η} (same : Alike w w') : Still view w w' :=
  congrArg view same.host

end Still

omit [Host σ η] in
/-- The action leaves the part of the host's state alone. -/
def Asking (view : σ → τ) (m : Action (World σ η) α) : Prop := Action.Moves (Still view) m

namespace Asking

variable {view : σ → τ}

/-! ### Actions -/

omit [Host σ η] in
theorem pure (a : α) : Asking view (Pure.pure a : Action (World σ η) α) :=
  Action.Moves.pure Still.refl a

omit [Host σ η] in
theorem bind {m : Action (World σ η) α} {f : α → Action (World σ η) β}
    (first : Asking view m) (rest : ∀ a, Asking view (f a)) :
    Asking view (m >>= f) :=
  Action.Moves.bind Still.trans first rest

omit [Host σ η] in
theorem forM {body : α → Action (World σ η) Unit} (xs : List α)
    (each : ∀ a ∈ xs, Asking view (body a)) : Asking view (xs.forM body) :=
  Action.Moves.forM Still.refl Still.trans xs each

omit [Host σ η] in
theorem getConn : Asking view (SmbServer.getConn : Action (World σ η) _) :=
  fun _ => rfl

omit [Host σ η] in
theorem modifyConn (f : Connection η → Connection η) :
    Asking view (SmbServer.modifyConn f : Action (World σ η) Unit) :=
  fun _ => rfl

omit [Host σ η] in
theorem record (armed : Bool) (event : TraceEvent) :
    Asking view (SmbServer.record armed event : Action (World σ η) Unit) :=
  fun w => Still.of_alike (alike_record armed event w)

omit [Host σ η] in
theorem panicAt (site : PanicSite) :
    Asking view (SmbServer.panicAt site : Action (World σ η) Unit) :=
  fun _ => rfl

omit [Host σ η] in
theorem issue {origin : Origin} {call : BackendCall} {f : σ → α × σ}
    (asks : ∀ s, view (f s).2 = view s) :
    Asking view (SmbServer.issue origin call f : Action (World σ η) α) :=
  fun w => asks w.env.host

omit [Host σ η] in
theorem takeAcceptor (sid : UInt64) :
    Asking view (SessionSetup.takeAcceptor sid : Action (World σ η) _) := by
  intro w
  rw [SessionSetup.takeAcceptor]
  split <;> rfl

omit [Host σ η] in
theorem takeSessionPreauth (sid : UInt64) :
    Asking view (SmbServer.takeSessionPreauth sid : Action (World σ η) _) := by
  intro w
  rw [SmbServer.takeSessionPreauth]
  split <;> rfl

end Asking

namespace Observed

variable {view : σ → τ} (observed : Observed view)

include observed

/-! ### Closing -/

theorem fillRandom_still (n : Nat) :
    Asking view (SmbServer.fillRandom n : Action (World σ η) _) :=
  fun w => observed.fillRandom n w.env.host

theorem nowFiletime_still :
    Asking view (SmbServer.nowFiletime : Action (World σ η) _) :=
  fun w => observed.nowFiletime w.env.host

theorem closeTreeState_still (sid : UInt64) (tid : UInt32) (tree : TreeConnect η) :
    Asking view (closeTreeState sid tid tree : Action (World σ η) Unit) := by
  apply Asking.forM
  intro file _
  unfold closeOpen
  split
  next h _ => exact .bind (.issue (observed.close h.inner)) fun _ => .pure _
  next => exact .pure _

theorem closeSessionState_still (sid : UInt64) (sess : Session η) :
    Asking view (closeSessionState sid sess : Action (World σ η) Unit) := by
  apply Asking.forM
  intro tid _
  split
  · exact observed.closeTreeState_still _ _ _
  · exact .pure _

theorem removeTree_still (sid : UInt64) (tid : UInt32) :
    Asking view (removeTreeFromSession sid tid : Action (World σ η) Bool) := by
  refine .bind .getConn fun conn => ?_
  split
  · exact .bind (.modifyConn _) fun _ =>
      .bind (observed.closeTreeState_still _ _ _) fun _ => .pure _
  · exact .pure _

theorem closeSession_still (sid : UInt64) :
    Asking view (Connection.closeSession sid : Action (World σ η) Bool) := by
  refine .bind .getConn fun conn => ?_
  split
  · exact .bind (.modifyConn _) fun _ =>
      .bind (observed.closeSessionState_still _ _) fun _ => .pure _
  · exact .pure _

theorem closeMatchingTrees_still (matchesTree : Session η → TreeConnect η → Bool) :
    Asking view
      (Connection.closeMatchingTrees matchesTree : Action (World σ η) Unit) := by
  refine .bind .getConn fun conn => ?_
  apply Asking.forM
  intro sid _
  refine .bind .getConn fun conn => ?_
  split
  · apply Action.Moves.forM Still.refl Still.trans
    intro tid _
    exact Asking.bind (observed.removeTree_still _ _) fun _ => .pure _
  · exact .pure _

theorem sweep_still (sweep : Sweep) :
    Asking view (sweep.onConnection : Action (World σ η) Unit) := by
  cases sweep with
  | none => exact .pure _
  | sessionsForUser user =>
    refine .bind .getConn fun conn => ?_
    apply Asking.forM
    intro sid _
    exact Asking.bind (observed.closeSession_still _) fun _ => .pure _
  | treesForShare | treesForUserShare => exact observed.closeMatchingTrees_still _

/-! ### Sessions and trees -/

theorem negotiate_still (server : ServerState) (body : Bytes) :
    Asking view
      (Negotiate.handle server body : Action (World σ η) HandlerResponse) := by
  unfold Negotiate.handle
  split
  · exact .pure _
  split
  · exact .pure _
  split
  · exact .pure _
  refine .bind (.modifyConn _) fun _ => ?_
  split
  · refine .bind (observed.fillRandom_still _) fun salt => ?_
    exact .bind (.pure _) fun _ => .bind .getConn fun _ =>
      .bind observed.nowFiletime_still fun _ => .pure _
  · exact .bind (.pure _) fun _ => .bind .getConn fun _ =>
      .bind observed.nowFiletime_still fun _ => .pure _

theorem smb1_still [Crypto] (server : ServerState) (chosen : UInt16) :
    Asking view
      (handleSmb1MultiProtocol server chosen : Action (World σ η) Bytes) := by
  refine .bind ?_ fun resp => .bind .getConn fun conn => .pure _
  exact .bind .getConn fun _ => .bind observed.nowFiletime_still fun _ => .pure _

theorem sessionSetup_still [Crypto] (server : ServerState) (hdr : Smb2Header) (body : Bytes) :
    Asking view
      (SessionSetup.handle server hdr body : Action (World σ η) HandlerResponse) := by
  unfold SessionSetup.handle
  split
  · exact .pure _
  next token _ =>
  split
  · -- the first round draws a challenge and looks at the clock
    refine .bind (fun w => rfl) fun sid => ?_
    refine .bind (observed.fillRandom_still 8) fun challenge => ?_
    refine .bind observed.nowFiletime_still fun now => ?_
    dsimp only
    cases NtlmServer.step1Negotiate _ token.innerToken with
    | none => exact .pure _
    | some acceptor => exact .bind (.modifyConn _) fun _ => .pure _
  · unfold SessionSetup.finalRound
    split
    · exact .pure _
    refine .bind (.takeAcceptor _) fun pending => ?_
    split
    · exact .pure _
    split
    · exact .pure _
    refine .bind .getConn fun conn => ?_
    split
    · exact .pure _
    · exact .bind (.modifyConn _) fun _ => .pure _

theorem logoff_still (hdr : Smb2Header) :
    Asking view (Logoff.handle hdr : Action (World σ η) HandlerResponse) := by
  unfold Logoff.handle
  split
  · exact .pure _
  · exact .bind (observed.closeSession_still _) fun _ => .pure _

omit observed in
theorem treeConnect_still (server : ServerState) (hdr : Smb2Header) (body : Bytes) :
    Asking view
      (TreeConnect.handle server hdr body : Action (World σ η) HandlerResponse) := by
  unfold TreeConnect.handle
  split
  · exact .pure _
  refine .bind .getConn fun conn => ?_
  split
  · exact .pure _
  split
  · exact .pure _
  split
  · exact .pure _
  · exact .bind (.modifyConn _) fun _ => .bind (.modifyConn _) fun _ => .pure _

theorem treeDisconnect_still (hdr : Smb2Header) :
    Asking view
      (TreeDisconnect.handle hdr : Action (World σ η) HandlerResponse) := by
  unfold TreeDisconnect.handle
  split
  · exact .pure _
  refine .bind .getConn fun conn => ?_
  split
  · exact .pure _
  refine .bind (observed.removeTree_still _ _) fun removed => ?_
  split <;> exact .pure _

/-! ### Files -/

theorem flush_still (hdr : Smb2Header) (body : Bytes) :
    Asking view
      (Flush.handle hdr body : Action (World σ η) HandlerResponse) := by
  unfold Flush.handle
  split
  · exact .pure _
  refine .bind .getConn fun conn => ?_
  split
  · exact .pure _
  split
  · exact .pure _
  next h _ =>
  refine .bind (.issue (observed.flush h.inner)) fun answer => ?_
  split <;> exact .pure _

theorem read_still (hdr : Smb2Header) (body : Bytes) :
    Asking view (Read.handle hdr body : Action (World σ η) HandlerResponse) := by
  unfold Read.handle
  split
  · exact .pure _
  refine .bind .getConn fun conn => ?_
  split
  · exact .pure _
  split
  · exact .pure _
  split
  · exact .pure _
  next h _ =>
  refine .bind (.issue (observed.read h.inner _ _)) fun answer => ?_
  split
  · exact .pure _
  split <;> exact .pure _

theorem queryInfo_still (hdr : Smb2Header) (body : Bytes) :
    Asking view
      (QueryInfo.handle hdr body : Action (World σ η) HandlerResponse) := by
  refine .bind .getConn fun conn => ?_
  split
  · exact .pure _
  next h _ =>
  refine .bind (.issue (observed.stat h.inner)) fun answer => ?_
  dsimp only
  split <;> exact .pure _

theorem queryDirectory_still (hdr : Smb2Header) (body : Bytes) :
    Asking view
      (QueryDirectory.handle hdr body : Action (World σ η) HandlerResponse) := by
  refine .bind .getConn fun conn => ?_
  split
  · exact .pure _
  refine .bind ?_ fun populated => ?_
  · unfold QueryDirectory.populate
    split
    · exact .pure _
    split
    · exact .pure _
    next h _ =>
    refine .bind (.issue (observed.listDir h.inner _)) fun answer => ?_
    cases answer with
    | error e => exact .pure _
    | ok entries => exact .bind (.modifyConn _) fun _ => .pure _
  split
  · exact .pure _
  refine .bind .getConn fun conn => ?_
  split
  · exact .bind (.panicAt _) fun _ => .pure _
  · refine .bind (.modifyConn _) fun _ => ?_
    split <;> exact .pure _

omit [Host σ η] observed in
theorem ioctl_still (server : ServerState) (body : Bytes) :
    Asking view (Ioctl.handle server body : Action (World σ η) HandlerResponse) := by
  unfold Ioctl.handle
  split
  · exact .pure _
  refine .bind .getConn fun conn => ?_
  split <;> exact .pure _

end Observed

/-! ### The calls that change files -/

/-- How a WRITE ends. -/
inductive Write.Ends (hdr : Smb2Header) (body : Bytes) (w w' : World σ η) : Prop where
  | refused (host : w'.env.host = w.env.host)
  | performed (req : WriteRequest) (target : Target η) (h : Boxed η)
      (parsed : WriteRequest.parse body = some req)
      (admitted : Write.validate w.conn hdr req = .ok (target, h))
      (host : w'.env.host = (Host.writeOwned h.inner req.offset req.data w.env.host).2)

/-- How a SET_INFO ends. -/
inductive SetInfo.Ends (hdr : Smb2Header) (body : Bytes) (w w' : World σ η) : Prop where
  | refused (conn : w'.conn = w.conn) (host : w'.env.host = w.env.host)
  | setTimes (target : Target η) (h : Boxed η) (times : FileTimes)
      (reaches : SetInfo.Reaches w.conn hdr body target (.setTimes h times))
      (conn : w'.conn = w.conn)
      (host : w'.env.host = (Host.setTimes h.inner times w.env.host).2)
  | truncate (target : Target η) (h : Boxed η) (len : UInt64)
      (reaches : SetInfo.Reaches w.conn hdr body target (.truncate h len))
      (conn : w'.conn = w.conn)
      (host : w'.env.host = (Host.truncate h.inner len w.env.host).2)
  | disposition (sid : UInt64) (tid : UInt32) (fid : FileId) (flag : Bool)
      (conn : w'.conn =
        w.conn.modifyOpen sid tid fid fun file => { file with deleteOnClose := flag })
      (host : w'.env.host = w.env.host)
  | rename (req : SetInfoRequest) (target : Target η) (dst : SmbPath) (replace : Bool)
      (admitted : SetInfo.validate w.conn hdr body = .ok (req, target))
      (decoded : SetInfo.decode req.fileInformationClass req.buffer target.file =
        .ok (.rename dst replace))
      (conn : w'.conn = match (target.tree.share.backend.rename target.file.lastPath dst replace
          w.env.host).1 with
        | .ok () => w.conn.modifyOpen hdr.sessionId target.tid req.fileId
            fun file => { file with lastPath := dst }
        | .error _ => w.conn)
      (host : w'.env.host = (target.tree.share.backend.rename target.file.lastPath dst replace
        w.env.host).2)

/-- How a CLOSE ends; the calls in front of an unlink only ask. -/
inductive Close.Ends (view : σ → τ) (hdr : Smb2Header) (body : Bytes) (w w' : World σ η) :
    Prop where
  | refused (conn : w'.conn = w.conn) (host : w'.env.host = w.env.host)
  | closed (req : CloseRequest) (target : Target η) (s : σ)
      (admitted : Close.validate w.conn hdr body = .ok (req, target))
      (conn : w'.conn = w.conn.modifyOpens hdr.sessionId target.tid fun opens =>
        opens.erase req.fileId)
      (same : view s = view w.env.host)
      (host : w'.env.host = if target.file.deleteOnClose then
        (target.tree.share.backend.unlink target.file.lastPath s).2 else s)

theorem Write.handle_ends (server : ServerState) (hdr : Smb2Header) (body : Bytes)
    (w : World σ η) : Write.Ends hdr body w (Write.handle server hdr body w).2 := by
  cases parsed : WriteRequest.parse body with
  | none =>
    simp only [Write.handle, parsed]
    exact .refused rfl
  | some req =>
    have recorded := alike_record server.traceSink
      (.write req.fileId.write req.offset req.length) w
    simp only [Write.handle, parsed, Action.bind_apply, getConn_apply, recorded.conn]
    cases admitted : Write.validate w.conn hdr req with
    | error status => exact .refused recorded.host
    | ok pair =>
      obtain ⟨target, h⟩ := pair
      refine .performed req target h parsed admitted ?_
      simp only [Action.bind_apply, Boxed.writeOwned, issue_apply, recorded.host]
      cases (Host.writeOwned (σ := σ) h.inner req.offset req.data w.env.host).1 <;> rfl

theorem SetInfo.handle_ends (server : ServerState) (hdr : Smb2Header) (body : Bytes)
    (w : World σ η) (cmd : hdr.command = .setInfo) :
    SetInfo.Ends hdr body w (SetInfo.handle server hdr body w).2 := by
  -- what is recorded in front of the operation leaves the world alike
  have performed (w₁ : World σ η) (alike : Alike w w₁) (req : SetInfoRequest) (target : Target η)
      (op : SetInfo.Operation η) (admitted : SetInfo.validate w.conn hdr body = .ok (req, target))
      (decoded : SetInfo.decode req.fileInformationClass req.buffer target.file = .ok op) :
      SetInfo.Ends hdr body w
        (SetInfo.perform server hdr.sessionId req.fileId target op w₁).2 := by
    cases op with
    | setTimes h times =>
      exact .setTimes target h times ⟨cmd, req, admitted, decoded⟩ alike.conn
        (congrArg (fun s => (Host.setTimes h.inner times s).2) alike.host)
    | truncate h len =>
      exact .truncate target h len ⟨cmd, req, admitted, decoded⟩ alike.conn
        (congrArg (fun s => (Host.truncate h.inner len s).2) alike.host)
    | allocation => exact .refused alike.conn alike.host
    | disposition flag =>
      refine .disposition hdr.sessionId target.tid req.fileId flag ?_ alike.host
      simp only [SetInfo.perform, Action.bind_apply, modifyConn_apply, Action.pure_apply,
        World.setConn_conn, alike.conn]
    | rename dst replace =>
      have recorded := alike.trans (alike_record server.traceSink (.setInfoRename replace
        dst.displayBackslash target.file.lastPath.displayBackslash) w₁)
      refine .rename req target dst replace admitted decoded ?_ ?_
      · simp only [SetInfo.perform, Action.bind_apply, backendRename, issue_apply, recorded.host]
        cases (target.tree.share.backend.rename (σ := σ) target.file.lastPath dst replace
          w.env.host).1 with
        | error e => exact recorded.conn
        | ok =>
          simp only [Action.bind_apply, Action.pure_apply, modifyConn_apply, World.setConn_conn,
            World.addCall_conn, World.setHost_conn, recorded.conn]
      · simp only [SetInfo.perform, Action.bind_apply, backendRename, issue_apply, recorded.host]
        cases (target.tree.share.backend.rename (σ := σ) target.file.lastPath dst replace
          w.env.host).1 <;> rfl
  simp only [SetInfo.handle, Action.bind_apply, getConn_apply]
  cases admitted : SetInfo.validate w.conn hdr body with
  | error status => exact .refused rfl rfl
  | ok pair =>
    obtain ⟨req, target⟩ := pair
    have recorded := alike_record server.traceSink (.setInfoOther req.fileInformationClass) w
    dsimp only
    cases decoded : SetInfo.decode req.fileInformationClass req.buffer target.file with
    | error status =>
      split
      · exact .refused recorded.conn recorded.host
      · exact .refused rfl rfl
    | ok op =>
      split
      · exact performed _ recorded req target op admitted decoded
      · exact performed w (Alike.refl w) req target op admitted decoded

/-- What a CLOSE asks for first. -/
theorem Observed.infoBeforeClose_still {view : σ → τ} (observed : Observed view)
    (req : CloseRequest) (origin : Origin) (handle : Option (Boxed η)) (w : World σ η) :
    (Close.infoBeforeClose req origin handle w).2.conn = w.conn ∧
      Still view w (Close.infoBeforeClose req origin handle w).2 := by
  unfold Close.infoBeforeClose
  cases handle with
  | none => cases Close.wantAttrs req <;> exact ⟨rfl, rfl⟩
  | some h =>
    cases Close.wantAttrs req with
    | false => exact ⟨rfl, rfl⟩
    | true =>
      simp only [Action.bind_apply, Boxed.stat, issue_apply]
      have kept := observed.stat h.inner w.env.host
      cases (Host.stat h.inner w.env.host).1 <;> exact ⟨rfl, kept⟩

theorem Close.handle_ends {view : σ → τ} (observed : Observed view) (server : ServerState)
    (hdr : Smb2Header) (body : Bytes) (w : World σ η) :
    Close.Ends view hdr body w (Close.handle server hdr body w).2 := by
  simp only [Close.handle, Action.bind_apply, getConn_apply]
  cases admitted : Close.validate w.conn hdr body with
  | error status => exact .refused rfl rfl
  | ok pair =>
    obtain ⟨req, target⟩ := pair
    have recorded := alike_record server.traceSink (.close req.fileId.write
      target.file.deleteOnClose target.file.lastPath.displayBackslash)
      (w.setConn (w.conn.modifyOpens hdr.sessionId target.tid fun opens => opens.erase req.fileId))
    simp only [Close.perform, Action.bind_apply, modifyConn_apply]
    generalize (record server.traceSink (.close req.fileId.write target.file.deleteOnClose
      target.file.lastPath.displayBackslash) (w.setConn (w.conn.modifyOpens hdr.sessionId
        target.tid fun opens => opens.erase req.fileId))).2 = w₁ at recorded
    obtain ⟨conn, asked⟩ := observed.infoBeforeClose_still req (target.origin hdr.sessionId)
      target.file.handle w₁
    generalize Close.infoBeforeClose req (target.origin hdr.sessionId) target.file.handle w₁ =
      first at conn asked
    obtain ⟨info, w₂⟩ := first
    have erased := conn.trans recorded.conn
    have same : view w₂.env.host = view w.env.host :=
      Eq.trans asked (congrArg view recorded.host)
    cases target.file.handle with
    | none =>
      refine .closed req target w₂.env.host admitted ?_ same ?_
      · cases target.file.deleteOnClose <;> exact erased
      · cases target.file.deleteOnClose <;> rfl
    | some h =>
      refine .closed req target (Host.close h.inner w₂.env.host).2 admitted ?_
        ((observed.close h.inner _).trans same) ?_
      · cases target.file.deleteOnClose <;> exact erased
      · cases target.file.deleteOnClose <;> rfl

/-! ### One element -/

section
variable [Crypto] {view : σ → τ} (observed : Observed view)

include observed in
theorem dispatchCommand_still (server : ServerState) (hdr : Smb2Header) (body : Bytes)
    (noCreate : hdr.command ≠ .create) (noClose : hdr.command ≠ .close)
    (noWrite : hdr.command ≠ .write) (noSetInfo : hdr.command ≠ .setInfo) :
    Asking view (dispatchCommand server hdr body : Action (World σ η) HandlerResponse) := by
  unfold dispatchCommand
  cases cmd : hdr.command with
  | create => exact absurd cmd noCreate
  | close => exact absurd cmd noClose
  | write => exact absurd cmd noWrite
  | setInfo => exact absurd cmd noSetInfo
  | negotiate => exact observed.negotiate_still server body
  | sessionSetup => exact observed.sessionSetup_still server hdr body
  | logoff => exact observed.logoff_still hdr
  | treeConnect => exact Observed.treeConnect_still server hdr body
  | treeDisconnect => exact observed.treeDisconnect_still hdr
  | flush => exact observed.flush_still hdr body
  | read => exact observed.read_still hdr body
  | ioctl => exact Observed.ioctl_still server body
  | queryDirectory => exact observed.queryDirectory_still hdr body
  | queryInfo => exact observed.queryInfo_still hdr body
  | lock | echo | changeNotify | oplockBreak | cancel => exact .pure _

include observed in
theorem runHandler_still (server : ServerState) (hdr : Smb2Header) (frame body : Bytes)
    (noCreate : hdr.command ≠ .create) (noClose : hdr.command ≠ .close)
    (noWrite : hdr.command ≠ .write) (noSetInfo : hdr.command ≠ .setInfo) :
    Asking view (runHandler server hdr frame body : Action (World σ η) Bytes) := by
  refine .bind .getConn fun conn => ?_
  refine .bind ?_ fun sessionPreauth => ?_
  · refine .bind .getConn fun conn => ?_
    split
    · exact .bind (.modifyConn _) fun _ => .pure _
    split
    · exact .bind (.takeSessionPreauth _) fun _ => .pure _
    · exact .pure _
  have handled := dispatchCommand_still observed server hdr body noCreate noClose noWrite noSetInfo
  refine .bind handled fun resp => ?_
  refine .bind ?_ fun _ => .bind .getConn fun conn => ?_
  · unfold takeSnapshot
    split
    · exact .pure _
    split
    · exact .panicAt _
    · exact .modifyConn _
  refine .bind (.record _ _) fun _ => .bind ?_ fun _ => .pure _
  unfold preauthAfter
  split
  · exact .modifyConn _
  split
  · split
    · split
      · exact .pure _
      · exact .modifyConn _
    · exact .modifyConn _
  · exact .pure _

variable (server : ServerState) (frame : Bytes) (ordinal : UInt32) (w : World σ η)
  {hdr : Smb2Header} {body : Bytes}

include observed in
/-- An accepted request of any other command leaves the files alone. -/
theorem dispatchOne_still (accepted : Accepted w.conn frame hdr body)
    (noCreate : hdr.command ≠ .create) (noClose : hdr.command ≠ .close)
    (noWrite : hdr.command ≠ .write) (noSetInfo : hdr.command ≠ .setInfo) :
    Still view w (dispatchOne server frame ordinal w).2 := by
  obtain ⟨w₁, before, -, after⟩ := dispatchOne_handled server frame ordinal w hdr body accepted
  have handled :=
    runHandler_still observed server hdr frame body noCreate noClose noWrite noSetInfo w₁
  rw [after]
  exact Still.trans _ _ _ (.of_alike before) handled

theorem dispatchOne_wrote (accepted : Accepted w.conn frame hdr body)
    (cmd : hdr.command = .write) : Write.Ends hdr body w (dispatchOne server frame ordinal w).2 := by
  obtain ⟨w₁, before, after⟩ := dispatchOne_of_accepted server frame ordinal w hdr body accepted
    (by simp [cmd]) (by simp [cmd])
  have outcome := Write.handle_ends server hdr body w₁
  have handler : dispatchCommand server hdr body w₁ = Write.handle server hdr body w₁ := by
    simp only [dispatchCommand, cmd]
  rw [handler] at after
  cases outcome with
  | refused host => exact .refused (after.host.trans (host.trans before.host))
  | performed req target h parsed admitted host =>
    rw [before.conn] at admitted
    rw [before.host] at host
    exact .performed req target h parsed admitted (after.host.trans host)

theorem dispatchOne_set (accepted : Accepted w.conn frame hdr body)
    (cmd : hdr.command = .setInfo) :
    SetInfo.Ends hdr body w (dispatchOne server frame ordinal w).2 := by
  obtain ⟨w₁, before, after⟩ := dispatchOne_of_accepted server frame ordinal w hdr body accepted
    (by simp [cmd]) (by simp [cmd])
  have outcome := SetInfo.handle_ends server hdr body w₁ cmd
  have handler : dispatchCommand server hdr body w₁ = SetInfo.handle server hdr body w₁ := by
    simp only [dispatchCommand, cmd]
  rw [handler] at after
  have conn := before.conn
  have host := before.host
  cases outcome with
  | refused conn' host' =>
    exact .refused (after.conn.trans (conn'.trans conn)) (after.host.trans (host'.trans host))
  | setTimes target h times reaches conn' host' =>
    rw [conn] at reaches conn'
    rw [host] at host'
    exact .setTimes target h times reaches (after.conn.trans conn') (after.host.trans host')
  | truncate target h len reaches conn' host' =>
    rw [conn] at reaches conn'
    rw [host] at host'
    exact .truncate target h len reaches (after.conn.trans conn') (after.host.trans host')
  | disposition sid tid fid flag conn' host' =>
    rw [conn] at conn'
    exact .disposition sid tid fid flag (after.conn.trans conn') (after.host.trans (host'.trans host))
  | rename req target dst replace admitted decoded conn' host' =>
    rw [conn] at admitted
    rw [host] at host'
    simp only [conn, host] at conn'
    exact .rename req target dst replace admitted decoded (after.conn.trans conn')
      (after.host.trans host')

include observed in
theorem dispatchOne_closed (accepted : Accepted w.conn frame hdr body)
    (cmd : hdr.command = .close) :
    Close.Ends view hdr body w (dispatchOne server frame ordinal w).2 := by
  obtain ⟨w₁, before, after⟩ := dispatchOne_of_accepted server frame ordinal w hdr body accepted
    (by simp [cmd]) (by simp [cmd])
  have outcome := Close.handle_ends observed server hdr body w₁
  have handler : dispatchCommand server hdr body w₁ = Close.handle server hdr body w₁ := by
    simp only [dispatchCommand, cmd]
  rw [handler] at after
  cases outcome with
  | refused conn host =>
    exact .refused (after.conn.trans (conn.trans before.conn))
      (after.host.trans (host.trans before.host))
  | closed req target s admitted conn same host =>
    rw [before.conn] at admitted conn
    rw [before.host] at same
    exact .closed req target s admitted (after.conn.trans conn) same (after.host.trans host)

end

/-! ### One step of the system -/

namespace System

variable {view : σ → τ} (observed : Observed view)

omit [Host σ η] in
/-- An action that only asks, on one connection. -/
theorem still_onConn {α : Type} {m : Action (World σ η) α} (asks : Asking view m)
    (s : System σ η) (cid : UInt64) :
    view (s.onConn cid m).2.env.host = view s.env.host := by
  rw [onConn]
  split
  · rfl
  next conn live => exact asks ⟨conn, s.env⟩

omit [Host σ η] in
theorem still_onEach {m : Action (World σ η) Unit} (asks : Asking view m) (s : System σ η) :
    view (s.onEach m).env.host = view s.env.host := by
  rw [onEach]
  generalize s.conns.keys = cids
  induction cids generalizing s with
  | nil => rfl
  | cons cid rest ih => exact (ih _).trans (still_onConn asks s cid)

include observed in
/-- Outside of requests nothing changes the files. -/
theorem still_execute [Crypto] (s : System σ η) (step : Step)
    (noElement : ∀ cid e, step ≠ .element cid e) :
    view (s.execute step).env.host = view s.env.host := by
  cases step with
  | accept => rfl
  | hangup cid => rfl
  | element cid e => exact absurd rfl (noElement cid e)
  | smb1 cid chosen => exact still_onConn (observed.smb1_still s.server chosen) s cid
  | config op =>
    simp only [execute, configure]
    split
    · rfl
    next server sweep _ => exact still_onEach (observed.sweep_still sweep) { s with server := server }

/-! ### Every open -/

omit [Host σ η] in
/-- The open is live, on a tree of this share. -/
def HasOpen (s : System σ η) (share : ShareBindings) (file : Open η) : Prop :=
  ∃ cid conn sid tid tree fid, s.conns.lookup cid = some conn ∧
    conn.findTree sid tid = some tree ∧ tree.opens.lookup fid = some file ∧ tree.share = share

omit [Host σ η] in
/-- What is said of every live open. -/
def Opens (Q : ShareBindings → Open η → Prop) (s : System σ η) : Prop :=
  ∀ share file, s.HasOpen share file → Q share file

omit [Host σ η] in
theorem opens_iff {Q : ShareBindings → Open η → Prop} {s : System σ η} :
    s.Opens Q ↔ s.Conns fun _ conn => conn.EachTree (TreeConnect.EachOpen Q) := by
  constructor
  · intro each cid conn live sid tid tree found fid file there
    exact each tree.share file ⟨cid, conn, sid, tid, tree, fid, live, found, there, rfl⟩
  · rintro each share file ⟨cid, conn, sid, tid, tree, fid, live, found, there, rfl⟩
    exact each cid conn live sid tid tree found fid file there

omit [Host σ η] in
/-- The open that a request names is live. -/
theorem hasOpen_of_target {s : System σ η} {cid : UInt64} {conn : Connection η}
    (live : s.conns.lookup cid = some conn) {hdr : Smb2Header} {fid : FileId} {target : Target η}
    (found : lookupTarget conn hdr fid = .ok target) :
    s.HasOpen target.tree.share target.file := by
  obtain ⟨tree, file⟩ := (lookupTarget_eq_ok conn hdr fid target).mp found
  obtain ⟨-, -, there⟩ := (lookupSessionTree_eq_ok conn hdr target.tid target.tree).mp tree
  exact ⟨cid, conn, _, _, target.tree, fid, live, there, file, rfl⟩

/-- The rule for what is said of every live open with an eye to the state of the host: the step has
to keep it of the opens there are, and it has to hold of a new open and of a renamed one. -/
theorem Opens.execute [Crypto] {Q : σ → ShareBindings → Open η → Prop} {s : System σ η}
    (step : Step) (inv : s.Opens (Q s.env.host))
    (marked : ∀ host share file flag, Q host share file →
      Q host share { file with deleteOnClose := flag })
    (listed : ∀ host share file cursor, Q host share file →
      Q host share { file with searchState := some cursor })
    (kept : ∀ share file, s.HasOpen share file → Q s.env.host share file →
      Q (s.execute step).env.host share file)
    (created : ∀ conn hdr body plan inner info, s.Executes step conn hdr body →
      hdr.command = .create → Create.validate conn hdr body = .ok plan →
      (plan.tree.share.backend.open plan.path plan.opts s.env.host).1 = .ok inner →
      (s.execute step).env.host = (Host.stat inner
        (plan.tree.share.backend.open plan.path plan.opts s.env.host).2).2 →
      Q (s.execute step).env.host plan.tree.share (plan.file ⟨s.env.nextHandle, inner⟩ info))
    (renamed : ∀ conn hdr body target dst replace, s.Executes step conn hdr body →
      SetInfo.Reaches conn hdr body target (.rename dst replace) →
      (target.tree.share.backend.rename target.file.lastPath dst replace s.env.host).1 = .ok () →
      (s.execute step).env.host =
        (target.tree.share.backend.rename target.file.lastPath dst replace s.env.host).2 →
      Q (s.execute step).env.host target.tree.share { target.file with lastPath := dst }) :
    (s.execute step).Opens (Q (s.execute step).env.host) := by
  -- the opens there are, seen in the new state of the host
  have seen : s.Opens (Q (s.execute step).env.host) :=
    fun share file live => kept share file live (inv share file live)
  rw [opens_iff] at seen ⊢
  intro cid conn' found
  rcases s.execute_lookup step cid conn' found with
    ⟨-, -, rfl⟩ | ⟨conn, live, ⟨e, rfl, rfl⟩ | removed⟩
  · exact .new _ _ _ _
  · have before := seen cid conn live
    rcases dispatchOne_effect s.server e.bytes e.ordinal ⟨conn, s.env⟩ with
      same | ⟨hdr, body, accepted, run⟩
    · exact same.conn.symm ▸ before
    have executes : s.Executes (.element cid e) conn hdr body := ⟨cid, e, rfl, live, accepted⟩
    have env : (s.execute (.element cid e)).env =
        (dispatchOne s.server e.bytes e.ordinal ⟨conn, s.env⟩).2.env := by
      rw [System.execute, onConn_of_some s cid _ conn live]
    by_cases create : hdr.command = .create
    · rcases dispatchOne_create s.server e.bytes e.ordinal ⟨conn, s.env⟩ hdr body accepted
        create with same | ⟨plan, admitted, outcome⟩
      · exact same.conn.symm ▸ before
      cases outcome with
      | refused _ conn => exact conn.symm ▸ before
      | abandoned _ _ _ conn => exact conn.symm ▸ before
      | registered inner info opened host conn' =>
        obtain ⟨found, -⟩ := Create.validate_eq_ok conn hdr body plan admitted
        obtain ⟨-, -, there⟩ := (lookupSessionTree_eq_ok conn hdr plan.tid plan.tree).mp found
        have new := created conn hdr body plan inner info executes create admitted opened
          (env ▸ host)
        rw [conn']
        have counted := before.modifyTree hdr.sessionId plan.tid
          (fun tree => { tree with nextVolatile := tree.nextVolatile + 1 })
          fun tree _ good => good
        refine counted.modifyTree _ _ _ fun tree here good => good.insert _ _ ?_
        rw [Connection.findTree_modifyTree, if_pos ⟨rfl, rfl⟩, there] at here
        obtain rfl := Option.some.inj here
        exact new
    by_cases setInfo : hdr.command = .setInfo
    · cases dispatchOne_set s.server e.bytes e.ordinal ⟨conn, s.env⟩ accepted setInfo with
      | refused conn => exact conn.symm ▸ before
      | setTimes _ _ _ _ conn => exact conn.symm ▸ before
      | truncate _ _ _ _ conn => exact conn.symm ▸ before
      | disposition sid tid fid flag conn =>
        rw [conn]
        exact before.modifyTree _ _ _ fun tree _ good => good.modify fid _ fun file _ keeps =>
          marked _ tree.share file flag keeps
      | rename req target dst replace admitted decoded conn' host =>
        rw [conn']
        cases done : (target.tree.share.backend.rename target.file.lastPath dst replace
            s.env.host).1 with
        | error e => exact before
        | ok =>
          obtain ⟨-, -, found⟩ := (SetInfo.validate_eq_ok conn hdr body req target).mp admitted
          obtain ⟨tree, file⟩ := (lookupTarget_eq_ok conn hdr req.fileId target).mp found
          obtain ⟨-, -, there⟩ := (lookupSessionTree_eq_ok conn hdr target.tid target.tree).mp tree
          have moved := renamed conn hdr body target dst replace executes
            ⟨setInfo, req, admitted, decoded⟩ done (env ▸ host)
          refine before.modifyTree _ _ _ fun tree here good =>
            good.modify _ _ fun file' here' _ => ?_
          obtain rfl := Option.some.inj (there.symm.trans here)
          obtain rfl := Option.some.inj (file.symm.trans here')
          exact moved
    · exact Edits.eachOpen run.conn create setInfo (listed _) before
  · have before := seen cid conn live
    clear found
    induction removed with
    | refl => exact before
    | tail _ r ih => exact ih.removal r

end System

end SmbServer
