import SmbServer.Effects.Answer
import SmbServer.Effects.Calls
import SmbServer.Effects.System

/-!
# SmbServer.Effects.Failure

What a handler that answers with anything but STATUS_SUCCESS has done to its world. A handler is a
sequence of steps that leave the tables alone, followed by an update behind which nothing can fail;
the rules of this module follow that shape.
-/

namespace SmbServer

open Lib

variable {σ η : Type}

/-- A step that leaves the tables of opens alone; SESSION_SETUP may consume the acceptor that waits
under the id it names. -/
structure Kept (hdr : Smb2Header) (conn conn' : Connection η) : Prop where
  sessions : conn'.sessions = conn.sessions
  dialect : conn'.dialect = conn.dialect
  signingAlgo : conn'.signingAlgo = conn.signingAlgo
  clientGuid : conn'.clientGuid = conn.clientGuid
  acceptors : ∀ sid, conn'.pendingAuths.lookup sid = conn.pendingAuths.lookup sid ∨
    (hdr.command = .sessionSetup ∧ sid = hdr.sessionId ∧ conn'.pendingAuths.lookup sid = none)

namespace Kept

variable {hdr : Smb2Header} {a b c : Connection η}

theorem refl (conn : Connection η) : Kept hdr conn conn := ⟨rfl, rfl, rfl, rfl, fun _ => .inl rfl⟩

theorem trans (first : Kept hdr a b) (second : Kept hdr b c) : Kept hdr a c where
  sessions := second.sessions.trans first.sessions
  dialect := second.dialect.trans first.dialect
  signingAlgo := second.signingAlgo.trans first.signingAlgo
  clientGuid := second.clientGuid.trans first.clientGuid
  acceptors := by
    intro sid
    rcases second.acceptors sid with same | consumed
    · rw [same]
      exact first.acceptors sid
    · exact .inr consumed

theorem of_edits (edits : Relation.ReflTransGen (Kept hdr) a b) : Kept hdr a b := by
  induction edits with
  | refl => exact .refl a
  | tail _ last ih => exact ih.trans last

end Kept

/-- Where a cursor is stored depends on the sessions only. -/
theorem storeCursor_congr {conn conn' : Connection η} {sid : UInt64} {tid : UInt32} {fid : FileId}
    {cursor : DirCursor} (same : conn'.sessions = conn.sessions) :
    (QueryDirectory.storeCursor sid tid fid cursor conn').sessions =
      (QueryDirectory.storeCursor sid tid fid cursor conn).sessions := by
  simp only [QueryDirectory.storeCursor, Connection.modifyOpen, Connection.modifyOpens,
    Connection.modifyTree, Connection.modifySession, same]

/-- A cursor behind its last entry. -/
def DirCursor.Exhausted (cursor : DirCursor) : Prop := cursor.entries.length ≤ cursor.next

/-- A request with this status left the tables intact: STATUS_NO_MORE_FILES may leave an exhausted
cursor in the open that it was asked about, a SESSION_SETUP may consume its acceptor, and every
handle that was opened is closed again. -/
structure Intact (hdr : Smb2Header) (status : NtStatus) (w w' : World σ η) : Prop where
  tables : w'.conn.sessions = w.conn.sessions ∨
    (status = statusNoMoreFiles ∧ ∃ tid fid cursor, cursor.Exhausted ∧
      w'.conn.sessions =
        (QueryDirectory.storeCursor hdr.sessionId tid fid cursor w.conn).sessions)
  dialect : w'.conn.dialect = w.conn.dialect
  signingAlgo : w'.conn.signingAlgo = w.conn.signingAlgo
  clientGuid : w'.conn.clientGuid = w.conn.clientGuid
  acceptors : status ≠ statusMoreProcessingRequired → ∀ sid,
    w'.conn.pendingAuths.lookup sid = w.conn.pendingAuths.lookup sid ∨
      (hdr.command = .sessionSetup ∧ sid = hdr.sessionId ∧
        w'.conn.pendingAuths.lookup sid = none)
  handles : ∃ new, w'.env.calls = w.env.calls ++ new ∧ ∀ c ∈ new, ∀ serial,
    c.opened = some serial → ∃ c' ∈ new, c'.call = .close serial

/-- A step that leaves the tables alone and opens nothing. -/
abbrev Quiet (hdr : Smb2Header) : World σ η → World σ η → Prop :=
  Effect (Kept hdr) fun c => c.opened = none

section
variable {hdr : Smb2Header} {status : NtStatus} {w w' w'' : World σ η}

theorem Quiet.intact (h : Quiet hdr w w') : Intact hdr status w w' := by
  have kept := Kept.of_edits h.conn
  obtain ⟨new, grown, opens⟩ := h.calls
  refine ⟨.inl kept.sessions, kept.dialect, kept.signingAlgo, kept.clientGuid,
    fun _ => kept.acceptors, new, grown, fun c member serial opened => ?_⟩
  rw [opens c member] at opened
  cases opened

theorem Quiet.then_intact (first : Quiet hdr w w') (second : Intact hdr status w' w'') :
    Intact hdr status w w'' := by
  have kept := Kept.of_edits first.conn
  obtain ⟨new, grown, opens⟩ := first.calls
  obtain ⟨new', grown', closes⟩ := second.handles
  refine ⟨?_, second.dialect.trans kept.dialect, second.signingAlgo.trans kept.signingAlgo,
    second.clientGuid.trans kept.clientGuid, fun other sid => ?_, new ++ new', ?_, ?_⟩
  · rcases second.tables with same | ⟨noMore, tid, fid, cursor, exhausted, stored⟩
    · exact .inl (same.trans kept.sessions)
    · refine .inr ⟨noMore, tid, fid, cursor, exhausted, stored.trans ?_⟩
      exact storeCursor_congr kept.sessions
  · rcases second.acceptors other sid with same | consumed
    · rw [same]
      exact kept.acceptors sid
    · exact .inr consumed
  · rw [grown', grown, List.append_assoc]
  -- what is opened behind the quiet part is closed there too
  · intro c member serial opened
    rcases List.mem_append.mp member with before | after
    · rw [opens c before] at opened
      cases opened
    · obtain ⟨c', there, closed⟩ := closes c after serial opened
      exact ⟨c', List.mem_append_right _ there, closed⟩

theorem Intact.then_quiet (first : Intact hdr status w w') (second : Quiet hdr w' w'') :
    Intact hdr status w w'' := by
  have kept := Kept.of_edits second.conn
  obtain ⟨new, grown, closes⟩ := first.handles
  obtain ⟨new', grown', opens⟩ := second.calls
  refine ⟨?_, kept.dialect.trans first.dialect, kept.signingAlgo.trans first.signingAlgo,
    kept.clientGuid.trans first.clientGuid, fun other sid => ?_, new ++ new', ?_, ?_⟩
  · rw [kept.sessions]
    exact first.tables
  · rcases kept.acceptors sid with same | consumed
    · rw [same]
      exact first.acceptors other sid
    · exact .inr consumed
  · rw [grown', grown, List.append_assoc]
  -- the quiet part opens nothing, so it leaves nothing to close
  · intro c member serial opened
    rcases List.mem_append.mp member with before | after
    · obtain ⟨c', there, closed⟩ := closes c before serial opened
      exact ⟨c', List.mem_append_left _ there, closed⟩
    · rw [opens c after] at opened
      cases opened

end

/-! ### Handlers that fail -/

/-- A handler that fails asks for no snapshot and leaves the tables intact. -/
def FailsIntact (hdr : Smb2Header) (m : Action (World σ η) HandlerResponse) : Prop :=
  ∀ w, (m w).1.status ≠ statusSuccess →
    (m w).1.takePreauthSnapshotForSession = none ∧ Intact hdr (m w).1.status w (m w).2

namespace FailsIntact

variable {hdr : Smb2Header} {α : Type}

theorem err (status : NtStatus) :
    FailsIntact hdr (return .err status : Action (World σ η) HandlerResponse) :=
  fun w _ => ⟨rfl, Quiet.intact (Effect.refl w)⟩

/-- What cannot fail. -/
theorem of_success {m : Action (World σ η) HandlerResponse}
    (success : Action.Returns (fun r => r.status = statusSuccess) m) : FailsIntact hdr m :=
  fun w failed => absurd (success w) failed

theorem ok (body : Bytes) :
    FailsIntact hdr (return .ok body : Action (World σ η) HandlerResponse) :=
  of_success (.pure rfl)

theorem bind {m : Action (World σ η) α} {f : α → Action (World σ η) HandlerResponse}
    (first : Action.Moves (Quiet hdr) m) (rest : ∀ a, FailsIntact hdr (f a)) :
    FailsIntact hdr (m >>= f) := by
  intro w failed
  obtain ⟨noSnapshot, intact⟩ := rest (m w).1 (m w).2 failed
  exact ⟨noSnapshot, (first w).then_intact intact⟩

/-- MORE_PROCESSING_REQUIRED is the one status that leaves a new acceptor behind. -/
theorem moreProcessing (sid : UInt64) (pending : NtlmServer × Bool) (resp : HandlerResponse)
    (more : resp.status = statusMoreProcessingRequired)
    (noSnapshot : resp.takePreauthSnapshotForSession = none) :
    FailsIntact hdr (do
      modifyConn fun conn => { conn with pendingAuths := conn.pendingAuths.insert sid pending }
      return resp : Action (World σ η) HandlerResponse) :=
  fun _ _ => ⟨noSnapshot, .inl rfl, rfl, rfl, rfl, fun other => absurd more other, [],
    (List.append_nil _).symm, by simp⟩

end FailsIntact

variable [Host σ η]

/-! ### Sessions and trees -/

section
variable {server : ServerState} {hdr : Smb2Header} {body : Bytes}

theorem Negotiate.handle_failsIntact :
    FailsIntact hdr (Negotiate.handle server body : Action (World σ η) HandlerResponse) := by
  rw [Negotiate.handle]
  split
  · exact .err _
  split
  · exact .err _
  split
  · exact .err _
  -- behind the commit nothing can fail
  refine .of_success (.bind fun _ => ?_)
  split
  · exact .bind fun _ => .bind fun _ => .bind fun _ => .bind fun _ => .pure rfl
  · exact .bind fun _ => .bind fun _ => .bind fun _ => .pure rfl

theorem SessionSetup.firstRound_failsIntact (token : SessionSetup.Token) :
    FailsIntact hdr
      (SessionSetup.firstRound server token : Action (World σ η) HandlerResponse) := by
  refine .bind ?_ fun sid => ?_
  · exact fun w => ⟨.single ⟨rfl, rfl, rfl, rfl, fun _ => .inl rfl⟩,
      ⟨[], by simp [SessionSetup.allocSessionId]⟩, Nat.le_refl _⟩
  refine .bind (Effect.fillRandom _) fun challenge => ?_
  refine .bind Effect.nowFiletime fun now => ?_
  dsimp only
  cases NtlmServer.step1Negotiate _ token.innerToken with
  | none => exact .err _
  | some acceptor =>
    exact .moreProcessing _ _ _ rfl rfl

omit [Host σ η] in
theorem SessionSetup.finalRound_failsIntact [Crypto] (cmd : hdr.command = .sessionSetup)
    (token : SessionSetup.Token) :
    FailsIntact hdr (SessionSetup.finalRound server hdr.sessionId token :
      Action (World σ η) HandlerResponse) := by
  rw [SessionSetup.finalRound]
  split
  · exact .err _
  -- the acceptor is consumed whether or not the token is accepted
  refine .bind ?_ fun pending => ?_
  · intro w
    rw [SessionSetup.takeAcceptor]
    split
    · refine ⟨.single ⟨rfl, rfl, rfl, rfl, fun sid => ?_⟩, ⟨[], by simp⟩, Nat.le_refl _⟩
      simp only [World.setConn_conn, Table.lookup_erase]
      split
      next named => exact .inr ⟨cmd, named, rfl⟩
      next => exact .inl rfl
    · exact Effect.refl w
  split
  · exact .err _
  split
  · exact .err _
  refine .bind Effect.getConn fun conn => ?_
  split
  · exact .err _
  · exact .of_success (.bind fun _ => .pure rfl)

theorem SessionSetup.handle_failsIntact [Crypto] (cmd : hdr.command = .sessionSetup) :
    FailsIntact hdr
      (SessionSetup.handle server hdr body : Action (World σ η) HandlerResponse) := by
  rw [SessionSetup.handle]
  split
  · exact .err _
  split
  · exact SessionSetup.firstRound_failsIntact _
  · exact SessionSetup.finalRound_failsIntact cmd _

theorem Logoff.handle_failsIntact :
    FailsIntact hdr (Logoff.handle hdr : Action (World σ η) HandlerResponse) := by
  rw [Logoff.handle]
  split
  · exact .err _
  · exact .of_success (.bind fun _ => .pure rfl)

theorem TreeConnect.handle_failsIntact :
    FailsIntact hdr
      (TreeConnect.handle server hdr body : Action (World σ η) HandlerResponse) := by
  rw [TreeConnect.handle]
  split
  · exact .err _
  refine .bind Effect.getConn fun conn => ?_
  split
  · exact .err _
  split
  · exact .err _
  split
  · exact .err _
  · exact .of_success (.bind fun _ => .bind fun _ => .pure rfl)

theorem TreeDisconnect.handle_failsIntact :
    FailsIntact hdr (TreeDisconnect.handle hdr : Action (World σ η) HandlerResponse) := by
  rw [TreeDisconnect.handle]
  split
  · exact .err _
  next tid _ =>
  refine .bind Effect.getConn fun conn => ?_
  split
  · exact .err _
  intro w
  -- a tree that is not there is the only reason to fail behind this point
  cases found : w.conn.findTree hdr.sessionId tid with
  | none =>
    have absent : Connection.closeTree hdr.sessionId tid w = (false, w) := by
      simp only [Connection.closeTree, removeTreeFromSession, Action.bind_apply, getConn_apply,
        found, Action.pure_apply]
    simp only [Action.bind_apply, absent]
    exact FailsIntact.err _ w
  | some tree =>
    have closed : (Connection.closeTree hdr.sessionId tid w).1 = true := by
      simp only [Connection.closeTree, removeTreeFromSession, Action.bind_apply, getConn_apply,
        found, Action.pure_apply]
    simp only [Action.bind_apply, closed]
    exact fun failed => absurd rfl failed

/-! ### Files -/

/-- A CREATE that cannot stat what it opened closes it again. -/
theorem Create.perform_failsIntact (plan : Create.Plan η) :
    FailsIntact hdr
      (Create.perform server hdr.sessionId plan : Action (World σ η) HandlerResponse) := by
  intro w
  cases opened : plan.tree.share.backend.open plan.path plan.opts w.env.host with
  | mk answer host =>
    cases answer with
    | error e =>
      -- the backend's refusal is an open without a handle
      have refused : Quiet hdr w ((w.setHost host).addCall (plan.opening hdr.sessionId none)) :=
        ⟨.refl, ⟨[_], rfl, by simp [Create.Plan.opening, Issued.opened]⟩, Nat.le_refl _⟩
      simp only [Create.perform, Action.bind_apply, backendOpen, opened]
      intro failed
      have recorded : FailsIntact hdr (do
          record server.traceSink (Create.traceEvent plan.req plan.path plan.opts none)
          return .ofError e : Action (World σ η) HandlerResponse) :=
        .bind (Effect.record _ _) fun _ => .err _
      obtain ⟨noSnapshot, intact⟩ := recorded _ failed
      exact ⟨noSnapshot, refused.then_intact intact⟩
    | ok inner =>
      cases stat : Host.stat inner host with
      | mk info host' =>
        simp only [Create.perform, Action.bind_apply, backendOpen, opened, Boxed.stat, issue_apply,
          World.addCall_host, World.setHost_host, stat]
        cases info with
        | error e =>
          intro _
          refine ⟨rfl, ?_⟩
          simp only [Action.bind_apply, Boxed.close, issue_apply, Action.pure_apply]
          refine Intact.then_quiet ?_ (alike_record _ _ _).effect
          refine ⟨.inl rfl, rfl, rfl, rfl, fun _ _ => .inl rfl,
            [plan.opening hdr.sessionId (some w.env.nextHandle),
              ⟨plan.through hdr.sessionId, .stat w.env.nextHandle⟩,
              ⟨plan.through hdr.sessionId, .close w.env.nextHandle⟩], ?_, ?_⟩
          · simp only [World.addCall_calls, World.setHost_calls, List.append_assoc]
            rfl
          · intro c member serial hopened
            simp only [List.mem_cons, List.not_mem_nil, or_false] at member
            -- the open is followed by its close; the other two calls open nothing
            rcases member with rfl | rfl | rfl
            · obtain rfl := Option.some.inj hopened
              exact ⟨⟨plan.through hdr.sessionId, .close w.env.nextHandle⟩, by simp, rfl⟩
            · cases hopened
            · cases hopened
        | ok info =>
          simp only [Action.bind_apply, Action.pure_apply]
          exact fun failed => absurd rfl failed

theorem Create.handle_failsIntact :
    FailsIntact hdr (Create.handle server hdr body : Action (World σ η) HandlerResponse) := by
  refine .bind Effect.getConn fun conn => ?_
  split
  · exact .err _
  · exact Create.perform_failsIntact _

theorem Close.handle_failsIntact :
    FailsIntact hdr (Close.handle server hdr body : Action (World σ η) HandlerResponse) := by
  refine .bind Effect.getConn fun conn => ?_
  split
  · exact .err _
  refine .of_success (.bind fun _ => .bind fun _ => .bind fun _ => ?_)
  dsimp only
  split <;> split <;>
    first
    | exact .bind fun _ => .bind fun _ => .pure rfl
    | exact .bind fun _ => .pure rfl
    | exact .pure rfl

theorem Flush.handle_failsIntact :
    FailsIntact hdr (Flush.handle hdr body : Action (World σ η) HandlerResponse) := by
  rw [Flush.handle]
  split
  · exact .err _
  refine .bind Effect.getConn fun _ => ?_
  split
  · exact .err _
  split
  · exact .err _
  refine .bind (Effect.issue _ _ _ rfl) fun answer => ?_
  cases answer
  · exact .err _
  · exact .ok _

theorem Read.handle_failsIntact :
    FailsIntact hdr (Read.handle hdr body : Action (World σ η) HandlerResponse) := by
  rw [Read.handle]
  split
  · exact .err _
  refine .bind Effect.getConn fun _ => ?_
  split
  · exact .err _
  split
  · exact .err _
  split
  · exact .err _
  -- one call of the backend, and it opens nothing
  refine .bind (Effect.issue _ _ _ rfl) fun answer => ?_
  cases answer with
  | error e => exact .err _
  | ok bytes =>
    dsimp only
    split
    · exact .err _
    · exact .ok _

theorem Write.handle_failsIntact :
    FailsIntact hdr (Write.handle server hdr body : Action (World σ η) HandlerResponse) := by
  rw [Write.handle]
  split
  · exact .err _
  refine .bind (Effect.record _ _) fun _ => .bind Effect.getConn fun _ => ?_
  split
  · exact .err _
  refine .bind (Effect.issue _ _ _ rfl) fun answer => ?_
  cases answer
  · exact .err _
  · exact .ok _

omit [Host σ η] in
theorem Ioctl.handle_failsIntact :
    FailsIntact hdr (Ioctl.handle server body : Action (World σ η) HandlerResponse) := by
  rw [Ioctl.handle]
  split
  · exact .err _
  refine .bind Effect.getConn fun _ => ?_
  split
  · exact .ok _
  all_goals exact .err _

theorem QueryInfo.handle_failsIntact :
    FailsIntact hdr (QueryInfo.handle hdr body : Action (World σ η) HandlerResponse) := by
  refine .bind Effect.getConn fun _ => ?_
  split
  · exact .err _
  refine .bind (Effect.issue _ _ _ rfl) fun _ => ?_
  dsimp only
  split
  · exact .err _
  · rw [QueryInfo.respond]
    split
    · exact .err _
    · exact .ok _

theorem SetInfo.handle_failsIntact :
    FailsIntact hdr (SetInfo.handle server hdr body : Action (World σ η) HandlerResponse) := by
  have respond (result : SmbResult Unit) :
      FailsIntact hdr (return SetInfo.respond result : Action (World σ η) HandlerResponse) := by
    cases result
    · exact .err _
    · exact .ok _
  -- an update of the connection stands behind a call that has succeeded, or alone
  have performed (fid : FileId) (target : Target η) (op : SetInfo.Operation η) :
      FailsIntact hdr
        (SetInfo.perform server hdr.sessionId fid target op : Action (World σ η) _) := by
    cases op with
    | setTimes h times => exact .bind (Effect.issue _ _ _ rfl) fun _ => respond _
    | truncate h len => exact .bind (Effect.issue _ _ _ rfl) fun _ => respond _
    | disposition flag => exact .of_success (.bind fun _ => .pure rfl)
    | rename path replace =>
      refine .bind (Effect.record _ _) fun _ => .bind (Effect.issue _ _ _ rfl) fun answer => ?_
      cases answer with
      | error e => exact .err _
      | ok => exact .of_success (.bind fun _ => .pure rfl)
    | allocation => exact .ok _
  refine .bind Effect.getConn fun _ => ?_
  split
  · exact .err _
  -- every class but a rename is traced in front of its decoding
  dsimp only
  split
  · refine .bind (Effect.record _ _) fun _ => ?_
    split
    · exact .err _
    · exact performed _ _ _
  · split
    · exact .err _
    · exact performed _ _ _

/-! ### QUERY_DIRECTORY -/

section
variable {η : Type}

theorem QueryDirectory.Output.buf_push (out : Output) (bytes : Bytes) (some : bytes ≠ []) :
    (out.push bytes).buf ≠ [] := by
  simp only [Output.push]
  intro empty
  obtain ⟨front, -⟩ := List.append_eq_nil_iff.mp empty
  exact some (List.append_eq_nil_iff.mp front).2

/-- Nothing is taken out of the buffer. -/
theorem QueryDirectory.fill_nonempty (infoClass : UInt8) (cap : Nat) (single : Bool)
    (entries : List DirEntry) (out : Output) (some : out.buf ≠ []) :
    (fill infoClass cap single entries out).1.buf ≠ [] := by
  induction entries generalizing out with
  | nil => exact some
  | cons entry rest ih =>
    rw [fill]
    dsimp only
    split
    · exact ih out some
    split
    · exact some
    next encoded _ =>
    have pushed : (out.push (InfoClass.encodeDirEntry infoClass entry
        entry.info.fileIndex)).buf ≠ [] :=
      out.buf_push _ (by simpa using encoded)
    split
    · exact pushed
    · exact ih _ pushed

/-- When nothing was encoded, every entry was passed over. -/
theorem QueryDirectory.fill_empty (infoClass : UInt8) (cap : Nat) (single : Bool)
    (entries : List DirEntry)
    (empty : (fill infoClass cap single entries ⟨[], none⟩).1.buf = []) :
    (fill infoClass cap single entries ⟨[], none⟩).2 = entries.length := by
  induction entries with
  | nil => rfl
  | cons entry rest ih =>
    rw [fill] at empty ⊢
    dsimp only at empty ⊢
    split
    next skipped =>
      rw [if_pos skipped] at empty
      rw [ih empty, List.length_cons]
    next encoded =>
      rw [if_neg encoded] at empty
      -- an entry that is encoded leaves the buffer nonempty, whatever follows
      have pushed : (Output.push ⟨[], none⟩ (InfoClass.encodeDirEntry infoClass entry
          entry.info.fileIndex)).buf ≠ [] :=
        Output.buf_push _ _ (by simpa using encoded)
      simp only [List.isEmpty_nil, Bool.not_true, Bool.and_false, Bool.false_eq_true,
        if_false] at empty
      split at empty
      · exact absurd empty pushed
      · exact absurd empty (fill_nonempty _ _ _ _ _ pushed)

theorem storeCursor_storeCursor (conn : Connection η) (sid : UInt64) (tid : UInt32)
    (fid : FileId) (first second : DirCursor) :
    QueryDirectory.storeCursor sid tid fid second
        (QueryDirectory.storeCursor sid tid fid first conn) =
      QueryDirectory.storeCursor sid tid fid second conn := by
  simp only [QueryDirectory.storeCursor, Connection.modifyOpen, Connection.modifyOpens,
    Connection.modifyTree, Connection.modifySession, Table.modify_modify, Function.comp_def]

end

omit [Host σ η] in
/-- What a scan that finds nothing more has stored. -/
theorem QueryDirectory.emit_failed (req : QueryDirectoryRequest) (target : Target η)
    (w : World σ η)
    (failed : (QueryDirectory.emit hdr.sessionId req target w).1.status ≠ statusSuccess) :
    (QueryDirectory.emit hdr.sessionId req target w).1 = .err statusNoMoreFiles ∧
      (((w.conn.findOpen hdr.sessionId target.tid req.fileId).bind (·.searchState) = none ∧
          Alike w (QueryDirectory.emit hdr.sessionId req target w).2) ∨
        ∃ cursor : DirCursor, cursor.Exhausted ∧
          (QueryDirectory.emit hdr.sessionId req target w).2 = w.setConn
            (QueryDirectory.storeCursor hdr.sessionId target.tid req.fileId cursor w.conn)) := by
  revert failed
  simp only [QueryDirectory.emit, Action.bind_apply, getConn_apply]
  cases (w.conn.findOpen hdr.sessionId target.tid req.fileId).bind (·.searchState) with
  | none => exact fun _ => ⟨rfl, .inl ⟨rfl, rfl, rfl, rfl, rfl⟩⟩
  | some cursor =>
    have scanned := QueryDirectory.fill_empty req.fileInformationClass
      req.outputBufferLength.toNat (QueryDirectory.singleEntry req)
      (cursor.entries.drop cursor.next)
    cases filled : QueryDirectory.fill req.fileInformationClass req.outputBufferLength.toNat
      (QueryDirectory.singleEntry req) (cursor.entries.drop cursor.next) ⟨[], none⟩ with
    | mk out moved =>
    rw [filled] at scanned
    simp only [filled, Action.bind_apply, modifyConn_apply] at scanned ⊢
    intro failed
    -- STATUS_NO_MORE_FILES is the one way to fail, with the cursor moved to the end
    by_cases empty : out.buf.isEmpty = true
    · simp only [empty, if_true]
      refine ⟨rfl, .inr ⟨_, ?_, rfl⟩⟩
      have passed := scanned (by simpa using empty)
      simp only [DirCursor.Exhausted, passed, List.length_drop]
      omega
    · simp only [empty] at failed
      exact absurd rfl failed

/-- Loading the cursor: it fails without an update, or the cursor is what it stores. -/
theorem QueryDirectory.populate_cases (hdr : Smb2Header) (req : QueryDirectoryRequest)
    (target : Target η) (w : World σ η) :
    (∃ status, (QueryDirectory.populate hdr.sessionId req target w).1 = .error status ∧
        Quiet hdr w (QueryDirectory.populate hdr.sessionId req target w).2) ∨
      ((QueryDirectory.populate hdr.sessionId req target w).1 = .ok () ∧
        ∃ w₁, Quiet hdr w w₁ ∧ ((QueryDirectory.populate hdr.sessionId req target w).2 = w₁ ∨
          ∃ cursor, (QueryDirectory.populate hdr.sessionId req target w).2 = w₁.setConn
            (QueryDirectory.storeCursor hdr.sessionId target.tid req.fileId cursor w₁.conn))) := by
  rw [QueryDirectory.populate]
  split
  · exact .inr ⟨rfl, w, Effect.refl w, .inl rfl⟩
  cases target.file.handle with
  | none => exact .inl ⟨_, rfl, Effect.refl w⟩
  | some h =>
  -- the listing opens nothing; it is generalised because only its answer matters
  have listed := Effect.issue (E := Kept hdr) (Q := fun c => c.opened = none)
    (target.origin hdr.sessionId) (.listDir h.serial (patternOf req))
    (Host.listDir (σ := σ) h.inner (patternOf req)) rfl w
  simp only [Action.bind_apply, Boxed.listDir]
  revert listed
  generalize issue (target.origin hdr.sessionId) (.listDir h.serial (patternOf req))
    (Host.listDir (σ := σ) h.inner (patternOf req)) w = result
  obtain ⟨answer, w₁⟩ := result
  intro listed
  cases answer with
  | error e => exact .inl ⟨_, rfl, listed⟩
  | ok entries => exact .inr ⟨rfl, w₁, listed, .inr ⟨_, rfl⟩⟩

omit [Host σ η] in
/-- Storing an exhausted cursor is all that STATUS_NO_MORE_FILES leaves. -/
theorem stored_intact (tid : UInt32) (fid : FileId) (cursor : DirCursor)
    (exhausted : cursor.Exhausted) (w : World σ η) :
    Intact hdr statusNoMoreFiles w
      (w.setConn (QueryDirectory.storeCursor hdr.sessionId tid fid cursor w.conn)) :=
  ⟨.inr ⟨rfl, tid, fid, cursor, exhausted, rfl⟩, rfl, rfl, rfl, fun _ _ => .inl rfl, [],
    (List.append_nil _).symm, by simp⟩

theorem QueryDirectory.handle_failsIntact :
    FailsIntact hdr (QueryDirectory.handle hdr body : Action (World σ η) HandlerResponse) := by
  intro w
  simp only [QueryDirectory.handle, Action.bind_apply, getConn_apply]
  cases admitted : QueryDirectory.validate w.conn hdr body with
  | error status => exact FailsIntact.err _ w
  | ok pair =>
    obtain ⟨req, target⟩ := pair
    obtain ⟨-, there, -⟩ := QueryDirectory.validate_eq_ok w.conn req target admitted
    have outcome := QueryDirectory.populate_cases hdr req target w
    simp only [Action.bind_apply]
    revert outcome
    generalize QueryDirectory.populate hdr.sessionId req target w = result
    obtain ⟨answer, loaded⟩ := result
    rintro (⟨status, rfl, quiet⟩ | ⟨rfl, w₁, quiet, stored⟩) failed
    · exact ⟨rfl, Quiet.intact quiet⟩
    · obtain ⟨status, emitted⟩ := QueryDirectory.emit_failed req target loaded failed
      dsimp only
      rw [status]
      refine ⟨rfl, quiet.then_intact ?_⟩
      -- the cursor was there before, or it has just been loaded
      rcases stored with rfl | ⟨first, rfl⟩
      · rcases emitted with ⟨-, same⟩ | ⟨cursor, exhausted, after⟩
        · exact Quiet.intact same.effect
        · rw [after]
          exact stored_intact _ _ _ exhausted _
      · rcases emitted with ⟨missing, -⟩ | ⟨cursor, exhausted, after⟩
        · -- the open is there, and the cursor has just been stored in it
          exfalso
          have live : w₁.conn.findOpen hdr.sessionId target.tid req.fileId = some target.file := by
            rw [Connection.findOpen, Connection.findTree, (Kept.of_edits quiet.conn).sessions]
            exact findOpen_of_lookupTarget w.conn hdr req.fileId target there
          rw [World.setConn_conn, QueryDirectory.storeCursor, Connection.findOpen_modifyOpen,
            if_pos ⟨rfl, rfl, rfl⟩, live] at missing
          cases missing
        · rw [after, World.setConn_conn, storeCursor_storeCursor]
          exact stored_intact _ _ _ exhausted _

end

variable [Crypto]

/-! ### The router and the hashing around it -/

theorem dispatchCommand_failsIntact (server : ServerState) (hdr : Smb2Header) (body : Bytes) :
    FailsIntact hdr (dispatchCommand server hdr body : Action (World σ η) HandlerResponse) := by
  rw [dispatchCommand]
  cases cmd : hdr.command with
  | negotiate => exact Negotiate.handle_failsIntact
  | sessionSetup => exact SessionSetup.handle_failsIntact cmd
  | logoff => exact Logoff.handle_failsIntact
  | treeConnect => exact TreeConnect.handle_failsIntact
  | treeDisconnect => exact TreeDisconnect.handle_failsIntact
  | create => exact Create.handle_failsIntact
  | close => exact Close.handle_failsIntact
  | flush => exact Flush.handle_failsIntact
  | read => exact Read.handle_failsIntact
  | write => exact Write.handle_failsIntact
  | ioctl => exact Ioctl.handle_failsIntact
  | queryDirectory => exact QueryDirectory.handle_failsIntact
  | queryInfo => exact QueryInfo.handle_failsIntact
  | setInfo => exact SetInfo.handle_failsIntact
  | lock | echo | oplockBreak => exact .ok _
  | changeNotify | cancel => exact .err _

section
variable {hdr : Smb2Header}

omit [Host σ η] in
theorem updatePreauth_quiet (bytes : Bytes) :
    Action.Moves (Quiet hdr) (updatePreauth bytes : Action (World σ η) Unit) :=
  Effect.modifyConn fun _ => ⟨rfl, rfl, rfl, rfl, fun _ => .inl rfl⟩

omit [Host σ η] in
theorem preauthBefore_quiet (frame : Bytes) :
    Action.Moves (Quiet hdr) (preauthBefore hdr frame : Action (World σ η) _) := by
  refine Effect.bind Effect.getConn fun conn => ?_
  split
  · exact Effect.bind (updatePreauth_quiet frame) fun _ => Effect.pure _
  split
  · refine Effect.bind (fun w => ?_) fun _ => Effect.pure _
    rw [takeSessionPreauth]
    split
    · exact ⟨.single ⟨rfl, rfl, rfl, rfl, fun _ => .inl rfl⟩, ⟨[], by simp⟩, Nat.le_refl _⟩
    · exact Effect.refl w
  · exact Effect.pure _

omit [Host σ η] in
theorem preauthAfter_quiet (dialect : Option Dialect) (sessionPreauth : Option PreauthIntegrity)
    (bytes : Bytes) :
    Action.Moves (Quiet hdr)
      (preauthAfter hdr dialect sessionPreauth bytes : Action (World σ η) _) := by
  unfold preauthAfter
  split
  · exact updatePreauth_quiet bytes
  split
  · split
    · split
      · exact Effect.pure _
      · exact Effect.modifyConn fun _ => ⟨rfl, rfl, rfl, rfl, fun _ => .inl rfl⟩
    · exact Effect.modifyConn fun _ => ⟨rfl, rfl, rfl, rfl, fun _ => .inl rfl⟩
  · exact Effect.pure _

end

/-- A request that is answered with anything but STATUS_SUCCESS leaves the tables intact. -/
theorem runHandler_failed (server : ServerState) (hdr : Smb2Header) (frame body : Bytes)
    (w : World σ η)
    (failed : readU32 (runHandler server hdr frame body w).1 0x08 ≠ statusSuccess) :
    Intact hdr (readU32 (runHandler server hdr frame body w).1 0x08) w
      (runHandler server hdr frame body w).2 := by
  simp only [runHandler, Action.bind_apply, getConn_apply, Action.pure_apply,
    readU32_status_buildResponseBytes] at failed ⊢
  -- the transcript in front of the handler and behind it is no table
  have before : Quiet hdr w _ := preauthBefore_quiet frame w
  have handled := dispatchCommand_failsIntact server hdr body (preauthBefore hdr frame w).2
  revert failed handled
  generalize dispatchCommand server hdr body (preauthBefore hdr frame w).2 = result
  obtain ⟨resp, w₂⟩ := result
  intro failed handled
  obtain ⟨noSnapshot, intact⟩ := handled failed
  have recorded (w : World σ η) (event : TraceEvent) :
      Quiet hdr w (record server.traceSink event w).2 := (alike_record _ _ w).effect
  dsimp only at intact ⊢
  rw [takeSnapshot_of_none _ noSnapshot]
  refine ((before.then_intact intact).then_quiet (recorded w₂ (.response resp.status))).then_quiet ?_
  exact preauthAfter_quiet _ _ _ _

end SmbServer
