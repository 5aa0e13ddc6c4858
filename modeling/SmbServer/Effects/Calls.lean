import SmbServer.Effects.Dispatch

/-!
# SmbServer.Effects.Calls

The converse of `Warrant` for the requests that change files through an open: once SET_INFO, WRITE
or CLOSE is admitted, the call it stands for is made.
-/

namespace SmbServer

open Lib

variable {σ η : Type} [Host σ η]

/-- The call that a SET_INFO operation makes. -/
def SetInfo.Operation.call (target : Target η) : SetInfo.Operation η → Option BackendCall
  | .setTimes h times => some (.setTimes h.serial times)
  | .truncate h len => some (.truncate h.serial len)
  | .rename dst replace =>
    some (.rename target.tree.share.backend target.file.lastPath dst replace)
  | .disposition _ => none
  | .allocation => none

/-! ### The handlers -/

theorem SetInfo.perform_calls (server : ServerState) (sid : UInt64) (fid : FileId)
    (target : Target η) (op : SetInfo.Operation η) (w : World σ η) :
    (SetInfo.perform server sid fid target op w).2.env.calls =
      w.env.calls ++ (op.call target).toList.map (Issued.mk (target.origin sid)) := by
  cases op with
  | setTimes h times => rfl
  | truncate h len => rfl
  | disposition flag => exact (List.append_nil _).symm
  | allocation => exact (List.append_nil _).symm
  | rename dst replace =>
    simp only [SetInfo.perform, Action.bind_apply, backendRename, issue_apply]
    have recorded := alike_record server.traceSink (.setInfoRename replace dst.displayBackslash
      target.file.lastPath.displayBackslash) w
    cases (target.tree.share.backend.rename (σ := σ) target.file.lastPath dst replace _).1 with
    | error e => simp [SetInfo.Operation.call, recorded.calls]
    | ok => simp [SetInfo.Operation.call, recorded.calls]

theorem SetInfo.handle_calls (server : ServerState) (hdr : Smb2Header) (body : Bytes)
    (w : World σ η) (req : SetInfoRequest) (target : Target η) (op : SetInfo.Operation η)
    (admitted : SetInfo.validate w.conn hdr body = .ok (req, target))
    (decoded : SetInfo.decode req.fileInformationClass req.buffer target.file = .ok op) :
    (SetInfo.handle server hdr body w).2.env.calls =
      w.env.calls ++ (op.call target).toList.map (Issued.mk (target.origin hdr.sessionId)) := by
  simp only [SetInfo.handle, Action.bind_apply, getConn_apply, admitted]
  split
  · simp only [Action.bind_apply, decoded]
    rw [SetInfo.perform_calls, (alike_record _ _ w).calls]
  · simp only [decoded]
    rw [SetInfo.perform_calls]

theorem Write.handle_calls (server : ServerState) (hdr : Smb2Header) (body : Bytes)
    (w : World σ η) (req : WriteRequest) (target : Target η) (h : Boxed η)
    (parsed : WriteRequest.parse body = some req)
    (admitted : Write.validate w.conn hdr req = .ok (target, h)) :
    (Write.handle server hdr body w).2.env.calls =
      w.env.calls ++ [⟨target.origin hdr.sessionId,
        .writeOwned h.serial req.offset req.data⟩] := by
  have recorded := alike_record server.traceSink
    (.write req.fileId.write req.offset req.length) w
  simp only [Write.handle, parsed, Action.bind_apply, getConn_apply, recorded.conn, admitted,
    Boxed.writeOwned, issue_apply]
  cases (Host.writeOwned (σ := σ) h.inner req.offset req.data _).1 with
  | error e => simp [recorded.calls]
  | ok count => simp [recorded.calls]

/-- The last call that `m` makes is `c`. -/
private def EndsWith {α : Type} (c : Issued) (m : Action (World σ η) α) : Prop :=
  ∀ w, ∃ front, (m w).2.env.calls = w.env.calls ++ (front ++ [c])

omit [Host σ η] in
private theorem EndsWith.bind {α β : Type} {c : Issued} {m : Action (World σ η) α}
    {f : α → Action (World σ η) β}
    (first : Action.Moves (Effect (fun _ _ => True) fun _ => True) m)
    (rest : ∀ a, EndsWith c (f a)) : EndsWith c (m >>= f) := by
  intro w
  obtain ⟨new, grown, -⟩ := (first w).calls
  obtain ⟨front, last⟩ := rest (m w).1 (m w).2
  exact ⟨new ++ front, by rw [Action.bind_apply, last, grown, List.append_assoc,
    List.append_assoc]⟩

private theorem Close.perform_endsWith (server : ServerState) (sid : UInt64) (req : CloseRequest)
    (target : Target η) (marked : target.file.deleteOnClose = true) :
    EndsWith ⟨target.origin sid, .unlink target.tree.share.backend target.file.lastPath⟩
      (Close.perform server sid req target : Action (World σ η) _) := by
  refine .bind (Effect.modifyConn fun _ => trivial) fun _ => ?_
  refine .bind (Effect.record _ _) fun _ => ?_
  refine .bind ?_ fun info => ?_
  · unfold Close.infoBeforeClose
    split
    · refine Effect.bind (Effect.issue _ _ _ trivial) fun answer => ?_
      cases answer <;> exact Effect.pure _
    · exact Effect.pure _
  simp only [marked, if_true]
  cases target.file.handle with
  | none => exact fun w => ⟨[], rfl⟩
  | some h =>
    exact .bind (Effect.issue (target.origin sid) (.close h.serial) _ trivial) fun _ w => ⟨[], rfl⟩

/-- The last call of a CLOSE that deletes. -/
theorem Close.handle_calls (server : ServerState) (hdr : Smb2Header) (body : Bytes)
    (w : World σ η) (req : CloseRequest) (target : Target η)
    (admitted : Close.validate w.conn hdr body = .ok (req, target))
    (marked : target.file.deleteOnClose = true) :
    ∃ front, (Close.handle server hdr body w).2.env.calls = w.env.calls ++ (front ++
      [⟨target.origin hdr.sessionId,
        .unlink target.tree.share.backend target.file.lastPath⟩]) := by
  simp only [Close.handle, Action.bind_apply, getConn_apply, admitted]
  exact Close.perform_endsWith server hdr.sessionId req target marked w

/-! ### One element -/

section

variable [Crypto] (server : ServerState) (frame : Bytes) (ordinal : UInt32) (w : World σ η)
  (hdr : Smb2Header) (body : Bytes)

theorem dispatchOne_setInfo (accepted : Accepted w.conn frame hdr body) (target : Target η)
    (op : SetInfo.Operation η) (reaches : SetInfo.Reaches w.conn hdr body target op) :
    (dispatchOne server frame ordinal w).2.env.calls =
      w.env.calls ++ (op.call target).toList.map (Issued.mk (target.origin hdr.sessionId)) := by
  obtain ⟨cmd, req, admitted, decoded⟩ := reaches
  obtain ⟨w₁, before, after⟩ := dispatchOne_of_accepted server frame ordinal w hdr body accepted
    (by simp [cmd]) (by simp [cmd])
  rw [← before.conn] at admitted
  have handler : dispatchCommand server hdr body w₁ = SetInfo.handle server hdr body w₁ := by
    simp only [dispatchCommand, cmd]
  rw [after.calls, handler, SetInfo.handle_calls server hdr body w₁ req target op admitted decoded,
    before.calls]

theorem dispatchOne_write (accepted : Accepted w.conn frame hdr body)
    (cmd : hdr.command = .write) (req : WriteRequest) (target : Target η) (h : Boxed η)
    (parsed : WriteRequest.parse body = some req)
    (admitted : Write.validate w.conn hdr req = .ok (target, h)) :
    (dispatchOne server frame ordinal w).2.env.calls = w.env.calls ++
      [⟨target.origin hdr.sessionId, .writeOwned h.serial req.offset req.data⟩] := by
  obtain ⟨w₁, before, after⟩ := dispatchOne_of_accepted server frame ordinal w hdr body accepted
    (by simp [cmd]) (by simp [cmd])
  rw [← before.conn] at admitted
  have handler : dispatchCommand server hdr body w₁ = Write.handle server hdr body w₁ := by
    simp only [dispatchCommand, cmd]
  rw [after.calls, handler, Write.handle_calls server hdr body w₁ req target h parsed admitted,
    before.calls]

theorem dispatchOne_close (accepted : Accepted w.conn frame hdr body)
    (cmd : hdr.command = .close) (req : CloseRequest) (target : Target η)
    (admitted : Close.validate w.conn hdr body = .ok (req, target))
    (marked : target.file.deleteOnClose = true) :
    ∃ front, (dispatchOne server frame ordinal w).2.env.calls = w.env.calls ++ (front ++
      [⟨target.origin hdr.sessionId,
        .unlink target.tree.share.backend target.file.lastPath⟩]) := by
  obtain ⟨w₁, before, after⟩ := dispatchOne_of_accepted server frame ordinal w hdr body accepted
    (by simp [cmd]) (by simp [cmd])
  rw [← before.conn] at admitted
  have handler : dispatchCommand server hdr body w₁ = Close.handle server hdr body w₁ := by
    simp only [dispatchCommand, cmd]
  rw [after.calls, handler, ← before.calls]
  exact Close.handle_calls server hdr body w₁ req target admitted marked

end

end SmbServer
