import SmbServer.Client
import SmbServer.Effects.Limits
import SmbServer.Effects.Negotiation
import SmbServer.Effects.Preauth
import SmbServer.Properties.LiveContext
import SmbServer.Proto.MessageKind

/-!
# SmbServer.Properties.ReadableReplies

Whatever the server sends, the client's parsers read.

## Main result

Every element of every payload starts with a header, and behind the header stands a body that the
response parser of the command in the header accepts, or the parser of the ERROR response when the
status in the header says so. The body has the StructureSize of its kind.

## Proof strategy

Each handler answers with an error whose status is one, or with a written response of its command
(`Answers`). A written response is read back (`Readable`), also where a 16-bit or 32-bit length field
wraps around: the shorter length is then read. Building, signing and laying out an answer leave its
body alone but for zeros behind it.
-/

namespace SmbServer

open Lib

/-! ### What a client reads -/

/-- The structure that answers a command. -/
def responseKind : Command → MessageKind
  | .negotiate => .negotiateResponse
  | .sessionSetup => .sessionSetupResponse
  | .logoff => .logoffResponse
  | .treeConnect => .treeConnectResponse
  | .treeDisconnect => .treeDisconnectResponse
  | .create => .createResponse
  | .close => .closeResponse
  | .flush => .flushResponse
  | .read => .readResponse
  | .write => .writeResponse
  | .lock => .lockResponse
  | .ioctl => .ioctlResponse
  | .cancel => .errorResponse
  | .echo => .echoResponse
  | .queryDirectory => .queryDirectoryResponse
  | .changeNotify => .changeNotifyResponse
  | .queryInfo => .queryInfoResponse
  | .setInfo => .setInfoResponse
  | .oplockBreak => .oplockBreakNotification

/-- The structure that a client expects behind a header: a SESSION_SETUP goes on with a challenge,
and every other status than success announces an error. -/
def expectedKind (command : Command) (status : NtStatus) : MessageKind :=
  if status = statusSuccess ∨
      command = .sessionSetup ∧ status = statusMoreProcessingRequired then
    responseKind command
  else .errorResponse

/-- The StructureSize of an answer. -/
def responseSize : MessageKind → UInt16
  | .negotiateResponse => 65
  | .sessionSetupResponse => 9
  | .treeConnectResponse => 16
  | .createResponse => 89
  | .closeResponse => 60
  | .readResponse => 17
  | .writeResponse => 17
  | .ioctlResponse => 49
  | .queryDirectoryResponse => 9
  | .changeNotifyResponse => 9
  | .queryInfoResponse => 9
  | .setInfoResponse => 2
  | .oplockBreakNotification => 24
  | .errorResponse => 9
  | _ => 4

/-- A body that the parser of the kind accepts, with the kind's StructureSize. -/
structure Readable (kind : MessageKind) (body : Bytes) : Prop where
  parsed : (kind.parse body).isSome
  size : readU16 body 0 = responseSize kind

/-! ### Written responses -/

/-- A body that starts with a message of the kind. -/
def Written (kind : MessageKind) (body : Bytes) : Prop :=
  ∃ (m : kind.Body) (rest : Bytes), kind.Sized m ∧ u16le (responseSize kind) <+: kind.write m ∧
    body = kind.write m ++ rest

namespace Written

variable {kind : MessageKind} {body : Bytes}

theorem readable (h : Written kind body) : Readable kind body := by
  obtain ⟨m, rest, sized, ⟨tail, size⟩, written⟩ := h
  constructor
  · rw [(kind.parse_eq_some body m).mpr ⟨sized, rest, written⟩]
    rfl
  · rw [written, ← size, List.append_assoc]
    exact readU16_at [] _ _ 0 rfl

theorem append (h : Written kind body) (behind : Bytes) : Written kind (body ++ behind) := by
  obtain ⟨m, rest, sized, size, written⟩ := h
  exact ⟨m, rest ++ behind, sized, size, by rw [written, List.append_assoc]⟩

/-- A message as it is written. -/
theorem of_write (kind : MessageKind) (m : kind.Body) (sized : kind.Sized m)
    (size : u16le (responseSize kind) <+: kind.write m) : Written kind (kind.write m) :=
  ⟨m, [], sized, size, (List.append_nil _).symm⟩

theorem error : Written .errorResponse errorResponse :=
  of_write .errorResponse ⟨9, 0, 0, 0, [0]⟩ rfl ⟨[0, 0] ++ u32le 0 ++ [0], rfl⟩

end Written

/-- A length that was cast to its field is at most the length of what it counts. -/
theorem toNat_ofNat16_le (n : Nat) : (UInt16.ofNat n).toNat ≤ n := by
  rw [UInt16.toNat_ofNat']
  exact Nat.mod_le _ _

theorem toNat_ofNat32_le (n : Nat) : (UInt32.ofNat n).toNat ≤ n := by
  rw [UInt32.toNat_ofNat']
  exact Nat.mod_le _ _

/-- A length-counted buffer is read as far as its length field goes. -/
theorem BufferResponse.written {kind : MessageKind}
    (buffer : kind = .queryInfoResponse ∨ kind = .queryDirectoryResponse) (offset : UInt16)
    (buf : Bytes) : Written kind (BufferResponse.write
      { structureSize := 9
        outputBufferOffset := offset
        outputBufferLength := UInt32.ofNat buf.length
        buffer := buf }) := by
  have fits := toNat_ofNat32_le buf.length
  let m : BufferResponse :=
    { structureSize := 9
      outputBufferOffset := offset
      outputBufferLength := UInt32.ofNat buf.length
      buffer := buf.take (UInt32.ofNat buf.length).toNat }
  have sized : m.buffer.length = m.outputBufferLength.toNat := List.length_take_of_le fits
  have size : u16le 9 <+: m.write := by simp [BufferResponse.write, m]
  have split : BufferResponse.write
      { structureSize := 9
        outputBufferOffset := offset
        outputBufferLength := UInt32.ofNat buf.length
        buffer := buf } = m.write ++ buf.drop (UInt32.ofNat buf.length).toNat := by
    simp only [BufferResponse.write, m, List.append_assoc, List.take_append_drop]
  rcases buffer with rfl | rfl
  · exact ⟨m, _, sized, size, split⟩
  · exact ⟨m, _, sized, size, split⟩

theorem Read.written (bytes : Bytes) : Written .readResponse (Read.response bytes) := by
  have fits := toNat_ofNat32_le bytes.length
  let m : ReadResponse :=
    { structureSize := 17
      dataOffset := ReadResponse.standardDataOffset
      reserved := 0
      dataLength := UInt32.ofNat bytes.length
      dataRemaining := 0
      flags := 0
      data := bytes.take (UInt32.ofNat bytes.length).toNat }
  refine ⟨m, bytes.drop (UInt32.ofNat bytes.length).toNat, List.length_take_of_le fits, ?_, ?_⟩
  · simp [MessageKind.write, ReadResponse.write, responseSize, m]
  · simp only [Read.response, MessageKind.write, ReadResponse.write, m, List.append_assoc,
      List.take_append_drop]

theorem SessionSetup.written (blob : Bytes) (flags : UInt16) :
    Written .sessionSetupResponse (buildResponse blob flags) := by
  have fits := toNat_ofNat16_le blob.length
  let m : SessionSetupResponse :=
    { structureSize := 9
      sessionFlags := flags
      securityBufferOffset := 64 + 8
      securityBufferLength := UInt16.ofNat blob.length
      securityBuffer := blob.take (UInt16.ofNat blob.length).toNat }
  refine ⟨m, blob.drop (UInt16.ofNat blob.length).toNat, List.length_take_of_le fits, ?_, ?_⟩
  · simp [MessageKind.write, SessionSetupResponse.write, responseSize, m]
  · simp only [buildResponse, MessageKind.write, SessionSetupResponse.write, m, List.append_assoc,
      List.take_append_drop]

section
variable {η : Type}

theorem Negotiate.written (server : ServerState) (conn : Connection η) (chosen : UInt16)
    (capabilities : UInt32) (count : UInt16) (offset : UInt32) (now : UInt64) (rest : Bytes) :
    Written .negotiateResponse
      ((response server conn chosen capabilities count offset now).write ++ rest) := by
  have init : encodeInitResponse.length = 30 := rfl
  refine ⟨response server conn chosen capabilities count offset now, rest, ?_, ?_, rfl⟩
  · simp only [MessageKind.Sized, response, init]
    rfl
  · simp [MessageKind.write, NegotiateResponse.write, response, responseSize]

theorem TreeConnect.written (share : ShareBindings) (granted : Access) :
    Written .treeConnectResponse (response share granted) := by
  refine .of_write .treeConnectResponse _ trivial ?_
  simp [MessageKind.write, TreeConnectResponse.write, responseSize]

theorem Create.written (req : CreateRequest) (intent : OpenIntent) (info : FileInfo)
    (fid : FileId) :
    Written .createResponse (response intent info fid (responseContexts req)) := by
  have short := length_responseContexts_le req
  refine .of_write .createResponse _ ?_ ?_
  · simp only [MessageKind.Sized, UInt32.toNat_ofNat']
    rw [Nat.mod_eq_of_lt (by omega)]
  · simp [MessageKind.write, CreateResponse.write, responseSize]

theorem Close.written (req : CloseRequest) (info : Option FileInfo) :
    Written .closeResponse (response req info) := by
  refine .of_write .closeResponse _ trivial ?_
  simp [MessageKind.write, CloseResponse.write, responseSize]

theorem Write.written (count : UInt32) :
    Written .writeResponse (WriteResponse.new count).write := by
  refine .of_write .writeResponse _ trivial ?_
  simp [MessageKind.write, WriteResponse.write, WriteResponse.new, responseSize]

theorem Ioctl.written (server : ServerState) (req : IoctlRequest) (conn : Connection η) :
    Written .ioctlResponse (response req (validateNegotiateInfo server conn)) := by
  have length : (validateNegotiateInfo server conn).length = 24 := by
    simp [validateNegotiateInfo]
  refine .of_write .ioctlResponse _ ?_ ?_
  · simp only [MessageKind.Sized, length]
    rfl
  · simp [MessageKind.write, IoctlResponse.write, responseSize]

/-- The answer of a structure size and a reserved word. -/
theorem EmptyBody.written {kind : MessageKind} (named : kind = .logoffResponse ∨
    kind = .treeDisconnectResponse ∨ kind = .flushResponse ∨ kind = .lockResponse ∨
      kind = .echoResponse) : Written kind emptyResponse := by
  rcases named with rfl | rfl | rfl | rfl | rfl
  · exact .of_write .logoffResponse EmptyBody.default trivial ⟨u16le 0, rfl⟩
  · exact .of_write .treeDisconnectResponse EmptyBody.default trivial ⟨u16le 0, rfl⟩
  · exact .of_write .flushResponse EmptyBody.default trivial ⟨u16le 0, rfl⟩
  · exact .of_write .lockResponse EmptyBody.default trivial ⟨u16le 0, rfl⟩
  · exact .of_write .echoResponse EmptyBody.default trivial ⟨u16le 0, rfl⟩

theorem SetInfo.written : Written .setInfoResponse setInfoResponse :=
  .of_write .setInfoResponse ⟨2⟩ trivial ⟨[], rfl⟩

theorem oplockBreak_written : Written .oplockBreakNotification oplockBreakResponse :=
  .of_write .oplockBreakNotification ⟨24, 0, 0, 0, FileId.any⟩ trivial
    ⟨[0, 0] ++ u32le 0 ++ FileId.any.write, rfl⟩

end

/-! ### What the handlers answer -/

/-- An answer that the client of a command can read: an error under a status that is one, or the
command's own response. -/
def HandlerResponse.Answers (command : Command) (r : HandlerResponse) : Prop :=
  Written (expectedKind command r.status) r.body

namespace HandlerResponse

variable {command : Command}

theorem answers_err {status : NtStatus} (failure : status ≠ statusSuccess)
    (setup : command = .sessionSetup → status ≠ statusMoreProcessingRequired) :
    (err status).Answers command := by
  have announced : expectedKind command status = .errorResponse := by
    refine if_neg ?_
    rintro (success | ⟨cmd, more⟩)
    · exact failure success
    · exact setup cmd more
  rw [Answers, err, announced]
  exact .error

theorem answers_ok {r : HandlerResponse} (success : r.status = statusSuccess)
    (written : Written (responseKind command) r.body) : r.Answers command := by
  rw [Answers, expectedKind, if_pos (.inl success)]
  exact written

/-- An error of a command other than SESSION_SETUP. -/
theorem answers_fail {status : NtStatus} (noSetup : command ≠ .sessionSetup)
    (failure : status ≠ statusSuccess) : (err status).Answers command :=
  answers_err failure fun cmd => absurd cmd noSetup

theorem answers_ofError (e : SmbError) (noSetup : command ≠ .sessionSetup) :
    (ofError e).Answers command :=
  answers_fail noSetup e.toNtStatus_ne_success

end HandlerResponse

section
variable {σ η : Type} [Host σ η] {server : ServerState} {hdr : Smb2Header} {body : Bytes}

open HandlerResponse (Answers answers_err answers_ok answers_fail answers_ofError)

theorem Negotiate.handle_answers [Crypto] :
    Action.Returns (Answers .negotiate)
      (Negotiate.handle server body : Action (World σ η) _) := by
  intro w
  have outcome := Negotiate.handle_outcome server body w
  revert outcome
  generalize Negotiate.handle server body w = result
  obtain ⟨resp, after⟩ := result
  intro outcome
  cases outcome with
  | refused status _ failed => exact answers_fail (by decide) failed
  | committed => exact answers_ok rfl (Negotiate.written _ _ _ _ _ _ _ _)

theorem SessionSetup.handle_answers [Crypto] :
    Action.Returns (Answers .sessionSetup)
      (SessionSetup.handle server hdr body : Action (World σ η) _) := by
  have challenged (blob : Bytes) (sid : UInt64) :
      Answers .sessionSetup
        { body := buildResponse blob 0
          status := statusMoreProcessingRequired
          overrideTreeId := none
          overrideSessionId := some sid
          skipSigning := true
          takePreauthSnapshotForSession := none } := by
    rw [Answers, expectedKind, if_pos (.inr ⟨rfl, rfl⟩)]
    exact SessionSetup.written _ _
  rw [SessionSetup.handle]
  split
  next status invalid =>
    obtain ⟨noSuccess, noChallenge⟩ := validate_error invalid
    exact .pure (answers_err noSuccess fun _ => noChallenge)
  split
  · refine .bind fun sid => .bind fun challenge => .bind fun now => ?_
    dsimp only
    split
    · exact .pure (answers_err (by decide) fun _ => by decide)
    · exact .bind fun _ => .pure (challenged _ sid)
  · rw [finalRound]
    split
    · exact .pure (answers_err (by decide) fun _ => by decide)
    refine .bind fun pending => ?_
    split
    · exact .pure (answers_err (by decide) fun _ => by decide)
    split
    · exact .pure (answers_err (by decide) fun _ => by decide)
    refine .bind fun conn => ?_
    split
    · exact .pure (answers_err (by decide) fun _ => by decide)
    · exact .bind fun _ => .pure (answers_ok rfl (SessionSetup.written _ _))

theorem Logoff.handle_answers :
    Action.Returns (Answers .logoff) (Logoff.handle hdr : Action (World σ η) _) := by
  rw [Logoff.handle]
  split
  · exact .pure (answers_fail (by decide) (by decide))
  · exact .bind fun _ => .pure (answers_ok rfl (EmptyBody.written (by simp [responseKind])))

theorem TreeConnect.handle_answers :
    Action.Returns (Answers .treeConnect)
      (TreeConnect.handle server hdr body : Action (World σ η) _) := by
  rw [TreeConnect.handle]
  split
  next invalid => exact .pure (answers_fail (by decide) ((validate_fails _).status invalid))
  refine .bind fun conn => ?_
  split
  next dead => exact .pure (answers_fail (by decide) ((lookupSession_fails _ _).status dead))
  split
  · exact .pure (answers_fail (by decide) (by decide))
  split
  · exact .pure (answers_fail (by decide) (by decide))
  · exact .bind fun _ => .bind fun _ => .pure (answers_ok rfl (TreeConnect.written _ _))

theorem TreeDisconnect.handle_answers :
    Action.Returns (Answers .treeDisconnect)
      (TreeDisconnect.handle hdr : Action (World σ η) _) := by
  rw [TreeDisconnect.handle]
  split
  · exact .pure (answers_fail (by decide) (by decide))
  refine .bind fun conn => ?_
  split
  · exact .pure (answers_fail (by decide) (by decide))
  refine .bind fun closed => ?_
  split
  · exact .pure (answers_fail (by decide) (by decide))
  · exact .pure (answers_ok rfl (EmptyBody.written (by simp [responseKind])))

theorem Create.handle_answers :
    Action.Returns (Answers .create)
      (Create.handle server hdr body : Action (World σ η) _) := by
  refine .bind fun conn => ?_
  split
  next invalid => exact .pure (answers_fail (by decide) ((validate_fails _ _ _).status invalid))
  refine .bind fun opened => ?_
  cases opened with
  | error e => exact .bind fun _ => .pure (answers_ofError e (by decide))
  | ok handle =>
    refine .bind fun info => ?_
    cases info with
    | error e => exact .bind fun _ => .bind fun _ => .pure (answers_ofError e (by decide))
    | ok info =>
      exact .bind fun _ => .bind fun _ => .pure (answers_ok rfl (Create.written _ _ _ _))

theorem Close.handle_answers :
    Action.Returns (Answers .close)
      (Close.handle server hdr body : Action (World σ η) _) := by
  have answered (req : CloseRequest) (info : Option FileInfo) :
      Answers .close (.ok (response req info)) := answers_ok rfl (Close.written req info)
  refine .bind fun conn => ?_
  split
  next invalid => exact .pure (answers_fail (by decide) ((validate_fails _ _ _).status invalid))
  refine .bind fun _ => .bind fun _ => .bind fun _ => ?_
  dsimp only
  split <;> split <;>
    first
    | exact .bind fun _ => .bind fun _ => .pure (answered _ _)
    | exact .bind fun _ => .pure (answered _ _)
    | exact .pure (answered _ _)

theorem Flush.handle_answers :
    Action.Returns (Answers .flush) (Flush.handle hdr body : Action (World σ η) _) := by
  rw [Flush.handle]
  split
  · exact .pure (answers_fail (by decide) (by decide))
  refine .bind fun conn => ?_
  split
  next dead => exact .pure (answers_fail (by decide) ((lookupTarget_fails _ _ _).status dead))
  split
  · exact .pure (answers_fail (by decide) (by decide))
  refine .bind fun answer => ?_
  cases answer with
  | error e => exact .pure (answers_ofError e (by decide))
  | ok => exact .pure (answers_ok rfl (EmptyBody.written (by simp [responseKind])))

theorem Read.handle_answers :
    Action.Returns (Answers .read) (Read.handle hdr body : Action (World σ η) _) := by
  rw [Read.handle]
  split
  · exact .pure (answers_fail (by decide) (by decide))
  refine .bind fun conn => ?_
  split
  · exact .pure (answers_fail (by decide) (by decide))
  split
  next dead => exact .pure (answers_fail (by decide) ((lookupTarget_fails _ _ _).status dead))
  split
  · exact .pure (answers_fail (by decide) (by decide))
  refine .bind fun answer => ?_
  cases answer with
  | error e => exact .pure (answers_ofError e (by decide))
  | ok bytes =>
    dsimp only
    split
    · exact .pure (answers_fail (by decide) (by decide))
    · exact .pure (answers_ok rfl (Read.written bytes))

theorem Write.handle_answers :
    Action.Returns (Answers .write) (Write.handle server hdr body : Action (World σ η) _) := by
  rw [Write.handle]
  split
  · exact .pure (answers_fail (by decide) (by decide))
  refine .bind fun _ => .bind fun conn => ?_
  split
  next invalid => exact .pure (answers_fail (by decide) ((validate_fails _ _ _).status invalid))
  refine .bind fun answer => ?_
  cases answer with
  | error e => exact .pure (answers_ofError e (by decide))
  | ok count => exact .pure (answers_ok rfl (Write.written count))

omit [Host σ η] in
theorem Ioctl.handle_answers :
    Action.Returns (Answers .ioctl) (Ioctl.handle server body : Action (World σ η) _) := by
  rw [Ioctl.handle]
  split
  · exact .pure (answers_fail (by decide) (by decide))
  refine .bind fun conn => ?_
  split
  · exact .pure (answers_ok rfl (Ioctl.written _ _ _))
  all_goals exact .pure (answers_fail (by decide) (by decide))

theorem NeverSuccess.ite {α : Type} {c : Prop} [Decidable c] {yes no : Except NtStatus α}
    (then_ : NeverSuccess yes) (else_ : NeverSuccess no) : NeverSuccess (if c then yes else no) := by
  split
  · exact then_
  · exact else_

theorem QueryInfo.buffer_fails (infoType : InfoType) (req : QueryInfoRequest) (fid : FileId)
    (stat : SmbResult FileInfo) (caps : BackendCapabilities) :
    NeverSuccess (buffer infoType req fid stat caps) := by
  have file (info : FileInfo) :
      NeverSuccess (fileBuffer req.fileInformationClass info fid.volatile) := by
    unfold fileBuffer
    repeat' apply NeverSuccess.ite
    all_goals first
      | exact .ok _
      | exact .error (by decide)
  cases infoType with
  | file =>
    cases stat with
    | ok info => exact file info
    | error e => exact .error e.toNtStatus_ne_success
  | fileSystem =>
    unfold buffer fsBuffer
    repeat' apply NeverSuccess.ite
    all_goals first
      | exact .ok _
      | exact .error (by decide)
  | security => exact .ok _
  | quota => exact .error (by decide)

theorem QueryInfo.respond_answers (req : QueryInfoRequest) (buf : Bytes) :
    Answers .queryInfo (respond req buf) := by
  rw [respond]
  split
  · exact answers_fail (by decide) (by decide)
  · exact answers_ok rfl (BufferResponse.written (.inl rfl) _ _)

theorem QueryInfo.handle_answers :
    Action.Returns (Answers .queryInfo)
      (QueryInfo.handle hdr body : Action (World σ η) _) := by
  refine .bind fun conn => ?_
  split
  next invalid => exact .pure (answers_fail (by decide) ((validate_fails _ _ _).status invalid))
  refine .bind fun stat => ?_
  dsimp only
  split
  next none => exact .pure (answers_fail (by decide) ((buffer_fails _ _ _ _ _).status none))
  · exact .pure (respond_answers _ _)

theorem QueryDirectory.populate_fails (sid : UInt64) (req : QueryDirectoryRequest)
    (target : Target η) :
    Action.Returns NeverSuccess (populate sid req target : Action (World σ η) _) := by
  rw [populate]
  split
  · exact .pure (.ok _)
  split
  · exact .pure (.error (by decide))
  refine .bind fun answer => ?_
  cases answer with
  | error e => exact .pure (.error e.toNtStatus_ne_success)
  | ok entries => exact .bind fun _ => .pure (.ok _)

omit [Host σ η] in
theorem QueryDirectory.emit_answers (sid : UInt64) (req : QueryDirectoryRequest)
    (target : Target η) :
    Action.Returns (Answers .queryDirectory) (emit sid req target : Action (World σ η) _) := by
  refine .bind fun conn => ?_
  split
  · exact .bind fun _ => .pure (answers_fail (by decide) (by decide))
  · dsimp only
    refine .bind fun _ => ?_
    split
    · exact .pure (answers_fail (by decide) (by decide))
    · exact .pure (answers_ok rfl (BufferResponse.written (.inr rfl) _ _))

theorem QueryDirectory.handle_answers :
    Action.Returns (Answers .queryDirectory)
      (QueryDirectory.handle hdr body : Action (World σ η) _) := by
  refine .bind fun conn => ?_
  split
  next invalid => exact .pure (answers_fail (by decide) ((validate_fails _ _ _).status invalid))
  refine .seq (populate_fails _ _ _) fun listed fails => ?_
  cases listed with
  | error status => exact .pure (answers_fail (by decide) (fails.status rfl))
  | ok => exact emit_answers _ _ _

theorem SetInfo.decode_fails (infoClass : UInt8) (buffer : Bytes) (file : Open η) :
    NeverSuccess (decode infoClass buffer file) := by
  unfold decode
  dsimp only
  repeat' split
  all_goals first
    | exact .ok _
    | exact .error (by decide)
    | exact .error ((Create.decodePath_fails _).status ‹_›)

theorem SetInfo.handle_answers :
    Action.Returns (Answers .setInfo)
      (SetInfo.handle server hdr body : Action (World σ η) _) := by
  have responded (result : SmbResult Unit) : Answers .setInfo (respond result) := by
    cases result with
    | error e => exact answers_ofError e (by decide)
    | ok => exact answers_ok rfl SetInfo.written
  have performed (fid : FileId) (target : Target η) (op : Operation η) :
      Action.Returns (Answers .setInfo)
        (perform server hdr.sessionId fid target op : Action (World σ η) _) := by
    cases op with
    | setTimes h times => exact .bind fun _ => .pure (responded _)
    | truncate h len => exact .bind fun _ => .pure (responded _)
    | disposition flag => exact .bind fun _ => .pure (responded _)
    | rename path replace =>
      refine .bind fun _ => .bind fun answer => ?_
      cases answer with
      | error e => exact .pure (answers_ofError e (by decide))
      | ok => exact .bind fun _ => .pure (responded _)
    | allocation => exact .pure (responded _)
  refine .bind fun conn => ?_
  split
  next invalid => exact .pure (answers_fail (by decide) ((validate_fails _ _ _).status invalid))
  dsimp only
  split
  · refine .bind fun _ => ?_
    split
    next bad => exact .pure (answers_fail (by decide) ((decode_fails _ _ _).status bad))
    · exact performed _ _ _
  · split
    next bad => exact .pure (answers_fail (by decide) ((decode_fails _ _ _).status bad))
    · exact performed _ _ _

/-- Every command is answered with what its client reads. -/
theorem dispatchCommand_answers [Crypto] (server : ServerState) (hdr : Smb2Header) (body : Bytes) :
    Action.Returns (Answers hdr.command)
      (dispatchCommand server hdr body : Action (World σ η) _) := by
  rw [dispatchCommand]
  cases hdr.command with
  | negotiate => exact Negotiate.handle_answers
  | sessionSetup => exact SessionSetup.handle_answers
  | logoff => exact Logoff.handle_answers
  | treeConnect => exact TreeConnect.handle_answers
  | treeDisconnect => exact TreeDisconnect.handle_answers
  | create => exact Create.handle_answers
  | close => exact Close.handle_answers
  | flush => exact Flush.handle_answers
  | read => exact Read.handle_answers
  | write => exact Write.handle_answers
  | lock => exact .pure (answers_ok rfl (EmptyBody.written (by simp [responseKind])))
  | ioctl => exact Ioctl.handle_answers
  | echo => exact .pure (answers_ok rfl (EmptyBody.written (by simp [responseKind])))
  | queryDirectory => exact QueryDirectory.handle_answers
  | changeNotify => exact .pure (answers_fail (by decide) (by decide))
  | queryInfo => exact QueryInfo.handle_answers
  | setInfo => exact SetInfo.handle_answers
  | oplockBreak => exact .pure (answers_ok rfl oplockBreak_written)
  | cancel => exact .pure (answers_fail (by decide) (by decide))

end

/-! ### From the handler to the payload -/

section
variable {σ η : Type} [Host σ η] [Crypto]

open HandlerResponse (Answers answers_err answers_ok)

omit [Host σ η] in
/-- A request that the signature check stops is answered with an error. -/
theorem verifyRequestSignature_rejects {conn : Connection η} {hdr : Smb2Header} {frame : Bytes}
    {status : NtStatus} (stopped : verifyRequestSignature conn hdr frame = .error status) :
    status ≠ statusSuccess ∧ status ≠ statusMoreProcessingRequired := by
  revert stopped
  unfold verifyRequestSignature
  dsimp only
  repeat' split
  all_goals
    intro stopped
    cases stopped
  all_goals decide

/-- The reply to an element is built from an answer to its command. -/
theorem dispatchOne_answers (server : ServerState) (frame : Bytes) (ordinal : UInt32)
    (w : World σ η) (reply : Bytes)
    (sent : (dispatchOne server frame ordinal w).1 = some reply) :
    ∃ (conn : Connection η) (hdr : Smb2Header) (resp : HandlerResponse),
      reply = buildResponseBytes conn hdr resp ∧ resp.Answers hdr.command := by
  have outcome := dispatchOne_cases server frame ordinal w
  rw [sent] at outcome
  revert outcome
  generalize (dispatchOne server frame ordinal w).2 = after
  generalize answer : some reply = answered
  intro outcome
  cases outcome with
  | malformed => cases answer
  | cancelled => cases answer
  | rejected hdr body status _ _ stopped =>
    obtain rfl := Option.some.inj answer
    obtain ⟨noSuccess, noChallenge⟩ := verifyRequestSignature_rejects stopped
    exact ⟨_, hdr, .err status, rfl, answers_err noSuccess fun _ => noChallenge⟩
  | handled hdr body w₁ =>
    obtain rfl := Option.some.inj answer
    exact ⟨_, hdr, _, rfl, dispatchCommand_answers server hdr body _⟩

omit [Host σ η] in
/-- A signature is no part of the body. -/
theorem drop_sign (msg : Bytes) (key : Key) (algo : SigningAlgo) :
    (sign msg key algo).drop smb2HeaderLen = msg.drop smb2HeaderLen := by
  rw [sign]
  split
  · rfl
  next long =>
    refine drop_patch_front _ _ _ _ ?_ (Nat.le_of_not_lt long)
    rw [ByteVec.length_val]
    decide

omit [Host σ η] in
theorem drop_buildResponseBytes (conn : Connection η) (hdr : Smb2Header)
    (resp : HandlerResponse) :
    (buildResponseBytes conn hdr resp).drop smb2HeaderLen = resp.body := by
  simp only [buildResponseBytes]
  cases responseKey conn hdr resp with
  | none => exact List.drop_left' (Smb2Header.length_write _)
  | some key =>
    rw [drop_sign]
    exact List.drop_left' (Smb2Header.length_write _)

omit [Host σ η] in
/-- Signing an element again leaves its body as it was placed. -/
theorem drop_resign (conn : Connection η) (placed : Bytes) (len : Nat)
    (long : smb2HeaderLen ≤ len) (fits : len ≤ placed.length) :
    (resign conn placed len).drop smb2HeaderLen = placed.drop smb2HeaderLen := by
  have front : smb2HeaderLen ≤ (placed.take len).length := by
    rwa [List.length_take_of_le fits]
  rw [resign]
  split
  · rfl
  split
  · rfl
  split
  · rfl
  · rw [List.drop_append_of_le_length (by rwa [length_sign]), drop_sign,
      ← List.drop_append_of_le_length front, List.take_append_drop]

omit [Host σ η] [Crypto] in
/-- Placing an element puts zeros behind it. -/
theorem drop_placeResponse (isLast : Bool) {response : Bytes} (r : Response response) :
    ∃ padding, (placeResponse isLast response).drop smb2HeaderLen =
      response.drop smb2HeaderLen ++ padding := by
  have long := r.begins.long
  cases isLast with
  | true => exact ⟨[], (List.append_nil _).symm⟩
  | false =>
    have link : 0x14 + (u32le (UInt32.ofNat (align8 response.length))).length ≤ smb2HeaderLen := by
      rw [length_u32le]
      decide
    refine ⟨List.replicate (align8 response.length - response.length) 0, ?_⟩
    simp only [placeResponse, Bool.false_eq_true, if_false]
    rw [List.drop_append_of_le_length, drop_patch_front _ _ _ _ link long]
    rwa [length_patch _ _ _ (link.trans long)]

omit [Host σ η] [Crypto] in
/-- An element is readable when its header has the command of the request and the status of an
answer to it, and the answer's body stands behind the header. -/
theorem readable_of_front {e : Bytes} {command : Command} {resp : HandlerResponse}
    (answers : resp.Answers command) (begins : Smb2Header.Begins e)
    (named : readU16 e 12 = command.asU16) (status : readU32 e 8 = resp.status)
    (behind : ∃ padding, e.drop smb2HeaderLen = resp.body ++ padding) :
    ∃ hdr body, Smb2Header.parse e = some (hdr, body) ∧
      Readable (expectedKind hdr.command hdr.channelSequenceStatus) body := by
  obtain ⟨padding, rest⟩ := behind
  simp only [Smb2Header.parse, Nat.not_lt.mpr begins.long, begins.magic, begins.size, named,
    Command.fromU16_asU16, status, rest, ne_eq, not_true_eq_false, if_false]
  exact ⟨_, _, rfl, (Written.append answers padding).readable⟩

omit [Host σ η] in
theorem readU16_command_buildResponseBytes (conn : Connection η) (hdr : Smb2Header)
    (resp : HandlerResponse) :
    readU16 (buildResponseBytes conn hdr resp) 12 = hdr.command.asU16 := by
  obtain ⟨flags, front⟩ := slice_buildResponseBytes conn hdr resp
  rw [readU16, front 12 2 (by decide), ← readU16, Smb2Header.readU16_command_write]
  rfl

omit [Host σ η] in
/-- An answer is readable as it was built. -/
theorem readable_buildResponseBytes (conn : Connection η) (hdr : Smb2Header)
    (resp : HandlerResponse) (answers : resp.Answers hdr.command) : ∃ hdr' body,
      Smb2Header.parse (buildResponseBytes conn hdr resp) = some (hdr', body) ∧
      Readable (expectedKind hdr'.command hdr'.channelSequenceStatus) body := by
  refine readable_of_front answers (response_buildResponseBytes conn hdr resp).begins
    (readU16_command_buildResponseBytes conn hdr resp)
    (readU32_status_buildResponseBytes conn hdr resp) ⟨[], ?_⟩
  rw [drop_buildResponseBytes, List.append_nil]

omit [Host σ η] [Crypto] in
/-- A single response is a payload of one element. -/
theorem splitCompound_single {e : Bytes} (r : Response e) : splitCompound e = [e] := by
  obtain ⟨hdr, split⟩ := splitElement_last e r.begins r.next
  simp only [splitCompound, splitPayload, split, true_or, if_true]

omit [Host σ η] in
/-- A laid out answer is readable. -/
theorem readable_laidOut (conn after : Connection η) (isLast : Bool) (hdr : Smb2Header)
    (resp : HandlerResponse) (answers : resp.Answers hdr.command) : ∃ hdr' body,
      Smb2Header.parse (laidOut after isLast (buildResponseBytes conn hdr resp)) =
        some (hdr', body) ∧
      Readable (expectedKind hdr'.command hdr'.channelSequenceStatus) body := by
  have r := response_buildResponseBytes conn hdr resp
  refine readable_of_front answers (begins_laidOut after isLast r) ?_ ?_ ?_
  · rw [readU16, slice_laidOut after isLast r _ _ (by decide) (by decide), ← readU16,
      readU16_command_buildResponseBytes]
  · rw [readU32, slice_laidOut after isLast r _ _ (by decide) (by decide), ← readU32,
      readU32_status_buildResponseBytes]
  · obtain ⟨padding, behind⟩ := drop_placeResponse isLast r
    have fits : (buildResponseBytes conn hdr resp).length ≤
        (placeResponse isLast (buildResponseBytes conn hdr resp)).length := by
      cases isLast with
      | true => exact Nat.le_refl _
      | false =>
        rw [length_placeResponse r]
        exact le_align8 _
    refine ⟨padding, ?_⟩
    rw [laidOut, drop_resign _ _ _ r.begins.long fits, behind, drop_buildResponseBytes]

omit [Host σ η] in
/-- Every reply of a stitched list is readable in its place. -/
theorem readable_stitched (after : Connection η) (replies : List Bytes)
    (built : ∀ reply ∈ replies, ∃ (conn : Connection η) (hdr : Smb2Header)
      (resp : HandlerResponse),
        reply = buildResponseBytes conn hdr resp ∧ resp.Answers hdr.command) :
    ∀ e ∈ stitched after replies, ∃ hdr body, Smb2Header.parse e = some (hdr, body) ∧
      Readable (expectedKind hdr.command hdr.channelSequenceStatus) body := by
  induction replies with
  | nil => intro e member; cases member
  | cons first rest ih =>
    obtain ⟨conn, hdr, resp, rfl, answers⟩ := built first List.mem_cons_self
    have later := ih fun reply member => built reply (List.mem_cons_of_mem _ member)
    cases rest with
    | nil =>
      intro e member
      obtain rfl := List.mem_singleton.mp member
      exact readable_laidOut conn after true hdr resp answers
    | cons second others =>
      intro e member
      rw [stitched_cons_cons] at member
      rcases List.mem_cons.mp member with rfl | member
      · exact readable_laidOut conn after false hdr resp answers
      · exact later e member

/-- The elements of a payload are readable, one behind the other to its end. -/
theorem replies_readable (server : ServerState) (frame payload : Bytes) (w : World σ η)
    (answer : (dispatchFrame server frame w).1 = some payload) (short : payload.length < 2 ^ 32) :
    (splitCompound payload).flatten = payload ∧
      ∀ e ∈ splitCompound payload, ∃ hdr body, Smb2Header.parse e = some (hdr, body) ∧
        Readable (expectedKind hdr.command hdr.channelSequenceStatus) body := by
  cases smb1 : smb1Choice frame with
  | some chosen =>
    -- the one response to an SMB1 request is that of a NEGOTIATE
    simp only [dispatchFrame, smb1, handleSmb1MultiProtocol, Negotiate.multiProtocolResponse,
      Action.bind_apply, Action.pure_apply, getConn_apply, Option.some.injEq] at answer
    subst answer
    rw [splitCompound_single (response_buildResponseBytes _ _ _)]
    refine ⟨List.flatten_singleton, ?_⟩
    intro e member
    obtain rfl := List.mem_singleton.mp member
    exact readable_buildResponseBytes _ smb1RequestHeader _
      (answers_ok rfl (List.append_nil (NegotiateResponse.write _) ▸ Negotiate.written _ _ _ _ _ _ _ _))
  | none =>
    have whole := dispatchFrame_eq server frame payload w smb1 answer
    have executed := exchanges_executed (frame.length + 1) server frame initialContext 0 w
    rw [← frameExchanges] at executed
    generalize (dispatchFrame server frame w).2.conn = after at whole
    have built : ∀ reply ∈ (frameExchanges server frame w).filterMap (·.reply),
        ∃ (conn : Connection η) (hdr : Smb2Header) (resp : HandlerResponse),
          reply = buildResponseBytes conn hdr resp ∧ resp.Answers hdr.command := by
      intro reply member
      obtain ⟨x, here, sent⟩ := List.mem_filterMap.mp member
      obtain ⟨w', done⟩ := executed x here
      exact dispatchOne_answers server x.element.bytes x.element.ordinal w' reply
        (done.reply.trans sent)
    have responses : ∀ reply ∈ (frameExchanges server frame w).filterMap (·.reply),
        Response reply := by
      intro reply member
      obtain ⟨conn, hdr, resp, rfl, -⟩ := built reply member
      exact response_buildResponseBytes conn hdr resp
    have split : splitCompound payload =
        stitched after ((frameExchanges server frame w).filterMap (·.reply)) := by
      rw [whole] at short ⊢
      exact splitCompound_stitch after _ responses short
    constructor
    · rw [split, ← stitchResponses_eq, ← whole]
    · rw [split]
      exact readable_stitched after _ built

end

/-! ### A new connection -/

open scoped Sample

/-- The world of a connection that has just been accepted. -/
def Sample.freshWorld : World Unit Unit where
  conn := Connection.new 1 (ByteVec.zero 16) 65536 65536
  env := (System.start Sample.server () : System Unit Unit).env

/-- A NEGOTIATE of 3.1.1 is answered with a readable payload. -/
theorem negotiate_readable : ∃ payload,
    (dispatchFrame Sample.server (Client.plain .negotiate 0 0 (Client.negotiateBody [0x0311]))
      Sample.freshWorld).1 = some payload ∧
    (splitCompound payload).flatten = payload ∧
      ∀ e ∈ splitCompound payload, ∃ hdr body, Smb2Header.parse e = some (hdr, body) ∧
        Readable (expectedKind hdr.command hdr.channelSequenceStatus) body := by
  have answered : (dispatchFrame Sample.server
      (Client.plain .negotiate 0 0 (Client.negotiateBody [0x0311])) Sample.freshWorld).1.any
        (fun payload => decide (payload.length < 2 ^ 32)) = true := by decide +kernel
  obtain ⟨payload, answer, short⟩ := (Option.any_eq_true _ _).mp answered
  exact ⟨payload, answer, replies_readable _ _ payload _ answer (of_decide_eq_true short)⟩

end SmbServer
