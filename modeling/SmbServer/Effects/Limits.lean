import SmbServer.Effects.Exchange
import SmbServer.Effects.Gather
import SmbServer.Effects.Sizes
import SmbServer.Effects.System

/-!
# SmbServer.Effects.Limits

How long a reply can get. `replyLimit` is read off the request as it was received: the lengths that
READ and QUERY_DIRECTORY ask for, and constants for the other commands. `Measured` is what the
connection has to remember for the limit to hold.
-/

namespace SmbServer

open Lib

/-- What the application promises about sizes: a read returns no more than it was asked for, and
no name is longer than `n` bytes. -/
structure Host.Sized (σ : Type) {η : Type} [Host σ η] (n : Nat) : Prop where
  read : ∀ (h : η) offset len (s : σ) bytes,
    (Host.read h offset len s).1 = .ok bytes → bytes.length ≤ len.toNat
  stat : ∀ (h : η) (s : σ) info, (Host.stat h s).1 = .ok info → info.nameSize ≤ n
  listDir : ∀ (h : η) pattern (s : σ) entries,
    (Host.listDir h pattern s).1 = .ok entries → ∀ e ∈ entries, e.info.nameSize ≤ n

/-- The longest successful body for a request. -/
def bodyLimit (config : ServerConfig) (n : Nat) (command : Command) (body : Bytes) : Nat :=
  match command with
  | .negotiate => 156
  | .sessionSetup => 171 + 3 * (utf16le config.netbiosName).length
  | .treeConnect => 16
  | .create => 144
  | .close => 60
  | .read =>
    if readU32 body 4 > config.maxReadSize then 0 else 16 + (readU32 body 4).toNat
  | .write => 16
  | .ioctl => 72
  | .queryDirectory => 8 + max (readU32 body 28).toNat (InfoClass.align8 (104 + n))
  | .queryInfo => 109 + n
  | .oplockBreak => 24
  | _ => 4

/-- The longest reply to an element; an error has a body of nine bytes. -/
def replyLimit (config : ServerConfig) (n : Nat) (sub : Bytes) : Nat :=
  match Smb2Header.parse sub with
  | none => 0
  | some (hdr, body) => smb2HeaderLen + max 9 (bodyLimit config n hdr.command body)

/-- A response whose body is an error or within a limit. -/
def HandlerResponse.Sized (limit : Nat) (r : HandlerResponse) : Prop :=
  r.body.length ≤ max 9 limit

namespace HandlerResponse

variable {limit : Nat}

theorem sized_err (status : NtStatus) : (err status).Sized limit := Nat.le_max_left 9 limit

theorem sized_ok {body : Bytes} (h : body.length ≤ limit) : (ok body).Sized limit :=
  h.trans (Nat.le_max_right 9 limit)

end HandlerResponse

variable {σ η : Type} [Host σ η]

section
variable {server : ServerState} {hdr : Smb2Header} {body : Bytes} {n : Nat}

open HandlerResponse (sized_err sized_ok)

/-! ### The handlers without a length of their own -/

theorem Negotiate.length_contexts (salt : Bytes) (len : salt.length = 32) :
    (NegotiateContext.encodeList (responseContexts salt)).length = 60 := by
  simp [NegotiateContext.encodeList, NegotiateContext.encodeListFrom, responseContexts,
    NegotiateContext.write, PreauthIntegrityCapabilities.write, SigningCapabilities.write, len]

/-- The fixed part, the token, and the contexts with the padding in front of them. -/
theorem Negotiate.length_responseBody_le (resp : NegotiateResponse) (contexts : Bytes)
    (token : resp.securityBuffer = encodeInitResponse)
    (offset : resp.negotiateContextOffsetOrReserved2.toNat ≤ 160)
    (short : contexts.length ≤ 60) : (responseBody resp contexts).length ≤ 156 := by
  have init : encodeInitResponse.length = 30 := rfl
  have body : resp.write.length = 94 := by
    simp [NegotiateResponse.write, token, init]
  simp only [responseBody]
  split
  · omega
  · simp only [List.length_append, List.length_replicate, body]
    omega

theorem Negotiate.handle_sized :
    Action.Returns (HandlerResponse.Sized 156)
      (Negotiate.handle server body : Action (World σ η) _) := by
  have offset : (contextOffset encodeInitResponse).toNat ≤ 160 := by decide
  have none : (0 : UInt32).toNat ≤ 160 := by decide
  have sized (resp : NegotiateResponse) (contexts : Bytes)
      (token : resp.securityBuffer = encodeInitResponse)
      (offset : resp.negotiateContextOffsetOrReserved2.toNat ≤ 160) (short : contexts.length ≤ 60) :
      HandlerResponse.Sized 156
        { HandlerResponse.ok (responseBody resp contexts) with skipSigning := true } :=
    (length_responseBody_le resp contexts token offset short).trans (Nat.le_max_right 9 156)
  rw [Negotiate.handle]
  split
  · exact .pure (sized_err _)
  split
  · exact .pure (sized_err _)
  split
  · exact .pure (sized_err _)
  refine .bind fun _ => ?_
  split
  -- the contexts of 3.1.1 are there with a salt, and otherwise the list is empty
  · refine .bind fun salt => .seq (P := (· = responseContexts salt.val)) (.pure rfl) ?_
    rintro _ rfl
    refine .bind fun _ => .bind fun _ => .pure ?_
    exact sized _ _ rfl offset (length_contexts _ salt.length_val).le
  · refine .seq (P := (· = [])) (.pure rfl) ?_
    rintro _ rfl
    refine .bind fun _ => .bind fun _ => .pure ?_
    exact sized _ _ rfl none (Nat.zero_le 60)

omit [Host σ η] in
theorem SessionSetup.length_buildResponse (blob : Bytes) (flags : UInt16) :
    (buildResponse blob flags).length = 8 + blob.length := by
  simp only [buildResponse, SessionSetupResponse.write, List.length_append, length_u16le]

theorem SessionSetup.handle_sized [Crypto] :
    Action.Returns
      (HandlerResponse.Sized (171 + 3 * (utf16le server.config.netbiosName).length))
      (SessionSetup.handle server hdr body : Action (World σ η) _) := by
  rw [SessionSetup.handle]
  split
  · exact .pure (sized_err _)
  split
  -- the first leg answers with a challenge, the second with nine bytes
  · refine .bind fun sid => .bind fun challenge => .bind fun now => ?_
    dsimp only
    split
    · exact .pure (sized_err _)
    next acceptor started =>
      have blob := length_challenge _ _ _ _ _ started
      have token := length_encodeRespToken_le .acceptIncomplete acceptor.challenge.1
      refine .bind fun _ => .pure (Nat.le_trans ?_ (Nat.le_max_right 9 _))
      simp only [length_buildResponse]
      split <;> omega
  · rw [finalRound]
    split
    · exact .pure (sized_err _)
    refine .bind fun pending => ?_
    split
    · exact .pure (sized_err _)
    split
    · exact .pure (sized_err _)
    refine .bind fun conn => ?_
    split
    · exact .pure (sized_err _)
    · refine .bind fun _ => .pure (Nat.le_trans ?_ (Nat.le_max_right 9 _))
      have completed : (encodeRespToken .acceptCompleted none none none).length = 9 := rfl
      simp only [success, length_buildResponse]
      split <;> simp only [List.length_nil, completed] <;> omega

theorem Create.length_responseContexts_le (req : CreateRequest) :
    (responseContexts req).length ≤ 56 := by
  rw [responseContexts]
  split
  next ctx answered =>
    obtain ⟨aapl, -, built⟩ := Option.bind_eq_some_iff.mp answered
    simp only [buildAaplResponseContext] at built
    split at built
    · cases built
    split at built
    · cases built
    · obtain rfl := Option.some.inj built
      simp only [CreateContext.encodeChain, CreateContext.encodeEntry, CreateContext.nameAapl,
        CreateContext.pad8, List.length_append, length_u16le, length_u32le, length_u64le,
        List.length_replicate, List.length_cons, List.length_nil]
      split <;> split <;> simp
  · exact Nat.zero_le 56

theorem Create.length_response_le (req : CreateRequest) (intent : OpenIntent) (info : FileInfo)
    (fid : FileId) : (Create.response intent info fid (responseContexts req)).length ≤ 144 := by
  have contexts := length_responseContexts_le req
  simp only [Create.response, CreateResponse.write, List.length_append, length_u16le, length_u32le,
    length_u64le, FileId.length_write, List.length_cons, List.length_nil]
  omega

theorem TreeConnect.handle_sized :
    Action.Returns (HandlerResponse.Sized 16)
      (TreeConnect.handle server hdr body : Action (World σ η) _) := by
  refine TreeConnect.handle_returns sized_err fun share granted tid => ?_
  have length : (response share granted).length = 16 := by
    simp [response, TreeConnectResponse.write]
  exact length.le.trans (Nat.le_max_right 9 16)

theorem Close.length_response (req : CloseRequest) (info : Option FileInfo) :
    (Close.response req info).length = 60 := by
  simp [Close.response, CloseResponse.write]

theorem Ioctl.length_response (server : ServerState) (req : IoctlRequest) (conn : Connection η) :
    (Ioctl.response req (validateNegotiateInfo server conn)).length = 72 := by
  simp [Ioctl.response, IoctlResponse.write, validateNegotiateInfo]

theorem QueryInfo.handle_sized (promises : Host.Sized σ n) :
    Action.Returns (HandlerResponse.Sized (109 + n))
      (QueryInfo.handle hdr body : Action (World σ η) _) := by
  refine QueryInfo.handle_returns sized_err fun req infoType fid h s caps buf encoded => ?_
  have short := length_buffer_le infoType req fid _ caps buf n (promises.stat h s) encoded
  rw [respond]
  split
  · exact sized_err _
  · refine sized_ok ?_
    simp only [BufferResponse.write, List.length_append, length_u16le, length_u32le]
    omega

end

/-! ### QUERY_DIRECTORY -/

namespace QueryDirectory

/-- The longest entry, padded. -/
abbrev entryLimit (n : Nat) : Nat := InfoClass.align8 (104 + n)

/-- The offset of the next entry fits behind the last one. -/
def Output.Linked (out : Output) : Prop := ∀ off, out.lastOffset = some off → off + 4 ≤ out.buf.length

theorem Output.length_push (out : Output) (linked : out.Linked) (bytes : Bytes) :
    (out.push bytes).buf.length = out.buf.length + InfoClass.align8 bytes.length := by
  have pads : bytes.length ≤ InfoClass.align8 bytes.length := by
    rw [InfoClass.align8]
    omega
  simp only [Output.push, List.length_append, List.length_replicate]
  cases last : out.lastOffset with
  | none =>
    dsimp only
    omega
  | some off =>
    rw [length_patch _ _ _ (by rw [length_u32le]; exact linked off last)]
    omega

theorem Output.linked_push (out : Output) (linked : out.Linked) (bytes : Bytes)
    (long : 4 ≤ bytes.length) : (out.push bytes).Linked := by
  intro off last
  have len := out.length_push linked bytes
  obtain rfl := Option.some.inj last
  rw [len, InfoClass.align8]
  omega

/-- The buffer stays within what the client allows, or holds a single entry. -/
theorem length_fill_le (infoClass : UInt8) (cap : Nat) (single : Bool) (n : Nat)
    (entries : List DirEntry) (out : Output) (short : ∀ e ∈ entries, e.info.nameSize ≤ n)
    (linked : out.Linked) (fits : out.buf.length ≤ max cap (entryLimit n)) :
    (fill infoClass cap single entries out).1.buf.length ≤ max cap (entryLimit n) := by
  induction entries generalizing out with
  | nil => exact fits
  | cons entry rest ih =>
    have others : ∀ e ∈ rest, e.info.nameSize ≤ n := fun e member =>
      short e (List.mem_cons_of_mem _ member)
    have here := short entry List.mem_cons_self
    have size := InfoClass.length_encodeDirEntry_le infoClass entry entry.info.fileIndex
    rw [fill]
    dsimp only
    split
    · exact ih out others linked fits
    next encoded =>
    have long := InfoClass.length_encodeDirEntry_ge infoClass entry entry.info.fileIndex
      (by simpa using encoded)
    split
    · exact fits
    next room =>
    generalize InfoClass.encodeDirEntry infoClass entry entry.info.fileIndex = bytes
      at size long room ⊢
    -- Either the buffer was empty, or the entry was found to fit.
    have pushed : (out.push bytes).buf.length ≤ max cap (entryLimit n) := by
      rw [out.length_push linked]
      have aligned : InfoClass.align8 bytes.length ≤ entryLimit n := by
        simp only [entryLimit, InfoClass.align8]
        omega
      simp only [Bool.and_eq_true, decide_eq_true_eq, Bool.not_eq_true', not_and,
        Bool.not_eq_false, List.isEmpty_iff] at room
      by_cases beyond : cap < out.buf.length + InfoClass.align8 bytes.length
      · rw [room beyond, List.length_nil, Nat.zero_add]
        exact aligned.trans (Nat.le_max_right _ _)
      · exact (Nat.le_of_not_lt beyond).trans (Nat.le_max_left _ _)
    split
    · exact pushed
    · exact ih _ others (out.linked_push linked bytes long) pushed

end QueryDirectory

/-! ### What a connection remembers -/

/-- The listing that an open holds. -/
def Open.cursors (file : Open η) : Multiset DirCursor := (file.searchState.toList : Multiset _)

/-- The connection reads at most what the server is configured for, and lists no name that is too
long. -/
structure Measured (config : ServerConfig) (n : Nat) (conn : Connection η) : Prop where
  maxReadSize : conn.maxReadSize = config.maxReadSize
  names : ∀ c ∈ conn.gather Open.cursors, ∀ e ∈ c.entries, e.info.nameSize ≤ n

section
variable {config : ServerConfig} {n : Nat} {conn conn' : Connection η}
omit [Host σ η]

theorem Measured.mono (h : Measured config n conn) (size : conn'.maxReadSize = conn.maxReadSize)
    (less : conn'.gather Open.cursors ≤ conn.gather Open.cursors) : Measured config n conn' :=
  ⟨size.trans h.maxReadSize, fun c member => h.names c (Multiset.mem_of_le less member)⟩

theorem Measured.storeCursor (h : Measured config n conn) (sid : UInt64) (tid : UInt32)
    (fid : FileId) (cursor : DirCursor) (short : ∀ e ∈ cursor.entries, e.info.nameSize ≤ n) :
    Measured config n (QueryDirectory.storeCursor sid tid fid cursor conn) := by
  refine ⟨h.maxReadSize, fun c member => ?_⟩
  have stored := conn.gather_modifyOpen_le Open.cursors sid tid fid
    (fun file => { file with searchState := some cursor }) {cursor}
    fun file => Multiset.le_add_left _ _
  rcases Multiset.mem_add.mp (Multiset.mem_of_le stored member) with old | new
  · exact h.names c old
  · obtain rfl := Multiset.mem_singleton.mp new
    exact short

/-- The listing of an open that the connection has. -/
theorem Measured.cursor (h : Measured config n conn) (sid : UInt64) (tid : UInt32) (fid : FileId)
    (cursor : DirCursor) (found : (conn.findOpen sid tid fid).bind (·.searchState) = some cursor) :
    ∀ e ∈ cursor.entries, e.info.nameSize ≤ n := by
  obtain ⟨file, here, listing⟩ := Option.bind_eq_some_iff.mp found
  have own : cursor ∈ file.cursors := by simp [Open.cursors, listing]
  exact h.names cursor (Multiset.mem_of_le (conn.le_gather Open.cursors _ _ _ file here) own)

end

section
variable {config : ServerConfig} {n : Nat} {hdr : Smb2Header} {body : Bytes}

open HandlerResponse (sized_err sized_ok)

theorem QueryDirectory.populate_measured (promises : Host.Sized σ n) (sid : UInt64)
    (req : QueryDirectoryRequest) (target : Target η) (w : World σ η)
    (h : Measured config n w.conn) : Measured config n (populate sid req target w).2.conn := by
  rw [populate]
  split
  · exact h
  cases target.file.handle with
  | none => exact h
  | some b =>
  simp only [Action.bind_apply, Boxed.listDir, issue_apply]
  cases listed : (Host.listDir b.inner (patternOf req) w.env.host).1 with
  | error e => exact h
  | ok entries =>
    -- the snapshot is a part of what the backend has listed
    have short := promises.listDir b.inner _ _ entries listed
    refine h.storeCursor _ _ _ _ fun e member => short e ?_
    unfold snapshot at member
    dsimp only at member
    split at member
    · exact (List.mem_filter.mp member).1
    · exact member

omit [Host σ η] in
theorem QueryDirectory.emit_sized (sid : UInt64) (req : QueryDirectoryRequest) (target : Target η)
    (w : World σ η) (h : Measured config n w.conn) :
    (emit sid req target w).1.Sized (8 + max req.outputBufferLength.toNat (entryLimit n)) ∧
      Measured config n (emit sid req target w).2.conn := by
  simp only [emit, Action.bind_apply, getConn_apply]
  cases found : (w.conn.findOpen sid target.tid req.fileId).bind (·.searchState) with
  | none => exact ⟨sized_err _, h⟩
  | some cursor =>
    have short := h.cursor _ _ _ cursor found
    have filled := length_fill_le req.fileInformationClass req.outputBufferLength.toNat
      (singleEntry req) n (cursor.entries.drop cursor.next) ⟨[], none⟩
      (fun e member => short e (List.mem_of_mem_drop member)) nofun (Nat.zero_le _)
    cases result : fill req.fileInformationClass req.outputBufferLength.toNat (singleEntry req)
      (cursor.entries.drop cursor.next) ⟨[], none⟩ with
    | mk out moved =>
    rw [result] at filled
    simp only [result, Action.bind_apply, modifyConn_apply]
    -- the cursor moves on in the same entries
    have stored := h.storeCursor sid target.tid req.fileId
      { cursor with next := cursor.next + moved } short
    split
    · exact ⟨sized_err _, stored⟩
    · refine ⟨sized_ok ?_, stored⟩
      simp only [BufferResponse.write, List.length_append, length_u16le, length_u32le] at filled ⊢
      omega

theorem QueryDirectory.handle_sized (promises : Host.Sized σ n) (w : World σ η)
    (h : Measured config n w.conn) :
    (handle hdr body w).1.Sized (8 + max (readU32 body 28).toNat (entryLimit n)) ∧
      Measured config n (handle hdr body w).2.conn := by
  simp only [handle, Action.bind_apply, getConn_apply]
  cases admitted : validate w.conn hdr body with
  | error status => exact ⟨sized_err _, h⟩
  | ok pair =>
    obtain ⟨req, target⟩ := pair
    have length : req.outputBufferLength = readU32 body 28 :=
      QueryDirectoryRequest.outputBufferLength_eq (validate_eq_ok w.conn req target admitted).1
    have populated := populate_measured promises hdr.sessionId req target w h
    simp only [Action.bind_apply]
    -- only the connection behind the loading matters from here on
    revert populated
    generalize populate hdr.sessionId req target w = result
    obtain ⟨answer, w'⟩ := result
    intro populated
    cases answer with
    | error status => exact ⟨sized_err _, populated⟩
    | ok =>
      rw [← length]
      exact emit_sized hdr.sessionId req target w' populated

theorem Read.handle_sized (promises : Host.Sized σ n) (w : World σ η)
    (h : Measured config n w.conn) :
    (handle hdr body w).1.Sized
      (if readU32 body 4 > config.maxReadSize then 0 else 16 + (readU32 body 4).toNat) := by
  split
  next tooLong =>
    cases parsed : ReadRequest.parse body with
    | none =>
      simp only [handle, parsed]
      exact sized_err _
    | some req =>
      have refused : req.length > w.conn.maxReadSize := by
        rw [ReadRequest.length_eq parsed, h.maxReadSize]
        exact tooLong
      simp only [handle, parsed]
      refine returns_withConn w ?_
      rw [if_pos refused]
      exact .pure (sized_err _)
  next =>
    refine Read.handle_returns sized_err (fun req bytes b s parsed answered => sized_ok ?_) w
    -- the backend returns at most what is asked for, which is the length of the request
    have short := promises.read b _ _ s bytes answered
    rw [ReadRequest.length_eq parsed] at short
    simp only [response, ReadResponse.write, List.length_append, length_u16le, length_u32le,
      List.length_cons, List.length_nil]
    omega

end

/-! ### One element -/

section
variable [Crypto] {n : Nat}

open HandlerResponse (sized_err sized_ok) in
theorem dispatchCommand_sized (promises : Host.Sized σ n) (server : ServerState)
    (hdr : Smb2Header) (body : Bytes) (w : World σ η)
    (measured : hdr.command = .read ∨ hdr.command = .queryDirectory →
      Measured server.config n w.conn) :
    (dispatchCommand server hdr body w).1.Sized (bodyLimit server.config n hdr.command body) := by
  have empty : emptyResponse.length = 4 := rfl
  rw [dispatchCommand]
  cases cmd : hdr.command with
  | negotiate => exact Negotiate.handle_sized w
  | sessionSetup => exact SessionSetup.handle_sized w
  | logoff => exact Logoff.handle_returns sized_err (sized_ok empty.le) w
  | treeConnect => exact TreeConnect.handle_sized w
  | treeDisconnect => exact TreeDisconnect.handle_returns sized_err (sized_ok empty.le) w
  | create =>
    have short := Create.length_response_le
    exact Create.handle_returns sized_err (fun _ _ _ _ => sized_ok (short _ _ _ _)) w
  | close =>
    have length := Close.length_response
    exact Close.handle_returns sized_err (fun _ _ => sized_ok (length _ _).le) w
  | flush => exact Flush.handle_returns sized_err (sized_ok empty.le) w
  | read => exact Read.handle_sized promises w (measured (.inl cmd))
  | write => exact Write.handle_returns sized_err (fun _ => sized_ok (Nat.le_refl 16)) w
  | ioctl =>
    have length := Ioctl.length_response (η := η) server
    exact Ioctl.handle_returns sized_err (fun _ _ => sized_ok (length _ _).le) w
  | queryDirectory => exact (QueryDirectory.handle_sized promises w (measured (.inr cmd))).1
  | queryInfo => exact QueryInfo.handle_sized promises w
  | setInfo =>
    have two : setInfoResponse.length ≤ 4 := by decide
    exact SetInfo.handle_returns sized_err (sized_ok two) w
  | lock | echo => exact sized_ok empty.le
  | oplockBreak => exact sized_ok (Nat.le_refl 24)
  | changeNotify | cancel => exact sized_err _

/-- A reply is no longer than the limit of its request. -/
theorem dispatchOne_limit (promises : Host.Sized σ n) (server : ServerState) (frame : Bytes)
    (ordinal : UInt32) (w : World σ η) (measured : Measured server.config n w.conn) (reply : Bytes)
    (sent : (dispatchOne server frame ordinal w).1 = some reply) :
    reply.length ≤ replyLimit server.config n frame := by
  have outcome := dispatchOne_cases server frame ordinal w
  rw [sent] at outcome
  revert outcome
  generalize (dispatchOne server frame ordinal w).2 = after
  generalize answer : some reply = answered
  intro outcome
  cases outcome with
  | malformed => cases answer
  | cancelled => cases answer
  | rejected hdr body status _ parsed =>
    obtain rfl := Option.some.inj answer
    have short : (HandlerResponse.err status).Sized (bodyLimit server.config n hdr.command body) :=
      HandlerResponse.sized_err status
    rw [length_buildResponseBytes, replyLimit, parsed]
    exact Nat.add_le_add_left short _
  | handled hdr body w₁ parsed _ _ same =>
    obtain rfl := Option.some.inj answer
    -- reads and listings run on the connection that the frame found
    have built : ∃ (conn : Connection η) (w₂ : World σ η),
        (runHandler server hdr frame body w₁).1 =
          buildResponseBytes conn hdr (dispatchCommand server hdr body w₂).1 ∧
        (hdr.command = .read ∨ hdr.command = .queryDirectory → w₂ = w₁) := by
      by_cases hashed : hdr.command = .negotiate ∨ hdr.command = .sessionSetup
      · refine ⟨_, _, rfl, fun cmd => ?_⟩
        rcases hashed with hashed | hashed <;> simp [hashed] at cmd
      · obtain ⟨noNegotiate, noSetup⟩ := not_or.mp hashed
        have run := runHandler_of_ne server hdr frame body noNegotiate noSetup w₁
        exact ⟨_, w₁, run.1, fun _ => rfl⟩
    obtain ⟨conn, w₂, built, here⟩ := built
    have short := dispatchCommand_sized promises server hdr body w₂ fun cmd => by
      rw [here cmd, same.conn]
      exact measured
    rw [built, length_buildResponseBytes, replyLimit, parsed]
    exact Nat.add_le_add_left short _

/-- What a connection has to remember stays. -/
theorem dispatchOne_measured {config : ServerConfig} (promises : Host.Sized σ n)
    (server : ServerState) (frame : Bytes) (ordinal : UInt32) (w : World σ η)
    (h : Measured config n w.conn) :
    Measured config n (dispatchOne server frame ordinal w).2.conn := by
  rcases dispatchOne_effect server frame ordinal w with same | ⟨hdr, body, accepted, run⟩
  · exact same.conn ▸ h
  -- a CREATE registers an open without a cursor; a listing has just been measured
  by_cases create : hdr.command = .create
  · rcases dispatchOne_create server frame ordinal w hdr body accepted create with
      same | ⟨plan, -, outcome⟩
    · exact same.conn ▸ h
    cases outcome with
    | refused _ conn | abandoned _ _ _ conn => exact conn ▸ h
    | registered inner info _ _ conn =>
      rw [conn]
      have added := w.conn.gather_register_le Open.cursors hdr.sessionId plan.tid plan.tree
        (plan.file ⟨w.env.nextHandle, inner⟩ info)
      exact h.mono rfl (added.trans_eq (add_zero _))
  by_cases lists : hdr.command = .queryDirectory
  · obtain ⟨w₁, before, after⟩ := dispatchOne_of_accepted server frame ordinal w hdr body accepted
      (by simp [lists]) (by simp [lists])
    rw [after.conn]
    simp only [dispatchCommand, lists]
    exact (QueryDirectory.handle_sized promises w₁ (before.conn ▸ h)).2
  · exact h.mono (Edits.maxReadSize run.conn) (Edits.gather_le Open.cursors run.conn create
      (fun _ _ => rfl) (fun _ _ => rfl) fun cmd => absurd cmd lists)

end

end SmbServer
