import SmbServer.Effects.Exchange
import SmbServer.Effects.Failure

/-!
# SmbServer.Effects.Negotiation

What a frame does to the negotiated state of its connection, and what is said about that state on
the wire: by the two kinds of NEGOTIATE response and by FSCTL_VALIDATE_NEGOTIATE_INFO.
-/

namespace SmbServer

open Lib

variable {σ η : Type}

/-! ### NEGOTIATE -/

/-- The dialect that a NEGOTIATE body leads to. -/
def Negotiate.picks (body : Bytes) : Option Dialect :=
  (NegotiateRequest.parse body).bind fun req => (choose req.dialects).bind Dialect.fromU16

/-- A successful response with this dialect and these capabilities; server GUID and security mode
are those of the server. -/
structure Announces (server : ServerState) (reply : Bytes) (dialect : UInt16)
    (capabilities : UInt32) : Prop where
  status : readU32 reply 0x08 = statusSuccess
  securityMode : slice reply 0x42 2 = u16le Negotiate.negotiateSecurityMode
  dialect : slice reply 0x44 2 = u16le dialect
  serverGuid : slice reply 0x48 16 = server.config.serverGuid.val
  capabilities : slice reply 0x58 4 = u32le capabilities

variable [Host σ η] [Crypto]

omit [Host σ η] in
/-- The response of either path, as it is built. -/
theorem announces_buildResponseBytes (server : ServerState) (conn sized : Connection η)
    (hdr : Smb2Header) (dialect : UInt16) (capabilities : UInt32) (count : UInt16)
    (offset : UInt32) (now : UInt64) (rest : Bytes) :
    Announces server (buildResponseBytes conn hdr { HandlerResponse.ok ((Negotiate.response server
      sized dialect capabilities count offset now).write ++ rest) with skipSigning := true })
      dialect capabilities := by
  obtain ⟨mode, revision, guid, caps⟩ := NegotiateResponse.slices_write
    (Negotiate.response server sized dialect capabilities count offset now) rest
  refine ⟨readU32_status_buildResponseBytes conn hdr _, ?_, ?_, ?_, ?_⟩
  · exact (slice_body_buildResponseBytes conn hdr _ 2 2).trans mode
  · exact (slice_body_buildResponseBytes conn hdr _ 4 2).trans revision
  · exact (slice_body_buildResponseBytes conn hdr _ 8 16).trans guid
  · exact (slice_body_buildResponseBytes conn hdr _ 24 4).trans caps

/-- What NEGOTIATE does: nothing but an error, or the commit of the dialect it picks. -/
inductive Negotiate.Outcome (server : ServerState) (body : Bytes) (w : World σ η) :
    HandlerResponse → World σ η → Prop where
  | refused (status : NtStatus) (picks : picks body = none) (failed : status ≠ statusSuccess) :
      Outcome server body w (.err status) w
  | committed (d : Dialect) (guid : ByteVec 16) (sized : Connection η) (count : UInt16)
      (offset : UInt32) (now : UInt64) (rest : Bytes) (w' : World σ η) (picks : picks body = some d)
      (conn : w'.conn = commit d guid w.conn) :
      Outcome server body w { HandlerResponse.ok ((response server sized d.asU16
        negotiateCapabilities count offset now).write ++ rest) with skipSigning := true } w'

omit [Crypto] in
theorem Negotiate.handle_outcome (server : ServerState) (body : Bytes) (w : World σ η) :
    Outcome server body w (handle server body w).1 (handle server body w).2 := by
  have invalid : statusInvalidParameter ≠ statusSuccess := by decide
  have unsupported : statusNotSupported ≠ statusSuccess := by decide
  rw [handle]
  cases parsed : NegotiateRequest.parse body with
  | none => exact .refused _ (by rw [picks, parsed, Option.bind_none]) invalid
  | some req =>
    cases chosen : choose req.dialects with
    | none =>
      simp only [chosen]
      exact .refused _ (by rw [picks, parsed, Option.bind_some, chosen, Option.bind_none])
        unsupported
    | some number =>
      cases read : Dialect.fromU16 number with
      | none =>
        simp only [chosen, read]
        exact .refused _ (by rw [picks, parsed, Option.bind_some, chosen, Option.bind_some, read])
          unsupported
      | some d =>
        have picked : picks body = some d := by
          rw [picks, parsed, Option.bind_some, chosen, Option.bind_some, read]
        have written (resp : NegotiateResponse) (contexts : Bytes) :
            ∃ rest, responseBody resp contexts = resp.write ++ rest := by
          rw [responseBody]
          split
          · exact ⟨[], (List.append_nil _).symm⟩
          · exact ⟨_, List.append_assoc _ _ _⟩
        obtain rfl := Dialect.asU16_of_fromU16 read
        -- only 3.1.1 draws a salt and adds contexts
        by_cases modern : d = .smb311
        · subst modern
          simp only [chosen, read, if_true, Action.bind_apply, Action.pure_apply, getConn_apply]
          obtain ⟨rest, shape⟩ := written (response server _ _ _ _ _ _) _
          rw [shape]
          exact .committed _ req.clientGuid _ _ _ _ rest _ picked rfl
        · simp only [chosen, read, modern, if_false, Action.bind_apply, Action.pure_apply, getConn_apply]
          obtain ⟨rest, shape⟩ := written (response server _ _ _ _ _ _) _
          rw [shape]
          exact .committed _ req.clientGuid _ _ _ _ rest _ picked rfl

/-- A request that the server executes as a NEGOTIATE for this dialect. -/
def Negotiates (conn : Connection η) (frame : Bytes) (d : Dialect) : Prop :=
  ∃ hdr body, Accepted conn frame hdr body ∧ hdr.command = .negotiate ∧
    Negotiate.picks body = some d

omit [Host σ η] in
/-- A frame is executed as one request only. -/
theorem Negotiates.unique {conn : Connection η} {frame : Bytes} {d d' : Dialect}
    (h : Negotiates conn frame d) (h' : Negotiates conn frame d') : d = d' := by
  obtain ⟨hdr, body, ⟨parsed, -⟩, -, picked⟩ := h
  obtain ⟨hdr', body', ⟨parsed', -⟩, -, picked'⟩ := h'
  obtain ⟨rfl, rfl⟩ := Prod.mk.inj (Option.some.inj (parsed.symm.trans parsed'))
  exact Option.some.inj (picked.symm.trans picked')

/-- An element and the negotiated state of its connection. -/
inductive DialectStep (server : ServerState) (frame : Bytes) (w : World σ η) :
    Option Bytes → Connection η → Prop where
  /-- A NEGOTIATE commits what it announces. -/
  | commits (d : Dialect) (reply : Bytes) (conn' : Connection η) (here : Negotiates w.conn frame d)
      (announces : Announces server reply d.asU16 Negotiate.negotiateCapabilities)
      (dialect : conn'.dialect = some d) (algo : conn'.signingAlgo = Negotiate.signingAlgoFor d) :
      DialectStep server frame w (some reply) conn'
  /-- Every other element leaves it alone; a NEGOTIATE among them has failed. -/
  | keeps (answer : Option Bytes) (conn' : Connection η) (not : ∀ d, ¬Negotiates w.conn frame d)
      (failed : ∀ hdr body reply, Smb2Header.parse frame = some (hdr, body) →
        hdr.command = .negotiate → answer = some reply → readU32 reply 0x08 ≠ statusSuccess)
      (dialect : conn'.dialect = w.conn.dialect) (algo : conn'.signingAlgo = w.conn.signingAlgo) :
      DialectStep server frame w answer conn'

/-- NEGOTIATE with the hashing around it. -/
theorem runHandler_negotiate (server : ServerState) (hdr : Smb2Header) (frame body : Bytes)
    (w : World σ η) (cmd : hdr.command = .negotiate) :
    (∃ d, Negotiate.picks body = some d ∧
        Announces server (runHandler server hdr frame body w).1 d.asU16
          Negotiate.negotiateCapabilities ∧
        (runHandler server hdr frame body w).2.conn.dialect = some d ∧
        (runHandler server hdr frame body w).2.conn.signingAlgo = Negotiate.signingAlgoFor d) ∨
      (Negotiate.picks body = none ∧
        readU32 (runHandler server hdr frame body w).1 0x08 ≠ statusSuccess ∧
        (runHandler server hdr frame body w).2.conn.dialect = w.conn.dialect ∧
        (runHandler server hdr frame body w).2.conn.signingAlgo = w.conn.signingAlgo) := by
  have handler (w : World σ η) : dispatchCommand server hdr body w = Negotiate.handle server body w := by
    simp only [dispatchCommand, cmd]
  have before := Kept.of_edits (preauthBefore_quiet frame w : Quiet hdr w _).conn
  simp only [runHandler, Action.bind_apply, getConn_apply, Action.pure_apply, handler]
  revert before
  generalize preauthBefore hdr frame w = hashed
  obtain ⟨sessionPreauth, w₁⟩ := hashed
  intro before
  have outcome := Negotiate.handle_outcome server body w₁
  have noSnapshot := Negotiate.handle_noSnapshot server body w₁
  revert outcome noSnapshot
  generalize Negotiate.handle server body w₁ = result
  obtain ⟨resp, w₂⟩ := result
  intro outcome noSnapshot
  dsimp only at outcome noSnapshot before ⊢
  rw [takeSnapshot_of_none _ noSnapshot]
  -- behind the handler only the transcript changes
  have last (bytes : Bytes) (event : TraceEvent) : Kept hdr w₂.conn (preauthAfter hdr w.conn.dialect
      sessionPreauth bytes (record server.traceSink event w₂).2).2.conn := by
    have hashed : Quiet hdr _ _ := preauthAfter_quiet w.conn.dialect sessionPreauth bytes
      (record server.traceSink event w₂).2
    rw [← (alike_record server.traceSink event w₂).conn]
    exact Kept.of_edits hashed.conn
  cases outcome with
  | refused status picks failed =>
    refine .inr ⟨picks, ?_, ?_, ?_⟩
    · rwa [readU32_status_buildResponseBytes]
    · exact (last _ _).dialect.trans before.dialect
    · exact (last _ _).signingAlgo.trans before.signingAlgo
  | committed d guid sized count offset now rest _ picks conn =>
    refine .inl ⟨d, picks, announces_buildResponseBytes _ _ _ _ _ _ _ _ _ _, ?_, ?_⟩
    · exact (last _ _).dialect.trans (by rw [conn]; rfl)
    · exact (last _ _).signingAlgo.trans (by rw [conn]; rfl)

theorem dispatchOne_dialect (server : ServerState) (frame : Bytes) (ordinal : UInt32)
    (w : World σ η) :
    DialectStep server frame w (dispatchOne server frame ordinal w).1
      (dispatchOne server frame ordinal w).2.conn := by
  have outcome := dispatchOne_cases server frame ordinal w
  revert outcome
  generalize (dispatchOne server frame ordinal w).1 = answer
  generalize (dispatchOne server frame ordinal w).2 = after
  intro outcome
  cases outcome with
  | malformed _ unparsed same =>
    refine .keeps _ _ ?_ ?_ (by rw [same.conn]) (by rw [same.conn])
    · rintro d ⟨hdr, body, ⟨parsed, -⟩, -⟩
      rw [unparsed] at parsed
      cases parsed
    · intro hdr body reply parsed
      rw [unparsed] at parsed
      cases parsed
  | rejected hdr body status _ parsed rejected same =>
    -- NEGOTIATE is not verified, so it is not rejected either
    have noNegotiate : hdr.command ≠ .negotiate := by
      intro cmd
      rw [verifyRequestSignature, if_pos cmd] at rejected
      cases rejected
    refine .keeps _ _ ?_ ?_ (by rw [same.conn]) (by rw [same.conn])
    · rintro d ⟨hdr', body', ⟨parsed', -⟩, cmd, -⟩
      obtain ⟨rfl, rfl⟩ := Prod.mk.inj (Option.some.inj (parsed.symm.trans parsed'))
      exact noNegotiate cmd
    · intro hdr' body' reply parsed' cmd
      obtain ⟨rfl, rfl⟩ := Prod.mk.inj (Option.some.inj (parsed.symm.trans parsed'))
      exact absurd cmd noNegotiate
  | cancelled hdr body _ parsed _ cancel same =>
    refine .keeps _ _ ?_ nofun (by rw [same.conn]) (by rw [same.conn])
    rintro d ⟨hdr', body', ⟨parsed', -⟩, cmd, -⟩
    obtain ⟨rfl, rfl⟩ := Prod.mk.inj (Option.some.inj (parsed.symm.trans parsed'))
    rw [cancel] at cmd
    cases cmd
  | handled hdr body w₁ parsed verified noCancel same =>
    have accepted : Accepted w.conn frame hdr body := ⟨parsed, verified, noCancel⟩
    by_cases cmd : hdr.command = .negotiate
    · rcases runHandler_negotiate server hdr frame body w₁ cmd with
        ⟨d, picks, announces, dialect, algo⟩ | ⟨picks, failed, dialect, algo⟩
      · exact .commits d _ _ ⟨hdr, body, accepted, cmd, picks⟩ announces dialect algo
      · rw [same.conn] at dialect algo
        refine .keeps _ _ ?_ ?_ dialect algo
        · rintro d ⟨hdr', body', ⟨parsed', -⟩, -, picked⟩
          obtain ⟨rfl, rfl⟩ := Prod.mk.inj (Option.some.inj (parsed.symm.trans parsed'))
          rw [picks] at picked
          cases picked
        · rintro hdr' body' reply - - sent
          obtain rfl := Option.some.inj sent
          exact failed
    -- another command has no part in the dialect
    · have kept := Edits.dialect (runHandler_effect server hdr frame body w₁).conn cmd
      rw [same.conn] at kept
      refine .keeps _ _ ?_ ?_ kept.1 kept.2
      · rintro d ⟨hdr', body', ⟨parsed', -⟩, negotiates, -⟩
        obtain ⟨rfl, rfl⟩ := Prod.mk.inj (Option.some.inj (parsed.symm.trans parsed'))
        exact cmd negotiates
      · intro hdr' body' reply parsed' negotiates
        obtain ⟨rfl, rfl⟩ := Prod.mk.inj (Option.some.inj (parsed.symm.trans parsed'))
        exact absurd negotiates cmd

/-! ### What a frame announces -/

/-- A successful response to a NEGOTIATE, and whether it answers the SMB1 request. -/
structure Announcement where
  smb1 : Bool
  reply : Bytes

/-- The dialect is not the wildcard 0x02FF. -/
def Announcement.concrete (a : Announcement) : Bool :=
  slice a.reply 0x44 2 != u16le Dialect.smb2Wildcard.asU16

omit [Host σ η] in
def Exchange.announcement (x : Exchange η) : Option Announcement :=
  match Smb2Header.parse x.element.bytes, x.reply with
  | some (hdr, _), some reply =>
    if hdr.command = .negotiate ∧ readU32 reply 0x08 = statusSuccess then some ⟨false, reply⟩
    else none
  | _, _ => none

/-- The successful responses to NEGOTIATE that are built for a frame, sent or not. -/
def announcements (server : ServerState) (frame : Bytes) (w : World σ η) : List Announcement :=
  match smb1Choice frame with
  | some chosen => [⟨true, (handleSmb1MultiProtocol server chosen w).1⟩]
  | none => (frameExchanges server frame w).filterMap Exchange.announcement

/-- The connection after a number of announcements: what the last of them says. -/
def Spoken (server : ServerState) (spoken : List Announcement) (before after : Connection η) :
    Prop :=
  match spoken.getLast? with
  | none => after.dialect = before.dialect
  | some a => a.smb1 = false ∧ ∃ d, after.dialect = some d ∧
      Announces server a.reply d.asU16 Negotiate.negotiateCapabilities

omit [Host σ η] [Crypto] in
theorem Spoken.append {server : ServerState} {first second : List Announcement}
    {before between after : Connection η} (h : Spoken server first before between)
    (h' : Spoken server second between after) : Spoken server (first ++ second) before after := by
  cases last : second.getLast? with
  | none =>
    obtain rfl := List.getLast?_eq_none_iff.mp last
    rw [Spoken, List.getLast?_nil] at h'
    rw [List.append_nil]
    simpa only [Spoken, h'] using h
  | some a =>
    rw [Spoken, last] at h'
    rwa [Spoken, List.getLast?_append, last, Option.some_or]

theorem Exchange.spoken (server : ServerState) (e : Element) (w : World σ η) :
    Spoken server
      (Exchange.announcement ⟨e, w.conn, (dispatchOne server e.bytes e.ordinal w).1⟩).toList
      w.conn (dispatchOne server e.bytes e.ordinal w).2.conn := by
  have step := dispatchOne_dialect server e.bytes e.ordinal w
  revert step
  generalize (dispatchOne server e.bytes e.ordinal w).1 = answer
  generalize (dispatchOne server e.bytes e.ordinal w).2.conn = after
  intro step
  cases step with
  | commits d reply _ here announces dialect =>
    obtain ⟨hdr, body, ⟨parsed, -⟩, cmd, -⟩ := here
    simp only [announcement, parsed, cmd, announces.status, true_and, if_true, Option.toList_some]
    exact ⟨rfl, d, dialect, announces⟩
  | keeps _ _ not failed dialect =>
    -- an answer that announces nothing leaves the dialect alone
    have silent : Exchange.announcement ⟨e, w.conn, answer⟩ = none := by
      simp only [announcement]
      split
      next hdr body reply parsed =>
        rw [if_neg]
        rintro ⟨cmd, success⟩
        exact failed hdr body reply parsed cmd rfl success
      next => rfl
    rw [silent]
    exact dialect

omit [Host σ η] [Crypto] in
private theorem filterMap_cons_toList {α β : Type} (f : α → Option β) (x : α) (xs : List α) :
    (x :: xs).filterMap f = (f x).toList ++ xs.filterMap f := by
  rw [List.filterMap_cons]
  cases f x <;> rfl

theorem dispatchElements_spoken (fuel : Nat) (server : ServerState) (available : Bytes)
    (ctx : RelatedContext) (ordinal : UInt32) (w : World σ η) :
    Spoken server
      ((exchanges fuel server available ctx ordinal w).filterMap Exchange.announcement)
      w.conn (dispatchElements fuel server available ctx ordinal w).2.conn := by
  induction fuel generalizing available ctx ordinal w with
  | zero => exact rfl
  | succ fuel ih =>
    rw [exchanges, dispatchElements]
    cases split : splitElement available with
    | none => exact rfl
    | some parts =>
      obtain ⟨hdr, sub, next⟩ := parts
      have first := Exchange.spoken server ⟨sub, ctx, ordinal⟩ w
      rw [Element.bytes_of_splitElement split ctx ordinal] at first
      simp only [Action.bind_apply]
      rw [filterMap_cons_toList]
      -- the elements are dispatched from the front; the induction is on their number
      by_cases last : next = 0 ∨ available.length ≤ next
      · rw [if_pos last, if_pos last]
        exact first.append rfl
      · rw [if_neg last, if_neg last]
        exact first.append (ih _ _ _ _)

/-- What a frame announces is what it commits; an SMB1 request commits nothing. -/
theorem dispatchFrame_spoken (server : ServerState) (frame : Bytes) (w : World σ η)
    (noSmb1 : smb1Choice frame = none) :
    Spoken server (announcements server frame w) w.conn (dispatchFrame server frame w).2.conn := by
  rw [dispatchFrame_world server frame w noSmb1, announcements, noSmb1]
  exact dispatchElements_spoken _ _ _ _ _ _

/-- The response to an SMB1 request. -/
theorem announces_smb1 (server : ServerState) (chosen : UInt16) (w : World σ η) :
    Announces server (handleSmb1MultiProtocol server chosen w).1 chosen 0 := by
  have built := announces_buildResponseBytes server w.conn w.conn smb1RequestHeader chosen 0 0 0
    (Host.nowFiletime w.env.host).1 []
  rwa [List.append_nil] at built

omit [Crypto] in
/-- A removal leaves the negotiated state alone. -/
theorem Removal.dialect {before after : Connection η} (r : Removal before after) :
    after.dialect = before.dialect ∧ after.signingAlgo = before.signingAlgo := by
  cases r <;> exact ⟨rfl, rfl⟩

/-! ### VALIDATE_NEGOTIATE_INFO -/

/-- A request that the server executes as an FSCTL_VALIDATE_NEGOTIATE_INFO. -/
def Validates (conn : Connection η) (frame : Bytes) : Prop :=
  ∃ hdr body req, Accepted conn frame hdr body ∧ hdr.command = .ioctl ∧
    IoctlRequest.parse body = some req ∧ Fsctl.fromU32 req.ctlCode = .validateNegotiateInfo

/-- The request is answered with success and this output. -/
theorem dispatchOne_validate (server : ServerState) (frame : Bytes) (ordinal : UInt32)
    (w : World σ η) (validates : Validates w.conn frame) :
    ∃ reply, (dispatchOne server frame ordinal w).1 = some reply ∧
      readU32 reply 0x08 = statusSuccess ∧
      slice reply 0x70 24 = Ioctl.validateNegotiateInfo server w.conn := by
  obtain ⟨hdr, body, req, accepted, cmd, parsed, code⟩ := validates
  obtain ⟨w₁, before, answer, -⟩ := dispatchOne_answer server frame ordinal w hdr body accepted
    (by simp [cmd]) (by simp [cmd])
  have handler : (dispatchCommand server hdr body w₁).1 =
      .ok (Ioctl.response req (Ioctl.validateNegotiateInfo server w.conn)) := by
    simp only [dispatchCommand, cmd, Ioctl.handle, parsed, Action.bind_apply, getConn_apply, code,
      before.conn, Action.pure_apply]
  rw [handler] at answer
  refine ⟨_, answer, readU32_status_buildResponseBytes _ _ _, ?_⟩
  have long : (Ioctl.validateNegotiateInfo server w.conn).length = 24 := by
    simp [Ioctl.validateNegotiateInfo]
  -- the 24 bytes stand at 0x70 of the reply, 48 behind its header
  have output := IoctlResponse.slice_output
    { structureSize := 49, reserved := 0, ctlCode := req.ctlCode, fileId := req.fileId,
      inputOffset := 0, inputCount := 0, outputOffset := 0x70,
      outputCount := UInt32.ofNat (Ioctl.validateNegotiateInfo server w.conn).length, flags := 0,
      reserved2 := 0, output := Ioctl.validateNegotiateInfo server w.conn }
  dsimp only at output
  rw [long] at output
  exact (slice_body_buildResponseBytes _ hdr _ 48 24).trans output

end SmbServer
