import SmbServer.Effects.Exchange
import SmbServer.Effects.System

/-!
# SmbServer.Properties.CompoundShape

The structure of a compound response.

Main result:

  Over every run, the payload that answers a frame splits by `NextCommand` into one element for
  each element of the frame that is not a CANCEL accepted by the signature check, in the order of
  the requests. Each carries the command and the message id of its request, is flagged as a
  response and not as asynchronous, and is padded with zeros up to the next one.

Proof strategy: the frame is a list of exchanges; the payload is stitched from their replies and
splits into them as they were laid out. Laying out keeps the header but for `NextCommand` and the
signature.
-/

namespace SmbServer

open Lib

variable {σ η : Type} [Host σ η] [Crypto]

/-- The element of a payload that answers an exchange. -/
structure AnsweredBy (isLast : Bool) (x : Exchange η) (e : Bytes) : Prop where
  request : ∃ hdr body, Smb2Header.parse x.element.received = some (hdr, body) ∧
    readU16 e 0x0C = hdr.command.asU16 ∧ readU64 e 0x18 = hdr.messageId
  toRedir : hasFlag (readU32 e 0x10) smb2FlagsServerToRedir = true
  sync : hasFlag (readU32 e 0x10) smb2FlagsAsyncCommand = false
  next : (readU32 e 0x14).toNat = if isLast then 0 else e.length
  padded : ∃ reply, x.reply = some reply ∧
    e.length = (if isLast then reply.length else align8 reply.length) ∧
    e.drop reply.length = List.replicate (e.length - reply.length) 0

/-- The exchanges with a reply. -/
def replied (xs : List (Exchange η)) : List (Exchange η) := xs.filter (·.reply.isSome)

omit [Host σ η] in
/-- The flags of a response. -/
private theorem flags_buildResponseBytes (conn : Connection η) (hdr : Smb2Header)
    (resp : HandlerResponse) :
    hasFlag (readU32 (buildResponseBytes conn hdr resp) 0x10) smb2FlagsServerToRedir = true ∧
      hasFlag (readU32 (buildResponseBytes conn hdr resp) 0x10) smb2FlagsAsyncCommand = false := by
  have redir : hasFlag (responseHeader hdr resp).flags smb2FlagsServerToRedir = true := by
    rw [responseHeader, hasFlag_clear _ _ _ (by decide)]
    exact hasFlag_or_self _ _ (by decide)
  have async : hasFlag (responseHeader hdr resp).flags smb2FlagsAsyncCommand = false := by
    rw [responseHeader]
    exact hasFlag_clear_self _ _
  cases key : responseKey conn hdr resp with
  | none =>
    simp only [buildResponseBytes, key]
    rw [Smb2Header.readU32_flags_write, hasFlag_clear _ _ _ (by decide),
      hasFlag_clear _ _ _ (by decide)]
    exact ⟨redir, async⟩
  | some key' =>
    simp only [buildResponseBytes, key]
    rw [readU32, slice_sign _ _ _ _ _ (.inl (by decide)), ← readU32,
      Smb2Header.readU32_flags_write, hasFlag_or, hasFlag_or, redir, async]
    exact ⟨rfl, by decide⟩

/-- What the reply of an exchange carries. -/
private theorem reply_fields {server : ServerState} {x : Exchange η} {w : World σ η}
    (h : x.Executed server w) (reply : Bytes) (sent : x.reply = some reply) :
    Response reply ∧
      (∃ hdr body, Smb2Header.parse x.element.received = some (hdr, body) ∧
        readU16 reply 0x0C = hdr.command.asU16 ∧ readU64 reply 0x18 = hdr.messageId) ∧
      hasFlag (readU32 reply 0x10) smb2FlagsServerToRedir = true ∧
      hasFlag (readU32 reply 0x10) smb2FlagsAsyncCommand = false := by
  obtain ⟨conn, hdr', resp, ⟨body', parsed⟩, rfl, -⟩ :=
    dispatchOne_built server x.element.bytes x.element.ordinal w reply (h.reply.trans sent)
  obtain ⟨hdr, body, received⟩ := h.parsed
  obtain ⟨hdr'', body'', again, command, -, message⟩ := x.element.parse_bytes received
  obtain ⟨rfl, rfl⟩ := Prod.mk.inj (Option.some.inj (again.symm.trans parsed))
  obtain ⟨flags, front⟩ := slice_buildResponseBytes conn hdr'' resp
  refine ⟨response_buildResponseBytes conn hdr'' resp, ⟨hdr, body, received, ?_, ?_⟩,
    flags_buildResponseBytes conn hdr'' resp⟩
  · rw [readU16, front 0x0C 2 (by decide), ← readU16, Smb2Header.readU16_command_write, ← command]
    rfl
  · rw [readU64, front 0x18 8 (by decide), ← readU64, Smb2Header.readU64_messageId_write, ← message]
    rfl

omit [Host σ η] [Crypto] in
private theorem map_reply_replied (xs : List (Exchange η)) :
    (replied xs).map (·.reply) = (xs.filterMap (·.reply)).map some := by
  induction xs with
  | nil => rfl
  | cons x rest ih =>
    rw [replied] at ih ⊢
    cases sent : x.reply with
    | none => simp [sent, ih]
    | some reply => simp [sent, ih]

omit [Host σ η] in
/-- An element in its place, for a reply with the fields of its request. -/
private theorem answeredBy_laidOut (conn : Connection η) (isLast : Bool) (x : Exchange η)
    (reply : Bytes) (sent : x.reply = some reply) (r : Response reply)
    (request : ∃ hdr body, Smb2Header.parse x.element.received = some (hdr, body) ∧
      readU16 reply 0x0C = hdr.command.asU16 ∧ readU64 reply 0x18 = hdr.messageId)
    (toRedir : hasFlag (readU32 reply 0x10) smb2FlagsServerToRedir = true)
    (sync : hasFlag (readU32 reply 0x10) smb2FlagsAsyncCommand = false)
    (short : (laidOut conn isLast reply).length < 2 ^ 32) :
    AnsweredBy isLast x (laidOut conn isLast reply) := by
  -- the layout touches the NextCommand and the signature only
  have flags : readU32 (laidOut conn isLast reply) 0x10 = readU32 reply 0x10 := by
    rw [readU32, slice_laidOut conn isLast r _ _ (by decide) (by decide), ← readU32]
  have command : readU16 (laidOut conn isLast reply) 0x0C = readU16 reply 0x0C := by
    rw [readU16, slice_laidOut conn isLast r _ _ (by decide) (by decide), ← readU16]
  have message : readU64 (laidOut conn isLast reply) 0x18 = readU64 reply 0x18 := by
    rw [readU64, slice_laidOut conn isLast r _ _ (by decide) (by decide), ← readU64]
  have len := length_laidOut conn isLast r
  constructor
  · rwa [command, message]
  · rwa [flags]
  · rwa [flags]
  · rw [readU32_laidOut conn isLast r, len]
    cases isLast with
    | true => rfl
    | false =>
      rw [len] at short
      simp only [Bool.false_eq_true, if_false] at short ⊢
      rw [UInt32.toNat_ofNat', Nat.mod_eq_of_lt short]
  · exact ⟨reply, sent, len, drop_laidOut conn isLast r⟩

/-- Over every run, a payload splits into the answers to the elements of its frame, but for
accepted CANCELs, in the order of the requests. -/
theorem compound_shape (server : ServerState) (host : σ) (events : List Event) :
    System.EachEvent server host events fun s e =>
      ∀ cid frame (conn : Connection η) payload xs, e = .frame cid frame →
        s.conns.lookup cid = some conn → smb1Choice frame = none →
        xs = frameExchanges s.server frame ⟨conn, s.env⟩ →
        (dispatchFrame s.server frame ⟨conn, s.env⟩).1 = some payload → payload.length < 2 ^ 32 →
          s.expand e = xs.map (fun x => .element cid x.element) ∧
            xs.map (·.element.received) = splitCompound frame ∧
            (∀ x ∈ xs, x.reply = none ↔ x.Cancelled) ∧
            (splitCompound payload).flatten = payload ∧
            (splitCompound payload).length = (replied xs).length ∧
            ∀ (i : Nat) x element, (replied xs)[i]? = some x →
              (splitCompound payload)[i]? = some element →
              AnsweredBy (i + 1 == (replied xs).length) x element := by
  refine (Always.iff_split _ _).mpr ?_
  rintro _ e _ - cid frame conn payload xs rfl live noSmb1 same answer short
  generalize runAll System.step (System.start server host) _ = s at live same answer ⊢
  have executed := exchanges_executed (frame.length + 1) s.server frame initialContext 0
    ⟨conn, s.env⟩
  have whole := dispatchFrame_eq s.server frame payload ⟨conn, s.env⟩ noSmb1 answer
  have expanded : s.expand (.frame cid frame) =
      (frameExchanges s.server frame ⟨conn, s.env⟩).map fun x => .element cid x.element := by
    simp only [System.expand, live, noSmb1]
    exact elements_eq _ _ _ _ _ _ _
  have received := splitPayload_eq (frame.length + 1) s.server frame initialContext 0
    ⟨conn, s.env⟩
  rw [← frameExchanges, ← same] at executed received
  rw [← same] at whole expanded
  generalize (dispatchFrame s.server frame ⟨conn, s.env⟩).2.conn = after at whole
  have responses : ∀ r ∈ xs.filterMap (·.reply), Response r := by
    intro r member
    obtain ⟨x, here, sent⟩ := List.mem_filterMap.mp member
    obtain ⟨w, done⟩ := executed x here
    exact (reply_fields done r sent).1
  have split : splitCompound payload = stitched after (xs.filterMap (·.reply)) := by
    rw [whole] at short ⊢
    exact splitCompound_stitch after _ responses short
  have flat : (splitCompound payload).flatten = payload := by
    rw [split, ← stitchResponses_eq, ← whole]
  have beside := map_reply_replied xs
  have count : (replied xs).length = (xs.filterMap (·.reply)).length := by
    have lengths := congrArg List.length beside
    rwa [List.length_map, List.length_map] at lengths
  refine ⟨expanded, received.symm, ?_, flat, ?_, ?_⟩
  · intro x member
    obtain ⟨w, done⟩ := executed x member
    exact done.reply_eq_none_iff
  · rw [split, length_stitched, count]
  · intro i x element here there
    obtain ⟨w, done⟩ := executed x (List.mem_filter.mp (List.mem_of_getElem? here)).1
    -- The reply at the position of the exchange.
    have placed := congrArg (fun replies => replies[i]?) beside
    simp only [List.getElem?_map, here, Option.map_some] at placed
    obtain ⟨reply, found, sent⟩ := Option.map_eq_some_iff.mp placed.symm
    obtain ⟨inside, at_i⟩ := List.getElem?_eq_some_iff.mp found
    have cut : xs.filterMap (·.reply) = (xs.filterMap (·.reply)).take i ++
        reply :: (xs.filterMap (·.reply)).drop (i + 1) := by
      rw [← at_i, ← List.drop_eq_getElem_cons inside, List.take_append_drop]
    have laid := getElem_stitched after ((xs.filterMap (·.reply)).take i)
      ((xs.filterMap (·.reply)).drop (i + 1)) reply
    have last : ((xs.filterMap (·.reply)).drop (i + 1)).isEmpty =
        (i + 1 == (replied xs).length) := by
      rw [count, Bool.eq_iff_iff, List.isEmpty_iff, List.drop_eq_nil_iff, beq_iff_eq]
      omega
    rw [← cut, List.length_take_of_le (Nat.le_of_lt inside), ← split, there, Option.some.injEq,
      last] at laid
    have bounded : element.length < 2 ^ 32 := by
      have within := (List.sublist_flatten_of_mem (List.mem_of_getElem? there)).length_le
      rw [flat] at within
      exact Nat.lt_of_le_of_lt within short
    rw [laid] at bounded ⊢
    obtain ⟨r, request, toRedir, sync⟩ := reply_fields done reply sent.symm
    exact answeredBy_laidOut after _ x reply sent.symm r request toRedir sync bounded

end SmbServer
