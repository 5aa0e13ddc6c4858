import SmbServer.Client
import SmbServer.Effects.Limits
import SmbServer.Proto.Framing

/-!
# SmbServer.Properties.FrameLimit

The transport frame of a response.

Main result:

  Nothing bounds the length of a payload: the builder accepts every read size, and the replies to a
  compound add up. Over every run, a frame whose requests ask for no more than 2^24 - 1 bytes
  together is answered with a payload that the 24-bit length field measures, so that the peer reads
  that payload and goes on behind it.

Proof strategy: a connection keeps the configured read size and short names; from that each reply
is within the limit of its request, and the payload is their padded sum.
-/

namespace SmbServer

open Lib

/-! ### The limit of a frame -/

/-- The limits of all replies to a frame, padded as the stitcher pads them. -/
def frameLimit (config : ServerConfig) (n : Nat) (frame : Bytes) : Nat :=
  ((splitCompound frame).map fun sub => align8 (replyLimit config n sub)).sum

/-- The lengths that a request asks for are not rewritten. -/
theorem Element.replyLimit_bytes (config : ServerConfig) (n : Nat) (e : Element) :
    replyLimit config n e.bytes = replyLimit config n e.received := by
  cases parsed : Smb2Header.parse e.received with
  | none => simp only [Element.bytes, parsed]
  | some parts =>
    obtain ⟨hdr, body⟩ := parts
    obtain ⟨hdr', body', again, command, -, -⟩ := e.parse_bytes parsed
    have behind := Smb2Header.body_of_parse parsed
    have behind' := Smb2Header.body_of_parse again
    simp only [replyLimit, again, parsed, command]
    cases cmd : hdr.command with
    -- the Length of a READ is in front of its FileId
    | read =>
      have same : readU32 body' 4 = readU32 body 4 := by
        rw [behind, behind', readU32_drop, readU32_drop, readU32,
          e.slice_bytes _ _ (.inr (by decide)), readU32]
      simp only [bodyLimit, same]
    -- the OutputBufferLength of a QUERY_DIRECTORY is behind its FileId
    | queryDirectory =>
      have same : readU32 body' 28 = readU32 body 28 := by
        rw [behind, behind', readU32_drop, readU32_drop, readU32, e.slice_bytes_apart _ _
          (.inr (by decide)), readU32]
        intro hdr'' body'' bodyOffset here named
        obtain ⟨rfl, rfl⟩ := Prod.mk.inj (Option.some.inj (parsed.symm.trans here))
        rw [cmd] at named
        obtain rfl := Option.some.inj named
        exact .inr (by decide)
      simp only [bodyLimit, same]
    | _ => rfl

section
variable {η : Type} [Crypto]

/-- Stitching adds padding and nothing else. -/
theorem length_stitchResponses_le (conn : Connection η) (responses : List Bytes)
    (all : ∀ r ∈ responses, Response r) :
    (stitchResponses conn responses).length ≤ (responses.map fun r => align8 r.length).sum := by
  rw [length_stitchResponses conn responses all]
  clear all
  induction responses with
  | nil => exact Nat.le_refl 0
  | cons first rest ih =>
    rw [List.map_cons, List.map_cons, List.sum_cons]
    cases rest with
    | nil => exact (le_align8 _).trans (Nat.le_add_right _ _)
    | cons second rest => exact Nat.add_le_add_left ih _

end

private theorem sum_filterMap_le {α β : Type} (f : α → Option β) (g : β → Nat) (h : α → Nat)
    (xs : List α) (le : ∀ x ∈ xs, ∀ y, f x = some y → g y ≤ h x) :
    ((xs.filterMap f).map g).sum ≤ (xs.map h).sum := by
  induction xs with
  | nil => exact Nat.le_refl 0
  | cons x rest ih =>
    have others := ih fun x member => le x (List.mem_cons_of_mem _ member)
    rw [List.filterMap_cons, List.map_cons, List.sum_cons]
    cases here : f x with
    | none => exact others.trans (Nat.le_add_left _ _)
    | some y =>
      rw [List.map_cons, List.sum_cons]
      exact Nat.add_le_add (le x List.mem_cons_self y here) others

section
variable {σ η : Type} [Host σ η] [Crypto] {n : Nat}

/-- The payload that answers a frame is within the limit of the frame. -/
theorem length_payload_le (promises : Host.Sized σ n) (server : ServerState) (frame : Bytes)
    (w : World σ η) (measured : Measured server.config n w.conn) (payload : Bytes)
    (noSmb1 : smb1Choice frame = none) (answer : (dispatchFrame server frame w).1 = some payload) :
    payload.length ≤ frameLimit server.config n frame := by
  have executed := exchanges_invariant
    (fun w : World σ η => Measured server.config n w.conn) server
    (fun frame ordinal w h => dispatchOne_measured promises server frame ordinal w h)
    (frame.length + 1) frame initialContext 0 w measured
  rw [dispatchFrame_eq server frame payload w noSmb1 answer, frameLimit, splitCompound,
    splitPayload_eq (frame.length + 1) server frame initialContext 0 w, frameExchanges]
  -- a sum over the elements, each of them within its own limit
  generalize exchanges (frame.length + 1) server frame initialContext 0 w = xs at executed
  refine (length_stitchResponses_le _ _ fun r member => ?_).trans ?_
  · obtain ⟨x, here, sent⟩ := List.mem_filterMap.mp member
    obtain ⟨w', -, done⟩ := executed x here
    obtain ⟨conn, hdr, resp, -, rfl, -⟩ :=
      dispatchOne_built server x.element.bytes x.element.ordinal w' r (done.reply.trans sent)
    exact response_buildResponseBytes conn hdr resp
  · rw [List.map_map]
    refine sum_filterMap_le _ _ _ xs fun x here reply sent => ?_
    obtain ⟨w', kept, done⟩ := executed x here
    have limit := dispatchOne_limit promises server x.element.bytes x.element.ordinal w' kept reply
      (done.reply.trans sent)
    rw [Element.replyLimit_bytes] at limit
    simp only [Function.comp, align8]
    omega

/-- The reply to an SMB1 NEGOTIATE is short. -/
theorem length_smb1_le (server : ServerState) (frame : Bytes) (w : World σ η) (payload : Bytes)
    (chosen : UInt16) (smb1 : smb1Choice frame = some chosen)
    (answer : (dispatchFrame server frame w).1 = some payload) :
    payload.length ≤ maxFramePayload := by
  have init : encodeInitResponse.length = 30 := rfl
  simp only [dispatchFrame, smb1, Action.bind_apply, Action.pure_apply, Option.some.injEq,
    handleSmb1MultiProtocol, Negotiate.multiProtocolResponse, getConn_apply] at answer
  rw [← answer, length_buildResponseBytes]
  simp [HandlerResponse.ok, Negotiate.response, NegotiateResponse.write, init, smb2HeaderLen,
    maxFramePayload]

/-! ### Runs -/

/-- Every live connection keeps what the limits rest on. -/
def System.AllMeasured (n : Nat) (s : System σ η) : Prop :=
  ∀ cid conn, s.conns.lookup cid = some conn → Measured s.server.config n conn

theorem allMeasured_execute (promises : Host.Sized σ n) (s : System σ η) (step : Step)
    (inv : s.AllMeasured n) : (s.execute step).AllMeasured n := by
  intro cid conn' found
  rw [System.execute_config]
  rcases s.execute_lookup step cid conn' found with
    ⟨-, -, rfl⟩ | ⟨conn, before, ⟨e, -, rfl⟩ | removed⟩
  · exact ⟨rfl, fun c member => absurd member (Multiset.notMem_zero c)⟩
  · exact dispatchOne_measured promises s.server e.bytes e.ordinal ⟨conn, s.env⟩
      (inv cid conn before)
  · have kept := inv cid conn before
    clear found before
    induction removed with
    | refl => exact kept
    | tail _ last ih => exact ih.mono last.maxReadSize (last.gather_le Open.cursors)

/-- The requests of a frame ask for no more than a payload can hold. -/
def System.AsksWithin (n : Nat) (s : System σ η) (e : Event) : Prop :=
  ∀ cid frame, e = .frame cid frame → frameLimit s.server.config n frame ≤ maxFramePayload

/-- The payload that answers a frame is as long as its length field says. -/
def System.FitsFrame (s : System σ η) (e : Event) : Prop :=
  ∀ cid frame payload, e = .frame cid frame → (s.serve cid frame).1 = some (some payload) →
    payload.length ≤ maxFramePayload ∧ InSync payload

/-- Over every run, what asks for no more than a payload can hold is answered in one that fits the
transport frame. -/
theorem responses_fit (promises : Host.Sized σ n) (server : ServerState) (host : σ)
    (events : List Event) :
    System.EachEvent server host events fun (s : System σ η) e =>
      s.AsksWithin n e → s.FitsFrame e := by
  refine (Always.iff_split _ _).mpr ?_
  rintro before e behind - asks cid frame payload rfl answer
  have measured : System.AllMeasured n (runAll System.step (System.start server host) before) := by
    have run := System.run_eq (System.start server host : System σ η) before
    rw [System.run] at run
    rw [runAll, run]
    exact runAll_invariant _ _ _ (fun _ _ none => nomatch none) (allMeasured_execute promises)
  generalize runAll System.step (System.start server host) before = s at asks answer measured
  have fits : payload.length ≤ maxFramePayload := by
    rw [System.serve, System.onConn] at answer
    cases live : s.conns.lookup cid with
    | none => simp [live] at answer
    | some conn =>
      simp only [live, Option.some.injEq] at answer
      cases smb1 : smb1Choice frame with
      -- an SMB1 greeting is answered in a fixed length
      | some chosen => exact length_smb1_le _ _ _ _ chosen smb1 answer
      | none =>
        exact (length_payload_le promises s.server frame ⟨conn, s.env⟩ (measured cid conn live)
          payload smb1 answer).trans (asks cid frame rfl)
  exact ⟨fits, (inSync_iff payload).mpr fits⟩

end

section
open scoped Sample

/-- The sample application reads nothing and has no names. -/
theorem Sample.sized_host : Host.Sized (η := Unit) Unit 0 where
  read _ _ _ _ bytes answered := by
    obtain rfl := Except.ok.inj answered
    exact Nat.zero_le _
  stat _ _ info answered := by
    obtain rfl := Except.ok.inj answered
    decide
  listDir _ _ _ entries answered := by
    obtain rfl := Except.ok.inj answered
    exact fun _ member => absurd member List.not_mem_nil

/-- A TREE_CONNECT behind an anonymous logon asks for little. -/
theorem responses_fit_treeConnect :
    ((System.start Sample.server () : System Unit Unit).run
      (Sample.session (Sample.anonymousOn ['w']))).FitsFrame
        (.frame 1 (Client.plain .treeConnect 1 0
          (Client.treeConnectBody ['\\', '\\', 's', '\\', 'r']))) :=
  (responses_fit Sample.sized_host Sample.server () (Sample.session (Sample.anonymousOn ['w']) ++
    [.frame 1 _])).last fun _ _ here => by
      cases here
      decide +kernel

end

/-! ### A read as long as the builder allows -/

section
variable {σ η : Type} [Host σ η] [Crypto]

omit [Crypto] in
theorem Read.handle_full (hdr : Smb2Header) (body bytes : Bytes) (w : World σ η)
    (req : ReadRequest) (target : Target η) (h : Boxed η)
    (parsed : ReadRequest.parse body = some req) (small : ¬req.length > w.conn.maxReadSize)
    (reached : lookupTarget w.conn hdr req.fileId = .ok target)
    (handle : target.file.handle = some h)
    (full : ∀ state : σ, (Host.read h.inner req.offset req.length state).1 = .ok bytes)
    (some : bytes.isEmpty = false) : (Read.handle hdr body w).1 = .ok (response bytes) := by
  simp only [Read.handle, parsed]
  refine returns_withConn (P := (· = HandlerResponse.ok (response bytes))) w ?_
  rw [if_neg small, reached]
  simp only [handle]
  refine .seq (issue_returns _ _ _) fun answer => ?_
  rintro ⟨state, rfl⟩
  simp only [full, some, Bool.false_and, Bool.false_eq_true, if_false]
  exact .pure rfl

/-- A single request is answered with its reply. -/
theorem dispatchFrame_single (server : ServerState) (frame reply : Bytes) (w : World σ η)
    (single : System.isSingle frame = true)
    (answer : (dispatchOne server frame 0 w).1 = some reply) :
    (dispatchFrame server frame w).1 =
      some (stitchResponses (dispatchOne server frame 0 w).2.conn [reply]) := by
  simp only [System.isSingle, Bool.and_eq_true, beq_iff_eq, Option.any_eq_true, Bool.not_eq_true',
    Prod.exists] at single
  obtain ⟨notSmb1, hdr, sub, next, alone, ⟨rfl, rfl⟩, unrelated⟩ := single
  have elements : dispatchElements (sub.length + 1) server sub initialContext 0 w =
      (some [reply], (dispatchOne server sub 0 w).2) := by
    simp only [dispatchElements, alone, effectiveElement, unrelated, Bool.false_eq_true, if_false,
      Action.bind_apply, true_or, if_true, Action.pure_apply, answer, Option.toList_some]
  simp only [dispatchFrame, notSmb1, Action.bind_apply, elements, getConn_apply, Action.pure_apply]

/-- A READ that the application answers in full is answered with a payload of that length. -/
theorem System.serve_read (s : System σ η) (cid : UInt64) (frame body bytes : Bytes)
    (conn : Connection η) (hdr : Smb2Header) (req : ReadRequest) (target : Target η) (h : Boxed η)
    (single : isSingle frame = true) (live : s.conns.lookup cid = some conn)
    (accepted : Accepted conn frame hdr body) (cmd : hdr.command = .read)
    (parsed : ReadRequest.parse body = some req) (small : ¬req.length > conn.maxReadSize)
    (reached : lookupTarget conn hdr req.fileId = .ok target)
    (handle : target.file.handle = some h)
    (full : ∀ state : σ, (Host.read h.inner req.offset req.length state).1 = .ok bytes)
    (some : bytes.isEmpty = false) :
    ∃ payload, (s.serve cid frame).1 = .some (.some payload) ∧
      payload.length = 80 + bytes.length := by
  obtain ⟨w, before, answer, -⟩ := dispatchOne_answer s.server frame 0 ⟨conn, s.env⟩ hdr body
    accepted (by simp [cmd]) (by simp [cmd])
  -- what is done before the handler leaves the connection as it is
  have same : w.conn = conn := before.conn
  have handled : (dispatchCommand s.server hdr body w).1 = .ok (Read.response bytes) := by
    simp only [dispatchCommand, cmd]
    exact Read.handle_full hdr body bytes w req target h parsed (same ▸ small) (same ▸ reached)
      handle full some
  rw [handled] at answer
  have sent := dispatchFrame_single s.server frame _ ⟨conn, s.env⟩ single answer
  have served : (s.serve cid frame).1 =
      .some (dispatchFrame s.server frame ⟨conn, s.env⟩).1 := by
    simp only [serve, onConn, live]
  refine ⟨_, served.trans (congrArg Option.some sent), ?_⟩
  rw [length_stitchResponses _ _ (List.forall_mem_singleton.mpr (response_buildResponseBytes _ _ _)),
    List.map_cons, List.map_nil, payloadLength,
    length_buildResponseBytes]
  simp only [HandlerResponse.ok, Read.response, ReadResponse.write, List.length_append,
    length_u16le, length_u32le, List.length_cons, List.length_nil, smb2HeaderLen]
  omega

end

open scoped Sample

/-- An application with a file that reads as zeros, however long. -/
structure Sample.Zeros where

namespace Sample

scoped instance zeros : Host Zeros Unit where
  capabilities _ := ⟨false, true, true⟩
  «open» _ _ _ s := (.ok (), s)
  unlink _ _ s := (.ok (), s)
  rename _ _ _ _ s := (.ok (), s)
  read _ _ len s := (.ok (List.replicate len.toNat 0), s)
  writeOwned _ _ data s := (.ok (UInt32.ofNat data.length), s)
  flush _ s := (.ok (), s)
  stat _ s := (.ok fileInfo, s)
  setTimes _ _ s := (.ok (), s)
  truncate _ _ s := (.ok (), s)
  listDir _ _ s := (.ok [], s)
  close _ s := (.ok (), s)
  fillRandom n s := (ByteVec.zero n, s)
  nowFiletime s := (0, s)

/-- The builder with 16 MiB for a READ. -/
def wideBuilder : SmbServerBuilder := { builder with maxReadSize := 0x01000000 }

def wideServer : ServerState :=
  { server with config := { server.config with maxReadSize := 0x01000000 } }

/-- A file is opened for reading. -/
def openFile : List Event :=
  session (anonymousOn ['w'] ++ [Client.plain .create 1 1 (Client.createBody 0x80000000 1 0 ['f'])])

/-- A READ of everything that the server allows. -/
def readAll : Bytes := Client.plain .read 1 1 (Client.readBody ⟨1, 1⟩ 0x01000000)

end Sample

/-- A READ of 16 MiB is answered in a payload of 80 bytes more. -/
theorem read_overflows :
    ¬∀ (builder : SmbServerBuilder) (server : ServerState), builder.build = .ok server →
      ∀ events : List Event, System.EachEvent server Sample.Zeros.mk events
        fun (s : System Sample.Zeros Unit) e =>
          (∀ cid frame, e = .frame cid frame → frame.length ≤ maxFramePayload) → s.FitsFrame e := by
  intro all
  have last := (all Sample.wideBuilder Sample.wideServer rfl
    (Sample.openFile ++ [.frame 1 Sample.readAll])).last
  have short : Sample.readAll.length ≤ maxFramePayload := by decide +kernel
  -- the READ is within the size that was negotiated and reaches an open file
  have reached : (((System.start Sample.wideServer Sample.Zeros.mk : System _ Unit).run
      Sample.openFile).conns.lookup 1).any (fun conn =>
        (Smb2Header.parse Sample.readAll).any fun found =>
          found.1.command == .read &&
            (verifyRequestSignature conn found.1 Sample.readAll).isOk &&
              (ReadRequest.parse found.2).any fun req =>
                req.length == 0x01000000 && conn.maxReadSize == 0x01000000 &&
                  (lookupTarget conn found.1 req.fileId).toOption.any
                    (·.file.handle.isSome)) = true := by
    decide +kernel
  -- what follows holds of any state in which it does
  revert last reached
  generalize (System.start Sample.wideServer Sample.Zeros.mk : System _ Unit).run
    Sample.openFile = s
  intro last reached
  simp only [Option.any_eq_true, Bool.and_eq_true, beq_iff_eq, Option.isSome_iff_exists,
    Prod.exists] at reached
  obtain ⟨conn, live, hdr, body, parses, ⟨cmd, verified⟩, req, parsed, ⟨length, size⟩, target,
    named, h, handle⟩ := reached
  have accepted : Accepted conn Sample.readAll hdr body := by
    refine ⟨parses, ?_, by simp [cmd]⟩
    cases checked : verifyRequestSignature conn hdr Sample.readAll with
    | ok => rfl
    | error => simp [checked, Except.isOk, Except.toBool] at verified
  have reaches : lookupTarget conn hdr req.fileId = .ok target := by
    cases looked : lookupTarget conn hdr req.fileId with
    | ok found =>
      rw [looked] at named
      exact congrArg Except.ok (Option.some.inj named)
    | error => simp [looked, Except.toOption] at named
  have full : req.length.toNat = 0x01000000 := by rw [length]; rfl
  obtain ⟨payload, answer, long⟩ := s.serve_read 1 Sample.readAll body
    (List.replicate req.length.toNat 0) conn hdr req target h (by decide +kernel) live accepted cmd
    parsed (by rw [length, size]; decide) reaches handle (fun _ => rfl)
    (by rw [List.isEmpty_replicate]; exact decide_eq_false (by omega))
  have fits := (last (fun _ _ here => by cases here; exact short) 1 _ payload rfl answer).1
  rw [long, List.length_replicate, full] at fits
  simp only [maxFramePayload] at fits
  omega

end SmbServer
