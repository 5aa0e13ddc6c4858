import SmbServer.Effects.Calls
import SmbServer.Fs.Local
import SmbServer.Lib.PosixLaws
import SmbServer.Client

/-!
# SmbServer.Properties.WriteEffect

What a WRITE does to a file.

The parser reads one byte for a request of length zero, and the handler hands on what was read.

## Main result

`writesAsAsked_iff`: a WRITE that reaches its handle hands on the payload, changes the file in the
range that was asked for and counts no more than that, exactly if its length is not zero.

## Proof strategy

The parser is read off once (`WriteRequest.parse_reads`); the call is `Write.handle_calls`. What a
backend makes of it is taken from the laws of `overwrite`.
-/

namespace SmbServer

open Lib

/-! ### The request -/

/-- The bytes behind the fixed part, as many as the length says. -/
def payload (body : Bytes) : Bytes := slice body 48 (readU32 body 4).toNat

/-- How many bytes the parser reads. -/
def writeCount (length : UInt32) : Nat := if length = 0 then 1 else length.toNat

theorem WriteRequest.parse_reads {body : Bytes} {req : WriteRequest}
    (parsed : WriteRequest.parse body = some req) :
    req.length = readU32 body 4 ∧ req.offset = readU64 body 8 ∧
      req.data = slice body 48 (writeCount (readU32 body 4)) ∧
      48 + writeCount (readU32 body 4) ≤ body.length := by
  obtain ⟨fits, rfl⟩ := (WriteRequest.parse_eq_some body req).mp parsed
  exact ⟨rfl, rfl, rfl, fits⟩

theorem length_payload {body : Bytes} {req : WriteRequest}
    (parsed : WriteRequest.parse body = some req) :
    (payload body).length = (readU32 body 4).toNat := by
  obtain ⟨-, -, -, fits⟩ := WriteRequest.parse_reads parsed
  apply length_slice
  unfold writeCount at fits
  split at fits
  next zero => rw [zero]; exact Nat.le_of_add_right_le fits
  next => exact fits

/-- What is read is the payload, unless there is none. -/
theorem data_eq_payload_iff {body : Bytes} {req : WriteRequest}
    (parsed : WriteRequest.parse body = some req) :
    req.data = payload body ↔ req.length ≠ 0 := by
  obtain ⟨length, -, data, fits⟩ := WriteRequest.parse_reads parsed
  rw [length, data, payload]
  unfold writeCount at fits ⊢
  split
  next zero =>
    rw [if_pos zero] at fits
    simp only [zero, ne_eq, not_true_eq_false, iff_false]
    intro same
    have sizes := congrArg List.length same
    rw [length_slice _ _ _ fits, length_slice _ _ _ (Nat.le_of_add_right_le fits)] at sizes
    cases sizes
  next other => simp [other]

/-! ### The file -/

/-- A write puts a front part of the data where it was told to, and answers with no more than how
much that is. -/
def WritesGiven {σ : Type} (bytes : σ → Bytes)
    (write : UInt64 → Bytes → σ → SmbResult UInt32 × σ) : Prop :=
  ∀ offset data s, ∃ n ≤ data.length,
    bytes (write offset data s).2 = Fs.overwrite (bytes s) offset.toNat (data.take n) ∧
    ∀ count, (write offset data s).1 = .ok count → count.toNat ≤ n

/-- What sits behind a handle. -/
def LocalHandle.contents (h : LocalHandle) (fs : Fs Text) : Bytes :=
  match h with
  | .file _ ⟨.file id, _, _⟩ _ => fs.contents id
  | _ => []

/-- A handle of the local file system writes what it is given. -/
theorem LocalHandle.writesGiven (h : LocalHandle) :
    WritesGiven h.contents fun offset data fs => h.writeOwned fs offset data := by
  intro offset data fs
  -- nothing of the data is written
  have none (e : SmbError) : ∃ n ≤ data.length,
      h.contents fs = Fs.overwrite (h.contents fs) offset.toNat (data.take n) ∧
        ∀ count, (.error e : SmbResult UInt32) = .ok count → count.toNat ≤ n :=
    ⟨0, Nat.zero_le _, by simp [Fs.overwrite], by rintro _ ⟨⟩⟩
  cases h with
  | dir name dirHandle => exact none _
  | file name fd readOnly =>
    cases readOnly with
    | true => exact none _
    | false =>
      simp only [LocalHandle.writeOwned, Bool.false_eq_true, if_false]
      rcases fs.writeAt_cases fd offset.toNat data with ⟨e, failed⟩ | ⟨id, node, written⟩
      · rw [failed]
        exact none _
      · rw [written]
        refine ⟨data.length, Nat.le_refl _, ?_, ?_⟩
        · obtain ⟨_, readable, writable⟩ := fd
          subst node
          simp [LocalHandle.contents, Fs.setContents]
        · rintro _ ⟨⟩
          rw [UInt32.toNat_ofNat_of_lt' (by simp)]
          exact Nat.min_le_left _ _

/-- The bytes from `offset` on that may differ, and how far the file may have grown. -/
structure ChangedWithin (before after : Bytes) (offset len : Nat) : Prop where
  intro ::
  outside : ∀ i, i < offset ∨ offset + len ≤ i → after.getD i 0 = before.getD i 0
  size : after.length ≤ max before.length (offset + len)

theorem changedWithin_overwrite (before data : Bytes) (offset n : Nat) :
    ChangedWithin before (Fs.overwrite before offset (data.take n)) offset data.length := by
  have short : (data.take n).length ≤ data.length := by
    rw [List.length_take]
    exact Nat.min_le_right n _
  constructor
  · intro i outside
    exact Fs.getD_overwrite_of_outside (by omega)
  · have grown := Fs.length_overwrite_le before offset (data.take n)
    omega

/-! ### The handler -/

/-- The count of a reply. -/
theorem readU32_writeResponse (count : UInt32) :
    readU32 (HandlerResponse.ok (WriteResponse.new count).write).body 4 = count := by
  have layout : (WriteResponse.new count).write =
      (u16le 17 ++ u16le 0) ++ (u32le count ++ (u32le 0 ++ u16le 0 ++ u16le 0)) := by
    simp [WriteResponse.write, WriteResponse.new]
  rw [HandlerResponse.ok, layout, readU32, slice_between _ _ _ _ _ (by simp) (by simp),
    u32OfLe_u32le]

section

variable {σ η : Type} [Host σ η]

/-- The WRITE of `body` does what it asks for, through the handle `h`. -/
structure WritesAsAsked (server : ServerState) (hdr : Smb2Header) (body : Bytes)
    (target : Target η) (h : Boxed η) (w : World σ η) : Prop where
  intro ::
  call : (Write.handle server hdr body w).2.env.calls =
    w.env.calls ++ [⟨target.origin hdr.sessionId,
      .writeOwned h.serial (readU64 body 8) (payload body)⟩]
  within : ∀ bytes : σ → Bytes, WritesGiven bytes (Host.writeOwned h.inner) →
    ChangedWithin (bytes w.env.host) (bytes (Write.handle server hdr body w).2.env.host)
      (readU64 body 8).toNat (readU32 body 4).toNat
  count : ∀ bytes : σ → Bytes, WritesGiven bytes (Host.writeOwned h.inner) →
    (Write.handle server hdr body w).1.status = statusSuccess →
      (readU32 (Write.handle server hdr body w).1.body 4).toNat ≤ (readU32 body 4).toNat

variable (server : ServerState) (hdr : Smb2Header) (body : Bytes) (w : World σ η)
  (req : WriteRequest) (target : Target η) (h : Boxed η)

/-- The answer of the handle, and the state of the host behind it. -/
theorem Write.handle_answer (parsed : WriteRequest.parse body = some req)
    (admitted : Write.validate w.conn hdr req = .ok (target, h)) :
    (Write.handle server hdr body w).2.env.host =
        (Host.writeOwned h.inner req.offset req.data w.env.host).2 ∧
      (Write.handle server hdr body w).1 =
        match (Host.writeOwned h.inner req.offset req.data w.env.host).1 with
        | .error e => .ofError e
        | .ok count => .ok (WriteResponse.new count).write := by
  have recorded := alike_record server.traceSink
    (.write req.fileId.write req.offset req.length) w
  simp only [Write.handle, parsed, Action.bind_apply, getConn_apply, recorded.conn, admitted,
    Boxed.writeOwned, issue_apply, recorded.host]
  cases (Host.writeOwned (σ := σ) h.inner req.offset req.data w.env.host).1 with
  | error e => simp
  | ok count => simp

/-- The WRITE does what it asks for exactly if it asks for one byte at least. -/
theorem writesAsAsked_iff (parsed : WriteRequest.parse body = some req)
    (admitted : Write.validate w.conn hdr req = .ok (target, h)) :
    WritesAsAsked server hdr body target h w ↔ req.length ≠ 0 := by
  obtain ⟨length, offset, -, -⟩ := WriteRequest.parse_reads parsed
  have calls := Write.handle_calls server hdr body w req target h parsed admitted
  constructor
  -- the data of the call is the payload, and for a Length of 0 it is a byte instead
  · intro asked
    have same := calls.symm.trans asked.call
    rw [List.append_cancel_left_eq, List.cons.injEq, Issued.mk.injEq,
      BackendCall.writeOwned.injEq] at same
    exact (data_eq_payload_iff parsed).mp same.1.2.2.2
  · intro some
    have data := (data_eq_payload_iff parsed).mpr some
    obtain ⟨host, answer⟩ := Write.handle_answer server hdr body w req target h parsed admitted
    rw [data, offset] at host answer
    constructor
    · rw [calls, data, offset]
    · intro bytes given
      obtain ⟨n, -, after, -⟩ := given (readU64 body 8) (payload body) w.env.host
      rw [host, after, ← length_payload parsed]
      exact changedWithin_overwrite _ _ _ _
    · intro bytes given success
      obtain ⟨n, part, -, counted⟩ := given (readU64 body 8) (payload body) w.env.host
      rw [answer]
      split
      -- an error response counts no bytes
      next e failed =>
        have zero : readU32 (HandlerResponse.ofError e).body 4 = 0 := by
          show readU32 errorResponse 4 = 0
          decide +kernel
        rw [zero]
        exact Nat.zero_le _
      next count done =>
        rw [readU32_writeResponse, ← length_payload parsed]
        exact Nat.le_trans (counted count done) part

end

/-! ### One byte for none -/

open scoped Sample

namespace Sample

/-- An open for reading and writing, and the one tree, session and connection around it. -/
def file : Open Unit := Open.new ⟨1, 1⟩ ⟨0, ()⟩ .readWrite ⟨[['x']], none⟩ false false

def tree : TreeConnect Unit :=
  { (TreeConnect.new 1 ⟨['w'], .custom 0, false, 1⟩ .readWrite : TreeConnect Unit) with
    opens := Table.empty.insert ⟨1, 1⟩ file }

def atTree : Session Unit :=
  { (Session.new 1 .anonymous (ByteVec.zero 16) (ByteVec.zero 16) false none : Session Unit) with
    trees := Table.empty.insert 1 tree }

def atOpen : World Unit Unit where
  conn :=
    { (Connection.new 1 (ByteVec.zero 16) 65536 65536 : Connection Unit) with
      sessions := Table.empty.insert 1 atTree }
  env := ⟨(), 1, [], [], none, []⟩

/-- A WRITE of the bytes at the start of the file, with a length of its own. -/
def writeOf (length : UInt32) (data : Bytes) : WriteRequest :=
  ⟨49, 112, length, 0, ⟨1, 1⟩, 0, 0, 0, 0, 0, data⟩

end Sample

/-- One byte is written where one was asked for. -/
theorem writesAsAsked_iff_one :
    WritesAsAsked Sample.server (Client.header .write 0 1 1) (Client.writeBody ⟨1, 1⟩ 0 [7])
      ⟨1, Sample.tree, Sample.file⟩ ⟨0, ()⟩ Sample.atOpen :=
  (writesAsAsked_iff _ _ _ _ (Sample.writeOf 1 [7]) _ _ (by rfl) (by rfl)).mpr (by decide)

/-- And one where none was. -/
theorem writesAsAsked_none :
    ¬∀ (server : ServerState) (hdr : Smb2Header) (body : Bytes) (w : World Unit Unit)
      (req : WriteRequest) (target : Target Unit) (h : Boxed Unit),
      WriteRequest.parse body = some req → Write.validate w.conn hdr req = .ok (target, h) →
        WritesAsAsked server hdr body target h w := by
  intro all
  have asked := all Sample.server (Client.header .write 0 1 1)
    (Client.writeBody ⟨1, 1⟩ 0 [] ++ [9]) Sample.atOpen (Sample.writeOf 0 [9])
    ⟨1, Sample.tree, Sample.file⟩ ⟨0, ()⟩ (by rfl) (by rfl)
  exact absurd asked.call (by decide +kernel)

end SmbServer
