import SmbServer.Proto.Messages
import SmbServer.Proto.Header

/-!
# SmbServer.Proto.FileRequest

The requests that name an open, and what becomes of them when the bytes of their FileId are
replaced: the parser sees the new FileId and everything else as before.

Three of them have no handler that reads them: LOCK, CHANGE_NOTIFY and OPLOCK_BREAK.
-/

namespace SmbServer

open Lib

/-! ### LOCK, CHANGE_NOTIFY and OPLOCK_BREAK -/

structure LockElement where
  offset : UInt64
  length : UInt64
  flags : UInt32
  reserved : UInt32

def LockElement.read : Reader LockElement := do
  let offset ← Reader.u64
  let length ← Reader.u64
  let flags ← Reader.u32
  let reserved ← Reader.u32
  return { offset, length, flags, reserved }

/-- `count` lock elements. -/
def LockElement.readMany : Nat → Reader (List LockElement)
  | 0 => return []
  | count + 1 => do
    let head ← LockElement.read
    let tail ← readMany count
    return head :: tail

structure LockRequest where
  structureSize : UInt16
  lockCount : UInt16
  lockSequence : UInt32
  fileId : FileId
  locks : List LockElement

def LockRequest.parse (buf : Bytes) : Option LockRequest := Reader.parse (do
  let structureSize ← Reader.u16
  let lockCount ← Reader.u16
  let lockSequence ← Reader.u32
  let fileId ← FileId.read
  let locks ← LockElement.readMany lockCount.toNat
  return { structureSize, lockCount, lockSequence, fileId, locks }) buf

structure ChangeNotifyRequest where
  structureSize : UInt16
  flags : UInt16
  outputBufferLength : UInt32
  fileId : FileId
  completionFilter : UInt32
  reserved : UInt32

def ChangeNotifyRequest.parse (buf : Bytes) : Option ChangeNotifyRequest := Reader.parse (do
  let structureSize ← Reader.u16
  let flags ← Reader.u16
  let outputBufferLength ← Reader.u32
  let fileId ← FileId.read
  let completionFilter ← Reader.u32
  let reserved ← Reader.u32
  return { structureSize, flags, outputBufferLength, fileId, completionFilter, reserved }) buf

/-- An acknowledgement has the shape of the notification. -/
structure OplockBreakNotification where
  structureSize : UInt16
  oplockLevel : UInt8
  reserved : UInt8
  reserved2 : UInt32
  fileId : FileId

def OplockBreakNotification.parse (buf : Bytes) : Option OplockBreakNotification :=
  Reader.parse (do
    let structureSize ← Reader.u16
    let oplockLevel ← Reader.u8
    let reserved ← Reader.u8
    let reserved2 ← Reader.u32
    let fileId ← FileId.read
    return { structureSize, oplockLevel, reserved, reserved2, fileId }) buf

/-! ### Requests with a FileId -/

inductive FileRequest where
  | close (req : CloseRequest)
  | flush (req : FlushRequest)
  | lock (req : LockRequest)
  | ioctl (req : IoctlRequest)
  | queryDirectory (req : QueryDirectoryRequest)
  | changeNotify (req : ChangeNotifyRequest)
  | oplockBreak (req : OplockBreakNotification)
  | read (req : ReadRequest)
  | write (req : WriteRequest)
  | queryInfo (req : QueryInfoRequest)
  | setInfo (req : SetInfoRequest)

namespace FileRequest

/-- The command's own parser; `none` for a command whose request has no FileId. -/
def parse (command : Command) (body : Bytes) : Option FileRequest :=
  match command with
  | .close => (CloseRequest.parse body).map close
  | .flush => (FlushRequest.parse body).map flush
  | .lock => (LockRequest.parse body).map lock
  | .ioctl => (IoctlRequest.parse body).map ioctl
  | .queryDirectory => (QueryDirectoryRequest.parse body).map queryDirectory
  | .changeNotify => (ChangeNotifyRequest.parse body).map changeNotify
  | .oplockBreak => (OplockBreakNotification.parse body).map oplockBreak
  | .read => (ReadRequest.parse body).map read
  | .write => (WriteRequest.parse body).map write
  | .queryInfo => (QueryInfoRequest.parse body).map queryInfo
  | .setInfo => (SetInfoRequest.parse body).map setInfo
  | _ => none

def fileId : FileRequest → FileId
  | .close req => req.fileId
  | .flush req => ⟨req.fileIdPersistent, req.fileIdVolatile⟩
  | .lock req => req.fileId
  | .ioctl req => req.fileId
  | .queryDirectory req => req.fileId
  | .changeNotify req => req.fileId
  | .oplockBreak req => req.fileId
  | .read req => req.fileId
  | .write req => req.fileId
  | .queryInfo req => req.fileId
  | .setInfo req => req.fileId

/-- The request with another FileId, and every other field as it is. -/
def setFileId (fid : FileId) : FileRequest → FileRequest
  | .close req => .close { req with fileId := fid }
  | .flush req =>
    .flush { req with fileIdPersistent := fid.persistent, fileIdVolatile := fid.volatile }
  | .lock req => .lock { req with fileId := fid }
  | .ioctl req => .ioctl { req with fileId := fid }
  | .queryDirectory req => .queryDirectory { req with fileId := fid }
  | .changeNotify req => .changeNotify { req with fileId := fid }
  | .oplockBreak req => .oplockBreak { req with fileId := fid }
  | .read req => .read { req with fileId := fid }
  | .write req => .write { req with fileId := fid }
  | .queryInfo req => .queryInfo { req with fileId := fid }
  | .setInfo req => .setInfo { req with fileId := fid }

@[simp] theorem fileId_setFileId (fid : FileId) (req : FileRequest) :
    (req.setFileId fid).fileId = fid := by
  cases req <;> rfl

end FileRequest

/-! ### Readers of replaced bytes -/

namespace Reader

variable {α β : Type} {g : α → α} {off : Nat} {new : Bytes}

/-- The second reader reads what the first does, and changes the value by `g`. -/
def Maps (g : α → α) (r r' : Reader α) : Prop :=
  ∀ buf, r' buf = (r buf).map fun (x, rest) => (g x, rest)

theorem Maps.pure {x : α} : Maps g (pure x) (Pure.pure (g x)) := fun _ => rfl

theorem Maps.bind {r : Reader β} {f f' : β → Reader α} (h : ∀ b, Maps g (f b) (f' b)) :
    Maps g (r >>= f) (r >>= f') := by
  intro buf
  simp only [Bind.bind, StateT.bind]
  cases r buf with
  | none => rfl
  | some read => exact h read.1 read.2

/-- The reader takes `new` in place of the bytes at `off` for a change of its value by `g`, and it
fails where there are no such bytes. -/
structure Rewrites (off : Nat) (new : Bytes) (g : α → α) (r : Reader α) : Prop where
  intro ::
  patched : ∀ buf, off + new.length ≤ buf.length →
    r (patch buf off new) = (r buf).map fun (x, rest) => (g x, rest)
  short : ∀ buf, buf.length < off + new.length → r buf = none

/-- The reader takes its value from `n` bytes in front. -/
def Front (n : Nat) (r : Reader β) : Prop :=
  ∃ value : Bytes → β, ∀ buf,
    r buf = if buf.length < n then none else some (value (buf.take n), buf.drop n)

theorem front_bytes (n : Nat) : Front n (bytes n) := ⟨id, fun _ => rfl⟩

theorem Front.map {n : Nat} {r : Reader α} (front : Front n r) (f : α → β) :
    Front n (do return f (← r)) := by
  obtain ⟨value, reads⟩ := front
  refine ⟨f ∘ value, fun buf => ?_⟩
  simp only [bind, StateT.bind, reads]
  split <;> rfl

theorem front_u8 : Front 1 u8 := by
  refine ⟨fun b => b.headD 0, fun buf => ?_⟩
  cases buf with
  | nil => rfl
  | cons b rest => simp [u8]

theorem front_u16 : Front 2 u16 := (front_bytes 2).map u16OfLe

theorem front_u32 : Front 4 u32 := (front_bytes 4).map u32OfLe

theorem front_u64 : Front 8 u64 := (front_bytes 8).map u64OfLe

/-- A field in front of the replaced bytes. -/
theorem Front.rewrites {n : Nat} {r : Reader β} {f : β → Reader α} (front : Front n r)
    (h : ∀ b, Rewrites off new g (f b)) : Rewrites (off + n) new g (r >>= f) := by
  obtain ⟨value, reads⟩ := front
  rw [Nat.add_comm]
  constructor
  · intro buf fits
    have long : ¬buf.length < n := by omega
    have same : ¬(patch buf (n + off) new).length < n := by rwa [length_patch _ _ _ fits]
    simp only [bind, StateT.bind, reads, if_neg long, if_neg same, take_patch _ _ _ _ fits,
      drop_patch _ _ _ _ fits, Option.bind_some]
    exact (h _).patched _ (by rw [List.length_drop]; omega)
  · intro buf few
    simp only [bind, StateT.bind, reads]
    split
    · rfl
    · exact (h _).short _ (by rw [List.length_drop]; omega)

section

variable {f : UInt8 → Reader α} {f₁ : UInt16 → Reader α} {f₂ : UInt32 → Reader α}
  {f₃ : UInt64 → Reader α}

theorem Rewrites.u8 (h : ∀ b, Rewrites off new g (f b)) :
    Rewrites (off + 1) new g (u8 >>= f) :=
  front_u8.rewrites h

theorem Rewrites.u16 (h : ∀ b, Rewrites off new g (f₁ b)) :
    Rewrites (off + 2) new g (u16 >>= f₁) :=
  front_u16.rewrites h

theorem Rewrites.u32 (h : ∀ b, Rewrites off new g (f₂ b)) :
    Rewrites (off + 4) new g (u32 >>= f₂) :=
  front_u32.rewrites h

theorem Rewrites.u64 (h : ∀ b, Rewrites off new g (f₃ b)) :
    Rewrites (off + 8) new g (u64 >>= f₃) :=
  front_u64.rewrites h

end

/-- The two halves of a FileId are the replaced bytes. -/
theorem Rewrites.halves {fid : FileId} {k : UInt64 → UInt64 → Reader α}
    (h : ∀ p v, Maps g (k p v) (k fid.persistent fid.volatile)) :
    Rewrites 0 fid.write g (Reader.u64 >>= fun p => Reader.u64 >>= k p) := by
  obtain ⟨value, reads⟩ := front_u64
  constructor
  · intro buf fits
    rw [FileId.length_write, Nat.zero_add] at fits
    -- behind the patch the two halves are read first
    have there : patch buf 0 fid.write =
        u64le fid.persistent ++ (u64le fid.volatile ++ buf.drop 16) := by
      simp [patch, FileId.write]
    have first : ¬buf.length < 8 := by omega
    have second : ¬buf.length - 8 < 8 := by omega
    have after : (Reader.u64 >>= fun p => Reader.u64 >>= k p) (patch buf 0 fid.write) =
        k fid.persistent fid.volatile (buf.drop 16) := by
      simp only [there, Bind.bind, StateT.bind, u64_append, Option.bind_some]
    -- and without it two other halves, from the same sixteen bytes
    have before : (Reader.u64 >>= fun p => Reader.u64 >>= k p) buf =
        k (value (buf.take 8)) (value ((buf.drop 8).take 8)) (buf.drop 16) := by
      simp only [Bind.bind, StateT.bind, reads, if_neg first, Option.bind_some, List.length_drop,
        if_neg second, List.drop_drop, Nat.reduceAdd]
    rw [after, before]
    exact h _ _ _
  · intro buf few
    rw [FileId.length_write, Nat.zero_add] at few
    simp only [Bind.bind, StateT.bind, reads]
    split
    · rfl
    · simp only [Option.bind_some, List.length_drop]
      rw [if_pos (by omega)]
      rfl

theorem Rewrites.fileId {fid : FileId} {k : FileId → Reader α}
    (h : ∀ old, Maps g (k old) (k fid)) : Rewrites 0 fid.write g (FileId.read >>= k) := by
  have parts : FileId.read >>= k = Reader.u64 >>= fun p => Reader.u64 >>= fun v => k ⟨p, v⟩ := by
    simp only [FileId.read, bind_assoc, pure_bind]
  rw [parts]
  exact .halves fun p v => h ⟨p, v⟩

/-- What is parsed from the replaced bytes. -/
theorem Rewrites.parse {r : Reader α} (h : Rewrites off new g r) {buf : Bytes}
    (fits : off + new.length ≤ buf.length) :
    Reader.parse r (patch buf off new) = (Reader.parse r buf).map g := by
  simp only [Reader.parse, StateT.run, h.patched buf fits, Option.map_map]
  rfl

theorem Rewrites.long_of_parse {r : Reader α} (h : Rewrites off new g r) {buf : Bytes} {x : α}
    (parsed : Reader.parse r buf = some x) : off + new.length ≤ buf.length := by
  refine Nat.le_of_not_lt fun few => ?_
  simp [Reader.parse, StateT.run, h.short buf few] at parsed

end Reader

/-! ### Replacing a FileId -/

/-- A parser whose FileId sits at `off`. -/
structure FileIdAt (off : Nat) (parse : Bytes → Option FileRequest) : Prop where
  intro ::
  patched : ∀ fid body, off + 16 ≤ body.length →
    parse (patch body off fid.write) = (parse body).map (·.setFileId fid)
  long : ∀ body req, parse body = some req → off + 16 ≤ body.length

theorem Reader.fileIdAt {α : Type} {off : Nat} {r : Reader α} {c : α → FileRequest}
    {g : FileId → α → α} (rewrites : ∀ fid, r.Rewrites off fid.write (g fid))
    (same : ∀ fid x, (c x).setFileId fid = c (g fid x)) :
    FileIdAt off fun body => (r.parse body).map c := by
  constructor
  · intro fid body fits
    rw [(rewrites fid).parse (by rwa [FileId.length_write]), Option.map_map, Option.map_map]
    congr 1
    funext x
    exact (same fid x).symm
  · intro body req parsed
    obtain ⟨x, read, -⟩ := Option.map_eq_some_iff.mp parsed
    have long := (rewrites ⟨0, 0⟩).long_of_parse read
    rwa [FileId.length_write] at long

namespace FileRequest

theorem close_fileIdAt : FileIdAt 8 (parse .close) :=
  Reader.fileIdAt (g := fun fid req => { req with fileId := fid })
    (fun _ => .u16 fun _ => .u16 fun _ => .u32 fun _ => .fileId fun _ => .pure) fun _ _ => rfl

theorem flush_fileIdAt : FileIdAt 8 (parse .flush) :=
  Reader.fileIdAt
    (g := fun fid req =>
      { req with fileIdPersistent := fid.persistent, fileIdVolatile := fid.volatile })
    (fun _ => .u16 fun _ => .u16 fun _ => .u32 fun _ => .halves fun _ _ => .pure) fun _ _ => rfl

theorem lock_fileIdAt : FileIdAt 8 (parse .lock) :=
  Reader.fileIdAt (g := fun fid req => { req with fileId := fid })
    (fun _ => .u16 fun _ => .u16 fun _ => .u32 fun _ => .fileId fun _ => .bind fun _ => .pure)
    fun _ _ => rfl

theorem ioctl_fileIdAt : FileIdAt 8 (parse .ioctl) :=
  Reader.fileIdAt (g := fun fid req => { req with fileId := fid })
    (fun _ => .u16 fun _ => .u16 fun _ => .u32 fun _ => .fileId fun _ =>
      .bind fun _ => .bind fun _ => .bind fun _ => .bind fun _ => .bind fun _ => .bind fun _ =>
        .bind fun _ => .bind fun _ => .bind fun _ => .pure)
    fun _ _ => rfl

theorem queryDirectory_fileIdAt : FileIdAt 8 (parse .queryDirectory) :=
  Reader.fileIdAt (g := fun fid req => { req with fileId := fid })
    (fun _ => .u16 fun _ => .u8 fun _ => .u8 fun _ => .u32 fun _ => .fileId fun _ =>
      .bind fun _ => .bind fun _ => .bind fun _ => .bind fun _ => .pure)
    fun _ _ => rfl

theorem changeNotify_fileIdAt : FileIdAt 8 (parse .changeNotify) :=
  Reader.fileIdAt (g := fun fid req => { req with fileId := fid })
    (fun _ => .u16 fun _ => .u16 fun _ => .u32 fun _ => .fileId fun _ =>
      .bind fun _ => .bind fun _ => .pure)
    fun _ _ => rfl

theorem oplockBreak_fileIdAt : FileIdAt 8 (parse .oplockBreak) :=
  Reader.fileIdAt (g := fun fid req => { req with fileId := fid })
    (fun _ => .u16 fun _ => .u8 fun _ => .u8 fun _ => .u32 fun _ => .fileId fun _ => .pure)
    fun _ _ => rfl

theorem read_fileIdAt : FileIdAt 16 (parse .read) :=
  Reader.fileIdAt (g := fun fid req => { req with fileId := fid })
    (fun _ => .u16 fun _ => .u8 fun _ => .u8 fun _ => .u32 fun _ => .u64 fun _ => .fileId fun _ =>
      .bind fun _ => .bind fun _ => .bind fun _ => .bind fun _ => .bind fun _ => .bind fun _ =>
        .pure)
    fun _ _ => rfl

theorem write_fileIdAt : FileIdAt 16 (parse .write) :=
  Reader.fileIdAt (g := fun fid req => { req with fileId := fid })
    (fun _ => .u16 fun _ => .u16 fun _ => .u32 fun _ => .u64 fun _ => .fileId fun _ =>
      .bind fun _ => .bind fun _ => .bind fun _ => .bind fun _ => .bind fun _ => .bind fun _ =>
        .pure)
    fun _ _ => rfl

theorem queryInfo_fileIdAt : FileIdAt 24 (parse .queryInfo) :=
  Reader.fileIdAt (g := fun fid req => { req with fileId := fid })
    (fun _ => .u16 fun _ => .u8 fun _ => .u8 fun _ => .u32 fun _ => .u16 fun _ => .u16 fun _ =>
      .u32 fun _ => .u32 fun _ => .u32 fun _ => .fileId fun _ => .bind fun _ => .pure)
    fun _ _ => rfl

theorem setInfo_fileIdAt : FileIdAt 16 (parse .setInfo) :=
  Reader.fileIdAt (g := fun fid req => { req with fileId := fid })
    (fun _ => .u16 fun _ => .u8 fun _ => .u8 fun _ => .u32 fun _ => .u16 fun _ => .u16 fun _ =>
      .u32 fun _ => .fileId fun _ => .bind fun _ => .pure)
    fun _ _ => rfl

end FileRequest

end SmbServer
