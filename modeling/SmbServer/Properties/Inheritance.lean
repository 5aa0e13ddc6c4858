import SmbServer.Effects.Inherit
import SmbServer.Proto.FileRequest
import SmbServer.Client

/-!
# SmbServer.Properties.Inheritance

Rewriting the bytes of a related element and replacing the ids in what is parsed come to the same.

## Main result

`inheritance_parsed`: the rewritten element parses to the header and the request that were received,
with the inherited ids in place of the all-ones ones.

## Proof strategy

The header's fields are read off the slices that the rewriting leaves alone. For the body, each
parser reads the FileId at the offset that the rewriting uses (`FileIdAt`), so patched bytes are a
replaced field.
-/

namespace SmbServer

open Lib

/-! ### The ids in what is parsed -/

/-- The header with inherited session and tree ids. -/
def RelatedContext.header (ctx : RelatedContext) (hdr : Smb2Header) : Smb2Header :=
  { hdr with
    sessionId := if hdr.sessionId = maxU64 then ctx.prevSessionId else hdr.sessionId
    tail :=
      match hdr.tail with
      | .sync reserved tid => .sync reserved (if tid = maxU32 then ctx.prevTreeId else tid)
      | .async id => .async id }

/-- The FileId that sixteen bytes stand for. -/
def fileIdOf (b : ByteVec 16) : FileId := ⟨readU64 b.val 0, readU64 b.val 8⟩

/-- The request with the inherited FileId. -/
def RelatedContext.request (ctx : RelatedContext) (req : FileRequest) : FileRequest :=
  match ctx.prevCreateFileId with
  | some fileId => if req.fileId = .any then req.setFileId (fileIdOf fileId) else req
  | none => req

/-! ### The body -/

theorem write_readU64 (buf : Bytes) (off : Nat) (fits : off + 16 ≤ buf.length) :
    (⟨readU64 buf off, readU64 buf (off + 8)⟩ : FileId).write = slice buf off 16 := by
  rw [FileId.write, readU64, readU64, u64le_u64OfLe _ (length_slice _ _ _ (by omega)),
    u64le_u64OfLe _ (length_slice _ _ _ (by omega)), ← slice_add]

theorem write_fileIdOf (b : ByteVec 16) : (fileIdOf b).write = b.val := by
  have all : slice b.val 0 16 = b.val := by
    rw [slice, List.drop_zero, List.take_of_length_le (Nat.le_of_eq (ByteVec.length_val b))]
  have written := write_readU64 b.val 0 (Nat.le_of_eq (ByteVec.length_val b).symm)
  rwa [all] at written

/-- The FileId of a request is read where it is replaced. -/
theorem FileIdAt.fileId_eq {off : Nat} {parse : Bytes → Option FileRequest}
    (h : FileIdAt off parse) {body : Bytes} {req : FileRequest} (parsed : parse body = some req) :
    req.fileId = ⟨readU64 body off, readU64 body (off + 8)⟩ := by
  have fits := h.long body req parsed
  have same := h.patched ⟨readU64 body off, readU64 body (off + 8)⟩ body fits
  rw [write_readU64 _ _ fits, patch_slice_self _ _ _ fits, parsed, Option.map_some,
    Option.some.injEq] at same
  rw [same, FileRequest.fileId_setFileId]

/-- Each command's parser has the FileId where the rewriting looks for it. -/
theorem fileIdAt_of_offset {command : Command} {off : Nat}
    (h : fileIdBodyOffset command = some off) : FileIdAt off (FileRequest.parse command) := by
  cases command <;> cases h
  case close => exact FileRequest.close_fileIdAt
  case flush => exact FileRequest.flush_fileIdAt
  case read => exact FileRequest.read_fileIdAt
  case write => exact FileRequest.write_fileIdAt
  case lock => exact FileRequest.lock_fileIdAt
  case ioctl => exact FileRequest.ioctl_fileIdAt
  case queryDirectory => exact FileRequest.queryDirectory_fileIdAt
  case changeNotify => exact FileRequest.changeNotify_fileIdAt
  case queryInfo => exact FileRequest.queryInfo_fileIdAt
  case setInfo => exact FileRequest.setInfo_fileIdAt
  case oplockBreak => exact FileRequest.oplockBreak_fileIdAt

/-- No other command has one. -/
theorem parse_eq_none {command : Command} (h : fileIdBodyOffset command = none) (body : Bytes) :
    FileRequest.parse command body = none := by
  cases command <;> first | rfl | cases h

/-- What the rewriting does to the body. -/
def inheritBody (ctx : RelatedContext) (command : Command) (body : Bytes) : Bytes :=
  match ctx.prevCreateFileId, fileIdBodyOffset command with
  | some fileId, some off =>
    if off + 16 ≤ body.length ∧ readU64 body off = maxU64 ∧ readU64 body (off + 8) = maxU64
    then patch body off fileId.val
    else body
  | _, _ => body

theorem parse_inheritBody {ctx : RelatedContext} {command : Command} {body : Bytes}
    {req : FileRequest} (parsed : FileRequest.parse command body = some req) :
    FileRequest.parse command (inheritBody ctx command body) = some (ctx.request req) := by
  unfold inheritBody RelatedContext.request
  cases ctx.prevCreateFileId with
  | none => exact parsed
  | some fileId =>
    cases at_ : fileIdBodyOffset command with
    | none => rw [parse_eq_none at_] at parsed; cases parsed
    | some off =>
      have placed := fileIdAt_of_offset at_
      have fits := placed.long body req parsed
      -- the sixteen bytes that are replaced are those of the FileId read
      have ones : req.fileId = .any ↔
          off + 16 ≤ body.length ∧ readU64 body off = maxU64 ∧ readU64 body (off + 8) = maxU64 := by
        rw [placed.fileId_eq parsed, FileId.any, FileId.mk.injEq]
        simp [fits, maxU64]
      simp only
      split
      next replaced =>
        rw [if_pos (ones.mpr replaced), ← write_fileIdOf, placed.patched _ _ fits, parsed,
          Option.map_some]
      next kept =>
        rw [if_neg (mt ones.mp kept)]
        exact parsed

/-! ### The header -/

section

variable (ctx : RelatedContext) (sub : Bytes) (hdr : Smb2Header)

theorem readU64_inheritSession (long : smb2HeaderLen ≤ sub.length) :
    readU64 (inheritSession ctx sub hdr).1 40 =
      if readU64 sub 40 = maxU64 then ctx.prevSessionId else readU64 sub 40 := by
  rw [smb2HeaderLen] at long
  rw [inheritSession]
  split
  · have patched := slice_patch sub 0x28 (u64le ctx.prevSessionId) (by rw [length_u64le]; omega)
    rw [length_u64le] at patched
    rw [readU64, patched, u64OfLe_u64le]
  · rfl

theorem readU32_inheritTree (long : smb2HeaderLen ≤ sub.length) :
    readU32 (inheritTree ctx sub hdr).1 36 =
      if readU32 sub 36 = maxU32 then ctx.prevTreeId else readU32 sub 36 := by
  rw [smb2HeaderLen] at long
  rw [inheritTree]
  split
  · have patched := slice_patch sub 0x24 (u32le ctx.prevTreeId) (by rw [length_u32le]; omega)
    rw [length_u32le] at patched
    rw [readU32, patched, u32OfLe_u32le]
  · rfl

/-- The session id of the rewritten element. -/
theorem readU64_inheritRelated (long : smb2HeaderLen ≤ sub.length) :
    readU64 (inheritRelatedContext ctx sub hdr).1 40 =
      if readU64 sub 40 = maxU64 then ctx.prevSessionId else readU64 sub 40 := by
  have first := length_inheritSession ctx sub hdr long
  rw [← readU64_inheritSession ctx sub hdr long]
  simp only [inheritRelatedContext, readU64]
  rw [slice_inheritFileId_front _ _ _ _ _ (by decide),
    slice_inheritTree _ _ _ (by rw [first]; exact long) _ _ (by decide)]

/-- The tree id of the rewritten element. -/
theorem readU32_inheritRelated (long : smb2HeaderLen ≤ sub.length) :
    readU32 (inheritRelatedContext ctx sub hdr).1 36 =
      if readU32 sub 36 = maxU32 then ctx.prevTreeId else readU32 sub 36 := by
  have first := length_inheritSession ctx sub hdr long
  have received : readU32 (inheritSession ctx sub hdr).1 36 = readU32 sub 36 := by
    rw [readU32, slice_inheritSession _ _ _ long _ _ (by decide), readU32]
  rw [← received, ← readU32_inheritTree ctx _ (inheritSession ctx sub hdr).2
    (by rw [first]; exact long)]
  simp only [inheritRelatedContext, readU32]
  rw [slice_inheritFileId_front _ _ _ _ _ (by decide)]

theorem drop_inheritSession (long : smb2HeaderLen ≤ sub.length) :
    (inheritSession ctx sub hdr).1.drop smb2HeaderLen = sub.drop smb2HeaderLen := by
  rw [inheritSession]
  split
  · exact drop_patch_front _ _ _ _ (by rw [length_u64le]; decide) long
  · rfl

theorem drop_inheritTree (long : smb2HeaderLen ≤ sub.length) :
    (inheritTree ctx sub hdr).1.drop smb2HeaderLen = sub.drop smb2HeaderLen := by
  rw [inheritTree]
  split
  · exact drop_patch_front _ _ _ _ (by rw [length_u32le]; decide) long
  · rfl

theorem drop_inheritFileId (command : Command) (long : smb2HeaderLen ≤ sub.length) :
    (inheritFileId ctx command sub).drop smb2HeaderLen =
      inheritBody ctx command (sub.drop smb2HeaderLen) := by
  unfold inheritFileId inheritBody
  cases ctx.prevCreateFileId with
  | none => rfl
  | some fileId =>
    cases fileIdBodyOffset command with
    | none => rfl
    | some off =>
      simp only [readU64_drop, Nat.add_assoc, List.length_drop]
      by_cases fits : smb2HeaderLen + (off + 16) ≤ sub.length
      · have fits' : off + 16 ≤ sub.length - smb2HeaderLen := by omega
        simp only [fits, fits', true_and]
        split
        · exact drop_patch _ _ _ _ (by rw [ByteVec.length_val, Nat.add_assoc]; exact fits)
        · rfl
      · have fits' : ¬off + 16 ≤ sub.length - smb2HeaderLen := by omega
        simp only [fits, fits', false_and, if_false]

/-- The body of the rewritten element. -/
theorem drop_inheritRelated (long : smb2HeaderLen ≤ sub.length) :
    (inheritRelatedContext ctx sub hdr).1.drop smb2HeaderLen =
      inheritBody ctx hdr.command (sub.drop smb2HeaderLen) := by
  have first := length_inheritSession ctx sub hdr long
  have second := length_inheritTree ctx _ (inheritSession ctx sub hdr).2 (by rw [first]; exact long)
  simp only [inheritRelatedContext, command_inheritRelated]
  rw [drop_inheritFileId _ _ _ (by rw [second, first]; exact long),
    drop_inheritTree _ _ _ (by rw [first]; exact long), drop_inheritSession _ _ _ long]

end

/-- The header that goes along with the rewritten bytes. -/
theorem header_inheritRelated (ctx : RelatedContext) (sub : Bytes) (hdr : Smb2Header)
    (reserved tid : UInt32) (long : smb2HeaderLen ≤ sub.length)
    (session : hdr.sessionId = readU64 sub 40) (sync : hdr.tail = .sync reserved tid)
    (tree : tid = readU32 sub 36) :
    (inheritRelatedContext ctx sub hdr).2 = ctx.header hdr := by
  have received : readU32 (inheritSession ctx sub hdr).1 36 = readU32 sub 36 := by
    rw [readU32, slice_inheritSession _ _ _ long _ _ (by decide), readU32]
  have first : (inheritSession ctx sub hdr).2 =
      { hdr with
        sessionId := if hdr.sessionId = maxU64 then ctx.prevSessionId else hdr.sessionId } := by
    rw [inheritSession, ← session]
    split
    · rfl
    · rfl
  simp only [inheritRelatedContext, inheritTree, received, ← tree, first, sync,
    RelatedContext.header]
  split <;> rfl

theorem readU32_slice (buf : Bytes) (start len off : Nat) (inside : off + 4 ≤ len) :
    readU32 (slice buf start len) off = readU32 buf (start + off) := by
  have inner : slice (slice buf start len) off 4 = slice buf (start + off) 4 := by
    rw [← slice_drop]
    exact slice_take (buf.drop start) len off 4 inside
  rw [readU32, inner, readU32]

/-- The tail of a header without the async flag. -/
theorem Smb2Header.parseTail_slice {flags : UInt32}
    (sync : hasFlag flags smb2FlagsAsyncCommand = false) (buf : Bytes) :
    parseTail flags (slice buf 32 8) = .sync (readU32 buf 32) (readU32 buf 36) := by
  rw [parseTail, sync, if_neg Bool.false_ne_true, readU32_slice _ _ _ _ (by decide),
    readU32_slice _ _ _ _ (by decide)]

/-- Parsing the rewritten element is parsing the received one and replacing the ids. -/
theorem inheritance_parsed (ctx : RelatedContext) (sub body : Bytes) (hdr : Smb2Header)
    (reserved tid : UInt32) (req : FileRequest)
    (parsed : Smb2Header.parse sub = some (hdr, body)) (sync : hdr.tail = .sync reserved tid)
    (accepted : FileRequest.parse hdr.command body = some req) :
    ∃ body', Smb2Header.parse (inheritRelatedContext ctx sub hdr).1 = some (ctx.header hdr, body') ∧
      (inheritRelatedContext ctx sub hdr).2 = ctx.header hdr ∧
      FileRequest.parse hdr.command body' = some (ctx.request req) := by
  have long := Smb2Header.long_of_parse parsed
  -- what the header holds is what stands in the bytes
  have read := (Smb2Header.parse_alike parsed rfl rfl rfl).symm.trans parsed
  rw [Option.some.injEq, Prod.mk.injEq] at read
  obtain ⟨fields, rfl⟩ := read
  have session : hdr.sessionId = readU64 sub 40 := (congrArg Smb2Header.sessionId fields).symm
  have tail : hdr.tail = Smb2Header.parseTail hdr.flags (slice sub 32 8) :=
    (congrArg Smb2Header.tail fields).symm
  have synchronous : hasFlag hdr.flags smb2FlagsAsyncCommand = false := by
    rw [Bool.eq_false_iff]
    intro async
    rw [Smb2Header.parseTail, if_pos async, sync] at tail
    cases tail
  rw [Smb2Header.parseTail_slice synchronous, sync, HeaderTail.sync.injEq] at tail
  obtain ⟨rfl, rfl⟩ := tail
  refine ⟨inheritBody ctx hdr.command (sub.drop smb2HeaderLen), ?_, ?_, ?_⟩
  · have front : slice (inheritRelatedContext ctx sub hdr).1 0 36 = slice sub 0 36 :=
      slice_inheritRelatedContext ctx sub hdr long 0 36 (.inl (by decide))
        fun _ named => .inl (by have := le_fileIdBodyOffset named; rw [smb2HeaderLen]; omega)
    have signature : slice (inheritRelatedContext ctx sub hdr).1 48 16 = slice sub 48 16 :=
      slice_inheritRelatedContext ctx sub hdr long 48 16 (.inr (by decide))
        fun _ named => .inl (by have := le_fileIdBodyOffset named; rw [smb2HeaderLen]; omega)
    have reserved : readU32 (inheritRelatedContext ctx sub hdr).1 32 = readU32 sub 32 := by
      rw [readU32, readU32, ← slice_take _ 36 32 4 (by decide), ← slice_take sub 36 32 4 (by decide)]
      exact congrArg (fun front => u32OfLe (slice front 32 4)) front
    rw [Smb2Header.parse_alike parsed (length_inheritRelatedContext ctx sub hdr long) front
      signature, drop_inheritRelated ctx sub hdr long, readU64_inheritRelated ctx sub hdr long,
      Smb2Header.parseTail_slice synchronous, readU32_inheritRelated ctx sub hdr long, reserved]
    simp only [RelatedContext.header, sync, session]
  · exact header_inheritRelated ctx sub hdr _ _ long session sync rfl
  · exact parse_inheritBody accepted

/-- A related CLOSE with all-ones ids, behind a CREATE of open 7 in session 5 and tree 6. -/
theorem inheritance_parsed_close :
    ∃ body', Smb2Header.parse (inheritRelatedContext ⟨5, 6, some (ByteVec.ofBytes 16
        (FileId.write ⟨0, 7⟩))⟩ (Client.plain .close maxU64 maxU32 (Client.closeBody .any))
        (Client.header .close 0 maxU64 maxU32)).1 = some (Client.header .close 0 5 6, body') ∧
      FileRequest.parse .close body' = some (.close ⟨24, 0, 0, ⟨0, 7⟩⟩) := by
  have parsed : Smb2Header.parse (Client.plain .close maxU64 maxU32 (Client.closeBody .any)) =
      some (Client.header .close 0 maxU64 maxU32, Client.closeBody .any) := by
    decide +kernel
  have accepted : FileRequest.parse .close (Client.closeBody .any) =
      some (.close ⟨24, 0, 0, .any⟩) := rfl
  obtain ⟨body', header, -, request⟩ := inheritance_parsed ⟨5, 6, some (ByteVec.ofBytes 16
    (FileId.write ⟨0, 7⟩))⟩ _ _ _ 0 maxU32 _ parsed rfl accepted
  exact ⟨body', header, request⟩

end SmbServer
