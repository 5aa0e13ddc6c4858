import SmbServer.Effects.Answer
import SmbServer.Steps

/-!
# SmbServer.Effects.Inherit

What a related element inherits reaches its session id, its tree id and the FileId in its body. Its
length, its command, its flags and its message id are those that were received.
-/

namespace SmbServer

open Lib

section

variable (ctx : RelatedContext) (sub : Bytes) (hdr : Smb2Header)

theorem length_inheritSession (long : smb2HeaderLen ≤ sub.length) :
    (inheritSession ctx sub hdr).1.length = sub.length := by
  rw [smb2HeaderLen] at long
  rw [inheritSession]
  split
  · exact length_patch _ _ _ (by rw [length_u64le]; omega)
  · rfl

theorem slice_inheritSession (long : smb2HeaderLen ≤ sub.length) (off len : Nat)
    (apart : off + len ≤ 0x28 ∨ 0x30 ≤ off) :
    slice (inheritSession ctx sub hdr).1 off len = slice sub off len := by
  rw [smb2HeaderLen] at long
  rw [inheritSession]
  split
  · exact slice_patch_disjoint _ _ _ _ _ (by rw [length_u64le]; omega) (by rwa [length_u64le])
  · rfl

theorem length_inheritTree (long : smb2HeaderLen ≤ sub.length) :
    (inheritTree ctx sub hdr).1.length = sub.length := by
  rw [smb2HeaderLen] at long
  rw [inheritTree]
  split
  · exact length_patch _ _ _ (by rw [length_u32le]; omega)
  · rfl

theorem slice_inheritTree (long : smb2HeaderLen ≤ sub.length) (off len : Nat)
    (apart : off + len ≤ 0x24 ∨ 0x28 ≤ off) :
    slice (inheritTree ctx sub hdr).1 off len = slice sub off len := by
  rw [smb2HeaderLen] at long
  rw [inheritTree]
  split
  · exact slice_patch_disjoint _ _ _ _ _ (by rw [length_u32le]; omega) (by rwa [length_u32le])
  · rfl

/-- A FileId sits behind the header and eight bytes of the body at least. -/
theorem le_fileIdBodyOffset {command : Command} {off : Nat}
    (h : fileIdBodyOffset command = some off) : 8 ≤ off := by
  cases command <;> simp only [fileIdBodyOffset, reduceCtorEq, Option.some.injEq] at h <;> omega

theorem length_inheritFileId (command : Command) :
    (inheritFileId ctx command sub).length = sub.length := by
  unfold inheritFileId
  split
  · dsimp only
    split
    next fits => exact length_patch _ _ _ (by rw [ByteVec.length_val]; exact fits.1)
    next => rfl
  · rfl

theorem slice_inheritFileId (command : Command) (off len : Nat)
    (apart : ∀ bodyOffset, fileIdBodyOffset command = some bodyOffset →
      off + len ≤ smb2HeaderLen + bodyOffset ∨ smb2HeaderLen + bodyOffset + 16 ≤ off) :
    slice (inheritFileId ctx command sub) off len = slice sub off len := by
  unfold inheritFileId
  split
  next _ bodyOffset _ named =>
    dsimp only
    split
    next fits =>
      refine slice_patch_disjoint _ _ _ _ _ (by rw [ByteVec.length_val]; exact fits.1) ?_
      rw [ByteVec.length_val]
      exact apart bodyOffset named
    next => rfl
  · rfl

theorem slice_inheritFileId_front (command : Command) (off len : Nat) (front : off + len ≤ 72) :
    slice (inheritFileId ctx command sub) off len = slice sub off len := by
  refine slice_inheritFileId ctx sub command off len fun bodyOffset named => .inl ?_
  have behind := le_fileIdBodyOffset named
  rw [smb2HeaderLen]
  omega

theorem command_inheritRelated :
    (inheritTree ctx (inheritSession ctx sub hdr).1 (inheritSession ctx sub hdr).2).2.command =
      hdr.command := by
  simp only [inheritTree, inheritSession]
  split <;> split <;> (try split) <;> rfl

theorem length_inheritRelatedContext (long : smb2HeaderLen ≤ sub.length) :
    (inheritRelatedContext ctx sub hdr).1.length = sub.length := by
  have first := length_inheritSession ctx sub hdr long
  simp only [inheritRelatedContext, length_inheritFileId]
  rw [length_inheritTree _ _ _ (by rw [first]; exact long), first]

/-- The rewriting reaches the tree id, the session id and the FileId of the command only. -/
theorem slice_inheritRelatedContext (long : smb2HeaderLen ≤ sub.length) (off len : Nat)
    (apart : off + len ≤ 0x24 ∨ 0x30 ≤ off)
    (fileId : ∀ bodyOffset, fileIdBodyOffset hdr.command = some bodyOffset →
      off + len ≤ smb2HeaderLen + bodyOffset ∨ smb2HeaderLen + bodyOffset + 16 ≤ off) :
    slice (inheritRelatedContext ctx sub hdr).1 off len = slice sub off len := by
  have first := length_inheritSession ctx sub hdr long
  simp only [inheritRelatedContext, command_inheritRelated]
  rw [slice_inheritFileId _ _ _ _ _ fileId,
    slice_inheritTree _ _ _ (by rw [first]; exact long) _ _ (by omega),
    slice_inheritSession _ _ _ long _ _ (by omega)]

end

theorem Smb2Header.long_of_parse {buf body : Bytes} {hdr : Smb2Header}
    (parsed : Smb2Header.parse buf = some (hdr, body)) : smb2HeaderLen ≤ buf.length :=
  Nat.le_of_not_lt fun short => by simp [Smb2Header.parse, short] at parsed

theorem Smb2Header.body_of_parse {buf body : Bytes} {hdr : Smb2Header}
    (parsed : Smb2Header.parse buf = some (hdr, body)) : body = buf.drop smb2HeaderLen := by
  unfold Smb2Header.parse at parsed
  split at parsed
  · cases parsed
  split at parsed
  · cases parsed
  split at parsed
  · cases parsed
  split at parsed
  · cases parsed
  · exact (Prod.mk.inj (Option.some.inj parsed)).2.symm

/-- A header that differs in the session id and the tail at most. -/
theorem Smb2Header.parse_alike {buf buf' body : Bytes} {hdr : Smb2Header}
    (parsed : Smb2Header.parse buf = some (hdr, body)) (length : buf'.length = buf.length)
    (front : slice buf' 0 36 = slice buf 0 36) (signature : slice buf' 48 16 = slice buf 48 16) :
    Smb2Header.parse buf' =
      some ({ hdr with
        tail := parseTail hdr.flags (slice buf' 32 8)
        sessionId := readU64 buf' 40 }, buf'.drop smb2HeaderLen) := by
  have long := Smb2Header.long_of_parse parsed
  -- all words but the tail and the session id lie in the first 36 bytes
  have same (off len : Nat) (inside : off + len ≤ 36) :
      slice buf' off len = slice buf off len := by
    rw [← slice_take buf' 36 off len inside, ← slice_take buf 36 off len inside]
    exact congrArg (slice · off len) front
  have same16 (off : Nat) (inside : off + 2 ≤ 36) : readU16 buf' off = readU16 buf off := by
    rw [readU16, same off 2 inside, readU16]
  have same32 (off : Nat) (inside : off + 4 ≤ 36) : readU32 buf' off = readU32 buf off := by
    rw [readU32, same off 4 inside, readU32]
  have message : readU64 buf' 24 = readU64 buf 24 := by rw [readU64, same 24 8 (by omega), readU64]
  simp only [Smb2Header.parse, length, Nat.not_lt.mpr long, if_false, same 0 4 (by omega),
    same16 4 (by omega), same16 6 (by omega), same32 8 (by omega), same16 12 (by omega),
    same16 14 (by omega), same32 16 (by omega), same32 20 (by omega), message, signature]
    at parsed ⊢
  by_cases magic : slice buf 0 4 ≠ smb2Magic
  · rw [if_pos magic] at parsed
    cases parsed
  by_cases size : readU16 buf 4 ≠ 64
  · rw [if_neg magic, if_pos size] at parsed
    cases parsed
  rw [if_neg magic, if_neg size] at parsed ⊢
  cases known : Command.fromU16 (readU16 buf 12) with
  | none => simp [known] at parsed
  | some command =>
    simp only [known, Option.some.injEq, Prod.mk.injEq] at parsed
    obtain ⟨rfl, -⟩ := parsed
    rfl

theorem Element.length_bytes (e : Element) : e.bytes.length = e.received.length := by
  rw [Element.bytes]
  cases parsed : Smb2Header.parse e.received with
  | none => rfl
  | some parts =>
    simp only [effectiveElement]
    split
    · exact length_inheritRelatedContext _ _ _ (Smb2Header.long_of_parse parsed)
    · rfl

/-- What lies apart from the rewritten ids is as it was received. -/
theorem Element.slice_bytes_apart (e : Element) (off len : Nat)
    (apart : off + len ≤ 0x24 ∨ 0x30 ≤ off)
    (fileId : ∀ hdr body bodyOffset, Smb2Header.parse e.received = some (hdr, body) →
      fileIdBodyOffset hdr.command = some bodyOffset →
        off + len ≤ smb2HeaderLen + bodyOffset ∨ smb2HeaderLen + bodyOffset + 16 ≤ off) :
    slice e.bytes off len = slice e.received off len := by
  rw [Element.bytes]
  cases parsed : Smb2Header.parse e.received with
  | none => rfl
  | some parts =>
    simp only [effectiveElement]
    split
    · exact slice_inheritRelatedContext _ _ _ (Smb2Header.long_of_parse parsed) off len apart
        fun bodyOffset => fileId parts.1 parts.2 bodyOffset parsed
    · rfl

/-- The header but for the ids, and the first bytes of the body. -/
theorem Element.slice_bytes (e : Element) (off len : Nat)
    (apart : off + len ≤ 0x24 ∨ 0x30 ≤ off ∧ off + len ≤ 72) :
    slice e.bytes off len = slice e.received off len := by
  refine e.slice_bytes_apart off len (by omega) fun hdr body bodyOffset _ named => .inl ?_
  have behind := le_fileIdBodyOffset named
  rw [smb2HeaderLen]
  omega

/-- The signature field is never rewritten. -/
theorem Element.slice_bytes_signature (e : Element) :
    slice e.bytes sigOff sigLen = slice e.received sigOff sigLen :=
  e.slice_bytes sigOff sigLen (.inr (by decide))

/-- The request that an element is dispatched as has the command, the flags and the message id that
were received. -/
theorem Element.parse_bytes (e : Element) {hdr : Smb2Header} {body : Bytes}
    (parsed : Smb2Header.parse e.received = some (hdr, body)) :
    ∃ hdr' body', Smb2Header.parse e.bytes = some (hdr', body') ∧ hdr'.command = hdr.command ∧
      hdr'.flags = hdr.flags ∧ hdr'.messageId = hdr.messageId := by
  have front : slice e.bytes 0 36 = slice e.received 0 36 := e.slice_bytes 0 36 (by decide)
  have signature := e.slice_bytes_signature
  exact ⟨_, _, Smb2Header.parse_alike parsed e.length_bytes front signature, rfl, rfl, rfl⟩

end SmbServer
