import SmbServer.Proto.Header

/-!
# SmbServer.Properties.HeaderRoundTrip

The 64-byte header on the wire and as a record.

## Main result

`header_roundTrip`: a header whose tail has the form that its ASYNC flag announces is read back from
in front of anything, and whatever is accepted as a header is written back as its first 64 bytes.

## Proof strategy

The bytes of a written header are read field by field, each at its offset. Backwards, every field
is a slice of the buffer, and the slices that `write` puts together are adjacent.
-/

namespace SmbServer

open Lib

/-- A command that was read is the number it was read from. -/
theorem Command.asU16_of_fromU16 {v : UInt16} {c : Command} (read : fromU16 v = some c) :
    c.asU16 = v := by
  apply UInt16.toNat_inj.mp
  unfold fromU16 at read
  split at read
  case h_20 => cases read
  all_goals
    next opcode =>
    obtain rfl := Option.some.inj read
    rw [opcode]
    rfl

namespace Smb2Header

/-- The tail has the form that the ASYNC flag announces. -/
def TailMatches (h : Smb2Header) : Prop :=
  match h.tail with
  | .async _ => hasFlag h.flags smb2FlagsAsyncCommand = true
  | .sync _ _ => hasFlag h.flags smb2FlagsAsyncCommand = false

/-! ### Reading what was written -/

theorem slice_tail_write (h : Smb2Header) (rest : Bytes) :
    slice (h.write ++ rest) 32 8 = writeTail h.tail := by
  have shape : h.write ++ rest =
      (smb2Magic ++ u16le 64 ++ u16le h.creditCharge ++ u32le h.channelSequenceStatus ++
        u16le h.command.asU16 ++ u16le h.creditRequestResponse ++ u32le h.flags ++
        u32le h.nextCommand ++ u64le h.messageId) ++ (writeTail h.tail ++
      (u64le h.sessionId ++ h.signature.val ++ rest)) := by
    simp only [write, List.append_assoc]
  rw [shape]
  exact slice_between _ _ _ 32 8 (by simp [smb2Magic]) (length_writeTail h.tail)

theorem slice_signature_write (h : Smb2Header) (rest : Bytes) :
    slice (h.write ++ rest) 48 16 = h.signature.val := by
  have shape : h.write ++ rest =
      (smb2Magic ++ u16le 64 ++ u16le h.creditCharge ++ u32le h.channelSequenceStatus ++
        u16le h.command.asU16 ++ u16le h.creditRequestResponse ++ u32le h.flags ++
        u32le h.nextCommand ++ u64le h.messageId ++ writeTail h.tail ++ u64le h.sessionId) ++
      (h.signature.val ++ rest) := by
    simp only [write, List.append_assoc]
  rw [shape]
  exact slice_between _ _ _ 48 16 (by simp [smb2Magic]) (ByteVec.length_val _)

theorem readU16_creditCharge_write (h : Smb2Header) (rest : Bytes) :
    readU16 (h.write ++ rest) 6 = h.creditCharge := by
  have shape : h.write ++ rest = (smb2Magic ++ u16le 64) ++ (u16le h.creditCharge ++
      (u32le h.channelSequenceStatus ++ u16le h.command.asU16 ++
        u16le h.creditRequestResponse ++ u32le h.flags ++ u32le h.nextCommand ++
        u64le h.messageId ++ writeTail h.tail ++ u64le h.sessionId ++ h.signature.val ++ rest)) := by
    simp only [write, List.append_assoc]
  rw [readU16, shape, slice_between _ _ _ 6 2 (by simp [smb2Magic]) (length_u16le _),
    u16OfLe_u16le]

theorem readU16_credits_write (h : Smb2Header) (rest : Bytes) :
    readU16 (h.write ++ rest) 14 = h.creditRequestResponse := by
  have shape : h.write ++ rest =
      (smb2Magic ++ u16le 64 ++ u16le h.creditCharge ++ u32le h.channelSequenceStatus ++
        u16le h.command.asU16) ++ (u16le h.creditRequestResponse ++ (u32le h.flags ++
      u32le h.nextCommand ++ u64le h.messageId ++ writeTail h.tail ++ u64le h.sessionId ++
        h.signature.val ++ rest)) := by
    simp only [write, List.append_assoc]
  rw [readU16, shape, slice_between _ _ _ 14 2 (by simp [smb2Magic]) (length_u16le _),
    u16OfLe_u16le]

/-- A tail is read in the form that it was written in. -/
theorem parseTail_writeTail {h : Smb2Header} (same : h.TailMatches) :
    parseTail h.flags (writeTail h.tail) = h.tail := by
  rw [TailMatches] at same
  cases tail : h.tail with
  | async id =>
    simp only [tail] at same
    rw [parseTail, same, if_pos rfl, writeTail, u64OfLe_u64le]
  | sync reserved tid =>
    simp only [tail] at same
    have low : slice (u32le reserved ++ u32le tid) 0 4 = u32le reserved :=
      slice_append_exact _ _ 4 (length_u32le reserved)
    have high : slice (u32le reserved ++ u32le tid) 4 4 = u32le tid := by
      rw [← List.append_nil (u32le tid)]
      exact slice_between _ _ _ 4 4 (length_u32le reserved) (length_u32le tid)
    rw [parseTail, same, if_neg Bool.false_ne_true, writeTail, readU32, readU32, low, high,
      u32OfLe_u32le, u32OfLe_u32le]

theorem parse_write {h : Smb2Header} (same : h.TailMatches) (rest : Bytes) :
    parse (h.write ++ rest) = some (h, rest) := by
  obtain ⟨long, magic, size, -⟩ := begins_write h rest
  have signature : ByteVec.ofBytes 16 h.signature.val = h.signature :=
    Subtype.ext (ByteVec.ofBytes_val _ (ByteVec.length_val _))
  have behind : (h.write ++ rest).drop smb2HeaderLen = rest := List.drop_left' (length_write h)
  rw [parse, if_neg (Nat.not_lt.mpr long), if_neg (not_not.mpr magic), if_neg (not_not.mpr size),
    readU16_command_write, Command.fromU16_asU16, readU16_creditCharge_write,
    readU32_status_write, readU16_credits_write, readU32_flags_write, readU32_nextCommand_write,
    readU64_messageId_write, slice_tail_write, readU64_sessionId_write, slice_signature_write,
    signature, behind, parseTail_writeTail same]

/-! ### Writing what was read -/

theorem writeTail_parseTail (flags : UInt32) (b : Bytes) (long : b.length = 8) :
    writeTail (parseTail flags b) = b := by
  rw [parseTail]
  split
  · exact u64le_u64OfLe b long
  · rw [writeTail, readU32, readU32, u32le_u32OfLe _ (length_slice b 0 4 (by omega)),
      u32le_u32OfLe _ (length_slice b 4 4 (by omega))]
    have parts := slice_add b 0 4 4
    rw [← parts, slice, List.drop_zero]
    exact List.take_of_length_le (by omega)

/-- The slices that a header is put together from are adjacent. -/
private theorem take_header (buf : Bytes) :
    slice buf 0 4 ++ slice buf 4 2 ++ slice buf 6 2 ++ slice buf 8 4 ++ slice buf 12 2 ++
      slice buf 14 2 ++ slice buf 16 4 ++ slice buf 20 4 ++ slice buf 24 8 ++ slice buf 32 8 ++
      slice buf 40 8 ++ slice buf 48 16 = buf.take smb2HeaderLen := by
  have join (m n : Nat) : slice buf 0 m ++ slice buf m n = slice buf 0 (m + n) := by
    rw [slice_add, Nat.zero_add]
  simp only [join]
  rfl

theorem write_of_parse {buf rest : Bytes} {h : Smb2Header} (read : parse buf = some (h, rest)) :
    h.write = buf.take smb2HeaderLen := by
  unfold parse at read
  split at read
  · cases read
  next long =>
  rw [smb2HeaderLen, Nat.not_lt] at long
  split at read
  · cases read
  next magic =>
  split at read
  · cases read
  next size =>
  split at read
  · cases read
  next command known =>
  obtain ⟨rfl, -⟩ := Prod.mk.inj (Option.some.inj read)
  rw [not_not] at magic size
  -- each field written back is the slice that it was read from
  have half (off : Nat) (fits : off + 2 ≤ 64) : u16le (readU16 buf off) = slice buf off 2 :=
    u16le_u16OfLe _ (length_slice buf off 2 (by omega))
  have word (off : Nat) (fits : off + 4 ≤ 64) : u32le (readU32 buf off) = slice buf off 4 :=
    u32le_u32OfLe _ (length_slice buf off 4 (by omega))
  have long64 (off : Nat) (fits : off + 8 ≤ 64) : u64le (readU64 buf off) = slice buf off 8 :=
    u64le_u64OfLe _ (length_slice buf off 8 (by omega))
  have tail : writeTail (parseTail (readU32 buf 16) (slice buf 32 8)) = slice buf 32 8 :=
    writeTail_parseTail _ _ (length_slice buf 32 8 (by omega))
  have signature : (ByteVec.ofBytes 16 (slice buf 48 16)).val = slice buf 48 16 :=
    ByteVec.ofBytes_val _ (length_slice buf 48 16 (by omega))
  simp only [write, Command.asU16_of_fromU16 known, ← magic, ← size, tail, signature]
  rw [half 4 (by omega), half 6 (by omega), word 8 (by omega), half 12 (by omega),
    half 14 (by omega), word 16 (by omega), word 20 (by omega), long64 24 (by omega),
    long64 40 (by omega)]
  exact take_header buf

end Smb2Header

/-- Headers come back from the wire, and what was accepted as one goes back to it. -/
theorem header_roundTrip :
    (∀ (h : Smb2Header) (rest : Bytes), h.TailMatches →
        Smb2Header.parse (h.write ++ rest) = some (h, rest)) ∧
      ∀ (b : Bytes) (h : Smb2Header) (rest : Bytes), Smb2Header.parse b = some (h, rest) →
        h.write = b.take smb2HeaderLen :=
  ⟨fun _ rest same => Smb2Header.parse_write same rest,
    fun _ _ _ read => Smb2Header.write_of_parse read⟩

/-- An interim response, with the identifier of its operation. -/
def Sample.interim : Smb2Header :=
  { Smb2Header.default with flags := smb2FlagsAsyncCommand, tail := .async 7 }

theorem header_roundTrip_interim :
    Smb2Header.parse (Sample.interim.write ++ [1, 2]) = some (Sample.interim, [1, 2]) ∧
      Sample.interim.write = (Sample.interim.write ++ [1, 2]).take smb2HeaderLen :=
  ⟨header_roundTrip.1 Sample.interim [1, 2] rfl,
    header_roundTrip.2 (Sample.interim.write ++ [1, 2]) Sample.interim [1, 2] (by decide +kernel)⟩

end SmbServer
