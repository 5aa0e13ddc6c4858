import SmbServer.Lib.Bytes

/-!
# SmbServer.Proto.Framing

Direct-TCP framing (`proto/framing.rs`): a zero byte and the length of the payload, as 24 bits with
the most significant first, in front of every payload.
-/

namespace SmbServer

open Lib

/-- The longest payload that the length field can measure. -/
def maxFramePayload : Nat := 0x00FFFFFF

/-- `encode_frame` of a release build, where the bits above the 24th are lost. -/
def encodeFrame (payload : Bytes) : Bytes :=
  let len := payload.length % 2 ^ 32
  [0x00, UInt8.ofNat (len / 0x10000 % 0x100), UInt8.ofNat (len / 0x100 % 0x100),
    UInt8.ofNat (len % 0x100)] ++ payload

/-- The payload length in a frame header. -/
def decodeFrameHeader (kind high mid low : UInt8) : Option Nat :=
  if kind ≠ 0x00 then none else some (high.toNat * 0x10000 + mid.toNat * 0x100 + low.toNat)

/-- `decode_frame`: the first payload of a stream, and the stream behind it. -/
def decodeFrame (stream : Bytes) : Option (Bytes × Bytes) :=
  match stream with
  | kind :: high :: mid :: low :: rest =>
    match decodeFrameHeader kind high mid low with
    | none => none
    | some len => if rest.length < len then none else some (rest.take len, rest.drop len)
  | _ => none

/-- A peer that reads the frame of a payload gets the payload, and goes on behind it. -/
def InSync (payload : Bytes) : Prop :=
  ∀ behind, decodeFrame (encodeFrame payload ++ behind) = some (payload, behind)

/-- The header of a frame carries the length modulo 24 bits. -/
theorem decodeFrame_encodeFrame (payload behind : Bytes) :
    decodeFrame (encodeFrame payload ++ behind) =
      some ((payload ++ behind).take (payload.length % 2 ^ 24),
        (payload ++ behind).drop (payload.length % 2 ^ 24)) := by
  have field : payload.length % 2 ^ 32 / 0x10000 % 0x100 * 0x10000 +
      payload.length % 2 ^ 32 / 0x100 % 0x100 * 0x100 + payload.length % 2 ^ 32 % 0x100 =
        payload.length % 2 ^ 24 := by
    omega
  have enough : ¬(payload ++ behind).length < payload.length % 2 ^ 24 := by
    have less := Nat.mod_le payload.length (2 ^ 24)
    rw [List.length_append]
    omega
  simp only [encodeFrame, List.cons_append, List.nil_append, decodeFrame, decodeFrameHeader,
    ne_eq, not_true_eq_false, if_false, UInt8.toNat_ofNat', Nat.reducePow, Nat.mod_mod] at field ⊢
  rw [field, if_neg]
  simpa using enough

/-- The peer stays in sync exactly behind the payloads that the length field can measure. -/
theorem inSync_iff (payload : Bytes) : InSync payload ↔ payload.length ≤ maxFramePayload := by
  rw [maxFramePayload]
  constructor
  · intro sync
    have read := (decodeFrame_encodeFrame payload []).symm.trans (sync [])
    have rest := congrArg List.length (Prod.mk.inj (Option.some.inj read)).2
    rw [List.append_nil, List.length_drop, List.length_nil] at rest
    have small := Nat.mod_lt payload.length (show 0 < 2 ^ 24 by decide)
    omega
  · intro short behind
    rw [decodeFrame_encodeFrame, Nat.mod_eq_of_lt (by omega), List.take_left', List.drop_left'] <;>
      rfl

end SmbServer
