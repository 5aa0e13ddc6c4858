import SmbServer.Proto.Sign
import SmbServer.Properties.Compound

/-!
# SmbServer.Properties.SigningPrimitives

What signing a buffer means, and why it may be done more than once.

Main results:

  For every message with room for a header, key and algorithm, `sign` changes the signature only and
  does not depend on the old one, its result verifies, and a message verifies if and only if signing
  it again changes nothing (`signing_laws`).

  Signing again under another key, behind an edit of the header, is signing once (`sign_again`).

  The stitcher makes the same payload of two lists of responses that differ in the signatures of
  elements that it signs again (`stitchResponses_congr`).

Proof strategy: the signature is a slot of the message and `sign` stamps it, so the laws are those of
`Slot.stamp`. Placing a response patches its header next to the slot, which signing again does not
notice.
-/

namespace SmbServer

open Lib

/-! ### The laws -/

/-- What the callers of `sign` and `verify` rely on, at one message. -/
structure SigningLaws [Crypto] (msg : Bytes) (key : Key) (algo : SigningAlgo) : Prop where
  succeeds : (Sign.sign msg key algo).1 = .ok ()
  changes : Sign.OutsideSignature msg (Sign.sign msg key algo).2
  verifies : Sign.verify (Sign.sign msg key algo).2 key algo = .ok ()
  ignores : ∀ other, Sign.OutsideSignature msg other →
    Sign.sign other key algo = Sign.sign msg key algo
  fixed : Sign.verify msg key algo = .ok () ↔ (Sign.sign msg key algo).2 = msg

/-- They hold at every message with room for a header. -/
theorem signing_laws [Crypto] (msg : Bytes) (key : Key) (algo : SigningAlgo)
    (long : 64 ≤ msg.length) : SigningLaws msg key algo := by
  let m : Sign.Message := ⟨msg, long⟩
  have signed := Sign.sign_eq_stamp key algo m
  constructor
  · rw [signed]
  · exact Sign.outsideSignature_sign key algo long
  · rw [signed]
    exact (Sign.verify_iff_stamped key algo _).mpr (Slot.stamped_stamp m)
  · exact fun other outside => Sign.sign_congr key algo long outside
  · rw [signed]
    refine (Sign.verify_iff_stamped key algo m).trans ((Slot.stamp_eq_self_iff m).symm.trans ?_)
    exact ⟨fun same => congrArg Sign.Message.bytes same, fun same => Sign.Message.ext same⟩

open scoped Sample

/-- A header that asks for a signature, and 36 bytes behind it. -/
def Sample.fixtureMessage : Bytes :=
  (Client.header .negotiate smb2FlagsSigned 0 0).write ++
    (List.range 36).map fun i => UInt8.ofNat (i * 7)

def Sample.fixtureKey : Key := ByteVec.ofBytes 16 (List.replicate 16 0xAA)

/-- Without its signature the message is rejected, and the laws say what signing makes of it. -/
theorem signing_laws_fixture :
    Sign.verify Sample.fixtureMessage Sample.fixtureKey .hmacSha256 =
        .error (.crypto "signature mismatch") ∧
      SigningLaws Sample.fixtureMessage Sample.fixtureKey .hmacSha256 :=
  ⟨by decide +kernel,
    signing_laws Sample.fixtureMessage Sample.fixtureKey .hmacSha256 (by decide +kernel)⟩

/-! ### Signing again -/

/-- Only the last signature counts, also behind an edit of the header. -/
theorem sign_again [Crypto] (msg : Bytes) (key key' : Key) (algo algo' : SigningAlgo) (off : Nat)
    (new : Bytes) (apart : off + new.length ≤ sigOff) (long : 64 ≤ msg.length) :
    Sign.sign (patch (Sign.sign msg key' algo').2 off new) key algo =
      Sign.sign (patch msg off new) key algo := by
  have outside := Sign.outsideSignature_sign key' algo' long
  have fits : off + new.length ≤ msg.length := by
    simp only [sigOff] at apart
    omega
  exact Sign.sign_congr key algo (length_patch _ _ _ fits ▸ long) (outside.edit off new apart long)

/-! ### Responses that are signed again -/

/-- The stitcher finds a key for the response. -/
structure Resigned {η : Type} (conn : Connection η) (response : Bytes) : Prop where
  long : 64 ≤ response.length
  flagged : hasFlag (readU32 response 0x10) smb2FlagsSigned = true
  found : (resigner conn response).isSome

section
variable {η : Type} {conn : Connection η} {a b : Bytes}

theorem Resigned.congr (resigned : Resigned conn a) (outside : Sign.OutsideSignature a b) :
    Resigned conn b ∧ resigner conn b = resigner conn a := by
  have flags : readU32 b 0x10 = readU32 a 0x10 :=
    congrArg u32OfLe (outside.slice_eq 0x10 4 (by decide))
  have session : readU64 b 0x28 = readU64 a 0x28 :=
    congrArg u64OfLe (outside.slice_eq 0x28 8 (by decide))
  have same : resigner conn b = resigner conn a := by rw [resigner, session, resigner]
  exact ⟨⟨outside.1 ▸ resigned.long, flags ▸ resigned.flagged, same ▸ resigned.found⟩, same⟩

variable [Crypto]

/-- An element whose response is signed again. -/
theorem Resigned.laidOut_eq (resigned : Resigned conn a) (isLast : Bool) :
    ∃ key algo, resigner conn a = some (key, algo) ∧ laidOut conn isLast a =
      sign (if isLast then a else chained a) key algo ++ if isLast then [] else padding a := by
  obtain ⟨⟨key, algo⟩, found⟩ := Option.isSome_iff_exists.mp resigned.found
  refine ⟨key, algo, found, ?_⟩
  have long := resigned.long
  -- the flags and the session id are those of the response
  have kept (off n : Nat) (inside : off + n ≤ 64) (apart : off + n ≤ 0x14 ∨ 0x18 ≤ off) :
      slice (placeResponse isLast a) off n = slice a off n :=
    slice_placeResponse long isLast off n (by omega) apart
  have flags : readU32 (placeResponse isLast a) 0x10 = readU32 a 0x10 :=
    congrArg u32OfLe (kept 0x10 4 (by decide) (by decide))
  have session : readU64 (placeResponse isLast a) 0x28 = readU64 a 0x28 :=
    congrArg u64OfLe (kept 0x28 8 (by decide) (by decide))
  have same : resigner conn (placeResponse isLast a) = some (key, algo) := by
    rw [resigner, session, ← found, resigner]
  rw [laidOut, resign_eq _ _ _ (flags ▸ resigned.flagged), same]
  cases isLast with
  | true =>
    simp only [placeResponse, if_true, List.take_length, List.drop_length]
  | false =>
    have length := length_chained_of_le long
    have placed : placeResponse false a = chained a ++ padding a := rfl
    simp only [placed, List.take_left' length, List.drop_left' length, Bool.false_eq_true, if_false]

theorem sign_of_outside {key : Key} {algo : SigningAlgo} (long : 64 ≤ a.length)
    (outside : Sign.OutsideSignature a b) : sign b key algo = sign a key algo := by
  rw [← Sign.sign_eq, Sign.sign_congr key algo long outside, Sign.sign_eq]

/-- The signature that a response comes with is lost. -/
theorem laidOut_congr (resigned : Resigned conn a) (outside : Sign.OutsideSignature a b)
    (isLast : Bool) : laidOut conn isLast b = laidOut conn isLast a := by
  obtain ⟨resigned', same⟩ := resigned.congr outside
  obtain ⟨key, algo, found, first⟩ := resigned.laidOut_eq isLast
  obtain ⟨key', algo', found', second⟩ := resigned'.laidOut_eq isLast
  obtain ⟨rfl, rfl⟩ := Prod.mk.inj (Option.some.inj (found'.symm.trans (same.trans found)))
  rw [first, second]
  cases isLast with
  | true =>
    simp only [if_true]
    rw [sign_of_outside resigned.long outside]
  | false =>
    have linked : Sign.OutsideSignature (chained a) (chained b) := by
      rw [chained, chained, outside.1]
      exact outside.edit 0x14 _ (by rw [length_u32le]; decide) resigned.long
    have long : 64 ≤ (chained a).length := length_chained_of_le resigned.long ▸ resigned.long
    simp only [Bool.false_eq_true, if_false]
    rw [sign_of_outside long linked, padding, padding, outside.1]

/-- The same response, or one that differs in a signature that is not kept. -/
def Restitched (conn : Connection η) (a b : Bytes) : Prop :=
  b = a ∨ (Resigned conn a ∧ Sign.OutsideSignature a b)

theorem Restitched.laidOut (restitched : Restitched conn a b) (isLast : Bool) :
    SmbServer.laidOut conn isLast b = SmbServer.laidOut conn isLast a := by
  rcases restitched with rfl | ⟨resigned, outside⟩
  · rfl
  · exact laidOut_congr resigned outside isLast

theorem stitched_congr {as bs : List Bytes} (each : List.Forall₂ (Restitched conn) as bs) :
    stitched conn bs = stitched conn as := by
  induction each with
  | nil => rfl
  | cons first rest ih =>
    -- all but the last are placed in front of others
    cases rest with
    | nil => rw [stitched_singleton, stitched_singleton, first.laidOut]
    | cons => rw [stitched_cons_cons, stitched_cons_cons, first.laidOut, ih]

/-- The payload does not depend on signatures that the stitcher renews. -/
theorem stitchResponses_congr (conn : Connection η) (as bs : List Bytes)
    (each : List.Forall₂ (Restitched conn) as bs) :
    stitchResponses conn bs = stitchResponses conn as := by
  rw [stitchResponses_eq, stitchResponses_eq, stitched_congr each]

end

end SmbServer
