import SmbServer.Lib.Stamp
import SmbServer.Proto.MacAgreement

/-!
# SmbServer.Proto.Sign

Signing as `sign.rs` writes it: the MAC fed in three pieces, the buffer signed in place, the
signatures compared byte by byte, and the errors. The functions of `SmbServer.Proto.Crypto`, which
the rest of the server is over, are these without the errors (`Sign.sign_eq`, `Sign.verify_eq_ok`).

A message with room for a header has its signature in a slot. On such messages `sign` is the stamp of
that slot and `verify` asks whether it is there.
-/

namespace SmbServer

open Lib

namespace Sign

/-- `ProtoError::Crypto`, the kind that signing returns. -/
inductive ProtoError where
  | crypto (reason : String)
  deriving DecidableEq

/-! ### The MAC -/

/-- A `Mac` that has been fed some bytes. -/
structure MacState where
  algo : SigningAlgo
  key : Key
  fed : Bytes

namespace MacState

def newFromSlice (algo : SigningAlgo) (key : Key) : MacState := ⟨algo, key, []⟩

def update (mac : MacState) (data : Bytes) : MacState := { mac with fed := mac.fed ++ data }

def finalize [Crypto] (mac : MacState) : Bytes :=
  match mac.algo with
  | .hmacSha256 => (Crypto.hmacSha256 mac.key.val mac.fed).val
  | .aesCmac => (Crypto.aesCmac mac.key mac.fed).val

/-- Feeding piece by piece is feeding the whole. -/
theorem update_update (mac : MacState) (first second : Bytes) :
    (mac.update first).update second = mac.update (first ++ second) := by
  simp only [update, List.append_assoc]

theorem take_finalize_newFromSlice [Crypto] (algo : SigningAlgo) (key : Key) (msg : Bytes) :
    ByteVec.ofBytes 16 ((((newFromSlice algo key).update msg).finalize).take sigLen) =
      SmbServer.mac algo key msg := by
  cases algo with
  | hmacSha256 => rfl
  | aesCmac =>
    -- the CMAC is as long as the signature
    have whole : (Crypto.aesCmac key msg).val.take sigLen = (Crypto.aesCmac key msg).val :=
      List.take_of_length_le (by rw [ByteVec.length_val, sigLen])
    apply Subtype.ext
    refine (congrArg (fun b => (ByteVec.ofBytes 16 b).val) whole).trans ?_
    exact ByteVec.ofBytes_val _ (ByteVec.length_val _)

end MacState

def computeMacZeroedSignature [Crypto] (msg : Bytes) (key : Key) (algo : SigningAlgo) :
    ByteVec 16 :=
  let zeroSignature := (ByteVec.zero sigLen).val
  let front := msg.take sigOff
  let suffix := msg.drop (sigOff + sigLen)
  let mac := MacState.newFromSlice algo key
  let mac := mac.update front
  let mac := mac.update zeroSignature
  let mac := mac.update suffix
  ByteVec.ofBytes 16 (mac.finalize.take sigLen)

theorem computeMacZeroedSignature_eq [Crypto] (msg : Bytes) (key : Key) (algo : SigningAlgo) :
    computeMacZeroedSignature msg key algo = SmbServer.computeMacZeroedSignature msg key algo := by
  rw [computeMacZeroedSignature, MacState.update_update, MacState.update_update,
    MacState.take_finalize_newFromSlice, SmbServer.computeMacZeroedSignature, List.append_assoc]

/-! ### The comparison -/

/-- The bytes that differ are collected; the loop never ends early. -/
def constantTimeEq (a b : ByteVec 16) : Bool :=
  (List.zipWith (· ^^^ ·) a.val b.val).foldl (· ||| ·) 0 == 0

theorem foldl_or_eq_zero (acc : UInt8) (bytes : Bytes) :
    bytes.foldl (· ||| ·) acc = 0 ↔ acc = 0 ∧ ∀ x ∈ bytes, x = 0 := by
  induction bytes generalizing acc with
  | nil => simp
  | cons x rest ih =>
    rw [List.foldl_cons, ih, UInt8.or_eq_zero_iff, List.forall_mem_cons, and_assoc]

theorem zipWith_xor_eq_zero (a b : Bytes) (len : a.length = b.length) :
    (∀ x ∈ List.zipWith (· ^^^ ·) a b, x = 0) ↔ a = b := by
  induction a generalizing b with
  | nil =>
    cases b with
    | nil => simp
    | cons => cases len
  | cons x a ih =>
    cases b with
    | nil => cases len
    | cons y b =>
      rw [List.zipWith_cons_cons, List.forall_mem_cons, ih b (Nat.succ.inj len),
        UInt8.xor_eq_zero_iff, List.cons.injEq]

theorem constantTimeEq_iff (a b : ByteVec 16) : constantTimeEq a b = true ↔ a.val = b.val := by
  have len : a.val.length = b.val.length := by rw [ByteVec.length_val, ByteVec.length_val]
  rw [constantTimeEq, beq_iff_eq, foldl_or_eq_zero, zipWith_xor_eq_zero _ _ len]
  exact and_iff_right rfl

/-! ### Signing and verifying -/

section
variable [Crypto]

/-- The result, and what is left in the buffer. -/
def sign (msg : Bytes) (key : Key) (algo : SigningAlgo) : Except ProtoError Unit × Bytes :=
  if msg.length < 64 then (.error (.crypto "message too short to sign"), msg)
  else
    let mac := computeMacZeroedSignature msg key algo
    (.ok (), patch msg sigOff mac.val)

def verify (msg : Bytes) (key : Key) (algo : SigningAlgo) : Except ProtoError Unit :=
  if msg.length < 64 then .error (.crypto "message too short to verify")
  else
    let embedded := ByteVec.ofBytes 16 (slice msg sigOff sigLen)
    let computed := computeMacZeroedSignature msg key algo
    if constantTimeEq embedded computed then .ok ()
    else .error (.crypto "signature mismatch")

/-- Both fail on a message without room for a header, and `sign` leaves it as it was. -/
theorem of_short {msg : Bytes} (key : Key) (algo : SigningAlgo) (short : msg.length < 64) :
    sign msg key algo = (.error (.crypto "message too short to sign"), msg) ∧
      verify msg key algo = .error (.crypto "message too short to verify") :=
  ⟨if_pos short, if_pos short⟩

theorem sign_eq (msg : Bytes) (key : Key) (algo : SigningAlgo) :
    (sign msg key algo).2 = SmbServer.sign msg key algo := by
  by_cases short : msg.length < 64
  · rw [(of_short key algo short).1, SmbServer.sign, if_pos short]
  · rw [sign, if_neg short, SmbServer.sign, if_neg short, computeMacZeroedSignature_eq]

theorem verify_eq_ok (msg : Bytes) (key : Key) (algo : SigningAlgo) :
    verify msg key algo = .ok () ↔ SmbServer.verify msg key algo = true := by
  by_cases short : msg.length < 64
  · rw [(of_short key algo short).2, SmbServer.verify, if_pos short]
    simp
  · have here : (slice msg sigOff sigLen).length = 16 :=
      length_slice _ _ _ (Nat.le_of_not_lt short)
    -- the loop says whether the signature is the MAC
    have same := constantTimeEq_iff (ByteVec.ofBytes 16 (slice msg sigOff sigLen))
      (SmbServer.computeMacZeroedSignature msg key algo)
    rw [ByteVec.ofBytes_val _ here] at same
    rw [verify, if_neg short, computeMacZeroedSignature_eq, SmbServer.verify, if_neg short,
      beq_iff_eq, ← same]
    dsimp only
    split
    next yes => simp [yes]
    next no => simp [no]

end

/-! ### The signature as a slot -/

/-- The same bytes outside of the signature. -/
def OutsideSignature (a b : Bytes) : Prop :=
  b.length = a.length ∧ ∀ i, i < sigOff ∨ sigOff + sigLen ≤ i → b[i]? = a[i]?

theorem OutsideSignature.take {a b : Bytes} (outside : OutsideSignature a b) :
    b.take sigOff = a.take sigOff := by
  apply List.ext_getElem?
  intro i
  rw [List.getElem?_take, List.getElem?_take]
  split
  next inside => exact outside.2 i (.inl inside)
  next => rfl

theorem OutsideSignature.slice_eq {a b : Bytes} (outside : OutsideSignature a b) (off len : Nat)
    (inside : off + len ≤ sigOff) : slice b off len = slice a off len := by
  rw [← slice_take b sigOff off len inside, outside.take, slice_take a sigOff off len inside]

theorem OutsideSignature.drop {a b : Bytes} (outside : OutsideSignature a b) :
    b.drop (sigOff + sigLen) = a.drop (sigOff + sigLen) := by
  apply List.ext_getElem?
  intro i
  rw [List.getElem?_drop, List.getElem?_drop]
  exact outside.2 _ (.inr (Nat.le_add_right _ _))

/-- Outside of the signature there is nothing else. -/
theorem OutsideSignature.patch_eq {a b : Bytes} (outside : OutsideSignature a b)
    (long : 64 ≤ b.length) : patch a sigOff (slice b sigOff sigLen) = b := by
  have len : (slice b sigOff sigLen).length = sigLen := length_slice _ _ _ long
  have own := patch_slice_self b sigOff sigLen long
  rw [patch, len, outside.take, outside.drop] at own
  rw [patch, len]
  exact own

theorem outsideSignature_patch {msg : Bytes} (long : 64 ≤ msg.length) (sig : ByteVec 16) :
    OutsideSignature msg (patch msg sigOff sig.val) := by
  have fits : sigOff + sig.val.length ≤ msg.length := by
    rw [ByteVec.length_val]
    exact long
  refine ⟨length_patch _ _ _ fits, fun i outside => ?_⟩
  have away : ¬(sigOff ≤ i ∧ i < sigOff + sig.val.length) := by
    rw [ByteVec.length_val]
    simp only [sigLen] at outside
    omega
  rw [getElem?_patch _ _ _ _ fits, if_neg away]

/-- An edit in front of the signature. -/
theorem OutsideSignature.edit {a b : Bytes} (outside : OutsideSignature a b) (off : Nat)
    (new : Bytes) (apart : off + new.length ≤ sigOff) (long : 64 ≤ a.length) :
    OutsideSignature (patch a off new) (patch b off new) := by
  have fits : off + new.length ≤ a.length := by
    simp only [sigOff] at apart
    omega
  have fits' : off + new.length ≤ b.length := outside.1 ▸ fits
  refine ⟨?_, fun i away => ?_⟩
  · rw [length_patch _ _ _ fits, length_patch _ _ _ fits', outside.1]
  · rw [getElem?_patch _ _ _ _ fits, getElem?_patch _ _ _ _ fits', outside.2 i away]

/-- A message with room for a header. -/
@[ext] structure Message where
  bytes : Bytes
  long : 64 ≤ bytes.length

def signatureSlot : Slot Message (ByteVec 16) where
  get m := ⟨slice m.bytes sigOff sigLen, length_slice _ _ _ m.long⟩
  put m sig :=
    { bytes := patch m.bytes sigOff sig.val
      long := (outsideSignature_patch m.long sig).1 ▸ m.long }
  get_put m sig := by
    apply Subtype.ext
    have read := slice_patch m.bytes sigOff sig.val (by rw [ByteVec.length_val]; exact m.long)
    rwa [ByteVec.length_val] at read
  put_get m := Message.ext (patch_slice_self m.bytes sigOff sigLen m.long)
  put_put m sig sig' := by
    refine Message.ext (patch_patch m.bytes sigOff sig.val sig'.val ?_ ?_)
    · rw [ByteVec.length_val, ByteVec.length_val]
    · rw [ByteVec.length_val]
      exact m.long

theorem agree_iff (a b : Message) : signatureSlot.Agree a b ↔ OutsideSignature a.bytes b.bytes := by
  constructor
  · rintro ⟨sig, rfl⟩
    exact outsideSignature_patch a.long sig
  · intro outside
    exact ⟨signatureSlot.get b, Message.ext (outside.patch_eq b.long)⟩

section
variable [Crypto] (key : Key) (algo : SigningAlgo)

/-- What `sign` puts in the slot. -/
def macOf (m : Message) : ByteVec 16 := mac algo key m.bytes

/-- The MAC is computed with the slot blank. -/
theorem computeMac_eq_macOf (m : Message) :
    computeMacZeroedSignature m.bytes key algo =
      macOf key algo (signatureSlot.put m (ByteVec.zero 16)) :=
  computeMacZeroedSignature_eq m.bytes key algo

theorem sign_eq_stamp (m : Message) :
    sign m.bytes key algo =
      (.ok (), (signatureSlot.stamp (ByteVec.zero 16) (macOf key algo) m).bytes) := by
  rw [sign, if_neg (Nat.not_lt.mpr m.long), computeMac_eq_macOf]
  rfl

theorem outsideSignature_sign {msg : Bytes} (long : 64 ≤ msg.length) :
    OutsideSignature msg (sign msg key algo).2 := by
  let m : Message := ⟨msg, long⟩
  rw [sign_eq_stamp key algo m]
  exact (agree_iff m _).mp (Slot.agree_stamp m)

/-- The old signature plays no part. -/
theorem sign_congr {a b : Bytes} (long : 64 ≤ a.length) (outside : OutsideSignature a b) :
    sign b key algo = sign a key algo := by
  let first : Message := ⟨a, long⟩
  let second : Message := ⟨b, outside.1 ▸ long⟩
  have agree : signatureSlot.Agree first second := (agree_iff first second).mpr outside
  have same := sign_eq_stamp key algo second
  rw [Slot.stamp_congr agree, ← sign_eq_stamp key algo first] at same
  exact same

theorem verify_iff_stamped (m : Message) :
    verify m.bytes key algo = .ok () ↔
      signatureSlot.Stamped (ByteVec.zero 16) (macOf key algo) m := by
  rw [verify_eq_ok, SmbServer.verify, if_neg (Nat.not_lt.mpr m.long), beq_iff_eq,
    ← computeMacZeroedSignature_eq, computeMac_eq_macOf]
  exact ⟨fun same => Subtype.ext same, fun stamped => congrArg Subtype.val stamped⟩

end

end Sign

end SmbServer
