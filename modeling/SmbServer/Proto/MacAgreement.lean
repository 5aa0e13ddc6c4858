import SmbServer.Proto.Crypto

/-!
# SmbServer.Proto.MacAgreement

When two MACs agree whatever the primitives are. A signature over other bytes, or under another
key, may verify by chance under given primitives; under every choice of primitives it verifies only
if nothing differs. `markingCrypto` is the choice that tells two computations apart.
-/

namespace SmbServer

open Lib

theorem length_zeroedSignature (msg : Bytes) (long : 64 ≤ msg.length) :
    (zeroedSignature msg).length = msg.length := by
  simp only [zeroedSignature, List.length_append, List.length_take, List.length_drop,
    ByteVec.length_val, sigOff, sigLen]
  omega

theorem eq_of_zeroedSignature {a b : Bytes} (len : a.length = b.length)
    (field : slice a sigOff sigLen = slice b sigOff sigLen)
    (same : zeroedSignature a = zeroedSignature b) : a = b := by
  have heads : (a.take sigOff).length = (b.take sigOff).length := by
    rw [List.length_take, List.length_take, len]
  obtain ⟨front, back⟩ := List.append_inj same
    (by rw [List.length_append, List.length_append, heads])
  obtain ⟨head, -⟩ := List.append_inj front heads
  have whole (m : Bytes) :
      m = m.take sigOff ++ (slice m sigOff sigLen ++ m.drop (sigOff + sigLen)) := by
    rw [slice, ← List.drop_drop, List.take_append_drop, List.take_append_drop]
  rw [whole a, whole b, head, field, back]

theorem zeroedSignature_append {a : Bytes} (b : Bytes) (long : 64 ≤ a.length) :
    zeroedSignature (a ++ b) = zeroedSignature a ++ b := by
  rw [zeroedSignature, zeroedSignature, List.take_append_of_le_length (by simp only [sigOff]; omega),
    List.drop_append_of_le_length (by simp only [sigOff, sigLen]; omega), List.append_assoc,
    List.append_assoc, List.append_assoc]

theorem slice_zeroedSignature (msg : Bytes) (off len : Nat) (long : 64 ≤ msg.length)
    (inside : off + len ≤ sigOff) : slice (zeroedSignature msg) off len = slice msg off len := by
  have front : (msg.take sigOff).length = sigOff := by
    rw [List.length_take, sigOff]
    omega
  rw [zeroedSignature, List.append_assoc, slice_append_left _ _ _ _ (by rwa [front]),
    slice_take _ _ _ _ inside]

section
variable [Crypto]

theorem zeroedSignature_sign (msg : Bytes) (key : Key) (algo : SigningAlgo)
    (long : 64 ≤ msg.length) : zeroedSignature (sign msg key algo) = zeroedSignature msg := by
  rw [sign_of_le _ _ _ long, zeroedSignature_patch _ _ long]

theorem verify_iff (msg : Bytes) (key : Key) (algo : SigningAlgo) (long : 64 ≤ msg.length) :
    verify msg key algo = true ↔
      slice msg sigOff sigLen = (mac algo key (zeroedSignature msg)).val := by
  rw [verify, if_neg (Nat.not_lt.mpr long), beq_iff_eq]
  rfl

theorem slice_sign_field (msg : Bytes) (key : Key) (algo : SigningAlgo)
    (long : 64 ≤ msg.length) :
    slice (sign msg key algo) sigOff sigLen = (mac algo key (zeroedSignature msg)).val := by
  have verified := verify_sign msg key algo long
  rw [verify_iff _ _ _ (by rwa [length_sign]), zeroedSignature_sign _ _ _ long] at verified
  exact verified

/-- Signing what is signed already changes nothing. -/
theorem sign_of_verify (msg : Bytes) (key : Key) (algo : SigningAlgo)
    (verified : verify msg key algo = true) : sign msg key algo = msg := by
  by_cases long : 64 ≤ msg.length
  · rw [verify_iff _ _ _ long] at verified
    rw [sign_of_le _ _ _ long, patch_eq_self_iff _ _ _ (by rw [ByteVec.length_val, sigOff]; omega),
      ByteVec.length_val]
    exact verified
  · rw [sign, if_pos (Nat.lt_of_not_le long)]

end

/-- Some value other than `v`. -/
def otherThan (v : ByteVec 16) : ByteVec 16 :=
  if v = ByteVec.zero 16 then ByteVec.ofBytes 16 [1] else ByteVec.zero 16

theorem otherThan_ne (v : ByteVec 16) : otherThan v ≠ v := by
  rw [otherThan]
  split
  next zero => rw [zero]; decide
  next nonzero => exact fun same => nonzero same.symm

/-- Primitives whose MAC is `sig` for one algorithm, key and message and something else for all
others. -/
@[reducible] def markingCrypto (algo : SigningAlgo) (key : Key) (msg : Bytes)
    (sig : ByteVec 16) : Crypto where
  hmacSha256 k m := ByteVec.ofBytes 32
    (if .hmacSha256 = algo ∧ k = key.val ∧ m = msg then sig else otherThan sig).val
  aesCmac k m := if .aesCmac = algo ∧ k = key ∧ m = msg then sig else otherThan sig
  sha512 _ := ByteVec.zero 64
  md4 _ := ByteVec.zero 16
  hmacMd5 _ _ := ByteVec.zero 16
  rc4 _ b := b
  toUppercase s := s

theorem mac_marking (algo algo' : SigningAlgo) (key key' : Key) (msg msg' : Bytes)
    (sig : ByteVec 16) :
    @mac (markingCrypto algo key msg sig) algo' key' msg' =
      if algo' = algo ∧ key' = key ∧ msg' = msg then sig else otherThan sig := by
  have front (v : ByteVec 16) :
      ByteVec.ofBytes 16 ((ByteVec.ofBytes 32 v.val).val.take sigLen) = v := by
    apply Subtype.ext
    have wide : (ByteVec.ofBytes 32 v.val).val.take sigLen = v.val := by
      rw [ByteVec.ofBytes, List.take_take, sigLen]
      exact List.take_left' v.property
    rw [ByteVec.ofBytes_val _ (by rw [wide, ByteVec.length_val]), wide]
  cases algo' with
  | hmacSha256 =>
    refine (front _).trans (if_congr ?_ rfl rfl)
    exact and_congr_right fun _ => and_congr_left fun _ => Subtype.ext_iff.symm
  | aesCmac => rfl

/-- Two MACs that agree under all primitives are one computation. -/
theorem mac_forall_iff (algo algo' : SigningAlgo) (key key' : Key) (msg msg' : Bytes) :
    (∀ crypto : Crypto, @mac crypto algo key msg = @mac crypto algo' key' msg') ↔
      algo' = algo ∧ key' = key ∧ msg' = msg := by
  constructor
  · intro all
    by_contra different
    have alike := all (markingCrypto algo key msg (ByteVec.zero 16))
    rw [mac_marking, mac_marking, if_pos ⟨rfl, rfl, rfl⟩, if_neg different] at alike
    exact otherThan_ne _ alike.symm
  · rintro ⟨rfl, rfl, rfl⟩ crypto
    rfl

/-- Two messages of one length with one signature field, that every MAC treats alike, are equal. -/
theorem verify_forall_iff {a b : Bytes} (len : a.length = b.length) (long : 64 ≤ a.length)
    (field : slice a sigOff sigLen = slice b sigOff sigLen) (key : Key) (algo : SigningAlgo) :
    (∀ crypto : Crypto, @verify crypto a key algo = @verify crypto b key algo) ↔ a = b := by
  constructor
  · intro all
    by_contra different
    have here : (slice a sigOff sigLen).length = 16 := length_slice _ _ _ long
    let sig := ByteVec.ofBytes 16 (slice a sigOff sigLen)
    have sigVal : sig.val = slice a sigOff sigLen := ByteVec.ofBytes_val _ here
    have apart : zeroedSignature b ≠ zeroedSignature a := fun same =>
      different (eq_of_zeroedSignature len field same.symm)
    -- The primitives under which the field of `a` is its own MAC, and that of nothing else.
    let crypto := markingCrypto algo key (zeroedSignature a) sig
    have accepts : @verify crypto a key algo = true := by
      have mac : @computeMacZeroedSignature crypto a key algo = sig :=
        (mac_marking _ _ _ _ _ _ _).trans (if_pos ⟨rfl, rfl, rfl⟩)
      simp only [verify, Nat.not_lt.mpr long, if_false, mac, sigVal, beq_self_eq_true]
    have rejects : @verify crypto b key algo = false := by
      have mac : @computeMacZeroedSignature crypto b key algo = otherThan sig :=
        (mac_marking _ _ _ _ _ _ _).trans (if_neg fun same => apart same.2.2)
      simp only [verify, Nat.not_lt.mpr (len ▸ long), if_false, mac, ← field, ← sigVal,
        beq_eq_false_iff_ne]
      exact fun same => otherThan_ne sig (Subtype.ext same).symm
    have alike := all crypto
    rw [accepts, rejects] at alike
    cases alike
  · rintro rfl crypto
    rfl

end SmbServer
