import SmbServer.Text

/-!
# SmbServer.Proto.Crypto

Message signing (`proto/crypto/sign.rs`), the SP 800-108 key derivation (`kdf.rs`) and the 3.1.1
preauth hash chain (`preauth.rs`), over the primitives of the crates they call.
-/

namespace SmbServer

open Lib

/-- The primitives that come from outside the repository: the `hmac`, `cmac`, `sha2`, `md4`,
`md5` and `rc4` crates, and the Unicode table behind `str::to_uppercase`. -/
class Crypto where
  hmacSha256 : Bytes → Bytes → ByteVec 32
  aesCmac : ByteVec 16 → Bytes → ByteVec 16
  sha512 : Bytes → ByteVec 64
  md4 : Bytes → ByteVec 16
  hmacMd5 : Bytes → Bytes → ByteVec 16
  rc4 : ByteVec 16 → ByteVec 16 → ByteVec 16
  toUppercase : Text → Text

variable [Crypto]

/-! ### Signing -/

inductive SigningAlgo where
  | hmacSha256
  | aesCmac
  deriving DecidableEq, Repr

abbrev Key := ByteVec 16

def sigOff : Nat := 48

def sigLen : Nat := 16

/-- The 16-byte MAC of `msg` under `key`. -/
def mac (algo : SigningAlgo) (key : Key) (msg : Bytes) : ByteVec 16 :=
  match algo with
  | .hmacSha256 => ByteVec.ofBytes 16 ((Crypto.hmacSha256 key.val msg).val.take sigLen)
  | .aesCmac => Crypto.aesCmac key msg

/-- The MAC over `msg` as if the signature field were zero. -/
def computeMacZeroedSignature (msg : Bytes) (key : Key) (algo : SigningAlgo) : ByteVec 16 :=
  mac algo key (msg.take sigOff ++ (ByteVec.zero sigLen).val ++ msg.drop (sigOff + sigLen))

/-- `sign`: embed the signature; a message shorter than a header is left as it is (the caller
logs the error). -/
def sign (msg : Bytes) (key : Key) (algo : SigningAlgo) : Bytes :=
  if msg.length < 64 then msg
  else patch msg sigOff (computeMacZeroedSignature msg key algo).val

/-- `verify`: true for `Ok(())`. -/
def verify (msg : Bytes) (key : Key) (algo : SigningAlgo) : Bool :=
  if msg.length < 64 then false
  else slice msg sigOff sigLen == (computeMacZeroedSignature msg key algo).val

@[simp] theorem length_sign (msg : Bytes) (key : Key) (algo : SigningAlgo) :
    (sign msg key algo).length = msg.length := by
  rw [sign]
  split
  · rfl
  · exact length_patch _ _ _ (by simp [sigOff]; omega)

/-- The message a MAC is computed over. -/
def zeroedSignature (msg : Bytes) : Bytes :=
  msg.take sigOff ++ (ByteVec.zero sigLen).val ++ msg.drop (sigOff + sigLen)

omit [Crypto] in
/-- It does not depend on the bytes of the signature field. -/
theorem zeroedSignature_patch (msg : Bytes) (sig : ByteVec 16) (h : 64 ≤ msg.length) :
    zeroedSignature (patch msg sigOff sig.val) = zeroedSignature msg := by
  have headLen : (msg.take sigOff).length = sigOff := by rw [List.length_take, sigOff]; omega
  have prefLen : (msg.take sigOff ++ sig.val).length = sigOff + sigLen := by
    rw [List.length_append, headLen, ByteVec.length_val, sigLen]
  have head : (patch msg sigOff sig.val).take sigOff = msg.take sigOff := by
    rw [patch, List.append_assoc, List.take_append_of_le_length (Nat.le_of_eq headLen.symm),
      List.take_of_length_le (Nat.le_of_eq headLen)]
  have tail : (patch msg sigOff sig.val).drop (sigOff + sigLen) = msg.drop (sigOff + sigLen) := by
    rw [patch, List.drop_append, prefLen, Nat.sub_self, List.drop_zero,
      List.drop_of_length_le (Nat.le_of_eq prefLen), List.nil_append, ByteVec.length_val, sigLen]
  rw [zeroedSignature, head, tail, zeroedSignature]

theorem computeMac_patch (msg : Bytes) (sig : ByteVec 16) (key : Key) (algo : SigningAlgo)
    (h : 64 ≤ msg.length) :
    computeMacZeroedSignature (patch msg sigOff sig.val) key algo =
      computeMacZeroedSignature msg key algo :=
  congrArg (mac algo key) (zeroedSignature_patch msg sig h)

theorem sign_of_le (msg : Bytes) (key : Key) (algo : SigningAlgo) (h : 64 ≤ msg.length) :
    sign msg key algo = patch msg sigOff (computeMacZeroedSignature msg key algo).val :=
  if_neg (Nat.not_lt.mpr h)

/-- A signed message verifies. -/
theorem verify_sign (msg : Bytes) (key : Key) (algo : SigningAlgo) (h : 64 ≤ msg.length) :
    verify (sign msg key algo) key algo = true := by
  have fits : sigOff + (computeMacZeroedSignature msg key algo).val.length ≤ msg.length := by
    rw [ByteVec.length_val, sigOff]; exact h
  have embedded : slice (sign msg key algo) sigOff sigLen =
      (computeMacZeroedSignature msg key algo).val := by
    have found := slice_patch msg sigOff (computeMacZeroedSignature msg key algo).val fits
    rwa [ByteVec.length_val, ← sign_of_le msg key algo h] at found
  rw [verify, if_neg (by rw [length_sign]; exact Nat.not_lt.mpr h), embedded,
    sign_of_le msg key algo h, computeMac_patch msg _ key algo h, beq_self_eq_true]

/-- Signing touches the signature field only. -/
theorem slice_sign (msg : Bytes) (key : Key) (algo : SigningAlgo) (off len : Nat)
    (apart : off + len ≤ sigOff ∨ sigOff + sigLen ≤ off) :
    slice (sign msg key algo) off len = slice msg off len := by
  rw [sign]
  split
  · rfl
  next long =>
    apply slice_patch_disjoint
    · rw [ByteVec.length_val, sigOff]; omega
    · rwa [ByteVec.length_val]

/-! ### Key derivation -/

/-- SP 800-108 in counter mode: `[0,0,0,1] || label || 0 || context || [0,0,0,0x80]`. -/
def smb2Kdf (key label context : Bytes) : Key :=
  ByteVec.ofBytes 16
    ((Crypto.hmacSha256 key ([0, 0, 0, 1] ++ label ++ [0] ++ context ++ [0, 0, 0, 0x80])).val.take
      16)

/-- `b"SMB2AESCMAC\x00"` -/
def labelAesCmac : Bytes := [0x53, 0x4D, 0x42, 0x32, 0x41, 0x45, 0x53, 0x43, 0x4D, 0x41, 0x43, 0]

/-- `b"SmbSign\x00"` -/
def contextSmbSign : Bytes := [0x53, 0x6D, 0x62, 0x53, 0x69, 0x67, 0x6E, 0]

/-- `b"SMBSigningKey\x00"` -/
def labelSigningKey : Bytes :=
  [0x53, 0x4D, 0x42, 0x53, 0x69, 0x67, 0x6E, 0x69, 0x6E, 0x67, 0x4B, 0x65, 0x79, 0]

/-- Signing key for SMB 3.0 / 3.0.2. -/
def signingKey30 (sessionKey : Key) : Key := smb2Kdf sessionKey.val labelAesCmac contextSmbSign

/-- Signing key for SMB 3.1.1. -/
def signingKey311 (sessionKey : Key) (preauthHash : ByteVec 64) : Key :=
  smb2Kdf sessionKey.val labelSigningKey preauthHash.val

/-! ### Preauth integrity -/

/-- The running SMB 3.1.1 preauth hash. -/
abbrev PreauthIntegrity := ByteVec 64

def PreauthIntegrity.new : PreauthIntegrity := ByteVec.zero 64

def PreauthIntegrity.update (p : PreauthIntegrity) (frame : Bytes) : PreauthIntegrity :=
  Crypto.sha512 (p.val ++ frame)

end SmbServer
