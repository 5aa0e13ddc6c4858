import SmbServer.Panics.Wire
import SmbServer.Proto.Ntlm

/-!
# SmbServer.Panics.Ntlm

The NTLM messages and the acceptor of `ntlm.rs` with their panics, and the two-byte units of the
strings in them.
-/

namespace SmbServer.Panicking

open Lib Risky RiskyParser

/-! ### Units of two bytes -/

/-- `bytes.chunks_exact(2)` -/
def chunksExact2 : Bytes → List Bytes
  | lo :: hi :: rest => [lo, hi] :: chunksExact2 rest
  | _ => []

/-- `u16::from_le_bytes([c[0], c[1]])` for every chunk. -/
def unitsOf : List Bytes → Risky (List UInt16)
  | [] => return []
  | c :: rest => do
    let unit ← u16At c 0
    let units ← unitsOf rest
    return unit :: units

def utf16Units (bytes : Bytes) : Risky (List UInt16) := unitsOf (chunksExact2 bytes)

theorem utf16Units_eq (bytes : Bytes) : utf16Units bytes = .ok (SmbServer.utf16Units bytes) := by
  rw [utf16Units]
  fun_induction SmbServer.utf16Units bytes with
  | case1 lo hi rest ih =>
    rw [chunksExact2, unitsOf, u16At_of_le (by simp), ok_bind, ih]
    rfl
  | case2 b short =>
    rw [chunksExact2.eq_2 b short]
    rfl

/-- The private `utf16le_to_string` of `ntlm.rs`. -/
def ntlmString (bytes : Bytes) : Risky Text := do
  let units ← utf16Units bytes
  return fromUtf16Lossy units

theorem ntlmString_eq (bytes : Bytes) : ntlmString bytes = .ok (SmbServer.ntlmString bytes) := by
  rw [ntlmString, utf16Units_eq]
  rfl

/-! ### Fields -/

/-- `read_field` -/
def readField (buf : Bytes) (pos : Nat) : RiskyParser Field :=
  if buf.length < pos + 8 then reject
  else do
    let _maxLen ← u16At buf (pos + 2)
    let len ← u16At buf pos
    let offset ← u32At buf (pos + 4)
    return ⟨len, offset⟩

/-- `slice_field` -/
def sliceField (buf : Bytes) (f : Field) : RiskyParser Bytes :=
  let start := f.offset.toNat
  let stop := start + f.len.toNat
  if stop > buf.length then reject
  else do
    let content ← range buf start stop
    return content

def fieldBytes (buf : Bytes) (f : Field) : RiskyParser Bytes :=
  if f.len = 0 then return [] else sliceField buf f

/-- `check_signature` -/
def checkSignature (buf : Bytes) (expectedMsg : UInt32) : RiskyParser Unit :=
  if buf.length < 12 then reject
  else do
    let signature ← rangeTo buf 8
    if signature ≠ ntlmsspSignature then reject
    else do
      let msg ← u32At buf 8
      if msg ≠ expectedMsg then reject
      else return ()

theorem readField_eq (buf : Bytes) (pos : Nat) :
    readField buf pos = ofOption (SmbServer.readField buf pos) := by
  rw [readField, SmbServer.readField]
  by_cases truncated : buf.length < pos + 8
  · rw [if_pos truncated, if_pos truncated]
    rfl
  · have inside := Nat.not_lt.mp truncated
    rw [if_neg truncated, if_neg truncated, u16At_of_le (by omega), lift_ok_bind,
      u16At_of_le (by omega), lift_ok_bind, u32At_of_le (by omega)]
    rfl

theorem sliceField_eq (buf : Bytes) (f : Field) :
    sliceField buf f = ofOption (SmbServer.sliceField buf f) := by
  rw [sliceField, SmbServer.sliceField]
  by_cases out : f.offset.toNat + f.len.toNat > buf.length
  · rw [if_pos out, if_pos out]
    rfl
  · rw [if_neg out, if_neg out, range_slice (Nat.not_lt.mp out)]
    rfl

theorem fieldBytes_eq (buf : Bytes) (f : Field) :
    fieldBytes buf f = ofOption (SmbServer.fieldBytes buf f) := by
  rw [fieldBytes, SmbServer.fieldBytes, sliceField_eq]
  split <;> rfl

theorem checkSignature_eq (buf : Bytes) (expectedMsg : UInt32) :
    checkSignature buf expectedMsg = ofOption (SmbServer.checkSignature buf expectedMsg) := by
  rw [checkSignature, SmbServer.checkSignature]
  by_cases short : buf.length < 12
  · rw [if_pos short, if_pos short]
    rfl
  have front : slice buf 0 8 = buf.take 8 := rfl
  rw [if_neg short, if_neg short, rangeTo_of_le (by omega), lift_ok_bind, front]
  by_cases other : buf.take 8 ≠ ntlmsspSignature
  · rw [if_pos other, if_pos other]
    rfl
  rw [if_neg other, if_neg other, u32At_of_le (by omega), lift_ok_bind]
  split <;> rfl

/-! ### Messages -/

/-- `NtlmNegotiate::parse` -/
def NtlmNegotiate.parse (buf : Bytes) : RiskyParser NtlmNegotiate := do
  checkSignature buf msgNegotiate
  if buf.length < 32 then reject
  else do
    let flags ← u32At buf 12
    let domainField ← readField buf 16
    let wsField ← readField buf 24
    let domain ← fieldBytes buf domainField
    let workstation ← fieldBytes buf wsField
    return { flags, domain, workstation, raw := buf }

/-- The integrity code, where the payload leaves room for one. -/
def micOf (buf : Bytes) (minOff : UInt32) : Risky (Option (ByteVec 16 × Nat)) :=
  if minOff ≠ 0xFFFFFFFF ∧ minOff.toNat ≥ 88 ∧ buf.length ≥ 88 then do
    let mic ← filled 16 (← range buf 72 88)
    return some (mic, 72)
  else return none

/-- `NtlmAuthenticate::parse` -/
def NtlmAuthenticate.parse (buf : Bytes) : RiskyParser NtlmAuthenticate := do
  checkSignature buf msgAuthenticate
  if buf.length < 64 then reject
  else do
    let lmField ← readField buf 12
    let ntField ← readField buf 20
    let domainField ← readField buf 28
    let userField ← readField buf 36
    let wsField ← readField buf 44
    let keyField ← readField buf 52
    let flags ← u32At buf 60
    let minOff := minPayloadOffset [lmField, ntField, domainField, userField, wsField, keyField]
    let mic ← micOf buf minOff
    let lmResponse ← fieldBytes buf lmField
    let ntResponse ← fieldBytes buf ntField
    let domainBytes ← fieldBytes buf domainField
    let userBytes ← fieldBytes buf userField
    let wsBytes ← fieldBytes buf wsField
    let encryptedRandomSessionKey ← fieldBytes buf keyField
    let domain ← ntlmString domainBytes
    let user ← ntlmString userBytes
    let workstation ← ntlmString wsBytes
    return { flags, lmResponse, ntResponse, domain, user, workstation,
             encryptedRandomSessionKey, mic, raw := buf }

theorem NtlmNegotiate.parse_eq (buf : Bytes) :
    parse buf = ofOption (SmbServer.NtlmNegotiate.parse buf) := by
  rw [parse, SmbServer.NtlmNegotiate.parse, checkSignature_eq]
  refine ofOption_bind fun _ _ => ?_
  by_cases short : buf.length < 32
  · rw [if_pos short, if_pos short]
    rfl
  rw [if_neg short, if_neg short, u32At_of_le (by omega), lift_ok_bind, readField_eq]
  refine ofOption_bind fun domainField _ => ?_
  rw [readField_eq]
  refine ofOption_bind fun wsField _ => ?_
  rw [fieldBytes_eq]
  refine ofOption_bind fun domain _ => ?_
  rw [fieldBytes_eq]
  exact ofOption_bind fun workstation _ => rfl

theorem micOf_eq (buf : Bytes) (minOff : UInt32) :
    micOf buf minOff =
      .ok (if minOff ≠ 0xFFFFFFFF ∧ minOff.toNat ≥ 88 ∧ buf.length ≥ 88 then
        some (ByteVec.ofBytes 16 (slice buf 72 16), 72) else none) := by
  rw [micOf]
  by_cases room : minOff ≠ 0xFFFFFFFF ∧ minOff.toNat ≥ 88 ∧ buf.length ≥ 88
  · have inside : 72 + 16 ≤ buf.length := room.2.2
    have mic : range buf 72 88 = .ok (slice buf 72 16) := range_slice inside
    rw [if_pos room, if_pos room, mic, ok_bind, filled_of_length (length_slice buf 72 16 inside)]
    rfl
  · rw [if_neg room, if_neg room]
    rfl

theorem NtlmAuthenticate.parse_eq (buf : Bytes) :
    parse buf = ofOption (SmbServer.NtlmAuthenticate.parse buf) := by
  rw [parse, SmbServer.NtlmAuthenticate.parse, checkSignature_eq]
  refine ofOption_bind fun _ _ => ?_
  by_cases short : buf.length < 64
  · rw [if_pos short, if_pos short]
    rfl
  rw [if_neg short, if_neg short, readField_eq]
  refine ofOption_bind fun lmField _ => ?_
  rw [readField_eq]
  refine ofOption_bind fun ntField _ => ?_
  rw [readField_eq]
  refine ofOption_bind fun domainField _ => ?_
  rw [readField_eq]
  refine ofOption_bind fun userField _ => ?_
  rw [readField_eq]
  refine ofOption_bind fun wsField _ => ?_
  rw [readField_eq]
  refine ofOption_bind fun keyField _ => ?_
  rw [u32At_of_le (by omega), lift_ok_bind]
  dsimp only
  rw [micOf_eq, lift_ok_bind, fieldBytes_eq]
  refine ofOption_bind fun lmResponse _ => ?_
  rw [fieldBytes_eq]
  refine ofOption_bind fun ntResponse _ => ?_
  rw [fieldBytes_eq]
  refine ofOption_bind fun domainBytes _ => ?_
  rw [fieldBytes_eq]
  refine ofOption_bind fun userBytes _ => ?_
  rw [fieldBytes_eq]
  refine ofOption_bind fun wsBytes _ => ?_
  rw [fieldBytes_eq]
  refine ofOption_bind fun encryptedRandomSessionKey _ => ?_
  rw [ntlmString_eq, lift_ok_bind, ntlmString_eq, lift_ok_bind, ntlmString_eq, lift_ok_bind]
  rfl

/-! ### The acceptor -/

namespace NtlmServer

/-- `step1_negotiate` -/
def step1Negotiate (s : NtlmServer) (blob : Bytes) : RiskyParser NtlmServer := do
  let n ← NtlmNegotiate.parse blob
  return { s with
    negotiatedFlags := (s.serverFlags &&& n.flags) ||| NtlmFlags.negotiateTargetInfo |||
      NtlmFlags.targetTypeServer ||| NtlmFlags.negotiateUnicode
    negotiateBytes := n.raw }

theorem step1Negotiate_eq (s : NtlmServer) (blob : Bytes) :
    step1Negotiate s blob = ofOption (s.step1Negotiate blob) := by
  rw [step1Negotiate, NtlmNegotiate.parse_eq]
  exact ofOption_bind fun n _ => rfl

variable [Crypto]

def ntowfV2 (hash : ByteVec 16) (user domain : Text) : Risky (ByteVec 16) :=
  filled 16 (SmbServer.ntowfV2 hash user domain).val

/-- The key exchange of `authenticate`. -/
def exportedKey (auth : NtlmAuthenticate) (keyExchangeKey : Key) : RiskyParser Key :=
  if SmbServer.NtlmServer.exportedKey.hasKeyExch auth.flags ∧
      auth.encryptedRandomSessionKey ≠ [] then
    if auth.encryptedRandomSessionKey.length ≠ 16 then reject
    else do
      let buf ← filled 16 auth.encryptedRandomSessionKey
      return Crypto.rc4 keyExchangeKey buf
  else return keyExchangeKey

/-- The check of the integrity code in `authenticate`, over a copy of the message in which the code
is zeroed. -/
def micHolds (s : NtlmServer) (auth : NtlmAuthenticate) (sessionKey : Key) : Risky Bool :=
  match auth.mic with
  | some (supplied, off) =>
    if s.negotiateBytes.isEmpty then return true
    else if auth.raw.length < off + 16 then return false
    else do
      let zeroed ← copyInto auth.raw off (off + 16) (ByteVec.zero 16).val
      return supplied == Crypto.hmacMd5 sessionKey.val
        (s.negotiateBytes ++ s.challengeBytes ++ zeroed)
  | none => return true

/-- `authenticate` -/
def authenticate (s : NtlmServer) (blob : Bytes) (lookup : Text → Option UserCreds) :
    RiskyParser AuthOutcome := do
  let auth ← NtlmAuthenticate.parse blob
  if auth.user.isEmpty && auth.ntResponse.isEmpty then
    return { identity := .anonymous, sessionKey := ByteVec.zero 16 }
  else do
    let creds ← ofOption (lookup auth.user)
    let responseKeyNt ← ntowfV2 creds.ntHash auth.user auth.domain
    if auth.ntResponse.length < 16 then reject
    else do
      let (supplied, clientChallenge) ← splitAt auth.ntResponse 16
      let ntProof := Crypto.hmacMd5 responseKeyNt.val (s.serverChallenge.val ++ clientChallenge)
      if supplied ≠ ntProof.val then reject
      else do
        let keyExchangeKey ← filled 16 (Crypto.hmacMd5 responseKeyNt.val ntProof.val).val
        let sessionKey ← exportedKey auth keyExchangeKey
        if !(← micHolds s auth sessionKey) then reject
        else return { identity := .user auth.user auth.domain, sessionKey := sessionKey }

theorem exportedKey_eq (auth : NtlmAuthenticate) (keyExchangeKey : Key) :
    exportedKey auth keyExchangeKey =
      ofOption (SmbServer.NtlmServer.exportedKey auth keyExchangeKey) := by
  rw [exportedKey, SmbServer.NtlmServer.exportedKey]
  split
  · by_cases other : auth.encryptedRandomSessionKey.length ≠ 16
    · rw [if_pos other, if_pos other]
      rfl
    · rw [if_neg other, if_neg other, filled_of_length (not_not.mp other)]
      rfl
  · rfl

theorem micHolds_eq (s : NtlmServer) (auth : NtlmAuthenticate) (sessionKey : Key) :
    micHolds s auth sessionKey = .ok (s.micHolds auth sessionKey) := by
  rw [micHolds, SmbServer.NtlmServer.micHolds]
  cases auth.mic with
  | none => rfl
  | some mic =>
    obtain ⟨supplied, off⟩ := mic
    dsimp only
    split
    · rfl
    by_cases short : auth.raw.length < off + 16
    · rw [if_pos short, if_pos short]
      rfl
    · have inside : off + (ByteVec.zero 16).val.length ≤ auth.raw.length := by
        rw [ByteVec.length_val]
        exact Nat.not_lt.mp short
      have zeroed := copyInto_patch inside
      rw [ByteVec.length_val] at zeroed
      rw [if_neg short, if_neg short, zeroed]
      rfl

theorem authenticate_eq (s : NtlmServer) (blob : Bytes) (lookup : Text → Option UserCreds) :
    authenticate s blob lookup = ofOption (s.authenticate blob lookup) := by
  rw [authenticate, SmbServer.NtlmServer.authenticate, NtlmAuthenticate.parse_eq]
  refine ofOption_bind fun auth _ => ?_
  by_cases anonymous : auth.user.isEmpty && auth.ntResponse.isEmpty
  · rw [if_pos anonymous, if_pos anonymous]
    rfl
  rw [if_neg anonymous, if_neg anonymous]
  refine ofOption_bind fun creds _ => ?_
  rw [ntowfV2, filled_val, lift_ok_bind]
  by_cases short : auth.ntResponse.length < 16
  · rw [if_pos short, if_pos short]
    rfl
  rw [if_neg short, if_neg short, splitAt_of_le (Nat.not_lt.mp short), lift_ok_bind]
  dsimp only
  split
  · rfl
  rw [filled_val, lift_ok_bind, exportedKey_eq]
  refine ofOption_bind fun sessionKey _ => ?_
  rw [micHolds_eq, lift_ok_bind]
  split <;> rfl

end NtlmServer

end SmbServer.Panicking
