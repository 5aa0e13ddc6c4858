import SmbServer.Client
import SmbServer.Proto.NtlmClient

/-!
# SmbServer.Properties.NtlmAgreement

The server's NTLMv2 against a client's.

## Main result

`ntlmv2_agreement`: the acceptor behind a CHALLENGE takes every AUTHENTICATE that a client builds
for it, in any layout and with or without a key exchange and an integrity code, and both sides hold
the same session key; conversely a user is let in only for a proof under the stored hash, and an
integrity code that is there has to be right.

## Proof strategy

What the parser reads is said for every layout (`parse_of_layout`). The first payload tells whether
an integrity code is looked for (`minPayloadOffset_le`). The derivations of the two sides are then
the same terms but for the key exchange, where RC4 undoes itself.
-/

namespace SmbServer

open Lib

/-! ### What the parser reads -/

section
variable {content : AuthField → Bytes} {flags : UInt32} {msg : Bytes}

/-- The descriptor that the parser reads for a field. -/
def AuthField.descriptorIn (msg : Bytes) (f : AuthField) : Field :=
  ⟨readU16 msg f.pos, readU32 msg (f.pos + 4)⟩

theorem readField_of_long (long : 64 ≤ msg.length) (f : AuthField) :
    readField msg f.pos = some (f.descriptorIn msg) := by
  rw [readField, if_neg]
  · rfl
  · cases f <;> simp only [AuthField.pos] <;> omega

namespace AuthLayout

/-- A length below 65536 is read back. -/
theorem toNat_len (layout : AuthLayout content flags msg) (f : AuthField) :
    (f.descriptorIn msg).len.toNat = (content f).length := by
  rw [AuthField.descriptorIn, layout.lengths, UInt16.toNat_ofNat',
    Nat.mod_eq_of_lt (layout.small f)]

theorem len_eq_zero (layout : AuthLayout content flags msg) (f : AuthField) :
    (f.descriptorIn msg).len = 0 ↔ content f = [] := by
  rw [← UInt16.toNat_inj, layout.toNat_len, UInt16.toNat_zero, List.length_eq_zero_iff]

theorem fieldBytes_eq (layout : AuthLayout content flags msg) (f : AuthField) :
    fieldBytes msg (f.descriptorIn msg) = some (content f) := by
  rw [fieldBytes]
  by_cases empty : content f = []
  · rw [if_pos ((layout.len_eq_zero f).mpr empty), empty]
  · rw [if_neg (fun zero => empty ((layout.len_eq_zero f).mp zero)), sliceField,
      layout.toNat_len]
    have within := layout.within f empty
    have payload := layout.payload f empty
    have there : ¬(f.descriptorIn msg).offset.toNat + (content f).length > msg.length :=
      Nat.not_lt.mpr within
    rw [if_neg there]
    exact congrArg some payload

theorem checkSignature_eq (layout : AuthLayout content flags msg) (long : 64 ≤ msg.length) :
    checkSignature msg msgAuthenticate = some () := by
  rw [checkSignature, if_neg (by omega), layout.signature, if_neg (by simp),
    layout.messageType, if_neg (by simp)]

end AuthLayout

/-- The integrity code that the parser takes out of a message. -/
def micIn (msg : Bytes) : Option (ByteVec 16 × Nat) :=
  let low := minPayloadOffset (AuthField.all.map (AuthField.descriptorIn msg))
  if low ≠ 0xFFFFFFFF ∧ low.toNat ≥ 88 ∧ msg.length ≥ 88 then
    some (ByteVec.ofBytes 16 (slice msg 72 16), 72)
  else none

/-- The parser reads every layout. -/
theorem parse_of_layout (layout : AuthLayout content flags msg) (long : 64 ≤ msg.length) :
    NtlmAuthenticate.parse msg = some
      { flags := flags
        lmResponse := content .lmResponse
        ntResponse := content .ntResponse
        domain := ntlmString (content .domainName)
        user := ntlmString (content .userName)
        workstation := ntlmString (content .workstation)
        encryptedRandomSessionKey := content .sessionKey
        mic := micIn msg
        raw := msg } := by
  have read (f : AuthField) (pos : Nat) (same : f.pos = pos) :
      readField msg pos = some (f.descriptorIn msg) := by rw [← same, readField_of_long long]
  rw [NtlmAuthenticate.parse, layout.checkSignature_eq long, read .lmResponse 12 rfl,
    read .ntResponse 20 rfl, read .domainName 28 rfl, read .userName 36 rfl,
    read .workstation 44 rfl, read .sessionKey 52 rfl]
  simp only [Option.bind_eq_bind, Option.bind_some, if_neg (show ¬msg.length < 64 by omega),
    layout.fieldBytes_eq, layout.flags]
  rfl

/-! ### Whether there is an integrity code -/

/-- One field of the loop. -/
def lowerOffset (low : UInt32) (f : Field) : UInt32 :=
  if f.len > 0 ∧ f.offset > 0 ∧ f.offset < low then f.offset else low

theorem lowerOffset_le (low : UInt32) (f : Field) : lowerOffset low f ≤ low := by
  rw [lowerOffset]
  split
  next lower => exact UInt32.le_of_lt lower.2.2
  next => exact UInt32.le_refl low

theorem lowerOffset_le_offset (low : UInt32) (f : Field) (there : 0 < f.len)
    (behind : 0 < f.offset) : lowerOffset low f ≤ f.offset := by
  rw [lowerOffset]
  split
  next => exact UInt32.le_refl f.offset
  next other => exact UInt32.not_lt.mp fun lower => other ⟨there, behind, lower⟩

/-- The loop ends at no higher offset than it starts, and than any field that is there has. -/
theorem foldl_lowerOffset_le (fields : List Field) (low : UInt32) :
    fields.foldl lowerOffset low ≤ low ∧
      ∀ f ∈ fields, 0 < f.len → 0 < f.offset → fields.foldl lowerOffset low ≤ f.offset := by
  induction fields generalizing low with
  | nil => exact ⟨UInt32.le_refl low, by simp⟩
  | cons first rest ih =>
    obtain ⟨below, each⟩ := ih (lowerOffset low first)
    refine ⟨UInt32.le_trans below (lowerOffset_le low first), ?_⟩
    intro f listed there behind
    rcases List.mem_cons.mp listed with rfl | later
    · exact UInt32.le_trans below (lowerOffset_le_offset low f there behind)
    · exact each f later there behind

theorem minPayloadOffset_le {fields : List Field} {f : Field} (listed : f ∈ fields)
    (there : 0 < f.len) (behind : 0 < f.offset) : minPayloadOffset fields ≤ f.offset :=
  (foldl_lowerOffset_le fields 0xFFFFFFFF).2 f listed there behind

/-- No code is looked for where a payload stands in its place. -/
theorem micIn_of_startsPlain (layout : AuthLayout content flags msg)
    (start : StartsPlain content msg) : micIn msg = none := by
  obtain ⟨first, there, place, -⟩ := start
  have len : 0 < (first.descriptorIn msg).len :=
    UInt16.pos_iff_ne_zero.mpr fun zero => there ((layout.len_eq_zero first).mp zero)
  have offset : (first.descriptorIn msg).offset.toNat = first.offsetIn msg := rfl
  have behind : 0 < (first.descriptorIn msg).offset := by
    rw [UInt32.lt_iff_toNat_lt, offset, UInt32.toNat_zero]
    omega
  have low := minPayloadOffset_le
    (List.mem_map_of_mem (f := AuthField.descriptorIn msg) first.mem_all) len behind
  rw [UInt32.le_iff_toNat_le, offset] at low
  rw [micIn, if_neg]
  rintro ⟨-, high, -⟩
  omega

/-- Either no code is found, or the sixteen bytes at offset 72. -/
theorem micIn_cases (msg : Bytes) :
    micIn msg = none ∨
      88 ≤ msg.length ∧ micIn msg = some (ByteVec.ofBytes 16 (slice msg 72 16), 72) := by
  rw [micIn]
  split
  next found => exact .inr ⟨found.2.2, rfl⟩
  next => exact .inl rfl

/-- What is read out of a message keeps the message, for its integrity code. -/
theorem raw_of_parse {auth : NtlmAuthenticate} (parsed : NtlmAuthenticate.parse msg = some auth) :
    auth.raw = msg ∧ auth.mic = micIn msg := by
  rw [NtlmAuthenticate.parse] at parsed
  obtain ⟨-, -, parsed⟩ := Option.bind_eq_some_iff.mp parsed
  split at parsed
  next => cases parsed
  next long =>
    have read (f : AuthField) (pos : Nat) (same : f.pos = pos) :
        readField msg pos = some (f.descriptorIn msg) := by
      rw [← same, readField_of_long (Nat.not_lt.mp long)]
    rw [read .lmResponse 12 rfl, read .ntResponse 20 rfl, read .domainName 28 rfl,
      read .userName 36 rfl, read .workstation 44 rfl, read .sessionKey 52 rfl] at parsed
    simp only [Option.bind_eq_bind, Option.bind_some] at parsed
    obtain ⟨_, -, parsed⟩ := Option.bind_eq_some_iff.mp parsed
    obtain ⟨_, -, parsed⟩ := Option.bind_eq_some_iff.mp parsed
    obtain ⟨_, -, parsed⟩ := Option.bind_eq_some_iff.mp parsed
    obtain ⟨_, -, parsed⟩ := Option.bind_eq_some_iff.mp parsed
    obtain ⟨_, -, parsed⟩ := Option.bind_eq_some_iff.mp parsed
    obtain ⟨_, -, parsed⟩ := Option.bind_eq_some_iff.mp parsed
    cases parsed
    exact ⟨rfl, rfl⟩

end

/-! ### The acceptor behind a CHALLENGE -/

/-- A NEGOTIATE that is taken is kept, and there is something in it. -/
theorem step1Negotiate_eq {s s' : NtlmServer} {negotiate : Bytes}
    (negotiated : s.step1Negotiate negotiate = some s') :
    s'.negotiateBytes = negotiate ∧ negotiate ≠ [] ∧ s'.serverChallenge = s.serverChallenge := by
  rw [NtlmServer.step1Negotiate, Option.bind_eq_bind, Option.bind_eq_some_iff] at negotiated
  obtain ⟨n, parsed, rest⟩ := negotiated
  rw [NtlmNegotiate.parse] at parsed
  simp only [Option.bind_eq_bind] at parsed
  obtain ⟨-, -, parsed⟩ := Option.bind_eq_some_iff.mp parsed
  split at parsed
  next => cases parsed
  next long =>
    obtain ⟨_, -, parsed⟩ := Option.bind_eq_some_iff.mp parsed
    obtain ⟨_, -, parsed⟩ := Option.bind_eq_some_iff.mp parsed
    obtain ⟨_, -, parsed⟩ := Option.bind_eq_some_iff.mp parsed
    obtain ⟨_, -, parsed⟩ := Option.bind_eq_some_iff.mp parsed
    cases parsed
    cases rest
    refine ⟨rfl, ?_, rfl⟩
    rintro rfl
    exact long (by simp)

theorem serverChallenge_challenge (s : NtlmServer) :
    NtlmClient.serverChallenge s.challenge.1 = s.serverChallenge.val := by
  simp only [NtlmClient.serverChallenge, NtlmServer.challenge, buildChallenge, List.append_assoc]
  iterate 6 rw [slice_append_right _ _ _ _ (by simp [ntlmsspSignature])]
  exact slice_append_exact _ _ _ (by simp)

theorem encodeUtf16_append (a b : Text) : encodeUtf16 (a ++ b) = encodeUtf16 a ++ encodeUtf16 b := by
  induction a with
  | nil => rfl
  | cons c rest ih =>
    simp only [List.cons_append, encodeUtf16, ih]
    split <;> rfl

theorem utf16le_append (a b : Text) : utf16le (a ++ b) = utf16le a ++ utf16le b := by
  rw [utf16le, encodeUtf16_append, List.flatMap_append]
  rfl

section
variable [Crypto]

/-- An integrity code that is found and holds is the one over the three messages. -/
theorem NtlmServer.eq_of_micHolds (s : NtlmServer) {auth : NtlmAuthenticate} {key : Key}
    {code : ByteVec 16} {off : Nat} {negotiate msg : Bytes} (holds : s.micHolds auth key = true)
    (found : auth.mic = some (code, off)) (raw : auth.raw = msg)
    (kept : s.negotiateBytes = negotiate) (there : negotiate ≠ []) :
    code = Crypto.hmacMd5 key.val
      (negotiate ++ s.challengeBytes ++ patch msg off (ByteVec.zero 16).val) := by
  rw [micHolds, found, raw, kept] at holds
  have sent : negotiate.isEmpty = false := List.isEmpty_eq_false_iff.mpr there
  simp only [sent, Bool.false_eq_true, if_false] at holds
  split at holds
  next => cases holds
  next => exact eq_of_beq holds

/-- The response is the proof under the stored hash in front of some client challenge, a session key
comes of it, and an integrity code is the right one. -/
def NtlmServer.Accepts (s : NtlmServer) (lookup : Text → Option UserCreds)
    (auth : NtlmAuthenticate) (key : Key) : Prop :=
  ∃ creds clientChallenge, lookup auth.user = some creds ∧
    let responseKey := ntowfV2 creds.ntHash auth.user auth.domain
    let proof := Crypto.hmacMd5 responseKey.val (s.serverChallenge.val ++ clientChallenge)
    auth.ntResponse = proof.val ++ clientChallenge ∧
      exportedKey auth (Crypto.hmacMd5 responseKey.val proof.val) = some key ∧
      s.micHolds auth key = true

/-- A message lets a user in if and only if it is accepted. -/
theorem authenticate_eq_user {s : NtlmServer} {lookup : Text → Option UserCreds} {msg : Bytes}
    {user domain : Text} {key : Key} :
    s.authenticate msg lookup = some ⟨.user user domain, key⟩ ↔
      ∃ auth, NtlmAuthenticate.parse msg = some auth ∧ auth.user = user ∧ auth.domain = domain ∧
        s.Accepts lookup auth key := by
  rw [NtlmServer.authenticate]
  constructor
  · intro accepted
    obtain ⟨auth, parsed, accepted⟩ := Option.bind_eq_some_iff.mp accepted
    refine ⟨auth, parsed, ?_⟩
    split at accepted
    next => cases accepted
    next =>
      obtain ⟨creds, known, accepted⟩ := Option.bind_eq_some_iff.mp accepted
      split at accepted
      next => cases accepted
      next =>
        dsimp only at accepted
        split at accepted
        next => cases accepted
        next proof =>
          obtain ⟨key', exported, accepted⟩ := Option.bind_eq_some_iff.mp accepted
          split at accepted
          next => cases accepted
          next code =>
            cases accepted
            have halves := List.take_append_drop 16 auth.ntResponse
            rw [not_not.mp proof] at halves
            refine ⟨rfl, rfl, creds, auth.ntResponse.drop 16, known, halves.symm, exported, ?_⟩
            simpa using code
  · rintro ⟨auth, parsed, rfl, rfl, creds, clientChallenge, known, response, exported, code⟩
    have long := congrArg List.length response
    rw [List.length_append, ByteVec.length_val] at long
    have there : auth.ntResponse.isEmpty = false := by
      cases bytes : auth.ntResponse with
      | nil => rw [bytes] at long; simp at long; omega
      | cons => rfl
    have blob : auth.ntResponse.drop 16 = clientChallenge := by
      rw [response, List.drop_left' (ByteVec.length_val _)]
    have proof := congrArg (List.take 16) response
    rw [List.take_left' (ByteVec.length_val _)] at proof
    have short : ¬auth.ntResponse.length < 16 := by omega
    simp only [parsed, Option.bind_eq_bind, Option.bind_some, there, Bool.and_false,
      Bool.false_eq_true, if_false, known, if_neg short, blob]
    rw [if_neg (not_not_intro proof), exported, Option.bind_some, code]
    rfl

end

section
variable [Crypto] {c : NtlmClient} {negotiate challenge msg : Bytes}

theorem responseKeyNt_eq (c : NtlmClient) :
    c.responseKeyNt = ntowfV2 (UserCreds.fromPassword c.password).ntHash c.user c.domain := by
  rw [NtlmClient.responseKeyNt, utf16le_append]
  rfl

/-- The key that the server takes out of the message is the one that the client exports. -/
theorem exportedKey_eq (rc4 : ∀ key block, Crypto.rc4 key (Crypto.rc4 key block) = block)
    {auth : NtlmAuthenticate} (flags : auth.flags = c.flags)
    (encrypted : auth.encryptedRandomSessionKey = c.encryptedRandomSessionKey challenge) :
    NtlmServer.exportedKey auth (c.keyExchangeKey challenge) =
      some (c.exportedSessionKey challenge) := by
  have exchanges : NtlmServer.exportedKey.hasKeyExch auth.flags = c.keyExch := by rw [flags]; rfl
  rw [NtlmServer.exportedKey, exchanges, encrypted, NtlmClient.encryptedRandomSessionKey,
    NtlmClient.exportedSessionKey]
  cases c.keyExch with
  | false => rfl
  | true =>
    have long := ByteVec.length_val (Crypto.rc4 (c.keyExchangeKey challenge) c.randomSessionKey)
    have there : (Crypto.rc4 (c.keyExchangeKey challenge) c.randomSessionKey).val ≠ [] := by
      intro empty
      rw [empty] at long
      cases long
    have wrapped : ByteVec.ofBytes 16 (Crypto.rc4 (c.keyExchangeKey challenge)
        c.randomSessionKey).val = Crypto.rc4 (c.keyExchangeKey challenge) c.randomSessionKey :=
      Subtype.ext (ByteVec.ofBytes_val _ long)
    simp only [if_true]
    rw [if_pos ⟨trivial, there⟩, if_neg (not_not_intro long), wrapped, rc4]

namespace NtlmClient.Builds

theorem layout (builds : c.Builds negotiate challenge msg) :
    AuthLayout (c.content challenge) c.flags msg := by
  cases builds with
  | plain layout => exact layout
  | withMic layout => exact layout

theorem long (builds : c.Builds negotiate challenge msg) : 64 ≤ msg.length := by
  have within := builds.layout.within .ntResponse (NtlmClient.ntResponse_nonempty c challenge)
  have behind : 64 ≤ AuthField.offsetIn msg .ntResponse := by
    cases builds with
    | plain _ start =>
      obtain ⟨first, -, place, least⟩ := start
      have low := least .ntResponse (NtlmClient.ntResponse_nonempty c challenge)
      omega
    | withMic _ start =>
      have low := start .ntResponse (NtlmClient.ntResponse_nonempty c challenge)
      omega
  omega

/-- The integrity code is the client's, where the server finds one. -/
theorem micHolds (builds : c.Builds negotiate challenge msg) {s : NtlmServer}
    {auth : NtlmAuthenticate} (mic : auth.mic = micIn msg) (raw : auth.raw = msg)
    (first : s.negotiateBytes = negotiate) (second : s.challengeBytes = challenge) :
    s.micHolds auth (c.exportedSessionKey challenge) = true := by
  rw [NtlmServer.micHolds, mic]
  cases builds with
  | plain layout start => rw [micIn_of_startsPlain layout start]
  | withMic layout start code =>
    rcases micIn_cases msg with none | ⟨long, found⟩
    · rw [none]
    · rw [found, raw, first, second]
      have supplied : ByteVec.ofBytes 16 (slice msg 72 16) = c.mic negotiate challenge msg := by
        refine Subtype.ext ?_
        rw [code, ByteVec.ofBytes_val _ (ByteVec.length_val _)]
      have inside : ¬msg.length < 72 + 16 := by omega
      simp only [supplied, if_neg inside]
      split
      · rfl
      · exact beq_self_eq_true _

end NtlmClient.Builds

/-- What a client builds is taken, for the client's user and with the client's key. -/
theorem authenticate_of_builds
    (rc4 : ∀ key block, Crypto.rc4 key (Crypto.rc4 key block) = block)
    {s : NtlmServer} {lookup : Text → Option UserCreds}
    (known : lookup c.user = some (.fromPassword c.password))
    (drawn : NtlmClient.serverChallenge challenge = s.serverChallenge.val)
    (first : s.negotiateBytes = negotiate) (second : s.challengeBytes = challenge)
    (builds : c.Builds negotiate challenge msg) :
    s.authenticate msg lookup =
      some ⟨.user c.user c.domain, c.exportedSessionKey challenge⟩ := by
  have user : ntlmString (c.content challenge .userName) = c.user := fromUtf16Lossy_utf16le c.user
  have domain : ntlmString (c.content challenge .domainName) = c.domain :=
    fromUtf16Lossy_utf16le c.domain
  -- the client proves over the challenge that the server has drawn
  have proof : c.ntProofStr challenge =
      Crypto.hmacMd5 c.responseKeyNt.val (s.serverChallenge.val ++ c.clientChallenge) := by
    rw [← drawn]
    rfl
  have response : c.content challenge .ntResponse =
      (c.ntProofStr challenge).val ++ c.clientChallenge := rfl
  have key : Crypto.hmacMd5 c.responseKeyNt.val (c.ntProofStr challenge).val =
      c.keyExchangeKey challenge := rfl
  refine authenticate_eq_user.mpr ⟨_, parse_of_layout builds.layout builds.long, user, domain,
    .fromPassword c.password, c.clientChallenge, ?_, ?_, ?_, ?_⟩
  · simp only [user, known]
  · simp only [user, domain]
    rw [← responseKeyNt_eq, ← proof, response]
  · simp only [user, domain]
    rw [← responseKeyNt_eq, ← proof, key]
    exact exportedKey_eq rc4 rfl rfl
  · exact builds.micHolds rfl rfl first second

end

/-- Behind a CHALLENGE, client and server agree. A user that the server knows is let in by every
message that the user's client builds, with the client's key; and a message that lets a user in has
the proof under the stored hash, and where it has an integrity code the right one. -/
theorem ntlmv2_agreement [Crypto]
    (rc4 : ∀ key block, Crypto.rc4 key (Crypto.rc4 key block) = block)
    (serverChallenge : ByteVec 8) (target : NtlmTargetInfo) (timestamp : UInt64)
    (negotiate : Bytes) (s : NtlmServer)
    (negotiated : (NtlmServer.new serverChallenge target timestamp).step1Negotiate negotiate =
      some s) (lookup : Text → Option UserCreds) :
    (∀ (c : NtlmClient) (msg : Bytes), lookup c.user = some (.fromPassword c.password) →
      c.Builds negotiate s.challenge.1 msg →
      s.challenge.2.authenticate msg lookup =
        some ⟨.user c.user c.domain, c.exportedSessionKey s.challenge.1⟩) ∧
    ∀ (msg : Bytes) (user domain : Text) (key : Key),
      s.challenge.2.authenticate msg lookup = some ⟨.user user domain, key⟩ →
      ∃ auth creds clientChallenge, NtlmAuthenticate.parse msg = some auth ∧ auth.user = user ∧
        auth.domain = domain ∧ lookup user = some creds ∧
        auth.ntResponse = (Crypto.hmacMd5 (ntowfV2 creds.ntHash user domain).val
          (serverChallenge.val ++ clientChallenge)).val ++ clientChallenge ∧
        ∀ code off, auth.mic = some (code, off) →
          code = Crypto.hmacMd5 key.val
            (negotiate ++ s.challenge.1 ++ patch msg off (ByteVec.zero 16).val) := by
  obtain ⟨kept, there, drawn⟩ := step1Negotiate_eq negotiated
  have drawn : s.serverChallenge = serverChallenge := drawn
  constructor
  · intro c msg known builds
    exact authenticate_of_builds rc4 known (serverChallenge_challenge s) kept rfl builds
  · intro msg user domain key accepted
    obtain ⟨auth, parsed, rfl, rfl, creds, clientChallenge, known, response, -, code⟩ :=
      authenticate_eq_user.mp accepted
    refine ⟨auth, creds, clientChallenge, parsed, rfl, rfl, known, ?_, fun supplied off found => ?_⟩
    · rw [← drawn]
      exact response
    · obtain ⟨raw, -⟩ := raw_of_parse parsed
      exact s.challenge.2.eq_of_micHolds code found raw (by rw [← kept]; rfl) there

/-! ### A logon with key exchange and integrity code -/

namespace KeyExchange

/-- RC4's permutation for a key. -/
def rc4Schedule (key : Bytes) : Array UInt8 :=
  let mix (state : Array UInt8 × Nat) (i : Nat) : Array UInt8 × Nat :=
    let j := (state.2 + (state.1.getD i 0).toNat + (key.getD (i % key.length) 0).toNat) % 256
    (state.1.swapIfInBounds i j, j)
  ((List.range 256).foldl mix (Array.ofFn fun i : Fin 256 => UInt8.ofNat i, 0)).1

/-- The key stream. -/
def rc4Stream : Nat → Array UInt8 → Nat → Nat → Bytes
  | 0, _, _, _ => []
  | n + 1, s, i, j =>
    let i := (i + 1) % 256
    let j := (j + (s.getD i 0).toNat) % 256
    let s := s.swapIfInBounds i j
    s.getD (((s.getD i 0).toNat + (s.getD j 0).toNat) % 256) 0 :: rc4Stream n s i j

theorem length_rc4Stream (n : Nat) (s : Array UInt8) (i j : Nat) :
    (rc4Stream n s i j).length = n := by
  induction n generalizing s i j with
  | zero => rfl
  | succ n ih => rw [rc4Stream, List.length_cons, ih]

/-- The other primitives stay checksums. -/
scoped instance crypto : Crypto where
  hmacSha256 := Sample.crypto.hmacSha256
  aesCmac := Sample.crypto.aesCmac
  sha512 := Sample.crypto.sha512
  md4 := Sample.crypto.md4
  hmacMd5 := Sample.crypto.hmacMd5
  rc4 key block := ⟨List.zipWith (· ^^^ ·) block.val (rc4Stream 16 (rc4Schedule key.val) 0 0),
    by simp [length_rc4Stream]⟩
  toUppercase := Sample.crypto.toUppercase

theorem zipWith_xor_xor (block stream : Bytes) (same : block.length = stream.length) :
    List.zipWith (· ^^^ ·) (List.zipWith (· ^^^ ·) block stream) stream = block := by
  induction block generalizing stream with
  | nil => simp
  | cons b block ih =>
    cases stream with
    | nil => cases same
    | cons k stream =>
      rw [List.zipWith_cons_cons, List.zipWith_cons_cons, ih stream (by simpa using same),
        UInt8.xor_assoc, UInt8.xor_self, UInt8.xor_zero]

theorem rc4_rc4 (key block : ByteVec 16) : Crypto.rc4 key (Crypto.rc4 key block) = block := by
  apply Subtype.ext
  apply zipWith_xor_xor
  rw [ByteVec.length_val, length_rc4Stream]

/-- A client that asks for a key exchange. -/
def client : NtlmClient where
  user := ['a', 'l']
  domain := ['d']
  password := ['p']
  workstation := []
  lmResponse := []
  clientChallenge := [1, 2, 3]
  randomSessionKey := ⟨List.replicate 16 7, rfl⟩
  flags := NtlmFlags.negotiateUnicode ||| NtlmFlags.negotiateKeyExch

/-- The acceptor behind the client's NEGOTIATE. -/
def acceptor : NtlmServer :=
  { NtlmServer.new (ByteVec.zero 8) ⟨['s'], ['s'], ['s'], [], []⟩ 0 with
    negotiatedFlags := NtlmFlags.negotiateTargetInfo ||| NtlmFlags.targetTypeServer |||
      NtlmFlags.negotiateUnicode
    negotiateBytes := Client.ntlmNegotiate }

/-- Its AUTHENTICATE, the payloads from the last to the first. -/
def message : Bytes :=
  client.micMessage Client.ntlmNegotiate acceptor.challenge.1 AuthField.all.reverse
    (List.replicate 8 0)

theorem message_builds :
    client.Builds Client.ntlmNegotiate acceptor.challenge.1 message := by
  apply NtlmClient.builds_micMessage
  · intro f
    cases f with
    | ntResponse => simp [NtlmClient.content, client]
    | sessionKey =>
      rw [NtlmClient.content, NtlmClient.encryptedRandomSessionKey]
      split <;> simp
    | lmResponse | domainName | userName | workstation => decide
  · exact List.reverse_perm AuthField.all
  · rfl

end KeyExchange

open scoped KeyExchange

/-- Both sides hold the client's random key. -/
theorem ntlmv2_agreement_keyExchange :
    KeyExchange.acceptor.challenge.2.authenticate KeyExchange.message
        (fun user => if user = ['a', 'l'] then some (.fromPassword ['p']) else none) =
      some ⟨.user ['a', 'l'] ['d'],
        KeyExchange.client.exportedSessionKey KeyExchange.acceptor.challenge.1⟩ :=
  (ntlmv2_agreement KeyExchange.rc4_rc4 (ByteVec.zero 8) ⟨['s'], ['s'], ['s'], [], []⟩ 0
    Client.ntlmNegotiate KeyExchange.acceptor rfl _).1 KeyExchange.client KeyExchange.message
    (if_pos rfl) KeyExchange.message_builds

end SmbServer
