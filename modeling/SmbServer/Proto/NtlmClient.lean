import SmbServer.Proto.Ntlm
import Mathlib.Data.List.TakeWhile

/-!
# SmbServer.Proto.NtlmClient

The client side of NTLMv2: what a client derives from a password and a CHALLENGE, and the messages
that say so.

An AUTHENTICATE_MESSAGE is described by what can be read at its fixed places (`AuthLayout`), so its
payloads may stand in any order and with anything between them. `layOut` writes one of them.
-/

namespace SmbServer

open Lib

/-- The parts of AUTHENTICATE_MESSAGE that a descriptor points to. -/
inductive AuthField where
  | lmResponse
  | ntResponse
  | domainName
  | userName
  | workstation
  | sessionKey
  deriving DecidableEq

namespace AuthField

/-- Where the descriptor of a field stands. -/
def pos : AuthField → Nat
  | .lmResponse => 12
  | .ntResponse => 20
  | .domainName => 28
  | .userName => 36
  | .workstation => 44
  | .sessionKey => 52

/-- The fields as their descriptors stand. -/
def all : List AuthField :=
  [.lmResponse, .ntResponse, .domainName, .userName, .workstation, .sessionKey]

theorem mem_all (f : AuthField) : f ∈ all := by
  cases f <;> decide

/-- Where the payload of a field starts. -/
def offsetIn (msg : Bytes) (f : AuthField) : Nat := (readU32 msg (f.pos + 4)).toNat

end AuthField

/-! ### The layout of AUTHENTICATE -/

/-- A message with the given payloads, each where its descriptor says. An empty payload may point
anywhere. -/
structure AuthLayout (content : AuthField → Bytes) (flags : UInt32) (msg : Bytes) : Prop where
  signature : slice msg 0 8 = ntlmsspSignature
  messageType : readU32 msg 8 = msgAuthenticate
  flags : readU32 msg 60 = flags
  small : ∀ f, (content f).length < 65536
  lengths : ∀ f : AuthField, readU16 msg f.pos = UInt16.ofNat (content f).length
  within : ∀ f, content f ≠ [] → f.offsetIn msg + (content f).length ≤ msg.length
  payload : ∀ f, content f ≠ [] → slice msg (f.offsetIn msg) (content f).length = content f

/-- The first payload stands right behind the flags, or behind a version. -/
def StartsPlain (content : AuthField → Bytes) (msg : Bytes) : Prop :=
  ∃ first, content first ≠ [] ∧
    (AuthField.offsetIn msg first = 64 ∨ AuthField.offsetIn msg first = 72) ∧
    ∀ f, content f ≠ [] → AuthField.offsetIn msg first ≤ f.offsetIn msg

/-- All payloads stand behind the place of the integrity code. -/
def StartsBehindMic (content : AuthField → Bytes) (msg : Bytes) : Prop :=
  ∀ f, content f ≠ [] → 88 ≤ AuthField.offsetIn msg f

/-! ### Writing a message -/

/-- The offset of a payload when the payloads follow each other from `start` on. -/
def payloadStart (content : AuthField → Bytes) (start : Nat) (order : List AuthField)
    (f : AuthField) : Nat :=
  start + ((order.takeWhile (· ≠ f)).flatMap content).length

def descriptor (content : AuthField → Bytes) (start : Nat) (order : List AuthField)
    (f : AuthField) : Bytes :=
  u16le (UInt16.ofNat (content f).length) ++ u16le (UInt16.ofNat (content f).length) ++
    u32le (UInt32.ofNat (payloadStart content start order f))

/-- The message with its payloads in some order behind `front`, which follows the flags. -/
def layOut (content : AuthField → Bytes) (flags : UInt32) (order : List AuthField)
    (front : Bytes) : Bytes :=
  ntlmsspSignature ++ (u32le msgAuthenticate ++
    (AuthField.all.flatMap (descriptor content (64 + front.length) order) ++
      (u32le flags ++ (front ++ order.flatMap content))))

theorem length_descriptor (content : AuthField → Bytes) (start : Nat) (order : List AuthField)
    (f : AuthField) : (descriptor content start order f).length = 8 := by
  simp [descriptor]

theorem length_descriptors (content : AuthField → Bytes) (start : Nat) (order : List AuthField)
    (fields : List AuthField) :
    (fields.flatMap (descriptor content start order)).length = 8 * fields.length := by
  induction fields with
  | nil => rfl
  | cons f rest ih =>
    rw [List.flatMap_cons, List.length_append, length_descriptor, ih, List.length_cons]
    omega

/-- The fields in front of one, in the order of the descriptors. -/
theorem split_all (f : AuthField) :
    ∃ before after, AuthField.all = before ++ f :: after ∧ 12 + 8 * before.length = f.pos := by
  cases f with
  | lmResponse => exact ⟨[], _, rfl, rfl⟩
  | ntResponse => exact ⟨[.lmResponse], _, rfl, rfl⟩
  | domainName => exact ⟨[.lmResponse, .ntResponse], _, rfl, rfl⟩
  | userName => exact ⟨[.lmResponse, .ntResponse, .domainName], _, rfl, rfl⟩
  | workstation => exact ⟨[.lmResponse, .ntResponse, .domainName, .userName], _, rfl, rfl⟩
  | sessionKey =>
    exact ⟨[.lmResponse, .ntResponse, .domainName, .userName, .workstation], [], rfl, rfl⟩

section
variable (content : AuthField → Bytes) (order : List AuthField)

/-- The descriptor of a field stands at its place. -/
theorem layOut_descriptor (flags : UInt32) (front : Bytes) (f : AuthField) :
    ∃ before after, layOut content flags order front =
        before ++ (descriptor content (64 + front.length) order f ++ after) ∧
      before.length = f.pos := by
  obtain ⟨earlier, later, whole, place⟩ := split_all f
  let d := descriptor content (64 + front.length) order
  refine ⟨ntlmsspSignature ++ (u32le msgAuthenticate ++ earlier.flatMap d),
    later.flatMap d ++ (u32le flags ++ (front ++ order.flatMap content)), ?_, ?_⟩
  · rw [layOut, whole, List.flatMap_append, List.flatMap_cons]
    simp only [List.append_assoc]
    rfl
  · rw [List.length_append, List.length_append, length_descriptors, length_u32le, ← place]
    simp only [ntlmsspSignature, List.length_cons, List.length_nil]
    omega

/-- A payload stands behind those that are in front of it. -/
theorem layOut_payload (flags : UInt32) (front : Bytes) {f : AuthField} (listed : f ∈ order) :
    ∃ before after, layOut content flags order front = before ++ (content f ++ after) ∧
      before.length = payloadStart content (64 + front.length) order f := by
  -- the payloads in front of it, itself, and those behind
  have split : order = order.takeWhile (· ≠ f) ++ order.dropWhile (· ≠ f) :=
    List.takeWhile_append_dropWhile.symm
  cases rest : order.dropWhile (· ≠ f) with
  | nil =>
    have missing := List.dropWhile_eq_nil_iff.mp rest f listed
    simp at missing
  | cons first behind =>
    have same : first = f := by
      have head := List.head?_dropWhile_not (· ≠ f) order
      rw [rest] at head
      simpa using head
    rw [rest, same] at split
    refine ⟨ntlmsspSignature ++ (u32le msgAuthenticate ++
      (AuthField.all.flatMap (descriptor content (64 + front.length) order) ++
        (u32le flags ++ (front ++ (order.takeWhile (· ≠ f)).flatMap content)))),
      behind.flatMap content, ?_, ?_⟩
    · have payloads : order.flatMap content =
          (order.takeWhile (· ≠ f)).flatMap content ++ (content f ++ behind.flatMap content) := by
        conv_lhs => rw [split]
        rw [List.flatMap_append, List.flatMap_cons]
      rw [layOut, payloads]
      simp only [List.append_assoc]
    · simp only [List.length_append, length_descriptors, length_u32le, payloadStart]
      simp only [ntlmsspSignature, AuthField.all, List.length_cons, List.length_nil]
      omega

theorem payloadStart_le (start : Nat) (f : AuthField) :
    payloadStart content start order f ≤ start + (order.flatMap content).length := by
  have split : order = order.takeWhile (· ≠ f) ++ order.dropWhile (· ≠ f) :=
    List.takeWhile_append_dropWhile.symm
  have whole := congrArg (fun fields => (fields.flatMap content).length) split
  simp only [List.flatMap_append, List.length_append] at whole
  rw [payloadStart]
  omega

variable {content order}

theorem length_payloads (small : ∀ f, (content f).length < 65536) (fields : List AuthField) :
    (fields.flatMap content).length ≤ 65535 * fields.length := by
  induction fields with
  | nil => simp
  | cons f rest ih =>
    have here := small f
    rw [List.flatMap_cons, List.length_append, List.length_cons]
    omega

/-- The offset in a descriptor is where the payload starts. -/
theorem offsetIn_layOut (small : ∀ f, (content f).length < 65536) (whole : order.Perm AuthField.all)
    (flags : UInt32) (front : Bytes) (short : front.length ≤ 24) (f : AuthField) :
    f.offsetIn (layOut content flags order front) =
      payloadStart content (64 + front.length) order f := by
  obtain ⟨before, after, split, place⟩ := layOut_descriptor content order flags front f
  have payloads := length_payloads small order
  rw [whole.length_eq] at payloads
  have six : AuthField.all.length = 6 := rfl
  have start := payloadStart_le content order (64 + front.length) f
  rw [AuthField.offsetIn, readU32, split, descriptor, List.append_assoc, List.append_assoc,
    ← List.append_assoc, ← List.append_assoc,
    slice_between _ _ _ _ _ (by simp [place]) (length_u32le _), u32OfLe_u32le,
    UInt32.toNat_ofNat', Nat.mod_eq_of_lt (by omega)]

/-- What is written has the layout. -/
theorem layOut_layout (small : ∀ f, (content f).length < 65536) (whole : order.Perm AuthField.all)
    (flags : UInt32) (front : Bytes) (short : front.length ≤ 24) :
    AuthLayout content flags (layOut content flags order front) where
  signature := slice_append_exact _ _ 8 rfl
  messageType := by
    rw [readU32, layOut, slice_between _ _ _ 8 4 rfl (length_u32le _), u32OfLe_u32le]
  flags := by
    rw [readU32, layOut, ← List.append_assoc, ← List.append_assoc,
      slice_between _ _ _ 60 4 ?_ (length_u32le _), u32OfLe_u32le]
    simp [length_descriptor, ntlmsspSignature, AuthField.all]
  small := small
  lengths f := by
    obtain ⟨before, after, split, place⟩ := layOut_descriptor content order flags front f
    rw [readU16, split, descriptor, List.append_assoc, List.append_assoc,
      slice_between _ _ _ _ _ place (length_u16le _), u16OfLe_u16le]
  within f _ := by
    obtain ⟨before, after, split, place⟩ := layOut_payload content order flags front
      (whole.mem_iff.mpr f.mem_all)
    rw [offsetIn_layOut small whole flags front short, split, ← place]
    simp only [List.length_append]
    omega
  payload f _ := by
    obtain ⟨before, after, split, place⟩ := layOut_payload content order flags front
      (whole.mem_iff.mpr f.mem_all)
    rw [offsetIn_layOut small whole flags front short, split, ← place]
    exact slice_between _ _ _ _ _ rfl rfl

/-- The first payload that is not empty is where the payloads start. -/
theorem layOut_startsPlain (small : ∀ f, (content f).length < 65536)
    (whole : order.Perm AuthField.all) (flags : UInt32) (front : Bytes)
    (short : front.length = 0 ∨ front.length = 8) (there : ∃ f, content f ≠ []) :
    StartsPlain content (layOut content flags order front) := by
  have offsets := offsetIn_layOut small whole flags front (by omega)
  have found : (order.find? fun f => !(content f).isEmpty).isSome = true := by
    obtain ⟨f, nonempty⟩ := there
    rw [List.find?_isSome]
    exact ⟨f, whole.mem_iff.mpr f.mem_all, by simpa using nonempty⟩
  obtain ⟨first, found⟩ := Option.isSome_iff_exists.mp found
  obtain ⟨nonempty, earlier, later, split, empty⟩ := List.find?_eq_some_iff_append.mp found
  have nonempty : content first ≠ [] := by simpa using nonempty
  have empty : ∀ f ∈ earlier, content f = [] := by simpa using empty
  -- all payloads in front of the first that is not empty are empty
  have front_ : order.takeWhile (· ≠ first) = earlier := by
    rw [split, List.takeWhile_append_of_pos]
    · simp
    · intro f listed
      have other : f ≠ first := fun same => nonempty (same ▸ empty f listed)
      simpa using other
  have start : payloadStart content (64 + front.length) order first = 64 + front.length := by
    rw [payloadStart, front_, List.flatMap_eq_nil_iff.mpr empty]
    rfl
  refine ⟨first, nonempty, ?_, fun f _ => ?_⟩
  · rw [offsets, start]
    omega
  · rw [offsets, offsets, start]
    exact Nat.le_add_right _ _

theorem layOut_startsBehindMic (small : ∀ f, (content f).length < 65536)
    (whole : order.Perm AuthField.all) (flags : UInt32) (front : Bytes)
    (long : front.length = 24) : StartsBehindMic content (layOut content flags order front) := by
  intro f _
  rw [offsetIn_layOut small whole flags front (by omega), payloadStart, long]
  omega

end

/-! ### The integrity code -/

section
variable {content : AuthField → Bytes} {flags : UInt32} {msg : Bytes} (code : ByteVec 16)

/-- Nothing but the code stands in its place. -/
theorem slice_patchMic (long : 88 ≤ msg.length) {off len : Nat}
    (apart : off + len ≤ 72 ∨ 88 ≤ off) :
    slice (patch msg 72 code.val) off len = slice msg off len := by
  have sixteen := ByteVec.length_val code
  exact slice_patch_disjoint msg 72 code.val off len (by omega) (by omega)

theorem offsetIn_patchMic (long : 88 ≤ msg.length) (f : AuthField) :
    f.offsetIn (patch msg 72 code.val) = f.offsetIn msg := by
  rw [AuthField.offsetIn, AuthField.offsetIn, readU32, readU32, slice_patchMic code long]
  cases f <;> exact .inl (by decide)

theorem AuthLayout.patchMic (layout : AuthLayout content flags msg)
    (start : StartsBehindMic content msg) (long : 88 ≤ msg.length) :
    AuthLayout content flags (patch msg 72 code.val) where
  signature := by rw [slice_patchMic code long (.inl (by decide)), layout.signature]
  messageType := by
    rw [readU32, slice_patchMic code long (.inl (by decide))]
    exact layout.messageType
  flags := by
    rw [readU32, slice_patchMic code long (.inl (by decide))]
    exact layout.flags
  small := layout.small
  lengths f := by
    rw [readU16, slice_patchMic code long (by cases f <;> exact .inl (by decide))]
    exact layout.lengths f
  within f there := by
    have sixteen := ByteVec.length_val code
    rw [offsetIn_patchMic code long, length_patch _ _ _ (by omega)]
    exact layout.within f there
  payload f there := by
    rw [offsetIn_patchMic code long, slice_patchMic code long (.inr (start f there))]
    exact layout.payload f there

theorem StartsBehindMic.patchMic (start : StartsBehindMic content msg) (long : 88 ≤ msg.length) :
    StartsBehindMic content (patch msg 72 code.val) := by
  intro f there
  rw [offsetIn_patchMic code long]
  exact start f there

end

/-! ### What a client derives -/

/-- What a client enters, and what it draws. -/
structure NtlmClient where
  user : Text
  domain : Text
  password : Text
  workstation : Text
  lmResponse : Bytes
  clientChallenge : Bytes
  randomSessionKey : Key
  flags : UInt32

namespace NtlmClient

variable [Crypto]

/-- The server's challenge as CHALLENGE_MESSAGE has it. -/
def serverChallenge (challenge : Bytes) : Bytes := slice challenge 24 8

/-- `NTOWFv2`, of the names as one string. -/
def responseKeyNt (c : NtlmClient) : ByteVec 16 :=
  Crypto.hmacMd5 (Crypto.md4 (utf16le c.password)).val
    (utf16le (Crypto.toUppercase c.user ++ c.domain))

def ntProofStr (c : NtlmClient) (challenge : Bytes) : ByteVec 16 :=
  Crypto.hmacMd5 c.responseKeyNt.val (serverChallenge challenge ++ c.clientChallenge)

/-- For NTLMv2 the session base key. -/
def keyExchangeKey (c : NtlmClient) (challenge : Bytes) : Key :=
  Crypto.hmacMd5 c.responseKeyNt.val (c.ntProofStr challenge).val

def keyExch (c : NtlmClient) : Bool := c.flags &&& NtlmFlags.negotiateKeyExch != 0

def exportedSessionKey (c : NtlmClient) (challenge : Bytes) : Key :=
  if c.keyExch then c.randomSessionKey else c.keyExchangeKey challenge

def encryptedRandomSessionKey (c : NtlmClient) (challenge : Bytes) : Bytes :=
  if c.keyExch then (Crypto.rc4 (c.keyExchangeKey challenge) c.randomSessionKey).val else []

def content (c : NtlmClient) (challenge : Bytes) : AuthField → Bytes
  | .lmResponse => c.lmResponse
  | .ntResponse => (c.ntProofStr challenge).val ++ c.clientChallenge
  | .domainName => utf16le c.domain
  | .userName => utf16le c.user
  | .workstation => utf16le c.workstation
  | .sessionKey => c.encryptedRandomSessionKey challenge

/-- The integrity code of the three messages, computed with a zero code in the last. -/
def mic (c : NtlmClient) (negotiate challenge msg : Bytes) : ByteVec 16 :=
  Crypto.hmacMd5 (c.exportedSessionKey challenge).val
    (negotiate ++ challenge ++ patch msg 72 (ByteVec.zero 16).val)

/-- The AUTHENTICATE messages that the client may send behind a NEGOTIATE and a CHALLENGE. -/
inductive Builds (c : NtlmClient) (negotiate challenge msg : Bytes) : Prop where
  | plain (layout : AuthLayout (c.content challenge) c.flags msg)
      (start : StartsPlain (c.content challenge) msg)
  | withMic (layout : AuthLayout (c.content challenge) c.flags msg)
      (start : StartsBehindMic (c.content challenge) msg)
      (code : slice msg 72 16 = (c.mic negotiate challenge msg).val)

/-- The message without an integrity code, with or without a version. -/
def plainMessage (c : NtlmClient) (challenge : Bytes) (order : List AuthField) (version : Bytes) :
    Bytes :=
  layOut (c.content challenge) c.flags order version

/-- The code is put into the message it has been computed of. -/
def micMessage (c : NtlmClient) (negotiate challenge : Bytes) (order : List AuthField)
    (version : Bytes) : Bytes :=
  let zeroed := layOut (c.content challenge) c.flags order (version ++ (ByteVec.zero 16).val)
  patch zeroed 72 (c.mic negotiate challenge zeroed).val

variable {c : NtlmClient} {negotiate challenge : Bytes} {order : List AuthField} {version : Bytes}

/-- A payload is there: the response to the challenge. -/
theorem ntResponse_nonempty (c : NtlmClient) (challenge : Bytes) :
    c.content challenge .ntResponse ≠ [] := by
  intro empty
  have long := congrArg List.length empty
  simp [content] at long

theorem builds_plainMessage (small : ∀ f, (c.content challenge f).length < 65536)
    (whole : order.Perm AuthField.all) (short : version.length = 0 ∨ version.length = 8) :
    c.Builds negotiate challenge (c.plainMessage challenge order version) :=
  .plain (layOut_layout small whole c.flags version (by omega))
    (layOut_startsPlain small whole c.flags version short
      ⟨.ntResponse, ntResponse_nonempty c challenge⟩)

theorem builds_micMessage (small : ∀ f, (c.content challenge f).length < 65536)
    (whole : order.Perm AuthField.all) (short : version.length = 8) :
    c.Builds negotiate challenge (c.micMessage negotiate challenge order version) := by
  have front : (version ++ (ByteVec.zero 16).val).length = 24 := by simp [short]
  have layout := layOut_layout small whole c.flags _ (Nat.le_of_eq front)
  have start := layOut_startsBehindMic small whole c.flags _ front
  have long : 88 ≤ (layOut (c.content challenge) c.flags order
      (version ++ (ByteVec.zero 16).val)).length := by
    have within := layout.within .ntResponse (ntResponse_nonempty c challenge)
    have behind := start .ntResponse (ntResponse_nonempty c challenge)
    omega
  -- the message with a zero code, which the code is computed of
  rw [micMessage]
  generalize layOut (c.content challenge) c.flags order (version ++ (ByteVec.zero 16).val) = zeroed
    at layout start long ⊢
  have placed (code : ByteVec 16) : slice (patch zeroed 72 code.val) 72 16 = code.val := by
    have there := slice_patch zeroed 72 code.val (by rw [ByteVec.length_val]; omega)
    rw [ByteVec.length_val] at there
    exact there
  refine .withMic (layout.patchMic _ start long) (start.patchMic _ long) ?_
  have covered := patch_patch zeroed 72 (c.mic negotiate challenge zeroed).val
    (ByteVec.zero 16).val (by simp) (by simp; omega)
  have code : c.mic negotiate challenge
      (patch zeroed 72 (c.mic negotiate challenge zeroed).val) =
        c.mic negotiate challenge zeroed := by
    rw [mic, covered, ← mic]
  rw [code, placed]

end NtlmClient

end SmbServer
