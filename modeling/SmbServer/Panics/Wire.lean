import SmbServer.Lib.Risky
import SmbServer.Proto.Header
import SmbServer.Proto.Sign

/-!
# SmbServer.Panics.Wire

Headers, signatures and keys with their panics: every slice, index and copy of `header.rs`,
`sign.rs`, `kdf.rs` and `preauth.rs` may fail here. Each function is followed by the theorem that it
does not, and that its value is the one of the model.

Positions are natural numbers: with a `usize` of 64 bits no sum of a position and a length from the
wire leaves the words. What is written goes to vectors that grow, and an HMAC takes keys of every
length, so the `expect`s on these are of functions without rejects.
-/

namespace SmbServer.Panicking

open Lib Risky RiskyParser

/-! ### Words of a frame -/

/-- The `read_u32` of `dispatch.rs`. -/
def readU32 (buf : Bytes) (offset : Nat) : Risky UInt32 := do
  let bytes ← filled 4 (← range buf offset (offset + 4))
  return u32OfLe bytes.val

/-- The `read_u64` of `dispatch.rs`. -/
def readU64 (buf : Bytes) (offset : Nat) : Risky UInt64 := do
  let bytes ← filled 8 (← range buf offset (offset + 8))
  return u64OfLe bytes.val

theorem readU32_eq {buf : Bytes} {offset : Nat} (inside : offset + 4 ≤ buf.length) :
    readU32 buf offset = .ok (Lib.readU32 buf offset) := by
  have long := length_slice buf offset 4 inside
  rw [readU32, range_slice inside, ok_bind, filled_of_length long, ok_bind,
    ByteVec.ofBytes_val _ long]
  rfl

theorem readU64_eq {buf : Bytes} {offset : Nat} (inside : offset + 8 ≤ buf.length) :
    readU64 buf offset = .ok (Lib.readU64 buf offset) := by
  have long := length_slice buf offset 8 inside
  rw [readU64, range_slice inside, ok_bind, filled_of_length long, ok_bind,
    ByteVec.ofBytes_val _ long]
  rfl

/-! ### Headers -/

namespace Smb2Header

def parseTail (flags : UInt32) (tailBytes : Bytes) : Risky HeaderTail :=
  if hasFlag flags smb2FlagsAsyncCommand then return .async (u64OfLe tailBytes)
  else do
    let reserved ← u32At tailBytes 0
    let treeId ← u32At tailBytes 4
    return .sync reserved treeId

/-- `Smb2Header::parse`. The fields are read from a cursor on the first 64 bytes. -/
def parse (buf : Bytes) : RiskyParser (Smb2Header × Bytes) :=
  if buf.length < smb2HeaderLen then reject
  else do
    let raw ← rangeTo buf smb2HeaderLen
    if slice raw 0 4 ≠ smb2Magic then reject
    else if readU16 raw 4 ≠ 64 then reject
    else
      match Command.fromU16 (readU16 raw 12) with
      | none => reject
      | some command => do
        let tail ← parseTail (Lib.readU32 raw 16) (slice raw 32 8)
        let body ← rangeFrom buf smb2HeaderLen
        return ({ creditCharge := readU16 raw 6
                  channelSequenceStatus := Lib.readU32 raw 8
                  command := command
                  creditRequestResponse := readU16 raw 14
                  flags := Lib.readU32 raw 16
                  nextCommand := Lib.readU32 raw 20
                  messageId := Lib.readU64 raw 24
                  tail := tail
                  sessionId := Lib.readU64 raw 40
                  signature := ByteVec.ofBytes 16 (slice raw 48 16) }, body)

def writeTail : HeaderTail → Risky Bytes
  | .sync reserved treeId => do
    let b ← copyInto (ByteVec.zero 8).val 0 4 (u32le reserved)
    copyInto b 4 8 (u32le treeId)
  | .async asyncId => return u64le asyncId

/-- `Smb2Header::write` -/
def write (h : Smb2Header) : Risky Bytes := do
  let tailBytes ← writeTail h.tail
  return smb2Magic ++ u16le 64 ++ u16le h.creditCharge ++ u32le h.channelSequenceStatus ++
    u16le h.command.asU16 ++ u16le h.creditRequestResponse ++ u32le h.flags ++
    u32le h.nextCommand ++ u64le h.messageId ++ tailBytes ++ u64le h.sessionId ++ h.signature.val

theorem parseTail_eq (flags : UInt32) {tailBytes : Bytes} (long : tailBytes.length = 8) :
    parseTail flags tailBytes = .ok (SmbServer.Smb2Header.parseTail flags tailBytes) := by
  rw [parseTail, SmbServer.Smb2Header.parseTail]
  by_cases async : hasFlag flags smb2FlagsAsyncCommand
  · rw [if_pos async, if_pos async]
    rfl
  · rw [if_neg async, if_neg async, u32At_of_le (by omega), u32At_of_le (by omega)]
    rfl

/-- The words of the header are words of the buffer. -/
theorem parse_eq (buf : Bytes) : parse buf = ofOption (SmbServer.Smb2Header.parse buf) := by
  by_cases short : buf.length < smb2HeaderLen
  · rw [parse, SmbServer.Smb2Header.parse, if_pos short, if_pos short]
    rfl
  have long : smb2HeaderLen ≤ buf.length := Nat.not_lt.mp short
  have len : (buf.take smb2HeaderLen).length = smb2HeaderLen := by
    rw [List.length_take, Nat.min_eq_left long]
  have tail := length_slice (buf.take smb2HeaderLen) 32 8 (by rw [len, smb2HeaderLen]; omega)
  -- parsing the front is parsing the buffer, up to what follows
  have front := SmbServer.Smb2Header.parse_take buf smb2HeaderLen (Nat.le_refl _) long
  rw [SmbServer.Smb2Header.parse, len, if_neg (Nat.lt_irrefl _)] at front
  rw [parse, if_neg short, rangeTo_of_le long, lift_ok_bind]
  cases parsed : SmbServer.Smb2Header.parse buf with
  | none =>
    rw [parsed] at front
    split
    · rfl
    next magic =>
    rw [if_neg magic] at front
    split
    · rfl
    next size =>
    rw [if_neg size] at front
    cases known : Command.fromU16 (readU16 (buf.take smb2HeaderLen) 12) with
    | none => rfl
    | some command => simp [known] at front
  | some parts =>
    obtain ⟨hdr, body⟩ := parts
    have behind : body = buf.drop smb2HeaderLen := by
      rw [SmbServer.Smb2Header.parse, if_neg short] at parsed
      split at parsed
      · cases parsed
      split at parsed
      · cases parsed
      split at parsed
      · cases parsed
      · cases parsed
        rfl
    rw [parsed] at front
    split at front
    · cases front
    next magic =>
    rw [if_neg magic]
    split at front
    · cases front
    next size =>
    rw [if_neg size]
    cases known : Command.fromU16 (readU16 (buf.take smb2HeaderLen) 12) with
    | none => simp [known] at front
    | some command =>
      simp only [known, Option.map_some, Option.some.injEq, Prod.mk.injEq] at front
      simp only [parseTail_eq _ tail, rangeFrom_of_le long, lift_ok_bind, RiskyParser.pure_eq,
        front.1, behind]

theorem writeTail_eq (t : HeaderTail) :
    writeTail t = .ok (SmbServer.Smb2Header.writeTail t) := by
  cases t with
  | async asyncId => rfl
  | sync reserved treeId =>
    have low : copyInto ([] ++ (ByteVec.zero 8).val) 0 4 (u32le reserved) =
        .ok (u32le reserved ++ (ByteVec.zero 8).val.drop 4) :=
      copyInto_behind rfl (by simp) (by simp)
    have high : copyInto (u32le reserved ++ (ByteVec.zero 8).val.drop 4) 4 8 (u32le treeId) =
        .ok (u32le reserved ++ u32le treeId ++ ((ByteVec.zero 8).val.drop 4).drop 4) :=
      copyInto_behind (length_u32le reserved) (by simp) (by simp)
    have whole : ((ByteVec.zero 8).val.drop 4).drop 4 = [] := rfl
    rw [List.nil_append] at low
    rw [writeTail, low, ok_bind, high, whole, List.append_nil]
    rfl

theorem write_eq (h : Smb2Header) : write h = .ok h.write := by
  rw [write, writeTail_eq]
  rfl

end Smb2Header

/-! ### Signatures -/

/-- `Mac::new_from_slice`: an HMAC takes keys of every length, AES-128 those of 16 bytes. -/
def newFromSlice (algo : SigningAlgo) (key : Key) : Option Sign.MacState :=
  match algo with
  | .hmacSha256 => some (.newFromSlice algo key)
  | .aesCmac => (tryInto 16 key.val).map (.newFromSlice algo)

theorem newFromSlice_eq (algo : SigningAlgo) (key : Key) :
    newFromSlice algo key = some (.newFromSlice algo key) := by
  cases algo with
  | hmacSha256 => rfl
  | aesCmac => rw [newFromSlice, tryInto_val, Option.map_some]

section
variable [Crypto]

/-- `compute_mac_zeroed_signature` -/
def computeMacZeroedSignature (msg : Bytes) (key : Key) (algo : SigningAlgo) :
    Risky (ByteVec 16) := do
  let zeroSignature := (ByteVec.zero sigLen).val
  let front ← rangeTo msg sigOff
  let suffix ← rangeFrom msg (sigOff + sigLen)
  let mac ← unwrap (newFromSlice algo key)
  let mac := mac.update front
  let mac := mac.update zeroSignature
  let mac := mac.update suffix
  filled 16 (← rangeTo mac.finalize sigLen)

/-- One round of `constant_time_eq` after the other, from `i` on. -/
def collectDiff (a b : Bytes) (diff : UInt8) (i : Nat) : Nat → Risky UInt8
  | 0 => return diff
  | rounds + 1 => do
    let x ← index a i
    let y ← index b i
    collectDiff a b (diff ||| (x ^^^ y)) (i + 1) rounds

def constantTimeEq (a b : ByteVec 16) : Risky Bool := do
  let diff ← collectDiff a.val b.val 0 0 sigLen
  return diff == 0

/-- `sign`: the result, and what is left in the buffer. -/
def sign (msg : Bytes) (key : Key) (algo : SigningAlgo) :
    Risky (Except Sign.ProtoError Unit × Bytes) :=
  if msg.length < 64 then return (.error (.crypto "message too short to sign"), msg)
  else do
    let mac ← computeMacZeroedSignature msg key algo
    let msg ← copyInto msg sigOff (sigOff + sigLen) mac.val
    return (.ok (), msg)

/-- `verify` -/
def verify (msg : Bytes) (key : Key) (algo : SigningAlgo) :
    Risky (Except Sign.ProtoError Unit) :=
  if msg.length < 64 then return .error (.crypto "message too short to verify")
  else do
    let embedded ← filled 16 (← range msg sigOff (sigOff + sigLen))
    let computed ← computeMacZeroedSignature msg key algo
    if ← constantTimeEq embedded computed then return .ok ()
    else return .error (.crypto "signature mismatch")

/-- A MAC is at least as long as a signature. -/
theorem length_finalize (mac : Sign.MacState) : sigLen ≤ mac.finalize.length := by
  rw [Sign.MacState.finalize]
  split
  · rw [ByteVec.length_val, sigLen]
    omega
  · rw [ByteVec.length_val, sigLen]

theorem computeMacZeroedSignature_eq {msg : Bytes} (long : 64 ≤ msg.length) (key : Key)
    (algo : SigningAlgo) :
    computeMacZeroedSignature msg key algo =
      .ok (SmbServer.computeMacZeroedSignature msg key algo) := by
  have front : sigOff ≤ msg.length := by rw [sigOff]; omega
  have behind : sigOff + sigLen ≤ msg.length := by rw [sigOff, sigLen]; omega
  rw [computeMacZeroedSignature, rangeTo_of_le front, ok_bind, rangeFrom_of_le behind, ok_bind,
    newFromSlice_eq, ← Sign.computeMacZeroedSignature_eq]
  simp only [unwrap, ok_bind]
  have whole := length_finalize (((Sign.MacState.newFromSlice algo key).update
    (msg.take sigOff)).update (ByteVec.zero sigLen).val |>.update (msg.drop (sigOff + sigLen)))
  rw [rangeTo_of_le whole, ok_bind, filled_of_length (by rw [List.length_take_of_le whole, sigLen])]
  rfl

omit [Crypto] in
theorem collectDiff_eq (a b : Bytes) (diff : UInt8) (i rounds : Nat)
    (inside : i + rounds ≤ a.length) (same : a.length = b.length) :
    collectDiff a b diff i rounds =
      .ok ((List.zipWith (· ^^^ ·) ((a.drop i).take rounds) ((b.drop i).take rounds)).foldl
        (· ||| ·) diff) := by
  induction rounds generalizing diff i with
  | zero => rfl
  | succ rounds ih =>
    have first : i < a.length := by omega
    have second : i < b.length := by omega
    rw [collectDiff, index_of_lt first, ok_bind, index_of_lt second, ok_bind, ih _ _ (by omega),
      List.drop_eq_getElem_cons first, List.drop_eq_getElem_cons second]
    rfl

omit [Crypto] in
theorem constantTimeEq_eq (a b : ByteVec 16) :
    constantTimeEq a b = .ok (Sign.constantTimeEq a b) := by
  have whole (v : ByteVec 16) : (v.val.drop 0).take sigLen = v.val :=
    List.take_of_length_le (by rw [List.drop_zero, ByteVec.length_val, sigLen])
  rw [constantTimeEq, collectDiff_eq _ _ _ _ _ (by rw [ByteVec.length_val, sigLen])
    (by rw [ByteVec.length_val, ByteVec.length_val]), whole, whole]
  rfl

theorem sign_eq (msg : Bytes) (key : Key) (algo : SigningAlgo) :
    sign msg key algo = .ok (Sign.sign msg key algo) := by
  rw [sign, Sign.sign]
  by_cases short : msg.length < 64
  · rw [if_pos short, if_pos short]
    rfl
  · have long := Nat.not_lt.mp short
    have room : sigOff + (SmbServer.computeMacZeroedSignature msg key algo).val.length ≤
        msg.length := by
      rw [ByteVec.length_val, sigOff]
      exact long
    have copied := copyInto_patch room
    rw [ByteVec.length_val] at copied
    rw [if_neg short, if_neg short, computeMacZeroedSignature_eq long, ok_bind,
      show sigLen = 16 from rfl, copied, Sign.computeMacZeroedSignature_eq]
    rfl

theorem verify_eq (msg : Bytes) (key : Key) (algo : SigningAlgo) :
    verify msg key algo = .ok (Sign.verify msg key algo) := by
  rw [verify, Sign.verify]
  by_cases short : msg.length < 64
  · rw [if_pos short, if_pos short]
    rfl
  · have long := Nat.not_lt.mp short
    have room : sigOff + sigLen ≤ msg.length := by rw [sigOff, sigLen]; exact long
    have embedded : filled 16 (slice msg sigOff sigLen) =
        .ok (ByteVec.ofBytes 16 (slice msg sigOff sigLen)) :=
      filled_of_length (length_slice msg sigOff sigLen room)
    rw [if_neg short, if_neg short, range_slice room, ok_bind, embedded, ok_bind,
      computeMacZeroedSignature_eq long, ok_bind, constantTimeEq_eq, ok_bind,
      Sign.computeMacZeroedSignature_eq]
    simp only [Risky.pure_eq]
    split <;> rfl

/-! ### Keys and hashes -/

/-- `smb2_kdf` -/
def smb2Kdf (key label context : Bytes) : Risky Key := do
  let full := Crypto.hmacSha256 key ([0, 0, 0, 1] ++ label ++ [0] ++ context ++ [0, 0, 0, 0x80])
  filled 16 (← rangeTo full.val 16)

def signingKey30 (sessionKey : Key) : Risky Key :=
  smb2Kdf sessionKey.val labelAesCmac contextSmbSign

def signingKey311 (sessionKey : Key) (preauthHash : ByteVec 64) : Risky Key :=
  smb2Kdf sessionKey.val labelSigningKey preauthHash.val

/-- `PreauthIntegrity::update` -/
def PreauthIntegrity.update (p : PreauthIntegrity) (frame : Bytes) : Risky PreauthIntegrity :=
  filled 64 (Crypto.sha512 (p.val ++ frame)).val

theorem smb2Kdf_eq (key label context : Bytes) :
    smb2Kdf key label context = .ok (SmbServer.smb2Kdf key label context) := by
  have whole : 16 ≤ (Crypto.hmacSha256 key
      ([0, 0, 0, 1] ++ label ++ [0] ++ context ++ [0, 0, 0, 0x80])).val.length := by
    rw [ByteVec.length_val]
    omega
  rw [smb2Kdf, rangeTo_of_le whole, ok_bind, filled_of_length (List.length_take_of_le whole)]
  rfl

theorem signingKey30_eq (sessionKey : Key) :
    signingKey30 sessionKey = .ok (SmbServer.signingKey30 sessionKey) :=
  smb2Kdf_eq _ _ _

theorem signingKey311_eq (sessionKey : Key) (preauthHash : ByteVec 64) :
    signingKey311 sessionKey preauthHash = .ok (SmbServer.signingKey311 sessionKey preauthHash) :=
  smb2Kdf_eq _ _ _

theorem PreauthIntegrity.update_eq (p : PreauthIntegrity) (frame : Bytes) :
    update p frame = .ok (SmbServer.PreauthIntegrity.update p frame) :=
  filled_val _

end

end SmbServer.Panicking
