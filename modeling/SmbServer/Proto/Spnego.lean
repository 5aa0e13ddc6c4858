import SmbServer.Lib.Bytes

/-!
# SmbServer.Proto.Spnego

The DER subset of `proto/auth/spnego.rs`: lengths, tag-length-value triples, and the two SPNEGO
tokens that SESSION_SETUP exchanges.
-/

namespace SmbServer

open Lib

def tagSequence : UInt8 := 0x30
def tagObject : UInt8 := 0x06
def tagOctet : UInt8 := 0x04
def tagEnumerated : UInt8 := 0x0a
def tagApp0 : UInt8 := 0x60
def tagCtx0 : UInt8 := 0xa0
def tagCtx1 : UInt8 := 0xa1
def tagCtx2 : UInt8 := 0xa2
def tagCtx3 : UInt8 := 0xa3

/-- SPNEGO `1.3.6.1.5.5.2` as OID content. -/
def oidSpnego : Bytes := [0x2b, 0x06, 0x01, 0x05, 0x05, 0x02]

/-- NTLMSSP `1.3.6.1.4.1.311.2.2.10` as OID content. -/
def oidNtlmssp : Bytes := [0x2b, 0x06, 0x01, 0x04, 0x01, 0x82, 0x37, 0x02, 0x02, 0x0a]

inductive NegState where
  | acceptCompleted
  | acceptIncomplete
  | reject
  | requestMic
  deriving DecidableEq, Repr

def NegState.toByte : NegState → UInt8
  | .acceptCompleted => 0
  | .acceptIncomplete => 1
  | .reject => 2
  | .requestMic => 3

def NegState.fromByte (b : UInt8) : Option NegState :=
  if b = 0 then some .acceptCompleted
  else if b = 1 then some .acceptIncomplete
  else if b = 2 then some .reject
  else if b = 3 then some .requestMic
  else none

/-! ### DER lengths and triples -/

/-- The bytes of `n`, most significant first, without leading zeros; eight rounds cover a
64-bit `usize`. -/
def bigEndianBytes : Nat → Nat → Bytes
  | 0, _ => []
  | rounds + 1, n =>
    if n = 0 then [] else bigEndianBytes rounds (n / 256) ++ [UInt8.ofNat (n % 256)]

def derLen (n : Nat) : Bytes :=
  if n < 0x80 then [UInt8.ofNat n]
  else
    let digits := bigEndianBytes 8 n
    UInt8.ofNat (0x80 + digits.length) :: digits

/-- The length at `pos` and the position behind it. -/
def readLen (buf : Bytes) (pos : Nat) : Option (Nat × Nat) := do
  let first ← buf[pos]?
  if first < 0x80 then return (first.toNat, pos + 1)
  let nb := (first &&& 0x7f).toNat
  if nb = 0 ∨ nb > 4 then none
  if pos + 1 + nb > buf.length then none
  return ((slice buf (pos + 1) nb).foldl (fun v b => v * 256 + b.toNat) 0, pos + 1 + nb)

/-- The tag at `pos`, its content and the position behind it. -/
def readAnyTlv (buf : Bytes) (pos : Nat) : Option (UInt8 × Bytes × Nat) := do
  let tag ← buf[pos]?
  let (len, afterLen) ← readLen buf (pos + 1)
  if afterLen + len > buf.length then none
  return (tag, slice buf afterLen len, afterLen + len)

/-- The content at `pos` under the expected tag, and the position behind it. -/
def readTlv (buf : Bytes) (pos : Nat) (expectedTag : UInt8) : Option (Bytes × Nat) := do
  let tag ← buf[pos]?
  if tag ≠ expectedTag then none
  let (len, afterLen) ← readLen buf (pos + 1)
  if afterLen + len > buf.length then none
  return (slice buf afterLen len, afterLen + len)

def writeTlv (tag : UInt8) (content : Bytes) : Bytes := tag :: derLen content.length ++ content

/-! ### Tokens -/

structure NegTokenInit where
  mechTypes : List Bytes
  mechToken : Option Bytes

structure NegTokenResp where
  negState : Option NegState
  supportedMech : Option Bytes
  responseToken : Option Bytes
  mechListMic : Option Bytes
  deriving DecidableEq

/-- The OIDs of a mechanism list, from `pos` on. Every triple is at least two bytes long, so
`fuel` rounds are enough for a list shorter than `fuel`. -/
def mechTypeLoop (fuel : Nat) (seq : Bytes) (pos : Nat) : Option (List Bytes) :=
  match fuel with
  | 0 => none
  | fuel + 1 =>
    if pos < seq.length then do
      let (oid, next) ← readTlv seq pos tagObject
      let rest ← mechTypeLoop fuel seq next
      return oid :: rest
    else some []

def negTokenInitLoop (fuel : Nat) (seq : Bytes) (pos : Nat) (acc : NegTokenInit) :
    Option NegTokenInit :=
  match fuel with
  | 0 => none
  | fuel + 1 =>
    if pos < seq.length then do
      let (tag, content, next) ← readAnyTlv seq pos
      if tag = tagCtx0 then
        let (mtSeq, _) ← readTlv content 0 tagSequence
        let oids ← mechTypeLoop (mtSeq.length + 1) mtSeq 0
        negTokenInitLoop fuel seq next { acc with mechTypes := acc.mechTypes ++ oids }
      else if tag = tagCtx2 then
        let (oct, _) ← readTlv content 0 tagOctet
        negTokenInitLoop fuel seq next { acc with mechToken := some oct }
      else negTokenInitLoop fuel seq next acc
    else some acc

def parseNegTokenInitBody (inner : Bytes) : Option NegTokenInit := do
  let (seqBody, _) ← readTlv inner 0 tagSequence
  negTokenInitLoop (seqBody.length + 1) seqBody 0 ⟨[], none⟩

def decodeInitToken (buf : Bytes) : Option NegTokenInit := do
  let (gssInner, _) ← readTlv buf 0 tagApp0
  let (mech, afterMech) ← readTlv gssInner 0 tagObject
  if mech ≠ oidSpnego then none
  let (initInner, _) ← readTlv gssInner afterMech tagCtx0
  parseNegTokenInitBody initInner

def negTokenRespLoop (fuel : Nat) (seq : Bytes) (pos : Nat) (out : NegTokenResp) :
    Option NegTokenResp :=
  match fuel with
  | 0 => none
  | fuel + 1 =>
    if pos < seq.length then do
      let (tag, content, next) ← readAnyTlv seq pos
      -- the state of the negotiation is a single byte
      if tag = tagCtx0 then
        match ← readTlv content 0 tagEnumerated with
        | ([b], _) =>
          let state ← NegState.fromByte b
          negTokenRespLoop fuel seq next { out with negState := some state }
        | _ => none
      else if tag = tagCtx1 then
        let (oid, _) ← readTlv content 0 tagObject
        negTokenRespLoop fuel seq next { out with supportedMech := some oid }
      else if tag = tagCtx2 then
        let (oct, _) ← readTlv content 0 tagOctet
        negTokenRespLoop fuel seq next { out with responseToken := some oct }
      else if tag = tagCtx3 then
        let (oct, _) ← readTlv content 0 tagOctet
        negTokenRespLoop fuel seq next { out with mechListMic := some oct }
      -- a field with another tag is skipped
      else negTokenRespLoop fuel seq next out
    else some out

def decodeRespToken (buf : Bytes) : Option NegTokenResp := do
  let (respInner, _) ← readTlv buf 0 tagCtx1
  let (seqBody, _) ← readTlv respInner 0 tagSequence
  negTokenRespLoop (seqBody.length + 1) seqBody 0 ⟨none, none, none, none⟩

/-- The `NegTokenInit` the server publishes in NEGOTIATE: NTLMSSP only. -/
def encodeInitResponse : Bytes :=
  let mechTypes := writeTlv tagCtx0 (writeTlv tagSequence (writeTlv tagObject oidNtlmssp))
  let choiceInit := writeTlv tagCtx0 (writeTlv tagSequence mechTypes)
  writeTlv tagApp0 (writeTlv tagObject oidSpnego ++ choiceInit)

/-- An optional field of the response token: `tag` around `inner` around the value. -/
def optionalField (tag inner : UInt8) : Option Bytes → Bytes
  | some value => writeTlv tag (writeTlv inner value)
  | none => []

def encodeRespToken (state : NegState) (supportedMech responseToken mechListMic : Option Bytes) :
    Bytes :=
  let seq := writeTlv tagCtx0 (writeTlv tagEnumerated [state.toByte]) ++
    optionalField tagCtx1 tagObject supportedMech ++
    optionalField tagCtx2 tagOctet responseToken ++
    optionalField tagCtx3 tagOctet mechListMic
  writeTlv tagCtx1 (writeTlv tagSequence seq)

end SmbServer
