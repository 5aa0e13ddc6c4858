import SmbServer.Panics.Wire
import SmbServer.Proto.Spnego

/-!
# SmbServer.Panics.Spnego

The DER reader and writer of `spnego.rs` with their panics.
-/

namespace SmbServer.Panicking

open Lib Risky RiskyParser

/-! ### Lengths and triples -/

/-- The loop of `read_len` over the digits of a long length. -/
def readDigits (buf : Bytes) (pos v : Nat) : Nat → Risky Nat
  | 0 => return v
  | digits + 1 => do
    let b ← index buf pos
    readDigits buf (pos + 1) (v * 256 + b.toNat) digits

/-- `read_len` -/
def readLen (buf : Bytes) (pos : Nat) : RiskyParser (Nat × Nat) :=
  if pos ≥ buf.length then reject
  else do
    let first ← index buf pos
    if first < 0x80 then return (first.toNat, pos + 1)
    else
      let nb := (first &&& 0x7f).toNat
      if nb = 0 ∨ nb > 4 then reject
      else if pos + 1 + nb > buf.length then reject
      else do
        let v ← readDigits buf (pos + 1) 0 nb
        return (v, pos + 1 + nb)

/-- `read_any_tlv` -/
def readAnyTlv (buf : Bytes) (pos : Nat) : RiskyParser (UInt8 × Bytes × Nat) :=
  if pos ≥ buf.length then reject
  else do
    let tag ← index buf pos
    let (len, afterLen) ← readLen buf (pos + 1)
    let stop := afterLen + len
    if stop > buf.length then reject
    else do
      let content ← range buf afterLen stop
      return (tag, content, stop)

/-- `read_tlv` -/
def readTlv (buf : Bytes) (pos : Nat) (expectedTag : UInt8) : RiskyParser (Bytes × Nat) :=
  if pos ≥ buf.length then reject
  else do
    let tag ← index buf pos
    if tag ≠ expectedTag then reject
    else do
      let (len, afterLen) ← readLen buf (pos + 1)
      let stop := afterLen + len
      if stop > buf.length then reject
      else do
        let content ← range buf afterLen stop
        return (content, stop)

theorem readDigits_eq {buf : Bytes} {pos digits : Nat} (inside : pos + digits ≤ buf.length)
    (v : Nat) :
    readDigits buf pos v digits =
      .ok ((slice buf pos digits).foldl (fun v b => v * 256 + b.toNat) v) := by
  induction digits generalizing pos v with
  | zero => rfl
  | succ digits ih =>
    have first : pos < buf.length := by omega
    rw [readDigits, index_of_lt first, ok_bind, ih (by omega), slice, slice,
      List.drop_eq_getElem_cons first]
    rfl

theorem readLen_eq (buf : Bytes) (pos : Nat) :
    readLen buf pos = ofOption (SmbServer.readLen buf pos) := by
  rw [readLen, SmbServer.readLen]
  by_cases past : pos ≥ buf.length
  · rw [if_pos past, List.getElem?_eq_none past]
    rfl
  have inside : pos < buf.length := Nat.lt_of_not_le past
  rw [if_neg past, index_of_lt inside, lift_ok_bind, List.getElem?_eq_getElem inside]
  simp only [Option.bind_eq_bind, Option.bind_some]
  by_cases direct : buf[pos] < 0x80
  · rw [if_pos direct, if_pos direct]
    rfl
  rw [if_neg direct, if_neg direct]
  by_cases form : (buf[pos] &&& 0x7f).toNat = 0 ∨ (buf[pos] &&& 0x7f).toNat > 4
  · rw [if_pos form, if_pos form]
    rfl
  rw [if_neg form, if_neg form]
  by_cases truncated : pos + 1 + (buf[pos] &&& 0x7f).toNat > buf.length
  · rw [if_pos truncated, if_pos truncated]
    rfl
  · rw [if_neg truncated, if_neg truncated, readDigits_eq (Nat.not_lt.mp truncated)]
    rfl

theorem readAnyTlv_eq (buf : Bytes) (pos : Nat) :
    readAnyTlv buf pos = ofOption (SmbServer.readAnyTlv buf pos) := by
  rw [readAnyTlv, SmbServer.readAnyTlv]
  by_cases past : pos ≥ buf.length
  · rw [if_pos past, List.getElem?_eq_none past]
    rfl
  have inside : pos < buf.length := Nat.lt_of_not_le past
  rw [if_neg past, index_of_lt inside, lift_ok_bind, List.getElem?_eq_getElem inside,
    readLen_eq]
  apply ofOption_bind
  rintro ⟨len, afterLen⟩ -
  by_cases truncated : afterLen + len > buf.length
  · simp only [if_pos truncated]
    rfl
  · simp only [if_neg truncated, range_slice (Nat.not_lt.mp truncated)]
    rfl

theorem readTlv_eq (buf : Bytes) (pos : Nat) (expectedTag : UInt8) :
    readTlv buf pos expectedTag = ofOption (SmbServer.readTlv buf pos expectedTag) := by
  rw [readTlv, SmbServer.readTlv]
  by_cases past : pos ≥ buf.length
  · rw [if_pos past, List.getElem?_eq_none past]
    rfl
  have inside : pos < buf.length := Nat.lt_of_not_le past
  rw [if_neg past, index_of_lt inside, lift_ok_bind, List.getElem?_eq_getElem inside]
  simp only [Option.bind_eq_bind, Option.bind_some]
  by_cases other : buf[pos] ≠ expectedTag
  · rw [if_pos other, if_pos other]
    rfl
  rw [if_neg other, if_neg other, readLen_eq]
  apply ofOption_bind
  rintro ⟨len, afterLen⟩ -
  by_cases truncated : afterLen + len > buf.length
  · simp only [if_pos truncated]
    rfl
  · simp only [if_neg truncated, range_slice (Nat.not_lt.mp truncated)]
    rfl

/-! ### Tokens -/

/-- The loop over the mechanism list. -/
def mechTypeLoop (fuel : Nat) (seq : Bytes) (pos : Nat) : RiskyParser (List Bytes) :=
  match fuel with
  | 0 => reject
  | fuel + 1 =>
    if pos < seq.length then do
      let (oid, next) ← readTlv seq pos tagObject
      let rest ← mechTypeLoop fuel seq next
      return oid :: rest
    else return []

def negTokenInitLoop (fuel : Nat) (seq : Bytes) (pos : Nat) (acc : NegTokenInit) :
    RiskyParser NegTokenInit :=
  match fuel with
  | 0 => reject
  | fuel + 1 =>
    if pos < seq.length then do
      let (tag, content, next) ← readAnyTlv seq pos
      if tag = tagCtx0 then do
        let (mtSeq, _) ← readTlv content 0 tagSequence
        let oids ← mechTypeLoop (mtSeq.length + 1) mtSeq 0
        negTokenInitLoop fuel seq next { acc with mechTypes := acc.mechTypes ++ oids }
      else if tag = tagCtx2 then do
        let (oct, _) ← readTlv content 0 tagOctet
        negTokenInitLoop fuel seq next { acc with mechToken := some oct }
      else negTokenInitLoop fuel seq next acc
    else return acc

def parseNegTokenInitBody (inner : Bytes) : RiskyParser NegTokenInit := do
  let (seqBody, _) ← readTlv inner 0 tagSequence
  negTokenInitLoop (seqBody.length + 1) seqBody 0 ⟨[], none⟩

/-- `decode_init_token` -/
def decodeInitToken (buf : Bytes) : RiskyParser NegTokenInit := do
  let (gssInner, _) ← readTlv buf 0 tagApp0
  let (mech, afterMech) ← readTlv gssInner 0 tagObject
  if mech ≠ oidSpnego then reject
  else do
    let (initInner, _) ← readTlv gssInner afterMech tagCtx0
    parseNegTokenInitBody initInner

def negTokenRespLoop (fuel : Nat) (seq : Bytes) (pos : Nat) (out : NegTokenResp) :
    RiskyParser NegTokenResp :=
  match fuel with
  | 0 => reject
  | fuel + 1 =>
    if pos < seq.length then do
      let (tag, content, next) ← readAnyTlv seq pos
      if tag = tagCtx0 then do
        let (en, _) ← readTlv content 0 tagEnumerated
        if en.length ≠ 1 then reject
        else do
          let b ← index en 0
          let state ← ofOption (NegState.fromByte b)
          negTokenRespLoop fuel seq next { out with negState := some state }
      else if tag = tagCtx1 then do
        let (oid, _) ← readTlv content 0 tagObject
        negTokenRespLoop fuel seq next { out with supportedMech := some oid }
      else if tag = tagCtx2 then do
        let (oct, _) ← readTlv content 0 tagOctet
        negTokenRespLoop fuel seq next { out with responseToken := some oct }
      else if tag = tagCtx3 then do
        let (oct, _) ← readTlv content 0 tagOctet
        negTokenRespLoop fuel seq next { out with mechListMic := some oct }
      else negTokenRespLoop fuel seq next out
    else return out

/-- `decode_resp_token` -/
def decodeRespToken (buf : Bytes) : RiskyParser NegTokenResp := do
  let (respInner, _) ← readTlv buf 0 tagCtx1
  let (seqBody, _) ← readTlv respInner 0 tagSequence
  negTokenRespLoop (seqBody.length + 1) seqBody 0 ⟨none, none, none, none⟩

theorem mechTypeLoop_eq (fuel : Nat) (seq : Bytes) (pos : Nat) :
    mechTypeLoop fuel seq pos = ofOption (SmbServer.mechTypeLoop fuel seq pos) := by
  induction fuel generalizing pos with
  | zero => rfl
  | succ fuel ih =>
    rw [mechTypeLoop, SmbServer.mechTypeLoop]
    split
    · rw [readTlv_eq]
      apply ofOption_bind
      rintro ⟨oid, next⟩ -
      simp only [ih]
      exact ofOption_bind fun rest _ => rfl
    · rfl

theorem negTokenInitLoop_eq (fuel : Nat) (seq : Bytes) (pos : Nat) (acc : NegTokenInit) :
    negTokenInitLoop fuel seq pos acc =
      ofOption (SmbServer.negTokenInitLoop fuel seq pos acc) := by
  induction fuel generalizing pos acc with
  | zero => rfl
  | succ fuel ih =>
    rw [negTokenInitLoop, SmbServer.negTokenInitLoop]
    split
    · rw [readAnyTlv_eq]
      apply ofOption_bind
      rintro ⟨tag, content, next⟩ -
      simp only [ih, readTlv_eq, mechTypeLoop_eq]
      split
      · apply ofOption_bind
        rintro ⟨mtSeq, _⟩ -
        exact ofOption_bind fun oids _ => rfl
      split
      · apply ofOption_bind
        rintro ⟨oct, _⟩ -
        rfl
      · rfl
    · rfl

theorem decodeInitToken_eq (buf : Bytes) :
    decodeInitToken buf = ofOption (SmbServer.decodeInitToken buf) := by
  rw [decodeInitToken, SmbServer.decodeInitToken, readTlv_eq]
  apply ofOption_bind
  rintro ⟨gssInner, _⟩ -
  simp only [readTlv_eq]
  apply ofOption_bind
  rintro ⟨mech, afterMech⟩ -
  by_cases other : mech ≠ oidSpnego
  · simp only [if_pos other]
    rfl
  simp only [if_neg other]
  apply ofOption_bind
  rintro ⟨initInner, _⟩ -
  rw [parseNegTokenInitBody, SmbServer.parseNegTokenInitBody, readTlv_eq]
  apply ofOption_bind
  rintro ⟨seqBody, _⟩ -
  exact negTokenInitLoop_eq _ _ _ _

theorem negTokenRespLoop_eq (fuel : Nat) (seq : Bytes) (pos : Nat) (out : NegTokenResp) :
    negTokenRespLoop fuel seq pos out =
      ofOption (SmbServer.negTokenRespLoop fuel seq pos out) := by
  induction fuel generalizing pos out with
  | zero => rfl
  | succ fuel ih =>
    rw [negTokenRespLoop, SmbServer.negTokenRespLoop]
    split
    · rw [readAnyTlv_eq]
      apply ofOption_bind
      rintro ⟨tag, content, next⟩ -
      simp only [ih, readTlv_eq]
      split
      · apply ofOption_bind
        rintro ⟨en, _⟩ -
        -- the byte of the state is the only one
        cases en with
        | nil => rfl
        | cons b rest =>
          cases rest with
          | nil => exact ofOption_bind fun state _ => rfl
          | cons => rfl
      split
      · apply ofOption_bind
        rintro ⟨oid, _⟩ -
        rfl
      split
      · apply ofOption_bind
        rintro ⟨oct, _⟩ -
        rfl
      split
      · apply ofOption_bind
        rintro ⟨oct, _⟩ -
        rfl
      · rfl
    · rfl

theorem decodeRespToken_eq (buf : Bytes) :
    decodeRespToken buf = ofOption (SmbServer.decodeRespToken buf) := by
  rw [decodeRespToken, SmbServer.decodeRespToken, readTlv_eq]
  apply ofOption_bind
  rintro ⟨respInner, _⟩ -
  simp only [readTlv_eq]
  apply ofOption_bind
  rintro ⟨seqBody, _⟩ -
  exact negTokenRespLoop_eq _ _ _ _

/-! ### Writing lengths -/

/-- The first loop of `der_len`: the digits of `v` go to `tmp`, the lowest first. The result are the
digits and their number. -/
def derDigits (tmp : Bytes) (nb v : Nat) : Nat → Risky (Bytes × Nat)
  | 0 => return (tmp, nb)
  | rounds + 1 =>
    if v > 0 then do
      let tmp ← assign tmp nb (UInt8.ofNat (v % 256))
      derDigits tmp (nb + 1) (v / 256) rounds
    else return (tmp, nb)

/-- The second loop, which pushes them in reverse. -/
def pushDigits (tmp : Bytes) : Nat → Risky Bytes
  | 0 => return []
  | nb + 1 => do
    let b ← index tmp nb
    let rest ← pushDigits tmp nb
    return b :: rest

/-- `der_len`: the argument is a `usize` of 64 bits. A digit less remains in every round, so that
`n` rounds are enough. -/
def derLen (n : UInt64) : Risky Bytes :=
  if n.toNat < 0x80 then return [UInt8.ofNat n.toNat]
  else do
    let (tmp, nb) ← derDigits (ByteVec.zero 8).val 0 n.toNat n.toNat
    let digits ← pushDigits tmp nb
    return UInt8.ofNat (0x80 + nb) :: digits

/-- The digits of `v`, the lowest first. -/
def littleEndian : Nat → Nat → Bytes
  | 0, _ => []
  | rounds + 1, v => if v = 0 then [] else UInt8.ofNat (v % 256) :: littleEndian rounds (v / 256)

theorem bigEndianBytes_eq (rounds v : Nat) :
    bigEndianBytes rounds v = (littleEndian rounds v).reverse := by
  induction rounds generalizing v with
  | zero => rfl
  | succ rounds ih =>
    rw [bigEndianBytes, littleEndian]
    split
    · rfl
    · rw [ih, List.reverse_cons]

/-- With room for as many digits as `v` can have, they are written behind those in front. -/
theorem derDigits_eq (room : Nat) (front : Bytes) (v rounds : Nat) (fits : v < 256 ^ room)
    (enough : v ≤ rounds) :
    derDigits (front ++ List.replicate room 0) front.length v rounds =
      .ok (front ++ littleEndian room v ++
          List.replicate (room - (littleEndian room v).length) 0,
        front.length + (littleEndian room v).length) := by
  induction room generalizing front v rounds with
  | zero =>
    have none : v = 0 := by simpa using fits
    subst none
    cases rounds <;> simp [derDigits, littleEndian]
  | succ room ih =>
    rw [littleEndian]
    by_cases done : v = 0
    · subst done
      cases rounds <;> simp [derDigits]
    obtain ⟨rounds, rfl⟩ : ∃ r, rounds = r + 1 := ⟨rounds - 1, by omega⟩
    have inside : front.length < (front ++ List.replicate (room + 1) 0).length := by simp
    have written : (front ++ List.replicate (room + 1) 0).set front.length
        (UInt8.ofNat (v % 256)) =
        (front ++ [UInt8.ofNat (v % 256)]) ++ List.replicate room 0 := by
      rw [List.set_append_right _ _ (Nat.le_refl _), Nat.sub_self, List.replicate_succ,
        List.set_cons_zero, List.append_assoc]
      rfl
    have less : v / 256 < 256 ^ room := by
      rw [pow_succ] at fits
      exact Nat.div_lt_of_lt_mul (by rwa [Nat.mul_comm])
    have later := ih (front ++ [UInt8.ofNat (v % 256)]) (v / 256) rounds less (by omega)
    rw [List.length_append, List.length_singleton] at later
    rw [derDigits, if_pos (Nat.pos_of_ne_zero done), assign_of_lt inside, ok_bind, written, later,
      if_neg done, List.length_cons, Nat.add_sub_add_right, Nat.add_assoc, Nat.add_comm 1]
    simp only [List.append_assoc, List.cons_append, List.nil_append]

theorem pushDigits_eq (tmp : Bytes) (nb : Nat) (inside : nb ≤ tmp.length) :
    pushDigits tmp nb = .ok (tmp.take nb).reverse := by
  induction nb with
  | zero => rfl
  | succ nb ih =>
    have here : nb < tmp.length := inside
    rw [pushDigits, index_of_lt here, ok_bind, ih (Nat.le_of_lt here),
      List.take_succ_eq_append_getElem here, List.reverse_append]
    rfl

/-- Eight digits are enough for a `usize`. -/
theorem derLen_eq (n : UInt64) : derLen n = .ok (SmbServer.derLen n.toNat) := by
  rw [derLen, SmbServer.derLen]
  by_cases short : n.toNat < 0x80
  · rw [if_pos short, if_pos short]
    rfl
  have fits : n.toNat < 256 ^ 8 := n.toNat_lt
  have digits := derDigits_eq 8 [] n.toNat n.toNat fits (Nat.le_refl _)
  have zeros : (ByteVec.zero 8).val = [] ++ List.replicate 8 0 := rfl
  rw [if_neg short, if_neg short, zeros, ← List.length_nil (α := UInt8), digits, ok_bind]
  simp only [List.nil_append, List.length_nil, Nat.zero_add]
  rw [pushDigits_eq _ _ (by simp), ok_bind, List.take_left, bigEndianBytes_eq, List.length_reverse]
  rfl

end SmbServer.Panicking
