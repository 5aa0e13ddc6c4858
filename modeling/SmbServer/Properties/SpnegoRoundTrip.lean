import SmbServer.Proto.Spnego

/-!
# SmbServer.Properties.SpnegoRoundTrip

The two SPNEGO tokens and the DER triples that they are built of.

## Main result

`spnego_roundTrip`: a response token is decoded to the values that it was encoded from, and an
initial token to its mechanisms and its mechToken, when the encoding is shorter than 2^32 bytes.

## Proof strategy

`readLen_derLen` reads a length of at most four digits wherever it stands; `readAnyTlv_writeTlv` and
`readTlv_writeTlv` lift that to triples in front of anything. Each loop then goes from the start of a
triple to its end, by induction over a list of mechanisms and field by field over a token.
-/

namespace SmbServer

open Lib

/-! ### Lengths -/

/-- The number that a length in the long form stands for. -/
theorem foldl_bigEndianBytes (rounds n : Nat) (small : n < 256 ^ rounds) :
    (bigEndianBytes rounds n).foldl (fun v b => v * 256 + b.toNat) 0 = n := by
  induction rounds generalizing n with
  | zero =>
    obtain rfl : n = 0 := by rw [pow_zero] at small; omega
    rfl
  | succ rounds ih =>
    rw [bigEndianBytes]
    split
    next zero => rw [zero, List.foldl_nil]
    next nonzero =>
      rw [pow_succ] at small
      rw [List.foldl_append, ih (n / 256) (by omega), List.foldl_cons, List.foldl_nil,
        UInt8.toNat_ofNat', Nat.mod_eq_of_lt (a := n % 256) (Nat.mod_lt n (by decide))]
      omega

/-- No more digits than the number needs. -/
theorem length_bigEndianBytes_le_digits (rounds digits n : Nat) (small : n < 256 ^ digits) :
    (bigEndianBytes rounds n).length ≤ digits := by
  induction rounds generalizing digits n with
  | zero => exact Nat.zero_le _
  | succ rounds ih =>
    rw [bigEndianBytes]
    split
    · exact Nat.zero_le _
    next nonzero =>
      cases digits with
      | zero => rw [pow_zero] at small; omega
      | succ digits =>
        rw [pow_succ] at small
        have fewer := ih digits (n / 256) (by omega)
        rw [List.length_append, List.length_singleton]
        omega

theorem length_bigEndianBytes_pos (rounds : Nat) {n : Nat} (nonzero : n ≠ 0) :
    0 < (bigEndianBytes (rounds + 1) n).length := by
  rw [bigEndianBytes, if_neg nonzero, List.length_append, List.length_singleton]
  omega

/-- The first byte of the long form holds the number of digits. -/
theorem firstByte_long {digits : Nat} (some : 0 < digits) (few : digits ≤ 4) :
    ¬UInt8.ofNat (0x80 + digits) < 0x80 ∧
      (UInt8.ofNat (0x80 + digits) &&& 0x7f).toNat = digits := by
  have which : digits = 1 ∨ digits = 2 ∨ digits = 3 ∨ digits = 4 := by omega
  rcases which with rfl | rfl | rfl | rfl <;> decide

theorem readLen_derLen (before behind : Bytes) {n : Nat} (short : n < 2 ^ 32) :
    readLen (before ++ (derLen n ++ behind)) before.length =
      some (n, before.length + (derLen n).length) := by
  by_cases direct : n < 0x80
  · -- the short form: the length is the byte
    have first : (before ++ (derLen n ++ behind))[before.length]? = some (UInt8.ofNat n) := by
      rw [List.getElem?_append_right (Nat.le_refl _), Nat.sub_self, derLen, if_pos direct]
      rfl
    have value : (UInt8.ofNat n).toNat = n := by
      rw [UInt8.toNat_ofNat', Nat.mod_eq_of_lt (by omega)]
    have small : UInt8.ofNat n < 0x80 := by
      rw [UInt8.lt_iff_toNat_lt, value]
      exact direct
    rw [readLen, first]
    simp only [Option.bind_eq_bind, Option.bind_some, if_pos small]
    rw [value, derLen, if_pos direct]
    rfl
  · -- the long form: the number of digits, then the digits
    have digits : derLen n = UInt8.ofNat (0x80 + (bigEndianBytes 8 n).length) ::
        bigEndianBytes 8 n := by rw [derLen, if_neg direct]
    have few : (bigEndianBytes 8 n).length ≤ 4 :=
      length_bigEndianBytes_le_digits 8 4 n (by omega)
    have some : 0 < (bigEndianBytes 8 n).length := length_bigEndianBytes_pos 7 (by omega)
    obtain ⟨long, count⟩ := firstByte_long some few
    have first : (before ++ (derLen n ++ behind))[before.length]? =
        Option.some (UInt8.ofNat (0x80 + (bigEndianBytes 8 n).length)) := by
      rw [List.getElem?_append_right (Nat.le_refl _), Nat.sub_self, digits]
      rfl
    have room : ¬before.length + 1 + (bigEndianBytes 8 n).length >
        (before ++ (derLen n ++ behind)).length := by
      rw [digits, List.length_append, List.length_append, List.length_cons]
      omega
    have between : slice (before ++ (derLen n ++ behind)) (before.length + 1)
        (bigEndianBytes 8 n).length = bigEndianBytes 8 n := by
      have middle := slice_between (before ++ [UInt8.ofNat (0x80 + (bigEndianBytes 8 n).length)])
        (bigEndianBytes 8 n) behind (before.length + 1) _ (by simp) rfl
      rw [digits]
      rwa [List.append_assoc] at middle
    have counted : ¬((bigEndianBytes 8 n).length = 0 ∨ (bigEndianBytes 8 n).length > 4) := by omega
    rw [readLen, first]
    simp only [Option.bind_eq_bind, Option.bind_some, if_neg long, count, if_neg counted,
      if_neg room, between]
    rw [foldl_bigEndianBytes 8 n (by omega), digits, List.length_cons]
    congr 2
    omega

/-! ### Triples -/

theorem length_derLen_pos (n : Nat) : 0 < (derLen n).length := by
  rw [derLen]
  split
  · exact Nat.one_pos
  · exact Nat.succ_pos _

theorem length_writeTlv (tag : UInt8) (content : Bytes) :
    (writeTlv tag content).length = 1 + (derLen content.length).length + content.length := by
  rw [writeTlv, List.length_append, List.length_cons]
  omega

/-- A triple is read in front of anything. -/
theorem readAnyTlv_writeTlv (before behind : Bytes) (tag : UInt8) {content : Bytes}
    (short : content.length < 2 ^ 32) :
    readAnyTlv (before ++ (writeTlv tag content ++ behind)) before.length =
      some (tag, content, before.length + (writeTlv tag content).length) := by
  have first : (before ++ (writeTlv tag content ++ behind))[before.length]? = some tag := by
    rw [List.getElem?_append_right (Nat.le_refl _), Nat.sub_self, writeTlv]
    rfl
  -- the tag, the length, and the content with what follows
  have shape : before ++ (writeTlv tag content ++ behind) =
      (before ++ [tag]) ++ (derLen content.length ++ (content ++ behind)) := by
    rw [writeTlv]
    simp only [List.append_assoc, List.cons_append, List.nil_append]
  have measured := readLen_derLen (before ++ [tag]) (content ++ behind) short
  rw [← shape, List.length_append, List.length_singleton] at measured
  have there : slice (before ++ (writeTlv tag content ++ behind))
      (before.length + 1 + (derLen content.length).length) content.length = content := by
    rw [shape, ← List.append_assoc]
    apply slice_between
    · simp only [List.length_append, List.length_singleton]
    · rfl
  have room : ¬before.length + 1 + (derLen content.length).length + content.length >
      (before ++ (writeTlv tag content ++ behind)).length := by
    rw [List.length_append, List.length_append, length_writeTlv]
    omega
  rw [readAnyTlv, first]
  simp only [Option.bind_eq_bind, Option.bind_some, measured, if_neg room, there]
  rw [length_writeTlv]
  congr 3
  omega

/-- Reading under an expected tag is reading with a check of the tag. -/
theorem readTlv_of_readAnyTlv {buf : Bytes} {pos next : Nat} {tag : UInt8} {content : Bytes}
    (read : readAnyTlv buf pos = some (tag, content, next)) :
    readTlv buf pos tag = some (content, next) := by
  rw [readAnyTlv] at read
  rw [readTlv]
  simp only [Option.bind_eq_bind] at read ⊢
  obtain ⟨first, here, read⟩ := Option.bind_eq_some_iff.mp read
  obtain ⟨⟨len, afterLen⟩, measured, read⟩ := Option.bind_eq_some_iff.mp read
  simp only at read
  split at read
  · cases read
  next room =>
  cases read
  have same : ¬tag ≠ tag := not_not_intro rfl
  rw [here, Option.bind_some, if_neg same, measured, Option.bind_some]
  exact if_neg room

theorem readTlv_writeTlv (before behind : Bytes) (tag : UInt8) {content : Bytes}
    (short : content.length < 2 ^ 32) :
    readTlv (before ++ (writeTlv tag content ++ behind)) before.length tag =
      some (content, before.length + (writeTlv tag content).length) :=
  readTlv_of_readAnyTlv (readAnyTlv_writeTlv before behind tag short)

/-- A triple that is all there is. -/
theorem readTlv_whole (tag : UInt8) {content : Bytes} (short : content.length < 2 ^ 32) :
    readTlv (writeTlv tag content) 0 tag = some (content, (writeTlv tag content).length) := by
  have read := readTlv_writeTlv [] [] tag short
  rwa [List.nil_append, List.append_nil, List.length_nil, Nat.zero_add] at read

theorem length_content_le (tag : UInt8) (content : Bytes) :
    content.length + 2 ≤ (writeTlv tag content).length := by
  have measure := length_derLen_pos content.length
  rw [length_writeTlv]
  omega

/-! ### Lists of mechanisms -/

/-- `MechTypeList`: the content of a sequence of OIDs. -/
def encodeMechTypes (mechTypes : List Bytes) : Bytes := mechTypes.flatMap (writeTlv tagObject)

theorem length_le_encodeMechTypes (mechTypes : List Bytes) :
    mechTypes.length ≤ (encodeMechTypes mechTypes).length := by
  induction mechTypes with
  | nil => exact Nat.le_refl 0
  | cons oid rest ih =>
    have long := length_content_le tagObject oid
    rw [encodeMechTypes] at ih
    rw [encodeMechTypes, List.flatMap_cons, List.length_append, List.length_cons]
    omega

/-- The loop over the OIDs, from the start of any of them. -/
theorem mechTypeLoop_encode (mechTypes : List Bytes) (before : Bytes)
    (short : (encodeMechTypes mechTypes).length < 2 ^ 32) (fuel : Nat)
    (enough : mechTypes.length < fuel) :
    mechTypeLoop fuel (before ++ encodeMechTypes mechTypes) before.length = some mechTypes := by
  induction mechTypes generalizing before fuel with
  | nil =>
    obtain ⟨fuel, rfl⟩ : ∃ n, fuel = n + 1 := ⟨fuel - 1, by omega⟩
    rw [encodeMechTypes, List.flatMap_nil, List.append_nil, mechTypeLoop, if_neg (Nat.lt_irrefl _)]
  | cons oid rest ih =>
    obtain ⟨fuel, rfl⟩ : ∃ n, fuel = n + 1 := ⟨fuel - 1, by omega⟩
    have shape : encodeMechTypes (oid :: rest) =
        writeTlv tagObject oid ++ encodeMechTypes rest := List.flatMap_cons
    have long := length_content_le tagObject oid
    rw [shape, List.length_append] at short
    have small : oid.length < 2 ^ 32 := by omega
    have read := readTlv_writeTlv before (encodeMechTypes rest) tagObject small
    have more : before.length < (before ++ (writeTlv tagObject oid ++ encodeMechTypes rest)).length := by
      rw [List.length_append, List.length_append]
      omega
    -- the next OID begins where this one ends
    have later := ih (before ++ writeTlv tagObject oid) (by omega) fuel
      (by rw [List.length_cons] at enough; omega)
    rw [List.append_assoc, List.length_append] at later
    rw [shape, mechTypeLoop, if_pos more]
    simp only [Option.bind_eq_bind, read, Option.bind_some, later]
    rfl

/-! ### Fields of a token -/

/-- The loops over the fields of a token: `tag` around `inner` around a value is read into the
record. -/
def ReadsField {α : Type} (loop : Nat → Bytes → Nat → α → Option α) (tag inner : UInt8)
    (set : Option Bytes → α → α) : Prop :=
  ∀ fuel seq pos out content value next after, pos < seq.length →
    readAnyTlv seq pos = some (tag, content, next) →
    readTlv content 0 inner = some (value, after) →
    loop (fuel + 1) seq pos out = loop fuel seq next (set (some value) out)

/-- An optional field takes the loop from its start to its end. -/
theorem ReadsField.step {α : Type} {loop : Nat → Bytes → Nat → α → Option α} {tag inner : UInt8}
    {set : Option Bytes → α → α} (reads : ReadsField loop tag inner set) {seq : Bytes}
    (before behind : Bytes) (value : Option Bytes)
    (shape : seq = before ++ (optionalField tag inner value ++ behind))
    (short : seq.length < 2 ^ 32) (fuel : Nat) (enough : seq.length < before.length + fuel)
    (out : α) (fresh : set none out = out) :
    ∃ left, seq.length < (before ++ optionalField tag inner value).length + left ∧
      loop fuel seq before.length out =
        loop left seq (before ++ optionalField tag inner value).length (set value out) := by
  subst shape
  cases value with
  -- a field that is left out takes no step of the loop and no byte
  | none =>
    rw [optionalField, List.append_nil, fresh]
    exact ⟨fuel, enough, rfl⟩
  | some value =>
    rw [optionalField] at short enough ⊢
    have outer := length_content_le tag (writeTlv inner value)
    have nested := length_content_le inner value
    simp only [List.length_append] at short enough
    obtain ⟨fuel, rfl⟩ : ∃ n, fuel = n + 1 := ⟨fuel - 1, by omega⟩
    -- the field is nested in two tags, and both lengths stay within what a length can say
    have more : before.length <
        (before ++ (writeTlv tag (writeTlv inner value) ++ behind)).length := by
      rw [List.length_append, List.length_append]
      omega
    have smallOuter : (writeTlv inner value).length < 2 ^ 32 := by omega
    have smallInner : value.length < 2 ^ 32 := by omega
    have read := readAnyTlv_writeTlv before behind tag smallOuter
    have content := readTlv_whole inner smallInner
    refine ⟨fuel, ?_, ?_⟩
    · simp only [List.length_append]
      omega
    · rw [reads fuel _ _ out _ _ _ _ more read content, List.length_append]

/-! ### The response token -/

theorem negTokenRespLoop_end (seq : Bytes) {fuel : Nat} (some : 0 < fuel) (out : NegTokenResp) :
    negTokenRespLoop fuel seq seq.length out = Option.some out := by
  obtain ⟨fuel, rfl⟩ : ∃ n, fuel = n + 1 := ⟨fuel - 1, by omega⟩
  rw [negTokenRespLoop, if_neg (Nat.lt_irrefl _)]

theorem NegState.fromByte_toByte (state : NegState) : fromByte state.toByte = some state := by
  cases state <;> rfl

/-- The state is the first field. -/
theorem negTokenRespLoop_state (state : NegState) (behind : Bytes) (fuel : Nat)
    (out : NegTokenResp) :
    negTokenRespLoop (fuel + 1)
      (writeTlv tagCtx0 (writeTlv tagEnumerated [state.toByte]) ++ behind) 0 out =
    negTokenRespLoop fuel (writeTlv tagCtx0 (writeTlv tagEnumerated [state.toByte]) ++ behind)
      (writeTlv tagCtx0 (writeTlv tagEnumerated [state.toByte])).length
      { out with negState := some state } := by
  have small : (writeTlv tagEnumerated [state.toByte]).length = 3 := rfl
  have read := readAnyTlv_writeTlv [] behind tagCtx0 (small.trans_lt (by decide))
  have content := readTlv_whole tagEnumerated
    ((List.length_singleton (a := state.toByte)).trans_lt (by decide))
  rw [List.nil_append, List.length_nil, Nat.zero_add] at read
  have more : 0 < (writeTlv tagCtx0 (writeTlv tagEnumerated [state.toByte]) ++ behind).length := by
    rw [List.length_append, length_writeTlv]
    omega
  rw [negTokenRespLoop, if_pos more]
  simp only [Option.bind_eq_bind, read, Option.bind_some, content, NegState.fromByte_toByte]
  rw [if_pos trivial]

theorem readsField_supportedMech : ReadsField negTokenRespLoop tagCtx1 tagObject
    fun value out => { out with supportedMech := value } := by
  intro fuel seq pos out content value next after more read inner
  rw [negTokenRespLoop, if_pos more]
  simp only [Option.bind_eq_bind, read, Option.bind_some, inner]
  rw [if_neg (by decide), if_pos trivial]

theorem readsField_responseToken : ReadsField negTokenRespLoop tagCtx2 tagOctet
    fun value out => { out with responseToken := value } := by
  intro fuel seq pos out content value next after more read inner
  rw [negTokenRespLoop, if_pos more]
  simp only [Option.bind_eq_bind, read, Option.bind_some, inner]
  rw [if_neg (by decide), if_neg (by decide), if_pos trivial]

theorem readsField_mechListMic : ReadsField negTokenRespLoop tagCtx3 tagOctet
    fun value out => { out with mechListMic := value } := by
  intro fuel seq pos out content value next after more read inner
  rw [negTokenRespLoop, if_pos more]
  simp only [Option.bind_eq_bind, read, Option.bind_some, inner]
  rw [if_neg (by decide), if_neg (by decide), if_neg (by decide), if_pos trivial]

/-- The loop reads all fields of a response token. -/
theorem negTokenRespLoop_fields (state : NegState)
    (supportedMech responseToken mechListMic : Option Bytes) {seq : Bytes}
    (fields : seq = writeTlv tagCtx0 (writeTlv tagEnumerated [state.toByte]) ++
      (optionalField tagCtx1 tagObject supportedMech ++
        (optionalField tagCtx2 tagOctet responseToken ++
          optionalField tagCtx3 tagOctet mechListMic)))
    (short : seq.length < 2 ^ 32) :
    negTokenRespLoop (seq.length + 1) seq 0 ⟨none, none, none, none⟩ =
      some ⟨some state, supportedMech, responseToken, mechListMic⟩ := by
  have first := negTokenRespLoop_state state (optionalField tagCtx1 tagObject supportedMech ++
    (optionalField tagCtx2 tagOctet responseToken ++ optionalField tagCtx3 tagOctet mechListMic))
    seq.length ⟨none, none, none, none⟩
  have size : (writeTlv tagCtx0 (writeTlv tagEnumerated [state.toByte])).length = 5 := rfl
  rw [← fields] at first
  generalize writeTlv tagCtx0 (writeTlv tagEnumerated [state.toByte]) = stateField at *
  -- every field starts where the one before it ends
  obtain ⟨fuel₁, enough₁, second⟩ := readsField_supportedMech.step stateField _ supportedMech fields
    short seq.length (by omega) ⟨some state, none, none, none⟩ rfl
  obtain ⟨fuel₂, enough₂, third⟩ := readsField_responseToken.step
    (stateField ++ optionalField tagCtx1 tagObject supportedMech) _ responseToken
    (by rw [fields, List.append_assoc]) short fuel₁ enough₁
    ⟨some state, supportedMech, none, none⟩ rfl
  obtain ⟨fuel₃, enough₃, fourth⟩ := readsField_mechListMic.step
    (stateField ++ optionalField tagCtx1 tagObject supportedMech ++
      optionalField tagCtx2 tagOctet responseToken) [] mechListMic
    (by simp only [fields, List.append_assoc, List.append_nil]) short fuel₂ enough₂
    ⟨some state, supportedMech, responseToken, none⟩ rfl
  have whole : (stateField ++ optionalField tagCtx1 tagObject supportedMech ++
      optionalField tagCtx2 tagOctet responseToken ++
      optionalField tagCtx3 tagOctet mechListMic).length = seq.length := by
    simp only [fields, List.append_assoc]
  rw [whole] at enough₃ fourth
  rw [first, second, third, fourth]
  exact negTokenRespLoop_end seq (by omega) _

theorem decodeRespToken_encodeRespToken (state : NegState)
    (supportedMech responseToken mechListMic : Option Bytes)
    (short : (encodeRespToken state supportedMech responseToken mechListMic).length < 2 ^ 32) :
    decodeRespToken (encodeRespToken state supportedMech responseToken mechListMic) =
      some ⟨some state, supportedMech, responseToken, mechListMic⟩ := by
  rw [encodeRespToken] at short ⊢
  simp only [List.append_assoc] at short ⊢
  generalize shape : writeTlv tagCtx0 (writeTlv tagEnumerated [state.toByte]) ++
    (optionalField tagCtx1 tagObject supportedMech ++
      (optionalField tagCtx2 tagOctet responseToken ++
        optionalField tagCtx3 tagOctet mechListMic)) = seq at short ⊢
  have outer := length_content_le tagCtx1 (writeTlv tagSequence seq)
  have nested := length_content_le tagSequence seq
  have smallOuter : (writeTlv tagSequence seq).length < 2 ^ 32 := by omega
  have smallInner : seq.length < 2 ^ 32 := by omega
  rw [decodeRespToken]
  simp only [Option.bind_eq_bind, readTlv_whole tagCtx1 smallOuter, Option.bind_some,
    readTlv_whole tagSequence smallInner]
  exact negTokenRespLoop_fields state supportedMech responseToken mechListMic shape.symm smallInner

/-! ### The initial token -/

/-- A `NegTokenInit` of mechanisms and, if given, a mechToken. -/
def encodeInitToken (mechTypes : List Bytes) (mechToken : Option Bytes) : Bytes :=
  let mechTypesCtx0 := writeTlv tagCtx0 (writeTlv tagSequence (encodeMechTypes mechTypes))
  let seq := mechTypesCtx0 ++ optionalField tagCtx2 tagOctet mechToken
  let choice := writeTlv tagCtx0 (writeTlv tagSequence seq)
  writeTlv tagApp0 (writeTlv tagObject oidSpnego ++ choice)

theorem readsField_mechToken : ReadsField negTokenInitLoop tagCtx2 tagOctet
    fun value acc => { acc with mechToken := value } := by
  intro fuel seq pos acc content value next after more read inner
  rw [negTokenInitLoop, if_pos more]
  simp only [Option.bind_eq_bind, read, Option.bind_some, inner]
  rw [if_neg (by decide), if_pos trivial]

theorem negTokenInitLoop_end (seq : Bytes) {fuel : Nat} (some : 0 < fuel) (acc : NegTokenInit) :
    negTokenInitLoop fuel seq seq.length acc = Option.some acc := by
  obtain ⟨fuel, rfl⟩ : ∃ n, fuel = n + 1 := ⟨fuel - 1, by omega⟩
  rw [negTokenInitLoop, if_neg (Nat.lt_irrefl _)]

/-- The mechanisms are the first field. -/
theorem negTokenInitLoop_mechTypes (mechTypes : List Bytes) (behind : Bytes) (fuel : Nat)
    (short : (writeTlv tagSequence (encodeMechTypes mechTypes)).length < 2 ^ 32)
    (acc : NegTokenInit) :
    negTokenInitLoop (fuel + 1)
      (writeTlv tagCtx0 (writeTlv tagSequence (encodeMechTypes mechTypes)) ++ behind) 0 acc =
    negTokenInitLoop fuel
      (writeTlv tagCtx0 (writeTlv tagSequence (encodeMechTypes mechTypes)) ++ behind)
      (writeTlv tagCtx0 (writeTlv tagSequence (encodeMechTypes mechTypes))).length
      { acc with mechTypes := acc.mechTypes ++ mechTypes } := by
  have nested := length_content_le tagSequence (encodeMechTypes mechTypes)
  have small : (encodeMechTypes mechTypes).length < 2 ^ 32 := by omega
  have read := readAnyTlv_writeTlv [] behind tagCtx0 short
  have content := readTlv_whole tagSequence small
  -- the sequence inside is read to its end by the inner loop
  have mechanisms := mechTypeLoop_encode mechTypes [] small
    ((encodeMechTypes mechTypes).length + 1)
    (Nat.lt_succ_of_le (length_le_encodeMechTypes mechTypes))
  rw [List.nil_append, List.length_nil] at mechanisms
  rw [List.nil_append, List.length_nil, Nat.zero_add] at read
  have more : 0 < (writeTlv tagCtx0 (writeTlv tagSequence (encodeMechTypes mechTypes)) ++
      behind).length := by
    rw [List.length_append, length_writeTlv]
    omega
  rw [negTokenInitLoop, if_pos more]
  simp only [Option.bind_eq_bind, read, Option.bind_some, content, mechanisms]
  rw [if_pos trivial]

theorem negTokenInitLoop_fields (mechTypes : List Bytes) (mechToken : Option Bytes) {seq : Bytes}
    (fields : seq = writeTlv tagCtx0 (writeTlv tagSequence (encodeMechTypes mechTypes)) ++
      optionalField tagCtx2 tagOctet mechToken)
    (short : seq.length < 2 ^ 32) :
    negTokenInitLoop (seq.length + 1) seq 0 ⟨[], none⟩ = some ⟨mechTypes, mechToken⟩ := by
  have outer := length_content_le tagCtx0 (writeTlv tagSequence (encodeMechTypes mechTypes))
  have size := congrArg List.length fields
  rw [List.length_append] at size
  have first := negTokenInitLoop_mechTypes mechTypes (optionalField tagCtx2 tagOctet mechToken)
    seq.length (by omega) ⟨[], none⟩
  rw [← fields, List.nil_append] at first
  obtain ⟨fuel, enough, second⟩ := readsField_mechToken.step
    (writeTlv tagCtx0 (writeTlv tagSequence (encodeMechTypes mechTypes))) [] mechToken
    (by rw [fields, List.append_nil]) short seq.length (by omega) ⟨mechTypes, none⟩ rfl
  rw [← fields] at enough second
  rw [first, second]
  exact negTokenInitLoop_end seq (by omega) _

theorem decodeInitToken_encodeInitToken (mechTypes : List Bytes) (mechToken : Option Bytes)
    (short : (encodeInitToken mechTypes mechToken).length < 2 ^ 32) :
    decodeInitToken (encodeInitToken mechTypes mechToken) = some ⟨mechTypes, mechToken⟩ := by
  rw [encodeInitToken] at short ⊢
  -- from the outside in: every length is below that of the whole token
  generalize shape : writeTlv tagCtx0 (writeTlv tagSequence (encodeMechTypes mechTypes)) ++
    optionalField tagCtx2 tagOctet mechToken = seq at short ⊢
  have gss := length_content_le tagApp0 (writeTlv tagObject oidSpnego ++
    writeTlv tagCtx0 (writeTlv tagSequence seq))
  rw [List.length_append] at gss
  have choice := length_content_le tagCtx0 (writeTlv tagSequence seq)
  have nested := length_content_le tagSequence seq
  have smallGss : (writeTlv tagObject oidSpnego ++
      writeTlv tagCtx0 (writeTlv tagSequence seq)).length < 2 ^ 32 := by
    rw [List.length_append]
    omega
  have smallChoice : (writeTlv tagSequence seq).length < 2 ^ 32 := by omega
  have small : seq.length < 2 ^ 32 := by omega
  -- the mechanism of the frame, then the choice behind it
  have mech := readTlv_writeTlv [] (writeTlv tagCtx0 (writeTlv tagSequence seq)) tagObject
    (show oidSpnego.length < 2 ^ 32 by decide)
  have init := readTlv_writeTlv (writeTlv tagObject oidSpnego) [] tagCtx0 smallChoice
  rw [List.nil_append, List.length_nil, Nat.zero_add] at mech
  rw [List.append_nil] at init
  have spnego : ¬oidSpnego ≠ oidSpnego := not_not_intro rfl
  rw [decodeInitToken]
  simp only [Option.bind_eq_bind, readTlv_whole tagApp0 smallGss, Option.bind_some, mech,
    if_neg spnego, init, parseNegTokenInitBody, readTlv_whole tagSequence small]
  exact negTokenInitLoop_fields mechTypes mechToken shape.symm small

/-- Both tokens are decoded to what they were built from. -/
theorem spnego_roundTrip :
    (∀ state supportedMech responseToken mechListMic,
      (encodeRespToken state supportedMech responseToken mechListMic).length < 2 ^ 32 →
        decodeRespToken (encodeRespToken state supportedMech responseToken mechListMic) =
          some ⟨some state, supportedMech, responseToken, mechListMic⟩) ∧
      ∀ mechTypes mechToken, (encodeInitToken mechTypes mechToken).length < 2 ^ 32 →
        decodeInitToken (encodeInitToken mechTypes mechToken) = some ⟨mechTypes, mechToken⟩ :=
  ⟨decodeRespToken_encodeRespToken, decodeInitToken_encodeInitToken⟩

/-- Tokens with lengths of both forms: the values of 200 bytes need a second length byte. -/
theorem spnego_roundTrip_long :
    decodeRespToken (encodeRespToken .acceptIncomplete (some oidNtlmssp)
        (some (List.replicate 200 7)) none) =
      some ⟨some .acceptIncomplete, some oidNtlmssp, some (List.replicate 200 7), none⟩ ∧
      decodeInitToken (encodeInitToken [oidNtlmssp, []] (some (List.replicate 200 7))) =
        some ⟨[oidNtlmssp, []], some (List.replicate 200 7)⟩ :=
  ⟨spnego_roundTrip.1 .acceptIncomplete (some oidNtlmssp) (some (List.replicate 200 7)) none
      (by decide +kernel),
    spnego_roundTrip.2 [oidNtlmssp, []] (some (List.replicate 200 7)) (by decide +kernel)⟩

end SmbServer
