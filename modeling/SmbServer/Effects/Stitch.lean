import SmbServer.Effects.Dispatch

/-!
# SmbServer.Effects.Stitch

What the stitcher makes of the responses of a compound: the payload splits, by the rule that frames
are split by, into the responses as they were placed and signed again.
-/

namespace SmbServer

open Lib

variable {σ η : Type} [Crypto]

/-- The elements of a payload, split as a frame is. -/
def splitPayload (fuel : Nat) (available : Bytes) : List Bytes :=
  match fuel with
  | 0 => []
  | fuel + 1 =>
    match splitElement available with
    | none => []
    | some (_, sub, next) =>
      sub :: if next = 0 ∨ available.length ≤ next then []
        else splitPayload fuel (available.drop next)

def splitCompound (payload : Bytes) : List Bytes := splitPayload (payload.length + 1) payload

/-- A response as it is handed to the stitcher: it begins with a header whose `NextCommand` is
zero. -/
structure Response (bytes : Bytes) : Prop where
  begins : Smb2Header.Begins bytes
  next : readU32 bytes 0x14 = 0

/-- The elements that the stitcher lays out. -/
def stitched (conn : Connection η) (responses : List Bytes) : List Bytes :=
  (placeResponses responses).map fun (placed, len) => resign conn placed len

theorem stitchResponses_eq (conn : Connection η) (responses : List Bytes) :
    stitchResponses conn responses = (stitched conn responses).flatten :=
  List.flatMap_def

/-! ### Placing -/

omit [Crypto] in
theorem le_align8 (n : Nat) : n ≤ align8 n := by
  rw [align8]
  omega

omit [Crypto] in
theorem align8_eq_self_iff (n : Nat) : align8 n = n ↔ 8 ∣ n := by
  rw [align8]
  omega

omit [Crypto] in
theorem length_placeResponse {response : Bytes} (r : Response response) :
    (placeResponse false response).length = align8 response.length := by
  have long := r.begins.long
  have grows := le_align8 response.length
  simp only [placeResponse, Bool.false_eq_true, if_false, List.length_append,
    List.length_replicate]
  rw [length_patch _ _ _ (by rw [length_u32le]; simp only [smb2HeaderLen] at long; omega)]
  omega

omit [Crypto] in
/-- Placing touches `NextCommand` and what lies behind the response. -/
theorem slice_placeResponse {response : Bytes} (long : smb2HeaderLen ≤ response.length)
    (isLast : Bool) (off len : Nat) (inside : off + len ≤ response.length)
    (apart : off + len ≤ 0x14 ∨ 0x18 ≤ off) :
    slice (placeResponse isLast response) off len = slice response off len := by
  simp only [smb2HeaderLen] at long
  cases isLast with
  | true => rfl
  | false =>
    have fits : 0x14 + (u32le (UInt32.ofNat (align8 response.length))).length ≤
        response.length := by rw [length_u32le]; omega
    simp only [placeResponse, Bool.false_eq_true, if_false]
    rw [slice_append_left _ _ _ _ (by rwa [length_patch _ _ _ fits]),
      slice_patch_disjoint _ _ _ _ _ fits (by rwa [length_u32le])]

omit [Crypto] in
theorem readU32_placeResponse {response : Bytes} (r : Response response) :
    readU32 (placeResponse false response) 0x14 = UInt32.ofNat (align8 response.length) := by
  have long := r.begins.long
  simp only [smb2HeaderLen] at long
  have fits : 0x14 + (u32le (UInt32.ofNat (align8 response.length))).length ≤
      response.length := by rw [length_u32le]; omega
  have patched := slice_patch response 0x14 (u32le (UInt32.ofNat (align8 response.length))) fits
  rw [length_u32le] at patched fits
  simp only [placeResponse, Bool.false_eq_true, if_false]
  rw [readU32, slice_append_left _ _ _ _ (by rw [length_patch _ _ _ (by rwa [length_u32le])]; omega),
    patched, u32OfLe_u32le]

/-! ### Signing again -/

theorem length_resign (conn : Connection η) (placed : Bytes) (len : Nat) :
    (resign conn placed len).length = placed.length := by
  rw [resign]
  split
  · rfl
  split
  · rfl
  split
  · rfl
  · rw [List.length_append, length_sign, ← List.length_append, List.take_append_drop]

/-- Signing again touches the signature field only. -/
theorem slice_resign (conn : Connection η) (placed : Bytes) (len off n : Nat)
    (long : smb2HeaderLen ≤ len) (fits : len ≤ placed.length) (inside : off + n ≤ sigOff) :
    slice (resign conn placed len) off n = slice placed off n := by
  rw [resign]
  split
  · rfl
  split
  · rfl
  split
  · rfl
  · simp only [smb2HeaderLen] at long
    simp only [sigOff] at inside
    have taken : (placed.take len).length = len := List.length_take_of_le fits
    rw [slice_append_left _ _ _ _ (by rw [length_sign, taken]; omega),
      slice_sign _ _ _ _ _ (.inl inside), slice_take _ _ _ _ (by omega)]

/-! ### Splitting -/

omit [Crypto] in
/-- An element whose `NextCommand` is its own length is split off. -/
theorem splitElement_append (e rest : Bytes) (begins : Smb2Header.Begins e)
    (next : (readU32 e 0x14).toNat = e.length) :
    ∃ hdr, splitElement (e ++ rest) = some (hdr, e, e.length) := by
  have long := begins.long
  simp only [smb2HeaderLen] at long
  -- the header is read from the element's own bytes
  have front (off len : Nat) (inside : off + len ≤ 64) :
      slice (e ++ rest) off len = slice e off len :=
    slice_append_left _ _ _ _ (by omega)
  have whole : Smb2Header.Begins (e ++ rest) := by
    refine begins.of_front ?_ fun off len inside => front off len (by omega)
    rw [List.length_append, smb2HeaderLen]
    omega
  obtain ⟨hdr, body, parsed, field⟩ := whole.parse
  rw [readU32, front 20 4 (by omega), ← readU32] at field
  refine ⟨hdr, ?_⟩
  have nonzero : e.length ≠ 0 := by omega
  have fits : ¬(e.length < smb2HeaderLen ∨ e.length > (e ++ rest).length) := by
    rw [List.length_append, smb2HeaderLen]
    omega
  simp only [splitElement, parsed, field, next, nonzero, fits, if_false, List.take_left']

omit [Crypto] in
/-- An element without `NextCommand` is the last one. -/
theorem splitElement_last (e : Bytes) (begins : Smb2Header.Begins e)
    (next : readU32 e 0x14 = 0) : ∃ hdr, splitElement e = some (hdr, e, 0) := by
  obtain ⟨hdr, body, parsed, field⟩ := begins.parse
  refine ⟨hdr, ?_⟩
  simp only [splitElement, parsed, field, next, UInt32.toNat_zero, if_true]

/-- An element as the stitcher lays it out. -/
def laidOut (conn : Connection η) (isLast : Bool) (response : Bytes) : Bytes :=
  resign conn (placeResponse isLast response) response.length

theorem length_laidOut (conn : Connection η) (isLast : Bool) {response : Bytes}
    (r : Response response) :
    (laidOut conn isLast response).length =
      if isLast then response.length else align8 response.length := by
  rw [laidOut, length_resign]
  cases isLast with
  | true => rfl
  | false => exact length_placeResponse r

/-- Laying out keeps everything in front of the signature but `NextCommand`. -/
theorem slice_laidOut (conn : Connection η) (isLast : Bool) {response : Bytes}
    (r : Response response) (off len : Nat) (inside : off + len ≤ sigOff)
    (apart : off + len ≤ 0x14 ∨ 0x18 ≤ off) :
    slice (laidOut conn isLast response) off len = slice response off len := by
  have long := r.begins.long
  simp only [smb2HeaderLen] at long
  have fits : response.length ≤ (placeResponse isLast response).length := by
    cases isLast with
    | true => exact Nat.le_refl _
    | false =>
      rw [length_placeResponse r]
      exact le_align8 _
  rw [laidOut, slice_resign _ _ _ _ _ r.begins.long fits inside,
    slice_placeResponse r.begins.long isLast off len (by simp only [sigOff] at inside; omega) apart]

theorem begins_laidOut (conn : Connection η) (isLast : Bool) {response : Bytes}
    (r : Response response) : Smb2Header.Begins (laidOut conn isLast response) := by
  refine r.begins.of_front ?_ fun off len inside => ?_
  · have long := r.begins.long
    have grows := le_align8 response.length
    rw [length_laidOut conn isLast r]
    split <;> omega
  · exact slice_laidOut conn isLast r off len (by simp only [sigOff]; omega) (.inl inside)

/-- `NextCommand` of an element as it is laid out. -/
theorem readU32_laidOut (conn : Connection η) (isLast : Bool) {response : Bytes}
    (r : Response response) :
    readU32 (laidOut conn isLast response) 0x14 =
      if isLast then 0 else UInt32.ofNat (align8 response.length) := by
  have fits : response.length ≤ (placeResponse isLast response).length := by
    cases isLast with
    | true => exact Nat.le_refl _
    | false =>
      rw [length_placeResponse r]
      exact le_align8 _
  rw [laidOut, readU32, slice_resign _ _ _ _ _ r.begins.long fits (by decide), ← readU32]
  cases isLast with
  | true => exact r.next
  | false => exact readU32_placeResponse r

/-- Behind the response there is only zero padding. -/
theorem drop_laidOut (conn : Connection η) (isLast : Bool) {response : Bytes}
    (r : Response response) :
    (laidOut conn isLast response).drop response.length =
      List.replicate ((laidOut conn isLast response).length - response.length) 0 := by
  -- the link is patched inside the response; the padding follows it
  have placed : (placeResponse isLast response).drop response.length =
      List.replicate ((placeResponse isLast response).length - response.length) 0 := by
    cases isLast with
    | true => simp [placeResponse]
    | false =>
      have long := r.begins.long
      simp only [smb2HeaderLen] at long
      have same := length_patch response 0x14 (u32le (UInt32.ofNat (align8 response.length)))
        (by rw [length_u32le]; omega)
      rw [length_placeResponse r]
      simp only [placeResponse, Bool.false_eq_true, if_false]
      rw [List.drop_left' same]
  have fits : response.length ≤ (placeResponse isLast response).length := by
    cases isLast with
    | true => exact Nat.le_refl _
    | false =>
      rw [length_placeResponse r]
      exact le_align8 _
  rw [laidOut, length_resign, ← placed, resign]
  split
  · rfl
  split
  · rfl
  split
  · rfl
  · exact List.drop_left' (by rw [length_sign, List.length_take_of_le fits])

@[simp] theorem stitched_singleton (conn : Connection η) (response : Bytes) :
    stitched conn [response] = [laidOut conn true response] := rfl

@[simp] theorem stitched_cons_cons (conn : Connection η) (first second : Bytes)
    (rest : List Bytes) :
    stitched conn (first :: second :: rest) =
      laidOut conn false first :: stitched conn (second :: rest) := rfl

theorem length_stitched (conn : Connection η) (responses : List Bytes) :
    (stitched conn responses).length = responses.length := by
  induction responses with
  | nil => rfl
  | cons first rest ih =>
    cases rest with
    | nil => rfl
    | cons second rest =>
      rw [stitched_cons_cons, List.length_cons, ih]
      rfl

/-- The elements that were laid out, for a payload that `NextCommand` can measure. -/
theorem splitPayload_stitched (fuel : Nat) (conn : Connection η) (responses : List Bytes)
    (all : ∀ r ∈ responses, Response r)
    (short : (stitched conn responses).flatten.length < 2 ^ 32)
    (enough : (stitched conn responses).flatten.length < fuel) :
    splitPayload fuel (stitched conn responses).flatten = stitched conn responses := by
  induction responses generalizing fuel with
  | nil =>
    cases fuel with
    | zero => rfl
    | succ fuel => rfl
  | cons first rest ih =>
    have r := all first (List.mem_cons_self ..)
    cases fuel with
    | zero => exact absurd enough (Nat.not_lt_zero _)
    | succ fuel =>
      cases rest with
      | nil =>
        obtain ⟨hdr, split⟩ := splitElement_last (laidOut conn true first)
          (begins_laidOut conn true r) (readU32_laidOut conn true r)
        simp only [stitched_singleton, List.flatten_cons, List.flatten_nil, List.append_nil,
          splitPayload, split, true_or, if_true]
      | cons second rest =>
        rw [stitched_cons_cons, List.flatten_cons] at short enough ⊢
        rw [List.length_append] at short enough
        have others (x : Bytes) (member : x ∈ second :: rest) : Response x :=
          all x (List.mem_cons_of_mem _ member)
        have len := length_laidOut conn false r
        have grows := le_align8 first.length
        have long := r.begins.long
        simp only [smb2HeaderLen, Bool.false_eq_true, if_false] at long len
        -- `NextCommand` is the element's length, since that fits into 32 bits.
        have next : (readU32 (laidOut conn false first) 0x14).toNat =
            (laidOut conn false first).length := by
          rw [readU32_laidOut conn false r, len, if_neg (by decide), UInt32.toNat_ofNat',
            Nat.mod_eq_of_lt (by omega)]
        obtain ⟨hdr, split⟩ := splitElement_append _ (stitched conn (second :: rest)).flatten
          (begins_laidOut conn false r) next
        have more : 0 < (stitched conn (second :: rest)).flatten.length := by
          have second' := others second (List.mem_cons_self ..)
          have wide := second'.begins.long
          cases rest with
          | nil =>
            rw [stitched_singleton, List.flatten_singleton, length_laidOut conn true second']
            simp only [smb2HeaderLen] at wide
            simp only [if_true]
            omega
          | cons third rest =>
            rw [stitched_cons_cons, List.flatten_cons, List.length_append,
              length_laidOut conn false second']
            have wider := le_align8 second.length
            simp only [smb2HeaderLen] at wide
            simp only [Bool.false_eq_true, if_false]
            omega
        have goes : ¬((laidOut conn false first).length = 0 ∨
            (laidOut conn false first ++ (stitched conn (second :: rest)).flatten).length ≤
              (laidOut conn false first).length) := by
          rw [List.length_append]
          omega
        simp only [splitPayload, split, if_neg goes, List.drop_left']
        rw [ih fuel others (by omega) (by omega)]

/-- The payload of a compound splits into what was laid out. -/
theorem splitCompound_stitch (conn : Connection η) (responses : List Bytes)
    (all : ∀ r ∈ responses, Response r)
    (short : (stitchResponses conn responses).length < 2 ^ 32) :
    splitCompound (stitchResponses conn responses) = stitched conn responses := by
  rw [stitchResponses_eq] at short ⊢
  exact splitPayload_stitched _ conn responses all short (Nat.lt_succ_self _)

/-- The element at one position. -/
theorem getElem_stitched (conn : Connection η) (front back : List Bytes) (response : Bytes) :
    (stitched conn (front ++ response :: back))[front.length]? =
      some (laidOut conn back.isEmpty response) := by
  induction front with
  | nil => cases back <;> rfl
  | cons first rest ih =>
    have more : ∃ second others, rest ++ response :: back = second :: others := by
      cases rest with
      | nil => exact ⟨response, back, rfl⟩
      | cons second others => exact ⟨second, others ++ response :: back, rfl⟩
    obtain ⟨second, others, same⟩ := more
    rw [List.cons_append, same, stitched_cons_cons, ← same, List.length_cons,
      List.getElem?_cons_succ, ih]

/-- The length of a payload, from the lengths of its responses. -/
def payloadLength : List Nat → Nat
  | [] => 0
  | [last] => last
  | len :: rest => align8 len + payloadLength rest

theorem length_stitchResponses (conn : Connection η) (responses : List Bytes)
    (all : ∀ r ∈ responses, Response r) :
    (stitchResponses conn responses).length = payloadLength (responses.map List.length) := by
  rw [stitchResponses_eq]
  induction responses with
  | nil => rfl
  | cons first rest ih =>
    have r := all first (List.mem_cons_self ..)
    cases rest with
    | nil =>
      rw [stitched_singleton, List.flatten_singleton, length_laidOut conn true r]
      rfl
    | cons second rest =>
      rw [stitched_cons_cons, List.flatten_cons, List.length_append, length_laidOut conn false r,
        ih fun x member => all x (List.mem_cons_of_mem _ member)]
      rfl

end SmbServer
