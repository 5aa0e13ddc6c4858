import SmbServer.Effects.Answer
import SmbServer.Proto.MacAgreement
import SmbServer.Properties.SignedResponse

/-!
# SmbServer.Properties.Compound

Which elements of a compound response verify.

Main result:

  Over every run, a signed element of a payload verifies under the key that its session had when
  the element was executed, whatever the MAC, if and only if it is the last one, or its response
  fills a multiple of eight bytes and its session is still live with the same key and algorithm
  when the payload is put together.

Proof strategy: the payload splits into what the stitcher lays out. Behind all but the last
response it patches `NextCommand` and pads; it signs again over the bytes without the padding, and
not at all when the session is gone. So the MAC is computed over the bytes of the element only if
there is no padding and a session to sign with.
-/

namespace SmbServer

open Lib

/-! ### One element -/

section

variable {η : Type}

/-- The key and the algorithm that the stitcher signs a response with. -/
def resigner (conn : Connection η) (response : Bytes) : Option (Key × SigningAlgo) :=
  (conn.sessions.lookup (readU64 response 0x28)).bind fun sess =>
    if sess.identity.isAnonymous then none else some (sess.signingKey, conn.signingAlgo)

theorem resign_eq [Crypto] (conn : Connection η) (placed : Bytes) (len : Nat)
    (flagged : hasFlag (readU32 placed 0x10) smb2FlagsSigned = true) :
    resign conn placed len =
      match resigner conn placed with
      | some (key, algo) => sign (placed.take len) key algo ++ placed.drop len
      | none => placed := by
  rw [resign, if_neg (by simp [flagged]), resigner]
  cases conn.sessions.lookup (readU64 placed 0x28) with
  | none => rfl
  | some sess =>
    cases anonymous : sess.identity.isAnonymous with
    | true => simp [anonymous]
    | false => simp [anonymous]

/-- The bytes of a response with `NextCommand` patched, and the padding behind it. -/
def chained (response : Bytes) : Bytes :=
  patch response 0x14 (u32le (UInt32.ofNat (align8 response.length)))

def padding (response : Bytes) : Bytes :=
  List.replicate (align8 response.length - response.length) 0

theorem length_chained_of_le {response : Bytes} (long : 64 ≤ response.length) :
    (chained response).length = response.length :=
  length_patch _ _ _ (by rw [length_u32le]; omega)

theorem length_chained {response : Bytes} (r : Response response) :
    (chained response).length = response.length :=
  length_chained_of_le r.begins.long

/-- A signed response in its place. -/
theorem placeResponse_sign [Crypto] {response : Bytes} (r : Response response) (key : Key)
    (algo : SigningAlgo) :
    placeResponse false (sign response key algo) =
      patch (chained response) sigOff (mac algo key (zeroedSignature response)).val ++
        padding response := by
  have long := r.begins.long
  simp only [smb2HeaderLen] at long
  have commuted := patch_comm response 0x14 sigOff
    (u32le (UInt32.ofNat (align8 response.length)))
    (mac algo key (zeroedSignature response)).val (by rw [length_u32le]; decide)
    (by rw [ByteVec.length_val, sigOff]; omega)
  simp only [placeResponse, Bool.false_eq_true, if_false, length_sign, padding, chained]
  rw [commuted, sign_of_le _ _ _ long]
  rfl

/-- What an element in front of others verifies by: the MAC that it carries is the one over its
bytes with the padding. -/
theorem verify_laidOut [Crypto] (conn : Connection η) {response : Bytes} (r : Response response)
    (key : Key) (algo : SigningAlgo)
    (flagged : hasFlag (readU32 response 0x10) smb2FlagsSigned = true) :
    verify (laidOut conn false (sign response key algo)) key algo = true ↔
      (match resigner conn response with
        | some (key', algo') => mac algo' key' (zeroedSignature (chained response))
        | none => mac algo key (zeroedSignature response)) =
      mac algo key (zeroedSignature (chained response) ++ padding response) := by
  have long := r.begins.long
  simp only [smb2HeaderLen] at long
  have len := length_chained r
  rw [laidOut, placeResponse_sign r, length_sign]
  generalize mac algo key (zeroedSignature response) = sig
  have fits : sigOff + sig.val.length ≤ (chained response).length := by
    rw [ByteVec.length_val, sigOff, len]
    exact long
  have front : (patch (chained response) sigOff sig.val).length = response.length :=
    (length_patch _ _ _ fits).trans len
  -- Placing keeps the flags and the session id, so the stitcher looks up the same session.
  have kept (off n : Nat) (inside : off + n ≤ sigOff) (apart : 0x18 ≤ off ∨ off + n ≤ 0x14) :
      slice (patch (chained response) sigOff sig.val ++ padding response) off n =
        slice response off n := by
    simp only [sigOff] at inside
    rw [slice_append_left _ _ _ _ (by omega), slice_patch_disjoint _ _ _ _ _ fits (.inl inside),
      chained, slice_patch_disjoint _ _ _ _ _ (by rw [length_u32le]; omega)]
    rw [length_u32le]
    omega
  have flags : readU32 (patch (chained response) sigOff sig.val ++ padding response) 0x10 =
      readU32 response 0x10 := by rw [readU32, kept _ _ (by decide) (by decide), ← readU32]
  have session : readU64 (patch (chained response) sigOff sig.val ++ padding response) 0x28 =
      readU64 response 0x28 := by rw [readU64, kept _ _ (by decide) (by decide), ← readU64]
  have same : resigner conn (patch (chained response) sigOff sig.val ++ padding response) =
      resigner conn response := by rw [resigner, session, resigner]
  have zeroed : zeroedSignature (patch (chained response) sigOff sig.val) =
      zeroedSignature (chained response) := zeroedSignature_patch _ _ (by omega)
  rw [resign_eq _ _ _ (flags ▸ flagged), same]
  cases resigner conn response with
  | none =>
    have embedded : slice (patch (chained response) sigOff sig.val) sigOff sigLen = sig.val := by
      have found := slice_patch (chained response) sigOff sig.val fits
      rwa [ByteVec.length_val] at found
    rw [verify_iff _ _ _ (by rw [List.length_append]; omega),
      slice_append_left _ _ _ _ (by rw [front]; exact long), embedded,
      zeroedSignature_append _ (by omega), zeroed]
    exact Subtype.ext_iff.symm
  | some signer =>
    obtain ⟨key', algo'⟩ := signer
    dsimp only
    rw [← front, List.take_left', List.drop_left',
      verify_iff _ _ _ (by rw [List.length_append, length_sign]; omega),
      slice_append_left _ _ _ _ (by rw [length_sign, front]; exact long),
      slice_sign_field _ _ _ (by omega), zeroedSignature_append _ (by rw [length_sign]; omega),
      zeroedSignature_sign _ _ _ (by omega), zeroed]
    · exact Subtype.ext_iff.symm
    · rfl
    · rfl

theorem padding_eq_nil_iff (response : Bytes) : padding response = [] ↔ 8 ∣ response.length := by
  rw [padding, List.replicate_eq_nil_iff, ← align8_eq_self_iff]
  have grows := le_align8 response.length
  omega

/-- An element in front of others verifies under every MAC exactly when no padding follows it and
it is signed again with its own key. -/
theorem verify_laidOut_iff (conn : Connection η) {response : Bytes} (r : Response response)
    (key : Key) (algo : SigningAlgo)
    (flagged : hasFlag (readU32 response 0x10) smb2FlagsSigned = true)
    (short : align8 response.length < 2 ^ 32) :
    (∀ crypto : Crypto, @verify crypto
        (@laidOut η crypto conn false (@sign crypto response key algo)) key algo = true) ↔
      8 ∣ response.length ∧ resigner conn response = some (key, algo) := by
  have long := r.begins.long
  simp only [smb2HeaderLen] at long
  have len := length_chained r
  rw [forall_congr' fun crypto => @verify_laidOut η crypto conn response r key algo flagged]
  cases resigner conn response with
  | none =>
    simp only [reduceCtorEq, and_false, iff_false, mac_forall_iff, true_and]
    intro same
    -- The signature is over `NextCommand` zero, the element says where the next one starts.
    have next := congrArg (fun m => slice m 0x14 4) same
    have grows := le_align8 response.length
    have patched := slice_patch response 0x14
      (u32le (UInt32.ofNat (align8 response.length))) (by rw [length_u32le]; omega)
    rw [length_u32le] at patched
    rw [slice_zeroedSignature _ _ _ long (by decide), slice_append_left, slice_zeroedSignature _ _ _
      (by omega) (by decide), chained, patched] at next
    · have zero := congrArg u32OfLe next
      rw [u32OfLe_u32le, ← readU32, r.next] at zero
      have small := congrArg UInt32.toNat zero
      rw [UInt32.toNat_ofNat', Nat.mod_eq_of_lt short] at small
      simp only [UInt32.toNat_zero] at small
      omega
    · rw [length_zeroedSignature _ (by omega)]
      omega
  | some signer =>
    obtain ⟨key', algo'⟩ := signer
    simp only [mac_forall_iff, Option.some.injEq, Prod.mk.injEq]
    rw [← padding_eq_nil_iff, List.append_right_eq_self]
    constructor
    · rintro ⟨rfl, rfl, none⟩
      exact ⟨none, rfl, rfl⟩
    · rintro ⟨none, rfl, rfl⟩
      exact ⟨rfl, rfl, none⟩

/-- The last element is laid out as it is, and signed again if at all with the key it has. -/
theorem verify_laidOut_last [Crypto] (conn : Connection η) {response : Bytes}
    (r : Response response) (key : Key) (algo : SigningAlgo)
    (flagged : hasFlag (readU32 response 0x10) smb2FlagsSigned = true)
    (own : resigner conn response = some (key, algo)) :
    verify (laidOut conn true (sign response key algo)) key algo = true := by
  have long := r.begins.long
  simp only [smb2HeaderLen] at long
  have flags : readU32 (sign response key algo) 0x10 = readU32 response 0x10 := by
    rw [readU32, slice_sign _ _ _ _ _ (.inl (by decide)), ← readU32]
  have session : readU64 (sign response key algo) 0x28 = readU64 response 0x28 := by
    rw [readU64, slice_sign _ _ _ _ _ (.inl (by decide)), ← readU64]
  have same : resigner conn (sign response key algo) = some (key, algo) := by
    rw [resigner, session]
    exact own
  have alone : laidOut conn true (sign response key algo) =
      sign (sign response key algo) key algo := by
    rw [laidOut, placeResponse, if_pos rfl, resign_eq _ _ _ (flags ▸ flagged), same]
    simp only [List.take_length, List.drop_length, List.append_nil]
  rw [alone]
  exact verify_sign _ _ _ (by rwa [length_sign])

end

/-! ### The answers of a frame -/

section

variable {σ η : Type} [Host σ η]

/-- A response, and the key and algorithm that its session had when it was built. -/
structure Answered where
  bytes : Bytes
  signer : Option (Key × SigningAlgo)

/-- The response as it would be under given primitives. -/
def Answered.under (crypto : Crypto) (a : Answered) : Bytes :=
  match a.signer with
  | some (key, algo) => @sign crypto a.bytes key algo
  | none => a.bytes

/-- A response to an element that left `conn` behind. -/
def answered (conn : Connection η) (bytes : Bytes) : Answered where
  bytes := bytes
  signer :=
    if hasFlag (readU32 bytes 0x10) smb2FlagsSigned then
      (conn.sessions.lookup (readU64 bytes 0x28)).map fun sess =>
        (sess.signingKey, conn.signingAlgo)
    else none

variable [Crypto]

/-- The answers that `dispatchElements` collects, in the same recursion. -/
def answers (fuel : Nat) (server : ServerState) (available : Bytes) (ctx : RelatedContext)
    (ordinal : UInt32) (w : World σ η) : List Answered :=
  match fuel with
  | 0 => []
  | fuel + 1 =>
    match splitElement available with
    | none => []
    | some (hdr, sub, next) =>
      let (sub, hdr) := effectiveElement ctx hdr sub
      let (response, w) := dispatchOne server sub ordinal w
      (response.map (answered w.conn)).toList ++
        if next = 0 ∨ available.length ≤ next then []
        else
          answers fuel server (available.drop next) (nextContext ctx hdr response)
            (if ordinal = maxU32 then maxU32 else ordinal + 1) w

/-- What is known of an answer. -/
structure Answered.Sound (a : Answered) : Prop where
  response : Response a.bytes
  signed : hasFlag (readU32 a.bytes 0x10) smb2FlagsSigned = true →
    ∃ key algo, a.signer = some (key, algo) ∧ verify a.bytes key algo = true
  unsigned : hasFlag (readU32 a.bytes 0x10) smb2FlagsSigned = false → a.signer = none

theorem dispatchOne_answered (server : ServerState) (frame : Bytes) (ordinal : UInt32)
    (w : World σ η) (bytes : Bytes)
    (answer : (dispatchOne server frame ordinal w).1 = some bytes) :
    (answered (dispatchOne server frame ordinal w).2.conn bytes).Sound ∧
      (hasFlag (readU32 bytes 0x10) smb2FlagsSigned = true →
        resigner (dispatchOne server frame ordinal w).2.conn bytes =
          (answered (dispatchOne server frame ordinal w).2.conn bytes).signer) := by
  obtain ⟨conn, hdr, resp, -, rfl, sessions, algo⟩ :=
    dispatchOne_built server frame ordinal w bytes answer
  have named := readU64_buildResponseBytes conn hdr resp
  -- unsigned and unflagged without a key; signed and flagged with the session's own otherwise
  cases key : responseKey conn hdr resp with
  | none =>
    have unflagged := buildResponseBytes_of_none conn hdr resp key
    refine ⟨⟨response_buildResponseBytes conn hdr resp, fun flagged => ?_, fun _ => ?_⟩,
      fun flagged => ?_⟩
    · exact absurd (unflagged.symm.trans flagged) nofun
    · simp only [answered, unflagged, Bool.false_eq_true, if_false]
    · exact absurd (unflagged.symm.trans flagged) nofun
  | some key' =>
    obtain ⟨sess, found, user, rfl⟩ := responseKey_eq_some conn hdr resp key' key
    have signed := buildResponseBytes_of_some conn hdr resp _ key
    rw [sessions, ← named] at found
    have signer : (answered (dispatchOne server frame ordinal w).2.conn
        (buildResponseBytes conn hdr resp)).signer = some (sess.signingKey, conn.signingAlgo) := by
      simp only [answered, signed.1, if_true, found, Option.map_some, algo]
    refine ⟨⟨response_buildResponseBytes conn hdr resp, fun _ => ⟨_, _, signer, signed.2⟩,
      fun unflagged => ?_⟩, fun _ => ?_⟩
    · exact absurd (unflagged.symm.trans signed.1) nofun
    · rw [signer, resigner, found, Option.bind_some, user, algo]
      rfl

theorem answers_bytes (fuel : Nat) (server : ServerState) (available : Bytes)
    (ctx : RelatedContext) (ordinal : UInt32) (w : World σ η) (responses : List Bytes)
    (done : (dispatchElements fuel server available ctx ordinal w).1 = some responses) :
    responses = (answers fuel server available ctx ordinal w).map (·.bytes) := by
  induction fuel generalizing available ctx ordinal w responses with
  | zero => cases done
  | succ fuel ih =>
    rw [dispatchElements] at done
    rw [answers]
    cases split : splitElement available with
    | none => simp [split] at done
    | some parts =>
      obtain ⟨hdr, sub, next⟩ := parts
      simp only [split, Action.bind_apply] at done
      simp only
      -- recording the signer beside a response does not change the response
      have alone (response : Option Bytes) (conn : Connection η) :
          ((response.map (answered conn)).toList).map (·.bytes) = response.toList := by
        cases response <;> rfl
      by_cases last : next = 0 ∨ available.length ≤ next
      · simp only [last, if_true, Action.pure_apply, Option.some.injEq] at done
        rw [if_pos last, List.append_nil, alone, done]
      · simp only [last, if_false, Action.bind_apply, Action.pure_apply,
          Option.map_eq_some_iff] at done
        obtain ⟨rest, more, rfl⟩ := done
        rw [if_neg last, List.map_append, alone, ih _ _ _ _ rest more]

theorem answers_sound (fuel : Nat) (server : ServerState) (available : Bytes)
    (ctx : RelatedContext) (ordinal : UInt32) (w : World σ η) :
    ∀ a ∈ answers fuel server available ctx ordinal w, a.Sound := by
  induction fuel generalizing available ctx ordinal w with
  | zero => exact fun _ member => absurd member List.not_mem_nil
  | succ fuel ih =>
    intro a member
    rw [answers] at member
    cases split : splitElement available with
    | none => simp [split] at member
    | some parts =>
      obtain ⟨hdr, sub, next⟩ := parts
      simp only [split, List.mem_append, Option.mem_toList, Option.map_eq_some_iff] at member
      rcases member with ⟨bytes, answer, rfl⟩ | later
      · exact (dispatchOne_answered server _ ordinal w bytes answer).1
      · split at later
        · exact absurd later List.not_mem_nil
        · exact ih _ _ _ _ a later

/-- A frame that gets no answer leaves the connection as it was. -/
theorem answers_nil (fuel : Nat) (server : ServerState) (available : Bytes)
    (ctx : RelatedContext) (ordinal : UInt32) (w : World σ η)
    (none : answers fuel server available ctx ordinal w = []) :
    (dispatchElements fuel server available ctx ordinal w).2.conn = w.conn := by
  induction fuel generalizing available ctx ordinal w with
  | zero => rfl
  | succ fuel ih =>
    rw [answers] at none
    rw [dispatchElements]
    cases split : splitElement available with
    | none => rfl
    | some parts =>
      obtain ⟨hdr, sub, next⟩ := parts
      simp only [split, List.append_eq_nil_iff, Option.toList_eq_nil_iff,
        Option.map_eq_none_iff] at none
      obtain ⟨silent, others⟩ := none
      -- the element is silent, and the elements behind it are
      have same := (dispatchOne_silent server _ ordinal w silent).conn
      simp only [Action.bind_apply]
      by_cases last : next = 0 ∨ available.length ≤ next
      · simp only [last, if_true, Action.pure_apply]
        exact same
      · rw [if_neg last] at others
        simp only [last, if_false, Action.bind_apply, Action.pure_apply]
        exact (ih _ _ _ _ others).trans same

/-- The session of the last answer is as it was when the answer was built. -/
theorem answers_last (fuel : Nat) (server : ServerState) (available : Bytes)
    (ctx : RelatedContext) (ordinal : UInt32) (w : World σ η) (front : List Answered)
    (a : Answered) (last : answers fuel server available ctx ordinal w = front ++ [a])
    (flagged : hasFlag (readU32 a.bytes 0x10) smb2FlagsSigned = true) :
    resigner (dispatchElements fuel server available ctx ordinal w).2.conn a.bytes = a.signer := by
  induction fuel generalizing available ctx ordinal w front with
  | zero => simp [answers] at last
  | succ fuel ih =>
    rw [answers] at last
    rw [dispatchElements]
    cases split : splitElement available with
    | none => simp [split] at last
    | some parts =>
      obtain ⟨hdr, sub, next⟩ := parts
      simp only [split] at last
      simp only [Action.bind_apply]
      -- The element's own answer, when no later one follows.
      have own (here : ((dispatchOne server (effectiveElement ctx hdr sub).1 ordinal w).1.map
          (answered (dispatchOne server (effectiveElement ctx hdr sub).1 ordinal w).2.conn)).toList =
            front ++ [a]) :
          resigner (dispatchOne server (effectiveElement ctx hdr sub).1 ordinal w).2.conn a.bytes =
            a.signer := by
        have member : a ∈ front ++ [a] := List.mem_append_right _ (List.mem_singleton_self a)
        rw [← here, Option.mem_toList, Option.map_eq_some_iff] at member
        obtain ⟨bytes, answer, rfl⟩ := member
        exact (dispatchOne_answered server _ ordinal w bytes answer).2 flagged
      by_cases ends : next = 0 ∨ available.length ≤ next
      · rw [if_pos ends, List.append_nil] at last
        simp only [ends, if_true, Action.pure_apply]
        exact own last
      · rw [if_neg ends] at last
        simp only [ends, if_false, Action.bind_apply, Action.pure_apply]
        rcases List.eq_nil_or_concat (answers fuel server (available.drop next)
          (nextContext ctx (effectiveElement ctx hdr sub).2
            (dispatchOne server (effectiveElement ctx hdr sub).1 ordinal w).1)
          (if ordinal = maxU32 then maxU32 else ordinal + 1)
          (dispatchOne server (effectiveElement ctx hdr sub).1 ordinal w).2) with
          none | ⟨front', a', more⟩
        · rw [none, List.append_nil] at last
          rw [answers_nil _ _ _ _ _ _ none]
          exact own last
        · rw [List.concat_eq_append] at more
          rw [more, ← List.append_assoc] at last
          obtain ⟨-, same⟩ := List.append_inj' last rfl
          obtain rfl := List.singleton_inj.mp same
          exact ih _ _ _ _ front' more

/-! ### A payload -/

/-- The frame of an event is answered with a payload: the answers of its elements, and the
connection that it leaves, on which the payload is put together. -/
structure Served (s : System σ η) (e : Event) (as : List Answered) (after : Connection η)
    (payload : Bytes) : Prop where
  served : ∃ cid frame conn, e = .frame cid frame ∧ s.conns.lookup cid = some conn ∧
    smb1Choice frame = none ∧
    as = answers (frame.length + 1) s.server frame initialContext 0 ⟨conn, s.env⟩ ∧
    (dispatchFrame s.server frame ⟨conn, s.env⟩).1 = some payload ∧
    (dispatchFrame s.server frame ⟨conn, s.env⟩).2.conn = after

/-- Under all primitives, the element at one position verifies under a key. -/
def VerifiesAt (after : Connection η) (as : List Answered) (i : Nat) (key : Key)
    (algo : SigningAlgo) : Prop :=
  ∀ crypto : Crypto, ∃ element,
    (splitCompound (@stitchResponses η crypto after (as.map (Answered.under crypto))))[i]? =
      some element ∧ @verify crypto element key algo = true

omit [Crypto] in
theorem Answered.length_under (crypto : Crypto) (a : Answered) :
    (a.under crypto).length = a.bytes.length := by
  rw [under]
  split
  · exact length_sign _ _ _
  · rfl

omit [Crypto] in
/-- Under other primitives only the signature differs. -/
theorem Answered.slice_under (crypto : Crypto) (a : Answered) (off len : Nat)
    (inside : off + len ≤ sigOff) :
    slice (a.under crypto) off len = slice a.bytes off len := by
  rw [under]
  split
  · exact slice_sign _ _ _ _ _ (.inl inside)
  · rfl

omit [Crypto] in
theorem Answered.response_under (crypto : Crypto) (a : Answered) (r : Response a.bytes) :
    Response (a.under crypto) := by
  constructor
  · refine r.begins.of_front ?_ fun off len inside => a.slice_under crypto off len ?_
    · rw [a.length_under]
      exact r.begins.long
    · simp only [sigOff]
      omega
  · rw [readU32, a.slice_under crypto _ _ (by decide), ← readU32]
    exact r.next

/-- Under the primitives of the run it is the response itself. -/
theorem Answered.Sound.under_self {a : Answered} (h : a.Sound) :
    a.under inferInstance = a.bytes := by
  cases flagged : hasFlag (readU32 a.bytes 0x10) smb2FlagsSigned with
  | true =>
    obtain ⟨key, algo, signer, verified⟩ := h.signed flagged
    simp only [under, signer]
    exact sign_of_verify _ _ _ verified
  | false => simp only [under, h.unsigned flagged]

omit [Crypto] in
theorem length_payload_under (crypto : Crypto) (conn : Connection η) (as : List Answered)
    (all : ∀ a ∈ as, Response a.bytes) :
    (stitchResponses conn (as.map (Answered.under crypto))).length =
      payloadLength (as.map fun a => a.bytes.length) := by
  rw [length_stitchResponses, List.map_map]
  · congr 1
    exact List.map_congr_left fun a _ => a.length_under crypto
  · intro r member
    obtain ⟨a, here, rfl⟩ := List.mem_map.mp member
    exact a.response_under crypto (all a here)

theorem Served.sound {s : System σ η} {e : Event} {as : List Answered} {after : Connection η}
    {payload : Bytes} (h : Served s e as after payload) : ∀ a ∈ as, a.Sound := by
  obtain ⟨cid, frame, conn, -, -, -, rfl, -, -⟩ := h.served
  exact answers_sound _ _ _ _ _ _

/-- The payload is what the stitcher makes of the answers. -/
theorem Served.payload_eq {s : System σ η} {e : Event} {as : List Answered}
    {after : Connection η} {payload : Bytes} (h : Served s e as after payload) :
    payload = stitchResponses after (as.map (·.bytes)) := by
  obtain ⟨cid, frame, conn, -, -, noSmb1, rfl, answer, left⟩ := h.served
  simp only [dispatchFrame, noSmb1, Action.bind_apply] at answer left
  cases executed : (dispatchElements (frame.length + 1) s.server frame initialContext 0
      ⟨conn, s.env⟩).1 with
  | none => simp [executed] at answer
  | some responses =>
    have same := answers_bytes _ _ _ _ _ _ responses executed
    cases responses with
    | nil => simp [executed] at answer
    | cons first rest =>
      simp only [executed, Action.bind_apply, getConn_apply, Action.pure_apply,
        Option.some.injEq] at answer left
      rw [← same, ← left, answer]

/-- The session of the last answer signs as it did. -/
theorem Served.last {s : System σ η} {e : Event} {as : List Answered} {after : Connection η}
    {payload : Bytes} (h : Served s e as after payload) (front : List Answered) (a : Answered)
    (last : as = front ++ [a])
    (flagged : hasFlag (readU32 a.bytes 0x10) smb2FlagsSigned = true) :
    resigner after a.bytes = a.signer := by
  obtain ⟨cid, frame, conn, -, -, noSmb1, rfl, answer, left⟩ := h.served
  have own := answers_last _ _ _ _ _ _ front a last flagged
  simp only [dispatchFrame, noSmb1, Action.bind_apply] at answer left
  cases executed : (dispatchElements (frame.length + 1) s.server frame initialContext 0
      ⟨conn, s.env⟩).1 with
  | none => simp [executed] at answer
  | some responses =>
    cases responses with
    | nil => simp [executed] at answer
    | cons first rest =>
      simp only [executed, Action.bind_apply, getConn_apply, Action.pure_apply] at left
      rwa [left] at own

omit [Crypto] in
/-- The element at one position, under any primitives. -/
theorem verifiesAt_iff (after : Connection η) (front back : List Answered) (a : Answered)
    (all : ∀ b ∈ front ++ a :: back, Response b.bytes)
    (short : payloadLength ((front ++ a :: back).map fun b => b.bytes.length) < 2 ^ 32)
    (key : Key) (algo : SigningAlgo) (signer : a.signer = some (key, algo)) :
    VerifiesAt after (front ++ a :: back) front.length key algo ↔ ∀ crypto : Crypto,
      @verify crypto (@laidOut η crypto after back.isEmpty (@sign crypto a.bytes key algo)) key
        algo = true := by
  refine forall_congr' fun crypto => ?_
  have under : ∀ r ∈ (front ++ a :: back).map (Answered.under crypto), Response r := by
    intro r member
    obtain ⟨b, here, rfl⟩ := List.mem_map.mp member
    exact b.response_under crypto (all b here)
  rw [splitCompound_stitch after _ under (by rwa [length_payload_under crypto after _ all])]
  have there := getElem_stitched after (front.map (Answered.under crypto))
    (back.map (Answered.under crypto)) (a.under crypto)
  have own : a.under crypto = sign a.bytes key algo := by
    simp only [Answered.under, signer]
  rw [List.length_map, List.isEmpty_map, own] at there
  rw [List.map_append, List.map_cons, own, there]
  simp only [Option.some.injEq, exists_eq_left']

/-- Over every run, a signed element of a payload verifies under the key of its session, whatever
the MAC, exactly when it is the last one, or no padding follows its response and its session is
live with that key and algorithm when the payload is put together. -/
theorem compound_verifies_iff (server : ServerState) (host : σ) (events : List Event) :
    System.EachEvent server host events fun s e => ∀ as (after : Connection η) payload,
      Served s e as after payload → payload.length < 2 ^ 32 →
        payload = stitchResponses after (as.map (Answered.under inferInstance)) ∧
        ∀ i element, (splitCompound payload)[i]? = some element →
          hasFlag (readU32 element 0x10) smb2FlagsSigned = true →
            ∃ a key algo, as[i]? = some a ∧ a.signer = some (key, algo) ∧
              (VerifiesAt after as i key algo ↔ i + 1 = as.length ∨
                (8 ∣ a.bytes.length ∧ resigner after a.bytes = some (key, algo))) := by
  refine (Always.iff_split _ _).mpr fun _ e _ _ as after payload served short => ?_
  have sound := served.sound
  have whole := served.payload_eq
  have self : as.map (Answered.under inferInstance) = as.map (·.bytes) :=
    List.map_congr_left fun a member => (sound a member).under_self
  refine ⟨whole.trans (by rw [self]), fun i element here flagged => ?_⟩
  have responses : ∀ r ∈ as.map (·.bytes), Response r := by
    intro r member
    obtain ⟨a, there, rfl⟩ := List.mem_map.mp member
    exact (sound a there).response
  rw [whole] at here short
  rw [splitCompound_stitch after _ responses short] at here
  -- The position in the payload is the position among the answers.
  have inside : i < as.length := by
    have bound := (List.getElem?_eq_some_iff.mp here).1
    rwa [length_stitched, List.length_map] at bound
  obtain ⟨front, a, back, rfl, rfl⟩ : ∃ front a back, as = front ++ a :: back ∧
      front.length = i :=
    ⟨as.take i, as[i], as.drop (i + 1), by rw [← List.drop_eq_getElem_cons inside,
      List.take_append_drop], List.length_take_of_le (Nat.le_of_lt inside)⟩
  rw [List.map_append, List.map_cons] at here short responses
  have placed := getElem_stitched after (front.map (·.bytes)) (back.map (·.bytes)) a.bytes
  rw [List.length_map, here, Option.some.injEq, List.isEmpty_map] at placed
  have a_sound := sound a (List.mem_append_right _ (List.mem_cons_self ..))
  have r := a_sound.response
  -- Placing keeps the flags, so the response was signed when it was built.
  have own : hasFlag (readU32 a.bytes 0x10) smb2FlagsSigned = true := by
    rw [placed, readU32, slice_laidOut after _ r _ _ (by decide) (by decide), ← readU32] at flagged
    exact flagged
  obtain ⟨key, algo, signer, -⟩ := a_sound.signed own
  refine ⟨a, key, algo, List.getElem?_append_right (Nat.le_refl _) ▸ by simp, signer, ?_⟩
  have lengths : payloadLength ((front ++ a :: back).map fun b => b.bytes.length) < 2 ^ 32 := by
    rw [length_stitchResponses after _ responses, ← List.map_cons, ← List.map_append,
      List.map_map] at short
    exact short
  rw [verifiesAt_iff after front back a (fun b member => (sound b member).response) lengths key
    algo signer]
  cases back with
  | nil =>
    have still := served.last front a rfl own
    refine iff_of_true (fun crypto => ?_) (.inl (by simp))
    exact verify_laidOut_last after r key algo own (still.trans signer)
  | cons next later =>
    have bounded : align8 a.bytes.length < 2 ^ 32 := by
      have member := List.mem_of_getElem? here
      have whole := (List.sublist_flatten_of_mem member).length_le
      rw [← stitchResponses_eq, placed, List.isEmpty_cons, length_laidOut after false r] at whole
      exact Nat.lt_of_le_of_lt whole short
    have behind : ¬front.length + 1 = (front ++ a :: next :: later).length := by
      rw [List.length_append, List.length_cons, List.length_cons]
      omega
    rw [or_iff_right behind]
    exact verify_laidOut_iff after r key algo own bounded

end

/-! ### Two ECHOs -/

open scoped Sample

/-- Two signed ECHOs of a session logged on over 2.1. -/
def Sample.twoEchos : Bytes :=
  Client.signedFirst (signingKey30 Sample.userKey) .hmacSha256 .echo 1 0 Client.emptyBody ++
    Client.signed (signingKey30 Sample.userKey) .hmacSha256 .echo 1 0 Client.emptyBody

/-- The reply to the first of two ECHOs has 68 bytes and is padded: it does not verify. -/
theorem echo_padded_unverified :
    ¬∀ events : List Event, System.EachEvent Sample.server () events fun s e =>
      ∀ as (after : Connection Unit) payload, Served s e as after payload →
        ∀ (i : Nat) element, (splitCompound payload)[i]? = some element →
          hasFlag (readU32 element 0x10) smb2FlagsSigned = true →
            ∃ a key algo, as[i]? = some a ∧ a.signer = some (key, algo) ∧
              verify element key algo = true := by
  intro all
  let before := Sample.session (Sample.userOn 0x0210)
  let s : System Unit Unit := (System.start Sample.server ()).run before
  -- the two answers, and the payload that they are packed into
  let served (conn : Connection Unit) :=
    answers (Sample.twoEchos.length + 1) s.server Sample.twoEchos initialContext 0 ⟨conn, s.env⟩
  -- evaluated once, as a test on the state behind the run
  have reached : (s.conns.lookup 1).any (fun conn =>
      (dispatchFrame s.server Sample.twoEchos ⟨conn, s.env⟩).1.any fun payload =>
        (splitCompound payload)[0]?.any fun element =>
          (served conn)[0]?.any fun a =>
            hasFlag (readU32 element 0x10) smb2FlagsSigned &&
              a.signer.all fun (key, algo) => !verify element key algo) = true := by
    decide +kernel
  simp only [Option.any_eq_true, Bool.and_eq_true, Option.all_eq_true, Bool.not_eq_true',
    Prod.forall] at reached
  obtain ⟨conn, live, payload, answer, element, first, a, own, flagged, differs⟩ := reached
  have last := (all (before ++ [.frame 1 Sample.twoEchos])).last
  obtain ⟨a', key, algo, same, signer, good⟩ := last (served conn) _ payload
    ⟨1, _, conn, rfl, live, by decide +kernel, rfl, answer, rfl⟩ 0 element first flagged
  obtain rfl := Option.some.inj (own.symm.trans same)
  cases good.symm.trans (differs key algo signer)

end SmbServer
