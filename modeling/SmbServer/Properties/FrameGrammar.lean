import SmbServer.Conn.Reader

/-!
# SmbServer.Properties.FrameGrammar

What the frame reader makes of a stream, however it arrives.

## Main result

`frameReader_iff`: the payloads of the complete frames are read in order; the reader then stops as it
should, cleanly behind the last byte and with an error otherwise, exactly when the stream does not
end within a frame header.

## Proof strategy

`CompleteFrames` cuts a stream into frames and a rest without one, in one way only. `readOneFrame_eq`
says what one call does, in terms of the bytes that are left; `readFramesFrom_eq` follows the frames
by induction.
-/

namespace SmbServer

open Lib

/-! ### Frames of a stream -/

/-- The length field of a frame is the payload's length. -/
theorem encodeFrame_of_header (high mid low : UInt8) {payload : Bytes}
    (size : payload.length = high.toNat * 0x10000 + mid.toNat * 0x100 + low.toNat) :
    encodeFrame payload = 0 :: high :: mid :: low :: payload := by
  have highBound : high.toNat < 256 := high.toNat_lt
  have midBound : mid.toNat < 256 := mid.toNat_lt
  have lowBound : low.toNat < 256 := low.toNat_lt
  have whole : payload.length % 2 ^ 32 = payload.length := Nat.mod_eq_of_lt (by omega)
  have highByte : payload.length / 0x10000 % 0x100 = high.toNat := by omega
  have midByte : payload.length / 0x100 % 0x100 = mid.toNat := by omega
  have lowByte : payload.length % 0x100 = low.toNat := by omega
  rw [encodeFrame]
  simp only [whole, highByte, midByte, lowByte, UInt8.ofNat_toNat]
  rfl

/-- One frame of a stream is a header that measures the payload, and the payload. -/
theorem decodeFrame_eq_some_iff (stream payload behind : Bytes) :
    decodeFrame stream = some (payload, behind) ↔
      stream = encodeFrame payload ++ behind ∧ payload.length ≤ maxFramePayload := by
  constructor
  · intro read
    -- the four bytes of the header, if they are there
    rcases stream with _ | ⟨kind, _ | ⟨high, _ | ⟨mid, _ | ⟨low, rest⟩⟩⟩⟩
    case cons.cons.cons.cons =>
      have highBound : high.toNat < 256 := high.toNat_lt
      have midBound : mid.toNat < 256 := mid.toNat_lt
      have lowBound : low.toNat < 256 := low.toNat_lt
      simp only [decodeFrame, decodeFrameHeader] at read
      by_cases kindZero : kind = 0
      · subst kindZero
        simp only [ne_eq, not_true_eq_false, if_false] at read
        split at read
        · cases read
        next enough =>
        have parts := Prod.mk.inj (Option.some.inj read)
        have size : payload.length = high.toNat * 0x10000 + mid.toNat * 0x100 + low.toNat := by
          rw [← parts.1, List.length_take]
          omega
        rw [encodeFrame_of_header high mid low size, ← parts.1, ← parts.2]
        constructor
        · simp only [List.cons_append, List.take_append_drop]
        · rw [maxFramePayload, parts.1]
          omega
      · simp only [ne_eq, kindZero, not_false_eq_true, if_true] at read
        cases read
    all_goals cases read
  · rintro ⟨rfl, short⟩
    exact (inSync_iff payload).mpr short behind

/-- The complete frames at the front of a stream, and what lies behind them. -/
structure CompleteFrames (stream : Bytes) (payloads : List Bytes) (rest : Bytes) : Prop where
  split : stream = payloads.flatMap encodeFrame ++ rest
  measured : ∀ payload ∈ payloads, payload.length ≤ maxFramePayload
  /-- No further frame is complete. -/
  maximal : decodeFrame rest = none

theorem length_encodeFrame (payload : Bytes) : (encodeFrame payload).length = 4 + payload.length := by
  simp only [encodeFrame, List.length_append, List.length_cons, List.length_nil]

/-- A stream begins with its complete frames. -/
theorem exists_completeFrames (stream : Bytes) :
    ∃ payloads rest, CompleteFrames stream payloads rest := by
  induction h : stream.length using Nat.strong_induction_on generalizing stream with
  | _ n ih =>
    cases front : decodeFrame stream with
    | none => exact ⟨[], stream, rfl, fun _ member => absurd member List.not_mem_nil, front⟩
    | some parts =>
      obtain ⟨payload, behind⟩ := parts
      obtain ⟨shape, short⟩ := (decodeFrame_eq_some_iff _ _ _).mp front
      have less : behind.length < n := by
        rw [← h, shape, List.length_append, length_encodeFrame]
        omega
      obtain ⟨payloads, rest, frames⟩ := ih behind.length less behind rfl
      refine ⟨payload :: payloads, rest, ?_, ?_, frames.maximal⟩
      · rw [shape, frames.split, List.flatMap_cons, List.append_assoc]
      · intro p member
        rcases List.mem_cons.mp member with rfl | later
        · exact short
        · exact frames.measured p later

/-- There is one way only to cut a stream into its complete frames. -/
theorem CompleteFrames.unique {stream : Bytes} {payloads others : List Bytes} {rest left : Bytes}
    (frames : CompleteFrames stream payloads rest) (frames' : CompleteFrames stream others left) :
    payloads = others ∧ rest = left := by
  induction payloads generalizing stream others with
  | nil =>
    cases others with
    | nil => exact ⟨rfl, frames.split.symm.trans frames'.split⟩
    | cons other others =>
      -- the frame of the other cut is complete
      have front : decodeFrame stream = some (other, others.flatMap encodeFrame ++ left) := by
        rw [decodeFrame_eq_some_iff, frames'.split, List.flatMap_cons, List.append_assoc]
        exact ⟨rfl, frames'.measured other List.mem_cons_self⟩
      have none := frames.maximal
      rw [← List.nil_append rest, ← List.flatMap_nil, ← frames.split, front] at none
      cases none
  | cons payload payloads ih =>
    have front : decodeFrame stream = some (payload, payloads.flatMap encodeFrame ++ rest) := by
      rw [decodeFrame_eq_some_iff, frames.split, List.flatMap_cons, List.append_assoc]
      exact ⟨rfl, frames.measured payload List.mem_cons_self⟩
    cases others with
    | nil =>
      have none := frames'.maximal
      rw [← List.nil_append left, ← List.flatMap_nil, ← frames'.split, front] at none
      cases none
    | cons other others =>
      have front' : decodeFrame stream = some (other, others.flatMap encodeFrame ++ left) := by
        rw [decodeFrame_eq_some_iff, frames'.split, List.flatMap_cons, List.append_assoc]
        exact ⟨rfl, frames'.measured other List.mem_cons_self⟩
      obtain ⟨rfl, same⟩ := Prod.mk.inj (Option.some.inj (front.symm.trans front'))
      obtain ⟨rfl, rfl⟩ := ih
        ⟨rfl, fun p member => frames.measured p (List.mem_cons_of_mem _ member), frames.maximal⟩
        ⟨same, fun p member => frames'.measured p (List.mem_cons_of_mem _ member), frames'.maximal⟩
      exact ⟨rfl, rfl⟩

/-! ### One call of the reader -/

/-- How the reader stops in front of bytes that hold no complete frame. -/
def stopBefore (rest : Bytes) : Except ReadError Unit :=
  if rest.length < 4 then .ok ()
  else if rest.head? = some 0 then .error .unexpectedEof
  else .error .invalidData

theorem readHeader {reader : Source} {kind high mid low : UInt8} {rest : Bytes}
    (shape : reader.bytes = kind :: high :: mid :: low :: rest) :
    ∃ left, reader.readExact frameHeaderLen = some ([kind, high, mid, low], left) ∧
      left.bytes = rest := by
  have enough : frameHeaderLen ≤ reader.bytes.length := by
    rw [shape, frameHeaderLen]
    simp only [List.length_cons]
    omega
  obtain ⟨left, read, behind⟩ := Source.readExact_of_le enough
  rw [shape] at read behind
  exact ⟨left, read, behind⟩

/-- A call on a stream with a complete frame in front returns its payload. -/
theorem readOneFrame_of_frame {reader : Source} {payload behind : Bytes}
    (front : decodeFrame reader.bytes = some (payload, behind)) :
    ∃ left, readOneFrame reader = .ok (some (payload, left)) ∧ left.bytes = behind := by
  rcases shape : reader.bytes with _ | ⟨kind, _ | ⟨high, _ | ⟨mid, _ | ⟨low, rest⟩⟩⟩⟩
  case cons.cons.cons.cons =>
    obtain ⟨left, header, behind'⟩ := readHeader shape
    rw [shape] at front
    simp only [decodeFrame] at front
    split at front
    · cases front
    next len measured =>
    split at front
    · cases front
    next enough =>
    obtain ⟨rfl, rfl⟩ := Prod.mk.inj (Option.some.inj front)
    -- the payload is read in full, in however many pieces it comes
    obtain ⟨last, read, after⟩ := Source.readExact_of_le (n := len) (s := left)
      (by rw [behind']; omega)
    rw [behind'] at read after
    refine ⟨last, ?_, after⟩
    rw [readOneFrame, header]
    simp only [List.getD_cons_zero, List.getD_cons_succ, measured, read]
  all_goals
    rw [shape] at front
    cases front

/-- A call on any other stream stops. -/
theorem readOneFrame_of_none {reader : Source} (none : decodeFrame reader.bytes = none) :
    readOneFrame reader = (stopBefore reader.bytes).map fun _ => Option.none := by
  rcases shape : reader.bytes with _ | ⟨kind, _ | ⟨high, _ | ⟨mid, _ | ⟨low, rest⟩⟩⟩⟩
  case cons.cons.cons.cons =>
    obtain ⟨left, header, behind⟩ := readHeader shape
    rw [shape] at none
    have long : ¬(kind :: high :: mid :: low :: rest).length < 4 := by
      simp only [List.length_cons]
      omega
    rw [readOneFrame, header, stopBefore, if_neg long]
    simp only [List.getD_cons_zero, List.getD_cons_succ, List.head?_cons, Option.some.injEq]
    simp only [decodeFrame] at none
    by_cases kindZero : kind = 0
    · subst kindZero
      -- a header that is in order; the payload is cut off
      simp only [decodeFrameHeader, ne_eq, not_true_eq_false, if_false] at none ⊢
      split at none
      next short =>
        rw [Source.readExact_of_lt (by rw [behind]; exact short)]
        rfl
      · cases none
    · simp only [decodeFrameHeader, ne_eq, kindZero, not_false_eq_true, if_true, if_false]
      rfl
  all_goals
    have short : reader.bytes.length < frameHeaderLen := by
      rw [shape, frameHeaderLen]
      simp only [List.length_cons, List.length_nil]
      omega
    rw [readOneFrame, Source.readExact_of_lt short]
    rfl

/-! ### The whole stream -/

/-- The frames are read one after another, and the reader stops at the rest. -/
theorem readFramesFrom_eq {payloads : List Bytes} {reader : Source} {rest : Bytes}
    (frames : CompleteFrames reader.bytes payloads rest) (fuel : Nat)
    (enough : payloads.length < fuel) :
    readFramesFrom fuel reader = some (payloads, stopBefore rest) := by
  induction payloads generalizing reader fuel with
  -- nothing complete is left, and the reader stops as the rest says
  | nil =>
    obtain ⟨fuel, rfl⟩ : ∃ n, fuel = n + 1 := ⟨fuel - 1, by omega⟩
    have whole : reader.bytes = rest := frames.split
    have stops := readOneFrame_of_none (whole ▸ frames.maximal : decodeFrame reader.bytes = none)
    rw [whole] at stops
    rw [readFramesFrom, stops]
    cases stopBefore rest with
    | ok => rfl
    | error e => rfl
  -- the first frame is read, and the others from the source behind it
  | cons payload payloads ih =>
    obtain ⟨fuel, rfl⟩ : ∃ n, fuel = n + 1 := ⟨fuel - 1, by omega⟩
    have front : decodeFrame reader.bytes =
        some (payload, payloads.flatMap encodeFrame ++ rest) := by
      rw [decodeFrame_eq_some_iff, frames.split, List.flatMap_cons, List.append_assoc]
      exact ⟨rfl, frames.measured payload List.mem_cons_self⟩
    obtain ⟨left, read, behind⟩ := readOneFrame_of_frame front
    have later : CompleteFrames left.bytes payloads rest :=
      ⟨behind, fun p member => frames.measured p (List.mem_cons_of_mem _ member), frames.maximal⟩
    rw [readFramesFrom, read]
    simp only
    rw [ih later fuel (by rw [List.length_cons] at enough; omega)]
    rfl

theorem CompleteFrames.length_le {stream : Bytes} {payloads : List Bytes} {rest : Bytes}
    (frames : CompleteFrames stream payloads rest) : payloads.length ≤ stream.length := by
  rw [frames.split, List.length_append]
  clear frames
  induction payloads with
  | nil => exact Nat.zero_le _
  | cons payload payloads ih =>
    rw [List.flatMap_cons, List.length_append, length_encodeFrame, List.length_cons]
    omega

theorem readFrames_eq {payloads : List Bytes} {reader : Source} {rest : Bytes}
    (frames : CompleteFrames reader.bytes payloads rest) :
    readFrames reader = some (payloads, stopBefore rest) :=
  readFramesFrom_eq frames _ (Nat.lt_succ_of_le frames.length_le)

/-- The complete frames are read in order, and the reader stops cleanly behind the last byte of the
stream and with an error in front of a frame that is cut off or of another kind. -/
def FollowsGrammar (reader : Source) : Prop :=
  ∀ payloads rest, CompleteFrames reader.bytes payloads rest →
    ∃ stop, readFrames reader = some (payloads, stop) ∧
      (rest = [] → stop = .ok ()) ∧ (rest ≠ [] → ∃ e, stop = .error e)

/-- The reader follows the grammar exactly on the streams that do not end within a frame header. -/
theorem frameReader_iff (reader : Source) :
    FollowsGrammar reader ↔
      ∀ payloads rest, CompleteFrames reader.bytes payloads rest →
        ¬(0 < rest.length ∧ rest.length < 4) := by
  constructor
  · rintro follows payloads rest frames ⟨some, short⟩
    obtain ⟨stop, read, -, fails⟩ := follows payloads rest frames
    obtain ⟨e, rfl⟩ := fails (List.length_pos_iff.mp some)
    have actual := (readFrames_eq frames).symm.trans read
    rw [stopBefore, if_pos short] at actual
    cases actual
  · intro notWithin payloads rest frames
    refine ⟨stopBefore rest, readFrames_eq frames, ?_, ?_⟩
    · rintro rfl
      rfl
    · intro nonempty
      have long : ¬rest.length < 4 := fun short =>
        notWithin payloads rest frames ⟨List.length_pos_iff.mpr nonempty, short⟩
      rw [stopBefore, if_neg long]
      split
      · exact ⟨_, rfl⟩
      · exact ⟨_, rfl⟩

/-- A stream of one byte counts as one that was closed between frames. -/
theorem frameReader_oneByte : ¬∀ reader, FollowsGrammar reader := by
  intro follows
  have nonempty : ([0] : Bytes) ≠ [] := List.cons_ne_nil 0 []
  obtain ⟨stop, read, -, fails⟩ := follows [⟨[0], nonempty⟩] [] [0]
    ⟨rfl, fun _ member => absurd member List.not_mem_nil, rfl⟩
  obtain ⟨e, rfl⟩ := fails nonempty
  have actual : readFrames [⟨[0], nonempty⟩] = some ([], .ok ()) := rfl
  rw [actual] at read
  cases read

end SmbServer
