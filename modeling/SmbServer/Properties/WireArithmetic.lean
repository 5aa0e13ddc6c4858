import SmbServer.Handlers.WireArithmetic

/-!
# SmbServer.Properties.WireArithmetic

The bounds checks behind offsets and lengths from the wire.

## Main result

`wireArithmetic_iff`: with a `usize` of 64 bits every sum is exact and every function does what the
mathematical one does. With 32 bits this holds exactly where no length of four digits, no data
length and no name length reaches 2^32 together with the offset that it is added to.

## Proof strategy

A buffer is shorter than half of the words, so a sum can only leave them by a value of 32 bits from
the wire: `readLen_cases` separates the lengths of four digits from the others. For the chain the
induction follows the cursor.
-/

namespace SmbServer

open Lib

theorem half_size (w : Width) : 2 ^ 31 ≤ w.size / 2 ∧ w.size / 2 + w.size / 2 = w.size := by
  cases w <;> decide

/-! ### Lengths -/

/-- Digits stand for less than one more digit would. -/
theorem foldl_digits_lt (digits : Bytes) (v : Nat) :
    digits.foldl (fun v b => v * 256 + b.toNat) v < (v + 1) * 256 ^ digits.length := by
  induction digits generalizing v with
  | nil =>
    rw [List.foldl_nil, List.length_nil, pow_zero]
    omega
  | cons b rest ih =>
    have bound : b.toNat < 256 := b.toNat_lt
    have later := ih (v * 256 + b.toNat)
    rw [List.foldl_cons, List.length_cons, pow_succ', ← Nat.mul_assoc]
    exact later.trans_le (Nat.mul_le_mul_right _ (by omega))

/-- The value of a length of four digits, the longest form that is accepted, at `pos`. -/
def wireLength (buf : Bytes) (pos : Nat) : Option Nat :=
  if buf[pos]? = some 0x84 ∧ pos + 5 ≤ buf.length then
    some ((slice buf (pos + 1) 4).foldl (fun v b => v * 256 + b.toNat) 0)
  else none

theorem readLenChecked_eq {w : Width} {buf : Bytes} (short : buf.length < w.size / 2) (pos : Nat) :
    readLenChecked w buf pos = .ofOption (readLen buf pos) := by
  obtain ⟨large, whole⟩ := half_size w
  rw [readLenChecked, readLen]
  cases here : buf[pos]? with
  | none => rfl
  | some first =>
    have inside : pos < buf.length := (List.getElem?_eq_some_iff.mp here).1
    -- the buffer ends below half the width, so no step of the cursor leaves it
    have next : pos + 1 < w.size := by omega
    simp only [Checked.ofOption, Checked.done_bind, Checked.add_of_lt next, Option.bind_eq_bind,
      Option.bind_some]
    by_cases direct : first < 0x80
    · rw [if_pos direct, if_pos direct]
      rfl
    rw [if_neg direct, if_neg direct]
    by_cases form : (first &&& 0x7f).toNat = 0 ∨ (first &&& 0x7f).toNat > 4
    · rw [if_pos form, if_pos form]
      rfl
    have stop : pos + 1 + (first &&& 0x7f).toNat < w.size := by omega
    rw [if_neg form, if_neg form, Checked.add_of_lt stop, Checked.done_bind]
    by_cases truncated : pos + 1 + (first &&& 0x7f).toNat > buf.length
    · rw [if_pos truncated, if_pos truncated]
      rfl
    · rw [if_neg truncated, if_neg truncated]
      rfl

/-- Four digits follow the byte 0x84 only. -/
theorem count_eq_four_iff {first : UInt8} (long : ¬first < 0x80) :
    (first &&& 0x7f).toNat = 4 ↔ first = 0x84 := by
  have byte : first.toNat < 256 := first.toNat_lt
  have high : 128 ≤ first.toNat := by
    rw [UInt8.lt_iff_toNat_lt] at long
    exact Nat.not_lt.mp long
  have low : (first &&& 0x7f).toNat = first.toNat % 128 := by
    rw [UInt8.toNat_and]
    exact Nat.and_two_pow_sub_one_eq_mod first.toNat 7
  rw [low, ← UInt8.toNat_inj]
  have four : (0x84 : UInt8).toNat = 132 := rfl
  rw [four]
  omega

/-- A length that is read ends within the buffer; it has four digits, or it is small. -/
theorem readLen_cases {buf : Bytes} {pos len afterLen : Nat}
    (read : readLen buf pos = some (len, afterLen)) :
    pos < afterLen ∧ afterLen ≤ buf.length ∧ len < 2 ^ 32 ∧
      ((wireLength buf pos = some len ∧ afterLen = pos + 5) ∨
        (wireLength buf pos = none ∧ len < 2 ^ 24)) := by
  rw [readLen] at read
  cases here : buf[pos]? with
  | none =>
    rw [here] at read
    cases read
  | some first =>
    have inside : pos < buf.length := (List.getElem?_eq_some_iff.mp here).1
    rw [here] at read
    simp only [Option.bind_eq_bind, Option.bind_some] at read
    -- a length below 128 is its own byte
    by_cases direct : first < 0x80
    · rw [if_pos direct] at read
      obtain ⟨rfl, rfl⟩ := Prod.mk.inj (Option.some.inj read)
      have byte : first.toNat < 256 := first.toNat_lt
      have other : first ≠ 0x84 := by
        rintro rfl
        exact absurd direct (by decide)
      have none : wireLength buf pos = none :=
        if_neg fun both => other (Option.some.inj (here.symm.trans both.1))
      exact ⟨by omega, inside, by omega, .inr ⟨none, by omega⟩⟩
    rw [if_neg direct] at read
    by_cases form : (first &&& 0x7f).toNat = 0 ∨ (first &&& 0x7f).toNat > 4
    · rw [if_pos form] at read
      cases read
    rw [if_neg form] at read
    by_cases truncated : pos + 1 + (first &&& 0x7f).toNat > buf.length
    · rw [if_pos truncated] at read
      cases read
    rw [if_neg truncated] at read
    obtain ⟨rfl, rfl⟩ := Prod.mk.inj (Option.some.inj read)
    have digits := foldl_digits_lt (slice buf (pos + 1) (first &&& 0x7f).toNat) 0
    rw [length_slice _ _ _ (by omega), Nat.zero_add, Nat.one_mul] at digits
    -- the count of digits that follow
    by_cases four : (first &&& 0x7f).toNat = 4
    · have given : wireLength buf pos =
          some ((slice buf (pos + 1) 4).foldl (fun v b => v * 256 + b.toNat) 0) :=
        if_pos ⟨(count_eq_four_iff direct).mp four ▸ here, by omega⟩
      rw [four] at digits ⊢
      exact ⟨by omega, by omega, digits, .inl ⟨given, by omega⟩⟩
    · -- at most three digits
      have few : 256 ^ (first &&& 0x7f).toNat ≤ 256 ^ 3 :=
        Nat.pow_le_pow_right (by decide) (by omega)
      have none : wireLength buf pos = none := by
        apply if_neg
        intro both
        exact four ((count_eq_four_iff direct).mpr (Option.some.inj (here.symm.trans both.1)))
      exact ⟨by omega, by omega, by omega, .inr ⟨none, by omega⟩⟩

/-- A length that cannot be read has no four digits. -/
theorem wireLength_of_readLen_none {buf : Bytes} {pos : Nat} (unread : readLen buf pos = none) :
    wireLength buf pos = none := by
  apply if_neg
  rintro ⟨first, long⟩
  rw [readLen, first] at unread
  have form : ¬(((0x84 : UInt8) &&& 0x7f).toNat = 0 ∨ ((0x84 : UInt8) &&& 0x7f).toNat > 4) := by
    decide
  have room : ¬pos + 1 + ((0x84 : UInt8) &&& 0x7f).toNat > buf.length := by
    have four : ((0x84 : UInt8) &&& 0x7f).toNat = 4 := by decide
    omega
  have large : ¬(0x84 : UInt8) < 0x80 := by decide
  simp only [Option.bind_eq_bind, Option.bind_some, if_neg large, if_neg form, if_neg room]
    at unread
  cases unread

/-! ### Triples -/

/-- The length at `pos`, added to where it ends, stays below 2^32 where a `usize` has 32 bits. -/
def LengthFits (w : Width) (buf : Bytes) (pos : Nat) : Prop :=
  w = .w64 ∨ ∀ len, wireLength buf pos = some len → pos + 5 + len < 2 ^ 32

/-- Only a length of four digits takes the sum out of range. -/
theorem sum_lt_iff {w : Width} {buf : Bytes} (short : buf.length < w.size / 2)
    {pos len afterLen : Nat} (read : readLen buf pos = some (len, afterLen)) :
    afterLen + len < w.size ↔ LengthFits w buf pos := by
  obtain ⟨-, inside, small, form⟩ := readLen_cases read
  cases w with
  -- 2^32 + 2^63 is still in range
  | w64 =>
    rw [Width.size_w64] at short ⊢
    exact ⟨fun _ => .inl rfl, fun _ => by omega⟩
  | w32 =>
    rw [Width.size_w32] at short ⊢
    rcases form with ⟨four, rfl⟩ | ⟨none, tiny⟩
    · constructor
      · intro fits
        refine .inr fun len' given => ?_
        obtain rfl := Option.some.inj (four.symm.trans given)
        exact fits
      · intro fits
        exact (fits.resolve_left Width.noConfusion) len four
    · constructor
      · intro _
        refine .inr fun len' given => ?_
        rw [none] at given
        cases given
      · intro _
        omega

theorem lengthFits_of_unread {w : Width} {buf : Bytes} {pos : Nat}
    (unread : readLen buf pos = none) : LengthFits w buf pos := by
  refine .inr fun len given => ?_
  rw [wireLength_of_readLen_none unread] at given
  cases given

theorem readAnyTlvChecked_exactWhen {w : Width} {buf : Bytes} (short : buf.length < w.size / 2)
    (pos : Nat) :
    (readAnyTlvChecked w buf pos).ExactWhen (readAnyTlv buf pos) (LengthFits w buf (pos + 1)) := by
  obtain ⟨large, whole⟩ := half_size w
  rw [readAnyTlvChecked, readAnyTlv]
  cases here : buf[pos]? with
  | none =>
    -- behind the end there is no length either
    have unread : readLen buf (pos + 1) = none := by
      have beyond : buf[pos + 1]? = none := by
        rw [List.getElem?_eq_none_iff] at here ⊢
        omega
      rw [readLen, beyond]
      rfl
    exact .inl ⟨lengthFits_of_unread unread, rfl⟩
  | some tag =>
    have inside : pos < buf.length := (List.getElem?_eq_some_iff.mp here).1
    have next : pos + 1 < w.size := by omega
    simp only [Checked.ofOption, Checked.done_bind, Checked.add_of_lt next, Option.bind_eq_bind,
      Option.bind_some, readLenChecked_eq short]
    cases read : readLen buf (pos + 1) with
    | none => exact .inl ⟨lengthFits_of_unread read, rfl⟩
    | some result =>
      obtain ⟨len, afterLen⟩ := result
      have bound := sum_lt_iff short read
      simp only [Checked.done_bind, Option.bind_some]
      by_cases fits : afterLen + len < w.size
      · refine .inl ⟨bound.mp fits, ?_⟩
        rw [Checked.add_of_lt fits, Checked.done_bind]
        by_cases truncated : afterLen + len > buf.length
        · rw [if_pos truncated, if_pos truncated]
          rfl
        · rw [if_neg truncated, if_neg truncated]
          rfl
      · refine .inr ⟨fun holds => fits (bound.mpr holds), ?_⟩
        rw [Checked.add_of_le (Nat.not_lt.mp fits), Checked.overflow_bind]

/-- Under the expected tag the two readers do the same. -/
theorem readTlv_of_tag {buf : Bytes} {pos : Nat} {tag : UInt8} (here : buf[pos]? = some tag) :
    readTlv buf pos tag = (readAnyTlv buf pos).map Prod.snd := by
  rw [readTlv, readAnyTlv, here]
  simp only [Option.bind_eq_bind, Option.bind_some, ne_eq, not_true_eq_false, if_false]
  cases readLen buf (pos + 1) with
  | none => rfl
  | some result =>
    simp only [Option.bind_some]
    split <;> rfl

theorem readTlvChecked_of_tag (w : Width) {buf : Bytes} {pos : Nat} {tag : UInt8}
    (here : buf[pos]? = some tag) :
    readTlvChecked w buf pos tag =
      readAnyTlvChecked w buf pos >>= fun triple => pure triple.2 := by
  rw [readTlvChecked, readAnyTlvChecked, here]
  simp only [Checked.ofOption, Checked.done_bind, ne_eq, not_true_eq_false, if_false]
  cases Checked.add w pos 1 with
  | rejected => rfl
  | overflow => rfl
  | done lengthAt =>
    simp only [Checked.done_bind]
    cases readLenChecked w buf lengthAt with
    | rejected => rfl
    | overflow => rfl
    | done result =>
      simp only [Checked.done_bind]
      cases Checked.add w result.2 result.1 with
      | rejected => rfl
      | overflow => rfl
      | done stop =>
        simp only [Checked.done_bind]
        split <;> rfl

/-- Under another tag `read_tlv` looks at no length. -/
theorem readTlv_of_other {buf : Bytes} {pos : Nat} {tag : UInt8} (other : buf[pos]? ≠ some tag) :
    readTlv buf pos tag = none := by
  rw [readTlv]
  cases here : buf[pos]? with
  | none => rfl
  | some found =>
    have different : found ≠ tag := by
      rintro rfl
      exact other here
    simp only [Option.bind_eq_bind, Option.bind_some, if_pos different]
    rfl

theorem readTlvChecked_of_other (w : Width) {buf : Bytes} {pos : Nat} {tag : UInt8}
    (other : buf[pos]? ≠ some tag) : readTlvChecked w buf pos tag = .rejected := by
  rw [readTlvChecked]
  cases here : buf[pos]? with
  | none => rfl
  | some found =>
    have different : found ≠ tag := by
      rintro rfl
      exact other here
    simp only [Checked.ofOption, Checked.done_bind, if_pos different]
    rfl

theorem readTlvChecked_exactWhen {w : Width} {buf : Bytes} (short : buf.length < w.size / 2)
    (pos : Nat) (expectedTag : UInt8) :
    (readTlvChecked w buf pos expectedTag).ExactWhen (readTlv buf pos expectedTag)
      (buf[pos]? = some expectedTag → LengthFits w buf (pos + 1)) := by
  by_cases here : buf[pos]? = some expectedTag
  · rw [readTlv_of_tag here, readTlvChecked_of_tag w here, forall_prop_of_true here]
    exact (readAnyTlvChecked_exactWhen short pos).map Prod.snd
  · rw [readTlv_of_other here, readTlvChecked_of_other w here]
    exact .inl ⟨fun same => absurd same here, rfl⟩

/-- The content of a triple that is read lies in the buffer. -/
theorem readAnyTlv_inRange {buf : Bytes} {pos : Nat} {tag : UInt8} {content : Bytes} {stop : Nat}
    (read : readAnyTlv buf pos = some (tag, content, stop)) :
    ∃ start, content = slice buf start content.length ∧ start + content.length = stop ∧
      stop ≤ buf.length := by
  rw [readAnyTlv] at read
  obtain ⟨found, -, read⟩ := Option.bind_eq_some_iff.mp read
  obtain ⟨⟨len, afterLen⟩, -, read⟩ := Option.bind_eq_some_iff.mp read
  simp only at read
  by_cases truncated : afterLen + len > buf.length
  · rw [if_pos truncated] at read
    cases read
  · rw [if_neg truncated] at read
    cases read
    have long : (slice buf afterLen len).length = len :=
      length_slice buf afterLen len (Nat.not_lt.mp truncated)
    rw [long]
    exact ⟨afterLen, rfl, rfl, Nat.not_lt.mp truncated⟩

/-! ### Create contexts -/

namespace CreateContext

/-- The data of an entry whose name is there ends below 2^32 where a `usize` has 32 bits. -/
def DataFits (w : Width) (entry : Bytes) : Prop :=
  w = .w64 ∨ (16 ≤ entry.length →
    (EntryHeader.read entry).nameOffset + (EntryHeader.read entry).nameLength ≤ entry.length →
      (EntryHeader.read entry).dataOffset + (EntryHeader.read entry).dataLength < 2 ^ 32)

/-- The walk that is at `start` comes to the entry at `off`. -/
inductive Visits (chain : Bytes) : Nat → Nat → Prop where
  | here (off : Nat) : Visits chain off off
  | later {start off : Nat}
      (bounds : (EntryHeader.read (chain.drop start)).InBounds (chain.drop start))
      (more : (EntryHeader.read (chain.drop start)).next ≠ 0)
      (onward : Visits chain (start + (EntryHeader.read (chain.drop start)).next) off) :
      Visits chain start off

theorem Visits.le {chain : Bytes} {start off : Nat} (visits : Visits chain start off) :
    start ≤ off := by
  induction visits with
  | here off => exact le_rfl
  | later bounds more onward ih => exact (Nat.le_add_right _ _).trans ih

theorem EntryHeader.read_lt (entry : Bytes) :
    (EntryHeader.read entry).nameOffset < 2 ^ 16 ∧ (EntryHeader.read entry).nameLength < 2 ^ 16 ∧
      (EntryHeader.read entry).dataOffset < 2 ^ 16 ∧ (EntryHeader.read entry).dataLength < 2 ^ 32 :=
  ⟨UInt16.toNat_lt _, UInt16.toNat_lt _, UInt16.toNat_lt _, UInt32.toNat_lt _⟩

theorem dataFits_of_short {w : Width} {entry : Bytes} (truncated : entry.length < 16) :
    DataFits w entry :=
  .inr fun header => absurd header (Nat.not_le.mpr truncated)

/-- Behind the chain there is nothing to add up. -/
theorem dataFits_beyond {w : Width} {chain : Bytes} {start : Nat} (beyond : chain.length < start)
    (off : Nat) (visits : Visits chain start off) : DataFits w (chain.drop off) := by
  apply dataFits_of_short
  have order := visits.le
  rw [List.length_drop]
  omega

/-- The data's end is a sum in range exactly when it stays below 2^32. -/
theorem dataEnd_lt_iff {w : Width} {entry : Bytes} (header : 16 ≤ entry.length)
    (name : (EntryHeader.read entry).nameOffset + (EntryHeader.read entry).nameLength ≤
      entry.length) :
    (EntryHeader.read entry).dataOffset + (EntryHeader.read entry).dataLength < w.size ↔
      DataFits w entry := by
  obtain ⟨-, -, dataOffset, dataLength⟩ := EntryHeader.read_lt entry
  cases w with
  | w64 =>
    rw [Width.size_w64]
    exact ⟨fun _ => .inl rfl, fun _ => by omega⟩
  | w32 =>
    rw [Width.size_w32]
    constructor
    · intro fits
      exact .inr fun _ _ => fits
    · intro fits
      exact fits.resolve_left Width.noConfusion header name

theorem parseEntryChecked_exactWhen (w : Width) (entry : Bytes) :
    (parseEntryChecked w entry).ExactWhen (parseEntry entry) (DataFits w entry) := by
  obtain ⟨large, whole⟩ := half_size w
  obtain ⟨nameOffset, nameLength, dataOffset, -⟩ := EntryHeader.read_lt entry
  by_cases truncated : entry.length < 16
  · refine .inl ⟨dataFits_of_short truncated, ?_⟩
    rw [parseEntryChecked, parseEntry, if_pos truncated, if_pos truncated]
    rfl
  rw [parseEntryChecked, if_neg truncated]
  -- two fields of 16 bits: their sum stays in range at any width
  have nameEnd : (EntryHeader.read entry).nameOffset + (EntryHeader.read entry).nameLength <
      w.size := by omega
  simp only [Checked.add_of_lt nameEnd, Checked.done_bind]
  by_cases name : entry.length < (EntryHeader.read entry).nameOffset +
      (EntryHeader.read entry).nameLength
  · -- the name is refused before the data is looked at
    have refused : parseEntry entry = none := by
      rw [parseEntry, if_neg truncated]
      exact if_pos name
    rw [if_pos name, refused]
    exact .inl ⟨.inr fun _ there => absurd there (Nat.not_le.mpr name), rfl⟩
  have bound := dataEnd_lt_iff (w := w) (Nat.not_lt.mp truncated) (Nat.not_lt.mp name)
  rw [if_neg name]
  by_cases empty : (EntryHeader.read entry).dataLength = 0
  · have accepted := parseEntry_of_inBounds
      ⟨Nat.not_lt.mp truncated, Nat.not_lt.mp name, .inl empty⟩
    rw [if_pos empty, accepted]
    exact .inl ⟨bound.mp (by omega), rfl⟩
  rw [if_neg empty]
  by_cases fits : (EntryHeader.read entry).dataOffset + (EntryHeader.read entry).dataLength < w.size
  · refine .inl ⟨bound.mp fits, ?_⟩
    rw [Checked.add_of_lt fits, Checked.done_bind]
    by_cases data : entry.length < (EntryHeader.read entry).dataOffset +
        (EntryHeader.read entry).dataLength
    · have refused : parseEntry entry = none := by
        rw [parseEntry, if_neg truncated]
        exact (if_neg name).trans ((if_neg empty).trans (if_pos data))
      rw [if_pos data, refused]
      rfl
    · have accepted := parseEntry_of_inBounds
        ⟨Nat.not_lt.mp truncated, Nat.not_lt.mp name, .inr (Nat.not_lt.mp data)⟩
      rw [if_neg data, accepted]
      rfl
  · refine .inr ⟨fun holds => fits (bound.mpr holds), ?_⟩
    rw [Checked.add_of_le (Nat.not_lt.mp fits), Checked.overflow_bind]

theorem parseChainFrom_beyond {chain : Bytes} {cursorOff : Nat} (beyond : chain.length < cursorOff)
    (fuel : Nat) : parseChainFrom fuel chain cursorOff = none := by
  cases fuel with
  | zero => rfl
  | succ fuel => exact if_pos beyond

/-- The walk is exact when every entry that it comes to is. The fuel lasts to the end of the chain:
each `Next` moves the cursor. -/
theorem parseChainFromChecked_exactWhen {w : Width} {chain : Bytes}
    (short : chain.length < w.size / 2) (fuel : Nat) {cursorOff : Nat}
    (enough : chain.length < cursorOff + fuel) :
    (parseChainFromChecked w fuel chain cursorOff).ExactWhen (parseChainFrom fuel chain cursorOff)
      (∀ off, Visits chain cursorOff off → DataFits w (chain.drop off)) := by
  induction fuel generalizing cursorOff with
  | zero => exact .inl ⟨dataFits_beyond enough, rfl⟩
  | succ fuel ih =>
    rw [parseChainFromChecked, parseChainFrom]
    by_cases beyond : chain.length < cursorOff
    · rw [if_pos beyond, if_pos beyond]
      exact .inl ⟨dataFits_beyond beyond, rfl⟩
    rw [if_neg beyond, if_neg beyond]
    rcases parseEntryChecked_exactWhen w (chain.drop cursorOff) with ⟨fits, exact⟩ | ⟨fails, out⟩
    · rw [exact]
      cases entry : parseEntry (chain.drop cursorOff) with
      | none =>
        refine .inl ⟨?_, rfl⟩
        intro off visits
        cases visits with
        | here => exact fits
        | later bounds more onward =>
          rw [parseEntry_of_inBounds bounds] at entry
          cases entry
      | some result =>
        obtain ⟨ctx, next⟩ := result
        obtain ⟨bounds, rfl, rfl⟩ := (parseEntry_eq_some_iff _ _ _).mp entry
        simp only [Checked.ofOption, Checked.done_bind]
        by_cases last : (EntryHeader.read (chain.drop cursorOff)).next = 0
        · rw [if_pos last, if_pos last]
          refine .inl ⟨?_, rfl⟩
          intro off visits
          cases visits with
          | here => exact fits
          | later bounds more onward => exact absurd last more
        rw [if_neg last, if_neg last]
        -- the entries that are left decide
        have left : (∀ off,
            Visits chain (cursorOff + (EntryHeader.read (chain.drop cursorOff)).next) off →
              DataFits w (chain.drop off)) ↔
              ∀ off, Visits chain cursorOff off → DataFits w (chain.drop off) := by
          constructor
          · intro rest off visits
            cases visits with
            | here => exact fits
            | later bounds more onward => exact rest off onward
          · intro all off onward
            exact all off (.later bounds last onward)
        have ahead : chain.length <
            cursorOff + (EntryHeader.read (chain.drop cursorOff)).next + fuel := by omega
        have rest := (ih ahead).congr left
        by_cases wrapped : w.size ≤ cursorOff + (EntryHeader.read (chain.drop cursorOff)).next
        · -- `checked_add` refuses what the walk would refuse behind the end
          have behind : chain.length <
              cursorOff + (EntryHeader.read (chain.drop cursorOff)).next := by omega
          rw [if_pos wrapped, parseChainFrom_beyond behind]
          exact .inl ⟨left.mp (dataFits_beyond behind), rfl⟩
        · rw [if_neg wrapped]
          exact rest.map _
    · rw [out]
      exact .inr ⟨fun all => fails (all cursorOff (.here cursorOff)), rfl⟩

theorem parseChainChecked_exactWhen {w : Width} {chain : Bytes}
    (short : chain.length < w.size / 2) :
    (parseChainChecked w chain).ExactWhen (parseChain chain)
      (∀ off, Visits chain 0 off → DataFits w (chain.drop off)) := by
  rw [parseChainChecked, parseChain]
  cases chain with
  | nil =>
    refine .inl ⟨?_, rfl⟩
    intro off _
    apply dataFits_of_short
    rw [List.drop_nil]
    decide
  | cons b rest =>
    rw [List.isEmpty_cons, if_neg Bool.false_ne_true, if_neg Bool.false_ne_true]
    exact parseChainFromChecked_exactWhen short _ (by omega)

/-- An entry is taken from the chain only where its slices lie in it. -/
theorem inBounds_of_parseEntryChecked {w : Width} {entry : Bytes} {ctx : CreateContext} {next : Nat}
    (accepted : parseEntryChecked w entry = .done (ctx, next)) :
    (EntryHeader.read entry).InBounds entry :=
  inBounds_of_parseEntry ((parseEntryChecked_exactWhen w entry).of_done accepted)

end CreateContext

/-! ### SET_INFO -/

namespace SetInfo

/-- The end of the new name is below 2^32 where a `usize` has 32 bits. -/
def NameFits (w : Width) (buffer : Bytes) : Prop :=
  w = .w64 ∨ (20 ≤ buffer.length → 20 + (readU32 buffer 16).toNat < 2 ^ 32)

theorem nameEnd_lt_iff {w : Width} {buffer : Bytes} (header : 20 ≤ buffer.length) :
    20 + (readU32 buffer 16).toNat < w.size ↔ NameFits w buffer := by
  have word := UInt32.toNat_lt (readU32 buffer 16)
  cases w with
  | w64 =>
    rw [Width.size_w64]
    exact ⟨fun _ => .inl rfl, fun _ => by omega⟩
  | w32 =>
    rw [Width.size_w32]
    constructor
    · intro fits
      exact .inr fun _ => fits
    · intro fits
      exact fits.resolve_left Width.noConfusion header

theorem renameNameChecked_exactWhen (w : Width) (buffer : Bytes) :
    (renameNameChecked w buffer).ExactWhen (renameName buffer) (NameFits w buffer) := by
  rw [renameNameChecked, renameName]
  by_cases truncated : buffer.length < 20
  · rw [if_pos truncated, if_pos truncated]
    exact .inl ⟨.inr fun header => absurd header (Nat.not_le.mpr truncated), rfl⟩
  rw [if_neg truncated, if_neg truncated]
  have bound := nameEnd_lt_iff (w := w) (Nat.not_lt.mp truncated)
  by_cases fits : 20 + (readU32 buffer 16).toNat < w.size
  · refine .inl ⟨bound.mp fits, ?_⟩
    simp only [Checked.add_of_lt fits, Checked.done_bind]
    by_cases tooLong : buffer.length < 20 + (readU32 buffer 16).toNat
    · rw [if_pos tooLong, if_pos tooLong]
      rfl
    · rw [if_neg tooLong, if_neg tooLong]
      rfl
  · refine .inr ⟨fun holds => fits (bound.mpr holds), ?_⟩
    simp only [Checked.add_of_le (Nat.not_lt.mp fits), Checked.overflow_bind]

theorem renameName_inRange {buffer name : Bytes} (taken : renameName buffer = some name) :
    name = slice buffer 20 name.length ∧ 20 + name.length ≤ buffer.length := by
  rw [renameName] at taken
  simp only at taken
  split at taken
  · cases taken
  split at taken
  · cases taken
  next inside =>
    cases taken
    have long : (slice buffer 20 (readU32 buffer 16).toNat).length = (readU32 buffer 16).toNat :=
      length_slice buffer 20 _ (Nat.not_lt.mp inside)
    rw [long]
    exact ⟨rfl, Nat.not_lt.mp inside⟩

end SetInfo

/-! ### The result -/

/-- What the functions slice lies in the buffer. -/
structure SlicesInRange (w : Width) (buf : Bytes) : Prop where
  anyTlv : ∀ pos tag content stop, readAnyTlvChecked w buf pos = .done (tag, content, stop) →
    ∃ start, content = slice buf start content.length ∧ start + content.length = stop ∧
      stop ≤ buf.length
  tlv : ∀ pos tag content stop, readTlvChecked w buf pos tag = .done (content, stop) →
    ∃ start, content = slice buf start content.length ∧ start + content.length = stop ∧
      stop ≤ buf.length
  entry : ∀ off ctx next,
    CreateContext.parseEntryChecked w (buf.drop off) = .done (ctx, next) →
      (CreateContext.EntryHeader.read (buf.drop off)).InBounds (buf.drop off)
  rename : ∀ name, SetInfo.renameNameChecked w buf = .done name →
    name = slice buf 20 name.length ∧ 20 + name.length ≤ buf.length

theorem slicesInRange {w : Width} {buf : Bytes} (short : buf.length < w.size / 2) :
    SlicesInRange w buf where
  anyTlv pos _ _ _ accepted :=
    readAnyTlv_inRange ((readAnyTlvChecked_exactWhen short pos).of_done accepted)
  tlv pos tag content stop accepted := by
    have read := (readTlvChecked_exactWhen short pos tag).of_done accepted
    by_cases here : buf[pos]? = some tag
    · rw [readTlv_of_tag here] at read
      obtain ⟨⟨found, _, _⟩, read, same⟩ := Option.map_eq_some_iff.mp read
      cases same
      exact readAnyTlv_inRange read
    · rw [readTlv_of_other here] at read
      cases read
  entry _ _ _ accepted := CreateContext.inBounds_of_parseEntryChecked accepted
  rename _ accepted :=
    SetInfo.renameName_inRange ((SetInfo.renameNameChecked_exactWhen w buf).of_done accepted)

/-- For every buffer and both widths: what is sliced is in range, `read_len` is exact, and each of
the other functions is exactly where its own sum stays below 2^32 or a `usize` has 64 bits. -/
theorem wireArithmetic_iff (w : Width) (buf : Buffer w) :
    SlicesInRange w buf.bytes ∧
      (∀ pos, readLenChecked w buf.bytes pos = .ofOption (readLen buf.bytes pos)) ∧
      (∀ pos, readAnyTlvChecked w buf.bytes pos = .ofOption (readAnyTlv buf.bytes pos) ↔
        LengthFits w buf.bytes (pos + 1)) ∧
      (∀ pos tag, readTlvChecked w buf.bytes pos tag = .ofOption (readTlv buf.bytes pos tag) ↔
        (buf.bytes[pos]? = some tag → LengthFits w buf.bytes (pos + 1))) ∧
      (CreateContext.parseChainChecked w buf.bytes =
          .ofOption (CreateContext.parseChain buf.bytes) ↔
        ∀ off, CreateContext.Visits buf.bytes 0 off →
          CreateContext.DataFits w (buf.bytes.drop off)) ∧
      (SetInfo.renameNameChecked w buf.bytes = .ofOption (SetInfo.renameName buf.bytes) ↔
        SetInfo.NameFits w buf.bytes) :=
  ⟨slicesInRange buf.short, readLenChecked_eq buf.short,
    fun pos => (readAnyTlvChecked_exactWhen buf.short pos).iff,
    fun pos tag => (readTlvChecked_exactWhen buf.short pos tag).iff,
    (CreateContext.parseChainChecked_exactWhen buf.short).iff,
    (SetInfo.renameNameChecked_exactWhen w buf.bytes).iff⟩

/-- A token whose outer length ends behind every 32-bit position. -/
def Sample.longToken : Buffer .w32 where
  bytes := [0x60, 0x84, 0xff, 0xff, 0xff, 0xff]
  short := by decide

/-- The first read of `decode_init_token` leaves the words of 32 bits. -/
theorem wireArithmetic_overflows :
    ¬∀ (w : Width) (buf : Buffer w) (pos : Nat) (tag : UInt8),
      readTlvChecked w buf.bytes pos tag = .ofOption (readTlv buf.bytes pos tag) := by
  intro exact
  have out : readTlvChecked .w32 Sample.longToken.bytes 0 0x60 = .overflow := by decide +kernel
  exact Checked.ofOption_ne_overflow _ ((exact .w32 Sample.longToken 0 0x60).symm.trans out)

end SmbServer
