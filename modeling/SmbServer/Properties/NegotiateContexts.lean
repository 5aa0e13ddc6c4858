import SmbServer.Proto.Messages

/-!
# SmbServer.Properties.NegotiateContexts

Lists of NEGOTIATE_CONTEXTs on the wire.

## Main result

`negotiateContexts_roundTrip`: a list of contexts that state the length of their data comes back
from its encoding, whatever the types, the reserved words and the lengths are.

## Proof strategy

The writer pads in front of an entry, from the length of what it has written; the reader pads in
front of an entry, from the number of bytes that it has consumed. `entries` are the bytes that a
list adds behind a given position; the induction on the list carries the position, which is what
the two have in common.
-/

namespace SmbServer

open Lib

namespace NegotiateContext

/-- The padding in front of an entry. -/
def padding (position : Nat) : Bytes := List.replicate ((8 - position % 8) % 8) 0

/-- What a list adds to `position` bytes of the same list. -/
def entries (position : Nat) : List NegotiateContext → Bytes
  | [] => []
  | c :: rest =>
    padding position ++ c.write ++
      entries (position + (padding position).length + c.write.length) rest

theorem encodeListFrom_eq (out : Bytes) (list : List NegotiateContext) :
    encodeListFrom out list = out ++ entries out.length list := by
  induction list generalizing out with
  | nil => rw [encodeListFrom, entries, List.append_nil]
  | cons c rest ih =>
    -- the writer goes on behind what it has written, the padding included
    have grown : (out ++ padding out.length ++ c.write).length =
        out.length + (padding out.length).length + c.write.length := by
      rw [List.length_append, List.length_append]
    have step : encodeListFrom out (c :: rest) =
        encodeListFrom (out ++ padding out.length ++ c.write) rest := rfl
    rw [step, ih, grown, entries]
    simp only [List.append_assoc]

/-- The context states the length of its data. -/
def Measured (c : NegotiateContext) : Prop := c.dataLength.toNat = c.data.length

theorem read_write {c : NegotiateContext} (measured : c.Measured) (behind : Bytes) :
    read (c.write ++ behind) = some (c, behind) := by
  have shape : c.write ++ behind = u16le c.contextType ++ (u16le c.dataLength ++
      (u32le c.reserved ++ (c.data ++ behind))) := by
    simp only [write, List.append_assoc]
  rw [shape, read, Reader.u16_bind_append, Reader.u16_bind_append, Reader.u32_bind_append,
    Reader.bytes_bind_append _ _ _ measured.symm]
  rfl

theorem parseListFrom_entries (list : List NegotiateContext) (position : Nat)
    (measured : ∀ c ∈ list, c.Measured) :
    parseListFrom list.length (entries position list) position = some list := by
  induction list generalizing position with
  | nil => rfl
  | cons c rest ih =>
    have here := measured c List.mem_cons_self
    have later := fun d member => measured d (List.mem_cons_of_mem c member)
    have size : (padding position).length = (8 - position % 8) % 8 := List.length_replicate
    -- skipping the padding leaves the entry in front of the others
    have skipped : (entries position (c :: rest)).drop ((8 - position % 8) % 8) = c.write ++
        entries (position + (padding position).length + c.write.length) rest := by
      rw [entries, List.append_assoc, List.drop_left' size]
    have enough : ¬(entries position (c :: rest)).length < (8 - position % 8) % 8 := by
      rw [entries, List.length_append, List.length_append, size]
      omega
    have took (behind : Bytes) : (c.write ++ behind).length - behind.length = c.write.length := by
      rw [List.length_append, Nat.add_sub_cancel]
    rw [List.length_cons, parseListFrom]
    simp only [if_neg enough, skipped, read_write here, took]
    rw [← size, ih _ later]
    rfl

end NegotiateContext

/-- A list of contexts is read back from its encoding. -/
theorem negotiateContexts_roundTrip (list : List NegotiateContext) (count : list.length ≤ 65535)
    (measured : ∀ c ∈ list, c.dataLength.toNat = c.data.length) :
    NegotiateContext.parseList (NegotiateContext.encodeList list) (UInt16.ofNat list.length) =
      some list := by
  have whole : (UInt16.ofNat list.length).toNat = list.length := by
    rw [UInt16.toNat_ofNat']
    exact Nat.mod_eq_of_lt (by omega)
  rw [NegotiateContext.parseList, NegotiateContext.encodeList, whole,
    NegotiateContext.encodeListFrom_eq]
  exact NegotiateContext.parseListFrom_entries list 0 measured

/-- A context of five bytes of data, and one behind it without any. -/
def Sample.twoContexts : List NegotiateContext := [⟨3, 5, 9, [1, 2, 3, 4, 5]⟩, ⟨8, 0, 0, []⟩]

theorem negotiateContexts_roundTrip_two :
    NegotiateContext.parseList (NegotiateContext.encodeList Sample.twoContexts)
      (UInt16.ofNat Sample.twoContexts.length) = some Sample.twoContexts :=
  negotiateContexts_roundTrip Sample.twoContexts (by decide) (by decide)

end SmbServer
