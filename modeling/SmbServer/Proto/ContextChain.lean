import SmbServer.Lib.Chain
import SmbServer.Proto.Messages

/-!
# SmbServer.Proto.ContextChain

The create-context chain as `encode_chain` builds it: one scratch buffer, headers filled in behind
what they describe, `Next` patched when all entries are written. `encodeChainScratch_eq` says that
the result is `encodeChain`, which puts the finished entries together.

`EntryHeader` are the words of an entry that `parse_chain` reads.
-/

namespace SmbServer.CreateContext

open Lib

/-- `buf` with zeros up to a multiple of 8 bytes behind `start`. -/
def padFrom (start : Nat) (buf : Bytes) : Bytes := buf ++ pad8 (buf.length - start)

/-- One round of the loop of `encode_chain`, behind the padding to the start of the entry. -/
def writeEntry (scratch : Bytes) (ctx : CreateContext) (isLast : Bool) : Bytes :=
  let headerPos := scratch.length
  let withHeader := scratch ++ List.replicate 16 0
  let nameOffsetRel := UInt16.ofNat (withHeader.length - headerPos)
  let withName := padFrom headerPos (withHeader ++ ctx.name)
  let dataOffsetRel := UInt16.ofNat (withName.length - headerPos)
  let withData := withName ++ ctx.data
  let hdr := u32le 0 ++ u16le nameOffsetRel ++ u16le (UInt16.ofNat ctx.name.length) ++ u16le 0 ++
    u16le dataOffsetRel ++ u32le (UInt32.ofNat ctx.data.length)
  let filled := patch withData headerPos hdr
  if isLast then filled else padFrom 0 filled

/-- The loop: the scratch buffer and where the entries start in it. -/
def writeEntries (scratch : Bytes) (entryStarts : List Nat) :
    List CreateContext → Bytes × List Nat
  | [] => (scratch, entryStarts)
  | ctx :: rest =>
    let aligned := padFrom 0 scratch
    writeEntries (writeEntry aligned ctx rest.isEmpty) (entryStarts ++ [aligned.length]) rest

/-- The second loop of `encode_chain`, which patches the `Next` of every entry but the last. -/
def patchNexts (scratch : Bytes) (entryStarts : List Nat) : Bytes :=
  Chain.linkAll 0 scratch entryStarts

def encodeChainScratch (list : List CreateContext) : Bytes :=
  let written := writeEntries [] [] list
  patchNexts written.1 written.2

/-! ### Entries -/

theorem length_pad8 (n : Nat) : (pad8 n).length = (8 - n % 8) % 8 := List.length_replicate

theorem padded_length (n : Nat) : (n + (pad8 n).length) % 8 = 0 := by
  rw [length_pad8]
  omega

/-- Padding from an aligned start. -/
theorem pad8_add {start : Nat} (aligned : start % 8 = 0) (n : Nat) : pad8 (start + n) = pad8 n := by
  rw [pad8, pad8]
  congr 1
  omega

theorem padFrom_zero_of_aligned {buf : Bytes} (aligned : buf.length % 8 = 0) :
    padFrom 0 buf = buf := by
  have none : pad8 buf.length = [] := by rw [pad8, aligned]; rfl
  rw [padFrom, Nat.sub_zero, none, List.append_nil]

@[simp] theorem length_encodeEntry (ctx : CreateContext) (next : Nat) :
    (encodeEntry ctx next).length =
      16 + ctx.name.length + (pad8 (16 + ctx.name.length)).length + ctx.data.length := by
  simp only [encodeEntry, List.length_append, length_u32le, length_u16le]

/-- An entry that others follow, its `Next` still 0. -/
def paddedEntry (ctx : CreateContext) : Bytes :=
  encodeEntry ctx 0 ++ pad8 (encodeEntry ctx 0).length

/-- The entries of a chain, each but the last padded. -/
def records : List CreateContext → List Bytes
  | [] => []
  | [ctx] => [encodeEntry ctx 0]
  | ctx :: next :: rest => paddedEntry ctx :: records (next :: rest)

theorem records_room (list : List CreateContext) : ∀ b ∈ records list, 0 + 4 ≤ b.length := by
  induction list with
  | nil => intro b member; cases member
  | cons ctx rest ih =>
    intro b member
    cases rest with
    | nil =>
      obtain rfl := List.mem_singleton.mp member
      rw [length_encodeEntry]
      omega
    | cons next rest =>
      rcases List.mem_cons.mp member with rfl | later
      · rw [paddedEntry, List.length_append, length_encodeEntry]
        omega
      · exact ih b later

theorem length_paddedEntry_mod (ctx : CreateContext) : (paddedEntry ctx).length % 8 = 0 := by
  rw [paddedEntry, List.length_append]
  exact padded_length _

/-! ### The scratch buffer -/

theorem writeEntry_eq {scratch : Bytes} (aligned : scratch.length % 8 = 0) (ctx : CreateContext)
    (isLast : Bool) :
    writeEntry scratch ctx isLast =
      scratch ++ if isLast then encodeEntry ctx 0 else paddedEntry ctx := by
  -- the header, the name and the data, each behind what is already in the buffer
  have nameAt : (scratch ++ List.replicate 16 (0 : UInt8)).length - scratch.length = 16 := by
    rw [List.length_append, List.length_replicate, Nat.add_sub_cancel_left]
  have longName : (scratch ++ List.replicate 16 (0 : UInt8) ++ ctx.name).length - scratch.length =
      16 + ctx.name.length := by
    rw [List.length_append, List.length_append, List.length_replicate]
    omega
  have dataAt : (scratch ++ List.replicate 16 (0 : UInt8) ++ ctx.name ++
      pad8 (16 + ctx.name.length)).length - scratch.length =
      16 + ctx.name.length + (pad8 (16 + ctx.name.length)).length := by
    rw [List.length_append, List.length_append, List.length_append, List.length_replicate]
    omega
  -- the header is patched where the zeros were
  have filled (hdr behind : Bytes) (long : hdr.length = 16) :
      patch (scratch ++ (List.replicate 16 0 ++ behind)) scratch.length hdr =
        scratch ++ (hdr ++ behind) := by
    have inner := patch_append_right scratch (List.replicate 16 0 ++ behind) 0 hdr
    rw [Nat.add_zero] at inner
    rw [inner, patch, long, List.take_zero, List.nil_append, Nat.zero_add,
      List.drop_left' List.length_replicate]
  have entry : patch (scratch ++ List.replicate 16 0 ++ ctx.name ++ pad8 (16 + ctx.name.length) ++
      ctx.data) scratch.length (u32le 0 ++ u16le (UInt16.ofNat 16) ++
        u16le (UInt16.ofNat ctx.name.length) ++ u16le 0 ++
        u16le (UInt16.ofNat (16 + ctx.name.length + (pad8 (16 + ctx.name.length)).length)) ++
        u32le (UInt32.ofNat ctx.data.length)) = scratch ++ encodeEntry ctx 0 := by
    have spot := filled (u32le 0 ++ u16le (UInt16.ofNat 16) ++
        u16le (UInt16.ofNat ctx.name.length) ++ u16le 0 ++
        u16le (UInt16.ofNat (16 + ctx.name.length + (pad8 (16 + ctx.name.length)).length)) ++
        u32le (UInt32.ofNat ctx.data.length))
      (ctx.name ++ (pad8 (16 + ctx.name.length) ++ ctx.data)) (by simp)
    simp only [List.append_assoc] at spot ⊢
    rw [spot, encodeEntry]
    simp only [List.append_assoc]
    rfl
  have padded : padFrom 0 (scratch ++ encodeEntry ctx 0) = scratch ++ paddedEntry ctx := by
    rw [padFrom, Nat.sub_zero, List.length_append, pad8_add aligned, paddedEntry,
      List.append_assoc]
  rw [writeEntry]
  simp only [nameAt, padFrom, longName, dataAt, entry]
  cases isLast with
  | true => rfl
  | false => exact padded

/-- The loop leaves the entries behind what was in the buffer, and their starts. -/
theorem writeEntries_eq (list : List CreateContext) {scratch : Bytes}
    (aligned : scratch.length % 8 = 0) (entryStarts : List Nat) :
    writeEntries scratch entryStarts list = (scratch ++ (records list).flatten,
      entryStarts ++ Chain.starts scratch.length (records list)) := by
  induction list generalizing scratch entryStarts with
  | nil => simp [writeEntries, records, Chain.starts]
  | cons ctx rest ih =>
    have step : writeEntries scratch entryStarts (ctx :: rest) =
        writeEntries (writeEntry (padFrom 0 scratch) ctx rest.isEmpty)
          (entryStarts ++ [(padFrom 0 scratch).length]) rest := rfl
    rw [step, padFrom_zero_of_aligned aligned, writeEntry_eq aligned]
    cases rest with
    | nil => simp [writeEntries, records, Chain.starts]
    | cons next rest =>
      -- an entry that others follow ends aligned again
      have still : (scratch ++ paddedEntry ctx).length % 8 = 0 := by
        have own := length_paddedEntry_mod ctx
        rw [List.length_append]
        omega
      rw [List.isEmpty_cons, if_neg Bool.false_ne_true, ih still]
      simp only [records, List.flatten_cons, Chain.starts, List.append_assoc, List.length_append,
        List.singleton_append]

/-- What stands behind the `Next` of an entry. -/
def afterNext (ctx : CreateContext) : Bytes :=
  u16le 16 ++ u16le (UInt16.ofNat ctx.name.length) ++ u16le 0 ++
    u16le (UInt16.ofNat (16 + ctx.name.length + (pad8 (16 + ctx.name.length)).length)) ++
    u32le (UInt32.ofNat ctx.data.length) ++ ctx.name ++ pad8 (16 + ctx.name.length) ++ ctx.data

theorem encodeEntry_eq (ctx : CreateContext) (next : Nat) :
    encodeEntry ctx next = u32le (UInt32.ofNat next) ++ afterNext ctx := by
  simp only [encodeEntry, afterNext, List.append_assoc]

/-- An entry linked to the next one. -/
theorem link_paddedEntry (ctx : CreateContext) :
    Chain.link 0 (paddedEntry ctx) =
      encodeEntry ctx (paddedEntry ctx).length ++ pad8 (encodeEntry ctx 0).length := by
  have patched (x y : UInt32) (rest : Bytes) :
      patch (u32le x ++ rest) 0 (u32le y) = u32le y ++ rest := by
    rw [patch, List.take_zero, List.nil_append, Nat.zero_add, length_u32le,
      List.drop_left' (length_u32le x)]
  rw [Chain.link]
  generalize (paddedEntry ctx).length = next
  rw [paddedEntry]
  generalize pad8 (encodeEntry ctx 0).length = pad
  rw [encodeEntry_eq, encodeEntry_eq, List.append_assoc, patched, List.append_assoc]

theorem encodeChain_eq_join (list : List CreateContext) :
    encodeChain list = Chain.join 0 (records list) := by
  induction list with
  | nil => rfl
  | cons ctx rest ih =>
    cases rest with
    | nil => rfl
    | cons next rest =>
      have more : ∃ b bs, records (next :: rest) = b :: bs := by
        cases rest with
        | nil => exact ⟨_, _, rfl⟩
        | cons other rest => exact ⟨_, _, rfl⟩
      obtain ⟨b, bs, shape⟩ := more
      have long : (encodeEntry ctx 0).length + (pad8 (encodeEntry ctx 0).length).length =
          (paddedEntry ctx).length := by rw [paddedEntry, List.length_append]
      rw [records, shape, Chain.join, ← shape, ← ih, link_paddedEntry, ← long]
      rfl

/-- The scratch buffer, patched, is the chain of the finished entries. -/
theorem encodeChainScratch_eq (list : List CreateContext) :
    encodeChainScratch list = encodeChain list := by
  have linked := Chain.linkAll_flatten (records list) [] (records_room list)
  rw [List.nil_append, List.nil_append] at linked
  rw [encodeChainScratch, writeEntries_eq list rfl, List.nil_append, List.nil_append, patchNexts,
    encodeChain_eq_join]
  exact linked

/-! ### The words of an entry -/

/-- The words at the front of an entry, without the reserved one. -/
structure EntryHeader where
  next : Nat
  nameOffset : Nat
  nameLength : Nat
  dataOffset : Nat
  dataLength : Nat

def EntryHeader.read (entry : Bytes) : EntryHeader where
  next := (readU32 entry 0).toNat
  nameOffset := (readU16 entry 4).toNat
  nameLength := (readU16 entry 6).toNat
  dataOffset := (readU16 entry 10).toNat
  dataLength := (readU32 entry 12).toNat

theorem EntryHeader.read_words (next dataLength : UInt32)
    (nameOffset nameLength reserved dataOffset : UInt16) (behind : Bytes) :
    read (u32le next ++ u16le nameOffset ++ u16le nameLength ++ u16le reserved ++
      u16le dataOffset ++ u32le dataLength ++ behind) =
      ⟨next.toNat, nameOffset.toNat, nameLength.toNat, dataOffset.toNat, dataLength.toNat⟩ := by
  have first := readU32_at [] (u16le nameOffset ++ u16le nameLength ++ u16le reserved ++
    u16le dataOffset ++ u32le dataLength ++ behind) next 0 rfl
  have second := readU16_at (u32le next) (u16le nameLength ++ u16le reserved ++
    u16le dataOffset ++ u32le dataLength ++ behind) nameOffset 4 (length_u32le next)
  have third := readU16_at (u32le next ++ u16le nameOffset) (u16le reserved ++
    u16le dataOffset ++ u32le dataLength ++ behind) nameLength 6 (by simp)
  have fourth := readU16_at (u32le next ++ u16le nameOffset ++ u16le nameLength ++ u16le reserved)
    (u32le dataLength ++ behind) dataOffset 10 (by simp)
  have fifth := readU32_at (u32le next ++ u16le nameOffset ++ u16le nameLength ++
    u16le reserved ++ u16le dataOffset) behind dataLength 12 (by simp)
  simp only [List.append_assoc, List.nil_append] at first second third fourth fifth ⊢
  rw [read, first, second, third, fourth, fifth]

/-- The context that the words describe. -/
def EntryHeader.context (h : EntryHeader) (entry : Bytes) : CreateContext where
  name := slice entry h.nameOffset h.nameLength
  data := if h.dataLength = 0 then [] else slice entry h.dataOffset h.dataLength

/-- What the words describe is there. -/
structure EntryHeader.InBounds (h : EntryHeader) (entry : Bytes) : Prop where
  header : 16 ≤ entry.length
  name : h.nameOffset + h.nameLength ≤ entry.length
  data : h.dataLength = 0 ∨ h.dataOffset + h.dataLength ≤ entry.length

theorem EntryHeader.context_of_empty {h : EntryHeader} (empty : h.dataLength = 0) (entry : Bytes) :
    h.context entry = ⟨slice entry h.nameOffset h.nameLength, []⟩ := by
  rw [context, if_pos empty]

theorem EntryHeader.context_of_data {h : EntryHeader} (data : h.dataLength ≠ 0) (entry : Bytes) :
    h.context entry =
      ⟨slice entry h.nameOffset h.nameLength, slice entry h.dataOffset h.dataLength⟩ := by
  rw [context, if_neg data]

theorem parseEntry_of_inBounds {entry : Bytes} (bounds : (EntryHeader.read entry).InBounds entry) :
    parseEntry entry =
      some ((EntryHeader.read entry).context entry, (EntryHeader.read entry).next) := by
  have header : ¬entry.length < 16 := Nat.not_lt.mpr bounds.header
  have name : ¬entry.length < (readU16 entry 4).toNat + (readU16 entry 6).toNat :=
    Nat.not_lt.mpr bounds.name
  by_cases empty : (EntryHeader.read entry).dataLength = 0
  · have none : (readU32 entry 12).toNat = 0 := empty
    rw [EntryHeader.context_of_empty empty, parseEntry]
    simp only [if_neg header, if_neg name, if_pos none]
    rfl
  · have some : ¬(readU32 entry 12).toNat = 0 := empty
    have data : ¬entry.length < (readU16 entry 10).toNat + (readU32 entry 12).toNat :=
      Nat.not_lt.mpr (bounds.data.resolve_left empty)
    rw [EntryHeader.context_of_data empty, parseEntry]
    simp only [if_neg header, if_neg name, if_neg some, if_neg data]
    rfl

theorem inBounds_of_parseEntry {entry : Bytes} {ctx : CreateContext} {next : Nat}
    (accepted : parseEntry entry = some (ctx, next)) :
    (EntryHeader.read entry).InBounds entry := by
  rw [parseEntry] at accepted
  simp only at accepted
  split at accepted
  · cases accepted
  next header =>
  split at accepted
  · cases accepted
  next name =>
  split at accepted
  next empty => exact ⟨Nat.not_lt.mp header, Nat.not_lt.mp name, .inl empty⟩
  next =>
  split at accepted
  · cases accepted
  next data => exact ⟨Nat.not_lt.mp header, Nat.not_lt.mp name, .inr (Nat.not_lt.mp data)⟩

/-- An entry is accepted exactly when its words stay within what is left of the chain. -/
theorem parseEntry_eq_some_iff (entry : Bytes) (ctx : CreateContext) (next : Nat) :
    parseEntry entry = some (ctx, next) ↔
      (EntryHeader.read entry).InBounds entry ∧ (EntryHeader.read entry).context entry = ctx ∧
        (EntryHeader.read entry).next = next := by
  constructor
  · intro accepted
    have bounds := inBounds_of_parseEntry accepted
    rw [parseEntry_of_inBounds bounds] at accepted
    cases accepted
    exact ⟨bounds, rfl, rfl⟩
  · rintro ⟨bounds, rfl, rfl⟩
    exact parseEntry_of_inBounds bounds

end SmbServer.CreateContext
