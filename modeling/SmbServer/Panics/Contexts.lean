import SmbServer.Panics.Wire
import SmbServer.Proto.ContextChain

/-!
# SmbServer.Panics.Contexts

The chain of create contexts with its panics: the words of an entry, and the header and the `Next`
that the encoder fills in.
-/

namespace SmbServer.Panicking.CreateContext

open Lib Risky RiskyParser

/-! ### Parsing -/

/-- `entry.get(start..start + len)` -/
def getSlice (entry : Bytes) (start len : Nat) : Option Bytes :=
  if entry.length < start + len then none else some (slice entry start len)

/-- One round of `parse_chain`, up to its `Next`. -/
def parseEntry (entry : Bytes) : RiskyParser (CreateContext × Nat) :=
  if entry.length < 16 then reject
  else do
    let next ← u32At entry 0
    let nameOffset ← u16At entry 4
    let nameLength ← u16At entry 6
    let dataOffset ← u16At entry 10
    let dataLength ← u32At entry 12
    let name ← ofOption (getSlice entry nameOffset.toNat nameLength.toNat)
    if dataLength.toNat = 0 then return (⟨name, []⟩, next.toNat)
    else do
      let data ← ofOption (getSlice entry dataOffset.toNat dataLength.toNat)
      return (⟨name, data⟩, next.toNat)

/-- The loop of `parse_chain`. -/
def parseChainFrom (fuel : Nat) (chain : Bytes) (cursorOff : Nat) :
    RiskyParser (List CreateContext) :=
  match fuel with
  | 0 => reject
  | fuel + 1 =>
    if chain.length < cursorOff then reject
    else do
      let (ctx, next) ← parseEntry (chain.drop cursorOff)
      if next = 0 then return [ctx]
      else do
        let rest ← parseChainFrom fuel chain (cursorOff + next)
        return ctx :: rest

def parseChain (chain : Bytes) : RiskyParser (List CreateContext) :=
  if chain.isEmpty then return [] else parseChainFrom (chain.length + 1) chain 0

theorem parseEntry_eq (entry : Bytes) :
    parseEntry entry = ofOption (SmbServer.CreateContext.parseEntry entry) := by
  rw [parseEntry, SmbServer.CreateContext.parseEntry]
  by_cases short : entry.length < 16
  · rw [if_pos short, if_pos short]
    rfl
  rw [if_neg short, if_neg short, u32At_of_le (by omega), lift_ok_bind, u16At_of_le (by omega),
    lift_ok_bind, u16At_of_le (by omega), lift_ok_bind, u16At_of_le (by omega), lift_ok_bind,
    u32At_of_le (by omega), lift_ok_bind, getSlice]
  by_cases name : entry.length < (readU16 entry 4).toNat + (readU16 entry 6).toNat
  · simp only [if_pos name]
    rfl
  simp only [if_neg name]
  by_cases empty : (Lib.readU32 entry 12).toNat = 0
  · simp only [if_pos empty]
    rfl
  simp only [if_neg empty, getSlice]
  by_cases data : entry.length < (readU16 entry 10).toNat + (Lib.readU32 entry 12).toNat
  · simp only [if_pos data]
    rfl
  · simp only [if_neg data]
    rfl

theorem parseChainFrom_eq (fuel : Nat) (chain : Bytes) (cursorOff : Nat) :
    parseChainFrom fuel chain cursorOff =
      ofOption (SmbServer.CreateContext.parseChainFrom fuel chain cursorOff) := by
  induction fuel generalizing cursorOff with
  | zero => rfl
  | succ fuel ih =>
    rw [parseChainFrom, SmbServer.CreateContext.parseChainFrom]
    split
    · rfl
    rw [parseEntry_eq]
    cases SmbServer.CreateContext.parseEntry (chain.drop cursorOff) with
    | none => rfl
    | some entry =>
      obtain ⟨ctx, next⟩ := entry
      rw [some_bind]
      dsimp only
      by_cases last : next = 0
      · rw [if_pos last, if_pos last]
        rfl
      · rw [if_neg last, if_neg last, ih]
        cases SmbServer.CreateContext.parseChainFrom fuel chain (cursorOff + next) <;> rfl

theorem parseChain_eq (chain : Bytes) :
    parseChain chain = ofOption (SmbServer.CreateContext.parseChain chain) := by
  rw [parseChain, SmbServer.CreateContext.parseChain]
  split
  · rfl
  · exact parseChainFrom_eq _ _ _

/-! ### Encoding -/

/-- The header of an entry, field by field over what is there. -/
def fillHeader (hdr : Bytes) (ctx : CreateContext) (nameOffsetRel dataOffsetRel : UInt16) :
    Risky Bytes := do
  let hdr ← copyInto hdr 0 4 (u32le 0)
  let hdr ← copyInto hdr 4 6 (u16le nameOffsetRel)
  let hdr ← copyInto hdr 6 8 (u16le (UInt16.ofNat ctx.name.length))
  let hdr ← copyInto hdr 8 10 (u16le 0)
  let hdr ← copyInto hdr 10 12 (u16le dataOffsetRel)
  copyInto hdr 12 16 (u32le (UInt32.ofNat ctx.data.length))

open SmbServer.CreateContext in
/-- One round of the loop of `encode_chain`, behind the padding to the start of the entry. -/
def writeEntry (scratch : Bytes) (ctx : CreateContext) (isLast : Bool) : Risky Bytes := do
  let headerPos := scratch.length
  let withHeader := scratch ++ List.replicate 16 0
  let nameOffsetRel := UInt16.ofNat (withHeader.length - headerPos)
  let withName := padFrom headerPos (withHeader ++ ctx.name)
  let dataOffsetRel := UInt16.ofNat (withName.length - headerPos)
  let withData := withName ++ ctx.data
  let hdr ← range withData headerPos (headerPos + 16)
  let hdr ← fillHeader hdr ctx nameOffsetRel dataOffsetRel
  let filled := patch withData headerPos hdr
  return if isLast then filled else padFrom 0 filled

def writeEntries (scratch : Bytes) (entryStarts : List Nat) :
    List CreateContext → Risky (Bytes × List Nat)
  | [] => return (scratch, entryStarts)
  | ctx :: rest => do
    let aligned := SmbServer.CreateContext.padFrom 0 scratch
    let scratch ← writeEntry aligned ctx rest.isEmpty
    writeEntries scratch (entryStarts ++ [aligned.length]) rest

/-- The second loop of `encode_chain` from `i` on. -/
def patchNexts (scratch : Bytes) (entryStarts : List Nat) (i : Nat) : Nat → Risky Bytes
  | 0 => return scratch
  | rounds + 1 => do
    let this ← index entryStarts i
    let next ← index entryStarts (i + 1)
    let scratch ← copyInto scratch this (this + 4) (u32le (UInt32.ofNat (next - this)))
    patchNexts scratch entryStarts (i + 1) rounds

/-- `encode_chain` -/
def encodeChain (list : List CreateContext) : Risky Bytes :=
  if list.isEmpty then return []
  else do
    let (scratch, entryStarts) ← writeEntries [] [] list
    patchNexts scratch entryStarts 0 (entryStarts.length - 1)

theorem fillHeader_eq {hdr : Bytes} (long : hdr.length = 16) (ctx : CreateContext)
    (nameOffsetRel dataOffsetRel : UInt16) :
    fillHeader hdr ctx nameOffsetRel dataOffsetRel =
      .ok (u32le 0 ++ u16le nameOffsetRel ++ u16le (UInt16.ofNat ctx.name.length) ++ u16le 0 ++
        u16le dataOffsetRel ++ u32le (UInt32.ofNat ctx.data.length)) := by
  have next : copyInto ([] ++ hdr) 0 4 (u32le 0) = .ok ([] ++ u32le 0 ++ hdr.drop 4) :=
    copyInto_behind rfl rfl (by simp [long])
  have nameOffset : copyInto (u32le 0 ++ hdr.drop 4) 4 6 (u16le nameOffsetRel) =
      .ok (u32le 0 ++ u16le nameOffsetRel ++ (hdr.drop 4).drop 2) :=
    copyInto_behind (by simp) (by simp) (by simp [long])
  have nameLength : copyInto (u32le 0 ++ u16le nameOffsetRel ++ (hdr.drop 4).drop 2) 6 8
      (u16le (UInt16.ofNat ctx.name.length)) =
      .ok (u32le 0 ++ u16le nameOffsetRel ++ u16le (UInt16.ofNat ctx.name.length) ++
        ((hdr.drop 4).drop 2).drop 2) :=
    copyInto_behind (by simp) (by simp) (by simp [long])
  have reserved : copyInto (u32le 0 ++ u16le nameOffsetRel ++
      u16le (UInt16.ofNat ctx.name.length) ++ ((hdr.drop 4).drop 2).drop 2) 8 10 (u16le 0) =
      .ok (u32le 0 ++ u16le nameOffsetRel ++ u16le (UInt16.ofNat ctx.name.length) ++ u16le 0 ++
        (((hdr.drop 4).drop 2).drop 2).drop 2) :=
    copyInto_behind (by simp) (by simp) (by simp [long])
  have dataOffset : copyInto (u32le 0 ++ u16le nameOffsetRel ++
      u16le (UInt16.ofNat ctx.name.length) ++ u16le 0 ++
      (((hdr.drop 4).drop 2).drop 2).drop 2) 10 12 (u16le dataOffsetRel) =
      .ok (u32le 0 ++ u16le nameOffsetRel ++ u16le (UInt16.ofNat ctx.name.length) ++ u16le 0 ++
        u16le dataOffsetRel ++ ((((hdr.drop 4).drop 2).drop 2).drop 2).drop 2) :=
    copyInto_behind (by simp) (by simp) (by simp [long])
  have dataLength : copyInto (u32le 0 ++ u16le nameOffsetRel ++
      u16le (UInt16.ofNat ctx.name.length) ++ u16le 0 ++ u16le dataOffsetRel ++
      ((((hdr.drop 4).drop 2).drop 2).drop 2).drop 2) 12 16
        (u32le (UInt32.ofNat ctx.data.length)) =
      .ok (u32le 0 ++ u16le nameOffsetRel ++ u16le (UInt16.ofNat ctx.name.length) ++ u16le 0 ++
        u16le dataOffsetRel ++ u32le (UInt32.ofNat ctx.data.length) ++
        (((((hdr.drop 4).drop 2).drop 2).drop 2).drop 2).drop 4) :=
    copyInto_behind (by simp) (by simp) (by simp [long])
  have none : (((((hdr.drop 4).drop 2).drop 2).drop 2).drop 2).drop 4 = [] := by
    simp only [List.drop_drop]
    exact List.drop_of_length_le (Nat.le_of_eq long)
  rw [List.nil_append, List.nil_append] at next
  rw [fillHeader, next, ok_bind, nameOffset, ok_bind, nameLength, ok_bind, reserved, ok_bind,
    dataOffset, ok_bind, dataLength, none, List.append_nil]

theorem writeEntry_eq (scratch : Bytes) (ctx : CreateContext) (isLast : Bool) :
    writeEntry scratch ctx isLast =
      .ok (SmbServer.CreateContext.writeEntry scratch ctx isLast) := by
  rw [writeEntry, SmbServer.CreateContext.writeEntry]
  dsimp only
  have inside : scratch.length + 16 ≤
      (SmbServer.CreateContext.padFrom scratch.length (scratch ++ List.replicate 16 0 ++ ctx.name) ++
        ctx.data).length := by
    simp only [SmbServer.CreateContext.padFrom, List.length_append, List.length_replicate]
    omega
  rw [range_slice inside, ok_bind, fillHeader_eq (length_slice _ _ _ inside)]
  rfl

theorem writeEntries_eq (list : List CreateContext) (scratch : Bytes) (entryStarts : List Nat) :
    writeEntries scratch entryStarts list =
      .ok (SmbServer.CreateContext.writeEntries scratch entryStarts list) := by
  induction list generalizing scratch entryStarts with
  | nil => rfl
  | cons ctx rest ih =>
    rw [writeEntries, writeEntry_eq, ok_bind, ih]
    rfl

/-- The start of every record leaves room for its `Next`. -/
theorem starts_room {bs : List Bytes} (room : ∀ b ∈ bs, 0 + 4 ≤ b.length) (off : Nat) :
    ∀ start ∈ Chain.starts off bs, start + 4 ≤ off + bs.flatten.length := by
  induction bs generalizing off with
  | nil =>
    intro start member
    cases member
  | cons b rest ih =>
    have first := room b List.mem_cons_self
    rw [List.flatten_cons, List.length_append]
    intro start member
    rcases List.mem_cons.mp member with rfl | later
    · omega
    · have behind := ih (fun c member => room c (List.mem_cons_of_mem b member)) _ start later
      omega

theorem patchNexts_eq (scratch : Bytes) (entryStarts : List Nat) (i rounds : Nat)
    (counted : entryStarts.length = i + rounds + 1)
    (room : ∀ start ∈ entryStarts, start + 4 ≤ scratch.length) :
    patchNexts scratch entryStarts i rounds =
      .ok (Chain.linkAll 0 scratch (entryStarts.drop i)) := by
  induction rounds generalizing scratch i with
  | zero =>
    have here : i < entryStarts.length := by omega
    rw [patchNexts, List.drop_eq_getElem_cons here, List.drop_of_length_le (by omega)]
    rfl
  | succ rounds ih =>
    have this : i < entryStarts.length := by omega
    have next : i + 1 < entryStarts.length := by omega
    have fits := room entryStarts[i] (List.getElem_mem this)
    obtain ⟨delta, long⟩ : ∃ delta : Bytes, delta.length = 4 ∧
        delta = u32le (UInt32.ofNat (entryStarts[i + 1] - entryStarts[i])) :=
      ⟨_, length_u32le _, rfl⟩
    rw [← long.1] at fits
    have patched := copyInto_patch fits
    have same := length_patch scratch entryStarts[i] delta fits
    rw [long.1] at patched
    rw [patchNexts, index_of_lt this, ok_bind, index_of_lt next, ok_bind, ← long.2, patched,
      ok_bind, ih _ _ (by omega) (by rw [same]; exact room), List.drop_eq_getElem_cons this,
      List.drop_eq_getElem_cons next, long.2]
    rfl

theorem encodeChain_eq (list : List CreateContext) :
    encodeChain list = .ok (SmbServer.CreateContext.encodeChain list) := by
  rw [encodeChain]
  cases list with
  | nil => rfl
  | cons ctx rest =>
    have aligned : ([] : Bytes).length % 8 = 0 := rfl
    have written := SmbServer.CreateContext.writeEntries_eq (ctx :: rest) aligned []
    have room := starts_room (SmbServer.CreateContext.records_room (ctx :: rest)) 0
    rw [Nat.zero_add] at room
    have some : Chain.starts 0 (SmbServer.CreateContext.records (ctx :: rest)) ≠ [] := by
      cases rest <;> exact List.cons_ne_nil _ _
    have counted := List.length_pos_iff.mpr some
    rw [List.isEmpty_cons, if_neg Bool.false_ne_true, writeEntries_eq, ok_bind,
      ← SmbServer.CreateContext.encodeChainScratch_eq, SmbServer.CreateContext.encodeChainScratch,
      written]
    simp only [List.nil_append, List.length_nil]
    exact patchNexts_eq _ _ 0 _ (by omega) room

end SmbServer.Panicking.CreateContext
