import SmbServer.Proto.ContextChain

/-!
# SmbServer.Properties.ContextChains

Create-context chains on the wire.

## Main result

`createContexts_roundTrip`: a list of contexts comes back from its chain, whatever their number,
when the 16-bit and 32-bit words of an entry can hold what they describe.

## Proof strategy

`parseEntry_encodeEntry` reads one entry in front of anything, since the reader takes all the rest
of the chain for the entry. The induction on the list then carries the cursor: behind it lies the
chain of the contexts that are left.
-/

namespace SmbServer

open Lib

namespace CreateContext

/-- The words of the context's entry can hold its lengths and offsets. -/
structure Encodable (ctx : CreateContext) : Prop where
  name : ctx.name.length ≤ 65512
  data : ctx.data.length < 2 ^ 32

/-! ### One entry -/

/-- The words of an encoded entry. -/
theorem read_encodeEntry {ctx : CreateContext} (fits : ctx.Encodable) {next : Nat}
    (near : next < 2 ^ 32) (behind : Bytes) :
    EntryHeader.read (encodeEntry ctx next ++ behind) =
      ⟨next, 16, ctx.name.length, 16 + ctx.name.length + (pad8 (16 + ctx.name.length)).length,
        ctx.data.length⟩ := by
  obtain ⟨nameFits, dataFits⟩ := fits
  -- the padded name ends at a multiple of 8, the last of which below 2^16 is 65528
  have aligned := length_pad8 (16 + ctx.name.length)
  have words := EntryHeader.read_words (UInt32.ofNat next) (UInt32.ofNat ctx.data.length) 16
    (UInt16.ofNat ctx.name.length) 0
    (UInt16.ofNat (16 + ctx.name.length + (pad8 (16 + ctx.name.length)).length))
    (ctx.name ++ pad8 (16 + ctx.name.length) ++ ctx.data ++ behind)
  rw [UInt32.toNat_ofNat', Nat.mod_eq_of_lt near, UInt32.toNat_ofNat', Nat.mod_eq_of_lt dataFits,
    UInt16.toNat_ofNat', Nat.mod_eq_of_lt (by omega), UInt16.toNat_ofNat',
    Nat.mod_eq_of_lt (by omega)] at words
  simp only [encodeEntry, List.append_assoc] at words ⊢
  exact words

theorem slice_name_encodeEntry (ctx : CreateContext) (next : Nat) (behind : Bytes) :
    slice (encodeEntry ctx next ++ behind) 16 ctx.name.length = ctx.name := by
  have middle := slice_between (u32le (UInt32.ofNat next) ++ u16le 16 ++
    u16le (UInt16.ofNat ctx.name.length) ++ u16le 0 ++
    u16le (UInt16.ofNat (16 + ctx.name.length + (pad8 (16 + ctx.name.length)).length)) ++
    u32le (UInt32.ofNat ctx.data.length)) ctx.name
    (pad8 (16 + ctx.name.length) ++ ctx.data ++ behind) 16 ctx.name.length (by simp) rfl
  simp only [encodeEntry, List.append_assoc] at middle ⊢
  exact middle

theorem slice_data_encodeEntry (ctx : CreateContext) (next : Nat) (behind : Bytes) :
    slice (encodeEntry ctx next ++ behind)
      (16 + ctx.name.length + (pad8 (16 + ctx.name.length)).length) ctx.data.length = ctx.data := by
  have middle := slice_between (u32le (UInt32.ofNat next) ++ u16le 16 ++
    u16le (UInt16.ofNat ctx.name.length) ++ u16le 0 ++
    u16le (UInt16.ofNat (16 + ctx.name.length + (pad8 (16 + ctx.name.length)).length)) ++
    u32le (UInt32.ofNat ctx.data.length) ++ ctx.name ++ pad8 (16 + ctx.name.length)) ctx.data
    behind (16 + ctx.name.length + (pad8 (16 + ctx.name.length)).length) ctx.data.length
    (by simp only [List.length_append, length_u32le, length_u16le]) rfl
  simp only [encodeEntry, List.append_assoc] at middle ⊢
  exact middle

theorem parseEntry_encodeEntry {ctx : CreateContext} (fits : ctx.Encodable) {next : Nat}
    (near : next < 2 ^ 32) (behind : Bytes) :
    parseEntry (encodeEntry ctx next ++ behind) = some (ctx, next) := by
  have long : (encodeEntry ctx next ++ behind).length = 16 + ctx.name.length +
      (pad8 (16 + ctx.name.length)).length + ctx.data.length + behind.length := by
    rw [List.length_append, length_encodeEntry]
  rw [parseEntry_eq_some_iff, read_encodeEntry fits near]
  refine ⟨⟨?header, ?name, ?data⟩, ?same, rfl⟩
  case header => omega
  case name => simp only; omega
  case data => right; simp only; omega
  case same =>
    by_cases empty : ctx.data.length = 0
    · rw [EntryHeader.context_of_empty empty]
      simp only [slice_name_encodeEntry]
      rw [← List.eq_nil_of_length_eq_zero empty]
    · rw [EntryHeader.context_of_data empty]
      simp only [slice_name_encodeEntry, slice_data_encodeEntry]

/-! ### The walk -/

theorem length_encodeChain_cons (ctx next : CreateContext) (rest : List CreateContext) :
    (encodeChain (ctx :: next :: rest)).length =
      (paddedEntry ctx).length + (encodeChain (next :: rest)).length := by
  simp only [encodeChain, paddedEntry, List.length_append, length_encodeEntry]

/-- The walk from a cursor behind which the chain of a list lies. -/
theorem parseChainFrom_encodeChain (list : List CreateContext) (nonempty : list ≠ [])
    (fits : ∀ ctx ∈ list, ctx.Encodable) (short : (encodeChain list).length < 2 ^ 32)
    {chain : Bytes} {cursorOff : Nat} (inside : cursorOff ≤ chain.length)
    (left : chain.drop cursorOff = encodeChain list) (fuel : Nat) (enough : list.length ≤ fuel) :
    parseChainFrom fuel chain cursorOff = some list := by
  induction list generalizing cursorOff fuel with
  | nil => exact absurd rfl nonempty
  | cons ctx rest ih =>
    obtain ⟨fuel, rfl⟩ : ∃ n, fuel = n + 1 := by
      rw [List.length_cons] at enough
      exact ⟨fuel - 1, by omega⟩
    have here := fits ctx List.mem_cons_self
    rw [parseChainFrom, if_neg (by omega), left]
    cases rest with
    | nil =>
      have entry := parseEntry_encodeEntry here (Nat.two_pow_pos 32) []
      rw [List.append_nil] at entry
      rw [encodeChain, entry]
      rfl
    | cons next rest =>
      rw [length_encodeChain_cons] at short
      have long : (encodeEntry ctx 0).length + (pad8 (encodeEntry ctx 0).length).length =
          (paddedEntry ctx).length := by rw [paddedEntry, List.length_append]
      have shape : encodeChain (ctx :: next :: rest) =
          encodeEntry ctx (paddedEntry ctx).length ++ (pad8 (encodeEntry ctx 0).length ++
            encodeChain (next :: rest)) := by
        rw [← long, ← List.append_assoc]
        rfl
      -- the distance to the next entry leads to where its chain begins
      have nonzero : (paddedEntry ctx).length ≠ 0 := by
        rw [← long, length_encodeEntry]
        omega
      have total : chain.length - cursorOff = (paddedEntry ctx).length +
          (encodeChain (next :: rest)).length := by
        rw [← List.length_drop, left, length_encodeChain_cons]
      have onward : chain.drop (cursorOff + (paddedEntry ctx).length) =
          encodeChain (next :: rest) := by
        rw [← List.drop_drop, left, shape, ← List.append_assoc]
        apply List.drop_left'
        rw [List.length_append, ← long, length_encodeEntry, length_encodeEntry]
      rw [shape, parseEntry_encodeEntry here (by omega)]
      simp only [if_neg nonzero]
      rw [ih (List.cons_ne_nil next rest) (fun d member => fits d (List.mem_cons_of_mem ctx member))
        (by omega) (by omega) onward fuel (Nat.le_of_succ_le_succ enough)]
      rfl

theorem length_records (list : List CreateContext) : (records list).length = list.length := by
  induction list with
  | nil => rfl
  | cons ctx rest ih =>
    cases rest with
    | nil => rfl
    | cons next rest => rw [records, List.length_cons, ih, ← List.length_cons]

theorem length_le_encodeChain (list : List CreateContext) :
    list.length ≤ (encodeChain list).length := by
  rw [← length_records, encodeChain_eq_join]
  exact Chain.length_le_join (records list) (records_room list)

end CreateContext

/-- A list of create contexts is read back from its chain. -/
theorem createContexts_roundTrip (list : List CreateContext)
    (names : ∀ ctx ∈ list, ctx.name.length ≤ 65512)
    (datas : ∀ ctx ∈ list, ctx.data.length < 2 ^ 32)
    (short : (CreateContext.encodeChainScratch list).length < 2 ^ 32) :
    CreateContext.parseChain (CreateContext.encodeChainScratch list) = some list := by
  rw [CreateContext.encodeChainScratch_eq] at short ⊢
  rw [CreateContext.parseChain]
  cases list with
  | nil => rfl
  | cons ctx rest =>
    have bytes : (CreateContext.encodeChain (ctx :: rest)).isEmpty = false := by
      rw [List.isEmpty_eq_false_iff, ← List.length_pos_iff]
      exact Nat.lt_of_lt_of_le (Nat.succ_pos _) (CreateContext.length_le_encodeChain (ctx :: rest))
    rw [bytes, if_neg Bool.false_ne_true]
    exact CreateContext.parseChainFrom_encodeChain (ctx :: rest) (List.cons_ne_nil ctx rest)
      (fun d member => ⟨names d member, datas d member⟩) short (Nat.zero_le _) rfl _
      (Nat.le_succ_of_le (CreateContext.length_le_encodeChain (ctx :: rest)))

/-- A name of four bytes without data, and behind it one with five bytes of data. -/
def Sample.twoCreateContexts : List CreateContext :=
  [⟨[0x4D, 0x78, 0x41, 0x63], []⟩, ⟨CreateContext.nameAapl, [1, 2, 3, 4, 5]⟩]

theorem createContexts_roundTrip_two :
    CreateContext.parseChain (CreateContext.encodeChainScratch Sample.twoCreateContexts) =
      some Sample.twoCreateContexts :=
  createContexts_roundTrip Sample.twoCreateContexts (by decide) (by decide) (by decide)

end SmbServer
