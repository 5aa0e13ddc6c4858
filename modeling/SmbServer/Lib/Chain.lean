import SmbServer.Lib.Bytes

/-!
# SmbServer.Lib.Chain

Chains of records in one buffer. Every record holds, in a 32-bit word at a fixed position, the
distance to its successor; a distance of 0 ends the chain.

`walk` reads such a buffer, `join` writes one. `walk_join` says that the records come back, and
`join_concat` how a writer that learns of a successor only later patches the last record.
-/

namespace Lib.Chain

variable {α : Type}

/-- A record with its own length as the distance to its successor. -/
def link (pos : Nat) (b : Bytes) : Bytes := patch b pos (u32le (UInt32.ofNat b.length))

/-- Records one after another, each but the last linked to the next. -/
def join (pos : Nat) : List Bytes → Bytes
  | [] => []
  | [b] => b
  | b :: c :: rest => link pos b ++ join pos (c :: rest)

/-- The records of a buffer, each read by `decode`. -/
def walk (pos : Nat) (decode : Bytes → Option α) : Nat → Bytes → Option (List α)
  | 0, _ => none
  | fuel + 1, buf =>
    let next := (readU32 buf pos).toNat
    if next = 0 then (decode buf).map ([·])
    else
      (decode (buf.take next)).bind fun first =>
        (walk pos decode fuel (buf.drop next)).map fun rest => first :: rest

/-! ### A writer that links at the end -/

/-- Where the records begin, the first of them at `off`. -/
def starts (off : Nat) : List Bytes → List Nat
  | [] => []
  | b :: rest => off :: starts (off + b.length) rest

/-- Every record but the last gets the distance to its successor. -/
def linkAll (pos : Nat) (buf : Bytes) : List Nat → Bytes
  | this :: next :: rest =>
    linkAll pos (patch buf (this + pos) (u32le (UInt32.ofNat (next - this)))) (next :: rest)
  | _ => buf

section
variable {pos : Nat}

theorem length_link {b : Bytes} (room : pos + 4 ≤ b.length) : (link pos b).length = b.length := by
  rw [link, length_patch]
  rwa [length_u32le]

/-- Linking moves nothing. -/
theorem length_join (bs : List Bytes) (room : ∀ b ∈ bs, pos + 4 ≤ b.length) :
    (join pos bs).length = (bs.map List.length).sum := by
  induction bs with
  | nil => rfl
  | cons b rest ih =>
    cases rest with
    | nil => simp [join]
    | cons c rest =>
      rw [join, List.length_append, length_link (room b List.mem_cons_self),
        ih fun d member => room d (List.mem_cons_of_mem b member)]
      simp only [List.map_cons, List.sum_cons]

/-- Linking the records when all of them are written gives the chain of them. -/
theorem linkAll_flatten (bs : List Bytes) (before : Bytes)
    (room : ∀ b ∈ bs, pos + 4 ≤ b.length) :
    linkAll pos (before ++ bs.flatten) (starts before.length bs) = before ++ join pos bs := by
  induction bs generalizing before with
  | nil => rfl
  | cons b rest ih =>
    cases rest with
    | nil => simp [starts, linkAll, join]
    | cons c rest =>
      have first := room b List.mem_cons_self
      have behind := ih (before ++ link pos b) fun d member => room d (List.mem_cons_of_mem b member)
      have long : (before ++ link pos b).length = before.length + b.length := by
        rw [List.length_append, length_link first]
      -- the first distance is written into the first record and touches no other
      have patched : patch (before ++ (b :: c :: rest).flatten) (before.length + pos)
          (u32le (UInt32.ofNat (before.length + b.length - before.length))) =
          before ++ link pos b ++ (c :: rest).flatten := by
        rw [List.flatten_cons, Nat.add_sub_cancel_left, patch_append_right,
          patch_append_left _ _ _ _ (by rw [length_u32le]; exact first), ← List.append_assoc]
        rfl
      have step : linkAll pos (before ++ (b :: c :: rest).flatten)
          (starts before.length (b :: c :: rest)) =
          linkAll pos (patch (before ++ (b :: c :: rest).flatten) (before.length + pos)
            (u32le (UInt32.ofNat (before.length + b.length - before.length))))
            (starts (before.length + b.length) (c :: rest)) := rfl
      rw [step, patched, ← long, behind, join, List.append_assoc]

/-- Appending a record patches the one that was the last. -/
theorem join_concat (front : List Bytes) (last b : Bytes)
    (room : ∀ c ∈ front ++ [last], pos + 4 ≤ c.length) :
    join pos (front ++ [last, b]) =
      patch (join pos (front ++ [last])) ((front.map List.length).sum + pos)
        (u32le (UInt32.ofNat last.length)) ++ b := by
  induction front with
  | nil => simp [join, link]
  | cons c rest ih =>
    have there := ih fun d member => room d (List.mem_cons_of_mem c member)
    have long := length_link (room c List.mem_cons_self)
    obtain ⟨d, behind, shape⟩ : ∃ d behind, rest ++ [last] = d :: behind := by
      cases rest with
      | nil => exact ⟨last, [], rfl⟩
      | cons d behind => exact ⟨d, behind ++ [last], rfl⟩
    have longer : rest ++ [last, b] = d :: (behind ++ [b]) := by
      rw [← List.cons_append, ← shape, List.append_assoc]
      rfl
    rw [List.cons_append, List.cons_append, longer, join, ← longer, there, shape, join, ← shape,
      List.map_cons, List.sum_cons, Nat.add_assoc, ← long, patch_append_right, List.append_assoc]

/-- There are no more records than bytes. -/
theorem length_le_join (bs : List Bytes) (room : ∀ b ∈ bs, pos + 4 ≤ b.length) :
    bs.length ≤ (join pos bs).length := by
  rw [length_join bs room]
  induction bs with
  | nil => exact Nat.le_refl _
  | cons b rest ih =>
    have first := room b List.mem_cons_self
    have behind := ih fun c member => room c (List.mem_cons_of_mem b member)
    rw [List.length_cons, List.map_cons, List.sum_cons]
    omega

/-- What can be read of its record, linked or not, is read of a chain. -/
structure Reads (pos : Nat) (decode : Bytes → Option α) (b : Bytes) (a : α) : Prop where
  room : pos + 4 ≤ b.length
  short : b.length < 2 ^ 32
  ends : readU32 b pos = 0
  own : decode b = some a
  linked : decode (link pos b) = some a

/-- The records of a chain come back. -/
theorem walk_join {β : Type} {decode : Bytes → Option α} (encode : β → Bytes) (view : β → α)
    (items : List β) (nonempty : items ≠ [])
    (reads : ∀ x ∈ items, Reads pos decode (encode x) (view x)) (fuel : Nat)
    (enough : items.length ≤ fuel) :
    walk pos decode fuel (join pos (items.map encode)) = some (items.map view) := by
  induction items generalizing fuel with
  | nil => exact absurd rfl nonempty
  | cons x rest ih =>
    obtain ⟨fuel, rfl⟩ : ∃ n, fuel = n + 1 := by
      rw [List.length_cons] at enough
      exact ⟨fuel - 1, by omega⟩
    have here := reads x List.mem_cons_self
    cases rest with
    | nil =>
      rw [List.map_singleton, join, walk, here.ends, if_pos (by rfl), here.own]
      rfl
    | cons y rest =>
      have long := length_link here.room
      -- the link of the record is its length, so the walk goes on at the next one
      have next : (readU32 (link pos (encode x) ++ join pos ((y :: rest).map encode)) pos).toNat =
          (encode x).length := by
        have word := slice_patch (encode x) pos (u32le (UInt32.ofNat (encode x).length))
          (by rw [length_u32le]; exact here.room)
        rw [length_u32le] at word
        rw [readU32, slice_append_left _ _ _ _ (by rw [long]; exact here.room), link, word,
          u32OfLe_u32le, UInt32.toNat_ofNat', Nat.mod_eq_of_lt here.short]
      have nonzero : (encode x).length ≠ 0 := by
        have room := here.room
        omega
      have behind := ih (by simp) (fun z member => reads z (List.mem_cons_of_mem x member)) fuel
        (Nat.le_of_succ_le_succ enough)
      rw [List.map_cons, List.map_cons, join, ← List.map_cons, walk]
      simp only [next, if_neg nonzero]
      rw [List.take_left' long, List.drop_left' long, here.linked, Option.bind_some, behind]
      rfl

end

end Lib.Chain
