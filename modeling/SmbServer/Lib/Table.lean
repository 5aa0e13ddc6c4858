import Mathlib.Data.List.AList

/-!
# SmbServer.Lib.Table

Keyed tables: association lists with at most one entry for each key, over a value type that does
not depend on the key. Beside insertion and removal there is an update in place; every operation
has one law that says what a later lookup finds.
-/

namespace Lib

variable {κ ν : Type} [DecidableEq κ]

/-- A finite map from `κ` to `ν`. -/
def Table (κ ν : Type) := AList (fun _ : κ => ν)

namespace Table

def empty : Table κ ν := (∅ : AList fun _ : κ => ν)

instance : Inhabited (Table κ ν) := ⟨empty⟩

def lookup (t : Table κ ν) (k : κ) : Option ν := AList.lookup k t

/-- Bind `k` to `v`, replacing the entry `k` had. -/
def insert (t : Table κ ν) (k : κ) (v : ν) : Table κ ν := AList.insert k v t

def erase (t : Table κ ν) (k : κ) : Table κ ν := AList.erase k t

/-- The keys, in table order. -/
def keys (t : Table κ ν) : List κ := AList.keys t

/-- The values, in table order. -/
def vals (t : Table κ ν) : List ν := (AList.entries t).map Sigma.snd

/-- The table with `f` applied to every value. -/
def mapVals {ν' : Type} (t : Table κ ν) (f : ν → ν') : Table κ ν' :=
  ⟨(AList.entries t).map fun e => ⟨e.1, f e.2⟩, by
    have keys : ((AList.entries t).map fun e => (⟨e.1, f e.2⟩ : Sigma fun _ : κ => ν')).keys
        = (AList.entries t).keys := by
      simp only [List.keys, List.map_map]
      rfl
    rw [List.NodupKeys, keys]
    exact AList.keys_nodup t⟩

/-- Apply `f` to the value under `k`, in place; a missing key stays missing. -/
def modify (t : Table κ ν) (k : κ) (f : ν → ν) : Table κ ν :=
  ⟨(AList.entries t).map fun e => ⟨e.1, if e.1 = k then f e.2 else e.2⟩, by
    have keys : ((AList.entries t).map fun e =>
        (⟨e.1, if e.1 = k then f e.2 else e.2⟩ : Sigma fun _ : κ => ν)).keys
        = (AList.entries t).keys := by
      simp only [List.keys, List.map_map]
      rfl
    rw [List.NodupKeys, keys]
    exact AList.keys_nodup t⟩

/-- The table of the entries whose key and value satisfy `p`. -/
def filter (t : Table κ ν) (p : κ → ν → Bool) : Table κ ν :=
  ⟨(AList.entries t).filter fun e => p e.1 e.2,
    List.Nodup.sublist (List.filter_sublist.map _) (AList.keys_nodup t)⟩

@[simp] theorem lookup_empty (k : κ) : (empty : Table κ ν).lookup k = none := rfl

theorem lookup_insert (t : Table κ ν) (k k' : κ) (v : ν) :
    (t.insert k v).lookup k' = if k' = k then some v else t.lookup k' := by
  split
  next same => subst same; exact AList.lookup_insert (β := fun _ => ν) t
  next other => exact AList.lookup_insert_ne (β := fun _ => ν) other

@[simp] theorem lookup_insert_self (t : Table κ ν) (k : κ) (v : ν) :
    (t.insert k v).lookup k = some v := by
  rw [lookup_insert, if_pos rfl]

theorem lookup_erase (t : Table κ ν) (k k' : κ) :
    (t.erase k).lookup k' = if k' = k then none else t.lookup k' := by
  split
  next same => subst same; exact AList.lookup_erase (β := fun _ => ν) k' t
  next other => exact AList.lookup_erase_ne (β := fun _ => ν) other

@[simp] theorem lookup_erase_self (t : Table κ ν) (k : κ) : (t.erase k).lookup k = none := by
  rw [lookup_erase, if_pos rfl]

private theorem dlookup_modify (k k' : κ) (f : ν → ν) (l : List (Sigma fun _ : κ => ν)) :
    (l.map fun e => (⟨e.1, if e.1 = k then f e.2 else e.2⟩ : Sigma fun _ : κ => ν)).dlookup k' =
      if k' = k then (l.dlookup k').map f else l.dlookup k' := by
  induction l with
  | nil => simp
  | cons e rest ih =>
    obtain ⟨key, v⟩ := e
    by_cases here : k' = key
    · subst here
      simp only [List.map_cons, List.dlookup_cons_eq, Option.map_some]
      split <;> rfl
    · rw [List.map_cons, List.dlookup_cons_ne _ _ here, List.dlookup_cons_ne _ _ here, ih]

theorem lookup_modify (t : Table κ ν) (k k' : κ) (f : ν → ν) :
    (t.modify k f).lookup k' = if k' = k then (t.lookup k').map f else t.lookup k' :=
  dlookup_modify k k' f (AList.entries t)

@[simp] theorem keys_modify (t : Table κ ν) (k : κ) (f : ν → ν) :
    (t.modify k f).keys = t.keys := by
  simp only [keys, AList.keys, modify, List.keys, List.map_map]
  rfl

theorem modify_modify (t : Table κ ν) (k : κ) (f g : ν → ν) :
    (t.modify k f).modify k g = t.modify k (g ∘ f) := by
  apply AList.ext
  simp only [modify, List.map_map]
  congr 1
  funext e
  simp only [Function.comp]
  split <;> rfl

/-- Putting back the value that is there changes nothing. -/
theorem modify_const_self (t : Table κ ν) (k : κ) (v : ν) (found : t.lookup k = some v) :
    (t.modify k fun _ => v) = t := by
  apply AList.ext
  simp only [modify]
  conv_rhs => rw [← List.map_id (AList.entries t)]
  apply List.map_congr_left
  rintro ⟨key, u⟩ entry
  by_cases same : key = k
  · subst same
    have here := (AList.mem_lookup_iff (β := fun _ => ν)).mpr entry
    have eq : v = u := Option.some.inj (found.symm.trans here)
    simp [eq]
  · simp [same]

@[simp] theorem lookup_modify_self (t : Table κ ν) (k : κ) (f : ν → ν) :
    (t.modify k f).lookup k = (t.lookup k).map f := by
  rw [lookup_modify, if_pos rfl]

omit [DecidableEq κ] in
theorem nodup_keys (t : Table κ ν) : t.keys.Nodup := AList.keys_nodup t

/-- The values, looked up key by key. -/
theorem filterMap_lookup_keys (t : Table κ ν) : t.keys.filterMap t.lookup = t.vals := by
  have entry : ∀ e ∈ AList.entries t, t.lookup e.1 = some e.2 := fun e member =>
    (AList.mem_lookup_iff (β := fun _ => ν)).mpr member
  have shape : t.keys = (AList.entries t).map Sigma.fst := rfl
  rw [shape, List.filterMap_map, vals, ← List.filterMap_eq_map]
  exact List.filterMap_congr entry

theorem mem_keys (t : Table κ ν) (k : κ) : k ∈ t.keys ↔ ∃ v, t.lookup k = some v := by
  rw [← Option.isSome_iff_exists]
  exact (AList.lookup_isSome (β := fun _ => ν)).symm

theorem mem_vals (t : Table κ ν) (v : ν) : v ∈ t.vals ↔ ∃ k, t.lookup k = some v := by
  constructor
  · intro member
    obtain ⟨⟨k, w⟩, entry, rfl⟩ := List.mem_map.mp member
    exact ⟨k, (AList.mem_lookup_iff (β := fun _ => ν)).mpr entry⟩
  · rintro ⟨k, found⟩
    exact List.mem_map.mpr ⟨⟨k, v⟩, (AList.mem_lookup_iff (β := fun _ => ν)).mp found, rfl⟩

/-- A table whose values know their keys. -/
theorem map_vals (t : Table κ ν) (f : ν → κ) (keyed : ∀ k v, t.lookup k = some v → f v = k) :
    t.vals.map f = t.keys := by
  have shape : t.keys = (AList.entries t).map Sigma.fst := rfl
  rw [shape, vals, List.map_map]
  apply List.map_congr_left
  rintro ⟨k, v⟩ entry
  exact keyed k v ((AList.mem_lookup_iff (β := fun _ => ν)).mpr entry)

private theorem dlookup_map {ν' : Type} (f : ν → ν') (k : κ) (l : List (Sigma fun _ : κ => ν)) :
    (l.map fun e => (⟨e.1, f e.2⟩ : Sigma fun _ : κ => ν')).dlookup k = (l.dlookup k).map f := by
  induction l with
  | nil => rfl
  | cons e rest ih =>
    obtain ⟨k', v⟩ := e
    by_cases same : k = k'
    · subst same
      simp only [List.map_cons, List.dlookup_cons_eq, Option.map_some]
    · rw [List.map_cons, List.dlookup_cons_ne _ _ same, List.dlookup_cons_ne _ _ same, ih]

@[simp] theorem lookup_mapVals {ν' : Type} (t : Table κ ν) (f : ν → ν') (k : κ) :
    (t.mapVals f).lookup k = (t.lookup k).map f :=
  dlookup_map f k (AList.entries t)

end Table

end Lib
