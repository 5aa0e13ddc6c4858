import Mathlib.Data.Multiset.Bind
import Mathlib.Data.Multiset.Range
import SmbServer.Lib.Table

/-!
# SmbServer.Lib.Ledger

Accounting for numbered resources. Numbers are handed out in order; at every moment each number is
held in at most one place or has been closed in the log. `Balanced` says so as one inequality
between multisets, so that "closed once" and "not used behind its close" are read off it, and what
an operation does to the holders is a sum over tables.
-/

namespace Lib

/-! ### What a table holds -/

namespace Table

variable {κ ν α : Type} [DecidableEq κ]

/-- What the values of a table hold together. -/
def collect (t : Table κ ν) (g : ν → Multiset α) : Multiset α := (t.vals : Multiset ν).bind g

variable (t : Table κ ν) (k : κ) (v : ν) (f : ν → ν) (g : ν → Multiset α)

omit [DecidableEq κ] in
@[simp] theorem collect_empty : (empty : Table κ ν).collect g = 0 := rfl

private theorem perm_kerase (l : List (Sigma fun _ : κ => ν)) (found : l.dlookup k = some v) :
    (l.map Sigma.snd).Perm (v :: (l.kerase k).map Sigma.snd) := by
  induction l with
  | nil => simp at found
  | cons e rest ih =>
    by_cases here : k = e.1
    · subst here
      rw [List.dlookup_cons_eq, Option.some.injEq] at found
      rw [List.kerase_cons_eq rfl, List.map_cons, found]
    · rw [List.dlookup_cons_ne _ _ here] at found
      rw [List.kerase_cons_ne here, List.map_cons, List.map_cons]
      exact ((ih found).cons _).trans (List.Perm.swap _ _ _)

/-- What an entry holds is part of what the table holds. -/
theorem collect_erase (found : t.lookup k = some v) :
    t.collect g = (t.erase k).collect g + g v := by
  have perm : t.vals.Perm (v :: (t.erase k).vals) := perm_kerase k v (AList.entries t) found
  rw [collect, Multiset.coe_eq_coe.mpr perm, ← Multiset.cons_coe, Multiset.cons_bind, add_comm]
  rfl

theorem erase_of_none (missing : t.lookup k = none) : t.erase k = t := by
  have absent : k ∉ t.keys := by
    rw [mem_keys, missing]
    simp
  exact AList.ext (List.kerase_of_notMem_keys absent)

theorem collect_erase_le : (t.erase k).collect g ≤ t.collect g := by
  cases found : t.lookup k with
  | none => rw [erase_of_none t k found]
  | some v =>
    rw [collect_erase t k v g found]
    exact Multiset.le_add_right _ _

theorem collect_insert : (t.insert k v).collect g = (t.erase k).collect g + g v := by
  have vals : (t.insert k v).vals = v :: (t.erase k).vals := rfl
  rw [collect, vals, ← Multiset.cons_coe, Multiset.cons_bind, add_comm]
  rfl

/-- Inserting may drop what the key held before. -/
theorem collect_insert_le : (t.insert k v).collect g ≤ t.collect g + g v := by
  rw [collect_insert]
  exact add_le_add (collect_erase_le t k g) (le_refl _)

theorem erase_modify : (t.modify k f).erase k = t.erase k := by
  apply AList.ext
  have nodup : (AList.entries t).NodupKeys := t.2
  change ((AList.entries t).map fun e =>
    (⟨e.1, if e.1 = k then f e.2 else e.2⟩ : Sigma fun _ : κ => ν)).kerase k =
      (AList.entries t).kerase k
  revert nodup
  generalize AList.entries t = l
  intro nodup
  -- over the entries, of which at most one has the key
  induction l with
  | nil => rfl
  | cons e rest ih =>
    obtain ⟨fresh, nodup⟩ := List.nodupKeys_cons.mp nodup
    rw [List.map_cons]
    by_cases here : k = e.1
    · subst here
      simp only [List.kerase, List.eraseP_cons, decide_true, cond_true]
      conv_rhs => rw [← List.map_id rest]
      refine List.map_congr_left fun e' member => ?_
      have other : e'.1 ≠ e.1 := fun same => fresh (same ▸ List.mem_keys_of_mem member)
      simp [other]
    · have later := ih nodup
      simp only [List.kerase, List.eraseP_cons, here, decide_false, cond_false] at later ⊢
      rw [later, if_neg (Ne.symm here)]

/-- A change in place replaces what the entry holds. -/
theorem collect_modify (found : t.lookup k = some v) :
    (t.modify k f).collect g = (t.erase k).collect g + g (f v) := by
  have here : (t.modify k f).lookup k = some (f v) := by rw [lookup_modify_self, found]; rfl
  rw [collect_erase _ k (f v) g here, erase_modify]

theorem modify_of_none (missing : t.lookup k = none) : t.modify k f = t := by
  apply AList.ext
  simp only [modify]
  conv_rhs => rw [← List.map_id (AList.entries t)]
  refine List.map_congr_left fun e member => ?_
  have other : e.1 ≠ k := by
    intro same
    have present : k ∈ t.keys := same ▸ List.mem_keys_of_mem member
    rw [mem_keys, missing] at present
    simp at present
  simp [other]

/-- A change in place that adds at most `extra` to what an entry holds. -/
theorem collect_modify_le (extra : Multiset α) (le : ∀ v, g (f v) ≤ g v + extra) :
    (t.modify k f).collect g ≤ t.collect g + extra := by
  cases found : t.lookup k with
  | none =>
    rw [modify_of_none t k f found]
    exact Multiset.le_add_right _ _
  | some v =>
    rw [collect_modify t k v f g found, collect_erase t k v g found, add_assoc]
    exact add_le_add (le_refl _) (le v)

theorem le_collect (found : t.lookup k = some v) : g v ≤ t.collect g := by
  rw [collect_erase t k v g found]
  exact Multiset.le_add_left _ _

/-- What is collected once is held under one key. -/
theorem key_unique_of_nodup {t : Table κ ν} {g : ν → Multiset α} (nodup : (t.collect g).Nodup)
    {k k' : κ} {v v' : ν} {a : α} (found : t.lookup k = some v) (found' : t.lookup k' = some v')
    (here : a ∈ g v) (there : a ∈ g v') : k = k' := by
  by_contra other
  rw [collect_erase t k v g found, Multiset.nodup_add] at nodup
  have rest : (t.erase k).lookup k' = some v' := by
    rw [lookup_erase, if_neg (Ne.symm other), found']
  have twice := Multiset.mem_of_le (le_collect _ k' v' g rest) there
  exact Multiset.disjoint_left.mp nodup.2.2 twice here

end Table

/-! ### The balance -/

variable {α : Type}

/-- Entries of a log use numbers, and some of them close a number. -/
structure Ledger (α : Type) where
  uses : α → Option ℕ
  closes : α → Option ℕ

namespace Ledger

variable (L : Ledger α)

/-- The numbers that a log has closed. -/
def closed (log : List α) : Multiset ℕ := (log.filterMap L.closes : List ℕ)

/-- A number is closed at most once, and not used behind that. -/
def ClosedOnce (log : List α) : Prop :=
  log.Pairwise fun a b => ∀ n, L.closes a = some n → L.uses b ≠ some n

/-- What is held and what is closed are different numbers below `next`, each once. -/
structure Balanced (held : Multiset ℕ) (log : List α) (next : ℕ) : Prop where
  accounts : held + L.closed log ≤ Multiset.range next
  once : L.ClosedOnce log

variable {L} {held held' : Multiset ℕ} {log : List α} {next next' : ℕ}

theorem balanced_nil (next : ℕ) : L.Balanced 0 [] next :=
  ⟨Multiset.zero_le _, List.Pairwise.nil⟩

theorem Balanced.mono (h : L.Balanced held log next) (less : held' ≤ held) (later : next ≤ next') :
    L.Balanced held' log next' := by
  refine ⟨?_, h.once⟩
  calc held' + L.closed log
    _ ≤ held + L.closed log := add_le_add less (le_refl _)
    _ ≤ Multiset.range next := h.accounts
    _ ≤ Multiset.range next' := Multiset.range_le.mpr later

theorem Balanced.nodup (h : L.Balanced held log next) : held.Nodup := by
  have less := (Multiset.le_add_right held (L.closed log)).trans h.accounts
  exact Multiset.nodup_of_le less (Multiset.nodup_range next)

/-- What is held is open. -/
theorem Balanced.not_closed (h : L.Balanced held log next) (n : ℕ) (here : n ∈ held) :
    n ∉ L.closed log := by
  intro gone
  have nodup := Multiset.nodup_of_le h.accounts (Multiset.nodup_range next)
  exact Multiset.disjoint_left.mp (Multiset.nodup_add.mp nodup).2.2 here gone

private theorem closedOnce_append {c : α} (once : L.ClosedOnce log)
    (still : ∀ n, L.uses c = some n → n ∉ L.closed log) : L.ClosedOnce (log ++ [c]) := by
  refine List.pairwise_append.mpr ⟨once, List.pairwise_singleton _ _, ?_⟩
  intro a before b last n closing used
  obtain rfl := List.mem_singleton.mp last
  exact still n used (Multiset.mem_coe.mpr (List.mem_filterMap.mpr ⟨a, before, closing⟩))

/-- An entry that closes nothing and uses what is held. -/
theorem Balanced.use (h : L.Balanced held log next) (c : α) (closes : L.closes c = none)
    (uses : ∀ n, L.uses c = some n → n ∈ held) : L.Balanced held (log ++ [c]) next := by
  refine ⟨?_, closedOnce_append h.once fun n used => h.not_closed n (uses n used)⟩
  have same : L.closed (log ++ [c]) = L.closed log := by simp [closed, closes]
  rw [same]
  exact h.accounts

/-- An entry that closes what is held. -/
theorem Balanced.close {n : ℕ} (h : L.Balanced (held + {n}) log next) (c : α)
    (closes : L.closes c = some n) (uses : L.uses c = some n) :
    L.Balanced held (log ++ [c]) next := by
  refine ⟨?_, closedOnce_append h.once ?_⟩
  · have more : L.closed (log ++ [c]) = {n} + L.closed log := by
      simp only [closed, List.filterMap_append, List.filterMap_cons, closes, List.filterMap_nil,
        ← Multiset.coe_add, Multiset.coe_singleton]
      exact add_comm _ _
    rw [more, ← add_assoc]
    exact h.accounts
  · intro m used
    obtain rfl := Option.some.inj (uses.symm.trans used)
    exact h.not_closed _ (Multiset.mem_add.mpr (.inr (Multiset.mem_singleton_self _)))

/-- The next number is handed out. -/
theorem Balanced.take (h : L.Balanced held log next) :
    L.Balanced (held + {next}) log (next + 1) := by
  refine ⟨?_, h.once⟩
  rw [Multiset.range_succ, ← Multiset.singleton_add, add_right_comm, add_comm]
  exact add_le_add (le_refl _) h.accounts

/-- Several entries that close nothing. -/
theorem Balanced.useAll (h : L.Balanced held log next) (new : List α)
    (each : ∀ c ∈ new, L.closes c = none ∧ ∀ n, L.uses c = some n → n ∈ held) :
    L.Balanced held (log ++ new) next := by
  induction new generalizing log with
  | nil => rwa [List.append_nil]
  | cons c rest ih =>
    obtain ⟨closes, uses⟩ := each c List.mem_cons_self
    have later := ih (h.use c closes uses) fun d member => each d (List.mem_cons_of_mem c member)
    rwa [List.append_assoc] at later

end Ledger

end Lib
