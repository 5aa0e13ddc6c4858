import Mathlib.Data.List.Infix

/-!
# SmbServer.Lib.Tree

Trees of named entries, as a file system has them. What sits at a path is a node: a file or a
directory, with its identity. An edit replaces the entry at a path; its laws say what sits at every
path afterwards.
-/

namespace Lib

/-- A file, or a directory with its entries. -/
inductive Tree (ν ι : Type) where
  | file (id : ι)
  | dir (id : ι) (entries : List (ν × Tree ν ι))

/-- What sits at a path. -/
inductive Node (ι : Type) where
  | file (id : ι)
  | dir (id : ι)
  deriving DecidableEq

namespace Node

variable {ι : Type}

def isDir : Node ι → Bool
  | .dir _ => true
  | .file _ => false

end Node

namespace Tree

variable {ν ι : Type} [DecidableEq ν]

/-! ### Entries -/

/-- Put an entry, or take it out. -/
def setEntry (entries : List (ν × Tree ν ι)) (n : ν) (new : Option (Tree ν ι)) :
    List (ν × Tree ν ι) :=
  let others := entries.filter fun e => e.1 != n
  match new with
  | some t => (n, t) :: others
  | none => others

theorem lookup_others (entries : List (ν × Tree ν ι)) (n m : ν) :
    (entries.filter fun e => e.1 != n).lookup m = if m = n then none else entries.lookup m := by
  induction entries with
  | nil => simp
  | cons e rest ih =>
    obtain ⟨k, t⟩ := e
    by_cases dropped : k = n
    · subst dropped
      simp only [List.filter_cons, bne_self_eq_false, Bool.false_eq_true, if_false, ih,
        List.lookup_cons]
      by_cases same : m = k
      · simp [same]
      · simp only [if_neg same, beq_eq_false_iff_ne.mpr same]
    · simp only [List.filter_cons, bne_iff_ne, ne_eq, dropped, not_false_eq_true, if_true,
        List.lookup_cons]
      by_cases same : m = k
      · subst same
        simp [dropped]
      · simp only [beq_eq_false_iff_ne.mpr same, ih]

theorem lookup_setEntry (entries : List (ν × Tree ν ι)) (n m : ν) (new : Option (Tree ν ι)) :
    (setEntry entries n new).lookup m = if m = n then new else entries.lookup m := by
  cases new with
  | none => exact lookup_others entries n m
  | some t =>
    simp only [setEntry, List.lookup_cons, lookup_others]
    by_cases same : m = n
    · simp [same]
    · simp only [if_neg same, beq_eq_false_iff_ne.mpr same]

theorem eq_nil_of_lookup (entries : List (ν × Tree ν ι)) :
    entries = [] ↔ ∀ n, entries.lookup n = none := by
  constructor
  · rintro rfl n
    rfl
  · intro missing
    cases entries with
    | nil => rfl
    | cons e rest =>
      have here := missing e.1
      simp at here

/-! ### Paths -/

def root : Tree ν ι → Node ι
  | .file id => .file id
  | .dir id _ => .dir id

/-- The entry of a directory; a file has none. -/
def child : Tree ν ι → ν → Option (Tree ν ι)
  | .dir _ entries, n => entries.lookup n
  | .file _, _ => none

def get : Tree ν ι → List ν → Option (Tree ν ι)
  | t, [] => some t
  | t, n :: path => (t.child n).bind (·.get path)

/-- What sits at a path. -/
def node (t : Tree ν ι) (path : List ν) : Option (Node ι) := (t.get path).map root

/-- Put a tree at a path, or take away what is there. The parent has to be a directory, or nothing
happens. -/
def put : Tree ν ι → List ν → Option (Tree ν ι) → Tree ν ι
  | t, [], new => new.getD t
  | .file id, _ :: _, _ => .file id
  | .dir id entries, [n], new => .dir id (setEntry entries n new)
  | .dir id entries, n :: path, new =>
    .dir id (setEntry entries n ((entries.lookup n).map (·.put path new)))

variable {t : Tree ν ι} {path rest : List ν} {n : ν}

@[simp] theorem get_nil : t.get [] = some t := rfl

@[simp] theorem node_nil : t.node [] = some t.root := rfl

theorem get_cons : t.get (n :: path) = (t.child n).bind (·.get path) := rfl

theorem node_cons : t.node (n :: path) = (t.child n).bind (·.node path) := by
  simp only [node, get_cons]
  cases t.child n <;> rfl

theorem get_append : t.get (path ++ rest) = (t.get path).bind (·.get rest) := by
  induction path generalizing t with
  | nil => rfl
  | cons n path ih =>
    simp only [List.cons_append, get_cons]
    cases t.child n with
    | none => rfl
    | some c => exact ih

theorem node_append : t.node (path ++ rest) = (t.get path).bind (·.node rest) := by
  simp only [node, get_append]
  cases t.get path <;> rfl

/-- Above an entry there are directories. -/
theorem node_of_append (more : rest ≠ []) (there : (t.node (path ++ rest)).isSome) :
    ∃ id, t.node path = some (.dir id) := by
  rw [node_append] at there
  cases here : t.get path with
  | none =>
    rw [here] at there
    cases there
  | some c =>
    rw [here] at there
    cases c with
    | file id =>
      cases rest with
      | nil => exact absurd rfl more
      | cons n rest => cases there
    | dir id entries => exact ⟨id, by rw [node, here]; rfl⟩

theorem node_eq_none_of_append (missing : t.node path = none) : t.node (path ++ rest) = none := by
  rw [node_append]
  cases here : t.get path with
  | none => rfl
  | some c =>
    rw [node, here] at missing
    cases missing

/-- A directory is empty when nothing sits under any name. -/
theorem entries_eq_nil {id : ι} {entries : List (ν × Tree ν ι)}
    (here : t.get path = some (.dir id entries)) :
    entries = [] ↔ ∀ n, t.node (path ++ [n]) = none := by
  rw [eq_nil_of_lookup]
  apply forall_congr'
  intro n
  rw [node_append, here]
  simp only [Option.bind_some, node_cons, child]
  cases entries.lookup n with
  | none => simp
  | some c => simp

/-! ### What sits where after an edit -/

/-- Outside of the edited path nothing changes. -/
theorem node_put_of_not_prefix {q : List ν} {new : Option (Tree ν ι)} (proper : path ≠ [])
    (apart : ¬path <+: q) : (t.put path new).node q = t.node q := by
  induction path generalizing t q with
  | nil => exact absurd rfl proper
  | cons n path ih =>
    cases t with
    | file id =>
      cases path <;> rfl
    -- along the edited path, until the other path leaves it
    | dir id entries =>
      cases q with
      | nil => cases path <;> rfl
      | cons m q =>
        cases path with
        | nil =>
          have other : m ≠ n := by
            rintro rfl
            exact apart (by simp)
          simp only [put, node_cons, child, lookup_setEntry, if_neg other]
        | cons k path =>
          simp only [put, node_cons, child, lookup_setEntry]
          by_cases same : m = n
          · subst same
            rw [if_pos rfl]
            cases entries.lookup m with
            | none => rfl
            | some c =>
              apply ih (by simp)
              rwa [List.cons_prefix_cons, and_iff_right rfl] at apart
          · rw [if_neg same]

/-- At the edited path and below it sits what has been put there. -/
theorem get_put_append {new : Option (Tree ν ι)} (proper : path ≠ [])
    (parent : ∃ id, t.node path.dropLast = some (.dir id)) :
    (t.put path new).get (path ++ rest) = new.bind (·.get rest) := by
  induction path generalizing t with
  | nil => exact absurd rfl proper
  | cons n path ih =>
    cases t with
    | file id =>
      obtain ⟨id', above⟩ := parent
      cases path <;> cases above
    | dir id entries =>
      cases path with
      | nil => simp only [put, List.cons_append, List.nil_append, get_cons, child, lookup_setEntry,
          if_true]
      | cons k path =>
        obtain ⟨id', above⟩ := parent
        simp only [List.dropLast_cons_cons, node_cons, child] at above
        obtain ⟨c, here, above⟩ := Option.bind_eq_some_iff.mp above
        simp only [put, List.cons_append, get_cons, child, lookup_setEntry, if_true, here,
          Option.map_some, Option.bind_some]
        exact ih (by simp) ⟨id', above⟩

theorem node_put_append {new : Option (Tree ν ι)} (proper : path ≠ [])
    (parent : ∃ id, t.node path.dropLast = some (.dir id)) :
    (t.put path new).node (path ++ rest) = new.bind (·.node rest) := by
  rw [node, get_put_append proper parent]
  cases new <;> rfl

end Tree

end Lib
