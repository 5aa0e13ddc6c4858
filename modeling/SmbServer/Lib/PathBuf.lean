import Mathlib.Data.List.Basic

/-!
# SmbServer.Lib.PathBuf

Paths as text with `/` between the components, and what a path names: its components, and the path
without `.` and `..` that it comes down to.
-/

namespace Lib

abbrev PathBuf := List Char

namespace PathBuf

/-- A component of a path. -/
inductive Component where
  | rootDir
  | curDir
  | parentDir
  | normal (name : List Char)
  deriving DecidableEq

def isAbsolute (p : PathBuf) : Bool := p.head? == some '/'

/-- An absolute path takes the place of the one it is pushed on. -/
def push (p q : PathBuf) : PathBuf :=
  if isAbsolute q then q
  else if p.isEmpty || p.getLast? == some '/' then p ++ q
  else p ++ '/' :: q

/-- What stands between two separators, behind the first: nothing and `.` are no component. -/
def component : List Char → Option Component
  | [] | ['.'] => none
  | ['.', '.'] => some .parentDir
  | name => some (.normal name)

/-- The components of a path that continues another. -/
def continued (p : PathBuf) : List Component := (p.splitOn '/').filterMap component

/-- A path begins at the root, at the directory it names as `.`, or with a component. -/
def start (p : PathBuf) : List Component :=
  if isAbsolute p then [.rootDir]
  else if (p.splitOn '/').head? == some ['.'] then [.curDir]
  else []

def components (p : PathBuf) : List Component := start p ++ continued p

/-- One component further, the last one in front. -/
def descend : List Component → Component → List Component
  | stack, .curDir => stack
  | .normal _ :: stack, .parentDir => stack
  | .rootDir :: stack, .parentDir => .rootDir :: stack
  | stack, part => part :: stack

/-- The components without `.`, and without `..` behind a name. -/
def normalize (p : PathBuf) : List Component := ((components p).foldl descend []).reverse

/-! ### Components -/

/-- A name that is one component. -/
structure IsName (name : List Char) : Prop where
  intro ::
  nonempty : name ≠ []
  notCur : name ≠ ['.']
  notParent : name ≠ ['.', '.']
  whole : '/' ∉ name

theorem component_of_isName {name : List Char} (h : IsName name) :
    component name = some (.normal name) := by
  unfold component
  split
  · exact absurd rfl h.nonempty
  · exact absurd rfl h.notCur
  · exact absurd rfl h.notParent
  · rfl

theorem isAbsolute_eq_false {p : PathBuf} (h : '/' ∉ p) : isAbsolute p = false := by
  rw [isAbsolute, beq_eq_false_iff_ne]
  intro front
  exact h (List.mem_of_mem_head? front)

theorem continued_of_whole {p : PathBuf} (h : '/' ∉ p) :
    continued p = (component p).toList := by
  rw [continued, List.splitOn_eq_singleton h, List.filterMap_cons]
  cases component p <;> rfl

theorem components_of_isName {name : List Char} (h : IsName name) :
    components name = [.normal name] := by
  have begin : start name = [] := by
    rw [start, isAbsolute_eq_false h.whole, List.splitOn_eq_singleton h.whole]
    simp [h.notCur]
  rw [components, begin, continued_of_whole h.whole, component_of_isName h]
  rfl

theorem rootDir_mem_components {p : PathBuf} (h : isAbsolute p = true) :
    .rootDir ∈ components p := by
  rw [components, start, if_pos h]
  exact List.mem_cons_self

/-- Names only, and the path begins with one of them. -/
theorem continued_of_components {p : PathBuf} {names : List (List Char)}
    (h : components p = names.map .normal) : continued p = names.map .normal := by
  -- a root or a dot in front would be a component that is no name
  have only : ∀ part ∈ start p, ∃ name, part = .normal name := by
    intro part listed
    have listed : part ∈ names.map .normal := by
      rw [← h, components]
      exact List.mem_append_left _ listed
    obtain ⟨name, -, same⟩ := List.mem_map.mp listed
    exact ⟨name, same.symm⟩
  rw [← h, components]
  unfold start at only ⊢
  split
  next absolute =>
    rw [if_pos absolute] at only
    obtain ⟨name, same⟩ := only _ List.mem_cons_self
    cases same
  next relative =>
    rw [if_neg relative] at only
    split
    next dot =>
      rw [if_pos dot] at only
      obtain ⟨name, same⟩ := only _ List.mem_cons_self
      cases same
    next => rfl

/-- Names only make a relative path. -/
theorem isAbsolute_eq_false_of_components {p : PathBuf} {names : List (List Char)}
    (h : components p = names.map .normal) : isAbsolute p = false := by
  rw [Bool.eq_false_iff]
  intro absolute
  have root := rootDir_mem_components absolute
  rw [h] at root
  obtain ⟨name, -, same⟩ := List.mem_map.mp root
  cases same

/-! ### Pushing -/

theorem continued_append (p q : PathBuf) :
    continued (p ++ '/' :: q) = continued p ++ continued q := by
  rw [continued, List.splitOn_append_cons_self, List.filterMap_append]
  rfl

theorem head?_splitOn_append (p q : PathBuf) :
    ((p ++ '/' :: q).splitOn '/').head? = (p.splitOn '/').head? := by
  rw [List.splitOn_append_cons_self]
  exact List.head?_append_of_ne_nil _ (List.splitOn_ne_nil _ _)

/-- What follows a separator is no part of the start. -/
theorem start_append (p q r : PathBuf) : start (p ++ '/' :: q) = start (p ++ '/' :: r) := by
  have front : isAbsolute (p ++ '/' :: q) = isAbsolute (p ++ '/' :: r) := by
    cases p <;> rfl
  rw [start, start, front, head?_splitOn_append p q, head?_splitOn_append p r]

theorem start_append_of_ne_nil {p : PathBuf} (there : p ≠ []) (q : PathBuf) :
    start (p ++ '/' :: q) = start p := by
  have front : isAbsolute (p ++ '/' :: q) = isAbsolute p := by
    rw [isAbsolute, isAbsolute, List.head?_append_of_ne_nil p there]
  rw [start, start, front, head?_splitOn_append]

theorem components_append_of_ne_nil {p : PathBuf} (there : p ≠ []) (q : PathBuf) :
    components (p ++ '/' :: q) = components p ++ continued q := by
  rw [components, components, start_append_of_ne_nil there, continued_append, List.append_assoc]

/-- Where the path ends with a separator none is added, which makes no difference. -/
theorem components_push {p q : PathBuf} (there : p ≠ []) (relative : isAbsolute q = false) :
    components (push p q) = components p ++ continued q := by
  rw [push, relative, if_neg Bool.false_ne_true]
  split
  next ended =>
    have last : p.getLast? = some '/' := by simpa [there] using ended
    obtain ⟨front, rfl⟩ := List.getLast?_eq_some_iff.mp last
    rw [List.append_assoc, List.singleton_append, components, components,
      start_append front q [], continued_append, continued_append]
    have nothing : continued [] = [] := rfl
    rw [nothing, List.append_nil, List.append_assoc]
  next => exact components_append_of_ne_nil there q

theorem push_ne_nil {p q : PathBuf} (there : q ≠ []) : push p q ≠ [] := by
  unfold push
  split
  · exact there
  · split <;> simp [there]

/-- Names pushed one after the other are the components. -/
theorem components_pushAll {p : PathBuf} {names : List (List Char)} (there : p ≠ [])
    (h : ∀ name ∈ names, IsName name) :
    components (names.foldl push p) = components p ++ names.map .normal := by
  induction names generalizing p with
  | nil => simp
  | cons name names ih =>
    have here := h name List.mem_cons_self
    rw [List.foldl_cons, ih (push_ne_nil here.nonempty) fun n listed => h n (.tail _ listed),
      components_push there (isAbsolute_eq_false here.whole), continued_of_whole here.whole,
      component_of_isName here]
    simp

/-- From nothing, too. -/
theorem components_ofNames {names : List (List Char)} (there : names ≠ [])
    (h : ∀ name ∈ names, IsName name) :
    components (names.foldl push []) = names.map .normal := by
  cases names with
  | nil => exact absurd rfl there
  | cons name names =>
    have here := h name List.mem_cons_self
    have first : push [] name = name := by
      simp [push, isAbsolute_eq_false here.whole]
    rw [List.foldl_cons, first,
      components_pushAll here.nonempty fun n listed => h n (.tail _ listed),
      components_of_isName here]
    rfl

/-! ### Normal paths -/

theorem foldl_descend_normal (names : List (List Char)) (stack : List Component) :
    (names.map .normal).foldl descend stack = (names.map .normal).reverse ++ stack := by
  induction names generalizing stack with
  | nil => rfl
  | cons name names ih =>
    have here : descend stack (.normal name) = .normal name :: stack := by cases stack <;> rfl
    rw [List.map_cons, List.foldl_cons, here, ih]
    simp

/-- Names are normal already, and a component behind them goes one further or one back. -/
theorem normalize_of_components {p : PathBuf} {names : List (List Char)} {last : List Component}
    (h : components p = names.map .normal ++ last) :
    normalize p = (last.foldl descend (names.map .normal).reverse).reverse := by
  rw [normalize, h, List.foldl_append, foldl_descend_normal, List.append_nil]

theorem normalize_of_names {p : PathBuf} {names : List (List Char)}
    (h : components p = names.map .normal) : normalize p = names.map .normal := by
  have whole : components p = names.map .normal ++ [] := by rw [h, List.append_nil]
  rw [normalize_of_components whole]
  exact List.reverse_reverse _

end PathBuf

end Lib
