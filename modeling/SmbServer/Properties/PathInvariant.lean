import SmbServer.Effects.Path
import SmbServer.Fs.Local

/-!
# SmbServer.Properties.PathInvariant

What a backend may rely on when it is given a path, and that a path survives being printed.

## Main results

- `pathInvariant`: a path has safe names for its components, a stream only on a name, and stays
  below the share root.
- `pathRoundTrip`: a printed path parses to its components, and the parser does not tell one
  separator from the other, nor one in front from none.

## Proof strategy

`Obtained.wellFormed` carries the invariant through every way a path comes about. The parser is one
statement about the parts of a text (`parseParts_eq_ok_iff`), so texts with equal parts parse alike.
-/

namespace SmbServer

open Lib

/-! ### Below the share root -/

theorem PlainName.isName {name : Text} (h : PlainName name) : PathBuf.IsName name where
  nonempty := h.ok.nonempty
  notCur := h.notCur
  notParent := h.ok.notParent
  whole := fun inside => absurd (h.plain '/' inside).whole (by decide)

/-- The path that is built has the components and nothing else. -/
theorem components_toRelPathBuf {p : SmbPath} (h : p.WellFormed) (below : p.components ≠ []) :
    PathBuf.components (toRelPathBuf p) = (toRelPath p).map .normal := by
  have root : p.isRoot = false := by simpa [SmbPath.isRoot] using below
  rw [toRelPathBuf, root, if_neg Bool.false_ne_true]
  exact PathBuf.components_ofNames below fun name listed => (h.names name listed).isName

/-- A name that stands for itself and for nothing special. -/
structure SafeName (name : Text) : Prop where
  intro ::
  nonempty : name ≠ []
  notCur : name ≠ ['.']
  notParent : name ≠ ['.', '.']
  plain : ∀ c ∈ name,
    0x1F < c.toNat ∧ c ∉ ['\\', '/', ':', '<', '>', '"', '|', '?', '*']

theorem PlainName.safe {name : Text} (h : PlainName name) : SafeName name where
  nonempty := h.ok.nonempty
  notCur := h.notCur
  notParent := h.ok.notParent
  plain := by
    intro c inside
    obtain ⟨whole, noColon, allowed⟩ := h.plain c inside
    simp only [isSeparator, isForbiddenChar, Bool.or_eq_false_iff, beq_eq_false_iff_ne,
      decide_eq_false_iff_not] at whole allowed
    have above : ¬c.toNat < 0x20 := allowed.1.1.1.1.1.1
    refine ⟨by omega, ?_⟩
    simp [whole, noColon, allowed]

/-- Every path that comes about is safe to hand to a backend. -/
theorem pathInvariant (p : SmbPath) (h : p.Obtained) :
    (∀ name ∈ p.components, SafeName name) ∧
    (p.streamName ≠ none → p.components ≠ []) ∧
    (p.components = [] ∧ toRelPathBuf p = ['.'] ∨
      PathBuf.isAbsolute (toRelPathBuf p) = false ∧
        PathBuf.components (toRelPathBuf p) = p.components.map .normal) := by
  have formed := h.wellFormed
  refine ⟨fun name listed => (formed.names name listed).safe, ?_, ?_⟩
  · intro selected
    obtain ⟨t, stream⟩ := Option.ne_none_iff_exists'.mp selected
    exact (formed.hosted t stream).1
  · by_cases root : p.components = []
    · exact .inl ⟨root, by simp [toRelPathBuf, SmbPath.isRoot, root]⟩
    · have parts := components_toRelPathBuf formed root
      exact .inr ⟨PathBuf.isAbsolute_eq_false_of_components parts, parts⟩

/-- `a\.\b` is a path, and `c:s` can be joined to it. -/
theorem pathInvariant_joined :
    ∃ p : SmbPath, p = ⟨[['a'], ['b'], ['c']], some ['s']⟩ ∧
      (∀ name ∈ p.components, SafeName name) ∧
      (p.streamName ≠ none → p.components ≠ []) ∧
      (p.components = [] ∧ toRelPathBuf p = ['.'] ∨
        PathBuf.isAbsolute (toRelPathBuf p) = false ∧
          PathBuf.components (toRelPathBuf p) = p.components.map .normal) := by
  have parsed : SmbPath.fromStr ['a', '\\', '.', '\\', 'b'] = .ok ⟨[['a'], ['b']], none⟩ := by
    decide +kernel
  have joined : SmbPath.join ⟨[['a'], ['b']], none⟩ ['c', ':', 's'] =
      .ok ⟨[['a'], ['b'], ['c']], some ['s']⟩ := by
    decide +kernel
  exact ⟨_, rfl, pathInvariant _ (.join (.fromStr parsed) joined)⟩

/-! ### Printed paths -/

theorem trimSeparator_of_not {s : Text} (h : ∀ c, s.head? = some c → isSeparator c = false) :
    trimSeparator s = s := by
  cases s with
  | nil => rfl
  | cons c s => simp [trimSeparator, h c rfl]

theorem trimSeparator_cons {c : Char} (h : isSeparator c = true) (s : Text) :
    trimSeparator (c :: s) = s := by
  simp [trimSeparator, h]

/-- What is printed are the characters of the components and backslashes. -/
theorem mem_displayBackslash {parts : List Text} {c : Char}
    (h : c ∈ List.intercalate ['\\'] parts) : c = '\\' ∨ ∃ part ∈ parts, c ∈ part := by
  induction parts with
  | nil => cases h
  | cons part parts ih =>
    cases parts with
    | nil =>
      rw [List.intercalate_singleton] at h
      exact .inr ⟨part, List.mem_cons_self, h⟩
    | cons next parts =>
      rw [List.intercalate_cons_cons, List.append_assoc, List.singleton_append] at h
      rcases List.mem_append.mp h with here | behind
      · exact .inr ⟨part, List.mem_cons_self, here⟩
      · rcases List.mem_cons.mp behind with same | later
        · exact .inl same
        · rcases ih later with same | ⟨q, listed, inside⟩
          · exact .inl same
          · exact .inr ⟨q, .tail _ listed, inside⟩

/-- The first character of a printed path is one of a name. -/
theorem displayBackslash_eq_cons {p : SmbPath} (h : p.WellFormed) (below : p.components ≠ []) :
    ∃ c rest, p.displayBackslash = c :: rest ∧ isSeparator c = false := by
  have names := h.names
  rw [SmbPath.displayBackslash]
  cases parts : p.components with
  | nil => exact absurd parts below
  | cons name others =>
    rw [parts] at names
    have first := names name List.mem_cons_self
    cases name with
    | nil => exact absurd rfl first.ok.nonempty
    | cons c name =>
      refine ⟨c, ?_⟩
      cases others with
      | nil =>
        rw [List.intercalate_singleton]
        exact ⟨name, rfl, (first.plain c List.mem_cons_self).whole⟩
      | cons other others =>
        rw [List.intercalate_cons_cons, List.append_assoc, List.cons_append]
        exact ⟨_, rfl, (first.plain c List.mem_cons_self).whole⟩

theorem parseComponents_displayBackslash {p : SmbPath} (h : p.WellFormed) :
    SmbPath.parseComponents p.displayBackslash = .ok ⟨p.components, none⟩ := by
  by_cases root : p.components = []
  · rw [SmbPath.displayBackslash, root]
    rfl
  have whole : ∀ name ∈ p.components, ∀ c ∈ name, isSeparator c = false :=
    fun name listed c inside => ((h.names name listed).plain c inside).whole
  -- the text begins with a name, so no separator is trimmed off
  obtain ⟨c, rest, printed, free⟩ := displayBackslash_eq_cons h root
  have trimmed : trimSeparator p.displayBackslash = p.displayBackslash := by
    apply trimSeparator_of_not
    rw [printed]
    rintro _ ⟨⟩
    exact free
  have there : p.displayBackslash ≠ [] := by simp [printed]
  have allowed : p.displayBackslash.any isForbiddenChar = false := by
    rw [List.any_eq_false]
    intro c inside
    rcases mem_displayBackslash inside with rfl | ⟨name, listed, within⟩
    · decide
    · rw [((h.names name listed).plain c within).allowed]
      exact Bool.false_ne_true
  -- no name has a separator or a colon in it, so the names are what is split off
  have parts : splitSeparators p.displayBackslash = p.components :=
    splitSeparators_intercalate root whole
  have final := h.names _ (SmbPath.getLastD_mem root)
  have noStream : splitStreamSelector (p.components.getLastD []) =
      .ok (p.components.getLastD [], none) :=
    splitStreamSelector_of_notMem fun inside => (final.plain ':' inside).noColon rfl
  rw [SmbPath.parseComponents_eq, trimmed, if_neg (by simpa using there),
    if_neg (by simp [allowed]), parts]
  apply SmbPath.parseParts_eq_ok_iff.mpr
  refine ⟨?_, _, none, noStream, final.ok, fun _ => rfl, ?_⟩
  · intro name listed
    have name := h.names name (List.dropLast_subset _ listed)
    exact ⟨fun inside => (name.plain ':' inside).noColon rfl, name.ok⟩
  · rw [SmbPath.dropLast_append_getLastD root, List.filter_eq_self.mpr]
    intro name listed
    simpa using (h.names name listed).notCur

/-! ### Separators -/

/-- Some separators of the one text are the other separator in the other. -/
def Exchanged (s s' : Text) : Prop :=
  List.Forall₂ (fun c c' => c = c' ∨ isSeparator c = true ∧ isSeparator c' = true) s s'

theorem isForbiddenChar_of_isSeparator {c : Char} (h : isSeparator c = true) :
    isForbiddenChar c = false := by
  rw [isSeparator, Bool.or_eq_true, beq_iff_eq, beq_iff_eq] at h
  rcases h with rfl | rfl <;> decide

namespace Exchanged

variable {s s' : Text}

theorem splitSeparators_eq (h : Exchanged s s') : splitSeparators s' = splitSeparators s := by
  induction h with
  | nil => rfl
  | @cons c c' s s' head tail ih =>
    rw [splitSeparators, splitSeparators, ih]
    rcases head with rfl | ⟨here, there⟩
    · rfl
    · rw [if_pos here, if_pos there]

theorem any_eq (h : Exchanged s s') : s'.any isForbiddenChar = s.any isForbiddenChar := by
  induction h with
  | nil => rfl
  | @cons c c' s s' head tail ih =>
    rw [List.any_cons, List.any_cons, ih]
    rcases head with rfl | ⟨here, there⟩
    · rfl
    · rw [isForbiddenChar_of_isSeparator here, isForbiddenChar_of_isSeparator there]

theorem isEmpty_eq (h : Exchanged s s') : s'.isEmpty = s.isEmpty := by
  cases h <;> rfl

theorem trim (h : Exchanged s s') : Exchanged (trimSeparator s) (trimSeparator s') := by
  cases h with
  | nil => exact .nil
  | @cons c c' s s' head tail =>
    have alike : isSeparator c' = isSeparator c := by
      rcases head with rfl | ⟨here, there⟩
      · rfl
      · rw [here, there]
    by_cases separator : isSeparator c = true
    · rw [trimSeparator_cons separator, trimSeparator_cons (alike.trans separator)]
      exact tail
    · simp only [trimSeparator, alike, if_neg separator]
      exact List.Forall₂.cons head tail

theorem parseComponents_eq (h : Exchanged s s') :
    SmbPath.parseComponents s' = SmbPath.parseComponents s := by
  rw [SmbPath.parseComponents_eq, SmbPath.parseComponents_eq, h.trim.isEmpty_eq, h.trim.any_eq,
    h.trim.splitSeparators_eq]

end Exchanged

/-- One separator more in front makes no difference. -/
theorem parseComponents_leading {s : Text} {c : Char} (separator : isSeparator c = true)
    (h : ∀ a, s.head? = some a → isSeparator a = false) :
    SmbPath.parseComponents (c :: s) = SmbPath.parseComponents s := by
  rw [SmbPath.parseComponents_eq, SmbPath.parseComponents_eq, trimSeparator_cons separator,
    trimSeparator_of_not h]

/-- Printing and parsing gives the components back, and separators are all one. -/
theorem pathRoundTrip :
    (∀ p : SmbPath, p.Obtained →
      SmbPath.fromStr p.displayBackslash = .ok ⟨p.components, none⟩) ∧
    (∀ s : Text, (∀ a, s.head? = some a → isSeparator a = false) →
      (∀ s', Exchanged s s' → SmbPath.fromStr s' = SmbPath.fromStr s) ∧
      ∀ c, isSeparator c = true → SmbPath.fromStr (c :: s) = SmbPath.fromStr s) := by
  constructor
  · intro p h
    exact parseComponents_displayBackslash h.wellFormed
  · intro s free
    exact ⟨fun s' h => h.parseComponents_eq, fun c h => parseComponents_leading h free⟩

/-- The stream is not printed, and `a/b`, `a\b` and `\a/b` are one path. -/
theorem pathRoundTrip_plain :
    SmbPath.fromStr (SmbPath.displayBackslash ⟨[['a'], ['b']], some ['s']⟩) =
      .ok ⟨[['a'], ['b']], none⟩ ∧
    SmbPath.fromStr ['a', '\\', 'b'] = SmbPath.fromStr ['a', '/', 'b'] ∧
    SmbPath.fromStr ['\\', 'a', '/', 'b'] = SmbPath.fromStr ['a', '/', 'b'] := by
  have parsed : SmbPath.fromStr ['a', '\\', 'b', ':', 's'] =
      .ok ⟨[['a'], ['b']], some ['s']⟩ := by
    decide +kernel
  have exchanged : Exchanged ['a', '/', 'b'] ['a', '\\', 'b'] :=
    .cons (.inl rfl) (.cons (.inr ⟨rfl, rfl⟩) (.cons (.inl rfl) .nil))
  have free : ∀ c, (['a', '/', 'b'] : Text).head? = some c → isSeparator c = false := by
    rintro _ ⟨⟩
    rfl
  exact ⟨pathRoundTrip.1 _ (.fromStr parsed), (pathRoundTrip.2 _ free).1 _ exchanged,
    (pathRoundTrip.2 _ free).2 '\\' rfl⟩

end SmbServer
