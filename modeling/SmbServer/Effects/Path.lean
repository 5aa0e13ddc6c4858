import SmbServer.Path
import Mathlib.Data.List.TakeWhile

/-!
# SmbServer.Effects.Path

What the path parser accepts, and what it makes of it: the splits of a text as the one way to write
it with a separator in between, then the parser's passes in one statement.
-/

namespace SmbServer

open Lib

/-! ### Splits -/

namespace Text

theorem splitOnce_eq_none {sep : Char} {s : Text} : splitOnce sep s = none ↔ sep ∉ s := by
  induction s with
  | nil => simp [splitOnce]
  | cons c s ih =>
    rw [splitOnce, List.mem_cons, not_or]
    split
    next same => simp [same]
    next other => simp [ih, Ne.symm other]

theorem splitOnce_eq_some {sep : Char} {s before behind : Text} :
    splitOnce sep s = some (before, behind) ↔ sep ∉ before ∧ s = before ++ sep :: behind := by
  -- the first character is the separator, or it stands in front of what the rest splits into
  induction s generalizing before with
  | nil => simp [splitOnce]
  | cons c s ih =>
    rw [splitOnce]
    split
    next same =>
      subst same
      constructor
      · rintro ⟨⟩
        simp
      · rintro ⟨free, parts⟩
        cases before with
        | nil => simp_all
        | cons b before => simp_all
    next other =>
      rw [Option.map_eq_some_iff]
      constructor
      · rintro ⟨⟨front, rest⟩, found, ⟨⟩⟩
        obtain ⟨free, rfl⟩ := ih.mp found
        simp [free, Ne.symm other]
      · rintro ⟨free, parts⟩
        cases before with
        | nil =>
          injection parts with head
          exact absurd head other
        | cons b before =>
          injection parts with head rest
          subst head
          rw [List.mem_cons, not_or] at free
          exact ⟨(before, behind), ih.mpr ⟨free.2, rest⟩, rfl⟩

theorem rsplitOnce_eq_none {sep : Char} {s : Text} : rsplitOnce sep s = none ↔ sep ∉ s := by
  induction s with
  | nil => simp [rsplitOnce]
  | cons c s ih =>
    rw [rsplitOnce, List.mem_cons, not_or]
    split
    next found => simp [← ih, found]
    next missing =>
      rw [ih] at missing
      simp [missing, eq_comm]

theorem rsplitOnce_eq_some {sep : Char} {s before behind : Text}
    (h : rsplitOnce sep s = some (before, behind)) :
    sep ∉ behind ∧ s = before ++ sep :: behind := by
  induction s generalizing before with
  | nil => cases h
  | cons c s ih =>
    rw [rsplitOnce] at h
    split at h
    next front rest found =>
      cases h
      obtain ⟨free, rfl⟩ := ih found
      exact ⟨free, rfl⟩
    next missing =>
      split at h
      next same =>
        cases h
        exact ⟨rsplitOnce_eq_none.mp missing, by rw [same]; rfl⟩
      next => cases h

end Text

/-! ### Separators -/

theorem splitSeparators_eq (s : Text) : splitSeparators s = s.splitOnP isSeparator := by
  induction s with
  | nil => rfl
  | cons c s ih =>
    rw [splitSeparators, List.splitOnP_cons_eq_if_modifyHead, ih]
    split
    · rfl
    · cases parts : s.splitOnP isSeparator with
      | nil => exact absurd parts (List.splitOnP_ne_nil _ _)
      | cons part parts => rfl

theorem splitSeparators_ne_nil (s : Text) : splitSeparators s ≠ [] := by
  rw [splitSeparators_eq]
  exact List.splitOnP_ne_nil _ _

/-- The parts are made of the characters in between. -/
theorem mem_of_mem_splitSeparators {s part : Text} (listed : part ∈ splitSeparators s) {c : Char}
    (inside : c ∈ part) : c ∈ s ∧ isSeparator c = false := by
  -- a separator begins a new part; any other character goes to the part that is first in the rest
  induction s generalizing part with
  | nil =>
    rw [splitSeparators, List.mem_singleton] at listed
    subst listed
    cases inside
  | cons a s ih =>
    rw [splitSeparators] at listed
    split at listed
    next =>
      rcases List.mem_cons.mp listed with rfl | behind
      · cases inside
      · exact (ih behind inside).imp_left (.tail a)
    next other =>
      split at listed
      next first rest parts =>
        rw [parts] at ih
        rcases List.mem_cons.mp listed with rfl | behind
        · rcases List.mem_cons.mp inside with rfl | later
          · exact ⟨List.mem_cons_self, Bool.eq_false_iff.mpr other⟩
          · exact (ih List.mem_cons_self later).imp_left (.tail a)
        · exact (ih (.tail _ behind) inside).imp_left (.tail a)
      next none => exact absurd none (splitSeparators_ne_nil s)

/-- Parts without a separator in them are what a text of theirs is split into. -/
theorem splitSeparators_intercalate {parts : List Text} (there : parts ≠ [])
    (whole : ∀ part ∈ parts, ∀ c ∈ part, isSeparator c = false) :
    splitSeparators (List.intercalate ['\\'] parts) = parts := by
  rw [splitSeparators_eq]
  induction parts with
  | nil => exact absurd rfl there
  | cons part parts ih =>
    have here := whole part List.mem_cons_self
    cases parts with
    | nil =>
      rw [List.intercalate_singleton]
      exact List.splitOnP_eq_singleton here
    | cons next parts =>
      have behind := ih (List.cons_ne_nil _ _) fun p listed => whole p (.tail _ listed)
      rw [List.intercalate_cons_cons, List.append_assoc, List.singleton_append,
        List.splitOnP_append_cons_of_forall_mem here '\\' rfl, behind]

/-! ### The passes of the parser -/

/-- The text without a separator in front. -/
def trimSeparator (s : Text) : Text :=
  match s with
  | c :: rest => if isSeparator c then rest else s
  | [] => s

/-- What the parser does with the parts of a text. -/
def SmbPath.parseParts (parts : List Text) : SmbResult SmbPath :=
  if parts.dropLast.any (·.contains ':') then .error .nameInvalid
  else do
    let (lastName, stream) ← splitStreamSelector (parts.getLastD [])
    let parents ← parseParents parts.dropLast
    if lastName.isEmpty then .error .nameInvalid
    else if lastName = ['.'] then
      if stream.isSome then .error .nameInvalid else return ⟨parents, none⟩
    else if lastName = ['.', '.'] then .error .nameInvalid
    else if isReservedDosName lastName then .error .nameInvalid
    else return ⟨parents ++ [lastName], stream⟩

theorem SmbPath.parseComponents_eq (s : Text) :
    parseComponents s =
      if (trimSeparator s).isEmpty then .ok root
      else if (trimSeparator s).any isForbiddenChar then .error .nameInvalid
      else parseParts (splitSeparators (trimSeparator s)) := rfl

/-- A name that the parser does not reject. -/
structure Acceptable (name : Text) : Prop where
  intro ::
  nonempty : name ≠ []
  notParent : name ≠ ['.', '.']
  free : isReservedDosName name = false

theorem acceptable_dot : Acceptable ['.'] := ⟨by decide, by decide, by decide⟩

theorem parseComponent_eq_ok_iff {part : Text} {here : Option Text} :
    parseComponent part = .ok here ↔
      Acceptable part ∧ here = if part = ['.'] then none else some part := by
  unfold parseComponent
  split
  next empty => simpa using fun h : Acceptable part => absurd (List.isEmpty_iff.mp empty) h.nonempty
  next there =>
    split
    next dot =>
      subst dot
      simp [acceptable_dot, eq_comm]
    next name =>
      split
      next up => simpa using fun h : Acceptable part => absurd up h.notParent
      next down =>
        split
        next reserved => simpa using fun h : Acceptable part => absurd reserved (by simp [h.free])
        next free =>
          have ok : Acceptable part := ⟨by simpa using there, down, Bool.eq_false_iff.mpr free⟩
          simp [ok, eq_comm]

theorem parseParents_eq_ok_iff {parts parents : List Text} :
    parseParents parts = .ok parents ↔
      (∀ part ∈ parts, Acceptable part) ∧ parents = parts.filter (· ≠ ['.']) := by
  induction parts generalizing parents with
  | nil => simp [parseParents, eq_comm]
  | cons part parts ih =>
    rw [parseParents, List.forall_mem_cons]
    cases first : parseComponent part with
    | error e =>
      have rejected : ¬Acceptable part := by
        intro ok
        rw [parseComponent_eq_ok_iff.mpr ⟨ok, rfl⟩] at first
        cases first
      simp [rejected, bind, Except.bind]
    | ok here =>
      obtain ⟨ok, rfl⟩ := parseComponent_eq_ok_iff.mp first
      cases later : parseParents parts with
      | error e =>
        have rejected : ¬∀ part ∈ parts, Acceptable part := by
          intro all
          rw [ih.mpr ⟨all, rfl⟩] at later
          cases later
        simp [rejected, bind, Except.bind]
      | ok behind =>
        obtain ⟨all, rfl⟩ := ih.mp later
        have accepted : Acceptable part ∧ ∀ part ∈ parts, Acceptable part := ⟨ok, all⟩
        rw [and_iff_right accepted]
        simp only [bind, Except.bind, pure, Except.pure, Except.ok.injEq]
        -- `.` is acceptable and leaves no component
        by_cases dot : part = ['.'] <;> simp [dot, eq_comm]

/-! ### Stream selectors -/

/-- The part of a text in front of its first colon. -/
def beforeColon (s : Text) : Text := s.takeWhile (· ≠ ':')

/-- The name of a stream, from characters of the text it was split off. -/
structure StreamOf (s stream : Text) : Prop where
  intro ::
  nonempty : stream ≠ []
  within : ∀ c ∈ stream, c ∈ s ∧ c ≠ ':'

theorem beforeColon_of_notMem {s : Text} (free : ':' ∉ s) : beforeColon s = s := by
  apply List.takeWhile_eq_self_iff.mpr
  intro c listed
  simpa using ne_of_mem_of_not_mem listed free

theorem beforeColon_append {before behind : Text} (free : ':' ∉ before) :
    beforeColon (before ++ ':' :: behind) = before := by
  rw [beforeColon, List.takeWhile_append_of_pos]
  · simp
  · intro c listed
    simpa using ne_of_mem_of_not_mem listed free

theorem splitStreamSelector_of_notMem {s : Text} (free : ':' ∉ s) :
    splitStreamSelector s = .ok (s, none) := by
  rw [splitStreamSelector, Text.splitOnce_eq_none.mpr free]

theorem splitStreamSelector_eq_ok {s name : Text} {stream : Option Text}
    (h : splitStreamSelector s = .ok (name, stream)) :
    name = beforeColon s ∧ ∀ t, stream = some t → StreamOf s t := by
  unfold splitStreamSelector at h
  split at h
  next missing =>
    cases h
    exact ⟨(beforeColon_of_notMem (Text.splitOnce_eq_none.mp missing)).symm, by rintro _ ⟨⟩⟩
  next before rest found =>
    obtain ⟨free, rfl⟩ := Text.splitOnce_eq_some.mp found
    rw [beforeColon_append free]
    -- a second colon ends the name of the stream; what follows is its type
    cases typed : rest.splitOnce ':' with
    | none =>
      have within := Text.splitOnce_eq_none.mp typed
      simp only [typed] at h
      split at h
      next =>
        cases h
        exact ⟨rfl, by rintro _ ⟨⟩⟩
      next there =>
        cases h
        refine ⟨rfl, ?_⟩
        rintro _ ⟨⟩
        refine ⟨by simpa using there, fun c listed => ⟨?_, ne_of_mem_of_not_mem listed within⟩⟩
        simp [listed]
    | some parts =>
      obtain ⟨stream', ty⟩ := parts
      obtain ⟨within, rfl⟩ := Text.splitOnce_eq_some.mp typed
      simp only [typed] at h
      split at h
      next => cases h
      next =>
        split at h
        next =>
          cases h
          exact ⟨rfl, by rintro _ ⟨⟩⟩
        next there =>
          cases h
          refine ⟨rfl, ?_⟩
          rintro _ ⟨⟩
          refine ⟨by simpa using there, fun c listed => ⟨?_, ne_of_mem_of_not_mem listed within⟩⟩
          simp [listed]

/-! ### Accepted texts -/

namespace SmbPath

/-- What the parser makes of the parts: the names but `.`, and the stream of the last. -/
theorem parseParts_eq_ok_iff {parts : List Text} {p : SmbPath} :
    parseParts parts = .ok p ↔
      (∀ part ∈ parts.dropLast, ':' ∉ part ∧ Acceptable part) ∧
      ∃ name stream, splitStreamSelector (parts.getLastD []) = .ok (name, stream) ∧
        Acceptable name ∧ (name = ['.'] → stream = none) ∧
        p = ⟨(parts.dropLast ++ [name]).filter (· ≠ ['.']), stream⟩ := by
  have colons : parts.dropLast.any (·.contains ':') = true ↔
      ¬∀ part ∈ parts.dropLast, ':' ∉ part := by
    simp
  constructor
  · intro h
    unfold parseParts at h
    split at h
    next => cases h
    next free =>
      rw [colons, not_not] at free
      -- the selector is split off before the parents are looked at
      cases selector : splitStreamSelector (parts.getLastD []) with
      | error e =>
        rw [selector] at h
        cases h
      | ok last =>
        obtain ⟨name, stream⟩ := last
        cases front : parseParents parts.dropLast with
        | error e =>
          rw [selector, front] at h
          cases h
        | ok parents =>
          obtain ⟨ok, rfl⟩ := parseParents_eq_ok_iff.mp front
          rw [selector, front] at h
          simp only [bind, Except.bind, pure, Except.pure] at h
          refine ⟨fun part listed => ⟨free part listed, ok part listed⟩, name, stream, rfl, ?_⟩
          rw [List.filter_append]
          split at h
          next => cases h
          next there =>
            split at h
            next dot =>
              subst dot
              split at h
              next => cases h
              next plain =>
                cases h
                have none : stream = none := by simpa using plain
                exact ⟨acceptable_dot, fun _ => none, by simp [none]⟩
            next name' =>
              split at h
              next => cases h
              next down =>
                split at h
                next => cases h
                next unreserved =>
                  cases h
                  refine ⟨⟨by simpa using there, down, Bool.eq_false_iff.mpr unreserved⟩, ?_, ?_⟩
                  · exact fun dot => absurd dot name'
                  · simp [name']
  · rintro ⟨front, name, stream, selector, ok, plain, rfl⟩
    have free : ¬parts.dropLast.any (·.contains ':') = true := by
      rw [colons, not_not]
      exact fun part listed => (front part listed).1
    have parents := parseParents_eq_ok_iff.mpr ⟨fun part listed => (front part listed).2, rfl⟩
    unfold parseParts
    rw [if_neg free, selector, parents, List.filter_append]
    have there : name.isEmpty = false := by simpa using ok.nonempty
    simp only [bind, Except.bind, pure, Except.pure, there, Bool.false_eq_true, if_false]
    by_cases dot : name = ['.']
    · simp [dot, plain dot]
    · simp [dot, ok.notParent, ok.free]

theorem getLastD_mem {parts : List Text} (there : parts ≠ []) : parts.getLastD [] ∈ parts := by
  rw [List.getLastD_eq_getLast?, List.getLast?_eq_some_getLast there]
  exact List.getLast_mem there

theorem dropLast_append_getLastD {parts : List Text} (there : parts ≠ []) :
    parts.dropLast ++ [parts.getLastD []] = parts := by
  rw [List.getLastD_eq_getLast?, List.getLast?_eq_some_getLast there]
  exact List.dropLast_append_getLast there

/-! ### Well-formed paths -/

end SmbPath

/-- A character of a name. -/
structure PlainChar (c : Char) : Prop where
  intro ::
  whole : isSeparator c = false
  noColon : c ≠ ':'
  allowed : isForbiddenChar c = false

/-- A component of a path. -/
structure PlainName (name : Text) : Prop where
  intro ::
  ok : Acceptable name
  notCur : name ≠ ['.']
  plain : ∀ c ∈ name, PlainChar c

namespace SmbPath

/-- What every path keeps to. -/
structure WellFormed (p : SmbPath) : Prop where
  intro ::
  names : ∀ c ∈ p.components, PlainName c
  hosted : ∀ t, p.stream = some t → p.components ≠ [] ∧ t ≠ [] ∧ ∀ c ∈ t, PlainChar c

theorem wellFormed_root : WellFormed root := ⟨by simp [root], by rintro _ ⟨⟩⟩

/-- Parts without separators and forbidden characters make a path. -/
theorem parseParts_wellFormed {parts : List Text} {p : SmbPath} (there : parts ≠ [])
    (plain : ∀ part ∈ parts, ∀ c ∈ part, isSeparator c = false ∧ isForbiddenChar c = false)
    (h : parseParts parts = .ok p) : p.WellFormed := by
  obtain ⟨front, name, stream, selector, ok, dot, rfl⟩ := parseParts_eq_ok_iff.mp h
  obtain ⟨rfl, streamed⟩ := splitStreamSelector_eq_ok selector
  have last := plain _ (getLastD_mem there)
  constructor
  · intro c listed
    obtain ⟨listed, notCur⟩ := List.mem_filter.mp listed
    have notCur : c ≠ ['.'] := by simpa using notCur
    -- a component is one of the parents, or what stands in front of the colon
    rcases List.mem_append.mp listed with inner | final
    · obtain ⟨free, accepted⟩ := front c inner
      refine ⟨accepted, notCur, fun ch inside => ?_⟩
      obtain ⟨whole, allowed⟩ := plain c (List.dropLast_subset _ inner) ch inside
      exact ⟨whole, ne_of_mem_of_not_mem inside free, allowed⟩
    · obtain rfl := List.mem_singleton.mp final
      refine ⟨ok, notCur, fun ch inside => ?_⟩
      have noColon : ch ≠ ':' := by simpa using List.mem_takeWhile_imp inside
      obtain ⟨whole, allowed⟩ := last ch ((List.takeWhile_sublist _).mem inside)
      exact ⟨whole, noColon, allowed⟩
  · rintro t rfl
    obtain ⟨nonempty, within⟩ := streamed t rfl
    refine ⟨?_, nonempty, fun ch inside => ?_⟩
    -- `.` has no stream, so a name with one is a component
    · have notCur : beforeColon (parts.getLastD []) ≠ ['.'] := by
        intro same
        cases dot same
      have listed : beforeColon (parts.getLastD []) ∈
          (parts.dropLast ++ [beforeColon (parts.getLastD [])]).filter (· ≠ ['.']) :=
        List.mem_filter.mpr ⟨by simp, by simpa using notCur⟩
      exact List.ne_nil_of_mem listed
    · obtain ⟨inside, noColon⟩ := within ch inside
      obtain ⟨whole, allowed⟩ := last ch inside
      exact ⟨whole, noColon, allowed⟩

theorem parseComponents_wellFormed {s : Text} {p : SmbPath} (h : parseComponents s = .ok p) :
    p.WellFormed := by
  rw [parseComponents_eq] at h
  split at h
  next =>
    cases h
    exact wellFormed_root
  next =>
    split at h
    next => cases h
    next allowed =>
      apply parseParts_wellFormed (splitSeparators_ne_nil _) _ h
      intro part listed c inside
      obtain ⟨within, whole⟩ := mem_of_mem_splitSeparators listed inside
      refine ⟨whole, Bool.eq_false_iff.mpr fun forbidden => allowed ?_⟩
      exact List.any_eq_true.mpr ⟨c, within, forbidden⟩

theorem fromUtf16_eq_ok {units : List UInt16} {p : SmbPath} (h : fromUtf16 units = .ok p) :
    ∃ s, SmbServer.fromUtf16 units = some s ∧ parseComponents s = .ok p := by
  unfold fromUtf16 at h
  split at h
  next s decoded => exact ⟨s, decoded, h⟩
  next => cases h

/-- How a path comes about. -/
inductive Obtained : SmbPath → Prop where
  | root : Obtained root
  | fromUtf16 {units : List UInt16} {p : SmbPath} (h : fromUtf16 units = .ok p) : Obtained p
  | fromStr {s : Text} {p : SmbPath} (h : fromStr s = .ok p) : Obtained p
  | parent {p q : SmbPath} (known : Obtained p) (h : p.parent = some q) : Obtained q
  | join {p q : SmbPath} {last : Text} (known : Obtained p) (h : p.join last = .ok q) : Obtained q

theorem join_eq_ok {p q : SmbPath} {last : Text} (h : p.join last = .ok q) :
    ∃ extra, fromStr last = .ok extra ∧ q = ⟨p.components ++ extra.components, extra.stream⟩ := by
  unfold join at h
  cases parsed : fromStr last with
  | error e =>
    rw [parsed] at h
    cases h
  | ok extra =>
    rw [parsed] at h
    cases h
    exact ⟨extra, rfl, rfl⟩

theorem Obtained.wellFormed {p : SmbPath} (h : Obtained p) : p.WellFormed := by
  -- on how the path has come about
  induction h with
  | root => exact wellFormed_root
  | fromUtf16 h =>
    obtain ⟨s, -, parsed⟩ := fromUtf16_eq_ok h
    exact parseComponents_wellFormed parsed
  | fromStr h => exact parseComponents_wellFormed h
  | @parent p q known h ih =>
    unfold SmbPath.parent at h
    split at h
    next => cases h
    next =>
      cases h
      exact ⟨fun c listed => ih.names c (List.dropLast_subset _ listed), by rintro _ ⟨⟩⟩
  | @join p q last known h ih =>
    obtain ⟨extra, parsed, rfl⟩ := join_eq_ok h
    have added := parseComponents_wellFormed parsed
    constructor
    · intro c listed
      rcases List.mem_append.mp listed with old | new
      · exact ih.names c old
      · exact added.names c new
    · intro t selected
      obtain ⟨there, stream⟩ := added.hosted t selected
      exact ⟨by simp [there], stream⟩

end SmbPath

end SmbServer
