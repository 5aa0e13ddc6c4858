import SmbServer.Lib.Loop
import SmbServer.Properties.Wildcard

/-!
# SmbServer.Properties.WildcardSound

`dos_pattern_matches` stops, and finds no match that is none.

## Main result

`wildcard_sound`: the loop of the source stops after finitely many rounds with the answer of the
model, and a name that is found to match has the form that the pattern describes.

## Proof strategy

A round either uses up a part of the pattern or makes the star stand for one character more. What
is in front of the place that the star started from never comes back, so that it counts more than
all of the pattern. For soundness the loop's answer is read backwards: what has been found behind a
place was a match at the place, or one that the star can still make.
-/

namespace SmbServer

open Lib

/-! ### One round of the loop -/

/-- The variables of `dos_pattern_matches_inner`. -/
structure DosPatternState where
  patternIndex : Nat
  nameIndex : Nat
  star : Option (Nat × Nat)
  deriving DecidableEq

/-- One round of `while name_index < name.len()`; behind the loop only stars may be left. -/
def dosPatternRound (pattern name : Text) (s : DosPatternState) : DosPatternState ⊕ Bool :=
  match name[s.nameIndex]? with
  | none => .inr ((pattern.drop s.patternIndex).all (· == '*'))
  | some n =>
    match pattern[s.patternIndex]? with
    | some p =>
      if p == '?' || p.toLower == n.toLower then
        .inl { s with patternIndex := s.patternIndex + 1, nameIndex := s.nameIndex + 1 }
      else if p == '*' then
        .inl { s with
          patternIndex := s.patternIndex + 1
          star := some (s.patternIndex + 1, s.nameIndex) }
      else goBack s.star
    | none => goBack s.star
where
  /-- The star stands for one character more, if there is one. -/
  goBack : Option (Nat × Nat) → DosPatternState ⊕ Bool
    | some (afterStar, starNameIndex) =>
      .inl ⟨afterStar, starNameIndex + 1, some (afterStar, starNameIndex + 1)⟩
    | none => .inr false

/-- The indices stay within their texts, and the star was passed on the way. -/
structure WithinTexts (pattern name : Text) (s : DosPatternState) : Prop where
  patternIndex : s.patternIndex ≤ pattern.length
  nameIndex : s.nameIndex ≤ name.length
  star : ∀ afterStar starNameIndex, s.star = some (afterStar, starNameIndex) →
    afterStar ≤ pattern.length ∧ starNameIndex ≤ s.nameIndex

/-- What is in front of the loop: the name from where the star started, then the pattern. -/
def workLeft (pattern name : Text) (s : DosPatternState) : Nat :=
  (name.length - (s.star.map Prod.snd).getD s.nameIndex) * (pattern.length + 1) +
    (pattern.length - s.patternIndex)

namespace WithinTexts

variable {pattern name : Text} {s : DosPatternState}

/-- A part and a character are used up. -/
theorem advance (within : WithinTexts pattern name s) (part : s.patternIndex < pattern.length)
    (letter : s.nameIndex < name.length) :
    WithinTexts pattern name
      { s with patternIndex := s.patternIndex + 1, nameIndex := s.nameIndex + 1 } where
  patternIndex := part
  nameIndex := letter
  star := by
    intro afterStar starNameIndex same
    obtain ⟨inside, passed⟩ := within.star afterStar starNameIndex same
    exact ⟨inside, Nat.le_succ_of_le passed⟩

theorem passStar (within : WithinTexts pattern name s) (part : s.patternIndex < pattern.length) :
    WithinTexts pattern name { s with
      patternIndex := s.patternIndex + 1
      star := some (s.patternIndex + 1, s.nameIndex) } where
  patternIndex := part
  nameIndex := within.nameIndex
  star := by
    rintro _ _ ⟨⟩
    exact ⟨part, Nat.le_refl _⟩

theorem goBack {afterStar starNameIndex : Nat} (within : WithinTexts pattern name s)
    (letter : s.nameIndex < name.length) (same : s.star = some (afterStar, starNameIndex)) :
    WithinTexts pattern name ⟨afterStar, starNameIndex + 1, some (afterStar, starNameIndex + 1)⟩ := by
  obtain ⟨inside, passed⟩ := within.star afterStar starNameIndex same
  refine ⟨inside, Nat.succ_le_of_lt (Nat.lt_of_le_of_lt passed letter), ?_⟩
  rintro _ _ ⟨⟩
  exact ⟨inside, Nat.le_refl _⟩

end WithinTexts

/-- What a round does, in terms of the rest of the pattern and the rest of the name. -/
inductive RoundDoes (pattern name : Text) (s : DosPatternState) : DosPatternState ⊕ Bool → Prop where
  | ends (ended : name.drop s.nameIndex = []) :
      RoundDoes pattern name s (.inr ((pattern.drop s.patternIndex).all (· == '*')))
  | advance {p n : Char} {parts letters : Text} (part : pattern.drop s.patternIndex = p :: parts)
      (letter : name.drop s.nameIndex = n :: letters)
      (fits : (p == '?' || p.toLower == n.toLower) = true) :
      RoundDoes pattern name s
        (.inl { s with patternIndex := s.patternIndex + 1, nameIndex := s.nameIndex + 1 })
  | passStar {p n : Char} {parts letters : Text} (part : pattern.drop s.patternIndex = p :: parts)
      (letter : name.drop s.nameIndex = n :: letters)
      (misfits : (p == '?' || p.toLower == n.toLower) = false) (many : (p == '*') = true) :
      RoundDoes pattern name s (.inl { s with
        patternIndex := s.patternIndex + 1
        star := some (s.patternIndex + 1, s.nameIndex) })
  | goBack {n : Char} {letters : Text} (letter : name.drop s.nameIndex = n :: letters)
      (misfits : ∀ p parts, pattern.drop s.patternIndex = p :: parts →
        (p == '?' || p.toLower == n.toLower) = false ∧ (p == '*') = false) :
      RoundDoes pattern name s (dosPatternRound.goBack s.star)

theorem dosPatternRound_does (pattern name : Text) (s : DosPatternState) :
    RoundDoes pattern name s (dosPatternRound pattern name s) := by
  have rest (text : Text) (i : Nat) : text[i]? = (text.drop i).head? := List.head?_drop.symm
  unfold dosPatternRound
  rw [rest name, rest pattern]
  -- by what is left of the name, then by what is left of the pattern
  cases letter : name.drop s.nameIndex with
  | nil => exact .ends letter
  | cons n letters =>
    cases part : pattern.drop s.patternIndex with
    | nil =>
      apply RoundDoes.goBack letter
      intro p parts more
      rw [part] at more
      cases more
    | cons p parts =>
      simp only [List.head?_cons]
      split
      next fits => exact .advance part letter fits
      next misfits =>
        have misfits := Bool.eq_false_iff.mpr misfits
        split
        next many => exact .passStar part letter misfits many
        -- neither fits: back to the last star
        next single =>
          apply RoundDoes.goBack letter
          intro q parts' more
          rw [part] at more
          cases more
          exact ⟨misfits, Bool.eq_false_iff.mpr single⟩

theorem lt_length_of_drop {text rest : Text} {c : Char} {i : Nat} (more : text.drop i = c :: rest) :
    i < text.length := by
  apply Nat.lt_of_not_le
  intro behind
  rw [List.drop_eq_nil_of_le behind] at more
  cases more

theorem drop_succ_of_drop {text rest : Text} {c : Char} {i : Nat}
    (more : text.drop i = c :: rest) : text.drop (i + 1) = rest := by
  rw [← List.drop_drop, more]
  rfl

/-! ### Termination -/

theorem WithinTexts.round {pattern name : Text} {s next : DosPatternState}
    (within : WithinTexts pattern name s) (goesOn : dosPatternRound pattern name s = .inl next) :
    WithinTexts pattern name next ∧ workLeft pattern name next < workLeft pattern name s := by
  have does := dosPatternRound_does pattern name s
  rw [goesOn] at does
  obtain ⟨insidePattern, insideName, passed⟩ := id within
  generalize result : (Sum.inl next : DosPatternState ⊕ Bool) = round at does
  cases does with
  | ends => cases result
  | advance part letter =>
    cases result
    have part := lt_length_of_drop part
    have letter := lt_length_of_drop letter
    refine ⟨within.advance part letter, ?_⟩
    cases here : s.star with
    | none =>
      have one : name.length - s.nameIndex = name.length - (s.nameIndex + 1) + 1 := by omega
      simp only [workLeft, here, Option.map_none, Option.getD_none, one, Nat.succ_mul]
      omega
    | some star =>
      simp only [workLeft, here, Option.map_some, Option.getD_some]
      omega
  | passStar part letter =>
    cases result
    have part := lt_length_of_drop part
    refine ⟨within.passStar part, ?_⟩
    -- the new star starts no earlier than the one it takes the place of
    have later : (s.star.map Prod.snd).getD s.nameIndex ≤ s.nameIndex := by
      cases here : s.star with
      | none => exact Nat.le_refl _
      | some star => exact (passed star.1 star.2 here).2
    have cost : (name.length - s.nameIndex) * (pattern.length + 1) ≤
        (name.length - (s.star.map Prod.snd).getD s.nameIndex) * (pattern.length + 1) :=
      Nat.mul_le_mul_right _ (by omega)
    simp only [workLeft, Option.map_some, Option.getD_some]
    omega
  | goBack letter =>
    have letter := lt_length_of_drop letter
    cases here : s.star with
    | none =>
      rw [here] at result
      cases result
    | some star =>
      rw [here] at result
      cases result
      refine ⟨within.goBack letter here, ?_⟩
      have bound := (passed star.1 star.2 here).2
      have one : name.length - star.2 = name.length - (star.2 + 1) + 1 := by omega
      simp only [workLeft, here, Option.map_some, Option.getD_some, one, Nat.succ_mul]
      omega

/-! ### The rounds of the model -/

/-- No part fits: only a star can help. -/
theorem dosPatternLoop_goBack {n : Char} {parts letters : Text} (rounds : Nat)
    (star : Option (Text × Text))
    (misfits : ∀ p rest, parts = p :: rest →
      (p == '?' || p.toLower == n.toLower) = false ∧ (p == '*') = false) :
    dosPatternLoop (rounds + 1) parts (n :: letters) star =
      match star with
      | some (afterStar, _ :: starName) =>
        dosPatternLoop rounds afterStar starName (some (afterStar, starName))
      | _ => false := by
  cases parts with
  | nil => rfl
  | cons p rest =>
    obtain ⟨other, single⟩ := misfits p rest rfl
    rw [dosPatternLoop.eq_def]
    dsimp only
    rw [other, single]
    rfl

/-- The texts that the model keeps are what lies behind the indices of the source. -/
theorem dosPatternLoop_eq_run (pattern name : Text) (rounds : Nat) (s : DosPatternState)
    (within : WithinTexts pattern name s) :
    dosPatternLoop rounds (pattern.drop s.patternIndex) (name.drop s.nameIndex)
        (s.star.map (Prod.map pattern.drop name.drop)) =
      (Loop.run (dosPatternRound pattern name) rounds s).getD false := by
  induction rounds generalizing s with
  | zero => rfl
  | succ rounds ih =>
    have does := dosPatternRound_does pattern name s
    have keeps := fun next => @WithinTexts.round _ _ _ next within
    rw [Loop.run]
    generalize dosPatternRound pattern name s = round at does keeps
    cases does with
    | ends ended =>
      rw [ended]
      rfl
    | advance part letter fits =>
      simp only [part, letter, dosPatternLoop, fits, if_true]
      rw [← drop_succ_of_drop part, ← drop_succ_of_drop letter]
      exact ih _ (keeps _ rfl).1
    | passStar part letter misfits many =>
      simp only [part, letter, dosPatternLoop, misfits, many, if_true]
      rw [← drop_succ_of_drop part, ← letter]
      exact ih _ (keeps _ rfl).1
    | goBack letter misfits =>
      rw [letter, dosPatternLoop_goBack rounds _ misfits]
      cases here : s.star with
      | none => rfl
      | some star =>
        obtain ⟨afterStar, starNameIndex⟩ := star
        -- the star's own character is still there: it is no later than the name's
        have bound := (within.star afterStar starNameIndex here).2
        have inside : starNameIndex < name.length :=
          Nat.lt_of_le_of_lt bound (lt_length_of_drop letter)
        rw [Option.map_some, Prod.map_apply, List.drop_eq_getElem_cons inside]
        rw [here] at keeps
        exact ih _ (keeps _ rfl).1

/-- The loop of the source stops, with the answer of the model. -/
theorem dosPatternLoop_stops (pattern name : Text) :
    ∃ rounds, Loop.run (dosPatternRound pattern name) rounds ⟨0, 0, none⟩ =
      some (dosPatternMatchesInner pattern name) := by
  have start : WithinTexts pattern name ⟨0, 0, none⟩ := by
    refine ⟨Nat.zero_le _, Nat.zero_le _, ?_⟩
    rintro _ _ ⟨⟩
  have short : workLeft pattern name ⟨0, 0, none⟩ < dosPatternFuel pattern name := by
    have wider : name.length * (pattern.length + 1) ≤
        name.length * (pattern.length + name.length + 2) := Nat.mul_le_mul_left _ (by omega)
    simp only [workLeft, dosPatternFuel, Option.map_none, Option.getD_none, Nat.sub_zero]
    rw [Nat.succ_mul]
    omega
  obtain ⟨result, stopped⟩ := Loop.run_of_measure (WithinTexts pattern name) (workLeft pattern name)
    (fun s next within goesOn => (within.round goesOn).1)
    (fun s next within goesOn => (within.round goesOn).2) _ _ start short
  have same := dosPatternLoop_eq_run pattern name (dosPatternFuel pattern name) _ start
  rw [stopped] at same
  refine ⟨dosPatternFuel pattern name, ?_⟩
  rw [stopped, dosPatternMatchesInner]
  exact congrArg some same.symm

/-! ### Soundness -/

/-- A match that the loop reports is one at its place, or one that its star can still make. -/
theorem dosPatternLoop_sound (fuel : Nat) (pattern name : Text) (star : Option (Text × Text))
    (found : dosPatternLoop fuel pattern name star = true) :
    GlobMatches pattern name ∨ Resumable star := by
  -- on the rounds that are left
  induction fuel generalizing pattern name star with
  | zero => cases found
  | succ fuel ih =>
    cases name with
    | nil => exact .inl (GlobMatches.empty_iff.mpr found)
    | cons n name =>
      by_cases misfits : ∀ p rest, pattern = p :: rest →
          (p == '?' || p.toLower == n.toLower) = false ∧ (p == '*') = false
      · rw [dosPatternLoop_goBack fuel star misfits] at found
        cases star with
        | none => cases found
        | some back =>
          obtain ⟨afterStar, starName⟩ := back
          cases starName with
          | nil => cases found
          | cons c starName =>
            right
            rw [Resumable.some_iff]
            rcases ih afterStar starName _ found with matched | resumable
            · exact ⟨1, Nat.le_refl _, by simp, matched⟩
            · obtain ⟨k, more, bound, matched⟩ := Resumable.some_iff.mp resumable
              exact ⟨k + 1, by omega, Nat.succ_le_succ bound, matched⟩
      · cases pattern with
        | nil => exact absurd (fun p rest none_ => by cases none_) misfits
        | cons p pattern =>
          simp only [dosPatternLoop] at found
          split at found
          next fit =>
            have fits : p = '?' ∨ p.toLower = n.toLower := by simpa using fit
            refine (ih pattern name star found).imp_left fun matched => ?_
            by_cases single : p = '*'
            · -- a star of the pattern that was taken for a letter stands for this one
              subst single
              exact GlobMatches.star_iff.mpr ⟨1, by simp, matched⟩
            · exact (GlobMatches.cons_iff single).mpr ⟨fits, matched⟩
          next misfit =>
            split at found
            next many =>
              obtain rfl : p = '*' := by simpa using many
              left
              rw [GlobMatches.star_iff]
              rcases ih pattern (n :: name) _ found with matched | resumable
              · exact ⟨0, Nat.zero_le _, matched⟩
              · obtain ⟨k, -, bound, matched⟩ := Resumable.some_iff.mp resumable
                exact ⟨k, bound, matched⟩
            next single =>
              refine absurd ?_ misfits
              rintro q rest ⟨⟩
              exact ⟨Bool.eq_false_iff.mpr misfit, Bool.eq_false_iff.mpr single⟩

/-- The loop stops for every pattern and name, and what it finds is a match. -/
theorem wildcard_sound (pattern name : Text) :
    (∃ rounds, Loop.run (dosPatternRound pattern name) rounds ⟨0, 0, none⟩ =
      some (dosPatternMatchesInner pattern name)) ∧
      (dosPatternMatches pattern name = true →
        pattern = [] ∨ pattern = ['*'] ∨ pattern = ['*', '.', '*'] ∨
          GlobMatches pattern name) := by
  refine ⟨dosPatternLoop_stops pattern name, ?_⟩
  intro found
  simp only [dosPatternMatches, Bool.or_eq_true, List.isEmpty_iff, beq_iff_eq] at found
  rcases found with ((empty | star) | stars) | found
  · exact .inl empty
  · exact .inr (.inl star)
  · exact .inr (.inr (.inl stars))
  · rcases dosPatternLoop_sound _ pattern name none found with matched | ⟨_, _, _, none_, _⟩
    · exact .inr (.inr (.inr matched))
    · cases none_

end SmbServer
