import Mathlib.Data.List.Basic

/-!
# SmbServer.Lib.Run

Runs of a deterministic system: a state, a list of steps, and a function that executes one step.

`Always` says that a condition holds of every step of a run together with the state before it.
Two rules turn facts about one step into facts about a run: `Always.invariant` for what the steps
preserve, and `Always.log_iff` for a log that the steps only append to.
-/

namespace Lib

variable {σ α β γ : Type}

/-- The state after executing the steps one after another. -/
def runAll (exec : σ → α → σ) (s : σ) (steps : List α) : σ := steps.foldl exec s

@[simp] theorem runAll_nil (exec : σ → α → σ) (s : σ) : runAll exec s [] = s := rfl

@[simp] theorem runAll_cons (exec : σ → α → σ) (s : σ) (a : α) (steps : List α) :
    runAll exec s (a :: steps) = runAll exec (exec s a) steps := rfl

theorem runAll_append (exec : σ → α → σ) (s : σ) (before behind : List α) :
    runAll exec s (before ++ behind) = runAll exec (runAll exec s before) behind :=
  List.foldl_append

/-- What every step preserves, a run preserves. -/
theorem runAll_invariant {exec : σ → α → σ} (Inv : σ → Prop) (s : σ) (steps : List α)
    (init : Inv s) (preserved : ∀ s a, Inv s → Inv (exec s a)) : Inv (runAll exec s steps) := by
  induction steps generalizing s with
  | nil => exact init
  | cons a rest ih => exact ih (exec s a) (preserved s a init)

/-- `Q` holds of every step of the run from `s` and the state the step is executed in. -/
def Always (exec : σ → α → σ) (Q : σ → α → Prop) : σ → List α → Prop
  | _, [] => True
  | s, a :: steps => Q s a ∧ Always exec Q (exec s a) steps

namespace Always

variable {exec : σ → α → σ} {Q Q' : σ → α → Prop}

@[simp] theorem nil (s : σ) : Always exec Q s [] := trivial

@[simp] theorem cons (s : σ) (a : α) (steps : List α) :
    Always exec Q s (a :: steps) ↔ Q s a ∧ Always exec Q (exec s a) steps := Iff.rfl

theorem append (s : σ) (before behind : List α) :
    Always exec Q s (before ++ behind) ↔
      Always exec Q s before ∧ Always exec Q (runAll exec s before) behind := by
  induction before generalizing s with
  | nil => simp
  | cons a rest ih => simp [ih, and_assoc]

/-- The condition at every position of the run. -/
theorem iff_split (s : σ) (steps : List α) :
    Always exec Q s steps ↔
      ∀ before a behind, steps = before ++ a :: behind → Q (runAll exec s before) a := by
  constructor
  · rintro all before a behind rfl
    exact ((append s before (a :: behind)).mp all).2.1
  · intro each
    induction steps generalizing s with
    | nil => trivial
    | cons a rest ih =>
      refine ⟨each [] a rest rfl, ih (exec s a) ?_⟩
      intro before b behind split
      exact each (a :: before) b behind (by rw [split]; rfl)

theorem mono (s : σ) (steps : List α) (all : Always exec Q s steps)
    (weaker : ∀ s a, Q s a → Q' s a) : Always exec Q' s steps := by
  induction steps generalizing s with
  | nil => trivial
  | cons a rest ih => exact ⟨weaker s a all.1, ih (exec s a) all.2⟩

/-- What every step preserves holds at the end. -/
theorem invariant (Inv : σ → Prop) (preserved : ∀ s a, Inv s → Q s a → Inv (exec s a))
    (s : σ) (steps : List α) (init : Inv s) (all : Always exec Q s steps) :
    Inv (runAll exec s steps) := by
  induction steps generalizing s with
  | nil => exact init
  | cons a rest ih => exact ih (exec s a) (preserved s a init all.1) all.2

/-- What follows from a preserved invariant holds of every step. -/
theorem of_preserved (Inv : σ → Prop) (preserved : ∀ s a, Inv s → Inv (exec s a))
    (here : ∀ s a, Inv s → Q s a) (s : σ) (steps : List α) (init : Inv s) :
    Always exec Q s steps := by
  induction steps generalizing s with
  | nil => trivial
  | cons a rest ih => exact ⟨here s a init, ih (exec s a) (preserved s a init)⟩

/-- What follows from a condition and an invariant that it preserves. -/
theorem imp (Inv : σ → Prop) (preserved : ∀ s a, Inv s → Q s a → Inv (exec s a))
    (here : ∀ s a, Inv s → Q s a → Q' s a) (s : σ) (steps : List α) (init : Inv s)
    (all : Always exec Q s steps) : Always exec Q' s steps := by
  induction steps generalizing s with
  | nil => trivial
  | cons a rest ih =>
    exact ⟨here s a init all.1, ih (exec s a) (preserved s a init all.1) all.2⟩

/-- A log that only grows satisfies `P` throughout if every step appends entries that do. -/
theorem log_iff {Inv : σ → Prop} {P : β → Prop} (log : σ → List β)
    (preserved : ∀ s a, Inv s → Inv (exec s a))
    (grows : ∀ s a, Inv s → ∃ new, log (exec s a) = log s ++ new ∧ ((∀ x ∈ new, P x) ↔ Q s a))
    (s : σ) (steps : List α) (init : Inv s) :
    (∀ x ∈ log (runAll exec s steps), P x) ↔ (∀ x ∈ log s, P x) ∧ Always exec Q s steps := by
  induction steps generalizing s with
  | nil => simp
  | cons a rest ih =>
    obtain ⟨new, grown, good⟩ := grows s a init
    have here : (∀ x ∈ log (exec s a), P x) ↔ (∀ x ∈ log s, P x) ∧ Q s a := by
      rw [grown, List.forall_mem_append, good]
    rw [runAll_cons, ih (exec s a) (preserved s a init), here, cons, and_assoc]

/-- Two conditions that an invariant makes the same, where the first preserves the invariant. -/
theorem congr (Inv : σ → Prop) (s : σ) (steps : List α) (init : Inv s)
    (same : ∀ s, ∀ a ∈ steps, Inv s → (Q s a ↔ Q' s a))
    (preserved : ∀ s, ∀ a ∈ steps, Inv s → Q s a → Inv (exec s a)) :
    Always exec Q s steps ↔ Always exec Q' s steps := by
  induction steps generalizing s with
  | nil => exact Iff.rfl
  | cons a rest ih =>
    have here := same s a List.mem_cons_self init
    rw [cons, cons, ← here]
    refine and_congr_right fun holds => ih (exec s a) ?_ ?_ ?_
    · exact preserved s a List.mem_cons_self init holds
    · exact fun s b member => same s b (List.mem_cons_of_mem a member)
    · exact fun s b member => preserved s b (List.mem_cons_of_mem a member)

end Always

/-! ### Observed runs -/

/-- Execute a step under the eyes of an observer, who sees the state it is executed in. -/
def watch (exec : σ → α → σ) (observe : γ → σ → α → γ) : σ × γ → α → σ × γ :=
  fun p a => (exec p.1 a, observe p.2 p.1 a)

/-- A condition on the run is one on the observed run. -/
theorem Always.watched {exec : σ → α → σ} {Q : σ → α → Prop} (observe : γ → σ → α → γ)
    (p : σ × γ) (steps : List α) (all : Always exec Q p.1 steps) :
    Always (watch exec observe) (fun p a => Q p.1 a) p steps := by
  induction steps generalizing p with
  | nil => trivial
  | cons a rest ih => exact ⟨all.1, ih (watch exec observe p a) all.2⟩

end Lib
