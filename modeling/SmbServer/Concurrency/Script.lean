import SmbServer.Concurrency.Live
import Mathlib.Data.Fintype.Basic

/-!
# SmbServer.Concurrency.Script

Runs that are given by the list of their actions, for the concrete runs behind the general results.
-/

namespace SmbServer

open Lib

/-- The call has returned `Ok`. -/
def ConfigCall.succeeded : ConfigCall → Bool
  | .returned (.ok ()) => true
  | _ => false

theorem ConfigCall.eq_returned {call : ConfigCall} (h : call.succeeded = true) :
    call = .returned (.ok ()) := by
  unfold succeeded at h
  split at h
  · rfl
  · cases h

/-- The request has been answered. -/
def Request.answered : Request → Bool
  | .done => true
  | _ => false

theorem Request.not_holds_of_answered {r : Request} (answered : r.answered = true) (tref : Nat) :
    ¬r.Holds tref := by
  cases r with
  | done => exact id
  | _ => cases answered

namespace LiveState

variable {ι κ : Type} [DecidableEq ι] [DecidableEq κ] [Fintype κ]

/-- Whether an action can be taken. -/
def enabled (s : LiveState ι κ) : LiveAction ι κ → Bool
  | .accept cid => (s.conns.lookup cid).isNone
  | .request i request =>
    match request, s.requests i with
    | .setup .., .idle | .treeConnect .., .idle | .create .., .idle => true
    | _, _ => false
  | .advance _ => true
  | .refuse i => (s.requests i).refused.isSome
  | .call k _ =>
    match s.calls k with
    | .idle => true
    | _ => false
  | .config k =>
    (s.work k).isEmpty &&
      (!(s.calls k).writesUsers || decide (∀ j, (s.calls j).readsUsers = false))
  | .sweep k =>
    match s.calls k, s.work k with
    | .sweeps _, _ :: _ => true
    | _, _ => false

variable (σ : Type) {η : Type} [Host σ η] [Crypto]

/-- The state behind an action; a sweep visits what it finds in the order of the tables. -/
def act (s : LiveState ι κ) : LiveAction ι κ → LiveState ι κ
  | .accept cid => { s with conns := s.conns.insert cid Table.empty }
  | .request i request => { s with requests := Function.update s.requests i request }
  | .advance i =>
    { (s.advance σ (s.requests i)).1 with
      requests := Function.update s.requests i (s.advance σ (s.requests i)).2 }
  | .refuse i =>
    { s with requests := Function.update s.requests i ((s.requests i).refused.getD .done) }
  | .call k op => { s with calls := Function.update s.calls k (.called op) }
  | .config k => s.configure k ((s.calls k).step s.server).1 ((s.calls k).step s.server).2
  | .sweep k =>
    match s.calls k, s.work k with
    | .sweeps sweep, task :: rest =>
      { (s.perform k sweep task).1 with
        work := Function.update s.work k ((s.perform k sweep task).2 ++ rest) }
    | _, _ => s

theorem act_step (s : LiveState ι κ) (a : LiveAction ι κ) (enabled : s.enabled a = true) :
    LiveStep σ s a (s.act σ a) := by
  -- each test of `enabled` is the premise of one constructor
  cases a with
  | accept cid => exact .accept s cid (Option.isNone_iff_eq_none.mp enabled)
  | request i request =>
    have both : request.Arrives ∧ s.requests i = .idle := by
      simp only [LiveState.enabled] at enabled
      split at enabled
      next here => exact ⟨trivial, here⟩
      next here => exact ⟨trivial, here⟩
      next here => exact ⟨trivial, here⟩
      next => cases enabled
    exact .request s i request both.1 both.2
  | advance i => exact .advance s i
  | refuse i =>
    obtain ⟨next, refused⟩ := Option.isSome_iff_exists.mp enabled
    have step : LiveStep σ s (.refuse i) _ := .refuse s i next refused
    simpa only [act, refused, Option.getD_some] using step
  | call k op =>
    have here : s.calls k = .idle := by
      simp only [LiveState.enabled] at enabled
      split at enabled
      next here => exact here
      next => cases enabled
    exact .call s k op here
  | config k =>
    simp only [LiveState.enabled, Bool.and_eq_true, List.isEmpty_iff, Bool.or_eq_true,
      Bool.not_eq_true', decide_eq_true_eq] at enabled
    obtain ⟨worked, unguarded | free⟩ := enabled
    · exact .config s k worked fun writes => by rw [unguarded] at writes; cases writes
    · exact .config s k worked fun _ => free
  | sweep k =>
    simp only [LiveState.enabled] at enabled
    split at enabled
    next sweep task rest sweeps next =>
      -- a script takes the tasks in the order in which they were found
      have step : LiveStep σ s (.sweep k) _ :=
        .sweep s k sweep task rest _ sweeps next (List.Perm.refl _)
      simpa only [act, sweeps, next] using step
    next => cases enabled

/-- The state behind a script. -/
def script (s : LiveState ι κ) (actions : List (LiveAction ι κ)) : LiveState ι κ :=
  actions.foldl (fun s a => s.act σ a) s

/-- Every action of the script can be taken and meets `ok`. -/
def Plays (ok : LiveState ι κ → LiveAction ι κ → Prop) (s : LiveState ι κ) :
    List (LiveAction ι κ) → Prop
  | [] => True
  | a :: rest => (s.enabled a = true ∧ ok s a) ∧ Plays ok (s.act σ a) rest

theorem script_reaches {ok : LiveState ι κ → LiveAction ι κ → Prop} (s : LiveState ι κ)
    (actions : List (LiveAction ι κ)) (plays : s.Plays σ ok actions) :
    Reaches (LiveStep σ) ok s (s.script σ actions) := by
  induction actions generalizing s with
  | nil => exact Reaches.refl s
  | cons a rest ih =>
    obtain ⟨⟨enabled, meets⟩, behind⟩ := plays
    have first : Reaches (LiveStep σ) ok s (s.act σ a) :=
      (Reaches.refl s).tail meets (s.act_step σ a enabled)
    exact first.trans (ih (s.act σ a) behind)

/-- Every action can be taken and passes a check. -/
def meets (check : LiveState ι κ → LiveAction ι κ → Bool) (s : LiveState ι κ) :
    List (LiveAction ι κ) → Bool
  | [] => true
  | a :: rest => (s.enabled a && check s a) && meets check (s.act σ a) rest

theorem plays_of_meets {ok : LiveState ι κ → LiveAction ι κ → Prop}
    (check : LiveState ι κ → LiveAction ι κ → Bool) (sound : ∀ s a, check s a = true → ok s a)
    (s : LiveState ι κ) (actions : List (LiveAction ι κ))
    (met : s.meets σ check actions = true) : s.Plays σ ok actions := by
  induction actions generalizing s with
  | nil => trivial
  | cons a rest ih =>
    obtain ⟨first, behind⟩ := Bool.and_eq_true_iff.mp met
    obtain ⟨enabled, checked⟩ := Bool.and_eq_true_iff.mp first
    exact ⟨⟨enabled, sound s a checked⟩, ih (s.act σ a) behind⟩

/-- Without a condition it is enough that the actions can be taken. -/
def plays (s : LiveState ι κ) : List (LiveAction ι κ) → Bool
  | [] => true
  | a :: rest => s.enabled a && plays (s.act σ a) rest

theorem script_reachable (s : LiveState ι κ) (actions : List (LiveAction ι κ))
    (played : s.plays σ actions = true) :
    Reachable (LiveStep σ) s (s.script σ actions) := by
  apply script_reaches
  induction actions generalizing s with
  | nil => trivial
  | cons a rest ih =>
    obtain ⟨enabled, behind⟩ := Bool.and_eq_true_iff.mp played
    exact ⟨⟨enabled, trivial⟩, ih (s.act σ a) behind⟩

end LiveState

end SmbServer
