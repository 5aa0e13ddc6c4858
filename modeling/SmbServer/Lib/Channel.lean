import Mathlib.Data.List.Basic

/-!
# SmbServer.Lib.Channel

A bounded channel between a sender and a receiver. Values arrive in the order in which they are
sent. A send waits for room and fails when the receiver is gone; a receive waits for a value and
fails when the channel is empty and the sender is gone.
-/

namespace Lib

variable {α : Type} {capacity : Nat}

/-- The values under way, and which ends are still held. What is under way when the receiver goes
is dropped. -/
structure Channel (α : Type) (capacity : Nat) where
  queue : List α
  bounded : queue.length ≤ capacity
  sender : Bool
  receiver : Bool
  dropped : receiver = false → queue = []

namespace Channel

inductive SendResult (α : Type) (capacity : Nat) where
  | sent (channel : Channel α capacity)
  | full
  | closed

inductive RecvResult (α : Type) (capacity : Nat) where
  | received (value : α) (channel : Channel α capacity)
  | empty
  | closed

def new : Channel α capacity where
  queue := []
  bounded := Nat.zero_le capacity
  sender := true
  receiver := true
  dropped _ := rfl

def send (c : Channel α capacity) (value : α) : SendResult α capacity :=
  if held : c.receiver = true then
    if room : c.queue.length < capacity then
      .sent
        { queue := c.queue ++ [value]
          bounded := by rw [List.length_append]; exact room
          sender := c.sender
          receiver := c.receiver
          dropped := fun gone => absurd (held.symm.trans gone) Bool.noConfusion }
    else .full
  else .closed

def recv (c : Channel α capacity) : RecvResult α capacity :=
  match under : c.queue with
  | value :: rest =>
    .received value
      { queue := rest
        bounded := Nat.le_of_succ_le (by simpa [under] using c.bounded)
        sender := c.sender
        receiver := c.receiver
        dropped := fun gone => absurd (under.symm.trans (c.dropped gone)) (List.cons_ne_nil _ _) }
  | [] => if c.sender then .empty else .closed

def dropSender (c : Channel α capacity) : Channel α capacity := { c with sender := false }

def dropReceiver (c : Channel α capacity) : Channel α capacity where
  queue := []
  bounded := Nat.zero_le capacity
  sender := c.sender
  receiver := false
  dropped _ := rfl

/-! ### What a channel keeps -/

@[simp] theorem new_queue : (new : Channel α capacity).queue = [] := rfl

@[simp] theorem dropSender_queue (c : Channel α capacity) : c.dropSender.queue = c.queue := rfl

@[simp] theorem dropSender_sender (c : Channel α capacity) : c.dropSender.sender = false := rfl

@[simp] theorem dropSender_receiver (c : Channel α capacity) :
    c.dropSender.receiver = c.receiver := rfl

@[simp] theorem dropReceiver_queue (c : Channel α capacity) : c.dropReceiver.queue = [] := rfl

@[simp] theorem dropReceiver_sender (c : Channel α capacity) :
    c.dropReceiver.sender = c.sender := rfl

@[simp] theorem dropReceiver_receiver (c : Channel α capacity) :
    c.dropReceiver.receiver = false := rfl

/-- A value that is sent is behind all others. -/
theorem send_eq_sent {c c' : Channel α capacity} {value : α} (sends : c.send value = .sent c') :
    c'.queue = c.queue ++ [value] ∧ c'.sender = c.sender ∧ c'.receiver = c.receiver := by
  unfold send at sends
  split at sends
  · split at sends
    · cases sends
      exact ⟨rfl, rfl, rfl⟩
    · cases sends
  · cases sends

theorem send_eq_closed_iff {c : Channel α capacity} {value : α} :
    c.send value = .closed ↔ c.receiver = false := by
  unfold send
  constructor
  · intro closed
    split at closed
    · split at closed <;> cases closed
    next gone => exact Bool.eq_false_iff.mpr gone
  · intro gone
    rw [dif_neg (by simp [gone])]

/-- The value that is received is the one in front. -/
theorem recv_eq_received {c c' : Channel α capacity} {value : α}
    (receives : c.recv = .received value c') :
    c.queue = value :: c'.queue ∧ c'.sender = c.sender ∧ c'.receiver = c.receiver := by
  unfold recv at receives
  split at receives
  next under =>
    cases receives
    exact ⟨under, rfl, rfl⟩
  · split at receives <;> cases receives

theorem recv_eq_closed {c : Channel α capacity} (closed : c.recv = .closed) :
    c.queue = [] ∧ c.sender = false := by
  unfold recv at closed
  split at closed
  · cases closed
  next under =>
    split at closed
    · cases closed
    next gone => exact ⟨under, Bool.eq_false_iff.mpr gone⟩

theorem recv_eq_empty {c : Channel α capacity} (empty : c.recv = .empty) :
    c.queue = [] ∧ c.sender = true := by
  unfold recv at empty
  split at empty
  · cases empty
  next under =>
    split at empty
    next held => exact ⟨under, held⟩
    · cases empty

/-- A channel that holds anything at all is never full and empty at once, so the two ends do not
wait for each other. -/
theorem recv_of_full {c : Channel α capacity} {value : α} (some : 0 < capacity)
    (full : c.send value = .full) : ∃ front c', c.recv = .received front c' := by
  have filled : capacity ≤ c.queue.length := by
    unfold send at full
    split at full
    · split at full
      · cases full
      next crowded => exact Nat.le_of_not_lt crowded
    · cases full
  cases result : c.recv with
  | received front c' => exact ⟨front, c', rfl⟩
  | empty =>
    rw [(recv_eq_empty result).1, List.length_nil] at filled
    omega
  | closed =>
    rw [(recv_eq_closed result).1, List.length_nil] at filled
    omega

end Channel

end Lib
