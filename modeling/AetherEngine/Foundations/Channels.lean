import Mathlib.Data.List.Basic

/-!
# Bounded channels

A first-in first-out channel that never holds more than its capacity.  A send
into a full channel and a receive from an empty one are not enabled.
-/

namespace AetherEngine.Channels

universe u

structure Channel (capacity : Nat) (message : Type u) where
  waiting : List message
  bounded : waiting.length ≤ capacity

variable {capacity : Nat} {message : Type u}

namespace Channel

def empty : Channel capacity message where
  waiting := []
  bounded := Nat.zero_le capacity

def send (channel : Channel capacity message) (last : message) :
    Option (Channel capacity message) :=
  if room : channel.waiting.length < capacity then
    some
      { waiting := channel.waiting ++ [last]
        bounded := by
          rw [List.length_append, List.length_singleton]
          omega }
  else
    none

def receive (channel : Channel capacity message) :
    Option (message × Channel capacity message) :=
  match channel with
  | ⟨[], _⟩ => none
  | ⟨next :: rest, bounded⟩ =>
      some (next, ⟨rest, Nat.le_of_succ_le bounded⟩)

@[simp]
theorem waiting_empty :
    (empty : Channel capacity message).waiting = [] :=
  rfl

theorem waiting_send {channel after : Channel capacity message}
    {last : message} (sent : channel.send last = some after) :
    after.waiting = channel.waiting ++ [last] := by
  unfold send at sent
  split at sent
  · rw [← Option.some.inj sent]
  · cases sent

/-- A send waits exactly while the channel is full. -/
theorem send_eq_none_iff {channel : Channel capacity message}
    {last : message} :
    channel.send last = none ↔ channel.waiting.length = capacity := by
  have bounded := channel.bounded
  unfold send
  split
  · simp
    omega
  · simp
    omega

theorem waiting_receive {channel after : Channel capacity message}
    {next : message} (received : channel.receive = some (next, after)) :
    channel.waiting = next :: after.waiting := by
  obtain ⟨waiting, bounded⟩ := channel
  cases waiting with
  | nil =>
      cases received
  | cons head rest =>
      cases received
      rfl

/-- A receive waits exactly while the channel is empty. -/
theorem receive_eq_none_iff {channel : Channel capacity message} :
    channel.receive = none ↔ channel.waiting = [] := by
  obtain ⟨waiting, bounded⟩ := channel
  cases waiting with
  | nil =>
      simp [receive]
  | cons head rest =>
      simp [receive]

end Channel

end AetherEngine.Channels
