import AetherEngine.Foundations.Runs
import Mathlib.Algebra.BigOperators.Group.Finset.Basic
import Mathlib.Algebra.Order.BigOperators.Group.Finset

/-!
# Calls on keyed state

A state is looked at under keys, and a call changes what is under its own key
alone.  Calls on distinct keys then do not disturb one another, and what is far
from its goal under any key can be added up.
-/

namespace AetherEngine.Keyed

open AetherEngine.Runs

universe u v w x

variable {state : Type u} {call : Type v} {key : Type w} {value : Type x}
variable [DecidableEq key]

/-- Each call turns the value under its own key into its effect on it. -/
def ActsByKey (perform : state → call → state) (keyOf : call → key)
    (look : state → key → value) (effect : call → value → value) : Prop :=
  ∀ current next other, look (perform current next) other =
    if other = keyOf next then effect next (look current other)
    else look current other

variable {perform : state → call → state} {keyOf : call → key}
variable {look : state → key → value} {effect : call → value → value}

/-- Calls on other keys leave a key's value alone. -/
theorem look_final_of_not_mem (acts : ActsByKey perform keyOf look effect)
    {calls : List call} {wanted : key} (foreign : wanted ∉ calls.map keyOf)
    (current : state) :
    look (final perform current calls) wanted = look current wanted := by
  induction calls generalizing current with
  | nil =>
      rfl
  | cons next rest inductionHypothesis =>
      rw [List.map_cons, List.mem_cons, not_or] at foreign
      rw [final_cons, inductionHypothesis foreign.2, acts, if_neg foreign.1]

/-- Among calls on distinct keys, each has its effect on the value its key had
at the start. -/
theorem look_final_of_mem (acts : ActsByKey perform keyOf look effect)
    {calls : List call} (distinct : (calls.map keyOf).Nodup) {chosen : call}
    (member : chosen ∈ calls) (current : state) :
    look (final perform current calls) (keyOf chosen) =
      effect chosen (look current (keyOf chosen)) := by
  induction calls generalizing current with
  | nil =>
      cases member
  | cons next rest inductionHypothesis =>
      rw [List.map_cons, List.nodup_cons] at distinct
      rw [final_cons]
      rcases List.mem_cons.mp member with rfl | later
      · rw [look_final_of_not_mem acts distinct.1, acts, if_pos rfl]
      · have different : keyOf chosen ≠ keyOf next := by
          intro same
          exact distinct.1 (same ▸ List.mem_map_of_mem later)
        rw [inductionHypothesis distinct.2 later, acts, if_neg different]

/-- How far the values under some keys are from where they should be. -/
def distance (look : state → key → value) (away : key → value → Nat)
    (keys : Finset key) (current : state) : Nat :=
  ∑ wanted ∈ keys, away wanted (look current wanted)

/-- A call that brings its key closer brings the state closer. -/
theorem distance_lt (acts : ActsByKey perform keyOf look effect)
    {away : key → value → Nat} {keys : Finset key} {current : state}
    {next : call} (inside : keyOf next ∈ keys)
    (closer : away (keyOf next) (effect next (look current (keyOf next))) <
      away (keyOf next) (look current (keyOf next))) :
    distance look away keys (perform current next) <
      distance look away keys current := by
  apply Finset.sum_lt_sum
  · intro other _
    rw [acts]
    split
    next same =>
      subst same
      exact closer.le
    · exact le_rfl
  · refine ⟨keyOf next, inside, ?_⟩
    rw [acts, if_pos rfl]
    exact closer

end AetherEngine.Keyed
