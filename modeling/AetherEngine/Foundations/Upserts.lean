import AetherEngine.Foundations.Tables

/-!
# Tables filled by upserts

Items written in turn under their own keys: for each key the last item written
stays.
-/

namespace AetherEngine.Upserts

open AetherEngine.Tables

universe u v

variable {κ : Type u} {α : Type v} [Ord κ] [Std.TransOrd κ]
  [Std.LawfulEqOrd κ] [DecidableEq κ]

omit [Std.LawfulEqOrd κ] [DecidableEq κ] in
/-- Write items in turn, each under its key. -/
def upsertAll (keyOf : α → κ) (items : List α) (table : Std.ExtTreeMap κ α) :
    Std.ExtTreeMap κ α :=
  items.foldl (fun table item => table.insert (keyOf item) item) table

variable (keyOf : α → κ)

/-- The last item written under a key. -/
def lastWritten (items : List α) (key : κ) : Option α :=
  items.reverse.find? (fun item => keyOf item = key)

omit [Std.LawfulEqOrd κ] [DecidableEq κ] in
@[simp]
theorem upsertAll_nil (table : Std.ExtTreeMap κ α) :
    upsertAll keyOf [] table = table :=
  rfl

omit [Std.LawfulEqOrd κ] [DecidableEq κ] in
@[simp]
theorem upsertAll_append (first second : List α)
    (table : Std.ExtTreeMap κ α) :
    upsertAll keyOf (first ++ second) table =
      upsertAll keyOf second (upsertAll keyOf first table) := by
  simp [upsertAll]

omit [Ord κ] [Std.TransOrd κ] [Std.LawfulEqOrd κ] in
theorem lastWritten_append (first second : List α) (key : κ) :
    lastWritten keyOf (first ++ second) key =
      (lastWritten keyOf second key).or (lastWritten keyOf first key) := by
  simp [lastWritten, List.find?_append]

omit [Ord κ] [Std.TransOrd κ] [Std.LawfulEqOrd κ] in
theorem lastWritten_filter (wanted : κ → Bool) (items : List α) (key : κ) :
    lastWritten keyOf (items.filter (fun item => wanted (keyOf item))) key =
      if wanted key = true then lastWritten keyOf items key else none := by
  unfold lastWritten
  rw [← List.filter_reverse, List.find?_filter]
  by_cases chosen : wanted key = true
  · rw [if_pos chosen]
    congr 1
    funext item
    by_cases same : keyOf item = key
    · simp [same, chosen]
    · simp [same]
  · rw [if_neg chosen, List.find?_eq_none]
    intro item _ both
    rw [decide_eq_true_eq, decide_eq_true_eq] at both
    exact chosen (both.2 ▸ both.1)

theorem getElem?_upsertAll (items : List α) (table : Std.ExtTreeMap κ α)
    (key : κ) :
    (upsertAll keyOf items table)[key]? =
      (lastWritten keyOf items key).or table[key]? := by
  induction items using List.reverseRecOn with
  | nil =>
      rfl
  | append_singleton earlier last inductionHypothesis =>
      rw [upsertAll_append, lastWritten_append]
      by_cases same : keyOf last = key
      · simp [upsertAll, lastWritten, same]
      · simp only [upsertAll, List.foldl_cons, List.foldl_nil, getElem?_insert,
          if_neg same]
        rw [← upsertAll, inductionHypothesis]
        simp [lastWritten, same]

/-- Writing the same items once more changes nothing. -/
theorem upsertAll_idem (items : List α) (table : Std.ExtTreeMap κ α) :
    upsertAll keyOf items (upsertAll keyOf items table) =
      upsertAll keyOf items table := by
  apply Std.ExtTreeMap.ext_getElem?
  intro key
  rw [getElem?_upsertAll, getElem?_upsertAll, ← Option.or_assoc,
    Option.or_self]

end AetherEngine.Upserts
