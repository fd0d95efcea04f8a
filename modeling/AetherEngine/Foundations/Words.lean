import Mathlib.Data.List.DropRight

/-!
# Words of a text

The words of a text are its longest stretches without a blank.  What is blank
is a parameter.  Trimming takes the blanks around a text away and leaves its
words alone.
-/

namespace AetherEngine.Words

universe u

variable {α : Type u} (blank : α → Bool)

/-- The text without the blanks around it. -/
def trim (text : List α) : List α :=
  (text.dropWhile blank).rdropWhile blank

/-- The stretches between blanks that are not empty. -/
def words (text : List α) : List (List α) :=
  (text.splitOnP blank).filter (fun word => !word.isEmpty)

variable {blank}

/-! ## Words and blanks -/

@[simp]
theorem words_nil : words blank ([] : List α) = [] :=
  rfl

theorem words_append_cons {separator : α} (isBlank : blank separator = true)
    (first rest : List α) :
    words blank (first ++ separator :: rest) =
      words blank first ++ words blank rest := by
  rw [words, List.splitOnP_append_cons first rest isBlank, List.filter_append,
    words, words]

private theorem words_cons_of_blank {separator : α}
    (isBlank : blank separator = true) (rest : List α) :
    words blank (separator :: rest) = words blank rest :=
  words_append_cons isBlank [] rest

private theorem words_of_solid {word : List α} (present : word ≠ [])
    (solid : ∀ character ∈ word, blank character = false) :
    words blank word = [word] := by
  rw [words, List.splitOnP_eq_singleton solid]
  simp [present]

private theorem words_append_of_blank {ending : List α}
    (blanks : ∀ character ∈ ending, blank character = true)
    (text : List α) : words blank (text ++ ending) = words blank text := by
  induction ending generalizing text with
  | nil =>
      rw [List.append_nil]
  | cons character rest inductionHypothesis =>
      rw [List.forall_mem_cons] at blanks
      have none := inductionHypothesis blanks.2 []
      rw [List.nil_append, words_nil] at none
      rw [words_append_cons blanks.1, none, List.append_nil]

@[simp]
theorem words_dropWhile (text : List α) :
    words blank (text.dropWhile blank) = words blank text := by
  induction text with
  | nil =>
      rfl
  | cons character rest inductionHypothesis =>
      by_cases isBlank : blank character = true
      · rw [List.dropWhile_cons_of_pos isBlank, inductionHypothesis,
          words_cons_of_blank isBlank]
      · rw [List.dropWhile_cons_of_neg isBlank]

/-- Trimming leaves the words alone. -/
@[simp]
theorem words_trim (text : List α) :
    words blank (trim blank text) = words blank text := by
  have blanks : ∀ character ∈ (text.dropWhile blank).rtakeWhile blank,
      blank character = true := fun _ => List.mem_rtakeWhile_imp
  have ending := words_append_of_blank blanks (trim blank text)
  rw [trim, List.rdropWhile_append_rtakeWhile, words_dropWhile] at ending
  exact ending.symm

/-! ## The first word -/

/-- A text that begins with a word goes on behind it. -/
theorem words_cons_of_solid {character : α}
    (isSolid : blank character = false) (rest : List α) :
    words blank (character :: rest) =
      (character :: rest.takeWhile (fun next => !blank next)) ::
        words blank (rest.dropWhile (fun next => !blank next)) := by
  have solid : ∀ next ∈ character :: rest.takeWhile (fun next => !blank next),
      blank next = false := by
    intro next member
    rcases List.mem_cons.mp member with rfl | later
    · exact isSolid
    · simpa using List.mem_takeWhile_imp later
  have whole : character :: rest =
      (character :: rest.takeWhile (fun next => !blank next)) ++
        rest.dropWhile (fun next => !blank next) := by
    rw [List.cons_append, List.takeWhile_append_dropWhile]
  cases behind : rest.dropWhile (fun next => !blank next) with
  | nil =>
      rw [whole, behind, List.append_nil, words_nil,
        words_of_solid (List.cons_ne_nil _ _) solid]
  | cons separator more =>
      have isBlank : blank separator = true := by
        have stops := List.head?_dropWhile_not (fun next => !blank next) rest
        rw [behind] at stops
        simpa using stops
      rw [whole, behind, words_append_cons isBlank,
        words_of_solid (List.cons_ne_nil _ _) solid,
        words_cons_of_blank isBlank, List.singleton_append]

/-- A trimmed text is empty or begins with the first word. -/
theorem head?_trim (text : List α) :
    (trim blank text).head? = (words blank text).head?.bind List.head? := by
  rw [← words_trim]
  cases trimmed : trim blank text with
  | nil =>
      rfl
  | cons character rest =>
      have begins : trim blank text <+: text.dropWhile blank :=
        List.rdropWhile_prefix blank (text.dropWhile blank)
      rw [trimmed] at begins
      obtain ⟨more, behind⟩ := begins
      have isSolid : blank character = false := by
        have stops := List.head?_dropWhile_not blank text
        rw [← behind] at stops
        exact stops
      rw [words_cons_of_solid isSolid]
      rfl

theorem trim_eq_nil_iff (text : List α) :
    trim blank text = [] ↔ words blank text = [] := by
  rw [← List.head?_eq_none_iff, head?_trim]
  cases found : words blank text with
  | nil =>
      simp
  | cons word more =>
      have present : word ≠ [] := by
        have member : word ∈ words blank text := by simp [found]
        simpa using (List.mem_filter.mp member).2
      simp [present]

end AetherEngine.Words
