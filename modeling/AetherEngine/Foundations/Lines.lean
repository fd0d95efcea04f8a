import Mathlib.Data.List.Infix

/-!
# Lines of a text

A text is read line by line: a line ends at a line feed, a carriage return
before the line feed belongs to the line's end, and the last line need not be
ended.  A marker at the beginning of a line makes it a marked line.  Whether a
text has a marked line is a question about the text as a whole: does a line feed
followed by the marker occur in it?
-/

namespace AetherEngine.Lines

/-- Drop one carriage return at the end. -/
def trimReturn (line : List Char) : List Char :=
  if line.getLast? = some '\r' then line.dropLast else line

/-- The lines of a text, behind the characters of the current line read so
far. -/
def linesFrom (current : List Char) : List Char → List (List Char)
  | [] => if current = [] then [] else [current]
  | '\n' :: rest => trimReturn current :: linesFrom [] rest
  | character :: rest => linesFrom (current ++ [character]) rest

/-- The lines of a text, without their ends. -/
def lines (text : List Char) : List (List Char) :=
  linesFrom [] text

/-- What follows the marker. -/
def stripPrefix (marker text : List Char) : Option (List Char) :=
  if marker <+: text then some (text.drop marker.length) else none

/-- What follows the marker in each line that begins with it. -/
def markedLines (marker text : List Char) : List (List Char) :=
  (lines text).filterMap (stripPrefix marker)

/-- What follows the markers, with the markers back, are the lines that begin
with one. -/
theorem append_markedLines (marker text : List Char) :
    (markedLines marker text).map (marker ++ ·) =
      (lines text).filter (marker <+: ·) := by
  unfold markedLines
  induction lines text with
  | nil =>
      rfl
  | cons line rest inductionHypothesis =>
      by_cases marked : marker <+: line
      · have whole : marker ++ line.drop marker.length = line := by
          obtain ⟨after, rfl⟩ := marked
          rw [List.drop_left]
        have kept := @List.filterMap_cons_some _ _ (stripPrefix marker) _ rest _
          (if_pos marked)
        rw [kept, List.map_cons, whole, inductionHypothesis,
          List.filter_cons_of_pos (by simpa using marked)]
      · have dropped := @List.filterMap_cons_none _ _ (stripPrefix marker) _ rest
          (if_neg marked)
        rw [dropped, inductionHypothesis,
          List.filter_cons_of_neg (by simpa using marked)]

/-- The text is empty or ends with its last line's end. -/
def Ended (text : List Char) : Prop :=
  text = [] ∨ text.getLast? = some '\n'

/-! ## The first line -/

private theorem linesFrom_append {line : List Char} (unbroken : '\n' ∉ line)
    (current rest : List Char) :
    linesFrom current (line ++ rest) = linesFrom (current ++ line) rest := by
  induction line generalizing current with
  | nil =>
      simp
  | cons first later inductionHypothesis =>
      have different : first ≠ '\n' := by
        intro equality
        subst equality
        exact unbroken List.mem_cons_self
      have laterUnbroken : '\n' ∉ later := fun member =>
        unbroken (List.mem_cons_of_mem _ member)
      rw [List.cons_append, linesFrom.eq_3 _ _ _ different,
        inductionHypothesis laterUnbroken, List.append_assoc,
        List.singleton_append]

@[simp]
theorem lines_nil : lines [] = [] :=
  rfl

private theorem lines_of_unbroken {line : List Char} (unbroken : '\n' ∉ line)
    (present : line ≠ []) : lines line = [line] := by
  have whole := linesFrom_append unbroken [] []
  rw [List.append_nil, List.nil_append] at whole
  simp [lines, whole, linesFrom, present]

theorem lines_append_newline {line : List Char} (unbroken : '\n' ∉ line)
    (rest : List Char) :
    lines (line ++ '\n' :: rest) = trimReturn line :: lines rest := by
  rw [lines, linesFrom_append unbroken, List.nil_append, linesFrom, lines]

/-- A text is a line without an end, or a first line and the text behind its
end. -/
@[elab_as_elim]
theorem firstLineInduction {motive : List Char → Prop}
    (unended : ∀ line, '\n' ∉ line → motive line)
    (ended : ∀ line rest, '\n' ∉ line → motive rest →
      motive (line ++ '\n' :: rest))
    (text : List Char) : motive text := by
  by_cases broken : '\n' ∈ text
  · obtain ⟨line, rest, shape, unbroken⟩ := List.eq_append_cons_of_mem broken
    have shorter : rest.length < text.length := by
      rw [shape, List.length_append, List.length_cons]
      omega
    rw [shape]
    exact ended line rest unbroken (firstLineInduction unended ended rest)
  · exact unended text broken
termination_by text.length

private theorem unbroken_of_mem_lines {text line : List Char}
    (member : line ∈ lines text) : '\n' ∉ line := by
  induction text using firstLineInduction with
  | unended whole unbroken =>
      by_cases present : whole = []
      · simp [present] at member
      · rw [lines_of_unbroken unbroken present, List.mem_singleton] at member
        exact member ▸ unbroken
  | ended first rest unbroken inductionHypothesis =>
      rw [lines_append_newline unbroken, List.mem_cons] at member
      rcases member with rfl | later
      · intro broken
        apply unbroken
        unfold trimReturn at broken
        split at broken
        · exact List.mem_of_mem_dropLast broken
        · exact broken
      · exact inductionHypothesis later

theorem unbroken_of_mem_markedLines {marker text line : List Char}
    (member : line ∈ markedLines marker text) : '\n' ∉ line := by
  obtain ⟨whole, wholeMember, stripped⟩ := List.mem_filterMap.mp member
  intro broken
  apply unbroken_of_mem_lines wholeMember
  unfold stripPrefix at stripped
  split at stripped
  · cases stripped
    exact List.mem_of_mem_drop broken
  · cases stripped

theorem unbroken_intercalate_iff {separator : List Char}
    (unbroken : '\n' ∉ separator) (parts : List (List Char)) :
    '\n' ∉ separator.intercalate parts ↔ ∀ part ∈ parts, '\n' ∉ part := by
  induction parts with
  | nil =>
      simp
  | cons first rest inductionHypothesis =>
      cases rest with
      | nil =>
          simp
      | cons second more =>
          rw [List.intercalate_cons_cons, List.mem_append, List.mem_append,
            not_or, not_or, inductionHypothesis,
            List.forall_mem_cons]
          simp [unbroken]

/-! ## Texts one after the other -/

theorem Ended.append {first second : List Char} (firstEnded : Ended first)
    (secondEnded : Ended second) : Ended (first ++ second) := by
  rcases secondEnded with rfl | last
  · simpa using firstEnded
  · exact Or.inr (by simp [List.getLast?_append, last])

theorem ended_append_newline (text : List Char) : Ended (text ++ ['\n']) :=
  Or.inr (by simp)

theorem Ended.flatMap {α : Type} {entries : List α} {render : α → List Char}
    (each : ∀ entry ∈ entries, Ended (render entry)) :
    Ended (entries.flatMap render) := by
  induction entries with
  | nil =>
      exact Or.inl rfl
  | cons entry rest inductionHypothesis =>
      rw [List.flatMap_cons]
      exact (each entry List.mem_cons_self).append
        (inductionHypothesis (fun other member =>
          each other (List.mem_cons_of_mem _ member)))

/-- A line does not reach over the end of an ended text. -/
theorem lines_append {first : List Char} (ended : Ended first)
    (second : List Char) :
    lines (first ++ second) = lines first ++ lines second := by
  induction first using firstLineInduction with
  | unended line unbroken =>
      rcases ended with rfl | last
      · simp
      · exact absurd (List.mem_of_getLast? last) unbroken
  | ended line rest unbroken inductionHypothesis =>
      have restEnded : Ended rest := by
        rcases ended with empty | last
        · simp at empty
        · cases rest with
          | nil =>
              exact Or.inl rfl
          | cons character more =>
              exact Or.inr (by simpa [List.getLast?_append] using last)
      rw [List.append_assoc, List.cons_append, lines_append_newline unbroken,
        lines_append_newline unbroken, inductionHypothesis restEnded,
        List.cons_append]

theorem markedLines_append {marker first : List Char} (ended : Ended first)
    (second : List Char) :
    markedLines marker (first ++ second) =
      markedLines marker first ++ markedLines marker second := by
  rw [markedLines, lines_append ended, List.filterMap_append, markedLines,
    markedLines]

theorem markedLines_flatMap {α : Type} {marker : List Char} {entries : List α}
    {render : α → List Char} (each : ∀ entry ∈ entries, Ended (render entry)) :
    markedLines marker (entries.flatMap render) =
      entries.flatMap (fun entry => markedLines marker (render entry)) := by
  induction entries with
  | nil =>
      rfl
  | cons entry rest inductionHypothesis =>
      rw [List.flatMap_cons, List.flatMap_cons,
        markedLines_append (each entry List.mem_cons_self),
        inductionHypothesis (fun other member =>
          each other (List.mem_cons_of_mem _ member))]

/-! ## Occurrences -/

private theorem stripPrefix_eq_none_iff {marker text : List Char} :
    stripPrefix marker text = none ↔ ¬ marker <+: text := by
  simp [stripPrefix]

@[simp]
theorem stripPrefix_append (marker text : List Char) :
    stripPrefix marker (marker ++ text) = some text := by
  simp [stripPrefix]

/-- A line of its own, begun by the marker and not ended by a carriage
return. -/
theorem markedLines_marked {marker line : List Char}
    (markerUnbroken : '\n' ∉ marker) (unbroken : '\n' ∉ line)
    (noReturn : (marker ++ line).getLast? ≠ some '\r') :
    markedLines marker (marker ++ line ++ ['\n']) = [line] := by
  have whole : '\n' ∉ marker ++ line := by
    simp [markerUnbroken, unbroken]
  rw [markedLines, lines_append_newline whole, lines_nil, trimReturn,
    if_neg noReturn, List.filterMap_cons, stripPrefix_append]
  rfl

/-- A marker without the character is at the beginning of a text when it is at
the beginning of what precedes the character. -/
theorem prefix_append_cons_iff {α : Type} {marker first rest : List α}
    {character : α} (foreign : character ∉ marker) :
    marker <+: first ++ character :: rest ↔ marker <+: first := by
  induction first generalizing marker with
  | nil =>
      cases marker with
      | nil =>
          simp
      | cons head tail =>
          have different : head ≠ character :=
            (List.ne_of_not_mem_cons foreign).symm
          simp [different]
  | cons head tail inductionHypothesis =>
      cases marker with
      | nil =>
          simp
      | cons other more =>
          have moreForeign : character ∉ more := fun member =>
            foreign (List.mem_cons_of_mem _ member)
          rw [List.cons_append, List.cons_prefix_cons, List.cons_prefix_cons,
            inductionHypothesis moreForeign]

/-- A marker that has the character at most at its end reaches over it at most
with its end. -/
theorem prefix_append_cons_iff_of_last {α : Type} {front first rest : List α}
    {last character : α} (foreign : character ∉ front) :
    front ++ [last] <+: first ++ character :: rest ↔
      front ++ [last] <+: first ++ [character] := by
  induction first generalizing front with
  | nil =>
      cases front with
      | nil =>
          simp
      | cons head tail =>
          have different : head ≠ character :=
            (List.ne_of_not_mem_cons foreign).symm
          simp [different]
  | cons head tail inductionHypothesis =>
      cases front with
      | nil =>
          simp
      | cons other more =>
          have moreForeign : character ∉ more := fun member =>
            foreign (List.mem_cons_of_mem _ member)
          simp only [List.cons_append, List.cons_prefix_cons,
            inductionHypothesis moreForeign]

/-- Where such a marker occurs, it occurs up to the character or behind it. -/
theorem infix_append_cons_iff_of_last {α : Type} {front first rest : List α}
    {last character : α} (foreign : character ∉ front) :
    front ++ [last] <:+: first ++ character :: rest ↔
      front ++ [last] <:+: first ++ [character] ∨
        front ++ [last] <:+: rest := by
  induction first with
  | nil =>
      have begins : front ++ [last] <+: character :: rest ↔
          front ++ [last] <+: [character] :=
        @prefix_append_cons_iff_of_last α front [] rest last character foreign
      simp [List.infix_cons_iff, begins]
  | cons head tail inductionHypothesis =>
      have begins : front ++ [last] <+: head :: (tail ++ character :: rest) ↔
          front ++ [last] <+: head :: (tail ++ [character]) :=
        @prefix_append_cons_iff_of_last α front (head :: tail) rest last
          character foreign
      simp only [List.cons_append, List.infix_cons_iff, begins,
        inductionHypothesis, or_assoc]

/-- A marker without the character occurs before it or behind it. -/
theorem infix_append_cons_iff {α : Type} {marker first rest : List α}
    {character : α} (present : marker ≠ []) (foreign : character ∉ marker) :
    marker <:+: first ++ character :: rest ↔
      marker <:+: first ∨ marker <:+: rest := by
  obtain ⟨front, last, rfl⟩ := (List.eq_nil_or_concat' marker).resolve_left
    present
  rw [List.mem_append, not_or, List.mem_singleton] at foreign
  have notLast : ¬ front ++ [last] <:+ first ++ [character] := by
    intro inside
    rcases inside with ⟨before, same⟩
    rw [← List.append_assoc] at same
    have sameLast := List.append_inj_right' same rfl
    exact foreign.2 (List.head_eq_of_cons_eq sameLast).symm
  rw [infix_append_cons_iff_of_last foreign.1, List.infix_concat_iff,
    or_iff_right notLast]

private theorem prefix_trimReturn_iff {marker line : List Char}
    (foreign : '\r' ∉ marker) :
    marker <+: trimReturn line ↔ marker <+: line := by
  unfold trimReturn
  split
  · rename_i last
    obtain ⟨front, rfl⟩ := List.getLast?_eq_some_iff.mp last
    rw [List.dropLast_concat, prefix_append_cons_iff foreign]
  · rfl

/-- Behind the characters of a line, a line feed and the marker can only occur
from the line's end on. -/
theorem newline_infix_append_iff {marker line rest : List Char}
    (unbroken : '\n' ∉ line) :
    '\n' :: marker <:+: line ++ rest ↔ '\n' :: marker <:+: rest := by
  induction line with
  | nil =>
      rfl
  | cons first later inductionHypothesis =>
      rw [List.mem_cons, not_or] at unbroken
      rw [List.cons_append, List.infix_cons_iff, List.cons_prefix_cons,
        inductionHypothesis unbroken.2]
      simp [unbroken.1]

/-- A text has a marked line when a line feed followed by the marker occurs in
it, once a line feed is put in front. -/
theorem markedLines_eq_nil_iff {marker : List Char} (present : marker ≠ [])
    (noNewline : '\n' ∉ marker) (noReturn : '\r' ∉ marker)
    (text : List Char) :
    markedLines marker text = [] ↔
      ¬ '\n' :: marker <:+: '\n' :: text := by
  rw [List.infix_cons_iff, List.cons_prefix_cons, markedLines,
    List.filterMap_eq_nil_iff]
  simp only [true_and, stripPrefix_eq_none_iff]
  induction text using firstLineInduction with
  | unended line unbroken =>
      have nowhere : ¬ '\n' :: marker <:+: line := fun occurs =>
        unbroken (occurs.subset List.mem_cons_self)
      by_cases empty : line = []
      · simp [empty, present]
      · simp [lines_of_unbroken unbroken empty, nowhere]
  | ended line rest unbroken inductionHypothesis =>
      rw [lines_append_newline unbroken, List.forall_mem_cons,
        inductionHypothesis, prefix_trimReturn_iff noReturn,
        prefix_append_cons_iff noNewline, newline_infix_append_iff unbroken,
        List.infix_cons_iff, List.cons_prefix_cons]
      tauto

end AetherEngine.Lines
