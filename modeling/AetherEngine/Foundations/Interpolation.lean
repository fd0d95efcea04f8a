import Mathlib.Algebra.Order.Field.Basic
import Mathlib.Order.Monotone.Basic

/-!
# Interpolation through knots

A knot is a place with a value.  Between two knots the value runs along a
straight line; before the first knot and past the last it is constant.  Where
the places increase and the values do not decrease, the interpolation does not
decrease either and stays between the first and the last value.
-/

namespace AetherEngine.Interpolation

universe u

variable {K : Type u} [Field K] [LinearOrder K]

omit [LinearOrder K] in
/-- The line through two knots. -/
def line (first second : K × K) (place : K) : K :=
  first.2 + (place - first.1) / (second.1 - first.1) * (second.2 - first.2)

/-- The value at a place past a knot: on the line to the first knot that the
place does not pass. -/
def through (place : K) : K × K → List (K × K) → K
  | previous, [] => previous.2
  | previous, knot :: rest =>
      if place ≤ knot.1 then line previous knot place
      else through place knot rest

def interpolate (first : K × K) (rest : List (K × K)) (place : K) : K :=
  if place ≤ first.1 then first.2 else through place first rest

omit [Field K] in
/-- The places increase and the values do not decrease. -/
def Rising (knots : List (K × K)) : Prop :=
  knots.Pairwise (fun first second => first.1 < second.1 ∧ first.2 ≤ second.2)

theorem through_cons_of_le {place : K} {knot : K × K} (before : place ≤ knot.1)
    (previous : K × K) (rest : List (K × K)) :
    through place previous (knot :: rest) = line previous knot place :=
  if_pos before

theorem through_cons_of_lt {place : K} {knot : K × K} (past : knot.1 < place)
    (previous : K × K) (rest : List (K × K)) :
    through place previous (knot :: rest) = through place knot rest :=
  if_neg (not_le.mpr past)

/-- Past all knots the value is the last. -/
theorem through_of_past {place : K} (previous : K × K)
    {rest : List (K × K)} (past : ∀ knot ∈ rest, knot.1 < place) :
    through place previous rest =
      ((previous :: rest).getLast (List.cons_ne_nil _ _)).2 := by
  induction rest generalizing previous with
  | nil =>
      rfl
  | cons knot rest inductionHypothesis =>
      rw [through_cons_of_lt (past knot (by simp)),
        inductionHypothesis knot
          (fun later member => past later (by simp [member])),
        List.getLast_cons_cons]

variable [IsStrictOrderedRing K]

section Line

variable {first second : K × K} (increasing : first.1 < second.1)
  (ordered : first.2 ≤ second.2)

include increasing ordered

theorem line_mono {place place' : K} (places : place ≤ place') :
    line first second place ≤ line first second place' := by
  have positive : 0 < second.1 - first.1 := sub_pos.mpr increasing
  have rise : 0 ≤ second.2 - first.2 := sub_nonneg.mpr ordered
  apply add_le_add_right
  apply mul_le_mul_of_nonneg_right _ rise
  exact div_le_div_of_nonneg_right (sub_le_sub_right places _) positive.le

omit [LinearOrder K] [IsStrictOrderedRing K] increasing ordered in
private theorem line_left : line first second first.1 = first.2 := by
  simp [line]

omit ordered in
private theorem line_right : line first second second.1 = second.2 := by
  have nonzero : second.1 - first.1 ≠ 0 := (sub_pos.mpr increasing).ne'
  rw [line, div_self nonzero, one_mul, add_sub_cancel]

end Line

/-- From a knot on, the value lies between the knot's and the last. -/
theorem through_mem_bounds {place : K} {previous : K × K}
    {rest : List (K × K)} (rising : Rising (previous :: rest))
    (past : previous.1 ≤ place) :
    previous.2 ≤ through place previous rest ∧
      through place previous rest ≤
        ((previous :: rest).getLast (List.cons_ne_nil _ _)).2 := by
  induction rest generalizing previous place with
  | nil =>
      exact ⟨le_rfl, le_rfl⟩
  | cons knot rest inductionHypothesis =>
      obtain ⟨first, tailRising⟩ := List.pairwise_cons.mp rising
      obtain ⟨increasing, ordered⟩ := first knot (by simp)
      rw [List.getLast_cons_cons]
      rcases le_or_gt place knot.1 with before | after
      · rw [through_cons_of_le before]
        have knotFirst := inductionHypothesis tailRising (le_refl knot.1)
        constructor
        · calc previous.2
              _ = line previous knot previous.1 := line_left.symm
              _ ≤ line previous knot place :=
                  line_mono increasing ordered past
        · calc line previous knot place
              _ ≤ line previous knot knot.1 :=
                  line_mono increasing ordered before
              _ = knot.2 := line_right increasing
              _ ≤ _ := knotFirst.1.trans knotFirst.2
      · rw [through_cons_of_lt after]
        have later := inductionHypothesis tailRising after.le
        exact ⟨ordered.trans later.1, later.2⟩

private theorem through_mono {place place' : K} {previous : K × K}
    {rest : List (K × K)} (rising : Rising (previous :: rest))
    (places : place ≤ place') :
    through place previous rest ≤ through place' previous rest := by
  induction rest generalizing previous with
  | nil =>
      exact le_rfl
  | cons knot rest inductionHypothesis =>
      obtain ⟨first, tailRising⟩ := List.pairwise_cons.mp rising
      obtain ⟨increasing, ordered⟩ := first knot (by simp)
      rcases le_or_gt place' knot.1 with before' | after'
      · rw [through_cons_of_le before',
          through_cons_of_le (places.trans before')]
        exact line_mono increasing ordered places
      · rw [through_cons_of_lt after']
        rcases le_or_gt place knot.1 with before | after
        · -- the two places are on different sides of the knot
          rw [through_cons_of_le before]
          calc line previous knot place
            _ ≤ line previous knot knot.1 :=
                line_mono increasing ordered before
            _ = knot.2 := line_right increasing
            _ ≤ through place' knot rest :=
                (through_mem_bounds tailRising after'.le).1
        · rw [through_cons_of_lt after]
          exact inductionHypothesis tailRising

section Interpolate

variable {first : K × K} {rest : List (K × K)}

omit [IsStrictOrderedRing K] in
theorem interpolate_of_le {place : K} (before : place ≤ first.1) :
    interpolate first rest place = first.2 :=
  if_pos before

omit [IsStrictOrderedRing K] in
theorem interpolate_of_lt {place : K} (past : first.1 < place) :
    interpolate first rest place = through place first rest :=
  if_neg (not_le.mpr past)

omit [IsStrictOrderedRing K] in
theorem interpolate_of_past {place : K}
    (past : ∀ knot ∈ first :: rest, knot.1 < place) :
    interpolate first rest place =
      ((first :: rest).getLast (List.cons_ne_nil _ _)).2 := by
  rw [interpolate_of_lt (past first (by simp))]
  exact through_of_past first
    (fun knot member => past knot (List.mem_cons_of_mem _ member))

theorem interpolate_mem_bounds (rising : Rising (first :: rest)) (place : K) :
    first.2 ≤ interpolate first rest place ∧
      interpolate first rest place ≤
        ((first :: rest).getLast (List.cons_ne_nil _ _)).2 := by
  rcases le_or_gt place first.1 with before | after
  · rw [interpolate_of_le before]
    have knotFirst := through_mem_bounds rising le_rfl
    exact ⟨le_rfl, knotFirst.1.trans knotFirst.2⟩
  · rw [interpolate_of_lt after]
    exact through_mem_bounds rising after.le

theorem interpolate_mono (rising : Rising (first :: rest)) :
    Monotone (interpolate first rest) := by
  intro place place' places
  rcases le_or_gt place first.1 with before | after
  · rw [interpolate_of_le before]
    exact (interpolate_mem_bounds rising place').1
  · rw [interpolate_of_lt after, interpolate_of_lt (after.trans_le places)]
    exact through_mono rising places

end Interpolate

end AetherEngine.Interpolation
