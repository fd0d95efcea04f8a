import Mathlib.Algebra.GroupWithZero.Nat
import Mathlib.Data.List.Basic
import Mathlib.Order.Basic

/-!
# Decimal numerals of a fixed width

A number is written with leading zeros to a given width, and read back with an
optional plus sign.  Among numerals of one length the order of the characters
is the order of the numbers.
-/

namespace AetherEngine.Decimal

/-- The decimal digits, filled up with leading zeros to the width. -/
def padded (width number : Nat) : List Char :=
  List.replicate (width - (Nat.toDigits 10 number).length) '0' ++
    Nat.toDigits 10 number

/-- The digits behind an optional plus sign. -/
def unsigned : List Char → List Char
  | '+' :: digits => digits
  | digits => digits

/-- Read an unsigned number below the limit: an optional plus sign and at
least one digit. -/
def parse (limit : Nat) (text : List Char) : Option Nat :=
  let digits := unsigned text
  let number := Nat.ofDigitChars 10 digits 0
  if digits ≠ [] ∧ digits.all Char.isDigit ∧ number < limit then
    some number
  else
    none

theorem isDigit_of_mem_padded {width number : Nat} {digit : Char}
    (member : digit ∈ padded width number) : digit.isDigit = true := by
  rcases List.mem_append.mp member with filling | written
  · rw [List.eq_of_mem_replicate filling]
    rfl
  · exact Nat.isDigit_of_mem_toDigits (by decide) (by decide) written

@[simp]
theorem ofDigitChars_padded (width number : Nat) :
    Nat.ofDigitChars 10 (padded width number) 0 = number := by
  rw [padded, Nat.ofDigitChars_append, Nat.ofDigitChars_replicate_zero,
    Nat.mul_zero, Nat.ofDigitChars_ten_toDigits]

theorem padded_inj {width left right : Nat} :
    padded width left = padded width right ↔ left = right := by
  constructor
  · intro same
    rw [← ofDigitChars_padded width left, same, ofDigitChars_padded]
  · intro equality
    subst equality
    rfl

private theorem padded_ne_nil (width number : Nat) :
    padded width number ≠ [] := by
  simp [padded]

/-- A number that fits is written with exactly as many characters as the
width. -/
theorem length_padded {width number : Nat} (positive : 0 < width)
    (fits : number < 10 ^ width) : (padded width number).length = width := by
  have short : (Nat.toDigits 10 number).length ≤ width :=
    (Nat.length_toDigits_le_iff (by decide) positive).mpr fits
  rw [padded, List.length_append, List.length_replicate]
  omega

private theorem unsigned_padded (width number : Nat) :
    unsigned (padded width number) = padded width number := by
  cases shape : padded width number with
  | nil => rfl
  | cons first rest =>
      have digit : first.isDigit = true :=
        isDigit_of_mem_padded (shape ▸ List.mem_cons_self)
      have notPlus : first ≠ '+' := by
        intro equality
        subst equality
        exact absurd digit (by decide)
      unfold unsigned
      split
      · rename_i plus
        exact absurd (List.cons.inj plus).1 notPlus
      · rfl

theorem parse_padded {limit width number : Nat} (below : number < limit) :
    parse limit (padded width number) = some number := by
  have digits : (padded width number).all Char.isDigit = true := by
    rw [List.all_eq_true]
    intro digit member
    exact isDigit_of_mem_padded member
  simp only [parse, unsigned_padded, ofDigitChars_padded]
  rw [if_pos ⟨padded_ne_nil width number, digits, below⟩]

/-- Different numbers have different numerals. -/
theorem toString_injective : Function.Injective (toString : Nat → String) := by
  intro left right same
  have sameDigits : Nat.toDigits 10 left = Nat.toDigits 10 right := by
    rwa [Nat.toString_eq_ofList_toDigits, Nat.toString_eq_ofList_toDigits,
      String.ofList_inj] at same
  rw [← @Nat.ofDigitChars_ten_toDigits left, sameDigits,
    Nat.ofDigitChars_ten_toDigits]

theorem isDigit_of_mem_toString {number : Nat} {digit : Char}
    (member : digit ∈ (toString number).toList) : digit.isDigit = true := by
  rw [Nat.toString_eq_ofList_toDigits, String.toList_ofList] at member
  exact Nat.isDigit_of_mem_toDigits (by decide) (by decide) member

/-- A number with its sign is written with digits and a minus sign. -/
theorem isDigit_or_minus_of_mem_toString {number : Int} {character : Char}
    (member : character ∈ (toString number).toList) :
    character.isDigit = true ∨ character = '-' := by
  cases number with
  | ofNat size =>
      exact Or.inl (isDigit_of_mem_toString member)
  | negSucc size =>
      have written : toString (Int.negSucc size) = "-" ++ toString (size + 1) :=
        rfl
      rw [written, String.toList_append, List.mem_append] at member
      rcases member with minus | digit
      · exact Or.inr (List.mem_singleton.mp minus)
      · exact Or.inl (isDigit_of_mem_toString digit)

/-! ## The order of the characters -/

/-- The number a digit stands for, placed in front of as many digits as the
list holds, and the rest. -/
theorem ofDigitChars_cons_zero (first : Char) (rest : List Char) :
    Nat.ofDigitChars 10 (first :: rest) 0 =
      10 ^ rest.length * (first.toNat - '0'.toNat) +
        Nat.ofDigitChars 10 rest 0 := by
  rw [Nat.ofDigitChars_cons, Nat.ofDigitChars_eq_ofDigitChars_zero]
  simp

private theorem ofDigitChars_lt {digits : List Char}
    (allDigits : ∀ digit ∈ digits, digit.isDigit = true) :
    Nat.ofDigitChars 10 digits 0 < 10 ^ digits.length := by
  induction digits with
  | nil =>
      simp
  | cons first rest inductionHypothesis =>
      have restLt := inductionHypothesis
        (fun digit member => allDigits digit (List.mem_cons_of_mem _ member))
      have firstDigit := allDigits first List.mem_cons_self
      rw [Char.isDigit_iff_toNat] at firstDigit
      have firstLe : first.toNat - '0'.toNat ≤ 9 := by
        have top : '9'.toNat = '0'.toNat + 9 := rfl
        omega
      rw [ofDigitChars_cons_zero, List.length_cons, Nat.pow_succ]
      have scaled :
          10 ^ rest.length * (first.toNat - '0'.toNat) ≤
            10 ^ rest.length * 9 :=
        Nat.mul_le_mul_left _ firstLe
      omega

/-- Of two digit lists of one length, the smaller in the order of the
characters is the smaller number. -/
theorem lt_iff_ofDigitChars_lt {left right : List Char}
    (leftDigits : ∀ digit ∈ left, digit.isDigit = true)
    (rightDigits : ∀ digit ∈ right, digit.isDigit = true)
    (sameLength : left.length = right.length) :
    left < right ↔
      Nat.ofDigitChars 10 left 0 < Nat.ofDigitChars 10 right 0 := by
  induction left generalizing right with
  | nil =>
      rw [List.length_nil, eq_comm, List.length_eq_zero_iff] at sameLength
      subst sameLength
      simp
  | cons first rest inductionHypothesis =>
      cases right with
      | nil => simp at sameLength
      | cons head tail =>
          rw [List.length_cons, List.length_cons, Nat.add_right_cancel_iff]
            at sameLength
          have restDigits := fun digit member =>
            leftDigits digit (List.mem_cons_of_mem first member)
          have tailDigits := fun digit member =>
            rightDigits digit (List.mem_cons_of_mem head member)
          have restLt := ofDigitChars_lt restDigits
          have tailLt := ofDigitChars_lt tailDigits
          have later := inductionHypothesis restDigits tailDigits sameLength
          have firstDigit := leftDigits first List.mem_cons_self
          have headDigit := rightDigits head List.mem_cons_self
          rw [Char.isDigit_iff_toNat] at firstDigit headDigit
          rw [List.cons_lt_cons_iff, ofDigitChars_cons_zero,
            ofDigitChars_cons_zero, later, sameLength]
          rw [sameLength] at restLt
          rcases Nat.lt_trichotomy first.toNat head.toNat with
            below | same | above
          · have gap :
                10 ^ tail.length * (first.toNat - '0'.toNat) +
                    10 ^ tail.length ≤
                  10 ^ tail.length * (head.toNat - '0'.toNat) := by
              rw [← Nat.mul_succ]
              exact Nat.mul_le_mul_left _ (by omega)
            have smaller : first < head := below
            simp only [smaller, true_or, true_iff]
            omega
          · have equal : first = head := Char.toNat_inj.mp same
            subst equal
            simp
          · have gap :
                10 ^ tail.length * (head.toNat - '0'.toNat) +
                    10 ^ tail.length ≤
                  10 ^ tail.length * (first.toNat - '0'.toNat) := by
              rw [← Nat.mul_succ]
              exact Nat.mul_le_mul_left _ (by omega)
            have larger : ¬ first < head := Nat.not_lt.mpr (Nat.le_of_lt above)
            have different : first ≠ head := by
              intro equality
              subst equality
              exact Nat.lt_irrefl _ above
            simp only [larger, different, false_and, or_false, false_iff]
            omega

/-- Numerals that fit the width are ordered as the numbers are. -/
theorem padded_lt_padded_iff {width left right : Nat} (positive : 0 < width)
    (leftFits : left < 10 ^ width) (rightFits : right < 10 ^ width) :
    padded width left < padded width right ↔ left < right := by
  have sameLength :
      (padded width left).length = (padded width right).length := by
    rw [length_padded positive leftFits, length_padded positive rightFits]
  rw [lt_iff_ofDigitChars_lt (fun _ => isDigit_of_mem_padded)
    (fun _ => isDigit_of_mem_padded) sameLength,
    ofDigitChars_padded, ofDigitChars_padded]

/-- Whatever follows two lists of one length, the order between them
decides. -/
theorem append_lt_append {left right : List Char} (smaller : left < right)
    (sameLength : left.length = right.length) (behind other : List Char) :
    left ++ behind < right ++ other := by
  induction left generalizing right with
  | nil =>
      rw [List.length_nil, eq_comm, List.length_eq_zero_iff] at sameLength
      subst sameLength
      exact absurd smaller (List.lt_irrefl [])
  | cons first rest inductionHypothesis =>
      cases right with
      | nil => simp at sameLength
      | cons head tail =>
          rw [List.length_cons, List.length_cons, Nat.add_right_cancel_iff]
            at sameLength
          rw [List.cons_lt_cons_iff] at smaller
          rw [List.cons_append, List.cons_append, List.cons_lt_cons_iff]
          rcases smaller with below | ⟨same, later⟩
          · exact .inl below
          · exact .inr ⟨same, inductionHypothesis later sameLength⟩

end AetherEngine.Decimal
