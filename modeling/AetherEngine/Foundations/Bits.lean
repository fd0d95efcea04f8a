import Mathlib.Algebra.GroupWithZero.Nat
import Mathlib.Data.List.Basic

/-!
# Bits packed in words

A list of 64-bit words holds one bit for each number, sixty-four to a word.
Setting a bit changes that bit only, and the bits that differ between two such
lists are counted word by word.
-/

namespace AetherEngine.Bits

/-- The number of ones in a word. -/
def countOnes (word : UInt64) : Nat :=
  (List.range 64).countP (fun bit => word.toNat.testBit bit)

/-- The bit of a number; bits past the last word are clear. -/
def bitAt (words : List UInt64) (number : Nat) : Bool :=
  (words[number / 64]?.getD 0).toNat.testBit (number % 64)

/-- Set the bit of a number. -/
def setBit (words : List UInt64) (number : Nat) : List UInt64 :=
  words.modify (number / 64)
    (fun word => word ||| (1 <<< (number % 64).toUInt64))

@[simp]
theorem length_setBit (words : List UInt64) (number : Nat) :
    (setBit words number).length = words.length :=
  List.length_modify ..

private theorem testBit_or_shiftLeft (word : UInt64) {bit other : Nat}
    (small : bit < 64) (otherSmall : other < 64) :
    (word ||| (1 <<< bit.toUInt64)).toNat.testBit other =
      (decide (other = bit) || word.toNat.testBit other) := by
  have shift : bit.toUInt64.toNat % 64 = bit := by
    have fits : bit < 2 ^ 64 := Nat.lt_trans small (by decide)
    rw [Nat.toUInt64, UInt64.toNat_ofNat_of_lt' fits, Nat.mod_eq_of_lt small]
  rw [UInt64.toNat_or, UInt64.toNat_shiftLeft, shift, UInt64.toNat_one,
    Nat.one_shiftLeft, Nat.testBit_or, Nat.testBit_mod_two_pow,
    Nat.testBit_two_pow, decide_eq_true otherSmall, Bool.true_and,
    Bool.or_comm]
  congr 1
  exact decide_eq_decide.mpr eq_comm

theorem bitAt_setBit {words : List UInt64} {number : Nat}
    (inside : number / 64 < words.length) (other : Nat) :
    bitAt (setBit words number) other =
      (decide (other = number) || bitAt words other) := by
  simp only [bitAt, setBit, List.getElem?_modify]
  by_cases sameWord : number / 64 = other / 64
  · rw [← sameWord, List.getElem?_eq_getElem inside]
    simp only [if_true, Option.map_eq_map, Option.map_some, Option.getD_some]
    rw [testBit_or_shiftLeft _ (Nat.mod_lt _ (by decide))
      (Nat.mod_lt _ (by decide))]
    congr 1
    apply decide_eq_decide.mpr
    omega
  · have different : ¬ other = number := by
      intro same
      exact sameWord (by rw [same])
    simp [sameWord, different]

/-- The bits that differ between two lists of words, word by word. -/
theorem sum_countOnes_xor (first second : List UInt64)
    (same : first.length = second.length) :
    ((first.zip second).map
        (fun words => countOnes (words.1 ^^^ words.2))).sum =
      (List.range (64 * first.length)).countP
        (fun number => bitAt first number != bitAt second number) := by
  induction first generalizing second with
  | nil =>
      rfl
  | cons word rest inductionHypothesis =>
      cases second with
      | nil => simp at same
      | cons other others =>
          have later : ∀ (head : UInt64) (tail : List UInt64) (number : Nat),
              bitAt (head :: tail) (64 + number) = bitAt tail number := by
            intro head tail number
            have position : (64 + number) / 64 = number / 64 + 1 := by omega
            have offset : (64 + number) % 64 = number % 64 := by omega
            rw [bitAt, bitAt, position, offset, List.getElem?_cons_succ]
          have here : ∀ (head : UInt64) (tail : List UInt64) (bit : Nat),
              bit < 64 → bitAt (head :: tail) bit = head.toNat.testBit bit := by
            intro head tail bit small
            rw [bitAt, Nat.div_eq_of_lt small, Nat.mod_eq_of_lt small]
            rfl
          have first : (List.range 64).countP (fun bit =>
              bitAt (word :: rest) bit != bitAt (other :: others) bit) =
                countOnes (word ^^^ other) := by
            apply List.countP_congr
            intro bit member
            rw [here _ _ _ (List.mem_range.mp member),
              here _ _ _ (List.mem_range.mp member), UInt64.toNat_xor,
              Nat.testBit_xor]
          have split : 64 * (word :: rest).length =
              64 + 64 * rest.length := by
            rw [List.length_cons]
            omega
          rw [List.zip_cons_cons, List.map_cons, List.sum_cons,
            inductionHypothesis others (by simpa using same), split,
            List.range_add, List.countP_append, first, List.countP_map]
          congr 2
          funext number
          simp only [Function.comp_apply, later]

end AetherEngine.Bits
