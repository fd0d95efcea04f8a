import AetherEngine.Foundations.Bits

/-!
# Quantized vectors

An embedding compressed to one sign bit for each dimension, packed in words, and
a scalar correction.  The Hamming distance of two compressed vectors is the
number of dimensions in which their signs differ.

The 32-bit floats and their operations are parameters.
-/

namespace AetherEngine.Shard

open AetherEngine.Bits

/-- The operations on 32-bit floats, and the step to a 64-bit score. -/
structure SingleFloats (single real : Type) where
  zero : single
  ofNat : Nat → single
  add : single → single → single
  mul : single → single → single
  div : single → single → single
  abs : single → single
  isPositive : single → Bool
  widen : single → real
  /-- One less the given number. -/
  oneLess : real → real

/-- Whole numbers for floats. -/
def wholeNumbers : SingleFloats Int Int where
  zero := 0
  ofNat number := number
  add := Int.add
  mul := Int.mul
  div := Int.tdiv
  abs number := number.natAbs
  isPositive number := decide (0 < number)
  widen number := number
  oneLess number := 1 - number

variable {single real : Type}

/-- The dot product, over the dimensions both vectors have. -/
def dot (floats : SingleFloats single real) (first second : List single) :
    single :=
  ((first.zip second).map (fun pair => floats.mul pair.1 pair.2)).foldl
    floats.add floats.zero

/-- How many candidates are rescored for each requested result. -/
def oversample : Nat := 4

structure QuantizedVector (single : Type) where
  /-- The bit of a dimension is set when the dimension is positive. -/
  bits : List UInt64
  /-- The mean absolute magnitude. -/
  correction : single
  dims : Nat

namespace QuantizedVector

def quantize (floats : SingleFloats single real) (v : List single) :
    QuantizedVector single :=
  let words := (v.length + 63) / 64
  let (bits, absSum) := v.zipIdx.foldl
    (fun (bits, absSum) (x, i) =>
      (if floats.isPositive x then setBit bits i else bits,
        floats.add absSum (floats.abs x)))
    (List.replicate words 0, floats.zero)
  { bits := bits
    correction := floats.div absSum (floats.ofNat (max v.length 1))
    dims := v.length }

/-- The number of bits that differ.  The source counts them in 32 bits, which
is exact below `2 ^ 32` dimensions. -/
def hamming (first second : QuantizedVector single) : Nat :=
  ((first.bits.zip second.bits).map
    (fun words => countOnes (words.1 ^^^ words.2))).sum

/-- The pass over the dimensions sets the bits of the positive ones. -/
theorem bits_foldl (floats : SingleFloats single real)
    (dimensions : List (single × Nat)) (bits : List UInt64)
    (absSum : single)
    (inside : ∀ dimension ∈ dimensions, dimension.2 / 64 < bits.length) :
    let packed := (dimensions.foldl
      (fun (bits, absSum) (x, i) =>
        (if floats.isPositive x then setBit bits i else bits,
          floats.add absSum (floats.abs x)))
      (bits, absSum)).1
    packed.length = bits.length ∧
      ∀ number, bitAt packed number =
        (dimensions.any (fun dimension =>
          decide (number = dimension.2) && floats.isPositive dimension.1) ||
          bitAt bits number) := by
  induction dimensions generalizing bits absSum with
  | nil =>
      simp
  | cons dimension rest inductionHypothesis =>
      rcases dimension with ⟨x, i⟩
      simp only [List.foldl_cons]
      have here := inside (x, i) List.mem_cons_self
      have later : ∀ other ∈ rest, other.2 / 64 < bits.length := by
        intro other member
        exact inside other (List.mem_cons_of_mem _ member)
      cases sign : floats.isPositive x with
      | true =>
          obtain ⟨sameLength, packed⟩ := inductionHypothesis (setBit bits i)
            (floats.add absSum (floats.abs x)) (by simpa using later)
          refine ⟨sameLength.trans (length_setBit bits i), ?_⟩
          intro number
          refine (packed number).trans ?_
          rw [bitAt_setBit here, List.any_cons, sign, Bool.and_true,
            Bool.or_left_comm, ← Bool.or_assoc]
      | false =>
          obtain ⟨sameLength, packed⟩ := inductionHypothesis bits
            (floats.add absSum (floats.abs x)) later
          refine ⟨sameLength, ?_⟩
          intro number
          refine (packed number).trans ?_
          rw [List.any_cons, sign, Bool.and_false, Bool.false_or]

private theorem bits_quantize (floats : SingleFloats single real)
    (v : List single) :
    (quantize floats v).bits.length = (v.length + 63) / 64 ∧
      ∀ number, bitAt (quantize floats v).bits number =
        v[number]?.any floats.isPositive := by
  have inside : ∀ dimension ∈ v.zipIdx, dimension.2 / 64 <
      (List.replicate ((v.length + 63) / 64) (0 : UInt64)).length := by
    intro dimension member
    have small := List.snd_lt_of_mem_zipIdx member
    rw [List.length_replicate]
    omega
  obtain ⟨sameLength, packed⟩ := bits_foldl floats v.zipIdx _ floats.zero inside
  refine ⟨sameLength.trans (List.length_replicate ..), ?_⟩
  intro number
  refine (packed number).trans ?_
  have clear : bitAt (List.replicate ((v.length + 63) / 64) 0) number =
      false := by
    rw [bitAt, List.getElem?_replicate]
    split
    · simp
    · simp
  rw [clear, Bool.or_false, Bool.eq_iff_iff, List.any_eq_true]
  simp only [Bool.and_eq_true, decide_eq_true_eq, Option.any_eq_true]
  constructor
  · intro found
    obtain ⟨⟨x, i⟩, member, rfl, sign⟩ := found
    exact ⟨x, List.mem_zipIdx_iff_getElem?.mp member, sign⟩
  · intro found
    obtain ⟨x, located, sign⟩ := found
    exact ⟨(x, number), List.mem_zipIdx_iff_getElem?.mpr located, rfl, sign⟩

/-- The numbers below the length of two lists at which a test of both holds. -/
theorem countP_range_eq_countP_zip {α : Type} (test : α → Bool)
    (first second : List α) (same : first.length = second.length) :
    (List.range first.length).countP (fun number =>
        first[number]?.any test != second[number]?.any test) =
      (first.zip second).countP (fun pair => test pair.1 != test pair.2) := by
  induction first generalizing second with
  | nil =>
      rfl
  | cons head tail inductionHypothesis =>
      cases second with
      | nil => simp at same
      | cons other others =>
          rw [List.length_cons, List.range_succ_eq_map, List.countP_cons,
            List.countP_map, List.zip_cons_cons, List.countP_cons,
            ← inductionHypothesis others (by simpa using same)]
          rfl

/-- The Hamming distance of two compressed vectors counts the dimensions in
which their signs differ. -/
theorem hamming_quantize (floats : SingleFloats single real)
    (first second : List single) (same : first.length = second.length) :
    hamming (quantize floats first) (quantize floats second) =
      (first.zip second).countP (fun pair =>
        floats.isPositive pair.1 != floats.isPositive pair.2) := by
  obtain ⟨firstLength, firstBits⟩ := bits_quantize floats first
  obtain ⟨secondLength, secondBits⟩ := bits_quantize floats second
  rw [hamming, sum_countOnes_xor _ _ (by rw [firstLength, secondLength, same]),
    firstLength]
  simp only [firstBits, secondBits]
  have wide : 64 * ((first.length + 63) / 64) = first.length +
      (64 * ((first.length + 63) / 64) - first.length) := by
    omega
  have beyond : ((List.range
      (64 * ((first.length + 63) / 64) - first.length)).map
        (first.length + ·)).countP (fun number =>
          first[number]?.any floats.isPositive !=
            second[number]?.any floats.isPositive) = 0 := by
    rw [List.countP_eq_zero]
    intro number member
    obtain ⟨offset, -, rfl⟩ := List.mem_map.mp member
    rw [List.getElem?_eq_none (Nat.le_add_right _ _),
      List.getElem?_eq_none (same ▸ Nat.le_add_right _ _)]
    simp
  rw [wide, List.range_add, List.countP_append, beyond, Nat.add_zero,
    countP_range_eq_countP_zip _ _ _ same]

/-! ### A distance -/

/-- The distance of two compressed vectors is the same in both directions. -/
theorem hamming_comm (first second : QuantizedVector single) :
    hamming first second = hamming second first := by
  unfold hamming
  rw [List.map_zip_eq_zipWith, List.map_zip_eq_zipWith,
    List.zipWith_comm_of_comm]
  intro word other
  exact congrArg countOnes (UInt64.xor_comm word other)

/-- Lists with the same pattern of a test differ nowhere in it. -/
theorem countP_zip_eq_zero_of_map_eq {α : Type} {test : α → Bool}
    {first second : List α} (pattern : first.map test = second.map test) :
    (first.zip second).countP (fun pair => test pair.1 != test pair.2) = 0 := by
  induction first generalizing second with
  | nil =>
      rfl
  | cons head tail inductionHypothesis =>
      cases second with
      | nil =>
          rfl
      | cons other others =>
          rw [List.map_cons, List.map_cons, List.cons.injEq] at pattern
          rw [List.zip_cons_cons, List.countP_cons,
            inductionHypothesis pattern.2]
          simp [pattern.1]

/-- Where two lists differ in a test, a third list of the same length differs
from one of them. -/
theorem countP_zip_triangle {α : Type} (test : α → Bool)
    {first second third : List α} (left : first.length = second.length)
    (right : second.length = third.length) :
    (first.zip third).countP (fun pair => test pair.1 != test pair.2) ≤
      (first.zip second).countP (fun pair => test pair.1 != test pair.2) +
        (second.zip third).countP
          (fun pair => test pair.1 != test pair.2) := by
  induction first generalizing second third with
  | nil =>
      exact Nat.zero_le _
  | cons head tail inductionHypothesis =>
      obtain ⟨middle, middles, rfl⟩ :=
        List.exists_cons_of_length_eq_add_one left.symm
      obtain ⟨last, lasts, rfl⟩ :=
        List.exists_cons_of_length_eq_add_one right.symm
      have shorter := inductionHypothesis (Nat.succ.inj left)
        (Nat.succ.inj right)
      simp only [List.zip_cons_cons, List.countP_cons]
      -- The signs of three heads: two of them that differ differ from the rest.
      cases test head <;> cases test middle <;> cases test last <;>
        simp <;> omega

/-- The distance of two compressed vectors of one dimension counts the
positions at which exactly one of them is positive.  It is symmetric, zero for
the same pattern of signs, at most the dimension, and no longer than a way
through a third vector. -/
theorem hamming_counts_disagreements (floats : SingleFloats single real)
    (first second : List single) (same : first.length = second.length) :
    hamming (quantize floats first) (quantize floats second) =
        (first.zip second).countP (fun pair =>
          floats.isPositive pair.1 != floats.isPositive pair.2) ∧
      hamming (quantize floats first) (quantize floats second) =
        hamming (quantize floats second) (quantize floats first) ∧
      (first.map floats.isPositive = second.map floats.isPositive →
        hamming (quantize floats first) (quantize floats second) = 0) ∧
      (∀ third : List single, second.length = third.length →
        hamming (quantize floats first) (quantize floats third) ≤
          hamming (quantize floats first) (quantize floats second) +
            hamming (quantize floats second) (quantize floats third)) ∧
      hamming (quantize floats first) (quantize floats second) ≤
        first.length := by
  have counted := hamming_quantize floats first second same
  refine ⟨counted, hamming_comm _ _, ?_, ?_, ?_⟩
  · intro pattern
    rw [counted, countP_zip_eq_zero_of_map_eq pattern]
  · intro third next
    rw [counted, hamming_quantize floats second third next,
      hamming_quantize floats first third (same.trans next)]
    exact countP_zip_triangle floats.isPositive same next
  · rw [counted]
    refine Nat.le_trans List.countP_le_length ?_
    rw [List.length_zip]
    exact Nat.min_le_left _ _

/-- Two vectors that differ in the first bit of their second word. -/
theorem hamming_counts_disagreements_second_word :
    hamming (quantize wholeNumbers (List.replicate 64 1 ++ [2]))
        (quantize wholeNumbers (List.replicate 64 3 ++ [0])) = 1 ∧
      hamming (quantize wholeNumbers (List.replicate 64 1 ++ [2]))
        (quantize wholeNumbers (List.replicate 64 3 ++ [0])) ≤ 65 := by
  obtain ⟨counted, -, -, -, small⟩ := hamming_counts_disagreements wholeNumbers
    (List.replicate 64 1 ++ [2]) (List.replicate 64 3 ++ [0]) (by decide)
  exact ⟨counted.trans (by decide), small⟩

end QuantizedVector

end AetherEngine.Shard
