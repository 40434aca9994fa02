/-!
# Doubles

A double has a sign, an exponent field of eleven bits and a fraction of fifty-two.  An exponent
field of ones marks what is no finite number.

* `Number.isFinite`, `Number.isZero`, `Number.isNaN`, `Number.isNegative`: read off the fields.
* `Number.ofParts`: the double of a given sign and given fields, which are read back.
* `Number.ofSmall`: a natural number below `Number.smallBound`, which a double holds exactly.
-/

namespace ConfGraph.Number

/-! ## 1. Reading the fields -/

/-- One more than the largest fraction: two to the power fifty-two. -/
def fractionSize : Nat := 0x10000000000000

/-- The exponent field of what is no finite number. -/
def lastField : Nat := 2047

theorem fractionSize_pos : 0 < fractionSize := by decide

theorem lastField_pos : 0 < lastField := by decide

/-- The exponent field. -/
def exponentField (x : Float) : Nat := x.toBits.toNat / fractionSize % 2048

/-- The fraction. -/
def fraction (x : Float) : Nat := x.toBits.toNat % fractionSize

theorem fraction_lt (x : Float) : fraction x < fractionSize := Nat.mod_lt _ fractionSize_pos

/-- Whether the sign bit is set. -/
def isNegative (x : Float) : Bool := 2048 * fractionSize ≤ x.toBits.toNat

/-- Whether a double is a finite number. -/
def isFinite (x : Float) : Bool := exponentField x != lastField

/-- Whether a double is no number at all. -/
def isNaN (x : Float) : Bool := exponentField x == lastField && fraction x != 0

/-- Whether a double is zero, with either sign. -/
def isZero (x : Float) : Bool := exponentField x == 0 && fraction x == 0

/-! ## 2. Writing the fields -/

/-- What the sign bit stands for. -/
def signSize : Nat := 2048 * fractionSize

/-- The bits of a sign, an exponent field and a fraction. -/
def bitsOf (negative : Bool) (field fraction : Nat) : Nat :=
  (if negative then signSize else 0) + (field * fractionSize + fraction)

theorem toNat_unpackExponent (b : BitVec Float.Model.Format.binary64.numBits) :
    (Float.Model.UnpackedFloat.unpackExponent b).toNat = b.toNat / fractionSize % 2048 := by
  simp only [Float.Model.UnpackedFloat.unpackExponent, BitVec.toNat_cast, BitVec.extractLsb_toNat,
    Nat.shiftRight_eq_div_pow]
  rfl

theorem toNat_unpackMantissa (b : BitVec Float.Model.Format.binary64.numBits) :
    (Float.Model.UnpackedFloat.unpackMantissa b).toNat = b.toNat % fractionSize := by
  simp only [Float.Model.UnpackedFloat.unpackMantissa, BitVec.toNat_cast, BitVec.extractLsb_toNat]
  rfl

section

variable {field fraction : Nat} (hf : field < lastField) (hm : fraction < fractionSize)
include hf hm

theorem toNat_bitsOf (negative : Bool) :
    (UInt64.ofNat (bitsOf negative field fraction)).toNat = bitsOf negative field fraction := by
  rw [UInt64.toNat_ofNat']
  simp only [bitsOf, signSize, lastField, fractionSize] at *
  split <;> omega

theorem valid_bitsOf (negative : Bool) : Float.Model.Format.binary64.Valid
    (UInt64.ofNat (bitsOf negative field fraction)).toBitVec := by
  refine ⟨fun h => ?_⟩
  exfalso
  have h := congrArg BitVec.toNat h
  have ones : (-BitVec.ofNat Float.Model.Format.binary64.exponentBits 1).toNat = lastField := by
    decide
  have bits : (UInt64.ofNat (bitsOf negative field fraction)).toBitVec.toNat
      = bitsOf negative field fraction := toNat_bitsOf hf hm negative
  rw [toNat_unpackExponent, bits, ones] at h
  simp only [bitsOf, signSize, lastField, fractionSize] at *
  split at h <;> omega

end

/-- The double of a sign, an exponent field and a fraction. -/
def ofParts (negative : Bool) (field fraction : Nat) (hf : field < lastField)
    (hm : fraction < fractionSize) : Float :=
  .ofModel ⟨.ofNat (bitsOf negative field fraction), valid_bitsOf hf hm negative⟩

section

variable {field fraction : Nat} (hf : field < lastField) (hm : fraction < fractionSize)

theorem toNat_toBits_ofParts (negative : Bool) :
    (ofParts negative field fraction hf hm).toBits.toNat = bitsOf negative field fraction :=
  toNat_bitsOf hf hm negative

theorem isNegative_ofParts (negative : Bool) :
    isNegative (ofParts negative field fraction hf hm) = negative := by
  rw [isNegative, toNat_toBits_ofParts]
  simp only [bitsOf, signSize, lastField, fractionSize] at *
  cases negative
  · simp only [Bool.false_eq_true, if_false, decide_eq_false_iff_not]
    omega
  · simp only [if_true, decide_eq_true_eq]
    omega

theorem exponentField_ofParts (negative : Bool) :
    exponentField (ofParts negative field fraction hf hm) = field := by
  rw [exponentField, toNat_toBits_ofParts]
  simp only [bitsOf, signSize, lastField, fractionSize] at *
  split <;> omega

theorem fraction_ofParts (negative : Bool) :
    Number.fraction (ofParts negative field fraction hf hm) = fraction := by
  rw [Number.fraction, toNat_toBits_ofParts]
  simp only [bitsOf, signSize, lastField, fractionSize] at *
  split <;> omega

end

/-! ## 3. Natural numbers -/

/-- One more than the largest natural number below which doubles hold all. -/
def smallBound : Nat := 2 * fractionSize

/-- The place of the highest bit of a natural number. -/
def highest (n : Nat) : Nat := Nat.log2 n

/-- A natural number shifted so that its highest bit stands before the fraction. -/
def shifted (n : Nat) : Nat := n <<< (52 - highest n)

theorem highest_lt {n : Nat} (h : n < smallBound) : highest n < 53 := by
  by_cases h0 : n = 0
  · simp [highest, h0]
  · exact (Nat.log2_lt h0).2 h

theorem fractionSize_le_shifted {n : Nat} (h : n < smallBound) (h0 : n ≠ 0) :
    fractionSize ≤ shifted n := by
  have hk := highest_lt h
  have := Nat.mul_le_mul_right (2 ^ (52 - highest n)) (Nat.log2_self_le h0)
  rw [← Nat.pow_add, show Nat.log2 n + (52 - highest n) = 52 by unfold highest at *; omega] at this
  rwa [shifted, Nat.shiftLeft_eq]

theorem shifted_lt {n : Nat} (h : n < smallBound) : shifted n < smallBound := by
  have hk := highest_lt h
  have : n * 2 ^ (52 - highest n) < 2 ^ (Nat.log2 n + 1) * 2 ^ (52 - highest n) :=
    Nat.mul_lt_mul_of_pos_right Nat.lt_log2_self (Nat.two_pow_pos _)
  rw [← Nat.pow_add,
    show Nat.log2 n + 1 + (52 - highest n) = 53 by unfold highest at *; omega] at this
  rwa [shifted, Nat.shiftLeft_eq]

theorem shifted_sub_lt {n : Nat} (h : n < smallBound) :
    shifted n - fractionSize < fractionSize := by
  have := shifted_lt h
  simp only [smallBound, fractionSize] at *
  omega

/-- A natural number that a double holds exactly.  Its highest bit is not written. -/
def ofSmall (n : Nat) (h : n < smallBound) : Float :=
  if n = 0 then ofParts false 0 0 (by decide) (by decide)
  else
    ofParts false (1023 + highest n) (shifted n - fractionSize)
      (by have := highest_lt h; simp only [lastField]; omega) (shifted_sub_lt h)

end ConfGraph.Number
