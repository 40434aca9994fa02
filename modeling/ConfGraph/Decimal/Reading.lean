import ConfGraph.Decimal.Notation

/-!
# Reading decimals

A decimal literal stands for the double nearest to it.  Literals far outside the range of doubles
are decided by their magnitude alone, so that no huge power is ever formed.  All arithmetic is exact,
on natural numbers.

* `Binary.nearest?`: the double nearest to a quotient of natural numbers.
* `Number.ofDecimal`: the double nearest to `m * 10 ^ e`.
* `Number.toInt?`, `Number.toNat?`: the whole number that a double is, if it is one.
* `toInt?_ofSmall`: natural numbers below `Number.smallBound` are read back.
-/

namespace ConfGraph

namespace Binary

/-! ## 1. Rounding -/

/-- The natural number nearest to a quotient; of two equally near the even one. -/
def nearest (num den : Nat) : Nat :=
  let below := num / den
  let rest := 2 * (num % den)
  if rest < den then below else if den < rest then below + 1 else below + below % 2

/-- The numerator and the denominator of a quotient that is divided by `2 ^ k`. -/
def scaled (num den : Nat) (k : Int) : Nat × Nat := (num <<< (-k).toNat, den <<< k.toNat)

/-- Whether a quotient divided by `2 ^ k` is small enough for a mantissa. -/
def fits (num den : Nat) (k : Int) : Bool :=
  (scaled num den k).1 < 2 * Number.fractionSize * (scaled num den k).2

/-- The least exponent with which a double can be near to a quotient, found next to the difference of
the binary logarithms. -/
def exponentFor (num den : Nat) : Int :=
  let k := max ((Nat.log2 num : Int) - Nat.log2 den - 53) (-1074)
  if fits num den k then k else k + 1

/-- **The double nearest to a quotient**, without a bound on the exponent; none if that is zero. -/
def nearest? (num den : Nat) : Option Binary :=
  let k := exponentFor num den
  let m := nearest (scaled num den k).1 (scaled num den k).2
  if m = 0 then none
  else if m < 2 * Number.fractionSize then
    some ⟨m, k, m = Number.fractionSize && -1074 < k⟩
  else some ⟨Number.fractionSize, k + 1, true⟩

end Binary

namespace Number

/-- The double beyond all others. -/
def infinity : Float := 1.0 / 0.0

/-- Zero with a sign. -/
def zeroOf (negative : Bool) : Float := ofParts negative 0 0 lastField_pos fractionSize_pos

/-- Infinity with a sign. -/
def infinityOf (negative : Bool) : Float := if negative then -infinity else infinity

/-- A double with a sign.  The highest bit of a full mantissa counts into the exponent field, where one
less has been written. -/
def ofBinary (negative : Bool) (b : Binary) : Float :=
  let bits := (b.exponent + 1074).toNat * fractionSize + b.mantissa
  if h : bits / fractionSize < lastField then
    ofParts negative (bits / fractionSize) (bits % fractionSize) h (Nat.mod_lt _ fractionSize_pos)
  else infinityOf negative

/-! ## 2. Decimals -/

/-- **The double nearest to `m * 10 ^ e`**, negated if `negative`. -/
def ofDecimal (negative : Bool) (m : Nat) (e : Int) : Float :=
  let size := ((digitsOf m).length : Int) + e
  if m = 0 ∨ size < -400 then zeroOf negative
  else if 400 < size then infinityOf negative
  else
    match Binary.nearest? (m * Nat.pow 10 e.toNat) (Nat.pow 10 (-e).toNat) with
    | none => zeroOf negative
    | some b => ofBinary negative b

/-! ## 3. Whole numbers -/

/-- The double nearest to a natural number. -/
def ofNat (n : Nat) : Float := if h : n < smallBound then ofSmall n h else ofDecimal false n 0

/-- The whole number that a finite double is, as sign and size; `none` if it has a fraction. -/
def toInt? (x : Float) : Option Int :=
  if !isFinite x then none else
  match Binary.ofBits? x.toBits with
  | none => some 0
  | some b =>
    let size := b.mantissa <<< b.exponent.toNat
    let parts := 1 <<< (-b.exponent).toNat
    if size % parts = 0 then
      some (if isNegative x then -(size / parts : Nat) else (size / parts : Nat))
    else none

/-- The natural number that a double is. -/
def toNat? (x : Float) : Option Nat := (toInt? x).bind fun i => if i < 0 then none else some i.toNat

/-! ## 4. Natural numbers are read back -/

theorem toInt?_ofParts {k fraction n : Nat} (hk : 1023 + k < lastField)
    (hf : fraction < fractionSize) (hk' : k < 53) (h : fractionSize + fraction = n <<< (52 - k)) :
    toInt? (ofParts false (1023 + k) fraction hk hf) = some (n : Int) := by
  have hfield := exponentField_ofParts hk hf false
  have hfraction := fraction_ofParts hk hf false
  have hfin : isFinite (ofParts false (1023 + k) fraction hk hf) = true := by
    simp only [isFinite, hfield, bne_iff_ne]
    exact Nat.ne_of_lt hk
  have hbin : Binary.ofBits? (ofParts false (1023 + k) fraction hk hf).toBits
      = some ⟨n <<< (52 - k), (k : Int) - 52, fraction = 0 && 1 < 1023 + k⟩ := by
    unfold exponentField at hfield
    unfold Number.fraction at hfraction
    simp only [Binary.ofBits?, hfield, hfraction]
    rw [if_neg (Nat.ne_of_lt hk), if_neg (by omega), h,
      show (1023 + k : Nat) - (1075 : Int) = k - 52 by omega]
  have e1 : ((k : Int) - 52).toNat = 0 := by omega
  have e2 : (-((k : Int) - 52)).toNat = 52 - k := by omega
  have e3 : n <<< (52 - k) / 1 <<< (52 - k) = n := by
    rw [Nat.shiftLeft_eq, Nat.one_shiftLeft, Nat.mul_div_cancel _ (Nat.two_pow_pos _)]
  have e4 : n <<< (52 - k) % 1 <<< (52 - k) = 0 := by
    rw [Nat.shiftLeft_eq, Nat.one_shiftLeft, Nat.mul_mod_left]
  simp only [toInt?, hfin, hbin, isNegative_ofParts, e1, e2, e3, e4, Nat.shiftLeft_zero,
    Bool.not_true, Bool.false_eq_true, if_false, if_true]

/-- **Natural numbers below `Number.smallBound` are read back.** -/
theorem toInt?_ofSmall {n : Nat} (h : n < smallBound) : toInt? (ofSmall n h) = some (n : Int) := by
  unfold ofSmall
  split
  · next h0 => subst h0; rfl
  · next h0 =>
    have := fractionSize_le_shifted h h0
    exact toInt?_ofParts _ _ (highest_lt h) (Nat.add_sub_cancel' this)

end Number

end ConfGraph
