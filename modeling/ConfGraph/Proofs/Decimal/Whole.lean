import ConfGraph.Decimal.Reading

/-!
# Whole numbers as doubles

The doubles of natural numbers below `Number.smallBound` are finite, tell the numbers apart, and are
zero for zero only.

* `Number.toInt?_ofNat`: the number is read back.
* `Number.ofNat_inj`: the doubles tell the numbers apart.
-/

namespace ConfGraph.Number

variable {n m : Nat}

theorem toInt?_ofNat (h : n < smallBound) : toInt? (ofNat n) = some (n : Int) := by
  rw [ofNat, dif_pos h, toInt?_ofSmall]

theorem isFinite_ofNat (h : n < smallBound) : isFinite (ofNat n) = true := by
  have hint := toInt?_ofNat h
  cases hfinite : isFinite (ofNat n) with
  | true => rfl
  | false => simp [toInt?, hfinite] at hint

theorem ofBits?_of_isZero {x : Float} (h : isZero x = true) : Binary.ofBits? x.toBits = none := by
  obtain ⟨hfield, hfraction⟩ : exponentField x = 0 ∧ fraction x = 0 := by
    simpa [isZero] using h
  unfold exponentField at hfield
  unfold fraction at hfraction
  simp [Binary.ofBits?, hfield, hfraction, lastField]

theorem isZero_ofNat (h : n < smallBound) : isZero (ofNat n) = true → n = 0 := by
  intro hzero
  have hint := toInt?_ofNat h
  simp only [toInt?, isFinite_ofNat h, ofBits?_of_isZero hzero, Bool.not_true, Bool.false_eq_true,
    if_false, Option.some.injEq] at hint
  omega

theorem ofNat_inj (hn : n < smallBound) (hm : m < smallBound) (h : ofNat n = ofNat m) : n = m := by
  have hint := toInt?_ofNat hn
  rw [h, toInt?_ofNat hm] at hint
  exact (Int.ofNat.inj (Option.some.inj hint)).symm

end ConfGraph.Number
