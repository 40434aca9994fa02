import ConfGraph.Decimal.Shortest
import Mathlib.Algebra.Order.Field.Rat
import Mathlib.Algebra.Order.Field.Power
import Mathlib.Tactic.FieldSimp
import Mathlib.Tactic.Linarith
import Mathlib.Tactic.NormNum
import Mathlib.Tactic.Positivity
import Mathlib.Tactic.Ring

/-!
# The reals that round to a double

A double stands for the reals between the two points half-way to its neighbours, and for these points
too when its mantissa is even.  The shortest decimal of a double is one of them, whichever grid it is
found on; and no real rounds to two doubles, since of two that touch one mantissa is odd.

* `Binary.Rounds`: the reals that round to a double.
* `Binary.Canonical`: the doubles that bits can give.
* `Binary.rounds_shortest`: the shortest decimal rounds to its double.
* `Binary.eq_of_rounds`: no real rounds to two doubles.
-/

namespace ConfGraph

/-- The number that a decimal stands for. -/
def Decimal.value (x : Decimal) : ℚ :=
  x.digits * 10 ^ (x.point - ((digitsOf x.digits).length : Int))

namespace Binary

variable {b b' : Binary} {g : Int} {n : Nat} {q : ℚ}

/-! ## 1. The interval of a double -/

/-- The exact value. -/
def value (b : Binary) : ℚ := b.mantissa * 2 ^ b.exponent

/-- The point half-way to the double below. -/
def low (b : Binary) : ℚ := (b.mantissa - if b.narrow then 1 / 4 else 1 / 2) * 2 ^ b.exponent

/-- The point half-way to the double above. -/
def high (b : Binary) : ℚ := (b.mantissa + 1 / 2) * 2 ^ b.exponent

/-- Whether a real rounds to the double: the ends do when the mantissa is even. -/
def Rounds (b : Binary) (q : ℚ) : Prop :=
  if b.mantissa % 2 = 0 then b.low ≤ q ∧ q ≤ b.high else b.low < q ∧ q < b.high

theorem Rounds.low_le (h : b.Rounds q) : b.low ≤ q := by
  unfold Rounds at h
  split at h
  · exact h.1
  · exact h.1.le

theorem Rounds.le_high (h : b.Rounds q) : q ≤ b.high := by
  unfold Rounds at h
  split at h
  · exact h.2
  · exact h.2.le

theorem Rounds.lt_of_odd (h : b.Rounds q) (hodd : b.mantissa % 2 ≠ 0) : b.low < q ∧ q < b.high := by
  unfold Rounds at h
  rwa [if_neg hodd] at h

theorem two_zpow_pos (e : Int) : (0 : ℚ) < 2 ^ e := by positivity

theorem rounds_value (b : Binary) : b.Rounds b.value := by
  have hpos := two_zpow_pos b.exponent
  have hlow : b.low < b.value := by
    unfold low value
    refine mul_lt_mul_of_pos_right ?_ hpos
    split <;> linarith
  have hhigh : b.value < b.high := by
    unfold high value
    exact mul_lt_mul_of_pos_right (by linarith) hpos
  unfold Rounds
  split
  · exact ⟨hlow.le, hhigh.le⟩
  · exact ⟨hlow, hhigh⟩

/-! ## 2. The scaled comparison -/

/-- What the comparison multiplies with, so that all it compares is whole. -/
def scale (b : Binary) (g : Int) : ℚ := 4 * 10 ^ (-g).toNat * 2 ^ (-b.exponent).toNat

theorem scale_pos (b : Binary) (g : Int) : 0 < b.scale g := by
  unfold scale
  positivity

theorem pow_toNat {a : ℚ} (ha : a ≠ 0) (e : Int) :
    a ^ e.toNat = a ^ e * a ^ (-e).toNat := by
  rw [← zpow_natCast, ← zpow_natCast, ← zpow_add₀ ha]
  congr 1
  omega

theorem centre_eq (b : Binary) (g : Int) : (b.centre g : ℚ) = b.value * b.scale g := by
  have h2 := pow_toNat (a := 2) (by norm_num) b.exponent
  simp only [centre, value, scale, Nat.shiftLeft_eq, Nat.pow_eq]
  push_cast
  rw [h2]
  ring

theorem quarter_eq (b : Binary) (g : Int) :
    (b.quarter g : ℚ) = 2 ^ b.exponent / 4 * b.scale g := by
  have h2 := pow_toNat (a := 2) (by norm_num) b.exponent
  simp only [quarter, scale, Nat.shiftLeft_eq, Nat.pow_eq]
  push_cast
  rw [h2]
  ring

theorem gridPoint_eq (b : Binary) (g : Int) (n : Nat) :
    (b.gridPoint g n : ℚ) = n * 10 ^ g * b.scale g := by
  have h10 := pow_toNat (a := 10) (by norm_num) g
  simp only [gridPoint, scale, Nat.shiftLeft_eq, Nat.pow_eq]
  push_cast
  rw [h10]
  ring

/-- The interval's lower end does not go below zero, so nothing is cut off in the comparison. -/
theorem low_eq (hpos : 0 < b.mantissa) :
    ((b.centre g - (if b.narrow then 1 else 2) * b.quarter g : Nat) : ℚ) = b.low * b.scale g := by
  have hle : (if b.narrow then 1 else 2) * b.quarter g ≤ b.centre g := by
    have hfour : 4 * b.quarter g ≤ b.centre g := by
      simp only [quarter, centre, Nat.shiftLeft_eq, ← Nat.mul_assoc]
      refine Nat.mul_le_mul_right _ (Nat.mul_le_mul_right _ ?_)
      omega
    split <;> omega
  rw [Nat.cast_sub hle, Nat.cast_mul, centre_eq, quarter_eq, low, value]
  split <;> (push_cast; ring)

theorem high_eq : ((b.centre g + 2 * b.quarter g : Nat) : ℚ) = b.high * b.scale g := by
  push_cast
  rw [centre_eq, quarter_eq, high, value]
  ring

/-- **A grid point that reads back rounds to the double.** -/
theorem rounds_of_readsBack (hpos : 0 < b.mantissa) (h : b.readsBack g n = true) :
    b.Rounds (n * 10 ^ g) := by
  have hscale := b.scale_pos g
  have hlow := low_eq (g := g) hpos
  have hhigh := high_eq (b := b) (g := g)
  have hpoint := b.gridPoint_eq g n
  unfold readsBack at h
  unfold Rounds
  by_cases heven : b.mantissa % 2 = 0
  · simp only [heven, if_true, Bool.and_eq_true, decide_eq_true_eq] at h
    rw [if_pos heven]
    have hlow' := (Nat.cast_le (α := ℚ)).mpr h.1
    have hhigh' := (Nat.cast_le (α := ℚ)).mpr h.2
    rw [hlow, hpoint] at hlow'
    rw [hhigh, hpoint] at hhigh'
    exact ⟨le_of_mul_le_mul_right hlow' hscale, le_of_mul_le_mul_right hhigh' hscale⟩
  · simp only [heven, if_false, Bool.and_eq_true, decide_eq_true_eq] at h
    rw [if_neg heven]
    have hlow' := (Nat.cast_lt (α := ℚ)).mpr h.1
    have hhigh' := (Nat.cast_lt (α := ℚ)).mpr h.2
    rw [hlow, hpoint] at hlow'
    rw [hhigh, hpoint] at hhigh'
    exact ⟨lt_of_mul_lt_mul_right hlow' hscale.le, lt_of_mul_lt_mul_right hhigh' hscale.le⟩

/-! ## 3. The shortest decimal -/

/-- A point that is picked on a grid reads back, and is not zero. -/
theorem readsBack_of_onGrid? (h : b.onGrid? g = some n) : b.readsBack g n = true ∧ 0 < n := by
  have hbelow : (b.readsBack g (b.centre g / b.gridPoint g 1)
        && b.centre g / b.gridPoint g 1 != 0) = true →
      b.readsBack g (b.centre g / b.gridPoint g 1) = true ∧
        0 < b.centre g / b.gridPoint g 1 := by
    intro hand
    obtain ⟨hread, hne⟩ := Bool.and_eq_true_iff.mp hand
    exact ⟨hread, Nat.pos_of_ne_zero (bne_iff_ne.mp hne)⟩
  unfold onGrid? at h
  simp only at h
  split at h
  · exact nomatch h
  · next hleft _ => exact Option.some.inj h ▸ hbelow hleft
  · next hright => exact Option.some.inj h ▸ ⟨hright, Nat.succ_pos _⟩
  · next hleft hright =>
    split at h
    · exact Option.some.inj h ▸ hbelow hleft
    · split at h
      · exact Option.some.inj h ▸ ⟨hright, Nat.succ_pos _⟩
      · split at h
        · exact Option.some.inj h ▸ hbelow hleft
        · exact Option.some.inj h ▸ ⟨hright, Nat.succ_pos _⟩

theorem onGrid?_of_coarsest? {k : Int} {count : Nat} {p : Nat × Int}
    (h : b.coarsest? k count = some p) : b.onGrid? p.2 = some p.1 := by
  obtain ⟨i, -, hi⟩ := List.exists_of_findSome?_eq_some h
  obtain ⟨digits, hdigits, rfl⟩ := Option.map_eq_some_iff.mp hi
  exact hdigits

theorem value_of_grid (digits : Nat) (g : Int) :
    Decimal.value ⟨digits, (digitsOf digits).length + g⟩ = digits * 10 ^ g := by
  rw [Decimal.value, add_sub_cancel_left]

theorem value_exact (b : Binary) : b.exact.value = b.value := by
  have h2 := pow_toNat (a := 2) (by norm_num) b.exponent
  have h10 : (10 : ℚ) ^ (-((-b.exponent).toNat : Int))
      = ((5 : ℚ) ^ (-b.exponent).toNat)⁻¹ * (2 ^ (-b.exponent).toNat)⁻¹ := by
    rw [zpow_neg, zpow_natCast, ← mul_inv, ← mul_pow]
    norm_num
  have hfive : (5 : ℚ) ^ (-b.exponent).toNat ≠ 0 := by positivity
  have htwo : (2 : ℚ) ^ (-b.exponent).toNat ≠ 0 := by positivity
  unfold exact
  simp only
  rw [Int.sub_eq_add_neg, value_of_grid, h10, value, Nat.shiftLeft_eq, Nat.pow_eq]
  push_cast
  rw [h2]
  field_simp

/-- **The shortest decimal rounds to its double**, and is above zero. -/
theorem rounds_shortest (hpos : 0 < b.mantissa) :
    b.Rounds b.shortest.value ∧ 0 < b.shortest.digits := by
  unfold shortest
  split
  · next digits g hcoarsest =>
    obtain ⟨hread, hdigits⟩ := readsBack_of_onGrid? (onGrid?_of_coarsest? hcoarsest)
    rw [value_of_grid]
    exact ⟨rounds_of_readsBack hpos hread, hdigits⟩
  · rw [value_exact]
    refine ⟨b.rounds_value, ?_⟩
    unfold exact
    simp only [Nat.shiftLeft_eq, Nat.pow_eq]
    positivity

/-! ## 4. No real rounds to two doubles -/

/-- The doubles that bits can give: the mantissa is full unless the exponent is the least, and the
neighbour below a power of two is nearer unless the exponent is the least. -/
structure Canonical (b : Binary) : Prop where
  pos : 0 < b.mantissa
  lt : b.mantissa < 2 * Number.fractionSize
  least : -1074 ≤ b.exponent
  full : -1074 < b.exponent → Number.fractionSize ≤ b.mantissa
  narrow : b.narrow = true ↔ b.mantissa = Number.fractionSize ∧ -1074 < b.exponent

/-- An exponent field of zero stands for the least exponent, and nothing is added to the fraction. -/
theorem canonical_of_subnormal {fraction : Nat} (hne : fraction ≠ 0)
    (hlt : fraction < Number.fractionSize) : Canonical ⟨fraction, -1074, false⟩ where
  pos := Nat.pos_of_ne_zero hne
  lt := hlt.trans (by decide)
  least := Int.le_refl _
  full := fun hexponent => absurd hexponent (Int.lt_irrefl _)
  narrow := by simp

theorem canonical_of_normal {field fraction : Nat} (hne : field ≠ 0)
    (hlt : fraction < Number.fractionSize) :
    Canonical ⟨Number.fractionSize + fraction, (field : Int) - 1075,
      fraction = 0 && 1 < field⟩ where
  pos := Nat.add_pos_left (by decide) _
  lt := by
    rw [Nat.two_mul]
    exact Nat.add_lt_add_left hlt _
  least := by
    show (-1074 : Int) ≤ (field : Int) - 1075
    omega
  full := fun _ => Nat.le_add_right _ _
  narrow := by
    show (fraction = 0 && 1 < field) = true ↔
      Number.fractionSize + fraction = Number.fractionSize ∧ -1074 < (field : Int) - 1075
    simp only [Bool.and_eq_true, decide_eq_true_eq]
    omega

theorem canonical_of_ofBits? {bits : UInt64} (h : ofBits? bits = some b) : b.Canonical := by
  have hlt := Nat.mod_lt bits.toNat Number.fractionSize_pos
  unfold ofBits? at h
  simp only at h
  split at h
  · exact nomatch h
  · split at h
    · split at h
      · exact nomatch h
      · next hne => exact Option.some.inj h ▸ canonical_of_subnormal hne hlt
    · next hne => exact Option.some.inj h ▸ canonical_of_normal hne hlt

/-- One double is below another: its exponent is less, or else its mantissa. -/
def Below (b b' : Binary) : Prop :=
  b.exponent < b'.exponent ∨ b.exponent = b'.exponent ∧ b.mantissa < b'.mantissa

/-- Even the nearer neighbour below is half a step away at most. -/
theorem half_le_low (b : Binary) : (b.mantissa - 1 / 2) * 2 ^ b.exponent ≤ b.low := by
  unfold low
  refine mul_le_mul_of_nonneg_right ?_ (two_zpow_pos _).le
  split <;> linarith

theorem two_zpow_step {e e' : Int} (h : e < e') : 2 * (2 : ℚ) ^ e ≤ 2 ^ e' := by
  rw [← zpow_one_add₀ (by norm_num)]
  exact zpow_le_zpow_right₀ (by norm_num) (by omega)

/-- A power of two has its nearer neighbour below: the interval begins a quarter of a step down, which
is half a step of the exponent before. -/
theorem reach_of_power (hb' : b'.Canonical) (hleast : -1074 < b'.exponent)
    (hpower : b'.mantissa = Number.fractionSize) (h : b.exponent < b'.exponent) :
    (2 * (Number.fractionSize : ℚ) - 1 / 2) * 2 ^ b.exponent ≤ b'.low := by
  have hsize : (1 : ℚ) ≤ Number.fractionSize := by norm_num [Number.fractionSize]
  have hlow : b'.low = (Number.fractionSize - 1 / 4) * 2 ^ b'.exponent := by
    rw [low, if_pos (hb'.narrow.mpr ⟨hpower, hleast⟩), hpower]
  rw [hlow]
  calc (2 * (Number.fractionSize : ℚ) - 1 / 2) * 2 ^ b.exponent
      = (Number.fractionSize - 1 / 4) * (2 * 2 ^ b.exponent) := by ring
    _ ≤ (Number.fractionSize - 1 / 4) * 2 ^ b'.exponent :=
        mul_le_mul_of_nonneg_left (two_zpow_step h) (by linarith)

/-- Above a power of two the interval begins further up. -/
theorem reach_of_above (habove : Number.fractionSize < b'.mantissa) (h : b.exponent < b'.exponent) :
    (2 * (Number.fractionSize : ℚ) + 1) * 2 ^ b.exponent ≤ b'.low := by
  have hsucc : (Number.fractionSize : ℚ) + 1 ≤ b'.mantissa := by exact_mod_cast habove
  have hsize : (0 : ℚ) ≤ Number.fractionSize := Nat.cast_nonneg _
  refine le_trans ?_ b'.half_le_low
  calc (2 * (Number.fractionSize : ℚ) + 1) * 2 ^ b.exponent
      = (Number.fractionSize + 1 / 2) * (2 * 2 ^ b.exponent) := by ring
    _ ≤ (Number.fractionSize + 1 / 2) * 2 ^ b'.exponent :=
        mul_le_mul_of_nonneg_left (two_zpow_step h) (by linarith)
    _ ≤ (b'.mantissa - 1 / 2) * 2 ^ b'.exponent :=
        mul_le_mul_of_nonneg_right (by linarith) (two_zpow_pos _).le

/-- A step of the exponent doubles the distances, so only at a power of two do the intervals touch, and
there the mantissa below is odd. -/
theorem high_le_low_of_exponent (hb : b.Canonical) (hb' : b'.Canonical)
    (h : b.exponent < b'.exponent) :
    b.high ≤ b'.low ∧
      (b.mantissa % 2 = 0 → b'.mantissa % 2 = 0 → b.high < b'.low) := by
  have hu := two_zpow_pos b.exponent
  have hleast : -1074 < b'.exponent := lt_of_le_of_lt hb.least h
  have hlt : (b.mantissa : ℚ) + 1 ≤ 2 * Number.fractionSize := by exact_mod_cast hb.lt
  obtain hpower | habove := Nat.eq_or_lt_of_le (hb'.full hleast)
  · have hreach := reach_of_power hb' hleast hpower.symm h
    unfold high
    refine ⟨?_, fun heven _ => ?_⟩
    · refine le_trans ?_ hreach
      exact mul_le_mul_of_nonneg_right (by linarith) hu.le
    · have hgap : (b.mantissa : ℚ) + 2 ≤ 2 * Number.fractionSize := by
        have hlt' := hb.lt
        exact_mod_cast (by omega : b.mantissa + 2 ≤ 2 * Number.fractionSize)
      refine lt_of_lt_of_le ?_ hreach
      exact mul_lt_mul_of_pos_right (by linarith) hu
  · have hapart : b.high < b'.low := by
      refine lt_of_lt_of_le ?_ (reach_of_above habove h)
      exact mul_lt_mul_of_pos_right (by linarith) hu
    exact ⟨hapart.le, fun _ _ => hapart⟩

/-- **Doubles in order have their intervals in order**, and where these touch one of the mantissas is
odd. -/
theorem high_le_low (hb : b.Canonical) (hb' : b'.Canonical) (h : Below b b') :
    b.high ≤ b'.low ∧
      (b.mantissa % 2 = 0 → b'.mantissa % 2 = 0 → b.high < b'.low) := by
  have hu := two_zpow_pos b.exponent
  obtain hexponent | ⟨hexponent, hmantissa⟩ := h
  · exact high_le_low_of_exponent hb hb' hexponent
  · have hlow := b'.half_le_low
    have hsucc : (b.mantissa : ℚ) + 1 ≤ b'.mantissa := by exact_mod_cast hmantissa
    rw [← hexponent] at hlow
    unfold high
    refine ⟨?_, fun heven heven' => ?_⟩
    · refine le_trans ?_ hlow
      exact mul_le_mul_of_nonneg_right (by linarith) hu.le
    · have hgap : (b.mantissa : ℚ) + 2 ≤ b'.mantissa := by exact_mod_cast (by omega)
      refine lt_of_lt_of_le ?_ hlow
      exact mul_lt_mul_of_pos_right (by linarith) hu

theorem eq_of_not_below (hb : b.Canonical) (hb' : b'.Canonical) (h : ¬ Below b b')
    (h' : ¬ Below b' b) : b = b' := by
  have hexponent : b.exponent = b'.exponent := by unfold Below at h h'; omega
  have hmantissa : b.mantissa = b'.mantissa := by unfold Below at h h'; omega
  have hnarrow : b.narrow = b'.narrow := by
    rw [Bool.eq_iff_iff, hb.narrow, hb'.narrow, hexponent, hmantissa]
  obtain ⟨m, e, w⟩ := b
  obtain ⟨m', e', w'⟩ := b'
  simp_all

theorem not_below_of_rounds (hb : b.Canonical) (hb' : b'.Canonical) (hq : b.Rounds q)
    (hq' : b'.Rounds q) : ¬ Below b b' := by
  intro hbelow
  obtain ⟨htouch, hapart⟩ := high_le_low hb hb' hbelow
  have hle := hq.le_high
  have hle' := hq'.low_le
  by_cases heven : b.mantissa % 2 = 0
  · by_cases heven' : b'.mantissa % 2 = 0
    · have hlt := hapart heven heven'
      linarith
    · have hlt := (hq'.lt_of_odd heven').1
      linarith
  · have hlt := (hq.lt_of_odd heven).2
    linarith

/-- **No real rounds to two doubles.** -/
theorem eq_of_rounds (hb : b.Canonical) (hb' : b'.Canonical) (hq : b.Rounds q)
    (hq' : b'.Rounds q) : b = b' :=
  eq_of_not_below hb hb' (not_below_of_rounds hb hb' hq hq') (not_below_of_rounds hb' hb hq' hq)

end Binary

end ConfGraph
