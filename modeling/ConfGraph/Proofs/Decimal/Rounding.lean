import ConfGraph.Proofs.Decimal.Text

/-!
# What rounds to a double is read as it

Reading looks for the least exponent with which the mantissa of a quotient is small enough, and takes
the nearest mantissa with it.  What comes of that is a double to which the quotient rounds; and since no
real rounds to two doubles, a quotient that rounds to a double is read as this one.

* `Binary.NearTo`, `Binary.nearTo_nearest`: the nearest natural number is half away at most.
* `Binary.lt_exponentFor`, `Binary.le_exponentFor`: the mantissa is small enough, and full.
* `Binary.nearest?_of_rounds`: a quotient that rounds to a double is rounded to it.
* `Number.ofDecimal_of_rounds`: a decimal that rounds to a double is read as this double.
-/

namespace ConfGraph

namespace Binary

variable {num den n : Nat} {k : Int} {b : Binary} {q : ℚ}

/-! ## 1. Nearest natural numbers -/

/-- A natural number is half away from a real at most, and less than that if it is odd. -/
def NearTo (n : Nat) (q : ℚ) : Prop :=
  if n % 2 = 0 then n - 1 / 2 ≤ q ∧ q ≤ n + 1 / 2 else n - 1 / 2 < q ∧ q < n + 1 / 2

theorem NearTo.of_lt (h : n - 1 / 2 < q ∧ q < n + 1 / 2) : NearTo n q := by
  unfold NearTo
  split
  · exact ⟨h.1.le, h.2.le⟩
  · exact h

theorem NearTo.le (h : NearTo n q) : n - 1 / 2 ≤ q ∧ q ≤ n + 1 / 2 := by
  unfold NearTo at h
  split at h
  · exact h
  · exact ⟨h.1.le, h.2.le⟩

theorem nearTo_nearest (num : Nat) (hden : 0 < den) : NearTo (nearest num den) (num / den) := by
  have hpos : (0 : ℚ) < den := by exact_mod_cast hden
  have hsplit : (num : ℚ) / den = (num / den : Nat) + (num % den : Nat) / (den : ℚ) := by
    field_simp
    exact_mod_cast (Nat.div_add_mod num den).symm
  have hnonneg : (0 : ℚ) ≤ (num % den : Nat) / (den : ℚ) := by positivity
  rw [hsplit]
  unfold nearest
  dsimp only
  split
  · next hbelow =>
    have hhalf : ((num % den : Nat) : ℚ) / den < 1 / 2 := by
      rw [div_lt_div_iff₀ hpos (by norm_num)]
      exact_mod_cast (by omega : num % den * 2 < 1 * den)
    exact .of_lt ⟨by linarith, by linarith⟩
  · split
    · next habove =>
      have hhalf : 1 / 2 < ((num % den : Nat) : ℚ) / den := by
        rw [div_lt_div_iff₀ (by norm_num) hpos]
        exact_mod_cast (by omega : 1 * den < num % den * 2)
      have hone : ((num % den : Nat) : ℚ) / den < 1 := by
        rw [div_lt_one hpos]
        exact_mod_cast Nat.mod_lt _ hden
      refine .of_lt ⟨?_, ?_⟩
      · push_cast
        linarith
      · push_cast
        linarith
    · -- Half-way, the even one of the two is taken.
      next hbelow habove =>
      have hhalf : ((num % den : Nat) : ℚ) / den = 1 / 2 := by
        rw [div_eq_div_iff hpos.ne' (by norm_num)]
        exact_mod_cast (by omega : num % den * 2 = 1 * den)
      rw [hhalf]
      have heven : (num / den + num / den % 2) % 2 = 0 := by omega
      unfold NearTo
      rw [if_pos heven]
      rcases Nat.mod_two_eq_zero_or_one (num / den) with h | h
      · rw [h]
        push_cast
        exact ⟨by linarith, by linarith⟩
      · rw [h]
        push_cast
        exact ⟨by linarith, by linarith⟩

/-! ## 2. The exponent -/

theorem scaled_eq (num : Nat) (hden : 0 < den) (k : Int) :
    ((scaled num den k).1 : ℚ) / (scaled num den k).2 = num / den / 2 ^ k := by
  have h2 := pow_toNat (a := 2) (by norm_num) k
  have hpos : (0 : ℚ) < den := by exact_mod_cast hden
  have hpow := two_zpow_pos k
  simp only [scaled, Nat.shiftLeft_eq]
  push_cast
  rw [h2]
  field_simp

theorem scaled_pos (num : Nat) (hden : 0 < den) (k : Int) : 0 < (scaled num den k).2 := by
  simp only [scaled, Nat.shiftLeft_eq]
  positivity

theorem fits_iff (num : Nat) (hden : 0 < den) (k : Int) :
    fits num den k = true ↔ (num : ℚ) / den / 2 ^ k < 2 * Number.fractionSize := by
  have hpos : (0 : ℚ) < (scaled num den k).2 := by exact_mod_cast scaled_pos num hden k
  rw [fits, decide_eq_true_eq, ← scaled_eq num hden, div_lt_iff₀ hpos]
  exact_mod_cast Iff.rfl

/-- A quotient is between two powers of two. -/
theorem quotient_bounds (hnum : num ≠ 0) (hden : den ≠ 0) :
    (2 : ℚ) ^ ((Nat.log2 num : Int) - Nat.log2 den - 1) < num / den ∧
      (num : ℚ) / den < 2 ^ ((Nat.log2 num : Int) - Nat.log2 den + 1) := by
  have hpos : (0 : ℚ) < den := by exact_mod_cast Nat.pos_of_ne_zero hden
  have htwo : (2 : ℚ) ≠ 0 := by norm_num
  have hlow : ((2 : ℚ) ^ Nat.log2 num) ≤ num := by exact_mod_cast Nat.log2_self_le hnum
  have hhigh : (num : ℚ) < 2 ^ (Nat.log2 num + 1) := by exact_mod_cast Nat.lt_log2_self
  have hlow' : ((2 : ℚ) ^ Nat.log2 den) ≤ den := by exact_mod_cast Nat.log2_self_le hden
  have hhigh' : (den : ℚ) < 2 ^ (Nat.log2 den + 1) := by exact_mod_cast Nat.lt_log2_self
  constructor
  · rw [lt_div_iff₀ hpos]
    calc (2 : ℚ) ^ ((Nat.log2 num : Int) - Nat.log2 den - 1) * den
        < 2 ^ ((Nat.log2 num : Int) - Nat.log2 den - 1) * 2 ^ (Nat.log2 den + 1) :=
          mul_lt_mul_of_pos_left hhigh' (two_zpow_pos _)
      _ = 2 ^ Nat.log2 num := by
          rw [← zpow_natCast, ← zpow_natCast, ← zpow_add₀ htwo]
          congr 1
          push_cast
          ring
      _ ≤ num := hlow
  · rw [div_lt_iff₀ hpos]
    calc (num : ℚ) < 2 ^ (Nat.log2 num + 1) := hhigh
      _ = 2 ^ ((Nat.log2 num : Int) - Nat.log2 den + 1) * 2 ^ Nat.log2 den := by
          rw [← zpow_natCast, ← zpow_natCast, ← zpow_add₀ htwo]
          congr 1
          push_cast
          ring
      _ ≤ 2 ^ ((Nat.log2 num : Int) - Nat.log2 den + 1) * den :=
          mul_le_mul_of_nonneg_left hlow' (two_zpow_pos _).le

theorem fractionSize_eq : (Number.fractionSize : ℚ) = 2 ^ (52 : Int) := by
  norm_num [Number.fractionSize]

/-- The first exponent that is tried. -/
theorem exponentFor_cases (num den : Nat) : ∃ k, (Nat.log2 num : Int) - Nat.log2 den - 53 ≤ k ∧
    -1074 ≤ k ∧ (-1074 < k → k = (Nat.log2 num : Int) - Nat.log2 den - 53) ∧
    exponentFor num den = if fits num den k then k else k + 1 :=
  ⟨max ((Nat.log2 num : Int) - Nat.log2 den - 53) (-1074), by omega, by omega, by omega, rfl⟩

theorem exponentFor_least (num den : Nat) : -1074 ≤ exponentFor num den := by
  obtain ⟨k, -, hk, -, heq⟩ := exponentFor_cases num den
  rw [heq]
  split <;> omega

section

variable (hnum : num ≠ 0) (hden : 0 < den)
include hnum hden

/-- **The mantissa is small enough.** -/
theorem lt_exponentFor : (num : ℚ) / den / 2 ^ exponentFor num den < 2 * Number.fractionSize := by
  obtain ⟨k, hlog, -, -, heq⟩ := exponentFor_cases num den
  rw [heq]
  split
  · next hfits => exact (fits_iff num hden k).mp hfits
  · obtain ⟨-, hhigh⟩ := quotient_bounds hnum hden.ne'
    rw [div_lt_iff₀ (two_zpow_pos _), fractionSize_eq, ← zpow_one_add₀ (by norm_num),
      ← zpow_add₀ (by norm_num)]
    exact hhigh.trans_le (zpow_le_zpow_right₀ (by norm_num) (by omega))

/-- **The mantissa is full**, unless the exponent is the least. -/
theorem le_exponentFor (h : -1074 < exponentFor num den) :
    (Number.fractionSize : ℚ) ≤ num / den / 2 ^ exponentFor num den := by
  obtain ⟨k, -, hleast, hlog, heq⟩ := exponentFor_cases num den
  rw [heq] at h ⊢
  split at h
  · next hfits =>
    rw [if_pos hfits]
    obtain ⟨hlow, -⟩ := quotient_bounds hnum hden.ne'
    rw [le_div_iff₀ (two_zpow_pos _), fractionSize_eq, ← zpow_add₀ (by norm_num), hlog h]
    refine le_of_eq_of_le ?_ hlow.le
    congr 1
    omega
  · next hfits =>
    have hlarge := not_lt.mp (mt (fits_iff num hden k).mpr hfits)
    rw [if_neg hfits, zpow_add_one₀ (by norm_num), ← div_div, le_div_iff₀ (by norm_num)]
    linarith

omit hnum hden in
/-- A mantissa that is near enough makes a double to which a real rounds.  If the double below is the
nearer neighbour, the real must not be below the mantissa. -/
theorem rounds_of_nearTo {x : ℚ} {narrow : Bool} (h : NearTo n x) (hnarrow : narrow = true → n ≤ x)
    (k : Int) : Rounds ⟨n, k, narrow⟩ (x * 2 ^ k) := by
  have hu := two_zpow_pos k
  have hlow : low ⟨n, k, narrow⟩ ≤ x * 2 ^ k ∧ (n % 2 ≠ 0 → low ⟨n, k, narrow⟩ < x * 2 ^ k) := by
    unfold low
    cases narrow with
    | true =>
      have hlt := mul_lt_mul_of_pos_right (by linarith [hnarrow rfl] : (n : ℚ) - 1 / 4 < x) hu
      exact ⟨hlt.le, fun _ => hlt⟩
    | false =>
      refine ⟨mul_le_mul_of_nonneg_right h.le.1 hu.le, fun hodd => ?_⟩
      rw [NearTo, if_neg hodd] at h
      exact mul_lt_mul_of_pos_right h.1 hu
  unfold Rounds high
  dsimp only
  split
  · exact ⟨hlow.1, mul_le_mul_of_nonneg_right h.le.2 hu.le⟩
  · next hodd =>
    refine ⟨hlow.2 hodd, ?_⟩
    rw [NearTo, if_neg hodd] at h
    exact mul_lt_mul_of_pos_right h.2 hu

/-! ## 3. The nearest double -/

/-- **What is rounded to a double rounds to it.** -/
theorem rounds_nearest? (h : nearest? num den = some b) :
    b.Canonical ∧ b.Rounds (num / den) := by
  have hsmall := lt_exponentFor hnum hden
  have hfull := le_exponentFor hnum hden
  have hnear := nearTo_nearest (scaled num den (exponentFor num den)).1
    (scaled_pos num hden (exponentFor num den))
  rw [scaled_eq num hden] at hnear
  have hleast := exponentFor_least num den
  unfold nearest? at h
  dsimp only at h
  generalize exponentFor num den = k at *
  generalize nearest (scaled num den k).1 (scaled num den k).2 = m at *
  have hu := two_zpow_pos k
  have hq : (num : ℚ) / den = num / den / 2 ^ k * 2 ^ k := by field_simp
  generalize (num : ℚ) / den / 2 ^ k = x at *
  rw [hq]
  obtain ⟨hle, hle'⟩ := hnear.le
  split at h
  · cases h
  · next hpos =>
    split at h
    · next hlt =>
      obtain rfl := Option.some.inj h
      have hmantissa : -1074 < k → Number.fractionSize ≤ m := by
        intro hk
        have hx := hfull hk
        have hcast : (Number.fractionSize : ℚ) < m + 1 := by linarith
        exact Nat.lt_succ_iff.mp (by exact_mod_cast hcast)
      refine ⟨⟨Nat.pos_of_ne_zero hpos, hlt, hleast, hmantissa, by simp⟩, ?_⟩
      refine rounds_of_nearTo hnear (fun hnarrow => ?_) k
      obtain ⟨rfl, hk⟩ : m = Number.fractionSize ∧ -1074 < k := by simpa using hnarrow
      exact hfull hk
    · next hlt =>
      obtain rfl := Option.some.inj h
      have hm : m = 2 * Number.fractionSize := by
        have hcast : (m : ℚ) < 2 * Number.fractionSize + 1 := by linarith
        have hm := Nat.lt_succ_iff.mp (by exact_mod_cast hcast)
        omega
      have hpos := Number.fractionSize_pos
      have hcanonical : Canonical ⟨Number.fractionSize, k + 1, true⟩ := by
        refine ⟨hpos, lt_two_mul_self hpos, ?_, fun _ => le_rfl, ?_⟩
        · show (-1074 : Int) ≤ k + 1
          omega
        · simp only [true_iff, true_and]
          omega
      -- The mantissa has been rounded up to the next power of two, the half of which is full.
      have hhalf : x * 2 ^ k = x / 2 * 2 ^ (k + 1) := by
        rw [zpow_add_one₀ (by norm_num)]
        ring
      rw [hm] at hle hle'
      push_cast at hle hle'
      refine ⟨hcanonical, ?_⟩
      rw [hhalf]
      have hu' := (two_zpow_pos (k + 1)).le
      have heven : Number.fractionSize % 2 = 0 := by decide
      unfold Rounds low high
      rw [if_pos heven]
      exact ⟨mul_le_mul_of_nonneg_right (by simp only [if_true]; linarith) hu',
        mul_le_mul_of_nonneg_right (by linarith) hu'⟩

/-- What is rounded to nothing rounds to no double. -/
theorem not_rounds_of_nearest?_eq_none (h : nearest? num den = none) (hb : b.Canonical) :
    ¬ b.Rounds (num / den) := by
  intro hrounds
  have hfull := le_exponentFor hnum hden
  have hnear := nearTo_nearest (scaled num den (exponentFor num den)).1
    (scaled_pos num hden (exponentFor num den))
  rw [scaled_eq num hden] at hnear
  have hleast := exponentFor_least num den
  unfold nearest? at h
  dsimp only at h
  generalize exponentFor num den = k at *
  generalize nearest (scaled num den k).1 (scaled num den k).2 = m at *
  split at h
  · next hzero =>
    obtain ⟨-, hle⟩ := hnear.le
    rw [hzero, Nat.cast_zero, zero_add] at hle
    obtain rfl : k = -1074 := by
      by_contra hk
      have hx := (hfull (by omega)).trans hle
      norm_num [Number.fractionSize] at hx
    rw [div_le_iff₀ (two_zpow_pos _)] at hle
    have hhalf := b.half_le_low
    have hexponent : (2 : ℚ) ^ (-1074 : Int) ≤ 2 ^ b.exponent :=
      zpow_le_zpow_right₀ (by norm_num) hb.least
    have hu := two_zpow_pos (-1074)
    by_cases hone : b.mantissa = 1
    · have hlow := (hrounds.lt_of_odd (by rw [hone]; decide)).1
      rw [hone] at hhalf
      push_cast at hhalf
      linarith
    · have htwo : (2 : ℚ) ≤ b.mantissa := by
        have hpos := hb.pos
        exact_mod_cast (by omega : 2 ≤ b.mantissa)
      have hlow := hrounds.low_le
      nlinarith
  · split at h <;> cases h

/-- **A quotient that rounds to a double is rounded to it.** -/
theorem nearest?_of_rounds (hb : b.Canonical) (h : b.Rounds (num / den)) :
    nearest? num den = some b := by
  cases hnearest : nearest? num den with
  | none => exact absurd h (not_rounds_of_nearest?_eq_none hnum hden hnearest hb)
  | some b' =>
    obtain ⟨hb', h'⟩ := rounds_nearest? hnum hden hnearest
    rw [eq_of_rounds hb hb' h h']

end

end Binary

namespace Number

variable {x : Float} {b : Binary}

/-! ## 4. Doubles that are written -/

/-- The bits of a finite double are told by its mantissa and its exponent. -/
theorem bits_of_ofBits? (h : Binary.ofBits? x.toBits = some b) :
    (b.exponent + 1074).toNat * fractionSize + b.mantissa
        = exponentField x * fractionSize + fraction x ∧
      exponentField x < lastField := by
  have hfield : exponentField x < 2048 := Nat.mod_lt _ (by decide)
  have hlast : exponentField x ≠ lastField := by
    intro hlast
    unfold exponentField at hlast
    simp [Binary.ofBits?, hlast] at h
  refine ⟨?_, Nat.lt_of_le_of_ne (Nat.le_of_lt_succ hfield) hlast⟩
  unfold exponentField fraction at *
  rcases Binary.ofBits?_cases h with ⟨hzero, hm, he⟩ | ⟨hpos, hm, he⟩
  · rw [hzero, hm, he]
    rfl
  · rw [hm, he]
    simp only [fractionSize] at *
    omega

/-- **A finite double is written back** from its sign, its mantissa and its exponent. -/
theorem ofBinary_of_ofBits? (h : Binary.ofBits? x.toBits = some b) : ofBinary (isNegative x) b = x := by
  obtain ⟨hbits, hfield⟩ := bits_of_ofBits? h
  have hfraction := fraction_lt x
  have hdiv : (exponentField x * fractionSize + fraction x) / fractionSize = exponentField x := by
    simp only [fractionSize] at *
    omega
  have hmod : (exponentField x * fractionSize + fraction x) % fractionSize = fraction x := by
    simp only [fractionSize] at *
    omega
  unfold ofBinary
  simp only [hbits, hdiv, hmod]
  rw [dif_pos hfield]
  exact eq_of_fields (isNegative_ofParts _ _ _) (exponentField_ofParts _ _ _) (fraction_ofParts _ _ _)

/-- A double that is zero is told by its sign. -/
theorem zeroOf_of_isZero (h : isZero x = true) : zeroOf (isNegative x) = x := by
  obtain ⟨hfield, hfraction⟩ : exponentField x = 0 ∧ fraction x = 0 := by simpa [isZero] using h
  refine eq_of_fields (isNegative_ofParts _ _ _) ?_ ?_
  · rw [hfield]
    exact exponentField_ofParts _ _ _
  · rw [hfraction]
    exact fraction_ofParts _ _ _

/-- An infinite double is told by its sign. -/
theorem infinityOf_of_not_isFinite (h : isFinite x = false) (hnan : isNaN x = false) :
    infinityOf (isNegative x) = x := by
  have hfield : exponentField x = lastField := by simpa [isFinite] using h
  have hfraction : fraction x = 0 := by simpa [isNaN, hfield] using hnan
  have hfields : ∀ negative, isNegative (infinityOf negative) = negative ∧
      exponentField (infinityOf negative) = lastField ∧ fraction (infinityOf negative) = 0 := by
    decide +kernel
  obtain ⟨hsign', hfield', hfraction'⟩ := hfields (isNegative x)
  exact eq_of_fields hsign' (hfield'.trans hfield.symm) (hfraction'.trans hfraction.symm)

/-- There is one double that is no number. -/
theorem eq_nan_of_isNaN (h : isNaN x = true) : x = nan := by
  have hbits : ∀ y : Float, isNaN y = true →
      y.toBits.toBitVec = Float.Model.UnpackedFloat.packedNaN Float.Model.Format.binary64 := by
    intro y hy
    obtain ⟨hfield, hfraction⟩ : exponentField y = lastField ∧ fraction y ≠ 0 := by
      simpa [isNaN] using hy
    obtain ⟨⟨bits, hvalid⟩⟩ := y
    refine hvalid.eq_packedNaN (BitVec.eq_of_toNat_eq ?_) fun hzero => hfraction ?_
    · exact (toNat_unpackExponent _).trans hfield
    · exact (toNat_unpackMantissa _).symm.trans (congrArg BitVec.toNat hzero)
  exact eq_of_toBits (UInt64.toBitVec_inj.mp ((hbits x h).trans (hbits nan (by decide +kernel)).symm))

/-! ## 5. Decimals that are read -/

theorem length_digitsOf {m : Nat} (h : m ≠ 0) :
    10 ^ ((digitsOf m).length - 1) ≤ m ∧ m < 10 ^ (digitsOf m).length := by
  induction m using digitsOf.induct with
  | case1 => exact absurd rfl h
  | case2 m hm ih =>
    rw [digitsOf, if_neg hm, List.length_append, List.length_singleton, Nat.add_sub_cancel]
    by_cases hten : m / 10 = 0
    · rw [hten]
      have hone : digitsOf 0 = [] := by rw [digitsOf, if_pos rfl]
      rw [hone, List.length_nil]
      omega
    · obtain ⟨hle, hlt⟩ := ih hten
      have hlength := List.length_pos_of_ne_nil (digitsOf_ne_nil hten)
      have hpow : 10 ^ (digitsOf (m / 10)).length = 10 * 10 ^ ((digitsOf (m / 10)).length - 1) := by
        rw [← Nat.pow_succ']
        congr 1
        omega
      rw [Nat.pow_succ]
      omega

/-- The size of a decimal says between which powers of ten it is. -/
theorem decimal_bounds {m : Nat} (h : m ≠ 0) (e : Int) :
    (10 : ℚ) ^ (((digitsOf m).length : Int) + e - 1) ≤ m * 10 ^ e ∧
      (m : ℚ) * 10 ^ e < 10 ^ (((digitsOf m).length : Int) + e) := by
  obtain ⟨hle, hlt⟩ := length_digitsOf h
  have hlength := List.length_pos_of_ne_nil (digitsOf_ne_nil h)
  have hten : (10 : ℚ) ≠ 0 := by norm_num
  have hpos : (0 : ℚ) < 10 ^ e := by positivity
  have hle : (10 : ℚ) ^ ((digitsOf m).length - 1) ≤ m := by exact_mod_cast hle
  have hlt : (m : ℚ) < 10 ^ (digitsOf m).length := by exact_mod_cast hlt
  constructor
  · calc (10 : ℚ) ^ (((digitsOf m).length : Int) + e - 1)
        = 10 ^ ((digitsOf m).length - 1) * 10 ^ e := by
          rw [← zpow_natCast, ← zpow_add₀ hten]
          congr 1
          omega
      _ ≤ m * 10 ^ e := mul_le_mul_of_nonneg_right hle hpos.le
  · calc (m : ℚ) * 10 ^ e < 10 ^ (digitsOf m).length * 10 ^ e := mul_lt_mul_of_pos_right hlt hpos
      _ = 10 ^ (((digitsOf m).length : Int) + e) := by rw [← zpow_natCast, ← zpow_add₀ hten]

/-- A power of ten beyond the range of doubles. -/
theorem two_zpow_lt_ten_zpow : (2 : ℚ) ^ (1075 : Int) < 10 ^ (400 : Int) :=
  calc (2 : ℚ) ^ (1075 : Int) < 2 ^ (3 * 400 : Int) := zpow_lt_zpow_right₀ (by norm_num) (by norm_num)
    _ = (2 ^ (3 : Int)) ^ (400 : Int) := zpow_mul 2 3 400
    _ ≤ 10 ^ (400 : Int) := zpow_le_zpow_left₀ (by norm_num) (by norm_num) (by norm_num)

/-- What rounds to a finite double is between two powers of ten. -/
theorem range_of_rounds (h : Binary.ofBits? x.toBits = some b) {q : ℚ} (hq : b.Rounds q) :
    (10 : ℚ) ^ (-400 : Int) < q ∧ q < 10 ^ (400 : Int) := by
  have hb := Binary.canonical_of_ofBits? h
  have hleast := hb.least
  obtain ⟨hbits, hfield⟩ := bits_of_ofBits? h
  have hlast : b.exponent ≤ 971 := by
    have hfull := hb.full
    have hfraction := fraction_lt x
    simp only [fractionSize, lastField] at *
    omega
  constructor
  · refine lt_of_lt_of_le ?_ (b.half_le_low.trans hq.low_le)
    have hone : (1 : ℚ) ≤ b.mantissa := by exact_mod_cast hb.pos
    calc (10 : ℚ) ^ (-400 : Int) < 2 ^ (-1075 : Int) := by
          rw [zpow_neg, zpow_neg]
          exact inv_strictAnti₀ (by positivity) two_zpow_lt_ten_zpow
      _ = 1 / 2 * 2 ^ (-1074 : Int) := by
          rw [show (-1074 : Int) = -1075 + 1 by norm_num, zpow_add_one₀ (by norm_num)]
          ring
      _ ≤ (b.mantissa - 1 / 2) * 2 ^ b.exponent :=
          mul_le_mul (by linarith) (zpow_le_zpow_right₀ (by norm_num) hleast)
            (Binary.two_zpow_pos _).le (by linarith)
  · refine lt_of_le_of_lt (hq.le_high.trans ?_) two_zpow_lt_ten_zpow
    have hlt : (b.mantissa : ℚ) + 1 ≤ 2 ^ (53 : Int) := by
      have hlt := hb.lt
      norm_num
      exact_mod_cast (by simp only [fractionSize] at hlt; omega :
        b.mantissa + 1 ≤ 9007199254740992)
    calc b.high ≤ 2 ^ (53 : Int) * 2 ^ (971 : Int) :=
          mul_le_mul (by linarith) (zpow_le_zpow_right₀ (by norm_num) hlast)
            (Binary.two_zpow_pos _).le (by positivity)
      _ = 2 ^ (1024 : Int) := (zpow_add₀ (by norm_num) 53 971).symm
      _ ≤ 2 ^ (1075 : Int) := zpow_le_zpow_right₀ (by norm_num) (by norm_num)

theorem quotient_decimal (m : Nat) (e : Int) :
    ((m * Nat.pow 10 e.toNat : Nat) : ℚ) / (Nat.pow 10 (-e).toNat : Nat) = m * 10 ^ e := by
  have h10 := Binary.pow_toNat (a := 10) (by norm_num) e
  simp only [Nat.pow_eq]
  push_cast
  rw [h10]
  field_simp

/-- **A decimal that rounds to a double is read as this double.** -/
theorem ofDecimal_of_rounds {m : Nat} (hm : m ≠ 0) {e : Int}
    (h : Binary.ofBits? x.toBits = some b) (hrounds : b.Rounds (m * 10 ^ e)) :
    ofDecimal (isNegative x) m e = x := by
  obtain ⟨hlow, hhigh⟩ := range_of_rounds h hrounds
  obtain ⟨hle, hlt⟩ := decimal_bounds hm e
  have hsmall : ¬ ((digitsOf m).length : Int) + e < -400 := fun hsmall =>
    absurd (hlow.trans hlt) (not_lt.mpr (zpow_le_zpow_right₀ (by norm_num) (by omega)))
  have hlarge : ¬ 400 < ((digitsOf m).length : Int) + e := fun hlarge =>
    absurd (hle.trans_lt hhigh) (not_lt.mpr (zpow_le_zpow_right₀ (by norm_num) (by omega)))
  have hnum : m * Nat.pow 10 e.toNat ≠ 0 := by
    simp only [Nat.pow_eq]
    positivity
  have hden : 0 < Nat.pow 10 (-e).toNat := by
    simp only [Nat.pow_eq]
    positivity
  rw [← quotient_decimal] at hrounds
  have hnearest := Binary.nearest?_of_rounds hnum hden (Binary.canonical_of_ofBits? h) hrounds
  unfold ofDecimal
  simp only [hm, false_or, hsmall, hlarge, if_false, hnearest]
  exact ofBinary_of_ofBits? h

end Number

end ConfGraph
