import ConfGraph.Proofs.Decimal.Notation
import ConfGraph.Proofs.Decimal.Whole

/-!
# The text of a number tells the number

Two finite doubles with the same text are the same, or both are zero: the text is a numeral, the
numeral stands for one number, and that number rounds to one double.  What follows a number's text is
told from it by its first character, if that stands in no numeral.

* `Number.text_injective`: a text is the text of one double, the two zeros apart.
* `Number.text_append_inj`: a text tells where it ends.
-/

namespace ConfGraph

open Decimal (isNumeral written? layout_text)

/-! ## 1. Bits -/

namespace Binary

variable {b : Binary} {bits bits' : UInt64}

/-- What the mantissa and the exponent say of the fields. -/
theorem ofBits?_cases (h : ofBits? bits = some b) :
    (bits.toNat / Number.fractionSize % 2048 = 0 ∧
        b.mantissa = bits.toNat % Number.fractionSize ∧ b.exponent = -1074) ∨
      (0 < bits.toNat / Number.fractionSize % 2048 ∧
        b.mantissa = Number.fractionSize + bits.toNat % Number.fractionSize ∧
        b.exponent = ((bits.toNat / Number.fractionSize % 2048 : Nat) : Int) - 1075) := by
  unfold ofBits? at h
  simp only at h
  split at h
  · exact nomatch h
  · split at h
    · next hfield =>
      split at h
      · exact nomatch h
      · obtain rfl := Option.some.inj h
        exact .inl ⟨hfield, rfl, rfl⟩
    · next hfield =>
      obtain rfl := Option.some.inj h
      exact .inr ⟨Nat.pos_of_ne_zero hfield, rfl, rfl⟩

/-- **A double's mantissa and exponent tell its fields.** -/
theorem fields_of_ofBits? (h : ofBits? bits = some b) (h' : ofBits? bits' = some b) :
    bits.toNat / Number.fractionSize % 2048 = bits'.toNat / Number.fractionSize % 2048 ∧
      bits.toNat % Number.fractionSize = bits'.toNat % Number.fractionSize := by
  have hlt := Nat.mod_lt bits.toNat Number.fractionSize_pos
  have hlt' := Nat.mod_lt bits'.toNat Number.fractionSize_pos
  rcases ofBits?_cases h with ⟨hfield, hm, he⟩ | ⟨hfield, hm, he⟩
  · rcases ofBits?_cases h' with ⟨hfield', hm', he'⟩ | ⟨hfield', hm', he'⟩
    · omega
    · omega
  · rcases ofBits?_cases h' with ⟨hfield', hm', he'⟩ | ⟨hfield', hm', he'⟩
    · omega
    · omega

end Binary

namespace Number

variable {x y : Float}

/-- The bits tell a double. -/
theorem eq_of_toBits (h : x.toBits = y.toBits) : x = y := by
  obtain ⟨⟨bits, hvalid⟩⟩ := x
  obtain ⟨⟨bits', hvalid'⟩⟩ := y
  obtain rfl : bits = bits' := h
  rfl

/-- The sign and the fields tell a double. -/
theorem eq_of_fields (hsign : isNegative x = isNegative y)
    (hfield : exponentField x = exponentField y) (hfraction : fraction x = fraction y) : x = y := by
  have hx := x.toBits.toNat_lt
  have hy := y.toBits.toNat_lt
  have hsign' := decide_eq_decide.mp hsign
  refine eq_of_toBits (UInt64.toNat_inj.mp ?_)
  unfold exponentField at hfield
  unfold fraction at hfraction
  simp only [fractionSize] at *
  omega

theorem isZero_of_ofBits?_eq_none (hx : isFinite x = true)
    (h : Binary.ofBits? x.toBits = none) : isZero x = true := by
  unfold Binary.ofBits? at h
  simp only at h
  split at h
  · next hlast => exact absurd hlast (bne_iff_ne.mp hx)
  · split at h
    · next hfield =>
      split at h
      · next hfraction => simp [isZero, exponentField, fraction, hfield, hfraction]
      · cases h
    · cases h

/-! ## 2. Texts -/

theorem text_of_none (h : Binary.ofBits? x.toBits = none) : text x = ['0'] := by
  unfold text
  rw [h]

theorem text_of_isZero (h : isZero x = true) : text x = ['0'] := text_of_none (ofBits?_of_isZero h)

theorem text_of_some {b : Binary} (h : Binary.ofBits? x.toBits = some b) :
    text x = if isNegative x then '-' :: b.shortest.text else b.shortest.text := by
  unfold text
  rw [h]

theorem written?_shortest {b : Binary} (hb : b.Canonical) :
    written? b.shortest.text = some b.shortest.value :=
  (layout_text (b.rounds_shortest hb.pos).2).written?

/-- A numeral has no sign. -/
theorem written?_minus (cs : List Char) : written? ('-' :: cs) = none := rfl

/-- A run of zeros, also of none, stands for zero. -/
theorem written?_zeros (k : Nat) : written? ((List.replicate k 0).map digitChar) = some 0 := by
  have hread := Decimal.written?_whole (Decimal.zeros_lt k) Decimal.Ending.none
  rwa [ofDigits_zeros, Nat.cast_zero, zero_mul, List.append_nil] at hread

/-- The shortest decimal of a double is not written as zero is. -/
theorem shortest_ne {b : Binary} (hb : b.Canonical) {cs : List Char} (h : written? cs = some 0) :
    b.shortest.text ≠ cs := by
  rintro rfl
  have hread := written?_shortest hb
  rw [h] at hread
  exact absurd (Option.some.inj hread)
    (ne_of_lt (Decimal.value_pos (b.rounds_shortest hb.pos).2))

theorem text_ne_zero {b : Binary} (h : Binary.ofBits? x.toBits = some b) : text x ≠ ['0'] := by
  rw [text_of_some h]
  split
  · simp
  · exact shortest_ne (Binary.canonical_of_ofBits? h) (written?_zeros 1)

/-- A sign tells a text from any without. -/
theorem sign_inj {cs ds : List Char} {p q : ℚ} (hcs : written? cs = some p)
    (hds : written? ds = some q) {s t : Bool}
    (h : (if s then '-' :: cs else cs) = if t then '-' :: ds else ds) : s = t ∧ cs = ds := by
  cases s with
  | false =>
    cases t with
    | false => exact ⟨rfl, h⟩
    | true =>
      obtain rfl : cs = '-' :: ds := h
      rw [written?_minus] at hcs
      exact nomatch hcs
  | true =>
    cases t with
    | false =>
      obtain rfl : '-' :: cs = ds := h
      rw [written?_minus] at hds
      exact nomatch hds
    | true => exact ⟨rfl, (List.cons.inj h).2⟩

/-- **A text is the text of one double**, the two zeros apart. -/
theorem text_injective (hx : isFinite x = true) (hy : isFinite y = true) (h : text x = text y) :
    x = y ∨ isZero x = true ∧ isZero y = true := by
  cases hbx : Binary.ofBits? x.toBits with
  | none =>
    have hzero := isZero_of_ofBits?_eq_none hx hbx
    cases hby : Binary.ofBits? y.toBits with
    | none => exact .inr ⟨hzero, isZero_of_ofBits?_eq_none hy hby⟩
    | some c =>
      rw [text_of_none hbx] at h
      exact absurd h.symm (text_ne_zero hby)
  | some b =>
    cases hby : Binary.ofBits? y.toBits with
    | none =>
      rw [text_of_none hby] at h
      exact absurd h (text_ne_zero hbx)
    | some c =>
      have hb := Binary.canonical_of_ofBits? hbx
      have hc := Binary.canonical_of_ofBits? hby
      have hbread := written?_shortest hb
      have hcread := written?_shortest hc
      rw [text_of_some hbx, text_of_some hby] at h
      obtain ⟨hsign, htext⟩ := sign_inj hbread hcread h
      have hvalue : b.shortest.value = c.shortest.value := by
        rw [htext, hcread] at hbread
        exact (Option.some.inj hbread).symm
      have hrounds := (b.rounds_shortest hb.pos).1
      rw [hvalue] at hrounds
      obtain rfl := Binary.eq_of_rounds hb hc hrounds (c.rounds_shortest hc.pos).1
      obtain ⟨hfield, hfraction⟩ := Binary.fields_of_ofBits? hbx hby
      exact .inl (eq_of_fields hsign hfield hfraction)

theorem text_eq_iff (hx : isFinite x = true) (hy : isFinite y = true) :
    text x = text y ↔ x = y ∨ isZero x = true ∧ isZero y = true := by
  refine ⟨text_injective hx hy, ?_⟩
  rintro (rfl | ⟨hzero, hzero'⟩)
  · rfl
  · rw [text_of_isZero hzero, text_of_isZero hzero']

/-! ## 3. Where a text ends -/

theorem isNumeral_text (x : Float) : ∀ c ∈ text x, isNumeral c = true := by
  cases hb : Binary.ofBits? x.toBits with
  | none =>
    rw [text_of_none hb]
    exact List.forall_mem_singleton.mpr (by decide)
  | some b =>
    have hcanonical := Binary.canonical_of_ofBits? hb
    have hshortest := (layout_text (b.rounds_shortest hcanonical.pos).2).isNumeral
    rw [text_of_some hb]
    split
    · exact List.forall_mem_cons.mpr ⟨by decide, hshortest⟩
    · exact hshortest

theorem text_ne_nil (x : Float) : text x ≠ [] := by
  cases hb : Binary.ofBits? x.toBits with
  | none =>
    rw [text_of_none hb]
    exact List.cons_ne_nil _ _
  | some b =>
    rw [text_of_some hb]
    split
    · exact List.cons_ne_nil _ _
    · exact shortest_ne (Binary.canonical_of_ofBits? hb) (written?_zeros 0)

theorem takeWhile_text {r : List Char} (hr : ∀ c ∈ r.head?, isNumeral c = false) :
    (text x ++ r).takeWhile isNumeral = text x := by
  rw [List.takeWhile_append_of_pos (isNumeral_text x)]
  cases r with
  | nil => exact List.append_nil _
  | cons c r =>
    have hc : ¬ isNumeral c = true := by
      rw [hr c rfl]
      exact Bool.false_ne_true
    rw [List.takeWhile_cons_of_neg hc, List.append_nil]

/-- **A text tells where it ends**, if no character of numerals follows. -/
theorem text_append_inj {r t : List Char} (hr : ∀ c ∈ r.head?, isNumeral c = false)
    (ht : ∀ c ∈ t.head?, isNumeral c = false) (h : text x ++ r = text y ++ t) :
    text x = text y ∧ r = t := by
  have htext : text x = text y := by
    rw [← takeWhile_text hr, h, takeWhile_text ht]
  rw [htext] at h
  exact ⟨htext, List.append_cancel_left h⟩

end Number

end ConfGraph
