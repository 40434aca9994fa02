import ConfGraph.Proofs.Decimal.Rounding
import ConfGraph.Value.Reader

/-!
# Numbers are read back

The text of a finite double is a numeral that JSON has: it has no noughts in front, and digits behind
the point if it has one.  The numeral stands for a decimal that rounds to the double, so the double is
what is read.

* `Json.Marked`: what may stand behind a value.
* `Json.unsigned?_of_layout`: a numeral is read as the decimal that it stands for.
* `Json.number?_literal`: a finite double is read back, the sign of zero too.
-/

namespace ConfGraph

namespace Json

open Decimal (Ending Layout Leads)
open Number (natText signedText)

variable {cs rest : List Char} {ds : List Nat} {e : Int}

/-! ## 1. Behind a value -/

/-- What may stand behind a value: a mark with which a list or a record goes on or ends. -/
def Marked (rest : List Char) : Prop :=
  ∃ c more, rest = c :: more ∧ c ∈ [',', ']', '\x7d', ')']

theorem Marked.of_mem {c : Char} (h : c ∈ [',', ']', '\x7d', ')']) (more : List Char) :
    Marked (c :: more) := ⟨c, more, rfl, h⟩

/-- A mark is no digit. -/
theorem Marked.isDigit_head (h : Marked rest) : ∀ c ∈ rest.head?, c.isDigit = false := by
  obtain ⟨c, more, rfl, hc⟩ := h
  intro c' hc'
  obtain rfl := Option.some.inj hc'
  simp only [List.mem_cons, List.not_mem_nil, or_false] at hc
  rcases hc with rfl | rfl | rfl | rfl <;> decide

/-- A number does not go on with a mark. -/
theorem Marked.fraction?_eq (h : Marked rest) : fraction? rest = some ([], rest) := by
  obtain ⟨c, more, rfl, hc⟩ := h
  unfold fraction?
  split
  · next heq =>
    obtain ⟨rfl, -⟩ := List.cons.inj heq
    exact absurd hc (by decide)
  · rfl

theorem Marked.exponent?_eq (h : Marked rest) : exponent? rest = some (0, rest) := by
  obtain ⟨c, more, rfl, hc⟩ := h
  have hne : ¬ (c = 'e' ∨ c = 'E') := by
    rintro (rfl | rfl)
    · exact absurd hc (by decide)
    · exact absurd hc (by decide)
  exact if_neg hne

/-! ## 2. Digits -/

theorem digits_append (hcs : ∀ c ∈ cs, c.isDigit = true) (hrest : ∀ c ∈ rest.head?, c.isDigit = false) :
    digits (cs ++ rest) = (cs, rest) := by
  have htake : rest.takeWhile Char.isDigit = [] ∧ rest.dropWhile Char.isDigit = rest := by
    cases rest with
    | nil => exact ⟨rfl, rfl⟩
    | cons c more => simp [hrest c rfl]
  rw [digits, List.takeWhile_append_of_pos hcs, List.dropWhile_append_of_pos hcs, htake.1, htake.2,
    List.append_nil]

theorem digitsValue_digits (h : ∀ d ∈ ds, d < 10) : digitsValue (ds.map digitChar) = ofDigits ds := by
  have hvalue : ∀ d < 10, (digitChar d).toNat - 48 = d := by decide
  unfold digitsValue ofDigits
  generalize 0 = n
  induction ds generalizing n with
  | nil => rfl
  | cons d ds ih =>
    rw [List.map_cons, List.foldl_cons, List.foldl_cons, hvalue d (h d List.mem_cons_self)]
    exact ih (fun d' hd' => h d' (List.mem_cons_of_mem d hd')) _

theorem digitsValue_natText (n : Nat) : digitsValue (natText n) = n := by
  unfold natText
  split
  · next h => rw [h]; rfl
  · rw [digitsValue_digits (digitsOf_lt n), ofDigits_digitsOf]

/-! ## 3. Numerals -/

theorem exponent?_of_ending (h : Ending cs e) (hrest : Marked rest) :
    exponent? (cs ++ rest) = some (e, rest) := by
  cases h with
  | none => exact hrest.exponent?_eq
  | exponent =>
    have hdigits := digits_append (Decimal.isDigit_natText e.natAbs) hrest.isDigit_head
    have hne : (natText e.natAbs).isEmpty = false := by
      rw [List.isEmpty_eq_false_iff]
      exact Decimal.natText_ne_nil _
    unfold signedText exponent?
    by_cases hneg : e < 0
    · have habs : -(e.natAbs : Int) = e := by omega
      simp only [List.cons_append, hneg, if_true, true_or, exponentDigits?, hdigits, hne,
        Bool.false_eq_true, if_false, digitsValue_natText, habs]
    · have habs : (e.natAbs : Int) = e := by omega
      simp only [List.cons_append, hneg, if_false, true_or, if_true, exponentDigits?, hdigits, hne,
        Bool.false_eq_true, digitsValue_natText, habs]

theorem isDigit_head_of_ending (h : Ending cs e) (hrest : Marked rest) :
    ∀ c ∈ (cs ++ rest).head?, c.isDigit = false := by
  cases h with
  | none => exact hrest.isDigit_head
  | exponent =>
    intro c hc
    obtain rfl := Option.some.inj hc
    decide

theorem fraction?_of_ending (h : Ending cs e) (hrest : Marked rest) :
    fraction? (cs ++ rest) = some ([], cs ++ rest) := by
  cases h with
  | none => exact hrest.fraction?_eq
  | exponent => rfl

theorem whole?_of_leads (hleads : Leads ds) (hds : ∀ d ∈ ds, d < 10)
    (hrest : ∀ c ∈ rest.head?, c.isDigit = false) :
    whole? (ds.map digitChar ++ rest) = some (ds.map digitChar, rest) := by
  rcases hleads with rfl | ⟨d, more, rfl, hd⟩
  · rfl
  · have hdigits := digits_append (Decimal.isDigit_of_mem_digits hds) hrest
    have hfirst : digitChar d ≠ '0' := by
      have hall : ∀ d < 10, d ≠ 0 → digitChar d ≠ '0' := by decide
      exact hall d (hds d List.mem_cons_self) hd
    unfold whole?
    split
    · next heq => exact absurd (List.cons.inj heq).1 hfirst
    · rw [hdigits]
      rfl

/-- **A numeral is read as the decimal that it stands for.** -/
theorem unsigned?_of_layout {q : ℚ} (h : Layout cs q) (hrest : Marked rest) (negative : Bool) :
    ∃ (m : Nat) (e : Int), q = m * 10 ^ e ∧
      unsigned? negative (cs ++ rest) = some (Number.ofDecimal negative m e, rest) := by
  cases h with
  | @whole as end' e leads digits ending =>
    refine ⟨ofDigits as, e, rfl, ?_⟩
    have hwhole := whole?_of_leads leads digits (isDigit_head_of_ending ending hrest)
    rw [List.append_assoc]
    unfold unsigned?
    simp [hwhole, fraction?_of_ending ending hrest, exponent?_of_ending ending hrest,
      digitsValue_digits digits]
  | @point as bs end' e leads some_behind digits ending =>
    obtain ⟨has, hbs⟩ := List.forall_mem_append.mp digits
    refine ⟨ofDigits (as ++ bs), e - (bs.length : Int), rfl, ?_⟩
    have hpoint : ∀ c ∈ ('.' :: (bs.map digitChar ++ (end' ++ rest))).head?, c.isDigit = false := by
      intro c hc
      obtain rfl := Option.some.inj hc
      decide
    have hwhole := whole?_of_leads leads has hpoint
    have hbehind := digits_append (Decimal.isDigit_of_mem_digits hbs)
      (isDigit_head_of_ending ending hrest)
    have hne : (bs.map digitChar).isEmpty = false := by
      rw [List.isEmpty_eq_false_iff, ne_eq, List.map_eq_nil_iff]
      exact some_behind
    have hfraction : fraction? ('.' :: (bs.map digitChar ++ (end' ++ rest)))
        = some (bs.map digitChar, end' ++ rest) := by
      rw [fraction?, hbehind, if_neg (by simp [hne])]
    rw [List.append_assoc, List.cons_append, List.append_assoc]
    unfold unsigned?
    simp [hwhole, hfraction, exponent?_of_ending ending hrest, ← List.map_append,
      digitsValue_digits digits]

/-! ## 4. Doubles -/

/-- A numeral starts with a digit. -/
theorem exists_digit_of_layout {q : ℚ} (h : Layout cs q) :
    ∃ c more, cs = c :: more ∧ c.isDigit = true := by
  have hdigit : ∀ {as : List Nat}, Leads as → (∀ d ∈ as, d < 10) → ∀ end',
      ∃ c more, as.map digitChar ++ end' = c :: more ∧ c.isDigit = true := by
    rintro as (rfl | ⟨d, more, rfl, -⟩) has end'
    · exact ⟨'0', end', rfl, by decide⟩
    · exact ⟨digitChar d, _, rfl, isDigit_digitChar (has d List.mem_cons_self)⟩
  cases h with
  | whole leads digits ending => exact hdigit leads digits _
  | point leads _ digits ending => exact hdigit leads (List.forall_mem_append.mp digits).1 _

/-- The text of a double other than zero, in front of a mark. -/
theorem number?_shortest {x : Float} {b : Binary} (h : Binary.ofBits? x.toBits = some b)
    (hrest : Marked rest) :
    number? ((if Number.isNegative x then '-' :: b.shortest.text else b.shortest.text) ++ rest)
      = some (x, rest) := by
  have hb := Binary.canonical_of_ofBits? h
  obtain ⟨hrounds, hdigits⟩ := b.rounds_shortest hb.pos
  have hlayout := Decimal.layout_text hdigits
  obtain ⟨m, e, hq, hread⟩ := unsigned?_of_layout hlayout hrest (Number.isNegative x)
  have hm : m ≠ 0 := by
    rintro rfl
    have hpos := Decimal.value_pos hdigits
    rw [hq, Nat.cast_zero, zero_mul] at hpos
    exact lt_irrefl _ hpos
  rw [hq] at hrounds
  rw [Number.ofDecimal_of_rounds hm h hrounds] at hread
  cases hneg : Number.isNegative x with
  | true =>
    rw [hneg] at hread
    exact hread
  | false =>
    rw [hneg] at hread
    obtain ⟨c, more, htext, hc⟩ := exists_digit_of_layout hlayout
    rw [if_neg Bool.false_ne_true, ← hread, htext]
    unfold number?
    split
    · next heq =>
      obtain ⟨rfl, -⟩ := List.cons.inj heq
      exact absurd hc (by decide)
    · rfl

/-- **A finite double is read back**, the sign of zero too. -/
theorem number?_literal {x : Float} (hx : Number.isFinite x = true) (hrest : Marked rest) :
    number? (Number.literal x ++ rest) = some (x, rest) := by
  have hnan : Number.isNaN x = false := by
    unfold Number.isFinite at hx
    simp only [Number.isNaN, Bool.and_eq_false_iff]
    exact .inl (by simpa using hx)
  have hdisplay : Number.display x = Number.text x := by
    rw [Number.display, hnan, hx]
    rfl
  unfold Number.literal
  cases hbits : Binary.ofBits? x.toBits with
  | some b =>
    have hzero : Number.isZero x = false := by
      rw [Bool.eq_false_iff]
      intro hzero
      rw [Number.ofBits?_of_isZero hzero] at hbits
      cases hbits
    rw [hzero, Bool.false_and, if_neg Bool.false_ne_true, hdisplay, Number.text_of_some hbits]
    exact number?_shortest hbits hrest
  | none =>
    have hzero := Number.isZero_of_ofBits?_eq_none hx hbits
    have hread : ∀ negative, unsigned? negative ('0' :: rest) = some (Number.zeroOf negative, rest) := by
      intro negative
      unfold unsigned?
      simp [whole?, hrest.fraction?_eq, hrest.exponent?_eq, digitsValue, Number.ofDecimal]
    have hback := Number.zeroOf_of_isZero hzero
    rw [hzero, Bool.true_and, hdisplay, Number.text_of_none hbits]
    cases hneg : Number.isNegative x with
    | true =>
      rw [hneg] at hback
      rw [← hback]
      exact hread true
    | false =>
      rw [hneg] at hback
      rw [if_neg Bool.false_ne_true, ← hback]
      exact hread false

end Json

end ConfGraph
