import ConfGraph.Decimal.Numeral
import ConfGraph.Proofs.Decimal.Interval
import Mathlib.Data.List.TakeWhile

/-!
# Written decimals are read back

A decimal is laid out in one of four ways, by the place of its point.  Read as a numeral, digits with
or without a point and with or without an exponent, each layout stands for the number that the decimal
stands for; so the text of a decimal tells its number.

* `Decimal.written?`: the number that a numeral without a sign stands for.
* `Decimal.Layout`: what numerals look like, and the numbers that they stand for.
* `Decimal.Layout.written?`: a numeral is read as the number that it stands for.
* `Decimal.layout_text`: the text of a decimal is a numeral for its number.
-/

namespace ConfGraph

/-! ## 1. Digits -/

theorem isDigit_digitChar {d : Nat} (h : d < 10) : (digitChar d).isDigit = true := by
  have all : ∀ e : Fin 10, (digitChar e.val).isDigit = true := by decide
  exact all ⟨d, h⟩

theorem digitValue?_digitChar {d : Nat} (h : d < 10) :
    Number.digitValue? 10 (digitChar d) = some d := by
  have all : ∀ e : Fin 10, Number.digitValue? 10 (digitChar e.val) = some e.val := by decide
  exact all ⟨d, h⟩

theorem ofDigits_append_list (ds es : List Nat) :
    ofDigits (ds ++ es) = ofDigits ds * 10 ^ es.length + ofDigits es := by
  induction es using List.reverseRecOn with
  | nil => simp [ofDigits]
  | append_singleton es e ih =>
    rw [← List.append_assoc, ofDigits_append, ih, ofDigits_append, List.length_append,
      List.length_singleton, Nat.pow_succ]
    ring

theorem ofDigits_zeros (k : Nat) : ofDigits (List.replicate k 0) = 0 := by
  induction k with
  | zero => rfl
  | succ k ih => rw [List.replicate_succ', ofDigits_append, ih]

theorem ofDigits_append_zeros (ds : List Nat) (k : Nat) :
    ofDigits (ds ++ List.replicate k 0) = ofDigits ds * 10 ^ k := by
  rw [ofDigits_append_list, ofDigits_zeros, List.length_replicate, Nat.add_zero]

theorem ofDigits_zeros_append (k : Nat) (ds : List Nat) :
    ofDigits (List.replicate k 0 ++ ds) = ofDigits ds := by
  rw [ofDigits_append_list, ofDigits_zeros, Nat.zero_mul, Nat.zero_add]

theorem digitsOf_ne_nil {n : Nat} (h : n ≠ 0) : digitsOf n ≠ [] := by
  rw [digitsOf, if_neg h]
  exact List.append_ne_nil_of_right_ne_nil _ (List.cons_ne_nil _ _)

namespace Decimal

open Number (inBase? exponentOf? natText signedText)

/-- The digits read so far go on with those of a list. -/
theorem inBase?_digits {ds : List Nat} (h : ∀ d ∈ ds, d < 10) (done : Nat) :
    inBase? 10 done (ds.map digitChar) = some (done * 10 ^ ds.length + ofDigits ds) := by
  induction ds generalizing done with
  | nil => simp [inBase?, ofDigits]
  | cons d ds ih =>
    have hrest := ih (fun e he => h e (List.mem_cons_of_mem d he)) (done * 10 + d)
    have hcons := ofDigits_append_list [d] ds
    have hone : ofDigits [d] = d := by simp [ofDigits]
    rw [List.singleton_append, hone] at hcons
    rw [List.map_cons, inBase?, digitValue?_digitChar (h d List.mem_cons_self), Option.bind_some,
      hrest, hcons, List.length_cons, Nat.pow_succ]
    congr 1
    ring

theorem inBase?_natText (n : Nat) : inBase? 10 0 (natText n) = some n := by
  unfold natText
  split
  · next h => rw [h]; rfl
  · rw [inBase?_digits (digitsOf_lt n), ofDigits_digitsOf, Nat.zero_mul, Nat.zero_add]

theorem natText_ne_nil (n : Nat) : natText n ≠ [] := by
  unfold natText
  split
  · exact List.cons_ne_nil _ _
  · next h =>
    intro hnil
    exact digitsOf_ne_nil h (List.map_eq_nil_iff.mp hnil)

/-! ## 2. Numerals -/

/-- The number that a numeral without a sign stands for. -/
def written? (cs : List Char) : Option ℚ :=
  let whole := cs.takeWhile Char.isDigit
  let (fraction, rest) := match cs.dropWhile Char.isDigit with
    | '.' :: rest => (rest.takeWhile Char.isDigit, rest.dropWhile Char.isDigit)
    | rest => ([], rest)
  match inBase? 10 0 (whole ++ fraction), exponentOf? rest with
  | some m, some e => some (m * 10 ^ (e - (fraction.length : Int)))
  | _, _ => none

/-- The end of a numeral: nothing, or an exponent with a sign. -/
inductive Ending : List Char → Int → Prop
  | none : Ending [] 0
  | exponent (e : Int) : Ending ('e' :: signedText e) e

variable {cs : List Char} {e : Int}

theorem Ending.exponentOf?_eq (h : Ending cs e) : exponentOf? cs = some e := by
  cases h with
  | none => rfl
  | exponent =>
    unfold signedText exponentOf?
    have hne : (natText e.natAbs).isEmpty = false := by
      rw [List.isEmpty_eq_false_iff]
      exact natText_ne_nil _
    by_cases hneg : e < 0
    · have habs : -(e.natAbs : Int) = e := by omega
      simp only [hneg, if_true, true_or, hne, Bool.false_eq_true, if_false, inBase?_natText]
      exact congrArg some habs
    · have habs : (e.natAbs : Int) = e := by omega
      simp only [hneg, if_false, true_or, if_true, hne, Bool.false_eq_true, inBase?_natText]
      exact congrArg some habs

theorem Ending.takeWhile_eq_nil (h : Ending cs e) : cs.takeWhile Char.isDigit = [] := by
  cases h <;> rfl

theorem Ending.dropWhile_eq (h : Ending cs e) : cs.dropWhile Char.isDigit = cs := by
  cases h <;> rfl

section

variable {as bs : List Nat} (has : ∀ d ∈ as, d < 10)

include has

theorem isDigit_of_mem_digits : ∀ c ∈ as.map digitChar, c.isDigit = true := by
  intro c hc
  obtain ⟨d, hd, rfl⟩ := List.mem_map.mp hc
  exact isDigit_digitChar (has d hd)

/-- A run of digits with an exponent or without. -/
theorem written?_whole (hcs : Ending cs e) :
    written? (as.map digitChar ++ cs) = some ((ofDigits as : ℚ) * 10 ^ e) := by
  have hdigits := isDigit_of_mem_digits has
  have htake : (as.map digitChar ++ cs).takeWhile Char.isDigit = as.map digitChar := by
    rw [List.takeWhile_append_of_pos hdigits, hcs.takeWhile_eq_nil, List.append_nil]
  have hdrop : (as.map digitChar ++ cs).dropWhile Char.isDigit = cs := by
    rw [List.dropWhile_append_of_pos hdigits, hcs.dropWhile_eq]
  have hsplit : (match cs with
      | '.' :: rest => (rest.takeWhile Char.isDigit, rest.dropWhile Char.isDigit)
      | rest => ([], rest)) = ([], cs) := by
    cases hcs <;> rfl
  unfold written?
  rw [htake, hdrop]
  simp only [hsplit, List.append_nil, inBase?_digits has, hcs.exponentOf?_eq, Nat.zero_mul,
    Nat.zero_add, List.length_nil, Nat.cast_zero, sub_zero]

/-- Two runs of digits with a point between them. -/
theorem written?_point (hbs : ∀ d ∈ bs, d < 10) (hcs : Ending cs e) :
    written? (as.map digitChar ++ '.' :: (bs.map digitChar ++ cs))
      = some ((ofDigits (as ++ bs) : ℚ) * 10 ^ (e - (bs.length : Int))) := by
  have hdigits := isDigit_of_mem_digits has
  have hdigits' := isDigit_of_mem_digits hbs
  have htake : (as.map digitChar ++ '.' :: (bs.map digitChar ++ cs)).takeWhile Char.isDigit
      = as.map digitChar := by
    rw [List.takeWhile_append_of_pos hdigits]
    simp
  have hdrop : (as.map digitChar ++ '.' :: (bs.map digitChar ++ cs)).dropWhile Char.isDigit
      = '.' :: (bs.map digitChar ++ cs) := by
    rw [List.dropWhile_append_of_pos hdigits]
    rfl
  have htake' : (bs.map digitChar ++ cs).takeWhile Char.isDigit = bs.map digitChar := by
    rw [List.takeWhile_append_of_pos hdigits', hcs.takeWhile_eq_nil, List.append_nil]
  have hdrop' : (bs.map digitChar ++ cs).dropWhile Char.isDigit = cs := by
    rw [List.dropWhile_append_of_pos hdigits', hcs.dropWhile_eq]
  have hboth : ∀ d ∈ as ++ bs, d < 10 := List.forall_mem_append.mpr ⟨has, hbs⟩
  unfold written?
  rw [htake, hdrop]
  simp only [htake', hdrop', ← List.map_append, inBase?_digits hboth, hcs.exponentOf?_eq,
    Nat.zero_mul, Nat.zero_add, List.length_map]

end

/-! ## 3. Layouts -/

/-- The digits that are written, without the zeros at their end. -/
def shown (x : Decimal) : List Nat := significant (digitsOf x.digits)

theorem significant_append (ds : List Nat) :
    ∃ k, ds = significant ds ++ List.replicate k 0 := by
  refine ⟨(ds.reverse.takeWhile (· == 0)).length, ?_⟩
  have hzeros : ds.reverse.takeWhile (· == 0)
      = List.replicate (ds.reverse.takeWhile (· == 0)).length 0 := by
    refine List.eq_replicate_iff.mpr ⟨rfl, fun d hd => ?_⟩
    exact beq_iff_eq.mp (List.mem_takeWhile_imp (p := (· == 0)) hd)
  have hsplit := List.takeWhile_append_dropWhile (p := (· == 0)) (l := ds.reverse)
  have hback := congrArg List.reverse hsplit
  rw [List.reverse_append, List.reverse_reverse] at hback
  rw [significant, ← List.reverse_replicate, ← hzeros]
  exact hback.symm

theorem zeros_lt (k : Nat) : ∀ d ∈ List.replicate k 0, d < 10 := by
  intro d hd
  rw [List.eq_of_mem_replicate hd]
  decide

theorem shown_lt (x : Decimal) : ∀ d ∈ x.shown, d < 10 := by
  obtain ⟨k, hk⟩ := significant_append (digitsOf x.digits)
  intro d hd
  refine digitsOf_lt x.digits d ?_
  rw [hk]
  exact List.mem_append_left _ hd

theorem shown_split_lt (x : Decimal) (n : Nat) : ∀ d ∈ x.shown.take n ++ x.shown.drop n, d < 10 := by
  rw [List.take_append_drop]
  exact x.shown_lt

/-- **The zeros at the end do not count.** -/
theorem value_eq (x : Decimal) :
    x.value = (ofDigits x.shown : ℚ) * 10 ^ (x.point - (x.shown.length : Int)) := by
  obtain ⟨k, hk⟩ := significant_append (digitsOf x.digits)
  have hdigits : x.digits = ofDigits x.shown * 10 ^ k := by
    rw [← ofDigits_digitsOf x.digits, hk, ofDigits_append_zeros]
    rfl
  have hlength : (digitsOf x.digits).length = x.shown.length + k := by
    have hlen := congrArg List.length hk
    rwa [List.length_append, List.length_replicate] at hlen
  have hten : (10 : ℚ) ≠ 0 := by norm_num
  rw [value, hlength]
  conv_lhs => rw [hdigits]
  push_cast
  rw [mul_assoc, ← zpow_natCast, ← zpow_add₀ hten]
  congr 2
  omega

theorem value_pos {x : Decimal} (h : 0 < x.digits) : 0 < x.value := by
  unfold value
  positivity

theorem shown_ne_nil {x : Decimal} (h : 0 < x.digits) : x.shown ≠ [] := by
  intro hnil
  have hvalue := x.value_eq
  rw [hnil, show ofDigits [] = 0 from rfl, Nat.cast_zero, zero_mul] at hvalue
  exact absurd hvalue (ne_of_gt (value_pos h))

/-- Digits that start with nought only if they are a single nought. -/
def Leads (ds : List Nat) : Prop := ds = [0] ∨ ∃ d rest, ds = d :: rest ∧ d ≠ 0

theorem leads_digitsOf {n : Nat} (h : n ≠ 0) : ∃ d rest, digitsOf n = d :: rest ∧ d ≠ 0 := by
  induction n using digitsOf.induct with
  | case1 => exact absurd rfl h
  | case2 n hn ih =>
    rw [digitsOf, if_neg hn]
    by_cases hten : n / 10 = 0
    · refine ⟨n % 10, [], ?_, by omega⟩
      rw [hten, digitsOf, if_pos rfl, List.nil_append]
    · obtain ⟨d, rest, hdigits, hd⟩ := ih hten
      exact ⟨d, rest ++ [n % 10], by rw [hdigits, List.cons_append], hd⟩

theorem leads_shown {x : Decimal} (h : x.shown ≠ []) : ∃ d rest, x.shown = d :: rest ∧ d ≠ 0 := by
  obtain ⟨k, hk⟩ : ∃ k, digitsOf x.digits = x.shown ++ List.replicate k 0 := significant_append _
  obtain ⟨d, rest, hshown⟩ := List.exists_cons_of_ne_nil h
  have hdigits : x.digits ≠ 0 := by
    intro hzero
    rw [hzero, digitsOf, if_pos rfl] at hk
    exact h (List.append_eq_nil_iff.mp hk.symm).1
  obtain ⟨d', rest', hdigitsOf, hd'⟩ := leads_digitsOf hdigits
  rw [hdigitsOf, hshown] at hk
  exact ⟨d, rest, hshown, (List.cons.inj hk).1 ▸ hd'⟩

/-- What numerals without a sign look like, and the numbers that they stand for. -/
inductive Layout : List Char → ℚ → Prop
  | whole {as : List Nat} {cs : List Char} {e : Int} (leads : Leads as)
    (digits : ∀ d ∈ as, d < 10) (ending : Ending cs e) :
    Layout (as.map digitChar ++ cs) (ofDigits as * 10 ^ e)
  | point {as bs : List Nat} {cs : List Char} {e : Int} (leads : Leads as) (some_behind : bs ≠ [])
    (digits : ∀ d ∈ as ++ bs, d < 10) (ending : Ending cs e) :
    Layout (as.map digitChar ++ '.' :: (bs.map digitChar ++ cs))
      (ofDigits (as ++ bs) * 10 ^ (e - (bs.length : Int)))

theorem Layout.written? {q : ℚ} (h : Layout cs q) : Decimal.written? cs = some q := by
  cases h with
  | whole _ digits ending => exact written?_whole digits ending
  | point _ _ digits ending =>
    obtain ⟨has, hbs⟩ := List.forall_mem_append.mp digits
    exact written?_point has hbs ending

section

variable {x : Decimal}

/-- Zeros are added up to the point. -/
theorem layout_padded (hshown : x.shown ≠ []) (h : (x.shown.length : Int) ≤ x.point) :
    Layout (x.shown.map digitChar
      ++ List.replicate (x.point - (x.shown.length : Int)).toNat '0') x.value := by
  have hdigits : ∀ d ∈ x.shown ++ List.replicate (x.point - (x.shown.length : Int)).toNat 0, d < 10 :=
    List.forall_mem_append.mpr ⟨x.shown_lt, zeros_lt _⟩
  obtain ⟨d, rest, heq, hd⟩ := leads_shown hshown
  have hleads : Leads (x.shown ++ List.replicate (x.point - (x.shown.length : Int)).toNat 0) :=
    .inr ⟨d, _, by rw [heq, List.cons_append], hd⟩
  have hlayout := Layout.whole hleads hdigits Ending.none
  have hpower : (10 : ℚ) ^ (x.point - (x.shown.length : Int))
      = 10 ^ (x.point - (x.shown.length : Int)).toNat := by
    rw [← zpow_natCast, Int.toNat_of_nonneg (by omega)]
  rw [List.map_append, List.map_replicate, List.append_nil, ofDigits_append_zeros, zpow_zero,
    mul_one] at hlayout
  rw [value_eq, hpower]
  push_cast at hlayout
  exact hlayout

theorem leads_take {n : Nat} (hpos : 0 < n) (hshown : x.shown ≠ []) : Leads (x.shown.take n) := by
  obtain ⟨d, rest, heq, hd⟩ := leads_shown hshown
  obtain ⟨n, rfl⟩ := Nat.exists_eq_succ_of_ne_zero (Nat.pos_iff_ne_zero.mp hpos)
  exact .inr ⟨d, _, by rw [heq, List.take_succ_cons], hd⟩

theorem drop_ne_nil {n : Nat} (h : n < x.shown.length) : x.shown.drop n ≠ [] := by
  rw [ne_eq, List.drop_eq_nil_iff]
  omega

/-- The point stands among the digits. -/
theorem layout_split {n : Nat} (hpos : 0 < n) (h : n < x.shown.length) (hpoint : x.point = n) :
    Layout ((x.shown.map digitChar).take n ++ '.' :: (x.shown.map digitChar).drop n) x.value := by
  have hlayout := Layout.point (leads_take hpos (List.length_pos_iff.mp (by omega)))
    (drop_ne_nil h) (x.shown_split_lt n) Ending.none
  rw [List.take_append_drop, List.append_nil, List.length_drop, List.map_take, List.map_drop]
    at hlayout
  rw [value_eq, hpoint]
  push_cast [h.le] at hlayout
  rwa [zero_sub, neg_sub] at hlayout

/-- Zeros stand between the point and the digits. -/
theorem layout_fraction (hshown : x.shown ≠ []) {n : Nat} (hpoint : x.point = -n) :
    Layout ('0' :: '.' :: (List.replicate n '0' ++ x.shown.map digitChar)) x.value := by
  have hdigits : ∀ d ∈ [0] ++ (List.replicate n 0 ++ x.shown), d < 10 :=
    List.forall_mem_append.mpr
      ⟨zeros_lt 1, List.forall_mem_append.mpr ⟨zeros_lt n, x.shown_lt⟩⟩
  have hlayout := Layout.point (.inl rfl) (List.append_ne_nil_of_right_ne_nil _ hshown) hdigits
    Ending.none
  have hzeros : ofDigits ([0] ++ (List.replicate n 0 ++ x.shown)) = ofDigits x.shown :=
    ofDigits_zeros_append (n + 1) x.shown
  rw [hzeros, List.append_nil, List.map_append, List.map_replicate, List.length_append,
    List.length_replicate] at hlayout
  rw [value_eq, hpoint]
  push_cast at hlayout
  rw [zero_sub, neg_add'] at hlayout
  exact hlayout

/-- One digit stands before the point, and an exponent at the end. -/
theorem layout_exponent (h : x.shown ≠ []) :
    Layout ((x.shown.map digitChar).take 1
      ++ (if (x.shown.map digitChar).length = 1 then [] else '.' :: (x.shown.map digitChar).drop 1)
      ++ 'e' :: signedText (x.point - 1)) x.value := by
  have hpos := List.length_pos_of_ne_nil h
  rw [List.length_map, value_eq]
  split
  · next hone =>
    have hlayout := Layout.whole (.inr (leads_shown h)) x.shown_lt (Ending.exponent (x.point - 1))
    have htake : (x.shown.map digitChar).take 1 = x.shown.map digitChar :=
      List.take_of_length_le (by rw [List.length_map, hone])
    rw [htake, List.append_nil, hone]
    exact hlayout
  · next hmore =>
    have hlayout := Layout.point (leads_take Nat.one_pos h) (drop_ne_nil (n := 1) (by omega))
      (x.shown_split_lt 1) (Ending.exponent (x.point - 1))
    have hexponent : x.point - 1 - ((x.shown.drop 1).length : Int)
        = x.point - (x.shown.length : Int) := by
      rw [List.length_drop]
      omega
    rw [List.take_append_drop, hexponent, List.map_take, List.map_drop] at hlayout
    rwa [List.append_assoc, List.cons_append]

end

/-- **The text of a decimal is a numeral** that stands for its number, whichever way it is laid
out. -/
theorem layout_text {x : Decimal} (h : 0 < x.digits) : Layout x.text x.value := by
  have hshown := shown_ne_nil h
  unfold text
  rw [← shown]
  simp only
  split
  · next hplace =>
    rw [List.length_map] at hplace ⊢
    exact layout_padded hshown hplace.1
  · next hnot =>
    rw [List.length_map] at hnot
    split
    · next hplace =>
      exact layout_split (by omega) (by omega) (Int.toNat_of_nonneg (by omega)).symm
    · split
      · next hplace => exact layout_fraction hshown (by omega)
      · exact layout_exponent hshown

/-! ## 4. Characters -/

/-- The characters of numerals. -/
def isNumeral (c : Char) : Bool := c.isDigit || c = '.' || c = 'e' || c = '+' || c = '-'

theorem isNumeral_of_isDigit {c : Char} (h : c.isDigit = true) : isNumeral c = true := by
  simp [isNumeral, h]

theorem isDigit_natText (n : Nat) : ∀ c ∈ natText n, c.isDigit = true := by
  intro c hc
  unfold natText at hc
  split at hc
  · rw [List.mem_singleton.mp hc]
    decide
  · exact isDigit_of_mem_digits (digitsOf_lt n) c hc

theorem isNumeral_natText (n : Nat) : ∀ c ∈ natText n, isNumeral c = true :=
  fun c hc => isNumeral_of_isDigit (isDigit_natText n c hc)

theorem Ending.isNumeral {e : Int} (h : Ending cs e) : ∀ c ∈ cs, isNumeral c = true := by
  cases h with
  | none => exact nofun
  | exponent =>
    refine List.forall_mem_cons.mpr ⟨by decide, List.forall_mem_cons.mpr ⟨?_, ?_⟩⟩
    · split
      · decide
      · decide
    · exact isNumeral_natText _

theorem Layout.isNumeral {q : ℚ} (h : Layout cs q) : ∀ c ∈ cs, isNumeral c = true := by
  cases h with
  | whole _ digits ending =>
    have hwhole := isDigit_of_mem_digits digits
    exact List.forall_mem_append.mpr
      ⟨fun c hc => isNumeral_of_isDigit (hwhole c hc), ending.isNumeral⟩
  | point _ _ digits ending =>
    obtain ⟨has, hbs⟩ := List.forall_mem_append.mp digits
    have hwhole := isDigit_of_mem_digits has
    have hfraction := isDigit_of_mem_digits hbs
    refine List.forall_mem_append.mpr ⟨fun c hc => isNumeral_of_isDigit (hwhole c hc), ?_⟩
    refine List.forall_mem_cons.mpr ⟨by decide, List.forall_mem_append.mpr ⟨?_, ending.isNumeral⟩⟩
    exact fun c hc => isNumeral_of_isDigit (hfraction c hc)

end Decimal

end ConfGraph
