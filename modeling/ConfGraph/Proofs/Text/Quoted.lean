import ConfGraph.Text.Quoted
import ConfGraph.Value.Reader

/-!
# Quoted texts are read back

What is written between quotes is read back as it was, and whatever stands after the closing quote
is left over.  So a quoted text tells where it ends, and no two texts are quoted alike.

* `quoted?_quote`: a quoted text is read back, the rest is left over.
* `quote_append_inj`: two quoted texts with a rest each agree only if both parts do.
-/

namespace ConfGraph.Text

open Json

theorem hexValue?_hexDigit {n : Nat} (h : n < 16) : hexValue? (hexDigit n) = some n := by
  have all : ∀ m : Fin 16, hexValue? (hexDigit m.val) = some m.val := by decide
  exact all ⟨n, h⟩

/-- A control character in four digits is read back. -/
theorem escaped?_control {c : Char} (h : c.toNat < 32) (rest : List Char) :
    escaped? ('u' :: '0' :: '0' :: hexDigit (c.toNat / 16) :: hexDigit (c.toNat % 16) :: rest)
      = some (c, rest) := by
  have hhigh : hexValue? (hexDigit (c.toNat / 16)) = some (c.toNat / 16) :=
    hexValue?_hexDigit (by omega)
  have hlow : hexValue? (hexDigit (c.toNat % 16)) = some (c.toNat % 16) :=
    hexValue?_hexDigit (by omega)
  have hzero : hexValue? '0' = some 0 := by decide
  have hsum : ((0 * 16 + 0) * 16 + c.toNat / 16) * 16 + c.toNat % 16 = c.toNat := by omega
  have hunit : unit? ('0' :: '0' :: hexDigit (c.toNat / 16) :: hexDigit (c.toNat % 16) :: rest)
      = some (c.toNat, rest) := by
    simp only [unit?, hzero, hhigh, hlow, Option.bind_eq_bind, Option.bind_some, hsum]
  have hchar : unitChar c.toNat = c := by
    rw [unitChar, if_neg (by omega), Char.ofNat_toNat]
  simp only [escaped?, hunit]
  rw [if_neg (by omega), hchar]

/-- **One character is read back**, however it is written. -/
theorem quoted?_escape (fuel : Nat) (done : List Char) (c : Char) (rest : List Char) :
    quoted? (fuel + 1) done (escape c ++ rest) = quoted? fuel (c :: done) rest := by
  unfold escape
  split
  · next h => subst h; rfl
  split
  · next h => subst h; rfl
  split
  · next h => rw [← Char.ofNat_toNat c, h]; rfl
  split
  · next h => rw [← Char.ofNat_toNat c, h]; rfl
  split
  · next h => rw [← Char.ofNat_toNat c, h]; rfl
  split
  · next h => rw [← Char.ofNat_toNat c, h]; rfl
  split
  · next h => rw [← Char.ofNat_toNat c, h]; rfl
  split
  · next h =>
    simp only [List.cons_append, List.nil_append, quoted?, escaped?_control h rest]
  · next hquote hslash _ _ _ _ _ hplain =>
    rw [List.singleton_append, quoted?, if_neg hplain]
    · exact hquote
    · exact hslash

theorem quoted?_flatMap_escape (cs rest : List Char) {fuel : Nat} (h : cs.length < fuel)
    (done : List Char) :
    quoted? fuel done (cs.flatMap escape ++ '"' :: rest)
      = some (String.ofList (done.reverse ++ cs), rest) := by
  induction cs generalizing fuel done with
  | nil =>
    cases fuel with
    | zero => exact absurd h (Nat.not_lt_zero _)
    | succ fuel => simp [quoted?]
  | cons c cs ih =>
    cases fuel with
    | zero => exact absurd h (Nat.not_lt_zero _)
    | succ fuel =>
      rw [List.flatMap_cons, List.append_assoc, quoted?_escape,
        ih (Nat.lt_of_succ_lt_succ h) (c :: done), List.reverse_cons, List.append_assoc,
        List.singleton_append]

/-- **A quoted text is read back**, and what stands after it is left over. -/
theorem quoted?_quote (s : String) (rest : List Char) (fuel : Nat) (h : s.toList.length < fuel) :
    quoted? fuel [] ((quote s ++ rest).tail) = some (s, rest) := by
  rw [quote_eq, List.cons_append, List.tail_cons, List.append_assoc, List.singleton_append,
    quoted?_flatMap_escape s.toList rest h, List.reverse_nil, List.nil_append, String.ofList_toList]

/-- No character is written as nothing. -/
theorem length_le_flatMap_escape (cs : List Char) : cs.length ≤ (cs.flatMap escape).length := by
  induction cs with
  | nil => exact Nat.le_refl 0
  | cons c cs ih =>
    have hpos : 0 < (escape c).length := by
      unfold escape
      repeat' split
      all_goals simp
    rw [List.flatMap_cons, List.length_append, List.length_cons]
    omega

/-- **A quoted text tells where it ends**, and what it quotes. -/
theorem quote_append_inj {s t : String} {r u : List Char} (h : quote s ++ r = quote t ++ u) :
    s = t ∧ r = u := by
  have hs := quoted?_quote s r (s.toList.length + t.toList.length + 1) (by omega)
  have ht := quoted?_quote t u (s.toList.length + t.toList.length + 1) (by omega)
  rw [h, ht] at hs
  obtain ⟨rfl, rfl⟩ := Prod.mk.inj (Option.some.inj hs)
  exact ⟨rfl, rfl⟩

theorem quote_injective {s t : String} (h : quote s = quote t) : s = t :=
  (quote_append_inj (r := []) (u := []) (by rw [h])).1

end ConfGraph.Text
