/-!
# Order by 16-bit units

Keys and paths are ordered by the 16-bit units of their text: a character beyond the first plane
counts as its two surrogate halves, so it sorts before the last characters of the first plane.

* `units_injective`: text is determined by its units.
* `unitsLe_total`, `unitsLe_trans`, `unitsLe_antisymm`: the order is a linear order on text.
-/

namespace ConfGraph.Text

/-! ## 1. The units of a text -/

/-- The 16-bit units of one character: itself, or its two surrogate halves. -/
def charUnits (c : Char) : List Nat :=
  let n := c.toNat
  if n < 0x10000 then [n]
  else [0xD800 + (n - 0x10000) / 0x400, 0xDC00 + (n - 0x10000) % 0x400]

/-- The 16-bit units of a text, in order. -/
def units (s : String) : List Nat := s.toList.flatMap charUnits

/-- The text of 16-bit units; half of a pair without the other half has no character. -/
def ofUnits : List Nat → List Char
  | [] => []
  | [u] => [if 0xD800 ≤ u ∧ u < 0xE000 then Char.ofNat 0xFFFD else Char.ofNat u]
  | u :: v :: rest =>
    if 0xD800 ≤ u ∧ u < 0xDC00 ∧ 0xDC00 ≤ v ∧ v < 0xE000 then
      Char.ofNat (0x10000 + (u - 0xD800) * 0x400 + (v - 0xDC00)) :: ofUnits rest
    else if 0xD800 ≤ u ∧ u < 0xE000 then Char.ofNat 0xFFFD :: ofUnits (v :: rest)
    else Char.ofNat u :: ofUnits (v :: rest)

/-! ## 2. The order -/

/-- Lexicographic order on unit sequences; a proper beginning comes first. -/
def seqLe : List Nat → List Nat → Bool
  | [], _ => true
  | _ :: _, [] => false
  | a :: as, b :: bs => a < b || (a == b && seqLe as bs)

theorem seqLe_total : ∀ a b : List Nat, (seqLe a b || seqLe b a) = true
  | [], _ => by simp [seqLe]
  | _ :: _, [] => by simp [seqLe]
  | a :: as, b :: bs => by
    have ih := seqLe_total as bs
    simp only [seqLe, Bool.or_eq_true, decide_eq_true_eq, Bool.and_eq_true, beq_iff_eq] at ih ⊢
    rcases Nat.lt_trichotomy a b with h | h | h
    · exact .inl (.inl h)
    · exact ih.imp (fun t => .inr ⟨h, t⟩) (fun t => .inr ⟨h.symm, t⟩)
    · exact .inr (.inl h)

theorem seqLe_trans : ∀ {a b c : List Nat}, seqLe a b = true → seqLe b c = true →
    seqLe a c = true
  | [], _, _, _, _ => by simp [seqLe]
  | _ :: _, [], _, h, _ => by simp [seqLe] at h
  | _ :: _, _ :: _, [], _, h => by simp [seqLe] at h
  | a :: as, b :: bs, c :: cs, h₁, h₂ => by
    simp only [seqLe, Bool.or_eq_true, decide_eq_true_eq, Bool.and_eq_true, beq_iff_eq] at *
    rcases h₁ with h₁ | ⟨rfl, h₁⟩
    · rcases h₂ with h₂ | ⟨rfl, -⟩
      · exact .inl (Nat.lt_trans h₁ h₂)
      · exact .inl h₁
    · rcases h₂ with h₂ | ⟨rfl, h₂⟩
      · exact .inl h₂
      · exact .inr ⟨rfl, seqLe_trans h₁ h₂⟩

theorem seqLe_antisymm : ∀ {a b : List Nat}, seqLe a b = true → seqLe b a = true → a = b
  | [], [], _, _ => rfl
  | [], _ :: _, _, h => by simp [seqLe] at h
  | _ :: _, [], h, _ => by simp [seqLe] at h
  | a :: as, b :: bs, h₁, h₂ => by
    simp only [seqLe, Bool.or_eq_true, decide_eq_true_eq, Bool.and_eq_true, beq_iff_eq] at h₁ h₂
    have hab : a = b := by omega
    subst hab
    simp only [Nat.lt_irrefl, false_or, true_and] at h₁ h₂
    rw [seqLe_antisymm h₁ h₂]

/-- The order of two texts by their units. -/
def unitsLe (s t : String) : Bool := seqLe (units s) (units t)

/-! ## 3. Units determine the text -/

theorem charUnits_append_inj {c d : Char} {r t : List Nat}
    (h : charUnits c ++ r = charUnits d ++ t) : c = d ∧ r = t := by
  have hc := c.valid
  have hd := d.valid
  simp only [UInt32.isValidChar, Nat.isValidChar] at hc hd
  have key : c.toNat = d.toNat ∧ r = t := by
    simp only [charUnits] at h
    simp only [Char.toNat] at *
    split at h <;> split at h <;> simp only [List.cons_append, List.nil_append, List.cons.injEq] at h
    · exact ⟨h.1, h.2⟩
    · omega
    · omega
    · exact ⟨by omega, h.2.2⟩
  exact ⟨Char.toNat_inj.mp key.1, key.2⟩

theorem flatMap_charUnits_inj : ∀ {a b : List Char},
    a.flatMap charUnits = b.flatMap charUnits → a = b
  | [], [], _ => rfl
  | [], d :: _, h => by
    simp only [List.flatMap_nil, List.flatMap_cons, charUnits] at h
    split at h <;> simp at h
  | c :: _, [], h => by
    simp only [List.flatMap_nil, List.flatMap_cons, charUnits] at h
    split at h <;> simp at h
  | c :: r, d :: t, h => by
    simp only [List.flatMap_cons] at h
    obtain ⟨hcd, hrt⟩ := charUnits_append_inj h
    rw [hcd, flatMap_charUnits_inj hrt]

theorem units_injective {s t : String} (h : units s = units t) : s = t :=
  String.toList_inj.mp (flatMap_charUnits_inj h)

theorem unitsLe_total (s t : String) : (unitsLe s t || unitsLe t s) = true := seqLe_total _ _

theorem unitsLe_trans {s t u : String} (h₁ : unitsLe s t = true) (h₂ : unitsLe t u = true) :
    unitsLe s u = true := seqLe_trans h₁ h₂

theorem unitsLe_antisymm {s t : String} (h₁ : unitsLe s t = true) (h₂ : unitsLe t s = true) :
    s = t := units_injective (seqLe_antisymm h₁ h₂)

end ConfGraph.Text
