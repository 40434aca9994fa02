/-!
# Quoted text

A text between double quotes.  The quote and the backslash are written with a backslash before
them, the five control characters that have a letter of their own with that letter, every other
control character as four hexadecimal digits, and all else as it stands.

* `quote_eq`: a quoted text is its escaped characters between two quotes.
* `not_mem_escape`: what is written between the quotes holds no control character.
-/

namespace ConfGraph.Text

/-- One hexadecimal digit, lower case. -/
def hexDigit (n : Nat) : Char :=
  if n < 10 then Char.ofNat (48 + n) else Char.ofNat (87 + n)

/-- One character of a text as it stands between quotes. -/
def escape (c : Char) : List Char :=
  if c = '"' then ['\\', '"']
  else if c = '\\' then ['\\', '\\']
  else if c.toNat = 8 then ['\\', 'b']
  else if c.toNat = 9 then ['\\', 't']
  else if c.toNat = 10 then ['\\', 'n']
  else if c.toNat = 12 then ['\\', 'f']
  else if c.toNat = 13 then ['\\', 'r']
  else if c.toNat < 32 then
    ['\\', 'u', '0', '0', hexDigit (c.toNat / 16), hexDigit (c.toNat % 16)]
  else [c]

/-- A text between quotes. -/
def quote (s : String) : List Char := '"' :: (s.toList.flatMap escape ++ ['"'])

theorem quote_eq (s : String) : quote s = '"' :: (s.toList.flatMap escape ++ ['"']) := rfl

theorem hexDigit_ge {n : Nat} (h : n < 16) : 48 ≤ (hexDigit n).toNat := by
  have : ∀ m : Fin 16, 48 ≤ (hexDigit m.val).toNat := by decide
  exact this ⟨n, h⟩

/-- **No control character is written.**  In particular a quoted text is one line. -/
theorem not_mem_escape {c d : Char} (h : d ∈ escape c) : 32 ≤ d.toNat := by
  unfold escape at h
  split at h
  · simp at h; rcases h with rfl | rfl <;> decide
  split at h
  · simp at h; subst h; decide
  split at h
  · simp at h; rcases h with rfl | rfl <;> decide
  split at h
  · simp at h; rcases h with rfl | rfl <;> decide
  split at h
  · simp at h; rcases h with rfl | rfl <;> decide
  split at h
  · simp at h; rcases h with rfl | rfl <;> decide
  split at h
  · simp at h; rcases h with rfl | rfl <;> decide
  split at h
  · have h₁ := hexDigit_ge (n := c.toNat / 16) (by omega)
    have h₂ := hexDigit_ge (n := c.toNat % 16) (by omega)
    simp at h
    rcases h with rfl | rfl | rfl | rfl | rfl
    · decide
    · decide
    · decide
    · omega
    · omega
  · simp at h; subst h; omega

end ConfGraph.Text
