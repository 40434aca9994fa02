import ConfGraph.Text.Identifier
import Mathlib.Data.List.Basic

/-!
# Splitting and joining

A text that is split at a character is made of the parts with that character between them.  Parts that
do not hold the character are told from the joined text, so joining loses nothing.

* `splitAt_eq_splitOn`: splitting, by the library's function.
* `splitAt_joined`: joined parts are split into themselves.
* `joined_injective`: joined parts tell the parts.
* `not_mem_of_isSegment`: segments hold no dot.
-/

namespace ConfGraph.Text

variable {sep : Char}

theorem splitAt_eq_splitOn (sep : Char) (cs : List Char) : splitAt sep cs = cs.splitOn sep := by
  induction cs with
  | nil => rfl
  | cons c rest ih =>
    rw [splitAt, List.splitOn_cons_eq_if_modifyHead, ih]
    by_cases hc : c = sep
    · rw [if_pos hc, if_pos (beq_iff_eq.mpr hc)]
    · rw [if_neg hc, if_neg (by simpa using hc)]
      cases hrest : rest.splitOn sep with
      | nil => exact absurd hrest (List.splitOn_ne_nil sep rest)
      | cons part parts => rfl

theorem splitAt_append (cs rest : List Char) :
    splitAt sep (cs ++ sep :: rest) = splitAt sep cs ++ splitAt sep rest := by
  simp only [splitAt_eq_splitOn, List.splitOn_append_cons_self]

theorem splitAt_of_not_mem {cs : List Char} (h : sep ∉ cs) : splitAt sep cs = [cs] := by
  rw [splitAt_eq_splitOn, List.splitOn_eq_singleton h]

/-- A run of separators has nothing between them. -/
theorem splitAt_replicate (sep : Char) (n : Nat) :
    splitAt sep (List.replicate n sep) = List.replicate (n + 1) [] := by
  induction n with
  | zero => rfl
  | succ n ih =>
    rw [List.replicate_succ, splitAt, if_pos rfl, ih]
    rfl

/-- **Joined parts are split into themselves.** -/
theorem splitAt_joined {parts : List (List Char)} (hne : parts ≠ [])
    (h : ∀ part ∈ parts, sep ∉ part) : splitAt sep (List.intercalate [sep] parts) = parts := by
  rw [splitAt_eq_splitOn, List.splitOn_intercalate sep h hne]

/-- **Joined parts tell the parts.** -/
theorem joined_injective (sep : Char) {parts parts' : List String} (hne : parts ≠ []) (hne' : parts' ≠ [])
    (h : ∀ part ∈ parts, sep ∉ part.toList) (h' : ∀ part ∈ parts', sep ∉ part.toList)
    (heq : String.intercalate (String.singleton sep) parts
      = String.intercalate (String.singleton sep) parts') : parts = parts' := by
  have htexts := congrArg (splitAt sep ·.toList) heq
  simp only [String.toList_intercalate, String.toList_singleton] at htexts
  rw [splitAt_joined (by simpa using hne) (by simpa using h),
    splitAt_joined (by simpa using hne') (by simpa using h')] at htexts
  exact List.map_injective_iff.mpr (fun _ _ => String.toList_inj.mp) htexts

/-- Segments hold no dot. -/
theorem not_mem_of_isSegment {cs : List Char} (h : isSegment cs = true) : '.' ∉ cs := by
  have hdot : continuesSegment '.' = false := by decide
  have hstart : startsName '.' = false := by decide
  cases cs with
  | nil => exact List.not_mem_nil
  | cons c rest =>
    obtain ⟨hc, hrest⟩ := Bool.and_eq_true_iff.mp h
    intro hmem
    rcases List.mem_cons.mp hmem with rfl | hmem
    · exact Bool.false_ne_true (hstart.symm.trans hc)
    · exact Bool.false_ne_true (hdot.symm.trans (List.all_eq_true.mp hrest _ hmem))

theorem ne_nil_of_isSegment {cs : List Char} (h : isSegment cs = true) : cs ≠ [] := by
  rintro rfl
  exact Bool.false_ne_true h

end ConfGraph.Text
