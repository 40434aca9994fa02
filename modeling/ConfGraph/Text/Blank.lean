/-!
# White space and line ends

Two character classes decide how source text, names and log values are read: white space, which
may be trimmed and which forces a log value into quotes, and line ends, at which a stack line
stops.  Both are wider than their ASCII parts.

* `isBlank_of_isLineEnd`: a line end is white space.
-/

namespace ConfGraph.Text

/-- White space: the control characters from tab to carriage return, the Unicode space separators,
the two Unicode line separators and the byte order mark. -/
def isBlank (c : Char) : Bool :=
  let n := c.toNat
  (9 ≤ n && n ≤ 13) || n == 0x20 || n == 0xA0 || n == 0x1680 || (0x2000 ≤ n && n ≤ 0x200A)
    || n == 0x2028 || n == 0x2029 || n == 0x202F || n == 0x205F || n == 0x3000 || n == 0xFEFF

/-- The characters that end a line: line feed, carriage return and the two Unicode separators. -/
def isLineEnd (c : Char) : Bool :=
  let n := c.toNat
  n == 10 || n == 13 || n == 0x2028 || n == 0x2029

theorem isBlank_of_isLineEnd {c : Char} (h : isLineEnd c = true) : isBlank c = true := by
  simp only [isLineEnd, Bool.or_eq_true, beq_iff_eq] at h
  simp only [isBlank, Bool.or_eq_true, Bool.and_eq_true, decide_eq_true_eq, beq_iff_eq]
  omega

/-- Text without its leading and trailing white space. -/
def trim (s : String) : String :=
  let front := s.toList.dropWhile isBlank
  String.ofList (front.reverse.dropWhile isBlank).reverse

theorem dropWhile_eq_nil_iff_all (p : Char → Bool) :
    ∀ cs : List Char, cs.dropWhile p = [] ↔ cs.all p = true
  | [] => by simp
  | c :: r => by
    have ih := dropWhile_eq_nil_iff_all p r
    by_cases hc : p c = true <;> simp [hc, ih]

/-- **Only white space trims to nothing.** -/
theorem trim_eq_empty_iff (s : String) : trim s = "" ↔ s.toList.all isBlank = true := by
  rw [← dropWhile_eq_nil_iff_all]
  constructor
  · intro h
    have h : (s.toList.dropWhile isBlank).reverse.dropWhile isBlank = [] := by
      have := congrArg String.toList h
      simpa [trim] using this
    rw [dropWhile_eq_nil_iff_all] at h
    cases hd : s.toList.dropWhile isBlank with
    | nil => rfl
    | cons c r =>
      have hc := List.head?_dropWhile_not isBlank s.toList
      simp_all
  · intro h
    simp [trim, h]

end ConfGraph.Text
