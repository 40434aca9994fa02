import ConfGraph.Decimal.Shortest

/-!
# The text of a number

Numbers are written with the fewest digits that identify them: positionally from `1e-6` up to below
`1e21`, otherwise with a signed exponent.  Zero has no sign.

* `Decimal.text`: the layout of a positive decimal.
* `Number.text`: the text of a finite double; `Number.display`, `Number.literal`: of any double.
* `Number.natText`: the text of a natural number.
-/

namespace ConfGraph

/-- One decimal digit. -/
def digitChar (d : Nat) : Char := Char.ofNat (48 + d)

namespace Number

/-- A natural number in decimal; zero is one digit. -/
def natText (n : Nat) : List Char :=
  if n = 0 then ['0'] else (digitsOf n).map digitChar

/-- An integer in decimal, with a sign in any case. -/
def signedText (e : Int) : List Char :=
  (if e < 0 then '-' else '+') :: natText e.natAbs

end Number

namespace Decimal

/-- Digits without the zeros at their end. -/
def significant (ds : List Nat) : List Nat := (ds.reverse.dropWhile (· == 0)).reverse

/-- The layout of a positive decimal with point `n` and digits `ds`: up to 21 places before the
point and up to six zeros after it are written out, anything else has an exponent. -/
def text (x : Decimal) : List Char :=
  let ds := (significant (digitsOf x.digits)).map digitChar
  let k : Int := ds.length
  let n := x.point
  if k ≤ n ∧ n ≤ 21 then ds ++ List.replicate (n - k).toNat '0'
  else if 0 < n ∧ n ≤ 21 then ds.take n.toNat ++ '.' :: ds.drop n.toNat
  else if -6 < n ∧ n ≤ 0 then '0' :: '.' :: (List.replicate (-n).toNat '0' ++ ds)
  else ds.take 1 ++ (if ds.length = 1 then [] else '.' :: ds.drop 1)
    ++ 'e' :: Number.signedText (n - 1)

end Decimal

namespace Number

/-- The text of a finite double; `0` also for negative zero. -/
def text (x : Float) : List Char :=
  match Binary.ofBits? x.toBits with
  | none => ['0']
  | some b => if isNegative x then '-' :: b.shortest.text else b.shortest.text

/-- The text of any double, with names for those that are no number. -/
def display (x : Float) : List Char :=
  if isNaN x then "NaN".toList
  else if isFinite x then text x
  else (if isNegative x then "-Infinity" else "Infinity").toList

/-- The text of a double as it is written in code, where zero keeps its sign. -/
def literal (x : Float) : List Char :=
  if isZero x && isNegative x then "-0".toList else display x

end Number

end ConfGraph
