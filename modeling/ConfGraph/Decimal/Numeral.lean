import ConfGraph.Decimal.Reading
import ConfGraph.Text.Blank

/-!
# Numerals

A text that is compared with a number is read as one.  Blanks around it do not count, and a text of
blanks is zero.  A numeral is a decimal, with a sign or without, `Infinity`, or a run of digits to
the base 16, 8 or 2 after `0x`, `0o` or `0b`.  Any other text is no number.

* `Number.ofText`: the number that a text stands for.
* `Number.ofBeginning`, `Number.wholeOfBeginning`: the number that the beginning of a text stands for.
-/

namespace ConfGraph.Number

/-- The double that is no number. -/
def nan : Float := 0.0 / 0.0

/-- The value of a digit to a base up to 36. -/
def digitValue? (base : Nat) (c : Char) : Option Nat :=
  let n :=
    if '0' ≤ c ∧ c ≤ '9' then some (c.toNat - 48)
    else if 'a' ≤ c ∧ c ≤ 'z' then some (c.toNat - 87)
    else if 'A' ≤ c ∧ c ≤ 'Z' then some (c.toNat - 55)
    else none
  n.filter (· < base)

/-- The number that digits to a base write after those read so far. -/
def inBase? (base : Nat) (done : Nat) : List Char → Option Nat
  | [] => some done
  | c :: rest => (digitValue? base c).bind fun d => inBase? base (done * base + d) rest

/-- A run of digits to a base, which must not be empty. -/
def ofDigits (base : Nat) (cs : List Char) : Float :=
  if cs.isEmpty then nan else (inBase? base 0 cs).elim nan ofNat

/-- The exponent after its mark; zero if there is no mark. -/
def exponentOf? (cs : List Char) : Option Int :=
  match cs with
  | [] => some 0
  | mark :: rest =>
    if mark = 'e' ∨ mark = 'E' then
      let (negative, ds) := match rest with
        | '-' :: ds => (true, ds)
        | '+' :: ds => (false, ds)
        | ds => (false, ds)
      if ds.isEmpty then none
      else (inBase? 10 0 ds).map fun n => if negative then -(n : Int) else n
    else none

/-- A decimal without its sign: digits, perhaps with a point among them, and perhaps an exponent. -/
def ofUnsigned (negative : Bool) (cs : List Char) : Float :=
  if cs = "Infinity".toList then infinityOf negative
  else
    let whole := cs.takeWhile Char.isDigit
    let (fraction, rest) := match cs.dropWhile Char.isDigit with
      | '.' :: rest => (rest.takeWhile Char.isDigit, rest.dropWhile Char.isDigit)
      | rest => ([], rest)
    match inBase? 10 0 (whole ++ fraction), exponentOf? rest with
    | some m, some e =>
      if (whole ++ fraction).isEmpty then nan else ofDecimal negative m (e - fraction.length)
    | _, _ => nan

/-- A text without blanks around it as a number. -/
def ofTrimmed : List Char → Float
  | [] => 0
  | '0' :: 'x' :: ds | '0' :: 'X' :: ds => ofDigits 16 ds
  | '0' :: 'o' :: ds | '0' :: 'O' :: ds => ofDigits 8 ds
  | '0' :: 'b' :: ds | '0' :: 'B' :: ds => ofDigits 2 ds
  | '+' :: cs => ofUnsigned false cs
  | '-' :: cs => ofUnsigned true cs
  | cs => ofUnsigned false cs

/-- **The number that a text stands for.** -/
def ofText (s : String) : Float := ofTrimmed (Text.trim s).toList

/-! ## Beginnings -/

/-- The exponent with which a text begins, with its mark; nothing if there is none. -/
def exponentBeginning (cs : List Char) : List Char :=
  match cs with
  | mark :: rest =>
    let (sign, rest) := match rest with
      | '-' :: ds => (['-'], ds)
      | '+' :: ds => (['+'], ds)
      | ds => ([], ds)
    let ds := rest.takeWhile Char.isDigit
    if (mark = 'e' ∨ mark = 'E') ∧ !ds.isEmpty then mark :: (sign ++ ds) else []
  | [] => []

/-- The decimal without a sign with which a text begins. -/
def unsignedBeginning (cs : List Char) : List Char :=
  if "Infinity".toList.isPrefixOf cs then "Infinity".toList
  else
    let whole := cs.takeWhile Char.isDigit
    let (fraction, rest) := match cs.dropWhile Char.isDigit with
      | '.' :: rest => ('.' :: rest.takeWhile Char.isDigit, rest.dropWhile Char.isDigit)
      | rest => ([], rest)
    if whole.isEmpty ∧ fraction.length < 2 then []
    else whole ++ fraction ++ exponentBeginning rest

/-- **The decimal with which a text begins** after its blanks. -/
def ofBeginning (s : String) : Float :=
  match (Text.trim s).toList with
  | '-' :: cs => ofUnsigned true (unsignedBeginning cs)
  | '+' :: cs => ofUnsigned false (unsignedBeginning cs)
  | cs => ofUnsigned false (unsignedBeginning cs)

/-- The base that the digits of a text have, and the digits; base zero leaves it to the text. -/
def baseOf (base : Nat) (cs : List Char) : Nat × List Char :=
  match cs with
  | '0' :: 'x' :: ds | '0' :: 'X' :: ds =>
    if base = 0 ∨ base = 16 then (16, ds) else (base, cs)
  | cs => (if base = 0 then 10 else base, cs)

/-- **The whole number with which a text begins**, to a base from 2 to 36; base zero leaves it to the
text. -/
def wholeOfBeginning (base : Nat) (s : String) : Float :=
  let (negative, cs) := match (Text.trim s).toList with
    | '-' :: cs => (true, cs)
    | '+' :: cs => (false, cs)
    | cs => (false, cs)
  let (base, ds) := baseOf base cs
  let x := ofDigits base (ds.takeWhile fun c => (digitValue? base c).isSome)
  if negative then -x else x

end ConfGraph.Number
