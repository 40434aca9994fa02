import ConfGraph.Value.Basic

/-!
# Reading JSON text

A value is read from its JSON text: four blanks may stand between tokens, a repeated name keeps
its first place and its last value, and numbers become the nearest doubles.

* `Json.value?`: reads one value from the front of a text and returns the rest.
* `Json.parse?`: reads a text that holds one value and nothing else.
-/

namespace ConfGraph.Json

/-! ## 1. Tokens -/

/-- The characters that may stand between tokens. -/
def isSpace (c : Char) : Bool := c = ' ' || c = '\t' || c = '\n' || c = '\r'

/-- A text without the blanks in front. -/
def skip (cs : List Char) : List Char := cs.dropWhile isSpace

/-- The value of a hexadecimal digit. -/
def hexValue? (c : Char) : Option Nat :=
  if '0' ≤ c ∧ c ≤ '9' then some (c.toNat - 48)
  else if 'a' ≤ c ∧ c ≤ 'f' then some (c.toNat - 87)
  else if 'A' ≤ c ∧ c ≤ 'F' then some (c.toNat - 55)
  else none

/-- A 16-bit unit from its four hexadecimal digits, and the rest. -/
def unit? : List Char → Option (Nat × List Char)
  | a :: b :: c :: d :: rest => do
    let a ← hexValue? a
    let b ← hexValue? b
    let c ← hexValue? c
    let d ← hexValue? d
    some (((a * 16 + b) * 16 + c) * 16 + d, rest)
  | _ => none

/-- The character of a 16-bit unit that is no half of a pair; a lone half has no character. -/
def unitChar (u : Nat) : Char := if 0xD800 ≤ u ∧ u < 0xE000 then Char.ofNat 0xFFFD else Char.ofNat u

/-- The second half of a pair, if the text goes on with one. -/
def lowHalf? : List Char → Option (Nat × List Char)
  | '\\' :: 'u' :: rest => (unit? rest).filter fun u => 0xDC00 ≤ u.1 ∧ u.1 < 0xE000
  | _ => none

/-- What stands after a backslash, and the rest. -/
def escaped? : List Char → Option (Char × List Char)
  | '"' :: rest => some ('"', rest)
  | '\\' :: rest => some ('\\', rest)
  | '/' :: rest => some ('/', rest)
  | 'b' :: rest => some (Char.ofNat 8, rest)
  | 'f' :: rest => some (Char.ofNat 12, rest)
  | 'n' :: rest => some ('\n', rest)
  | 'r' :: rest => some ('\r', rest)
  | 't' :: rest => some ('\t', rest)
  | 'u' :: rest =>
    match unit? rest with
    | none => none
    | some (high, rest) =>
      if 0xD800 ≤ high ∧ high < 0xDC00 then
        match lowHalf? rest with
        | some (low, rest) =>
          some (Char.ofNat (0x10000 + (high - 0xD800) * 0x400 + (low - 0xDC00)), rest)
        | none => some (unitChar high, rest)
      else some (unitChar high, rest)
  | _ => none

/-- A quoted text after its opening quote, and the rest; `done` holds what is read so far, last
character first. -/
def quoted? : Nat → List Char → List Char → Option (String × List Char)
  | 0, _, _ => none
  | fuel + 1, done, cs =>
    match cs with
    | [] => none
    | '"' :: rest => some (String.ofList done.reverse, rest)
    | '\\' :: rest =>
      match escaped? rest with
      | some (c, rest) => quoted? fuel (c :: done) rest
      | none => none
    | c :: rest => if c.toNat < 32 then none else quoted? fuel (c :: done) rest

/-- The longest run of digits in front, and the rest. -/
def digits (cs : List Char) : List Char × List Char := (cs.takeWhile Char.isDigit, cs.dropWhile Char.isDigit)

/-- The number that a run of digits writes. -/
def digitsValue (ds : List Char) : Nat := ds.foldl (fun n c => 10 * n + (c.toNat - 48)) 0

/-- The fraction of a number, if there is one: its digits and the rest. -/
def fraction? : List Char → Option (List Char × List Char)
  | '.' :: rest => if (digits rest).1.isEmpty then none else some (digits rest)
  | rest => some ([], rest)

/-- The digits of an exponent after its sign. -/
def exponentDigits? (negative : Bool) (cs : List Char) : Option (Int × List Char) :=
  let (ds, rest) := digits cs
  if ds.isEmpty then none
  else some (if negative then -(digitsValue ds : Int) else (digitsValue ds : Int), rest)

/-- The exponent of a number, zero if there is none, and the rest. -/
def exponent? : List Char → Option (Int × List Char)
  | c :: rest =>
    if c = 'e' ∨ c = 'E' then
      match rest with
      | '-' :: rest => exponentDigits? true rest
      | '+' :: rest => exponentDigits? false rest
      | rest => exponentDigits? false rest
    else some (0, c :: rest)
  | [] => some (0, [])

/-- The whole part of a number: one zero, or digits that do not start with one. -/
def whole? (cs : List Char) : Option (List Char × List Char) :=
  match cs with
  | '0' :: rest => some (['0'], rest)
  | _ => if (digits cs).1.isEmpty then none else some (digits cs)

/-- A number without its sign, and the rest. -/
def unsigned? (negative : Bool) (cs : List Char) : Option (Float × List Char) := do
  let (whole, rest) ← whole? cs
  let (fraction, rest) ← fraction? rest
  let (exponent, rest) ← exponent? rest
  some (Number.ofDecimal negative (digitsValue (whole ++ fraction)) (exponent - fraction.length), rest)

/-- A number, and the rest. -/
def number? : List Char → Option (Float × List Char)
  | '-' :: rest => unsigned? true rest
  | cs => unsigned? false cs

/-- A value that is one word, and the rest. -/
def atom? : List Char → Option (Value × List Char)
  | 'n' :: 'u' :: 'l' :: 'l' :: rest => some (.null, rest)
  | 't' :: 'r' :: 'u' :: 'e' :: rest => some (.bool true, rest)
  | 'f' :: 'a' :: 'l' :: 's' :: 'e' :: rest => some (.bool false, rest)
  | cs => (number? cs).map fun (x, rest) => (.num x, rest)

/-! ## 2. Values -/

section

variable (atom? : List Char → Option (Value × List Char))

mutual

/-- A value in front of a text, without blanks before it, and the rest, where values of one word are
read in a given way. -/
def read? : Nat → List Char → Option (Value × List Char)
  | 0, _ => none
  | fuel + 1, cs =>
    match cs with
    | '"' :: rest => (quoted? fuel [] rest).map fun (s, rest) => (.str s, rest)
    | '[' :: rest =>
      match skip rest with
      | ']' :: rest => some (.list [], rest)
      | rest => (readItems? fuel ']' rest).map fun (items, rest) => (.list items, rest)
    | c :: rest =>
      if c = '\x7b' then
        match skip rest with
        | d :: after =>
          if d = '\x7d' then some (.record .host [], after)
          else (readFields? fuel (d :: after)).map fun (entries, rest) =>
            (.record .host (Fields.ofList entries), rest)
        | [] => none
      else atom? cs
    | [] => none

/-- The items of a list up to the mark that closes it, and the rest. -/
def readItems? : Nat → Char → List Char → Option (List Value × List Char)
  | 0, _, _ => none
  | fuel + 1, close, cs =>
    match read? fuel cs with
    | none => none
    | some (v, rest) =>
      match skip rest with
      | ',' :: rest => (readItems? fuel close (skip rest)).map fun (vs, rest) => (v :: vs, rest)
      | c :: rest => if c = close then some ([v], rest) else none
      | [] => none

/-- The fields of a record up to the closing brace, and the rest. -/
def readFields? : Nat → List Char → Option (List (String × Value) × List Char)
  | 0, _ => none
  | fuel + 1, cs =>
    match cs with
    | '"' :: rest =>
      match quoted? fuel [] rest with
      | none => none
      | some (name, rest) =>
        match skip rest with
        | ':' :: rest =>
          match read? fuel (skip rest) with
          | none => none
          | some (v, rest) =>
            match skip rest with
            | ',' :: rest =>
              (readFields? fuel (skip rest)).map fun (fs, rest) => ((name, v) :: fs, rest)
            | c :: rest => if c = '\x7d' then some ([(name, v)], rest) else none
            | [] => none
        | _ => none
    | _ => none

end

end

/-- A value in front of a text, and the rest. -/
def value? (cs : List Char) : Option (Value × List Char) := read? atom? (cs.length + 1) (skip cs)

/-- The value that a JSON text writes. -/
def parse? (s : String) : Option Value :=
  match value? s.toList with
  | some (v, rest) => if (skip rest).isEmpty then some v else none
  | none => none

end ConfGraph.Json
