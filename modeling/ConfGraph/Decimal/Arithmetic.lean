import ConfGraph.Decimal.Numeral

/-!
# Arithmetic on doubles

The functions on numbers that scripts find in the standard library.

* `Number.unary?`: the functions of one number.
* `Number.binary?`: the functions of two numbers.
* `Number.largest`, `Number.smallest`, `Number.length`: the functions of any number of numbers.
-/

namespace ConfGraph.Number

/-! ## 1. Whole numbers -/

/-- Toward zero. -/
def truncated (x : Float) : Float := if isNegative x then x.ceil else x.floor

/-- A number modulo `2 ^ bits`, fractions left out; zero for what is not finite. -/
def wrapped (bits : Nat) (x : Float) : Nat :=
  (toInt? (truncated x)).elim 0 fun n => (n % Nat.pow 2 bits).toNat

/-- A number of 32 bits, the last of which is its sign. -/
def ofSigned32 (n : Nat) : Float :=
  if n < Nat.pow 2 31 then ofNat n else -ofNat (Nat.pow 2 32 - n)

/-- To the nearest whole number, up in the middle; the sign stays. -/
def rounded (x : Float) : Float :=
  let down := x.floor
  let y := if x - down ≥ 0.5 then down + 1 else down
  if isZero y && isNegative x then -0.0 else y

/-! ## 2. One number -/

/-- Minus one, zero or one. -/
def signOf (x : Float) : Float := if isNaN x || isZero x then x else if isNegative x then -1 else 1

/-- How many of 32 bits stand before the highest that is set. -/
def leadingZeros (x : Float) : Float :=
  let n := wrapped 32 x
  ofNat (if n = 0 then 32 else 31 - n.log2)

/-- The logarithm of what is one more. -/
def logOneMore (x : Float) : Float :=
  let u := 1 + x
  if u == 1 then x else u.log * x / (u - 1)

/-- One less than the exponential. -/
def expOneLess (x : Float) : Float :=
  let u := x.exp
  if u == 1 then x
  else if u - 1 == -1 then -1
  else (u - 1) * x / u.log

/-- The functions of one number. -/
def unary? (name : String) : Option (Float → Float) :=
  match name with
  | "abs" => some Float.abs
  | "acos" => some Float.acos
  | "acosh" => some Float.acosh
  | "asin" => some Float.asin
  | "asinh" => some Float.asinh
  | "atan" => some Float.atan
  | "atanh" => some Float.atanh
  | "cbrt" => some Float.cbrt
  | "ceil" => some Float.ceil
  | "clz32" => some leadingZeros
  | "cos" => some Float.cos
  | "cosh" => some Float.cosh
  | "exp" => some Float.exp
  | "expm1" => some expOneLess
  | "floor" => some Float.floor
  | "fround" => some fun x => x.toFloat32.toFloat
  | "log" => some Float.log
  | "log10" => some Float.log10
  | "log1p" => some logOneMore
  | "log2" => some Float.log2
  | "round" => some rounded
  | "sign" => some signOf
  | "sin" => some Float.sin
  | "sinh" => some Float.sinh
  | "sqrt" => some Float.sqrt
  | "tan" => some Float.tan
  | "tanh" => some Float.tanh
  | "trunc" => some truncated
  | _ => none

/-! ## 3. Two numbers -/

/-- A power; one to no number is no number. -/
def power (x y : Float) : Float :=
  if isNaN y || (x.abs == 1 && !isFinite y) then nan else x.pow y

/-- The functions of two numbers. -/
def binary? (name : String) : Option (Float → Float → Float) :=
  match name with
  | "atan2" => some Float.atan2
  | "imul" => some fun x y => ofSigned32 (wrapped 32 x * wrapped 32 y % Nat.pow 2 32)
  | "pow" => some power
  | _ => none

/-! ## 4. Any number of numbers -/

/-- The larger of two numbers; zero is larger than minus zero. -/
def larger (x y : Float) : Float :=
  if isNaN x || isNaN y then nan
  else if x > y then x
  else if x < y then y
  else if isNegative x then y else x

/-- The smaller of two numbers. -/
def smaller (x y : Float) : Float :=
  if isNaN x || isNaN y then nan
  else if x < y then x
  else if x > y then y
  else if isNegative x then x else y

/-- The largest of several numbers. -/
def largest (xs : List Float) : Float := xs.foldl larger (-infinity)

/-- The smallest of several numbers. -/
def smallest (xs : List Float) : Float := xs.foldl smaller infinity

/-- The length of a vector, scaled by its largest part so that no square is too large. -/
def length (xs : List Float) : Float :=
  let sizes := xs.map Float.abs
  if sizes.any (· == infinity) then infinity
  else
    let scale := largest (0 :: sizes)
    if isNaN scale || isZero scale then scale
    else (sizes.foldl (fun sum x => sum + (x / scale) * (x / scale)) 0).sqrt * scale

end ConfGraph.Number
