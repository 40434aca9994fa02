import ConfGraph.Decimal.Double

/-!
# The fewest digits that read back

A double stands for all the reals that round to it.  `Binary.shortest` gives the decimal with the
fewest digits among them, and of those the one nearest to the exact value; on a tie the even one.
All arithmetic is exact, on natural numbers.

* `Binary`: a positive double as a mantissa and a power of two, with the width of its interval.
* `Decimal`: digits and the place of the point.
* `Binary.ofBits?`: reads the bits of a finite, non-zero double.
-/

namespace ConfGraph

/-- A positive double `mantissa * 2 ^ exponent`.  Below a power of two the neighbour is only half
as far away; `narrow` says so. -/
structure Binary where
  mantissa : Nat
  exponent : Int
  narrow : Bool
deriving DecidableEq, Repr

/-- The decimal `0.d₁d₂… * 10 ^ point`, whose digits are those of `digits`. -/
structure Decimal where
  digits : Nat
  point : Int
deriving DecidableEq, Repr

/-- The decimal digits of a number, most significant first; none for zero. -/
def digitsOf (n : Nat) : List Nat :=
  if n = 0 then [] else digitsOf (n / 10) ++ [n % 10]
termination_by n
decreasing_by omega

/-- The number that a digit sequence writes. -/
def ofDigits (ds : List Nat) : Nat := ds.foldl (fun n d => 10 * n + d) 0

theorem ofDigits_append (ds : List Nat) (d : Nat) :
    ofDigits (ds ++ [d]) = 10 * ofDigits ds + d := by
  simp [ofDigits]

theorem ofDigits_digitsOf (n : Nat) : ofDigits (digitsOf n) = n := by
  induction n using digitsOf.induct with
  | case1 => simp [digitsOf, ofDigits]
  | case2 n h ih =>
    rw [digitsOf, if_neg h, ofDigits_append, ih]
    omega

theorem digitsOf_lt (n : Nat) : ∀ d ∈ digitsOf n, d < 10 := by
  induction n using digitsOf.induct with
  | case1 => simp [digitsOf]
  | case2 n h ih =>
    rw [digitsOf, if_neg h]
    intro d hd
    rcases List.mem_append.mp hd with hd | hd
    · exact ih d hd
    · simp at hd; omega

namespace Binary

/-- A finite double other than zero from its bits, without its sign. -/
def ofBits? (bits : UInt64) : Option Binary :=
  let field := bits.toNat / Number.fractionSize % 2048
  let fraction := bits.toNat % Number.fractionSize
  if field = Number.lastField then none
  else if field = 0 then
    if fraction = 0 then none else some ⟨fraction, -1074, false⟩
  else some ⟨Number.fractionSize + fraction, (field : Int) - 1075, fraction = 0 && 1 < field⟩

/-- Four times the exact value, times `2 ^ (-exponent) * 10 ^ (-g)` where these are whole, so that it
compares with `gridPoint` as an integer. -/
def centre (b : Binary) (g : Int) : Nat :=
  (4 * b.mantissa * Nat.pow 10 (-g).toNat) <<< b.exponent.toNat

/-- A quarter of the distance to the next double above, scaled like `centre`. -/
def quarter (b : Binary) (g : Int) : Nat := Nat.pow 10 (-g).toNat <<< b.exponent.toNat

/-- The grid point `n * 10 ^ g`, scaled like `centre`. -/
def gridPoint (b : Binary) (g : Int) (n : Nat) : Nat :=
  (4 * n * Nat.pow 10 g.toNat) <<< (-b.exponent).toNat

/-- Whether `n * 10 ^ g` rounds to the double: it lies in the interval, whose ends belong to it
when the mantissa is even. -/
def readsBack (b : Binary) (g : Int) (n : Nat) : Bool :=
  let p := b.gridPoint g n
  let low := b.centre g - (if b.narrow then 1 else 2) * b.quarter g
  let high := b.centre g + 2 * b.quarter g
  if b.mantissa % 2 = 0 then low ≤ p && p ≤ high else low < p && p < high

/-- The point of the grid `10 ^ g` that is nearest to the double among the two around it that read
back; of two equally near the even one. -/
def onGrid? (b : Binary) (g : Int) : Option Nat :=
  let below := b.centre g / b.gridPoint g 1
  let above := below + 1
  match b.readsBack g below && below != 0, b.readsBack g above with
  | false, false => none
  | true, false => some below
  | false, true => some above
  | true, true =>
    let left := b.centre g - b.gridPoint g below
    let right := b.gridPoint g above - b.centre g
    if left < right then some below
    else if right < left then some above
    else if below % 2 = 0 then some below else some above

/-- Whether the double is below `10 ^ k`. -/
def below (b : Binary) (k : Int) : Bool := b.centre k < b.gridPoint k 1

/-- The least `k` with the double below `10 ^ k`, found next to an estimate from the binary
logarithm. -/
def magnitude (b : Binary) : Int :=
  let guess := (((Nat.log2 b.mantissa : Int) + b.exponent) * 30103) / 100000
  let tries := [guess - 1, guess, guess + 1, guess + 2]
  (tries.find? b.below).getD (guess + 3)

/-- All digits of the exact value. -/
def exact (b : Binary) : Decimal :=
  let digits := (b.mantissa * Nat.pow 5 (-b.exponent).toNat) <<< b.exponent.toNat
  ⟨digits, (digitsOf digits).length - ((-b.exponent).toNat : Int)⟩

/-- The point of the coarsest grid, from one digit to `n`, that reads back. -/
def coarsest? (b : Binary) (k : Int) (n : Nat) : Option (Nat × Int) :=
  (List.range n).findSome? fun i =>
    let g : Int := k - (i + 1 : Nat)
    (b.onGrid? g).map fun digits => (digits, g)

/-- The decimal with the fewest digits that reads back; seventeen always suffice. -/
def shortest (b : Binary) : Decimal :=
  match b.coarsest? b.magnitude 17 with
  | some (digits, g) => ⟨digits, (digitsOf digits).length + g⟩
  | none => b.exact

end Binary

end ConfGraph
