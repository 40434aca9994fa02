import ConfGraph.Text.Units

/-!
# Similar words

How far one word is from another: the least number of 16-bit units to be inserted, deleted or
replaced, or of neighbours to be exchanged, where no part is changed twice.

* `distance`: the distance of two words.
* `closest`: the words of a list that are close to a given one.
-/

namespace ConfGraph.Text

/-- The least of the ways in which two words can be made to agree at their ends. -/
def cheapest (deletion insertion replacement : Nat) (exchange : Option Nat) : Nat :=
  let n := min (deletion + 1) (min (insertion + 1) replacement)
  exchange.elim n fun m => min n (m + 1)

/-- The distance of two words given from their ends. -/
def reversedDistance : List Nat → List Nat → Nat
  | [], bs => bs.length
  | as, [] => as.length
  | a :: as, b :: bs =>
    let exchange :=
      match as, bs with
      | a' :: as', b' :: bs' => if a = b' && a' = b then some (reversedDistance as' bs') else none
      | _, _ => none
    cheapest (reversedDistance as (b :: bs)) (reversedDistance (a :: as) bs)
      (reversedDistance as bs + if a = b then 0 else 1) exchange
termination_by as bs => as.length + bs.length

/-- The largest distance at which words count as close. -/
def closeness : Nat := 3

/-- How long a word is. -/
def wordLength (s : String) : Nat := (units s).length

/-- The distance of two words; words whose lengths differ too much share nothing. -/
def distance (a b : String) : Nat :=
  let longer := max (wordLength a) (wordLength b)
  if closeness < longer - min (wordLength a) (wordLength b) then longer
  else reversedDistance (units a).reverse (units b).reverse

/-- Whether words of a distance share more than two fifths of the longer one. -/
def sharesEnough (a b : String) (d : Nat) : Bool :=
  let n := max (wordLength a) (wordLength b)
  2 * n < 5 * (n - d)

/-- The best words so far and their distance, after one more. -/
def better (word : String) (best : Nat × List String) (candidate : String) : Nat × List String :=
  let d := distance word candidate
  if wordLength candidate ≤ 1 || !sharesEnough word candidate d || best.1 < d then best
  else if d < best.1 then (d, [candidate])
  else (best.1, best.2 ++ [candidate])

/-- The words of a list that are closest to a given one, if they are close. -/
def closest (word : String) (candidates : List String) : List String :=
  (candidates.foldl (better word) (closeness, [])).2

end ConfGraph.Text
