import Prototypal.Decimal.Dyadic

/-!
# The shortest decimal of a number

The decimals that a reader would round to a given number form an interval around its exact value.
Among them `Dyadic.shortest` picks one with the fewest digits, and of those the nearest.  It
looks at the decimal grids from coarse to fine; on each grid only the two neighbours of the exact
value can be nearest, so only they are tested.

`Numeral.text` writes the result positionally, without an exponent and without a trailing point.
-/

namespace Prototypal

/-- The decimal `digits * 10 ^ exponent`. -/
structure Decimal where
  digits : Nat
  exponent : Int
deriving DecidableEq, Repr

namespace Dyadic

/-- The nearest multiple of `10 ^ e` that a reader rounds to the number, if there is one; of two
equally near ones the larger.  All quantities are compared as multiples of one common unit: the
unit of the grid is `step`, and the ends of the interval lie half a gap from the value.  The ends
belong to the interval if the significand is even. -/
def onGrid? (x : Dyadic) (e : Int) : Option Nat :=
  let units (n : Nat) : Nat := n * Nat.pow 2 x.exponent.toNat * Nat.pow 10 (-e).toNat
  let step := 4 * Nat.pow 2 (-x.exponent).toNat * Nat.pow 10 e.toNat
  let value := units (4 * x.significand)
  let low := units (4 * x.significand - if x.narrowBelow then 1 else 2)
  let high := units (4 * x.significand + 2)
  let inside (c : Nat) : Bool :=
    if x.significand % 2 = 0 then low ≤ c * step && c * step ≤ high
    else low < c * step && c * step < high
  let below := value / step
  if inside below && inside (below + 1) then
    some (if 2 * value < (2 * below + 1) * step then below else below + 1)
  else if inside below then some below
  else if inside (below + 1) then some (below + 1)
  else none

/-- Searches that many grids, starting with that of `10 ^ e`, for the first with a decimal. -/
def search (x : Dyadic) : Nat → Int → Option Decimal
  | 0, _ => none
  | n + 1, e =>
    match x.onGrid? e with
    | some c => some ⟨c, e⟩
    | none => x.search n (e - 1)

/-- A decimal grid that is at least as coarse as the number is large. -/
def coarsest (x : Dyadic) : Int :=
  ((x.significand.log2 + x.exponent + 1) * 30103).fdiv 100000 + 1

/-- The shortest decimal that a reader rounds to the number.  Seventeen digits always suffice;
were they not to, the answer would be the exact value. -/
def shortest (x : Dyadic) : Decimal :=
  if x.significand = 0 then ⟨0, 0⟩
  else (x.search 20 x.coarsest).getD
    ⟨x.significand * Nat.pow 2 x.exponent.toNat * Nat.pow 5 (-x.exponent).toNat, min x.exponent 0⟩

end Dyadic

/-- A decimal in positional notation. -/
def Decimal.text (d : Decimal) : String :=
  let digits := Nat.toDigits 10 d.digits
  if 0 ≤ d.exponent then String.ofList (digits ++ List.replicate d.exponent.toNat '0')
  else
    let places := (-d.exponent).toNat
    let padded := List.replicate (places + 1 - digits.length) '0' ++ digits
    let point := padded.length - places
    String.ofList (padded.take point ++ '.' :: padded.drop point)

/-- A floating-point number in positional notation. -/
def Numeral.text : Numeral → String
  | notANumber => "NaN"
  | infinite negative => if negative then "-inf" else "inf"
  | finite negative x => (if negative then "-" else "") ++ x.shortest.text

end Prototypal
