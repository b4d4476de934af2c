/-!
# Floating-point numbers as exact values

A finite floating-point number is a whole number times a power of two.  `Numeral.ofFloat` reads
this exact value, and the sign, off the bits; the exceptional values are kept apart.
-/

namespace Prototypal

/-- The exact value `significand * 2 ^ exponent` of a finite number without its sign. -/
structure Dyadic where
  significand : Nat
  exponent : Int
  /-- The gap to the number below is half the gap to the number above. -/
  narrowBelow : Bool
deriving DecidableEq, Repr

namespace Dyadic

/-- The value cut down to a whole number. -/
def floor (x : Dyadic) : Nat :=
  x.significand * Nat.pow 2 x.exponent.toNat / Nat.pow 2 (-x.exponent).toNat

/-- The value as a whole number, if it is one. -/
def whole? (x : Dyadic) : Option Nat :=
  if x.significand % Nat.pow 2 (-x.exponent).toNat = 0 then some x.floor else none

end Dyadic

/-- A floating-point number, taken apart. -/
inductive Numeral where
  | notANumber
  | infinite (negative : Bool)
  | finite (negative : Bool) (value : Dyadic)
deriving DecidableEq, Repr

/-- Takes a floating-point number apart: one bit of sign, eleven of exponent, 52 of fraction. -/
def Numeral.ofFloat (n : Float) : Numeral :=
  let bits : Nat := n.toBits.toNat
  let implicitBit : Nat := Nat.pow 2 52
  let negative := bits >>> 63 == 1
  let exponent : Nat := (bits >>> 52) % 2048
  let fraction : Nat := bits % implicitBit
  if exponent = 2047 then
    if fraction = 0 then .infinite negative else .notANumber
  else if exponent = 0 then .finite negative ⟨fraction, -1074, false⟩
  else
    .finite negative
      ⟨implicitBit + fraction, (exponent : Int) - 1075, fraction == 0 && 1 < exponent⟩

/-- The whole number below a floating-point number, kept between zero and `bound`.  A value that
is no number counts as zero. -/
def Numeral.clamp (bound : Nat) : Numeral → Nat
  | notANumber => 0
  | infinite negative => if negative then 0 else bound
  | finite negative x => if negative then 0 else min bound x.floor

end Prototypal
