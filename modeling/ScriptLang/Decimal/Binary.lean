/-!
# Binary floating-point numbers as exact numbers

`Magnitude.ofFloat` reads the bits of a float: a sign and a natural number times
a power of two, or one of the values that are no number of this form. `nearest`
goes the other way: the float closest to a quotient of natural numbers, a tie
going to the even neighbour, with gradual underflow and overflow to infinity.
-/

namespace ScriptLang

inductive Magnitude where
  | undefined
  | infinite (negative : Bool)
  /-- `mantissa · 2 ^ exponent`, with a sign that zero has too. -/
  | finite (negative : Bool) (mantissa : Nat) (exponent : Int)
deriving DecidableEq

namespace Magnitude

/-- Two to the power 52, the first bit of a significand of fifty-three bits. -/
def leadingBit : Nat := 0x10000000000000

/-- The magnitude with the given sixty-four bits: sign, eleven bits of exponent,
fifty-two bits of fraction. -/
def ofBits (bits : Nat) : Magnitude :=
  let negative := bits / (2048 * leadingBit) % 2 == 1
  let exponent : Nat := bits / leadingBit % 2048
  let fraction : Nat := bits % leadingBit
  if exponent = 2047 then
    if fraction = 0 then .infinite negative else .undefined
  else if exponent = 0 then .finite negative fraction (-1074)
  else .finite negative (leadingBit + fraction) ((exponent : Int) - 1075)

def ofFloat (x : Float) : Magnitude := ofBits x.toBits.toNat

def toInt? : Magnitude → Option Int
  | .finite negative mantissa exponent =>
    let sign : Int := if negative then -1 else 1
    if 0 ≤ exponent then some (sign * (mantissa * Nat.pow 2 exponent.toNat : Nat))
    else
      let unit := Nat.pow 2 (-exponent).toNat
      if mantissa % unit = 0 then some (sign * (mantissa / unit : Nat)) else none
  | _ => none

end Magnitude

namespace Binary

open Magnitude

/-- The natural number closest to a quotient; a tie goes to the even one. -/
def roundDiv (num den : Nat) : Nat :=
  let q := num / den
  let r := num % den
  if 2 * r < den then q
  else if den < 2 * r then q + 1
  else if q % 2 = 0 then q else q + 1

/-- The exponent of the last place of a quotient: the number of the power of two
by which fifty-three bits count, no less than the smallest one there is. -/
def lastPlace (num den : Nat) : Int :=
  let guess : Int := num.log2 - den.log2 - 52
  let below : Bool :=
    if 0 ≤ guess then num < den * Nat.pow 2 (52 + guess.toNat)
    else num * Nat.pow 2 (-guess).toNat < den * leadingBit
  max (-1074) (if below then guess - 1 else guess)

/-- The bits of the float closest to a quotient with a positive divisor. -/
def nearestBits (num den : Nat) : Nat :=
  if num = 0 then 0
  else
    let place := lastPlace num den
    let significand :=
      if 0 ≤ place then roundDiv num (den * Nat.pow 2 place.toNat)
      else roundDiv (num * Nat.pow 2 (-place).toNat) den
    let (significand, place) :=
      if significand = 2 * leadingBit then (leadingBit, place + 1) else (significand, place)
    if 971 < place then 2047 * leadingBit
    else if significand < leadingBit then significand
    else (place + 1075).toNat * leadingBit + (significand - leadingBit)

def nearest (num den : Nat) : Float := Float.ofBits (nearestBits num den).toUInt64

def ofNat (n : Nat) : Float := nearest n 1

def ofInt : Int → Float
  | .ofNat n => ofNat n
  | .negSucc n => -ofNat (n + 1)

/-- The float closest to `digits · 10 ^ exponent`. An exponent beyond every float
is answered without the power of ten. -/
def ofDecimal (digits : Nat) (exponent : Int) : Float :=
  if digits = 0 then ofNat 0
  else
    if 400 < exponent then Float.ofBits 0x7FF0000000000000
    else if (digits.log2 : Int) + 1 + exponent * 3 < -1100 then ofNat 0
    else if 0 ≤ exponent then nearest (digits * Nat.pow 10 exponent.toNat) 1
    else nearest digits (Nat.pow 10 (-exponent).toNat)

end Binary

end ScriptLang
