import ScriptLang.Decimal.Shortest
import ScriptLang.Text.Numeral

/-!
# The text of a float

A float is written with the fewest digits that read back. The point is written
in place while the first digit stands for at least `10 ^ -4` and less than
`10 ^ 16`; outside, the digits are followed by an exponent with its sign and at
least two digits. A whole number in positional form ends in `.0`.
-/

namespace ScriptLang

namespace Decimal

/-- The digits of a decimal, the greatest place first. -/
def signs (d : Decimal) : Text := Numeral.ofNat d.digits

def leadingPlace (d : Decimal) : Int := d.signs.length - 1 + d.exponent

def positional (d : Decimal) : Text :=
  let signs := d.signs
  if 0 ≤ d.exponent then
    signs ++ List.replicate d.exponent.toNat (CodePoint.ofChar '0') ++ ".0"
  else
    let fraction := (-d.exponent).toNat
    if fraction < signs.length then
      signs.take (signs.length - fraction) ++ "." ++ signs.drop (signs.length - fraction)
    else
      "0." ++ List.replicate (fraction - signs.length) (CodePoint.ofChar '0') ++ signs

/-- A positive decimal with one digit before the point and an exponent. -/
def scientific (d : Decimal) : Text :=
  let place := d.leadingPlace
  let power := Numeral.ofNat place.natAbs
  let mantissa : Text := match d.signs with
    | [] => []
    | [c] => [c]
    | c :: cs => c :: ("." ++ cs)
  let padding : Text := if power.length < 2 then ['0'] else []
  mantissa ++ (if place < 0 then "e-" else "e+") ++ padding ++ power

def text (d : Decimal) : Text :=
  if -4 ≤ d.leadingPlace ∧ d.leadingPlace < 16 then d.positional else d.scientific

end Decimal

namespace Magnitude

/-- The text of a magnitude, in the fewest digits that read back. -/
def text : Magnitude → Text
  | .undefined => Text.ofString "nan"
  | .infinite negative => if negative then Text.ofString "-inf" else Text.ofString "inf"
  | .finite negative mantissa exponent =>
    let sign : Text := if negative then ['-'] else []
    if mantissa = 0 then sign ++ "0.0"
    else sign ++ (Shortest.decimal mantissa exponent).text

end Magnitude

end ScriptLang
