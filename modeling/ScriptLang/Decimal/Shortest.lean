import ScriptLang.Decimal.Binary

/-!
# The shortest decimal that reads back

The reals that round to a float form an interval around it, which owns its ends
when the significand is even. `Shortest.decimal?` looks for a decimal in the
interval with one significant digit, then with two, and so on up to seventeen.
On each grid only the two neighbours of the float can be candidates; the nearer
one wins, and of two equally near ones the even one.

All comparisons are between natural numbers: a point of a decimal grid and a
point of the binary grid are scaled to a common unit.
-/

namespace ScriptLang

/-- A decimal number `digits · 10 ^ exponent`. -/
structure Decimal where
  digits : Nat
  exponent : Int
deriving DecidableEq

namespace Shortest

/-- The reals that round to one float, in quarters of its last place: the float
is `4 · mantissa`, and the neighbours' midpoints are `low` and `high`. -/
structure Interval where
  low : Nat
  center : Nat
  high : Nat
  /-- Whether the midpoints themselves round to the float. -/
  closed : Bool
  exponent : Int

/-- How many quarters lie between a float and the midpoint below it: two, or one
below a power of two, where the floats lie twice as dense. -/
def gapBelow (mantissa : Nat) (exponent : Int) : Nat :=
  if mantissa = Magnitude.leadingBit ∧ -1074 < exponent then 1 else 2

def interval (mantissa : Nat) (exponent : Int) : Interval where
  low := 4 * mantissa - gapBelow mantissa exponent
  center := 4 * mantissa
  high := 4 * mantissa + 2
  closed := mantissa % 2 == 0
  exponent := exponent - 2

/-- A point of the decimal grid `10 ^ place`, scaled to the unit it shares with
the binary grid `2 ^ exponent`. -/
def scaleDecimal (place exponent : Int) (d : Nat) : Nat :=
  d * Nat.pow 10 place.toNat * Nat.pow 2 (-exponent).toNat

/-- A point of the binary grid `2 ^ exponent`, scaled to the unit it shares with
the decimal grid `10 ^ place`. -/
def scaleBinary (place exponent : Int) (x : Nat) : Nat :=
  x * Nat.pow 2 exponent.toNat * Nat.pow 10 (-place).toNat

def Interval.holds (i : Interval) (place : Int) (d : Nat) : Bool :=
  let point := scaleDecimal place i.exponent d
  let low := scaleBinary place i.exponent i.low
  let high := scaleBinary place i.exponent i.high
  if i.closed then low ≤ point && point ≤ high else low < point && point < high

/-- The point of a decimal grid that reads back as the float, if one does. -/
def Interval.onGrid? (i : Interval) (place : Int) : Option Nat :=
  let unit := scaleDecimal place i.exponent 1
  let center := scaleBinary place i.exponent i.center
  let below := center / unit
  match i.holds place below, i.holds place (below + 1) with
  | true, true =>
    let gap := 2 * (center % unit)
    some (if gap < unit then below
      else if unit < gap then below + 1
      else if below % 2 = 0 then below else below + 1)
  | true, false => some below
  | false, true => some (below + 1)
  | false, false => none

def Interval.climb (i : Interval) : Nat → Int → Int
  | 0, place => place
  | n + 1, place =>
    if scaleDecimal (place + 1) i.exponent 1 ≤ scaleBinary (place + 1) i.exponent i.center then
      i.climb n (place + 1)
    else place

/-- The place of the first digit of a float. The start is the logarithm to base
ten of a power of two below it, rounded down. -/
def Interval.firstPlace (i : Interval) : Int :=
  i.climb 3 (((i.center.log2 : Int) + i.exponent) * 30103 / 100000 - 1)

def Interval.search (i : Interval) : Nat → Int → Option Decimal
  | 0, _ => none
  | n + 1, place =>
    match i.onGrid? place with
    | some d => some ⟨d, place⟩
    | none => i.search n (place - 1)

def stripZeros : Nat → Decimal → Decimal
  | 0, d => d
  | n + 1, d =>
    if d.digits ≠ 0 ∧ d.digits % 10 = 0 then stripZeros n ⟨d.digits / 10, d.exponent + 1⟩ else d

/-- The shortest decimal that reads back as the positive float
`mantissa · 2 ^ exponent`. -/
def decimal (mantissa : Nat) (exponent : Int) : Decimal :=
  let i := interval mantissa exponent
  match i.search 17 i.firstPlace with
  | some d => stripZeros 17 d
  | none => ⟨0, 0⟩

end Shortest

end ScriptLang
