import ScriptLang.Token.Misread
import ScriptLang.Token.Basic
import ScriptLang.Text.Alphabetic

/-!
# Number literals

A number starts with a digit. `0x`, `0o` and `0b` mark a base; otherwise the
digits are decimal, of any script, and a fraction or an exponent makes the number
a float. Underscores stand between digits. A point belongs to the number only if
a digit follows it, so `1..5` is a range. Integers end at `2 ^ 63 - 1`.

Every function here reads the front of a text and counts the code points it
takes.
-/

namespace ScriptLang

namespace Number

def maxInteger : Nat := 0x7FFFFFFFFFFFFFFF

/-- The greatest number of digits a decimal integer may be written with. -/
def maxDigits : Nat := 4300

def underscore : CodePoint := '_'

def isDigitPart (c : CodePoint) : Bool := c.isDigit || c = underscore

def isDigitOf (base : Nat) (c : CodePoint) : Bool := c.asciiDigitValue?.any (· < base)

def base? (c d : CodePoint) : Option Nat :=
  if c = CodePoint.ofChar '0' then
    if d = CodePoint.ofChar 'x' || d = CodePoint.ofChar 'X' then some 16
    else if d = CodePoint.ofChar 'o' || d = CodePoint.ofChar 'O' then some 8
    else if d = CodePoint.ofChar 'b' || d = CodePoint.ofChar 'B' then some 2
    else none
  else none

def bare (t : Text) : Text := t.filter (· ≠ underscore)

def refuse (t : Text) (size : Nat) (flaw : Option NumberFlaw) : Misread :=
  ⟨.invalidNumber (t.take size) flaw, 0, size⟩

def integer (t : Text) (size value : Nat) : Except Misread (Token.Content × Nat) :=
  if maxInteger < value then .error (refuse t size (some .tooLarge))
  else .ok (.integer value, size)

def scanMarked (base : Nat) (t : Text) : Except Misread (Token.Content × Nat) :=
  let body := t.drop 2
  if !(body.head?.any (isDigitOf base)) then .error (refuse t 2 (some .missingDigits))
  else
    let run := body.takeWhile fun c => isDigitOf base c || c = underscore
    let junk := (body.drop run.length).takeWhile CodePoint.isAlphanumeric
    if !junk.isEmpty then
      .error (refuse t (2 + run.length + junk.length) (some (.foreignDigit base)))
    else
      integer t (2 + run.length)
        (Numeral.ofDigits base ((bare run).map fun c => c.asciiDigitValue?.getD 0))

def fractionSize (t : Text) : Nat :=
  match t with
  | point :: d :: rest =>
    if point = CodePoint.ofChar '.' && d.isDigit then
      1 + ((d :: rest).takeWhile isDigitPart).length
    else 0
  | _ => 0

def isExponentMark (c : CodePoint) : Bool := c = CodePoint.ofChar 'e' || c = CodePoint.ofChar 'E'

def isExponentSign (c : CodePoint) : Bool := c = CodePoint.ofChar '+' || c = CodePoint.ofChar '-'

/-- The number of code points of an exponent: of its mark and sign, and of its
digits. -/
def exponentSize (t : Text) : Nat × Nat :=
  match t with
  | mark :: rest =>
    if isExponentMark mark then
      let signSize := if rest.head?.any isExponentSign then 1 else 0
      (1 + signSize, ((rest.drop signSize).takeWhile CodePoint.isDigit).length)
    else (0, 0)
  | [] => (0, 0)

/-- The integer that decimal digits write, if they are digits with a value and
not too many. -/
def decimalInteger? (t : Text) : Option Nat :=
  if maxDigits < t.length then none else Numeral.decimal? t

def exponentValue? (t : Text) : Option Int :=
  match t with
  | [] => some 0
  | c :: digits =>
    if c = CodePoint.ofChar '-' then (Numeral.decimal? digits).map fun n => -(n : Int)
    else if c = CodePoint.ofChar '+' then (Numeral.decimal? digits).map Int.ofNat
    else (Numeral.decimal? t).map Int.ofNat

/-- The float of a whole part, a fraction and an exponent, each without mark and
separators. -/
def float? (whole fraction exponent : Text) : Option Float := do
  let digits ← Numeral.decimal? (whole ++ fraction)
  let power ← exponentValue? exponent
  pure (Binary.ofDecimal digits (power - fraction.length))

def scanDecimal (t : Text) : Except Misread (Token.Content × Nat) :=
  let whole := (t.takeWhile isDigitPart).length
  let fraction := fractionSize (t.drop whole)
  let (mark, power) := exponentSize (t.drop (whole + fraction))
  let size := whole + fraction + mark + power
  if mark ≠ 0 ∧ power = 0 then .error (refuse t size (some .missingExponent))
  else if (t.take size).getLast? = some underscore then
    .error (refuse t size (some .trailingSeparator))
  else if fraction = 0 ∧ mark = 0 then
    match decimalInteger? (bare (t.take size)) with
    | some value => integer t size value
    | none => .error (refuse t size none)
  else
    let fractionDigits := bare (((t.drop whole).take fraction).drop 1)
    let exponent := ((t.drop (whole + fraction)).take (mark + power)).drop 1
    match float? (bare (t.take whole)) fractionDigits exponent with
    | some value => .ok (.float value, size)
    | none => .error (refuse t size none)

def scan (t : Text) : Except Misread (Token.Content × Nat) :=
  match t with
  | c :: d :: _ =>
    match base? c d with
    | some base => scanMarked base t
    | none => scanDecimal t
  | _ => scanDecimal t

end Number

end ScriptLang
