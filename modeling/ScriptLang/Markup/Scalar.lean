import ScriptLang.Markup.Document

/-!
# Plain scalars

What a word without quotes means in a document: nothing, a truth value, a number,
a date or a text. The spellings are those of YAML 1.1: `no` and `off` are truth
values, `017` is octal, `1:30` counts sixties, and underscores may stand in
numbers. Everything that fits none of the forms is a text.
-/

namespace ScriptLang

namespace Scalar

def nullWords : List Text := ["", "~", "null", "Null", "NULL"]

def trueWords : List Text := ["yes", "Yes", "YES", "true", "True", "TRUE", "on", "On", "ON"]

def falseWords : List Text := ["no", "No", "NO", "false", "False", "FALSE", "off", "Off", "OFF"]

/-- The words that stand for no value at all. -/
def reservedWords : List Text := ["=", "<<"]

def isUnderscore (c : CodePoint) : Bool := c = CodePoint.ofChar '_'

def isDigitPart (base : Nat) (c : CodePoint) : Bool :=
  (c.val < 0x80 && c.asciiDigitValue?.any (· < base)) || isUnderscore c

def signed (t : Text) : Int × Text :=
  match t with
  | c :: rest =>
    if c = CodePoint.ofChar '-' then (-1, rest)
    else if c = CodePoint.ofChar '+' then (1, rest)
    else (1, t)
  | [] => (1, [])

/-- The number of digits of a base, underscores left out. -/
def number (base : Nat) (t : Text) : Nat :=
  Numeral.ofDigits base ((t.filter (!isUnderscore ·)).filterMap CodePoint.asciiDigitValue?)

def inBase? (base : Nat) (t : Text) : Option Nat :=
  if !t.isEmpty && t.all (isDigitPart base) then some (number base t) else none

def isSixtieth (t : Text) : Bool :=
  match t with
  | [c] => c.isAsciiDigit
  | [c, d] => c.isAsciiDigit && c.val < 0x36 && d.isAsciiDigit
  | _ => false

/-- A number whose places, parted by colons, count sixty each. -/
def sixties? (t : Text) : Option Nat :=
  match Text.splitAt ':' t with
  | first :: second :: rest =>
    let places := second :: rest
    if first.head?.any (fun c => c.isAsciiDigit) && first.all (isDigitPart 10) &&
        places.all isSixtieth then
      some (Numeral.ofDigits 60 (number 10 first :: places.map (number 10)))
    else none
  | _ => none

def natural? (t : Text) : Option Nat :=
  match t with
  | [] => none
  | c :: rest =>
    if c = CodePoint.ofChar '0' then
      match rest with
      | [] => some 0
      | d :: digits =>
        if d = CodePoint.ofChar 'b' then inBase? 2 digits
        else if d = CodePoint.ofChar 'x' then inBase? 16 digits
        else inBase? 8 rest
    else if c.isAsciiDigit then inBase? 10 t <|> sixties? t
    else none

def integer? (t : Text) : Option Int :=
  let (sign, rest) := signed t
  (natural? rest).map fun n => sign * n

def exponent? (t : Text) : Option Int :=
  match t with
  | [] => some 0
  | mark :: sign :: digits =>
    if (mark = CodePoint.ofChar 'e' || mark = CodePoint.ofChar 'E') &&
        (sign = CodePoint.ofChar '-' || sign = CodePoint.ofChar '+') &&
        !digits.isEmpty && digits.all CodePoint.isAsciiDigit then
      some ((signed [sign]).1 * number 10 digits)
    else none
  | _ => none

def pointed? (t : Text) : Option Float :=
  let whole := t.takeWhile (isDigitPart 10)
  match t.drop whole.length with
  | point :: rest =>
    let fraction := rest.takeWhile (isDigitPart 10)
    let starts := fun (u : Text) => u.head?.any CodePoint.isAsciiDigit
    if point = CodePoint.ofChar '.' && (starts whole || (whole.isEmpty && starts fraction)) then
      (exponent? (rest.drop fraction.length)).map fun power =>
        let digits := fraction.filter (!isUnderscore ·)
        Binary.ofDecimal (number 10 (whole ++ fraction)) (power - digits.length)
    else none
  | [] => none

/-- A float whose whole part counts sixties. -/
def pointedSixties? (t : Text) : Option Float :=
  let whole := t.takeWhile (· ≠ CodePoint.ofChar '.')
  match t.drop whole.length, sixties? whole with
  | _ :: fraction, some n =>
    if fraction.all (isDigitPart 10) then
      let digits := fraction.filter (!isUnderscore ·)
      some (Binary.ofDecimal (n * Nat.pow 10 digits.length + number 10 digits) (-digits.length))
    else none
  | _, _ => none

def float? (t : Text) : Option Float :=
  let (sign, rest) := signed t
  let signedFloat := fun x => if sign < 0 then -x else x
  if rest ∈ ([".inf", ".Inf", ".INF"] : List Text) then
    some (signedFloat (Float.ofBits 0x7FF0000000000000))
  else if t ∈ ([".nan", ".NaN", ".NAN"] : List Text) then
    some (Float.ofBits 0x7FF8000000000000)
  else if t.head? = some (CodePoint.ofChar '.') then pointed? t
  else if rest.head? = some (CodePoint.ofChar '.') then none
  else (pointed? rest <|> pointedSixties? rest).map signedFloat

def isDigits (least most : Nat) (t : Text) : Bool :=
  least ≤ t.length && t.length ≤ most && t.all CodePoint.isAsciiDigit

def isDate (t : Text) : Bool :=
  match Text.splitAt '-' t with
  | [year, month, day] => isDigits 4 4 year && isDigits 2 2 month && isDigits 2 2 day
  | _ => false

def isZone (t : Text) : Bool :=
  match t with
  | [] => true
  | c :: rest =>
    if c = CodePoint.ofChar 'Z' then rest.isEmpty
    else if c = CodePoint.ofChar '-' || c = CodePoint.ofChar '+' then
      match Text.splitAt ':' rest with
      | [hour] => isDigits 1 2 hour
      | [hour, minute] => isDigits 1 2 hour && isDigits 2 2 minute
      | _ => false
    else false

def isTime (t : Text) : Bool :=
  let clock := t.takeWhile fun c => c.isAsciiDigit || c = CodePoint.ofChar ':'
  let rest := t.drop clock.length
  let fraction := match rest with
    | c :: digits =>
      if c = CodePoint.ofChar '.' then 1 + (digits.takeWhile CodePoint.isAsciiDigit).length else 0
    | [] => 0
  let zone := (rest.drop fraction).dropWhile fun c =>
    c = CodePoint.ofChar ' ' || c = CodePoint.ofChar '\t'
  match Text.splitAt ':' clock with
  | [hour, minute, second] =>
    isDigits 1 2 hour && isDigits 2 2 minute && isDigits 2 2 second && isZone zone
  | _ => false

/-- Whether a text is a point in time: a day, a `T` or blanks, and a time. -/
def isMoment (t : Text) : Bool :=
  let isPart := fun (c : CodePoint) => c.isAsciiDigit || c = CodePoint.ofChar '-'
  let isGap := fun (c : CodePoint) => c = CodePoint.ofChar ' ' || c = CodePoint.ofChar '\t'
  let day := t.takeWhile isPart
  match Text.splitAt '-' day, t.drop day.length with
  | [year, month, date], c :: rest =>
    isDigits 4 4 year && isDigits 1 2 month && isDigits 1 2 date &&
      (if c = CodePoint.ofChar 'T' || c = CodePoint.ofChar 't' then isTime rest
        else isGap c && isTime (rest.dropWhile isGap))
  | _, _ => false

def plain? (t : Text) : Option Document :=
  if t ∈ nullWords then some .null
  else if t ∈ trueWords then some (.boolean true)
  else if t ∈ falseWords then some (.boolean false)
  else if t ∈ reservedWords then none
  else
    match integer? t, float? t with
    | some n, _ => some (.integer n)
    | none, some x => some (.float x)
    | none, none =>
      if isDate t then some (.date t)
      else if isMoment t then some (.moment t)
      else some (.text t)

end Scalar

end ScriptLang
