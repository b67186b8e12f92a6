import ScriptLang.Text.Blank
import ScriptLang.Text.Lines

/-!
# Positional numerals

`Numeral.digits b n` are the digits of `n` in base `b`, the greatest place first,
and `Numeral.ofDigits b` reads them back. On top of these stand the decimal text
of an integer (`ofInt`), hexadecimal text of a fixed width (`hex`), and two
readings of text. `decimal?` wants decimal digits of any script and nothing else.
`lenient?` is the reading of the digits of an escape: blanks around, a sign, a
base mark such as `0x`, and single underscores between digits are all let
through.
-/

namespace ScriptLang

namespace Numeral

/-- The digits of `n` in front of the digits `low`. -/
def digitsOnto (b n : Nat) (low : List Nat) : List Nat :=
  if n < b ∨ b < 2 then n :: low else digitsOnto b (n / b) (n % b :: low)
termination_by n
decreasing_by
  rename_i h
  exact Nat.div_lt_self (by omega) (by omega)

def digits (b n : Nat) : List Nat := digitsOnto b n []

def ofDigits (b : Nat) (ds : List Nat) : Nat := ds.foldl (fun v d => v * b + d) 0

@[simp] theorem ofDigits_nil (b : Nat) : ofDigits b [] = 0 := rfl

theorem pow_add_one (b n : Nat) : Nat.pow b (n + 1) = Nat.pow b n * b := rfl

theorem foldl_eq_add (b v : Nat) (ds : List Nat) :
    ds.foldl (fun v d => v * b + d) v = v * Nat.pow b ds.length + ofDigits b ds := by
  induction ds generalizing v with
  | nil => simp [ofDigits]
  | cons d ds ih =>
    simp only [ofDigits, List.foldl_cons, List.length_cons, Nat.zero_mul, Nat.zero_add]
    rw [ih, ih d, pow_add_one, Nat.add_mul, ← Nat.add_assoc, Nat.mul_assoc,
      Nat.mul_comm b]

theorem ofDigits_cons (b d : Nat) (ds : List Nat) :
    ofDigits b (d :: ds) = d * Nat.pow b ds.length + ofDigits b ds := by
  simpa [ofDigits] using foldl_eq_add b d ds

theorem ofDigits_digitsOnto {b : Nat} (n : Nat) (low : List Nat) :
    ofDigits b (digitsOnto b n low) = n * Nat.pow b low.length + ofDigits b low := by
  fun_induction digitsOnto b n low with
  | case1 n low h => exact ofDigits_cons b n low
  | case2 n low h ih =>
    rw [ih, ofDigits_cons, List.length_cons, pow_add_one, ← Nat.add_assoc,
      Nat.mul_comm (Nat.pow b low.length), ← Nat.mul_assoc, ← Nat.add_mul, Nat.mul_comm _ b,
      Nat.div_add_mod]

theorem ofDigits_digits (b n : Nat) : ofDigits b (digits b n) = n := by
  simp [digits, ofDigits_digitsOnto]

/-- The sign of a digit, `a` to `z` from ten on. -/
def digitSign (d : Nat) : CodePoint :=
  if d < 10 then .ofNat (0x30 + d) else .ofNat (0x61 + (d - 10))

def ofNat (n : Nat) : Text := (digits 10 n).map digitSign

def ofInt : Int → Text
  | .ofNat n => ofNat n
  | .negSucc n => '-' :: ofNat (n + 1)

def hex (width n : Nat) : Text :=
  let shown := (digits 16 n).map digitSign
  List.replicate (width - shown.length) (CodePoint.ofChar '0') ++ shown

def decimal? (t : Text) : Option Nat :=
  if t.isEmpty then none else (t.mapM CodePoint.decimalValue?).map (ofDigits 10)

/-- The value of a sign as a digit of base `b`, where every script's decimal
digits are digits. -/
def digitOfBase? (b : Nat) (c : CodePoint) : Option Nat :=
  (c.asciiDigitValue? <|> c.decimalValue?).filter (· < b)

def isSurrounding (c : CodePoint) : Bool :=
  c.isAsciiBlank || (0x80 ≤ c.val && c.isBlank)

/-- The number written by digits of base `b`, with single underscores between
digits. -/
def separated? (b : Nat) (t : Text) : Option Nat :=
  let groups := Text.splitAt '_' t
  if groups.any List.isEmpty then none
  else (groups.flatten.mapM (digitOfBase? b)).map (ofDigits b)

/-- Hexadecimal digits after an optional mark `0x`, which an underscore may
follow. -/
def markedHex? (t : Text) : Option Nat :=
  match t with
  | c :: d :: rest =>
    if c = CodePoint.ofChar '0' && (d = CodePoint.ofChar 'x' || d = CodePoint.ofChar 'X') then
      match rest with
      | e :: rest' => if e = CodePoint.ofChar '_' then separated? 16 rest' else separated? 16 rest
      | [] => none
    else separated? 16 t
  | _ => separated? 16 t

/-- The integer of a hexadecimal numeral in its lenient reading. -/
def lenientHex? (t : Text) : Option Int :=
  match t.trim isSurrounding with
  | c :: rest =>
    if c = CodePoint.ofChar '-' then (markedHex? rest).map fun n => -(n : Int)
    else if c = CodePoint.ofChar '+' then (markedHex? rest).map Int.ofNat
    else (markedHex? (c :: rest)).map Int.ofNat
  | [] => none

end Numeral

end ScriptLang
