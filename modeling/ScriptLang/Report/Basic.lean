import ScriptLang.Text.Numeral

/-!
# Reports

The values that a report for other programs is made of, and their JSON text: every item
on a line of its own, two spaces further in than what it belongs to, and a list of
nothing on one line. The text is ASCII; other code points are escaped by units of
sixteen bits.
-/

namespace ScriptLang

inductive Report where
  | number (n : Nat)
  | text (t : Text)
  | list (items : List Report)
  | object (fields : List (Text × Report))

namespace Report

/-- The units of sixteen bits of a code point. -/
def units (n : Nat) : List Nat :=
  if n < 0x10000 then [n]
  else [0xD800 + (n - 0x10000) / 0x400, 0xDC00 + (n - 0x10000) % 0x400]

def shortEscapes : List (Nat × Char) :=
  [(0x22, '"'), (0x5C, '\\'), (0x0A, 'n'), (0x0D, 'r'), (0x09, 't'), (0x0C, 'f'), (0x08, 'b')]

def escaped (c : CodePoint) : Text :=
  match shortEscapes.lookup c.val with
  | some letter => "\\" ++ [CodePoint.ofChar letter]
  | none =>
    if 0x20 ≤ c.val && c.val ≤ 0x7E then [c]
    else (units c.val).flatMap fun u => "\\u" ++ Numeral.hex 4 u

def quotedText (t : Text) : Text := "\"" ++ t.flatMap escaped ++ "\""

def line (depth : Nat) : Text :=
  [CodePoint.lineFeed] ++ List.replicate (2 * depth) (CodePoint.ofChar ' ')

/-- Pieces between two signs, one a line, at a depth. -/
def enclosed (opening closing : Text) (depth : Nat) (pieces : List Text) : Text :=
  if pieces.isEmpty then opening ++ closing
  else opening ++ line (depth + 1) ++ Text.joinWith ("," ++ line (depth + 1)) pieces ++
    line depth ++ closing

mutual

def textAt (depth : Nat) : Report → Text
  | .number n => Numeral.ofNat n
  | .text t => quotedText t
  | .list items => enclosed "[" "]" depth (itemTexts (depth + 1) items)
  | .object fields => enclosed "\x7b" "\x7d" depth (fieldTexts (depth + 1) fields)

def itemTexts (depth : Nat) : List Report → List Text
  | [] => []
  | r :: rs => textAt depth r :: itemTexts depth rs

def fieldTexts (depth : Nat) : List (Text × Report) → List Text
  | [] => []
  | (name, r) :: fields =>
    (quotedText name ++ ": " ++ textAt depth r) :: fieldTexts depth fields

end

def written (r : Report) : Text := textAt 0 r

end Report

end ScriptLang
