import ScriptLang.Token.Misread
import ScriptLang.Token.Basic

/-!
# String literals

A string stands between two equal quotes on one line. A backslash starts an
escape: one of a few letters and signs, or `x` and `u` with the two or four code
points after them, whatever they are, read as a lenient hexadecimal numeral. Past
the end of the text those count as U+0000, which no numeral holds.
-/

namespace ScriptLang

namespace StringLiteral

def letterEscape? (c : CodePoint) : Option CodePoint :=
  if c = CodePoint.ofChar 'n' then some '\n'
  else if c = CodePoint.ofChar 't' then some '\t'
  else if c = CodePoint.ofChar 'r' then some '\r'
  else if c = CodePoint.ofChar '\\' then some '\\'
  else if c = CodePoint.ofChar '"' then some '"'
  else if c = CodePoint.ofChar '\'' then some '\''
  else if c = CodePoint.ofChar '0' then some (.ofNat 0)
  else none

def width? (c : CodePoint) : Option Nat :=
  if c = CodePoint.ofChar 'x' then some 2
  else if c = CodePoint.ofChar 'u' then some 4
  else none

/-- An escape that stands for nothing: the text a message shows for it and the
number of code points it takes. -/
structure BadEscape where
  shown : Text
  size : Nat

/-- The escape at the front of the text after a backslash, with the number of
code points it takes. -/
def escape (t : Text) : Except BadEscape (CodePoint × Nat) :=
  match t with
  | [] => .error ⟨[], 0⟩
  | c :: rest =>
    match letterEscape? c with
    | some d => .ok (d, 1)
    | none =>
      match width? c with
      | none => .error ⟨[c], 1⟩
      | some width =>
        let taken := rest.take width
        let shown := taken ++ List.replicate (width - taken.length) (CodePoint.ofNat 0)
        match Numeral.lenientHex? shown with
        | some (.ofNat n) => .ok (CodePoint.ofNat n, 1 + taken.length)
        | _ => .error ⟨c :: shown, 1 + taken.length⟩

/-- How the text after an opening quote reads. Sizes count the code points from
there on. -/
inductive Reading where
  | closed (value : Text) (size : Nat)
  /-- The line or the text ends first. -/
  | unterminated (size : Nat)
  | badEscape (skip : Nat) (escape : BadEscape)

def Reading.after (size : Nat) (value : CodePoint) : Reading → Reading
  | .closed rest n => .closed (value :: rest) (size + n)
  | .unterminated n => .unterminated (size + n)
  | .badEscape skip e => .badEscape (size + skip) e

def body (quote : CodePoint) (t : Text) : Reading :=
  match t with
  | [] => .unterminated 0
  | c :: rest =>
    if c = quote then .closed [] 1
    else if c = CodePoint.lineFeed then .unterminated 0
    else if c = CodePoint.ofChar '\\' then
      match escape rest with
      | .ok (value, size) => (body quote (rest.drop size)).after (1 + size) value
      | .error e => .badEscape 1 e
    else (body quote rest).after 1 c
termination_by t.length
decreasing_by all_goals simp +arith

def scan (quote : CodePoint) (t : Text) : Except Misread (Token.Content × Nat) :=
  match body quote t with
  | .closed value size => .ok (.string value, size)
  | .unterminated size => .error ⟨.unterminatedString, 0, 1 + size⟩
  | .badEscape skip e => .error ⟨.invalidEscape e.shown, 1 + skip, e.size⟩

end StringLiteral

end ScriptLang
