import ScriptLang.Value.Basic
import ScriptLang.Text.Quoted
import ScriptLang.Decimal.Layout

/-!
# The text of a value

Three readings. `Value.represent` is what a prompt echoes, with double quotes
around a string and a backslash before each quote and backslash in it.
`Value.render` is what `print` writes, a string as it is. `Value.inspect` shows a
value with its kind. A float that is whole is written as an integer in full.
-/

namespace ScriptLang

/-- The text of a float: an integer if it is one, else the fewest digits that
read back. -/
def floatText (x : Float) : Text :=
  let m := Magnitude.ofFloat x
  match m.toInt? with
  | some n => Numeral.ofInt n
  | none =>
    match m with
    | .undefined => "NaN"
    | _ => m.text

namespace Value

def representSign (c : CodePoint) : Text :=
  if c = CodePoint.ofChar '\\' || c = CodePoint.ofChar '"' then [CodePoint.ofChar '\\', c] else [c]

def representString (t : Text) : Text := "\"" ++ t.flatMap representSign ++ "\""

/-- What a prompt echoes. -/
def represent : Value → Text
  | .integer n => Numeral.ofInt n
  | .float x => floatText x
  | .string t => representString t
  | .boolean true => "true"
  | .boolean false => "false"
  | .range start stop => Numeral.ofInt start ++ ".." ++ Numeral.ofInt stop
  | .iterator _ => "<iterator>"
  | .function f => "<function " ++ f.displayName ++ ": " ++ f.span.text ++ ">"
  | .builtin name => "<built-in function " ++ name ++ ">"
  | .nothing => "nothing"

/-- What `print` writes. -/
def render : Value → Text
  | .string t => t
  | v => v.represent

def dataText : Value → Text
  | .integer n => Numeral.ofInt n
  | .float x => (Magnitude.ofFloat x).text
  | .string t => t.quoted
  | .boolean true => "True"
  | .boolean false => "False"
  | .range start stop => "range(" ++ Numeral.ofInt start ++ ", " ++ Numeral.ofInt stop ++ ")"
  | .builtin name => name.quoted
  | .nothing => "None"
  | v => v.represent

def inspect (v : Value) : Text := "Value(" ++ v.dataText ++ ", " ++ v.kind.label ++ ")"

end Value

end ScriptLang
