import ScriptLang.Text.Numeral
import ScriptLang.Text.Printable

/-!
# Quoted text

`Text.quoted` shows a text on one line between quotes. Single quotes are used
unless the text holds one and no double quote. The quote in use and the
backslash are escaped, a line feed, a carriage return and a tab have escapes of
their own, and everything that is not printable is written by its number with
two, four or eight hexadecimal digits.
-/

namespace ScriptLang

namespace Text

/-- The quote that `Text.quoted` puts around a text. -/
def quoteMark (t : Text) : CodePoint :=
  if t.contains '\'' && !t.contains '"' then '"' else '\''

def quotedSign (quote c : CodePoint) : Text :=
  if c = quote || c = CodePoint.ofChar '\\' then ['\\', c]
  else if c = CodePoint.lineFeed then ['\\', 'n']
  else if c = CodePoint.carriageReturn then ['\\', 'r']
  else if c = CodePoint.ofChar '\t' then ['\\', 't']
  else if c.isPrintable then [c]
  else if c.val < 0x100 then '\\' :: 'x' :: Numeral.hex 2 c.val
  else if c.val < 0x10000 then '\\' :: 'u' :: Numeral.hex 4 c.val
  else '\\' :: 'U' :: Numeral.hex 8 c.val

def quoted (t : Text) : Text :=
  quoteMark t :: t.flatMap (quotedSign (quoteMark t)) ++ [quoteMark t]

end Text

end ScriptLang
