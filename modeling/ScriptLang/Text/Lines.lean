import ScriptLang.Text.CodePoint

/-!
# Lines of a text

Two readings of a line break live side by side. Positions in a source count line
feeds alone. The lines quoted beside a message are cut at every vertical break:
line feed, vertical tab, form feed, carriage return (one break together with a
line feed after it), the separators U+001C to U+001E, U+0085, U+2028 and U+2029.
`Text.lines` is the second reading; a break ends a line, so a text that ends in
one has no empty line after it.

`Text.unifyBreaks` is the reading of a text file: a carriage return, with or
without a line feed after it, becomes one line feed.
-/

namespace ScriptLang

namespace CodePoint

/-- U+000A, the line break that positions count. -/
def lineFeed : CodePoint := '\n'

def carriageReturn : CodePoint := '\r'

/-- Where quoted lines are cut. -/
def isBreak (c : CodePoint) : Bool :=
  (0x0A ≤ c.val && c.val ≤ 0x0D) || (0x1C ≤ c.val && c.val ≤ 0x1E) ||
    c.val == 0x85 || c.val == 0x2028 || c.val == 0x2029

end CodePoint

namespace Text

/-- The lines of a text after the part `line` (latest first) of the first one.
`afterReturn` says that the code point before was a carriage return, whose line
feed ends no further line. -/
def linesFrom (afterReturn : Bool) (line : Text) : Text → List Text
  | [] => if line.isEmpty then [] else [line.reverse]
  | c :: t =>
    if afterReturn && c = CodePoint.lineFeed then linesFrom false line t
    else if c.isBreak then
      line.reverse :: linesFrom (c = CodePoint.carriageReturn) [] t
    else linesFrom false (c :: line) t

def lines (t : Text) : List Text := linesFrom false [] t

@[simp] theorem lines_nil : lines [] = [] := rfl

def line? (ls : List Text) (number : Nat) : Option Text :=
  if number = 0 then none else ls[number - 1]?

@[simp] theorem line?_zero (ls : List Text) : line? ls 0 = none := rfl

@[simp] theorem line?_succ (ls : List Text) (n : Nat) : line? ls (n + 1) = ls[n]? := rfl

def unifyBreaksFrom (afterReturn : Bool) : Text → Text
  | [] => []
  | c :: t =>
    if c = CodePoint.carriageReturn then CodePoint.lineFeed :: unifyBreaksFrom true t
    else if afterReturn && c = CodePoint.lineFeed then unifyBreaksFrom false t
    else c :: unifyBreaksFrom false t

/-- A text file as read: every carriage return, with the line feed after it if
there is one, is one line feed. -/
def unifyBreaks (t : Text) : Text := unifyBreaksFrom false t

def splitAt (mark : CodePoint) : Text → List Text
  | [] => [[]]
  | c :: t =>
    if c = mark then [] :: splitAt mark t
    else match splitAt mark t with
      | [] => [[c]]
      | p :: ps => (c :: p) :: ps

@[simp] theorem splitAt_nil (mark : CodePoint) : splitAt mark [] = [[]] := rfl

end Text

end ScriptLang
