import ScriptLang.Token.Misread

/-!
# Blanks and comments

Between two tokens stand spaces, tabs, line feeds, carriage returns and comments.
A `#` or `//` comment runs to the line feed; a `/* */` comment may hold others
and has to be closed. `Trivia.size` counts the code points up to the next token.
-/

namespace ScriptLang

namespace Trivia

inductive Place where
  | outside
  | lineComment
  /-- Inside `depth + 1` block comments, of which the outermost starts at
  `start`. -/
  | blockComment (depth start : Nat)

def isSpace (c : CodePoint) : Bool :=
  c = CodePoint.ofChar ' ' || c = CodePoint.ofChar '\t' || c = CodePoint.carriageReturn ||
    c = CodePoint.lineFeed

/-- The number of code points up to the next token, `read` of which are counted
already. -/
def sizeFrom : Place → Nat → Text → Except Misread Nat
  | .outside, read, [] => .ok read
  | .outside, read, c :: t =>
    if isSpace c then sizeFrom .outside (read + 1) t
    else if c = CodePoint.ofChar '#' then sizeFrom .lineComment (read + 1) t
    else if c = CodePoint.ofChar '/' then
      match t with
      | d :: t' =>
        if d = CodePoint.ofChar '/' then sizeFrom .lineComment (read + 2) t'
        else if d = CodePoint.ofChar '*' then sizeFrom (.blockComment 0 read) (read + 2) t'
        else .ok read
      | [] => .ok read
    else .ok read
  | .lineComment, read, [] => .ok read
  | .lineComment, read, c :: t =>
    if c = CodePoint.lineFeed then sizeFrom .outside (read + 1) t
    else sizeFrom .lineComment (read + 1) t
  | .blockComment _ start, read, [] => .error ⟨.unterminatedComment, start, read - start⟩
  | .blockComment depth start, read, c :: t =>
    match t with
    | d :: t' =>
      if c = CodePoint.ofChar '/' && d = CodePoint.ofChar '*' then
        sizeFrom (.blockComment (depth + 1) start) (read + 2) t'
      else if c = CodePoint.ofChar '*' && d = CodePoint.ofChar '/' then
        match depth with
        | 0 => sizeFrom .outside (read + 2) t'
        | depth + 1 => sizeFrom (.blockComment depth start) (read + 2) t'
      else sizeFrom (.blockComment depth start) (read + 1) (d :: t')
    | [] => .error ⟨.unterminatedComment, start, read + 1 - start⟩

def size (t : Text) : Except Misread Nat := sizeFrom .outside 0 t

@[simp] theorem size_nil : size [] = .ok 0 := rfl

end Trivia

end ScriptLang
