import ScriptLang.Markup.Folding
import ScriptLang.Markup.Scalar

/-!
# Writing scalars

A text is written without quotes where it would be read back as that text, between
single quotes where it would not, and between double quotes where it holds a code
point that is no graphic sign of ASCII, or a space beside a line break.

A line goes on until it has passed the width; then the next single space is written
as a line break with an indentation behind it. Between single quotes a line break is
written as one more than it is, and between double quotes the end of a line is marked
by a backslash, as is the space that it was broken at.
-/

namespace ScriptLang

namespace Markup

/-- The column that a line may pass before it is broken. -/
def lineWidth : Nat := 80

def furtherIndent : Text := "  "

/-! ### The choice of quotes -/

inductive Style where
  | plain
  | single
  | double
deriving DecidableEq

def leadingSigns : Text := "#,[]\x7b\x7d&*!|>'\"%@`"

def hasLeadingSign (t : Text) : Bool :=
  Text.startsWith t "---" || Text.startsWith t "..." || t.head?.any (isOneOf leadingSigns) ||
    startsWithSign '?' t || startsWithSign ':' t || startsWithSign '-' t

/-- Whether a colon in front of a gap or a sharp sign behind one is in a text.
`afterGap` says what comes before the text. -/
def hasInnerSign (afterGap : Bool) : Text → Bool
  | [] => false
  | c :: t =>
    (c = CodePoint.ofChar ':' && endsWord t) || (c = CodePoint.ofChar '#' && afterGap) ||
      hasInnerSign (isGap c) t

def isSimple (c : CodePoint) : Bool :=
  c = CodePoint.lineFeed || (0x20 ≤ c.val && c.val ≤ 0x7E)

def hasSpaceAtBreak : Text → Bool
  | c :: d :: t => (isSpace c && isBreak d) || (isBreak c && isSpace d) || hasSpaceAtBreak (d :: t)
  | _ => false

def isEdgedBy (p : CodePoint → Bool) (t : Text) : Bool := t.head?.any p || t.getLast?.any p

/-- Whether a text is read back as itself when it has no quotes. -/
def isPlain (t : Text) : Bool :=
  (match Scalar.plain? t with
    | some (.text _) => true
    | _ => false) &&
    !hasLeadingSign t && !hasInnerSign false t && !isEdgedBy isSpace t && !t.any isBreak

def Style.of (t : Text) : Style :=
  if !t.all isSimple || hasSpaceAtBreak t then .double
  else if isPlain t then .plain
  else .single

/-! ### Layout -/

inductive Run where
  | spaces (count : Nat)
  | breaks (count : Nat)
  | word (t : Text)

def runs : Text → List Run
  | [] => []
  | c :: t =>
    if isSpace c then
      match runs t with
      | .spaces n :: more => .spaces (n + 1) :: more
      | more => .spaces 1 :: more
    else if isBreak c then
      match runs t with
      | .breaks n :: more => .breaks (n + 1) :: more
      | more => .breaks 1 :: more
    else
      match runs t with
      | .word w :: more => .word (c :: w) :: more
      | more => .word [c] :: more

def newLine : Text := [CodePoint.lineFeed] ++ furtherIndent

/-- The runs on lines, from a column on. A single space between words may become a
line break, but not the first or the last run. -/
def layRuns (isFirst : Bool) : Nat → List Run → Text
  | _, [] => []
  | column, .word w :: more => w ++ layRuns false (column + w.length) more
  | _, .breaks n :: more =>
    List.replicate n CodePoint.lineFeed ++ newLine ++ layRuns false furtherIndent.length more
  | column, .spaces n :: more =>
    if n = 1 && !isFirst && !more.isEmpty && column > lineWidth then
      newLine ++ layRuns false furtherIndent.length more
    else List.replicate n (CodePoint.ofChar ' ') ++ layRuns false (column + n) more

def doubleQuotes (t : Text) : Text :=
  t.flatMap fun c => if c = CodePoint.ofChar '\'' then [c, c] else [c]

def escapeLetter? (n : Nat) : Option Char :=
  (escapes.filter fun e => e.1 ≠ '\t' && e.1 ≠ ' ' && e.1 ≠ '/').findSome? fun e =>
    if e.2 = n then some e.1 else none

def capitalHex (width n : Nat) : Text :=
  (Numeral.hex width n).map fun c => if 0x61 ≤ c.val then .ofNat (c.val - 0x20) else c

def writtenEscape? (c : CodePoint) : Option Text :=
  match escapeLetter? c.val with
  | some letter => some ("\\" ++ [CodePoint.ofChar letter])
  | none =>
    if 0x20 ≤ c.val && c.val ≤ 0x7E then none
    else if c.val < 0x100 then some ("\\x" ++ capitalHex 2 c.val)
    else if c.val < 0x10000 then some ("\\u" ++ capitalHex 4 c.val)
    else some ("\\U" ++ capitalHex 8 c.val)

/-- The end of a line between double quotes, and the start of the next one before `t`. -/
def escapedBreak (t : Text) : Text :=
  "\\" ++ newLine ++ (if t.head?.any isSpace then Text.ofString "\\" else [])

/-- The text between double quotes, from a column on. A line may end before a space,
before a sign that follows an escape or a break, and after an escape. -/
def layEscaped (isFirst isLoose : Bool) : Nat → Text → Text
  | _, [] => []
  | column, c :: t =>
    let isInner := !isFirst && !t.isEmpty
    let after := fun (u : Text) => (escapedBreak u).length - 2
    match writtenEscape? c with
    | some escape =>
      let column := column + escape.length
      if isInner && column > lineWidth + 1 then
        escape ++ escapedBreak t ++ layEscaped false true (after t) t
      else escape ++ layEscaped false true column t
    | none =>
      if isInner && (isSpace c || isLoose) && column > lineWidth then
        escapedBreak (c :: t) ++ [c] ++ layEscaped false false (after (c :: t) + 1) t
      else c :: layEscaped false false (column + 1) t

end Markup

def Scalar.written (column : Nat) (t : Text) : Text :=
  match Markup.Style.of t with
  | .plain => Markup.layRuns true column (Markup.runs t)
  | .single => "'" ++ Markup.layRuns true (column + 1) (Markup.runs (Markup.doubleQuotes t)) ++ "'"
  | .double => "\"" ++ Markup.layEscaped true true (column + 1) t ++ "\""

end ScriptLang
