import ScriptLang.Text.Numeral

/-!
# Scalars on several lines

A scalar may run over several lines. A single line break in it reads as a space,
and of more line breaks the first is dropped; blanks around them do not count.
Breaks are line feeds, U+0085 (read as a line feed), U+2028 and U+2029; a document
has no carriage returns left.

`plain?` reads a scalar without quotes, `quoted?` one between quotes, and `block?`
one whose lines are set off by their indentation. Each takes the text from its
first sign on and yields what the scalar says with the text after it.
-/

namespace ScriptLang

namespace Markup

def isBreak (c : CodePoint) : Bool :=
  c = CodePoint.lineFeed || c.val == 0x85 || c.val == 0x2028 || c.val == 0x2029

def breakSign (c : CodePoint) : CodePoint := if c.val = 0x85 then CodePoint.lineFeed else c

def isSpace (c : CodePoint) : Bool := c = CodePoint.ofChar ' '

def isBlank (c : CodePoint) : Bool := isSpace c || c = CodePoint.ofChar '\t'

def isGap (c : CodePoint) : Bool := isBlank c || isBreak c

def isOneOf (signs : Text) (c : CodePoint) : Bool := signs.contains c

def endsWord (t : Text) : Bool := t.head?.all isGap

/-- Whether a text starts with a sign that stands alone. -/
def startsWithSign (sign : Char) (t : Text) : Bool :=
  t.head? = some (CodePoint.ofChar sign) && endsWord (t.drop 1)

/-- Whether a line starts with the mark of the start or end of a document. -/
def isMarker (t : Text) : Bool :=
  (Text.startsWith t "---" || Text.startsWith t "...") && endsWord (t.drop 3)

def foldBreaks : Text → Text
  | [] => []
  | b :: more =>
    if b ≠ CodePoint.lineFeed then b :: more
    else if more.isEmpty then " "
    else more

/-- The breaks that a text starts with, the column after them, and the text from
there on; what `isIndent` may stand in front of a break and of the next word. A
marker at the start of a line is left alone. -/
def takeBreaks (isIndent : CodePoint → Bool) : Nat → Text → Text × Nat × Text
  | column, [] => ([], column, [])
  | column, c :: t =>
    if column = 0 && isMarker (c :: t) then ([], 0, c :: t)
    else if isBreak c then
      let (breaks, last, rest) := takeBreaks isIndent 0 t
      (breakSign c :: breaks, last, rest)
    else if isIndent c then takeBreaks isIndent (column + 1) t
    else ([], column, c :: t)

/-! ### Without quotes -/

def flowSigns : Text := ",[]\x7b\x7d"

/-- Whether a colon before a text ends a word. -/
def endsKey (inFlow : Bool) (t : Text) : Bool :=
  endsWord t || (inFlow && t.head?.any (isOneOf flowSigns))

def word (inFlow : Bool) : Text → Text
  | [] => []
  | c :: t =>
    if isGap c || (c = CodePoint.ofChar ':' && endsKey inFlow t) ||
        (inFlow && (isOneOf flowSigns c || c = CodePoint.ofChar '?')) then []
    else c :: word inFlow t

/-- The words after the first one of a scalar. A word on a later line belongs to it
only if it stands at the column `least` or after, which a flow does not ask for. -/
def furtherWords (inFlow : Bool) (least : Nat) : Nat → Text → Text × Text
  | 0, t => ([], t)
  | n + 1, t =>
    let spaces := t.takeWhile isSpace
    let u := t.drop spaces.length
    let (gap, column, rest) :=
      if u.head?.any isBreak then
        let (breaks, column, rest) := takeBreaks isSpace 1 u
        (foldBreaks breaks, some column, rest)
      else (spaces, none, u)
    let isOutside := column.any fun c => (c = 0 && isMarker rest) || (!inFlow && c < least)
    let w := word inFlow rest
    if gap.isEmpty || w.isEmpty || isOutside || rest.head? = some (CodePoint.ofChar '#') then
      ([], t)
    else
      let (more, rest) := furtherWords inFlow least n (rest.drop w.length)
      (gap ++ w ++ more, rest)

def reservedSigns : Text := "-?:,[]\x7b\x7d#&*!|>'\"%@`"

def startsPlain (inFlow : Bool) : Text → Bool
  | [] => false
  | c :: t =>
    (!isGap c && !isOneOf reservedSigns c) ||
      (!endsWord t && (c = CodePoint.ofChar '-' ||
        (!inFlow && (c = CodePoint.ofChar '?' || c = CodePoint.ofChar ':'))))

def plain? (inFlow : Bool) (least : Nat) (t : Text) : Option (Text × Text) :=
  if startsPlain inFlow t then
    let first := word inFlow t
    let (more, rest) := furtherWords inFlow least t.length (t.drop first.length)
    some (first ++ more, rest)
  else none

/-! ### Between quotes -/

def escapes : List (Char × Nat) := [
  ('0', 0x00), ('a', 0x07), ('b', 0x08), ('t', 0x09), ('\t', 0x09), ('n', 0x0A), ('v', 0x0B),
  ('f', 0x0C), ('r', 0x0D), ('e', 0x1B), (' ', 0x20), ('"', 0x22), ('\\', 0x5C), ('/', 0x2F),
  ('N', 0x85), ('_', 0xA0), ('L', 0x2028), ('P', 0x2029)]

def escapeWidth? (c : CodePoint) : Option Nat :=
  if c = CodePoint.ofChar 'x' then some 2
  else if c = CodePoint.ofChar 'u' then some 4
  else if c = CodePoint.ofChar 'U' then some 8
  else none

def escape? : Text → Option (CodePoint × Text)
  | [] => none
  | c :: t =>
    match escapeWidth? c with
    | some width =>
      let digits := (t.take width).mapM fun d => d.asciiDigitValue?.filter (· < 16)
      match digits with
      | some ds =>
        let value := Numeral.ofDigits 16 ds
        if ds.length = width && value < 0x110000 then some (.ofNat value, t.drop width) else none
      | none => none
    | none => (escapes.find? fun e => CodePoint.ofChar e.1 = c).map fun e => (.ofNat e.2, t)

def quoteSign (double : Bool) : CodePoint :=
  if double then CodePoint.ofChar '"' else CodePoint.ofChar '\''

def quotedFrom (double : Bool) : Nat → Text → Option (Text × Text)
  | 0, _ => none
  | _, [] => none
  | n + 1, c :: t =>
    let go := fun (said rest : Text) => (quotedFrom double n rest).map fun r => (said ++ r.1, r.2)
    if c = quoteSign double then
      if !double && t.head? = some c then go [c] (t.drop 1) else some ([], t)
    else if double && c = CodePoint.ofChar '\\' then
      if t.head?.any isBreak then
        let (breaks, column, rest) := takeBreaks isBlank 0 (t.drop 1)
        if column = 0 && isMarker rest then none else go breaks rest
      else (escape? t).bind fun (d, rest) => go [d] rest
    else if isGap c then
      let blanks := (c :: t).takeWhile isBlank
      let u := (c :: t).drop blanks.length
      if u.head?.any isBreak then
        let (breaks, column, rest) := takeBreaks isBlank 1 u
        if column = 0 && isMarker rest then none else go (foldBreaks breaks) rest
      else go blanks u
    else go [c] t

def quoted? (t : Text) : Option (Text × Text) :=
  match t with
  | c :: rest =>
    if c = quoteSign true then quotedFrom true t.length rest
    else if c = quoteSign false then quotedFrom false t.length rest
    else none
  | [] => none

/-! ### Set off by indentation -/

inductive Chomping where
  | clip
  | strip
  | keep
deriving DecidableEq

def chomping? (c : CodePoint) : Option Chomping :=
  if c = CodePoint.ofChar '-' then some .strip
  else if c = CodePoint.ofChar '+' then some .keep
  else none

def indentation? (c : CodePoint) : Option Nat :=
  if c.isAsciiDigit then c.asciiDigitValue?.filter (0 < ·) else none

/-- The chomping and the indentation that the head of a block names. -/
def blockSigns : Text → Chomping × Option Nat × Text
  | [] => (.clip, none, [])
  | c :: t =>
    match chomping? c, indentation? c with
    | some chomping, _ =>
      match t.head?.bind indentation? with
      | some width => (chomping, some width, t.drop 1)
      | none => (chomping, none, t)
    | none, some width =>
      match t.head?.bind chomping? with
      | some chomping => (chomping, some width, t.drop 1)
      | none => (.clip, some width, t)
    | none, none => (.clip, none, c :: t)

def afterEmptyLine? (t : Text) : Option Text :=
  let u := t.dropWhile isSpace
  let u := if u.head? = some (CodePoint.ofChar '#') then u.dropWhile (!isBreak ·) else u
  match u with
  | [] => some []
  | c :: rest => if isBreak c then some rest else none

/-- The breaks that a text starts with, behind at most `indent` spaces each, the
column after them, and the text from there on. -/
def takeIndentedBreaks (indent : Nat) : Nat → Text → Text × Nat × Text
  | column, [] => ([], column, [])
  | column, c :: t =>
    if isBreak c then
      let (breaks, last, rest) := takeIndentedBreaks indent 0 t
      (breakSign c :: breaks, last, rest)
    else if isSpace c && column < indent then takeIndentedBreaks indent (column + 1) t
    else ([], column, c :: t)

def widestIndent : Nat → Text → Nat
  | column, [] => column
  | column, c :: t =>
    if isBreak c then max column (widestIndent 0 t)
    else if isSpace c then widestIndent (column + 1) t
    else column

/-- The lines of a block, joined; then the break of the last line, the breaks after
it, and the text after them. `breaks` and `column` come before the text. -/
def blockLines (folded : Bool) (indent : Nat) :
    Nat → Text → Nat → Text → Text × Text × Text × Text
  | 0, breaks, _, t => ([], [], breaks, t)
  | n + 1, breaks, column, t =>
    if column ≠ indent || t.isEmpty then ([], [], breaks, t)
    else
      let line := t.takeWhile (!isBreak ·)
      let u := t.drop line.length
      let ending := (u.take 1).map breakSign
      let (more, column, rest) := takeIndentedBreaks indent 0 (u.drop 1)
      if column ≠ indent || rest.isEmpty then (breaks ++ line, ending, more, rest)
      else
        let isFolded := folded && ending = [CodePoint.lineFeed] && !t.head?.any isBlank &&
          !rest.head?.any isBlank
        let join := if !isFolded then ending else if more.isEmpty then " " else []
        let (said, last, after, rest) := blockLines folded indent n more column rest
        (breaks ++ line ++ join ++ said, last, after, rest)

/-- A scalar set off by an indentation of at least `least`, from its first sign on. -/
def block? (least : Nat) : Text → Option (Text × Text)
  | [] => none
  | c :: t =>
    let (chomping, width, head) := blockSigns t
    if !endsWord head || head.head? = some (CodePoint.ofChar '\t') then none
    else (afterEmptyLine? head).map fun body =>
      let indent := match width with
        | some width => least + width - 1
        | none => max least (widestIndent 0 body)
      let (breaks, column, rest) := takeIndentedBreaks indent 0 body
      let (said, last, after, rest) :=
        blockLines (c = CodePoint.ofChar '>') indent (rest.length + 1) breaks column rest
      let ending := match chomping with
        | .clip => last
        | .strip => []
        | .keep => last ++ after
      (said ++ ending, rest)

end Markup

end ScriptLang
