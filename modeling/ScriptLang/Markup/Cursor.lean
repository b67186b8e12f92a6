import ScriptLang.Markup.Document
import ScriptLang.Markup.Folding

/-!
# Cursors in a document

A cursor is a place in the text of a document: what is left to read, the column and
line it stands in, and whether a key may begin here, which is so at the start of a
line and after the signs of lists and keys. It also carries the documents that have
been named so far. A reader moves a cursor or fails.
-/

namespace ScriptLang

namespace Markup

structure Cursor where
  rest : Text
  column : Nat := 0
  line : Nat := 0
  offset : Nat := 0
  /-- Whether a key may begin here. -/
  isFresh : Bool := true
  /-- The documents with a name, latest first. -/
  named : List (Text × Document) := []

abbrev Reader := StateT Cursor Option

namespace Cursor

/-- The byte order mark, which takes no column. -/
def byteOrderMark : CodePoint := .ofNat 0xFEFF

def past (c : Cursor) (sign : CodePoint) : Cursor :=
  if isBreak sign then { c with line := c.line + 1, column := 0, offset := c.offset + 1 }
  else if sign = byteOrderMark then { c with offset := c.offset + 1 }
  else { c with column := c.column + 1, offset := c.offset + 1 }

def moveTo (c : Cursor) (rest : Text) : Cursor :=
  { (c.rest.take (c.rest.length - rest.length)).foldl past c with rest := rest }

def isAtEnd (c : Cursor) : Bool := c.rest.isEmpty || (c.column = 0 && isMarker c.rest)

/-- Whether a sign that stands alone is here. -/
def isAtSign (c : Cursor) (sign : Char) : Bool := startsWithSign sign c.rest

def isAt (c : Cursor) (sign : Char) : Bool := c.rest.head? = some (CodePoint.ofChar sign)

/-- Whether the node of a block at `indent` is empty here: the document ends, or the
block does, or its next item begins. A list may stand as deep as the key it belongs
to, if `mayList`. -/
def isOutside (c : Cursor) (indent : Int) (mayList : Bool) : Bool :=
  c.isAtEnd || c.column < indent || (c.column = indent && !(mayList && c.isAtSign '-'))

end Cursor

def skipGap : Bool → Text → Bool × Text
  | _, [] => (false, [])
  | inComment, c :: t =>
    if isBreak c then (true, (skipGap false t).2)
    else if inComment || c = CodePoint.ofChar '#' then skipGap true t
    else if isSpace c then skipGap false t
    else (false, c :: t)

namespace Reader

def require (condition : Bool) : Reader Unit := if condition then pure () else failure

/-- Go past blanks, comments and breaks. In a block a key may begin on a new line. -/
def skip (inFlow : Bool) : Reader Unit := modify fun c =>
  let (hasBreak, rest) := skipGap false c.rest
  let c := c.moveTo rest
  if hasBreak && !inFlow then { c with isFresh := true } else c

def take (n : Nat) (isFresh : Bool) : Reader Unit := modify fun c =>
  { c.moveTo (c.rest.drop n) with isFresh := isFresh }

/-- What a part of the text says, which is taken; no key begins after it. -/
def part (read : Text → Option (Text × Text)) : Reader Text := do
  let c ← get
  let (said, rest) ← read c.rest
  set { c.moveTo rest with isFresh := false }
  pure said

/-- The document, which gets a name. No name is given twice. -/
def name (name : Option Text) (d : Document) : Reader Document := do
  match name with
  | none => pure d
  | some t =>
    require !((← get).named.any (·.1 = t))
    modify fun c => { c with named := (t, d) :: c.named }
    pure d

end Reader

end Markup

end ScriptLang
