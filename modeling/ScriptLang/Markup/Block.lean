import ScriptLang.Markup.Node
import ScriptLang.Text.Lines

/-!
# Blocks and documents

The readers of lists and mappings that are laid out in columns, and of a whole
document. Every reader of a node takes the column `indent` of what the node belongs
to, which is -1 for a document. `Document.read?` is the document of a text, if it
holds one and no more: an empty text says nothing, and a second document, a wrong
indentation or a code point that is not printable is refused.
-/

namespace ScriptLang

namespace Markup

namespace Reader

mutual

/-- A node that stands further right than `indent`, or a list in that column. -/
def blockNode : Nat → Int → Bool → Reader Document
  | 0, _, _ => failure
  | n + 1, indent, mayList => do
    let c ← get
    match (blockKey indent).run c with
    | some (key, c') =>
      set c'
      pure (.mapping (← valueEntries n c.column key []))
    | none =>
      let p ← properties false
      let c ← get
      if !p.isEmpty && c.isOutside indent mayList then emptyNode p
      else name p.name (← content n indent p)

def content : Nat → Int → Properties → Reader Document
  | 0, _, _ => failure
  | n + 1, indent, p => do
    let c ← get
    let least := (indent + 1).toNat
    if c.isAtSign '-' then
      require c.isFresh
      collection? p.tag (.list (← listItems n c.column (c.column = indent)))
    else if c.isAtSign '?' then
      require c.isFresh
      collection? p.tag (.mapping (← markedEntries n c.column []))
    else if c.isAt '[' || c.isAt '\x7b' then collection? p.tag (← flowNode n)
    else if c.isAt '|' || c.isAt '>' then
      let said ← part (block? (max 1 least))
      modify fun c => { c with isFresh := true }
      scalar? p.tag false said
    else if p.isEmpty && c.isAt '*' then aliasNode
    else
      match (blockKey indent).run c with
      | some (key, c') =>
        set c'
        collection? p.tag (.mapping (← valueEntries n c.column key []))
      | none => inlineScalar false least p.tag

/-- The items of a list in a column, whose next item is here. If `isInKey` the list
stands in the column of the key that it belongs to. -/
def listItems : Nat → Nat → Bool → Reader (List Document)
  | 0, _, _ => failure
  | n + 1, column, isInKey => do
    take 1 true
    skip false
    let item ← if (← get).isOutside column false then pure .null else blockNode n column false
    skip false
    let c ← get
    if c.isAtEnd || c.column < column then pure [item]
    else
      require (c.column = column)
      if c.isAtSign '-' then pure (item :: (← listItems n column isInKey))
      else
        require isInKey
        pure [item]

/-- The entries of a mapping in a column, from the value of `key` on. -/
def valueEntries : Nat → Nat → Document → List (Document × Document) →
    Reader (List (Document × Document))
  | 0, _, _, _ => failure
  | n + 1, column, key, entries => do
    skip false
    let value ← if (← get).isOutside column true then pure .null else blockNode n column true
    furtherEntries n column (Document.withEntry entries key value)

def furtherEntries : Nat → Nat → List (Document × Document) →
    Reader (List (Document × Document))
  | 0, _, _ => failure
  | n + 1, column, entries => do
    skip false
    let c ← get
    if c.isAtEnd || c.column < column then pure entries
    else
      require (c.column = column)
      if c.isAtSign '?' then markedEntries n column entries
      else valueEntries n column (← blockKey column) entries

def markedEntries : Nat → Nat → List (Document × Document) →
    Reader (List (Document × Document))
  | 0, _, _ => failure
  | n + 1, column, entries => do
    take 1 true
    skip false
    let key ← if (← get).isOutside column true then pure .null else blockNode n column true
    require (Document.isKey key)
    skip false
    let c ← get
    if !c.isAtEnd && c.column = column && c.isAtSign ':' then
      take 1 true
      valueEntries n column key entries
    else furtherEntries n column (Document.withEntry entries key .null)

end

/-! ### Documents -/

/-- The text after a directive. The version has to be one of the first generation. -/
def directiveText (t : Text) : Option (Text × Text) :=
  let line := (t.drop 1).takeWhile (!isBreak ·)
  let rest := t.drop (1 + line.length)
  let name := line.takeWhile isNameSign
  let value := (line.drop name.length).dropWhile isSpace
  if name.isEmpty || !(line.drop name.length).head?.all isSpace then none
  else if name = Text.ofString "YAML" then
    let minor := (value.drop 2).takeWhile CodePoint.isAsciiDigit
    let after := value.drop (2 + minor.length)
    if Text.startsWith value "1." && !minor.isEmpty && after.head?.all isSpace &&
        (after.dropWhile isSpace).head?.all (· = CodePoint.ofChar '#') then some (name, rest)
    else none
  else some (name, rest)

def directives : Nat → Reader Bool
  | 0 => pure false
  | n + 1 => do
    skip false
    let c ← get
    if c.column = 0 && c.isAt '%' then
      let _ ← part directiveText
      let _ ← directives n
      pure true
    else pure false

def endMarks : Nat → Reader Unit
  | 0 => pure ()
  | n + 1 => do
    skip false
    let c ← get
    if c.column = 0 && c.isAtEnd && c.isAt '.' then
      take 3 false
      endMarks n

def document (n : Nat) : Reader Document := do
  let hasDirectives ← directives n
  let c ← get
  let hasStart := c.column = 0 && c.isAtEnd && c.isAt '-'
  require (hasStart || (!hasDirectives && !(c.isAtEnd && c.isAt '.')))
  if hasStart then take 3 false
  skip false
  let d ← if (← get).isAtEnd then pure .null else blockNode n (-1) false
  endMarks n
  require (← get).rest.isEmpty
  pure d

end Reader

def isAllowed (c : CodePoint) : Bool :=
  c.val = 0x09 || c.val = 0x0A || c.val = 0x0D || (0x20 ≤ c.val && c.val ≤ 0x7E) ||
    c.val = 0x85 || (0xA0 ≤ c.val && c.val ≤ 0xD7FF) || (0xE000 ≤ c.val && c.val ≤ 0xFFFD) ||
    0x10000 ≤ c.val

end Markup

/-- The document that a text holds. Each step of a reader takes a code point or goes
down from one kind of node to another, of which there are less than eight. -/
def Document.read? (t : Text) : Option Document :=
  let t := t.unifyBreaks
  let body := if t.head? = some Markup.Cursor.byteOrderMark then t.drop 1 else t
  if t.all Markup.isAllowed then
    ((Markup.Reader.document (8 * t.length + 8)).run { rest := body }).map (·.1)
  else none

end ScriptLang
