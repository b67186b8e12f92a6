import ScriptLang.Markup.Cursor
import ScriptLang.Markup.Scalar

/-!
# Nodes of a document

A node is a scalar, a list or a mapping, with a name and a tag in front of it if it
has any. In a flow, lists stand in brackets and mappings in braces. In a block the
columns tell what belongs together: the items of a list and the keys of a mapping
stand in one column, and what belongs to them stands further to the right, except
that the list of a key may stand in the column of the key.

A key that is not marked as one stands on one line with the colon after it, and may
begin only where the cursor is fresh. Lists and mappings are no keys. Where a
mapping names a key twice, the last value stands in the place of the first.
-/

namespace ScriptLang

namespace Markup

structure Properties where
  name : Option Text := none
  tag : Option Text := none

def Properties.isEmpty (p : Properties) : Bool := p.name.isNone && p.tag.isNone

/-- The tag of a kind that every document knows. -/
def coreTag (kind : String) : Text := "tag:yaml.org,2002:" ++ Text.ofString kind

/-- The tag that leaves the kind to the spelling. -/
def openTag : Text := "!"

def scalar? (tag : Option Text) (isPlain : Bool) (t : Text) : Option Document :=
  match tag with
  | none => if isPlain then Scalar.plain? t else some (.text t)
  | some tag =>
    if tag = openTag then Scalar.plain? t
    else if tag = coreTag "str" then some (.text t)
    else if tag = coreTag "null" then some .null
    else if tag = coreTag "int" then (Scalar.integer? t).map .integer
    else if tag = coreTag "float" then (Scalar.float? t).map .float
    else if tag = coreTag "bool" then
      if t ∈ Scalar.trueWords then some (.boolean true)
      else if t ∈ Scalar.falseWords then some (.boolean false)
      else none
    else none

def collection? (tag : Option Text) (d : Document) : Option Document :=
  match tag, d with
  | none, _ => some d
  | some tag, .list _ => if tag = openTag || tag = coreTag "seq" then some d else none
  | some tag, _ => if tag = openTag || tag = coreTag "map" then some d else none

/-- The most code points from the start of a key to the colon after it. -/
def longestKey : Nat := 1024

namespace Reader

/-! ### Names and tags -/

def isNameSign (c : CodePoint) : Bool :=
  c.val < 0x80 && (c.asciiDigitValue?.isSome || isOneOf "-_" c)

def nameText (t : Text) : Option (Text × Text) :=
  let name := (t.drop 1).takeWhile isNameSign
  let rest := t.drop (1 + name.length)
  if name.isEmpty || !rest.head?.all (fun c => isGap c || isOneOf "?:,]\x7d%@`" c) then none
  else some (name, rest)

def isTagSign (c : CodePoint) : Bool :=
  c.val < 0x80 && (c.asciiDigitValue?.isSome || isOneOf "-;/?:@&=+$,_.!~*'()[]%" c)

def tagText (t : Text) : Option (Text × Text) :=
  let isClosed := (t.drop 1).head? = some (CodePoint.ofChar '<')
  let said := (t.drop (if isClosed then 2 else 1)).takeWhile isTagSign
  let rest := t.drop ((if isClosed then 2 else 1) + said.length)
  let ends := fun (u : Text) => u.head?.all fun c => isSpace c || isBreak c
  if isClosed then
    if !said.isEmpty && rest.head? = some (CodePoint.ofChar '>') && ends (rest.drop 1) then
      some (said, rest.drop 1)
    else none
  else if !ends rest then none
  else match said with
    | [] => some (openTag, rest)
    | c :: kind =>
      if c = CodePoint.ofChar '!' then
        if kind.isEmpty then none else some (coreTag "" ++ kind, rest)
      else if said.contains (CodePoint.ofChar '!') then none
      else some (openTag ++ said, rest)

def properties (inFlow : Bool) : Reader Properties := do
  let mut found : Properties := {}
  if (← get).isAt '&' then
    found := { found with name := some (← part nameText) }
    skip inFlow
  if (← get).isAt '!' then
    found := { found with tag := some (← part tagText) }
    skip inFlow
    if found.name.isNone && (← get).isAt '&' then
      found := { found with name := some (← part nameText) }
      skip inFlow
  pure found

/-! ### Scalars -/

def aliasNode : Reader Document := do
  let name ← part nameText
  (← get).named.lookup name

def inlineScalar (inFlow : Bool) (least : Nat) (tag : Option Text) : Reader Document := do
  let c ← get
  if c.isAt '"' || c.isAt '\'' then scalar? tag false (← part quoted?)
  else scalar? tag true (← part (plain? inFlow least))

def emptyNode (p : Properties) : Reader Document := do
  name p.name (← scalar? p.tag true [])

/-- Go past the colon of a key that began at `start`. -/
def keyColon (start : Cursor) (isColon : Cursor → Bool) : Reader Unit := do
  let c ← get
  require (c.line = start.line && c.offset - start.offset ≤ longestKey && isColon c)
  take 1 false

def blockKey (indent : Int) : Reader Document := do
  let start ← get
  require start.isFresh
  let p ← properties false
  let c ← get
  let key ←
    if !p.isEmpty && c.isAtSign ':' then emptyNode p
    else if p.isEmpty && c.isAt '*' then aliasNode
    else name p.name (← inlineScalar false (indent + 1).toNat p.tag)
  skip false
  keyColon start fun c => c.isAtSign ':'
  require (Document.isKey key)
  pure key

/-! ### Flows -/

mutual

def flowNode : Nat → Reader Document
  | 0 => failure
  | n + 1 => do
    let p ← properties true
    let c ← get
    require !c.isAtEnd
    if c.isAt '[' then
      take 1 true
      skip true
      name p.name (← collection? p.tag (.list (← flowItems n)))
    else if c.isAt '\x7b' then
      take 1 true
      skip true
      name p.name (← collection? p.tag (.mapping (← flowEntries n [])))
    else if p.isEmpty && c.isAt '*' then aliasNode
    else if !p.isEmpty && c.rest.head?.any (isOneOf ":,]\x7d") then emptyNode p
    else name p.name (← inlineScalar true 0 p.tag)

def flowItems : Nat → Reader (List Document)
  | 0 => failure
  | n + 1 => do
    if (← get).isAt ']' then
      take 1 false
      pure []
    else
      let start ← get
      let isMarked := start.isAt '?'
      let key ← flowKey n ']'
      let item ←
        if isMarked || (← get).isAt ':' then
          require (Document.isKey key)
          pure (.mapping [(key, ← flowValue n start isMarked ']')])
        else pure key
      pure (item :: (← flowSeparator n ']' (flowItems n)))

def flowEntries : Nat → List (Document × Document) → Reader (List (Document × Document))
  | 0, _ => failure
  | n + 1, entries => do
    if (← get).isAt '\x7d' then
      take 1 false
      pure entries
    else
      let start ← get
      let key ← flowKey n '\x7d'
      require (Document.isKey key)
      let value ← flowValue n start (start.isAt '?') '\x7d'
      let entries := Document.withEntry entries key value
      flowSeparator n '\x7d' (flowEntries n entries)

def flowKey : Nat → Char → Reader Document
  | 0, _ => failure
  | n + 1, closing => do
    if (← get).isAt '?' then
      take 1 false
      skip true
    let start ← get
    let key ←
      if start.isFresh then flowNode n
      else if start.isAt ':' || start.isAt ',' || start.isAt closing then pure .null
      else flowNode n
    skip true
    pure key

def flowValue : Nat → Cursor → Bool → Char → Reader Document
  | 0, _, _, _ => failure
  | n + 1, start, isMarked, closing => do
    if (← get).isAt ':' then
      if isMarked then take 1 false else keyColon start fun _ => true
      skip true
      let c ← get
      if c.isAt ',' || c.isAt closing then pure .null
      else
        let value ← flowNode n
        skip true
        pure value
    else pure .null

/-- What follows an item: a comma and more of them, or the closing sign. -/
def flowSeparator {α : Type} : Nat → Char → Reader α → Reader α
  | 0, _, _ => failure
  | _ + 1, closing, more => do
    if (← get).isAt ',' then
      take 1 true
      skip true
    else require ((← get).isAt closing)
    more

end

end Reader

end Markup

end ScriptLang
