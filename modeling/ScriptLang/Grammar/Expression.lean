import ScriptLang.Grammar.Parser

/-!
# The grammar of expressions

Every rule of the grammar is a parser over the parsers for its parts, which a
`Grammar` gives it. Operators between operands have seven levels; `Rule.binary`
takes the operators of one level and above, so operands of an operator hold only
tighter ones and equal levels lean to the left. An operator, a call or a
subscript has to start on the line of what it applies to, unless a bracket is
open.
-/

namespace ScriptLang

structure Grammar where
  expression : Parser Expr
  /-- Operators of a level and above, and their operands. -/
  binary : Nat → Parser Expr
  unary : Parser Expr
  suffixed : Parser Expr
  primary : Parser Expr
  body : Parser Block
  block : Parser Block
  conditional : Parser Conditional
  statement : Parser Stmt

inductive Connective where
  | operator (op : BinaryOperator)
  | range
deriving DecidableEq

namespace Connective

def ofKind? : TokenKind → Option Connective
  | .keyword .orWord => some (.operator .or)
  | .keyword .andWord => some (.operator .and)
  | .sign .equal => some (.operator .equal)
  | .sign .notEqual => some (.operator .notEqual)
  | .sign .less => some (.operator .less)
  | .sign .greater => some (.operator .greater)
  | .sign .lessEqual => some (.operator .lessEqual)
  | .sign .greaterEqual => some (.operator .greaterEqual)
  | .sign .range => some .range
  | .sign .plus => some (.operator .add)
  | .sign .minus => some (.operator .subtract)
  | .sign .star => some (.operator .multiply)
  | .sign .slash => some (.operator .divide)
  | _ => none

/-- The level of a connective; a higher one binds tighter. -/
def level : Connective → Nat
  | .operator .or => 1
  | .operator .and => 2
  | .operator .equal => 3
  | .operator .notEqual => 3
  | .operator .less => 4
  | .operator .greater => 4
  | .operator .lessEqual => 4
  | .operator .greaterEqual => 4
  | .range => 5
  | .operator .add => 6
  | .operator .subtract => 6
  | .operator .multiply => 7
  | .operator .divide => 7

def join (c : Connective) (left right : Expr) : Expr :=
  let span := left.span.merge right.span
  match c with
  | .operator op => .binary span op left right
  | .range => .range span left right

end Connective

namespace Rule

open ScriptLang.Parser

/-- An expression: operators and operands, or a name and what is assigned to it. -/
def expression (g : Grammar) : Parser Expr := do
  let start ← current
  let e ← g.binary 1
  if (← kind) = .sign .assign && (← onSameLine) then
    match e with
    | .identifier target =>
      let _ ← advance
      let value ← g.expression
      pure (.assignment (target.span.merge value.span) target value)
    | _ => refuseTarget e.span start
  else pure e

def binaryTurn (g : Grammar) (level : Nat) (left : Expr) : Parser (Turn Expr) := do
  if !(← onSameLine) then pure (.done left)
  else
    match Connective.ofKind? (← kind) with
    | none => pure (.done left)
    | some c =>
      if c.level < level then pure (.done left)
      else
        let _ ← advance
        let right ← g.binary (c.level + 1)
        pure (.again (c.join left right))

def binary (g : Grammar) (level : Nat) : Parser Expr := do
  let left ← g.unary
  loop (binaryTurn g level) left

def increment (sign : Token) (target : Expr) (direction : Direction) (side : Side) :
    Parser Expr :=
  match target with
  | .identifier name =>
    let span := match side with
      | .before => sign.span.merge name.span
      | .after => name.span.merge sign.span
    pure (.increment span direction side name)
  | _ => refuseTarget target.span sign

def unary (g : Grammar) : Parser Expr := do
  match ← kind with
  | .keyword .notWord =>
    let sign ← advance
    let operand ← g.unary
    pure (.unary (sign.span.merge operand.span) .not operand)
  | .sign .minus =>
    let sign ← advance
    let operand ← g.unary
    pure (.unary (sign.span.merge operand.span) .negate operand)
  | .sign .plusPlus =>
    let sign ← advance
    increment sign (← g.unary) .up .before
  | .sign .minusMinus =>
    let sign ← advance
    increment sign (← g.unary) .down .before
  | _ => g.suffixed

/-- One more expression of a list, latest first, unless the list ends. -/
def argumentTurn (g : Grammar) (done : List Expr) : Parser (Turn (List Expr)) := do
  if ← accept (.sign .comma) then
    if (← kind) = .sign .rightParen then pure (.done done)
    else return .again ((← g.expression) :: done)
  else pure (.done done)

def arguments (g : Grammar) : Parser (List Expr) := do
  if (← kind) = .sign .rightParen then pure []
  else
    let first ← g.expression
    return (← loop (argumentTurn g) [first]).reverse

def call (g : Grammar) (callee : Expr) : Parser Expr := do
  let _ ← expect (.sign .leftParen) (.token (.sign .leftParen))
  let found ← inBrackets (arguments g)
  let _ ← expect (.sign .rightParen) .argumentEnd
  return .call (← spanFrom callee.span) callee found

inductive Subscript where
  | position (value : Expr)
  | stretch (start stop step : Option Expr)

/-- The rest of a stretch behind its first colon. -/
def stretch (g : Grammar) (start : Option Expr) : Parser Subscript := do
  let next ← kind
  let stop ←
    if next = .sign .colon || next = .sign .rightBracket then pure none
    else some <$> g.expression
  let step ←
    if ← accept (.sign .colon) then
      if (← kind) = .sign .rightBracket then pure none else some <$> g.expression
    else pure none
  pure (.stretch start stop step)

def subscript (g : Grammar) : Parser Subscript := do
  if ← accept (.sign .colon) then stretch g none
  else
    let value ← g.expression
    if ← accept (.sign .colon) then stretch g (some value) else pure (.position value)

def subscripted (g : Grammar) (target : Expr) : Parser Expr := do
  let _ ← expect (.sign .leftBracket) (.token (.sign .leftBracket))
  match ← inBrackets (subscript g) with
  | .position value =>
    let _ ← expect (.sign .rightBracket) .indexEnd
    return .index (← spanFrom target.span) target value
  | .stretch start stop step =>
    let _ ← expect (.sign .rightBracket) .sliceEnd
    return .slice (← spanFrom target.span) target start stop step

def suffixTurn (g : Grammar) (operand : Expr) : Parser (Turn Expr) := do
  if !(← onSameLine) then pure (.done operand)
  else
    match ← kind with
    | .sign .leftParen => return .again (← call g operand)
    | .sign .leftBracket => return .again (← subscripted g operand)
    | .sign .plusPlus => return .again (← increment (← advance) operand .up .after)
    | .sign .minusMinus => return .again (← increment (← advance) operand .down .after)
    | _ => pure (.done operand)

def suffixed (g : Grammar) : Parser Expr := do
  let operand ← g.primary
  loop (suffixTurn g) operand

def parameterTurn (closing : TokenKind) (done : List Text) : Parser (Turn (List Text)) := do
  if ← accept (.sign .comma) then
    if (← kind) = closing then pure (.done done)
    else return .again ((← expectName .parameterName) :: done)
  else pure (.done done)

/-- Parameters up to a closing sign, at least one. -/
def parameterNames (closing : TokenKind) : Parser (List Text) := do
  let first ← expectName .parameterName
  return (← loop (parameterTurn closing) [first]).reverse

def parameters (closing : TokenKind) : Parser (List Text) := do
  if (← kind) = closing then pure [] else parameterNames closing

/-- The body of a function: a block, or an arrow and the expression that the
function returns. -/
def body (g : Grammar) : Parser Block := do
  if (← kind) = .sign .doubleArrow then
    let arrow ← advance
    let value ← outsideBrackets g.expression
    let span := arrow.span.merge value.span
    pure (.mk span [.returning span (some value)])
  else g.block

def lambda (g : Grammar) : Parser Expr := do
  let start ← expect (.sign .pipe) (.token (.sign .pipe))
  let names ← parameters (.sign .pipe)
  let _ ← expect (.sign .pipe) .lambdaParametersEnd
  let block ← g.body
  return .function (← spanFrom start.span) none names block

def group (g : Grammar) : Parser Expr := do
  let _ ← advance
  let e ← inBrackets g.expression
  let _ ← expect (.sign .rightParen) .groupEnd
  pure e

def primary (g : Grammar) : Parser Expr := do
  let t ← current
  let literal := fun (value : Literal) => advance *> pure (Expr.literal t.span value)
  match t.content with
  | .integer value => literal (.integer value)
  | .float value => literal (.float value)
  | .string value => literal (.string value)
  | .keyword .trueWord => literal (.boolean true)
  | .keyword .falseWord => literal (.boolean false)
  | .keyword .nothingWord => advance *> pure (.nothing t.span)
  | .identifier name => advance *> pure (.identifier ⟨t.span, name⟩)
  | .sign .leftParen => group g
  | .sign .pipe => lambda g
  | _ => fail .expression

end Rule

end ScriptLang
