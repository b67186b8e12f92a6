import ScriptLang.Grammar.Expression

/-!
# The grammar of statements

A statement is known by its first token. Simple statements end with a semicolon,
at a line break, before a closing brace or at the end of the input; blocks end
themselves. Brackets open around a block do not reach into it.

A decorated definition `@d def f() { }` becomes the assignment of `d(def f() { })`
to `f`, the decorator next to the definition applied first.
-/

namespace ScriptLang

namespace Rule

open ScriptLang.Parser

def blockTurn (g : Grammar) (done : List Stmt) : Parser (Turn (List Stmt)) := do
  match ← kind with
  | .sign .rightBrace => pure (.done done)
  | .endOfInput => fail .blockEnd
  | .sign .semicolon =>
    let _ ← advance
    pure (.again done)
  | _ => return .again ((← g.statement) :: done)

def block (g : Grammar) : Parser Block := do
  let start ← expect (.sign .leftBrace) .block
  let statements ← outsideBrackets (loop (blockTurn g) [])
  let _ ← expect (.sign .rightBrace) .blockEnd
  return .mk (← spanFrom start.span) statements.reverse

/-- A name and its first value, up to where the value ends. -/
def declaration (g : Grammar) : Parser (Token × Text × Expr) := do
  let start ← expect (.keyword .letWord) (.token (.keyword .letWord))
  let name ← expectName .variableName
  let _ ← expect (.sign .assign) .assignSign
  let value ← g.expression
  pure (start, name, value)

def declarationStatement (g : Grammar) : Parser Stmt := do
  let (start, name, value) ← declaration g
  statementEnd
  return .simple (.declaration (← spanFrom start.span) name value)

structure Definition where
  span : Span
  name : Text
  parameters : List Text
  body : Block

def Definition.expr (d : Definition) : Expr := .function d.span (some d.name) d.parameters d.body

def definition (g : Grammar) : Parser Definition := do
  let start ← expect (.keyword .defWord) (.token (.keyword .defWord))
  let name ← expectName .functionName
  let _ ← expect (.sign .leftParen) .parametersStart
  let names ← parameters (.sign .rightParen)
  let _ ← expect (.sign .rightParen) .argumentEnd
  let arrow := (← kind) = .sign .doubleArrow
  let block ← g.body
  if arrow then statementEnd
  return ⟨← spanFrom start.span, name, names, block⟩

def definitionStatement (g : Grammar) : Parser Stmt :=
  return .simple (.expression (← definition g).expr)

/-- One more decorator, the one nearest to the definition first. -/
def decoratorTurn (g : Grammar) (done : List Expr) : Parser (Turn (List Expr)) := do
  if ← accept (.sign .atSign) then
    let decorator ← g.suffixed
    let _ ← accept (.sign .semicolon)
    pure (.again (decorator :: done))
  else pure (.done done)

def decorate (d : Definition) (value decorator : Expr) : Expr :=
  .call (decorator.span.merge d.span) decorator [value]

/-- A definition under decorators, as an assignment. -/
def decorated (g : Grammar) : Parser Stmt := do
  let decorators ← loop (decoratorTurn g) []
  if (← kind) = .keyword .defWord then
    let d ← definition g
    let value := decorators.foldl (decorate d) d.expr
    pure (.simple (.expression (.assignment value.span ⟨d.span, d.name⟩ value)))
  else fail .decoratedFunction

def otherwise (g : Grammar) : Parser Otherwise := do
  if ← accept (.keyword .elseWord) then
    if (← kind) = .keyword .ifWord then return .chain (← g.conditional)
    else return .block (← g.block)
  else pure .skip

def conditional (g : Grammar) : Parser Conditional := do
  let start ← expect (.keyword .ifWord) (.token (.keyword .ifWord))
  let condition ← g.expression
  let body ← g.block
  let rest ← otherwise g
  return .mk (← spanFrom start.span) condition body rest

def whileLoop (g : Grammar) : Parser Stmt := do
  let start ← expect (.keyword .whileWord) (.token (.keyword .whileWord))
  let condition ← g.expression
  let body ← g.block
  return .whileLoop (← spanFrom start.span) condition body

def initializer (g : Grammar) : Parser (Option Simple) := do
  match ← kind with
  | .keyword .letWord =>
    let (start, name, value) ← declaration g
    return some (.declaration (← spanFrom start.span) name value)
  | .sign .semicolon => pure none
  | _ => return some (.expression (← g.expression))

/-- An expression unless a sign stands there already. -/
def optionalBefore (g : Grammar) (closing : TokenKind) : Parser (Option Expr) := do
  if (← kind) = closing then pure none else some <$> g.expression

def countingHeader (g : Grammar) : Parser (Option Simple × Option Expr × Option Expr) := do
  let start ← initializer g
  let _ ← expect (.sign .semicolon) .semicolon
  let condition ← optionalBefore g (.sign .semicolon)
  let _ ← expect (.sign .semicolon) .semicolon
  let step ← optionalBefore g (.sign .rightParen)
  pure (start, condition, step)

def countingLoop (g : Grammar) (start : Token) : Parser Stmt := do
  let _ ← expect (.sign .leftParen) (.token (.sign .leftParen))
  let (first, condition, step) ← inBrackets (countingHeader g)
  let _ ← expect (.sign .rightParen) .groupEnd
  let body ← g.block
  return .counting (← spanFrom start.span) first condition step body

def forLoop (g : Grammar) : Parser Stmt := do
  let start ← expect (.keyword .forWord) (.token (.keyword .forWord))
  if (← kind) = .sign .leftParen then countingLoop g start
  else
    let item ← expectName .loopVariable
    let _ ← expect (.keyword .inWord) .inWord
    let iterable ← g.expression
    let body ← g.block
    return .forEach (← spanFrom start.span) item iterable body

def returning (g : Grammar) : Parser Stmt := do
  let start ← expect (.keyword .returnWord) (.token (.keyword .returnWord))
  let value ← if ← atStatementEnd then pure none else some <$> g.expression
  statementEnd
  return .returning (← spanFrom start.span) value

def assertionMessage : Parser Text := do
  match (← current).content with
  | .string message =>
    let _ ← advance
    pure message
  | _ => fail .assertionMessage

def assertion (g : Grammar) : Parser Stmt := do
  let start ← expect (.keyword .assertWord) (.token (.keyword .assertWord))
  let condition ← g.expression
  let message ← if ← accept (.sign .comma) then some <$> assertionMessage else pure none
  statementEnd
  return .assertion (← spanFrom start.span) condition message

def word (make : Span → Stmt) : Parser Stmt := do
  let t ← advance
  statementEnd
  pure (make t.span)

def expressionStatement (g : Grammar) : Parser Stmt := do
  let e ← g.expression
  statementEnd
  pure (.simple (.expression e))

def statement (g : Grammar) : Parser Stmt := do
  match ← kind with
  | .keyword .letWord => declarationStatement g
  | .keyword .defWord => definitionStatement g
  | .sign .atSign => decorated g
  | .keyword .ifWord => return .conditional (← g.conditional)
  | .keyword .whileWord => whileLoop g
  | .keyword .forWord => forLoop g
  | .keyword .returnWord => returning g
  | .keyword .breakWord => word .breaking
  | .keyword .continueWord => word .continuing
  | .keyword .assertWord => assertion g
  | _ => expressionStatement g

end Rule

end ScriptLang
