import ScriptLang.Diagnostic.Fault
import ScriptLang.Token.Basic
import ScriptLang.Tree.Basic

/-!
# Parsers over tokens

A parser reads tokens from the front of a list and may complain. Its state is the
tokens ahead, the end of the input behind them, where the last token read ended,
and the number of open round and square brackets: inside of them a line break
does not end anything.

`Parser.inBrackets` and `Parser.outsideBrackets` change the number of brackets for
one parser and put it back, so no parser built from these leaves it changed.
`Parser.loop` repeats a parser, at most once for every token ahead.
-/

namespace ScriptLang

/-- A refusal of the tokens: why, the stretch to blame, and the line to quote. -/
structure Complaint where
  cause : SyntaxCause
  span : Span
  line : Option Nat

def Complaint.fault (c : Complaint) (lines : List Text) : Fault :=
  ⟨.syntactic c.cause, c.span, c.line.bind (Text.line? lines)⟩

structure ParserState where
  /-- The tokens ahead, without the end of the input. -/
  ahead : List Token
  finish : Token
  /-- The end of the last token read. -/
  lastStop : Position
  brackets : Nat

abbrev Parser := StateT ParserState (Except Complaint)

inductive Turn (α : Type) where
  | again (value : α)
  | done (value : α)

namespace ParserState

def current (s : ParserState) : Token := s.ahead.headD s.finish

/-- The state behind the token ahead. The end of the input stays ahead. -/
def skip (s : ParserState) : ParserState :=
  match s.ahead with
  | [] => s
  | t :: ts => { s with ahead := ts, lastStop := t.span.stop }

/-- Whether the token ahead may go on with the line before it. -/
def onSameLine (s : ParserState) : Bool := s.brackets > 0 || !s.current.afterBreak

@[simp] theorem skip_brackets (s : ParserState) : s.skip.brackets = s.brackets := by
  unfold skip; split <;> rfl

theorem length_skip (s : ParserState) : s.skip.ahead.length = s.ahead.length - 1 := by
  unfold skip; split <;> simp_all

end ParserState

namespace Parser

def current : Parser Token := return (← get).current

def kind : Parser TokenKind := return (← get).current.kind

def onSameLine : Parser Bool := return (← get).onSameLine

def advance : Parser Token := do
  let s ← get
  set s.skip
  pure s.current

def fail {α : Type} (expected : Expectation) : Parser α := do
  let t ← current
  match t.content with
  | .endOfInput => throw ⟨.unexpectedEnd expected, t.span, none⟩
  | _ => throw ⟨.unexpectedToken expected t.description, t.span, some t.span.start.line⟩

/-- Refuse an assignment to the stretch `target`, quoting the line of `start`. -/
def refuseTarget {α : Type} (target : Span) (start : Token) : Parser α :=
  throw ⟨.invalidTarget, target, some start.span.start.line⟩

def tooDeep {α : Type} : Parser α := do
  let t ← current
  throw ⟨.nestedTooDeeply, t.span, some t.span.start.line⟩

def expect (k : TokenKind) (expected : Expectation) : Parser Token := do
  if (← kind) = k then advance else fail expected

def expectName (expected : Expectation) : Parser Text := do
  match (← current).content with
  | .identifier name =>
    let _ ← advance
    pure name
  | _ => fail expected

def accept (k : TokenKind) : Parser Bool := do
  if (← kind) = k then
    let _ ← advance
    pure true
  else pure false

/-- The span from the start of a token to the end of the last token read. -/
def spanFrom (start : Span) : Parser Span :=
  return { start with stop := (← get).lastStop }

def inBrackets {α : Type} (p : Parser α) : Parser α := do
  modify fun s => { s with brackets := s.brackets + 1 }
  let a ← p
  modify fun s => { s with brackets := s.brackets - 1 }
  pure a

def outsideBrackets {α : Type} (p : Parser α) : Parser α := do
  let saved := (← get).brackets
  modify fun s => { s with brackets := 0 }
  let a ← p
  modify fun s => { s with brackets := saved }
  pure a

def turns {α : Type} (turn : α → Parser (Turn α)) : List Token → α → Parser α
  | [], a => pure a
  | _ :: rest, a => do
    match ← turn a with
    | .again b => turns turn rest b
    | .done b => pure b

/-- Turn after turn until one is done. A turn that goes on reads a token, so there
are at most as many turns as tokens ahead, and one more. -/
def loop {α : Type} (turn : α → Parser (Turn α)) (a : α) : Parser α := do
  let s ← get
  turns turn (s.finish :: s.ahead) a

/-- The end of a simple statement: a semicolon, which is read, or a place before a
line break, a closing brace or the end of the input. -/
def statementEnd : Parser Unit := do
  let t ← current
  match t.kind with
  | .sign .semicolon => let _ ← advance
  | .sign .rightBrace => pure ()
  | .endOfInput => pure ()
  | _ => if t.afterBreak then pure () else fail .statementEnd

def atStatementEnd : Parser Bool := do
  let t ← current
  match t.kind with
  | .sign .semicolon => pure true
  | .sign .rightBrace => pure true
  | .endOfInput => pure true
  | _ => pure t.afterBreak

end Parser

end ScriptLang
