import ScriptLang.Grammar.Statement
import ScriptLang.Token.Scan

/-!
# The grammar of programs

`Grammar.ofDepth n` is the grammar that follows rules at most `n` deep; one level
more costs one rule, and beyond the last there is a complaint. Deeper grammars
read all that shallower ones do, so a program is one that some depth can read;
`Program.parse` reads with the depth `Grammar.maxDepth`.

Loops of a rule cost no depth: chains of operators, calls and statements may be as
long as they like.
-/

namespace ScriptLang

namespace Grammar

def step (g : Grammar) : Grammar where
  expression := Rule.expression g
  binary := Rule.binary g
  unary := Rule.unary g
  suffixed := Rule.suffixed g
  primary := Rule.primary g
  body := Rule.body g
  block := Rule.block g
  conditional := Rule.conditional g
  statement := Rule.statement g

/-- The grammar that refuses to follow any rule. -/
def bottom : Grammar where
  expression := Parser.tooDeep
  binary := fun _ => Parser.tooDeep
  unary := Parser.tooDeep
  suffixed := Parser.tooDeep
  primary := Parser.tooDeep
  body := Parser.tooDeep
  block := Parser.tooDeep
  conditional := Parser.tooDeep
  statement := Parser.tooDeep

/-- The grammar that follows rules `n` deep. -/
def ofDepth : Nat → Grammar
  | 0 => bottom
  | n + 1 => step (ofDepth n)

@[simp] theorem ofDepth_zero : ofDepth 0 = bottom := rfl

theorem ofDepth_succ (n : Nat) : ofDepth (n + 1) = (ofDepth n).step := rfl

def maxDepth : Nat := 1000

end Grammar

namespace Rule

open ScriptLang.Parser

def programTurn (g : Grammar) (done : List Stmt) : Parser (Turn (List Stmt)) := do
  match ← kind with
  | .endOfInput => pure (.done done)
  | .sign .semicolon =>
    let _ ← advance
    pure (.again done)
  | .sign .rightBrace => fail .statement
  | _ => return .again ((← g.statement) :: done)

def program (g : Grammar) : Parser Block := do
  let start ← current
  let statements ← loop (programTurn g) []
  let stop ← current
  pure (.mk (start.span.merge stop.span) statements.reverse)

end Rule

namespace Program

/-- The state before the tokens of a program, of which the last is the end of the
input. -/
def initialState? (tokens : List Token) : Option ParserState :=
  tokens.getLast?.map fun finish => ⟨tokens.dropLast, finish, finish.span.stop, 0⟩

def parseTokensAt (depth : Nat) (tokens : List Token) : Except Complaint Block :=
  match initialState? tokens with
  | none => .ok (.mk ⟨none, Position.start, Position.start⟩ [])
  | some s => ((Rule.program (Grammar.ofDepth depth)).run s).map Prod.fst

def parseTokens (tokens : List Token) : Except Complaint Block :=
  parseTokensAt Grammar.maxDepth tokens

end Program

end ScriptLang
