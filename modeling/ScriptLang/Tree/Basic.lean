import ScriptLang.Source.Span

/-!
# Syntax trees

The tree of a program. Expressions yield values, statements run for their effect,
and blocks hold statements. Each node keeps the span of the source it was read
from; the span of an expression statement is that of its expression.

A simple statement is a declaration or an expression, the two that may also head
a counting loop. A conditional ends with nothing, a block or another conditional,
so a chain of them is a list in disguise.
-/

namespace ScriptLang

inductive BinaryOperator where
  | or | and
  | equal | notEqual
  | less | greater | lessEqual | greaterEqual
  | add | subtract
  | multiply | divide
deriving DecidableEq

namespace BinaryOperator

def spelling : BinaryOperator → Text
  | .or => "or"
  | .and => "and"
  | .equal => "=="
  | .notEqual => "!="
  | .less => "<"
  | .greater => ">"
  | .lessEqual => "<="
  | .greaterEqual => ">="
  | .add => "+"
  | .subtract => "-"
  | .multiply => "*"
  | .divide => "/"

end BinaryOperator

inductive UnaryOperator where
  | not
  | negate
deriving DecidableEq

inductive Direction where
  | up
  | down
deriving DecidableEq

/-- Whether the sign of an increment stands before or after the name. The first
yields the new value, the second the old one. -/
inductive Side where
  | before
  | after
deriving DecidableEq

structure Identifier where
  span : Span
  name : Text
deriving DecidableEq

inductive Literal where
  | integer (value : Nat)
  | float (value : Float)
  | string (value : Text)
  | boolean (value : Bool)

mutual

inductive Expr where
  | literal (span : Span) (value : Literal)
  | nothing (span : Span)
  | identifier (name : Identifier)
  | binary (span : Span) (operator : BinaryOperator) (left right : Expr)
  | unary (span : Span) (operator : UnaryOperator) (operand : Expr)
  | increment (span : Span) (direction : Direction) (side : Side) (target : Identifier)
  | assignment (span : Span) (target : Identifier) (value : Expr)
  | call (span : Span) (callee : Expr) (arguments : List Expr)
  | index (span : Span) (target position : Expr)
  | slice (span : Span) (target : Expr) (start stop step : Option Expr)
  /-- The integers from a start up to an end, which is not among them. -/
  | range (span : Span) (start stop : Expr)
  | function (span : Span) (name : Option Text) (parameters : List Text) (body : Block)

/-- Statements in braces, or a whole program. -/
inductive Block where
  | mk (span : Span) (statements : List Stmt)

inductive Simple where
  | expression (value : Expr)
  | declaration (span : Span) (name : Text) (value : Expr)

inductive Stmt where
  | simple (statement : Simple)
  | conditional (chain : Conditional)
  | whileLoop (span : Span) (condition : Expr) (body : Block)
  | forEach (span : Span) (item : Text) (iterable : Expr) (body : Block)
  | counting (span : Span) (initializer : Option Simple) (condition step : Option Expr)
      (body : Block)
  | returning (span : Span) (value : Option Expr)
  | breaking (span : Span)
  | continuing (span : Span)
  | assertion (span : Span) (condition : Expr) (message : Option Text)

inductive Conditional where
  | mk (span : Span) (condition : Expr) (body : Block) (otherwise : Otherwise)

inductive Otherwise where
  | skip
  | block (body : Block)
  | chain (next : Conditional)

end

def Expr.span : Expr → Span
  | .literal span _ => span
  | .nothing span => span
  | .identifier name => name.span
  | .binary span _ _ _ => span
  | .unary span _ _ => span
  | .increment span _ _ _ => span
  | .assignment span _ _ => span
  | .call span _ _ => span
  | .index span _ _ => span
  | .slice span _ _ _ _ => span
  | .range span _ _ => span
  | .function span _ _ _ => span

namespace Block

def span : Block → Span
  | .mk span _ => span

def statements : Block → List Stmt
  | .mk _ statements => statements

end Block

def Simple.span : Simple → Span
  | .expression value => value.span
  | .declaration span _ _ => span

def Conditional.span : Conditional → Span
  | .mk span _ _ _ => span

def Stmt.span : Stmt → Span
  | .simple statement => statement.span
  | .conditional chain => chain.span
  | .whileLoop span _ _ => span
  | .forEach span _ _ _ => span
  | .counting span _ _ _ _ => span
  | .returning span _ => span
  | .breaking span => span
  | .continuing span => span
  | .assertion span _ _ => span

end ScriptLang
