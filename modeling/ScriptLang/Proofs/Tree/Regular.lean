import ScriptLang.Tree.Basic

/-!
# Regular trees

The type of trees has room for more than programs are read as. In a regular tree a
function with a name stands only where a definition does: as a statement of its own,
or inside of the calls of its decorators in the value that is assigned to its name.
All other functions have no name.
-/

namespace ScriptLang

mutual

/-- An expression without definitions. -/
def Expr.Regular : Expr → Prop
  | .literal _ _ => True
  | .nothing _ => True
  | .identifier _ => True
  | .binary _ _ left right => left.Regular ∧ right.Regular
  | .unary _ _ operand => operand.Regular
  | .increment _ _ _ _ => True
  | .assignment _ _ value => value.Regular
  | .call _ callee arguments => callee.Regular ∧ Expr.RegularAll arguments
  | .index _ target position => target.Regular ∧ position.Regular
  | .slice _ target start stop step =>
    target.Regular ∧ Expr.RegularOption start ∧ Expr.RegularOption stop ∧
      Expr.RegularOption step
  | .range _ start stop => start.Regular ∧ stop.Regular
  | .function _ name _ body => name = none ∧ body.Regular

def Expr.RegularAll : List Expr → Prop
  | [] => True
  | e :: es => e.Regular ∧ Expr.RegularAll es

def Expr.RegularOption : Option Expr → Prop
  | none => True
  | some e => e.Regular

/-- A definition of `name` under any number of decorators. -/
def Expr.Defines (name : Text) : Expr → Prop
  | .function _ (some n) _ body => n = name ∧ body.Regular
  | .call _ decorator [value] => decorator.Regular ∧ value.Defines name
  | _ => False

def Block.Regular : Block → Prop
  | .mk _ statements => Stmt.RegularAll statements

def Simple.Regular : Simple → Prop
  | .expression value => value.Regular
  | .declaration _ _ value => value.Regular

def Simple.RegularOption : Option Simple → Prop
  | none => True
  | some s => s.Regular

/-- A definition, or a decorated one as the assignment that it is read as. -/
def Simple.Defining : Simple → Prop
  | .expression (.function _ (some _) _ body) => body.Regular
  | .expression (.assignment _ target (.call _ decorator [value])) =>
    decorator.Regular ∧ value.Defines target.name
  | _ => False

/-- A statement of one of the shapes that statements are read as. -/
def Stmt.Regular : Stmt → Prop
  | .simple statement => statement.Regular ∨ statement.Defining
  | .conditional chain => chain.Regular
  | .whileLoop _ condition body => condition.Regular ∧ body.Regular
  | .forEach _ _ iterable body => iterable.Regular ∧ body.Regular
  | .counting _ initializer condition step body =>
    Simple.RegularOption initializer ∧ Expr.RegularOption condition ∧
      Expr.RegularOption step ∧ body.Regular
  | .returning _ value => Expr.RegularOption value
  | .breaking _ => True
  | .continuing _ => True
  | .assertion _ condition _ => condition.Regular

def Stmt.RegularAll : List Stmt → Prop
  | [] => True
  | s :: ss => s.Regular ∧ Stmt.RegularAll ss

def Conditional.Regular : Conditional → Prop
  | .mk _ condition body otherwise =>
    condition.Regular ∧ body.Regular ∧ otherwise.Regular

def Otherwise.Regular : Otherwise → Prop
  | .skip => True
  | .block body => body.Regular
  | .chain next => next.Regular

end

theorem Expr.regularAll_iff {es : List Expr} : Expr.RegularAll es ↔ ∀ e ∈ es, e.Regular := by
  induction es with
  | nil => simp [Expr.RegularAll]
  | cons e es ih => simp [Expr.RegularAll, ih]

theorem Stmt.regularAll_iff {ss : List Stmt} : Stmt.RegularAll ss ↔ ∀ s ∈ ss, s.Regular := by
  induction ss with
  | nil => simp [Stmt.RegularAll]
  | cons s ss ih => simp [Stmt.RegularAll, ih]

theorem Expr.regularAll_reverse {es : List Expr} :
    Expr.RegularAll es.reverse ↔ Expr.RegularAll es := by
  simp [Expr.regularAll_iff]

theorem Stmt.regularAll_reverse {ss : List Stmt} :
    Stmt.RegularAll ss.reverse ↔ Stmt.RegularAll ss := by
  simp [Stmt.regularAll_iff]

end ScriptLang
