import ScriptLang.Tree.Basic

/-!
# Trees without spans

`Expr.bare` and its companions put every node nowhere. Two trees are equal up to spans
when their bare forms are equal.
-/

namespace ScriptLang

/-- The span of a node that stands nowhere. -/
def Span.nowhere : Span := ⟨none, Position.start, Position.start⟩

/-- A name that stands nowhere. -/
def Identifier.bare (i : Identifier) : Identifier := ⟨.nowhere, i.name⟩

mutual

/-- An expression without spans. -/
def Expr.bare : Expr → Expr
  | .literal _ value => .literal .nowhere value
  | .nothing _ => .nothing .nowhere
  | .identifier name => .identifier name.bare
  | .binary _ op left right => .binary .nowhere op left.bare right.bare
  | .unary _ op operand => .unary .nowhere op operand.bare
  | .increment _ direction side target => .increment .nowhere direction side target.bare
  | .assignment _ target value => .assignment .nowhere target.bare value.bare
  | .call _ callee arguments => .call .nowhere callee.bare (Expr.bareAll arguments)
  | .index _ target position => .index .nowhere target.bare position.bare
  | .slice _ target start stop step =>
    .slice .nowhere target.bare (Expr.bareOption start) (Expr.bareOption stop)
      (Expr.bareOption step)
  | .range _ start stop => .range .nowhere start.bare stop.bare
  | .function _ name parameters body => .function .nowhere name parameters body.bare

def Expr.bareAll : List Expr → List Expr
  | [] => []
  | e :: es => e.bare :: Expr.bareAll es

def Expr.bareOption : Option Expr → Option Expr
  | none => none
  | some e => some e.bare

def Block.bare : Block → Block
  | .mk _ statements => .mk .nowhere (Stmt.bareAll statements)

def Simple.bare : Simple → Simple
  | .expression value => .expression value.bare
  | .declaration _ name value => .declaration .nowhere name value.bare

def Simple.bareOption : Option Simple → Option Simple
  | none => none
  | some s => some s.bare

def Stmt.bare : Stmt → Stmt
  | .simple statement => .simple statement.bare
  | .conditional chain => .conditional chain.bare
  | .whileLoop _ condition body => .whileLoop .nowhere condition.bare body.bare
  | .forEach _ item iterable body => .forEach .nowhere item iterable.bare body.bare
  | .counting _ initializer condition step body =>
    .counting .nowhere (Simple.bareOption initializer) (Expr.bareOption condition)
      (Expr.bareOption step) body.bare
  | .returning _ value => .returning .nowhere (Expr.bareOption value)
  | .breaking _ => .breaking .nowhere
  | .continuing _ => .continuing .nowhere
  | .assertion _ condition message => .assertion .nowhere condition.bare message

def Stmt.bareAll : List Stmt → List Stmt
  | [] => []
  | s :: ss => s.bare :: Stmt.bareAll ss

def Conditional.bare : Conditional → Conditional
  | .mk _ condition body otherwise => .mk .nowhere condition.bare body.bare otherwise.bare

def Otherwise.bare : Otherwise → Otherwise
  | .skip => .skip
  | .block body => .block body.bare
  | .chain next => .chain next.bare

end

mutual

@[simp] theorem Expr.bare_bare : (e : Expr) → e.bare.bare = e.bare
  | .literal _ _ => by simp [Expr.bare]
  | .nothing _ => by simp [Expr.bare]
  | .identifier _ => by simp [Expr.bare, Identifier.bare]
  | .binary _ _ left right => by simp [Expr.bare, left.bare_bare, right.bare_bare]
  | .unary _ _ operand => by simp [Expr.bare, operand.bare_bare]
  | .increment _ _ _ _ => by simp [Expr.bare, Identifier.bare]
  | .assignment _ _ value => by simp [Expr.bare, Identifier.bare, value.bare_bare]
  | .call _ callee arguments => by
    simp [Expr.bare, callee.bare_bare, Expr.bareAll_bareAll arguments]
  | .index _ target position => by simp [Expr.bare, target.bare_bare, position.bare_bare]
  | .slice _ target start stop step => by
    simp [Expr.bare, target.bare_bare, Expr.bareOption_bareOption start,
      Expr.bareOption_bareOption stop, Expr.bareOption_bareOption step]
  | .range _ start stop => by simp [Expr.bare, start.bare_bare, stop.bare_bare]
  | .function _ _ _ body => by simp [Expr.bare, body.bare_bare]

theorem Expr.bareAll_bareAll : (es : List Expr) →
    Expr.bareAll (Expr.bareAll es) = Expr.bareAll es
  | [] => rfl
  | e :: es => by simp [Expr.bareAll, e.bare_bare, Expr.bareAll_bareAll es]

theorem Expr.bareOption_bareOption : (o : Option Expr) →
    Expr.bareOption (Expr.bareOption o) = Expr.bareOption o
  | none => rfl
  | some e => by simp [Expr.bareOption, e.bare_bare]

@[simp] theorem Block.bare_bare : (b : Block) → b.bare.bare = b.bare
  | .mk _ statements => by simp [Block.bare, Stmt.bareAll_bareAll statements]

theorem Simple.bare_bare : (s : Simple) → s.bare.bare = s.bare
  | .expression value => by simp [Simple.bare, value.bare_bare]
  | .declaration _ _ value => by simp [Simple.bare, value.bare_bare]

theorem Simple.bareOption_bareOption : (o : Option Simple) →
    Simple.bareOption (Simple.bareOption o) = Simple.bareOption o
  | none => rfl
  | some s => by simp [Simple.bareOption, s.bare_bare]

theorem Stmt.bare_bare : (s : Stmt) → s.bare.bare = s.bare
  | .simple statement => by simp [Stmt.bare, statement.bare_bare]
  | .conditional chain => by simp [Stmt.bare, chain.bare_bare]
  | .whileLoop _ condition body => by simp [Stmt.bare, condition.bare_bare, body.bare_bare]
  | .forEach _ _ iterable body => by simp [Stmt.bare, iterable.bare_bare, body.bare_bare]
  | .counting _ initializer condition step body => by
    simp [Stmt.bare, Simple.bareOption_bareOption initializer,
      Expr.bareOption_bareOption condition, Expr.bareOption_bareOption step, body.bare_bare]
  | .returning _ value => by simp [Stmt.bare, Expr.bareOption_bareOption value]
  | .breaking _ => rfl
  | .continuing _ => rfl
  | .assertion _ condition _ => by simp [Stmt.bare, condition.bare_bare]

theorem Stmt.bareAll_bareAll : (ss : List Stmt) →
    Stmt.bareAll (Stmt.bareAll ss) = Stmt.bareAll ss
  | [] => rfl
  | s :: ss => by simp [Stmt.bareAll, s.bare_bare, Stmt.bareAll_bareAll ss]

theorem Conditional.bare_bare : (c : Conditional) → c.bare.bare = c.bare
  | .mk _ condition body otherwise => by
    simp [Conditional.bare, condition.bare_bare, body.bare_bare, otherwise.bare_bare]

theorem Otherwise.bare_bare : (o : Otherwise) → o.bare.bare = o.bare
  | .skip => rfl
  | .block body => by simp [Otherwise.bare, body.bare_bare]
  | .chain next => by simp [Otherwise.bare, next.bare_bare]

end

theorem Expr.bareAll_eq_map (es : List Expr) : Expr.bareAll es = es.map Expr.bare := by
  induction es with
  | nil => rfl
  | cons e es ih => rw [Expr.bareAll, ih, List.map_cons]

theorem Stmt.bareAll_eq_map (ss : List Stmt) : Stmt.bareAll ss = ss.map Stmt.bare := by
  induction ss with
  | nil => rfl
  | cons s ss ih => rw [Stmt.bareAll, ih, List.map_cons]

theorem Expr.bareOption_eq_map (o : Option Expr) : Expr.bareOption o = o.map Expr.bare := by
  cases o <;> rfl

theorem Simple.bareOption_eq_map (o : Option Simple) :
    Simple.bareOption o = o.map Simple.bare := by
  cases o <;> rfl

theorem Stmt.bareAll_reverse (ss : List Stmt) :
    Stmt.bareAll ss.reverse = (Stmt.bareAll ss).reverse := by
  rw [Stmt.bareAll_eq_map, Stmt.bareAll_eq_map, List.map_reverse]

/-- The name that an expression is, if it is one. -/
def Expr.name? : Expr → Option Text
  | .identifier target => some target.name
  | _ => none

@[simp] theorem Expr.name?_bare (e : Expr) : e.bare.name? = e.name? := by
  cases e <;> rfl

end ScriptLang
