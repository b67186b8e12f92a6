import ScriptLang.Tree.Basic

/-!
# The parts of a tree

A part is an expression or a statement, and the parts of a tree are all that stand in it,
at any depth, the bodies of its functions included. A part lists the places that an error
of its own may blame: where it stands, and where the name stands that it binds again.

`Within U l` says that all parts of a list belong to `U`.
-/

namespace ScriptLang

/-- An expression or a statement. -/
inductive Part where
  | expression (e : Expr)
  | statement (s : Stmt)

mutual

/-- An expression with all that stands in it. -/
def Expr.parts : Expr → List Part
  | .literal span value => [.expression (.literal span value)]
  | .nothing span => [.expression (.nothing span)]
  | .identifier name => [.expression (.identifier name)]
  | .binary span operator left right =>
    .expression (.binary span operator left right) :: (left.parts ++ right.parts)
  | .unary span operator operand => .expression (.unary span operator operand) :: operand.parts
  | .increment span direction side target =>
    [.expression (.increment span direction side target)]
  | .assignment span target value =>
    .expression (.assignment span target value) :: value.parts
  | .call span callee arguments =>
    .expression (.call span callee arguments) :: (callee.parts ++ Expr.partsAll arguments)
  | .index span target position =>
    .expression (.index span target position) :: (target.parts ++ position.parts)
  | .slice span target start stop step =>
    .expression (.slice span target start stop step) ::
      (target.parts ++ Expr.partsOption start ++ Expr.partsOption stop ++
        Expr.partsOption step)
  | .range span start stop => .expression (.range span start stop) :: (start.parts ++ stop.parts)
  | .function span name parameters body =>
    .expression (.function span name parameters body) :: body.parts

def Expr.partsAll : List Expr → List Part
  | [] => []
  | e :: es => e.parts ++ Expr.partsAll es

def Expr.partsOption : Option Expr → List Part
  | none => []
  | some e => e.parts

def Block.parts : Block → List Part
  | .mk _ statements => Stmt.partsAll statements

def Simple.parts : Simple → List Part
  | .expression value => .statement (.simple (.expression value)) :: value.parts
  | .declaration span name value =>
    .statement (.simple (.declaration span name value)) :: value.parts

def Simple.partsOption : Option Simple → List Part
  | none => []
  | some s => s.parts

def Stmt.parts : Stmt → List Part
  | .simple statement => statement.parts
  | .conditional chain => chain.parts
  | .whileLoop span condition body =>
    .statement (.whileLoop span condition body) :: (condition.parts ++ body.parts)
  | .forEach span item iterable body =>
    .statement (.forEach span item iterable body) :: (iterable.parts ++ body.parts)
  | .counting span initializer condition step body =>
    .statement (.counting span initializer condition step body) ::
      (Simple.partsOption initializer ++ Expr.partsOption condition ++ Expr.partsOption step ++
        body.parts)
  | .returning span value => .statement (.returning span value) :: Expr.partsOption value
  | .breaking span => [.statement (.breaking span)]
  | .continuing span => [.statement (.continuing span)]
  | .assertion span condition message =>
    .statement (.assertion span condition message) :: condition.parts

def Stmt.partsAll : List Stmt → List Part
  | [] => []
  | s :: ss => s.parts ++ Stmt.partsAll ss

def Conditional.parts : Conditional → List Part
  | .mk span condition body otherwise =>
    .statement (.conditional (.mk span condition body otherwise)) ::
      (condition.parts ++ body.parts ++ otherwise.parts)

def Otherwise.parts : Otherwise → List Part
  | .skip => []
  | .block body => body.parts
  | .chain next => next.parts

end

namespace Part

/-- The places that an error of a part may blame. -/
def blames : Part → List Span
  | .expression (.assignment span target _) => [span, target.span]
  | .expression (.increment span _ _ target) => [span, target.span]
  | .expression e => [e.span]
  | .statement s => [s.span]

theorem span_mem_blames (e : Expr) : e.span ∈ (expression e).blames := by
  cases e <;> simp [blames, Expr.span]

end Part

theorem Expr.partsAll_append (es fs : List Expr) :
    Expr.partsAll (es ++ fs) = Expr.partsAll es ++ Expr.partsAll fs := by
  induction es with
  | nil => rfl
  | cons e es ih => simp [Expr.partsAll, ih]

theorem Expr.mem_parts (e : Expr) : .expression e ∈ e.parts := by
  cases e <;> simp [Expr.parts]

theorem Stmt.mem_parts (s : Stmt) : .statement s ∈ s.parts := by
  cases s with
  | simple s => cases s <;> simp [Stmt.parts, Simple.parts]
  | conditional c => cases c; simp [Stmt.parts, Conditional.parts]
  | _ => simp [Stmt.parts]

/-! ### Parts that belong to a set -/

/-- All parts of a list belong to `U`. -/
def Within (U : Part → Prop) (l : List Part) : Prop := ∀ p ∈ l, U p

/-- A place that an error of some part of `U` may blame. -/
def Blamed (U : Part → Prop) (span : Span) : Prop := ∃ p, U p ∧ span ∈ p.blames

section Within

variable {U V : Part → Prop} {l m : List Part}

@[simp] theorem within_nil : Within U [] := by simp [Within]

@[simp] theorem within_append : Within U (l ++ m) ↔ Within U l ∧ Within U m :=
  List.forall_mem_append

@[simp] theorem within_cons {p : Part} : Within U (p :: l) ↔ U p ∧ Within U l :=
  List.forall_mem_cons

theorem Within.imp (h : Within U l) (hU : ∀ p, U p → V p) : Within V l :=
  fun p hp => hU p (h p hp)

theorem within_partsAll {es : List Expr} :
    Within U (Expr.partsAll es) ↔ ∀ e ∈ es, Within U e.parts := by
  induction es with
  | nil => simp [Expr.partsAll]
  | cons e es ih => simp [Expr.partsAll, ih]

theorem within_stmtPartsAll {ss : List Stmt} :
    Within U (Stmt.partsAll ss) ↔ ∀ s ∈ ss, Within U s.parts := by
  induction ss with
  | nil => simp [Stmt.partsAll]
  | cons s ss ih => simp [Stmt.partsAll, ih]

theorem Blamed.imp {span : Span} (h : Blamed U span) (hU : ∀ p, U p → V p) : Blamed V span := by
  obtain ⟨p, hp, hspan⟩ := h
  exact ⟨p, hU p hp, hspan⟩

theorem blamed_of_expr {e : Expr} (h : Within U e.parts) : Blamed U e.span :=
  ⟨_, h _ e.mem_parts, Part.span_mem_blames e⟩

theorem blamed_of_stmt {s : Stmt} (h : Within U s.parts) : Blamed U s.span :=
  ⟨_, h _ s.mem_parts, List.mem_singleton.2 rfl⟩

end Within

end ScriptLang
