import ScriptLang.Proofs.Tree.Part

/-!
# How deep parts stand

How many scopes are around a part of a tree can be read off the text: the body of a function, a
block of a choice and the body of a loop have a scope each, and so has the header of a counting
loop, around that of its body; another condition behind an `else` has none. `Block.nested n`
lists the parts of a block that stands `n` scopes deep, each with its own depth.
-/

namespace ScriptLang

mutual

/-- An expression with all that stands in it, each part with the number of scopes around it. -/
def Expr.nested (n : Nat) : Expr → List (Nat × Part)
  | .literal span value => [(n, .expression (.literal span value))]
  | .nothing span => [(n, .expression (.nothing span))]
  | .identifier name => [(n, .expression (.identifier name))]
  | .binary span operator left right =>
    (n, .expression (.binary span operator left right)) :: (left.nested n ++ right.nested n)
  | .unary span operator operand =>
    (n, .expression (.unary span operator operand)) :: operand.nested n
  | .increment span direction side target =>
    [(n, .expression (.increment span direction side target))]
  | .assignment span target value =>
    (n, .expression (.assignment span target value)) :: value.nested n
  | .call span callee arguments =>
    (n, .expression (.call span callee arguments)) ::
      (callee.nested n ++ Expr.nestedAll n arguments)
  | .index span target position =>
    (n, .expression (.index span target position)) :: (target.nested n ++ position.nested n)
  | .slice span target start stop step =>
    (n, .expression (.slice span target start stop step)) ::
      (target.nested n ++ Expr.nestedOption n start ++ Expr.nestedOption n stop ++
        Expr.nestedOption n step)
  | .range span start stop =>
    (n, .expression (.range span start stop)) :: (start.nested n ++ stop.nested n)
  | .function span name parameters body =>
    (n, .expression (.function span name parameters body)) :: body.nested (n + 1)

def Expr.nestedAll (n : Nat) : List Expr → List (Nat × Part)
  | [] => []
  | e :: es => e.nested n ++ Expr.nestedAll n es

def Expr.nestedOption (n : Nat) : Option Expr → List (Nat × Part)
  | none => []
  | some e => e.nested n

def Block.nested (n : Nat) : Block → List (Nat × Part)
  | .mk _ statements => Stmt.nestedAll n statements

def Simple.nested (n : Nat) : Simple → List (Nat × Part)
  | .expression value => (n, .statement (.simple (.expression value))) :: value.nested n
  | .declaration span name value =>
    (n, .statement (.simple (.declaration span name value))) :: value.nested n

def Simple.nestedOption (n : Nat) : Option Simple → List (Nat × Part)
  | none => []
  | some s => s.nested n

def Stmt.nested (n : Nat) : Stmt → List (Nat × Part)
  | .simple statement => statement.nested n
  | .conditional chain => chain.nested n
  | .whileLoop span condition body =>
    (n, .statement (.whileLoop span condition body)) ::
      (condition.nested n ++ body.nested (n + 1))
  | .forEach span item iterable body =>
    (n, .statement (.forEach span item iterable body)) ::
      (iterable.nested n ++ body.nested (n + 1))
  | .counting span initializer condition step body =>
    (n, .statement (.counting span initializer condition step body)) ::
      (Simple.nestedOption (n + 1) initializer ++ Expr.nestedOption (n + 1) condition ++
        Expr.nestedOption (n + 1) step ++ body.nested (n + 2))
  | .returning span value => (n, .statement (.returning span value)) :: Expr.nestedOption n value
  | .breaking span => [(n, .statement (.breaking span))]
  | .continuing span => [(n, .statement (.continuing span))]
  | .assertion span condition message =>
    (n, .statement (.assertion span condition message)) :: condition.nested n

def Stmt.nestedAll (n : Nat) : List Stmt → List (Nat × Part)
  | [] => []
  | s :: ss => s.nested n ++ Stmt.nestedAll n ss

def Conditional.nested (n : Nat) : Conditional → List (Nat × Part)
  | .mk span condition body otherwise =>
    (n, .statement (.conditional (.mk span condition body otherwise))) ::
      (condition.nested n ++ body.nested (n + 1) ++ otherwise.nested n)

def Otherwise.nested (n : Nat) : Otherwise → List (Nat × Part)
  | .skip => []
  | .block body => body.nested (n + 1)
  | .chain next => next.nested n

end

theorem Expr.mem_nested (n : Nat) (e : Expr) : (n, .expression e) ∈ e.nested n := by
  cases e <;> simp [Expr.nested]

theorem Stmt.mem_nested (n : Nat) (s : Stmt) : (n, .statement s) ∈ s.nested n := by
  cases s with
  | simple s => cases s <;> simp [Stmt.nested, Simple.nested]
  | conditional c => cases c; simp [Stmt.nested, Conditional.nested]
  | _ => simp [Stmt.nested]

theorem Expr.nestedAll_eq (n : Nat) (es : List Expr) :
    Expr.nestedAll n es = es.flatMap (Expr.nested n) := by
  induction es with
  | nil => rfl
  | cons e es ih => rw [Expr.nestedAll, List.flatMap_cons, ih]

/-- Expressions are listed in any order. -/
theorem Expr.nestedAll_reverse_subset (n : Nat) (es : List Expr) :
    Expr.nestedAll n es.reverse ⊆ Expr.nestedAll n es := by
  intro x hx
  rw [nestedAll_eq, List.mem_flatMap] at hx ⊢
  simpa using hx

theorem Stmt.nestedAll_eq (n : Nat) (ss : List Stmt) :
    Stmt.nestedAll n ss = ss.flatMap (Stmt.nested n) := by
  induction ss with
  | nil => rfl
  | cons s ss ih => rw [Stmt.nestedAll, List.flatMap_cons, ih]

/-- Statements are listed in any order. -/
theorem Stmt.nestedAll_reverse_subset (n : Nat) (ss : List Stmt) :
    Stmt.nestedAll n ss.reverse ⊆ Stmt.nestedAll n ss := by
  intro x hx
  rw [nestedAll_eq, List.mem_flatMap] at hx ⊢
  simpa using hx

/-- A tree is listed as the statements of a block are. -/
theorem Block.nested_eq (n : Nat) (b : Block) : b.nested n = Stmt.nestedAll n b.statements := by
  cases b
  rfl

end ScriptLang
