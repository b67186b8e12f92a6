import ScriptLang.Tree.Basic
import ScriptLang.Text.Quoted
import ScriptLang.Decimal.Layout

/-!
# Trees of named nodes

One shape for all syntax: a node has a kind, a span, and either a caption or
named fields. `Block.node` turns a program into it. Two views of a node follow.
`Node.outline` is an indented text, in which every level of nodes goes two steps
to the right, a list stands between brackets on lines of their own, and a field
that is absent is left out. `Node.spans` lists the kinds with their spans, a node
before its fields.
-/

namespace ScriptLang

mutual

inductive Node where
  | leaf (kind : Text) (span : Span) (caption : Text)
  | branch (kind : Text) (span : Span) (fields : List Field)

inductive Field where
  | child (name : Text) (node : Node)
  | children (name : Text) (nodes : List Node)
  | entries (name : Text) (texts : List Text)
  | entry (name : Text) (text : Text)

end

def Literal.caption : Literal → Text
  | .integer n => Numeral.ofNat n
  | .float x => (Magnitude.ofFloat x).text
  | .string t => t.quoted
  | .boolean true => "True"
  | .boolean false => "False"

def BinaryOperator.kindName : BinaryOperator → Text
  | .or => "OR"
  | .and => "AND"
  | .equal => "EQ"
  | .notEqual => "NE"
  | .less => "LT"
  | .greater => "GT"
  | .lessEqual => "LE"
  | .greaterEqual => "GE"
  | .add => "PLUS"
  | .subtract => "MINUS"
  | .multiply => "STAR"
  | .divide => "SLASH"

def UnaryOperator.kindName : UnaryOperator → Text
  | .not => "NOT"
  | .negate => "MINUS"

def Identifier.node (i : Identifier) : Node := .leaf "Identifier" i.span i.name

mutual

def Expr.node : Expr → Node
  | .literal span value => .leaf "Literal" span value.caption
  | .nothing span => .branch "NothingLiteral" span []
  | .identifier name => name.node
  | .binary span operator left right =>
    .branch "BinaryOp" span
      [.child "left" left.node, .entry "operator" operator.kindName, .child "right" right.node]
  | .unary span operator operand =>
    .branch "UnaryOp" span
      [.entry "operator" operator.kindName, .child "operand" operand.node]
  | .increment span direction side target =>
    .branch "Increment" span
      [.child "target" target.node,
        .entry "delta" (match direction with
          | .up => "1"
          | .down => "-1"),
        .entry "prefix" (match side with
          | .before => "True"
          | .after => "False")]
  | .assignment span target value =>
    .branch "Assignment" span [.child "target" target.node, .child "value" value.node]
  | .call span callee arguments =>
    .branch "FunctionCall" span
      [.child "callee" callee.node, .children "arguments" (Expr.nodes arguments)]
  | .index span target position =>
    .branch "IndexAccess" span [.child "target" target.node, .child "index" position.node]
  | .slice span target start stop step =>
    .branch "Slice" span
      (.child "target" target.node ::
        (Expr.optionalField "start" start ++ Expr.optionalField "end" stop ++
          Expr.optionalField "step" step))
  | .range span start stop =>
    .branch "RangeExpr" span [.child "start" start.node, .child "end" stop.node]
  | .function span name parameters body =>
    .branch "FunctionDef" span
      ((name.map fun n => Field.entry "name" n.quoted).toList ++
        [.entries "parameters" (parameters.map Text.quoted), .child "body" body.node])

def Expr.nodes : List Expr → List Node
  | [] => []
  | e :: es => e.node :: Expr.nodes es

def Expr.optionalField (name : Text) : Option Expr → List Field
  | none => []
  | some e => [.child name e.node]

def Block.node : Block → Node
  | .mk span statements => .branch "Block" span [.children "statements" (Stmt.nodes statements)]

def Simple.node : Simple → Node
  | .expression value =>
    .branch "ExpressionStatement" value.span [.child "expression" value.node]
  | .declaration span name value =>
    .branch "VarDecl" span [.entry "name" name.quoted, .child "initializer" value.node]

def Simple.optionalField (name : Text) : Option Simple → List Field
  | none => []
  | some s => [.child name s.node]

def Stmt.node : Stmt → Node
  | .simple statement => statement.node
  | .conditional chain => chain.node
  | .whileLoop span condition body =>
    .branch "WhileStatement" span [.child "condition" condition.node, .child "body" body.node]
  | .forEach span item iterable body =>
    .branch "ForStatement" span
      [.entry "variable" item.quoted, .child "iterable" iterable.node,
        .child "body" body.node]
  | .counting span initializer condition step body =>
    .branch "CountingForStatement" span
      (Simple.optionalField "initializer" initializer ++
        Expr.optionalField "condition" condition ++ Expr.optionalField "step" step ++
        [.child "body" body.node])
  | .returning span value => .branch "ReturnStatement" span (Expr.optionalField "value" value)
  | .breaking span => .branch "BreakStatement" span []
  | .continuing span => .branch "ContinueStatement" span []
  | .assertion span condition message =>
    .branch "AssertStatement" span
      (.child "condition" condition.node ::
        (message.map fun m => Field.entry "message" m.quoted).toList)

def Stmt.nodes : List Stmt → List Node
  | [] => []
  | s :: ss => s.node :: Stmt.nodes ss

def Conditional.node : Conditional → Node
  | .mk span condition body otherwise =>
    .branch "IfStatement" span
      ([.child "condition" condition.node, .child "then_branch" body.node] ++
        otherwise.fields)

def Otherwise.fields : Otherwise → List Field
  | .skip => []
  | .block body => [.child "else_branch" body.node]
  | .chain next => [.child "else_branch" next.node]

end

/-- A line of an outline, `level` steps from the margin. -/
def outlineLine (level : Nat) (t : Text) : Text :=
  List.replicate (2 * level) (CodePoint.ofChar ' ') ++ t

mutual

def Node.outlineLines (level : Nat) : Node → List Text
  | .leaf kind _ caption => [outlineLine level (kind ++ " " ++ caption)]
  | .branch kind _ fields => outlineLine level kind :: Field.outlineLinesAll (level + 1) fields

def Field.outlineLines (level : Nat) : Field → List Text
  | .child name node => outlineLine level (name ++ ":") :: node.outlineLines (level + 1)
  | .children name nodes =>
    outlineLine level (name ++ ": [") ::
      (Node.outlineLinesAll (level + 1) nodes ++ [outlineLine level "]"])
  | .entries name texts =>
    outlineLine level (name ++ ": [") ::
      (texts.map (outlineLine (level + 1)) ++ [outlineLine level "]"])
  | .entry name text => [outlineLine level (name ++ ": " ++ text)]

def Node.outlineLinesAll (level : Nat) : List Node → List Text
  | [] => []
  | n :: ns => n.outlineLines level ++ Node.outlineLinesAll level ns

def Field.outlineLinesAll (level : Nat) : List Field → List Text
  | [] => []
  | f :: fs => f.outlineLines level ++ Field.outlineLinesAll level fs

end

def Node.outline (n : Node) : Text := Text.joinWith [CodePoint.lineFeed] (n.outlineLines 0)

mutual

def Node.spans : Node → List (Text × Span)
  | .leaf kind span _ => [(kind, span)]
  | .branch kind span fields => (kind, span) :: Field.spansAll fields

def Field.spans : Field → List (Text × Span)
  | .child _ node => node.spans
  | .children _ nodes => Node.spansAll nodes
  | .entries _ _ => []
  | .entry _ _ => []

def Node.spansAll : List Node → List (Text × Span)
  | [] => []
  | n :: ns => n.spans ++ Node.spansAll ns

def Field.spansAll : List Field → List (Text × Span)
  | [] => []
  | f :: fs => f.spans ++ Field.spansAll fs

end

def Block.outline (b : Block) : Text := b.node.outline

end ScriptLang
