import ScriptLang.Grammar.Expression
import ScriptLang.Proofs.Tree.Regular

/-!
# Trees written as tokens

`Program.written` writes a program as the contents of tokens, all on one line and with a
semicolon behind every statement. An expression has a level, and it stands in round
brackets exactly where one of a lower level does not fit: operands of a connective want
its level on the left and one more on the right, operands of a sign in front want level
`8`, what is called or subscripted level `9`. Assignments and functions have level `0` and
fit only where any expression does. A function that does nothing but return a value is
written with an arrow.

`Program.nesting` is the depth of rules that it takes to read a program that is written so.
-/

namespace ScriptLang

open Token (Content)

/-! ### Words of operators and literals -/

/-- The token of a connective. -/
def Connective.content : Connective → Content
  | .operator .or => .keyword .orWord
  | .operator .and => .keyword .andWord
  | .operator .equal => .sign .equal
  | .operator .notEqual => .sign .notEqual
  | .operator .less => .sign .less
  | .operator .greater => .sign .greater
  | .operator .lessEqual => .sign .lessEqual
  | .operator .greaterEqual => .sign .greaterEqual
  | .operator .add => .sign .plus
  | .operator .subtract => .sign .minus
  | .operator .multiply => .sign .star
  | .operator .divide => .sign .slash
  | .range => .sign .range

theorem Connective.ofKind?_content (c : Connective) : ofKind? c.content.kind = some c := by
  rcases c with op | _
  · cases op <;> rfl
  · rfl

/-- The token of an operator in front of an operand. -/
def UnaryOperator.content : UnaryOperator → Content
  | .not => .keyword .notWord
  | .negate => .sign .minus

def Direction.content : Direction → Content
  | .up => .sign .plusPlus
  | .down => .sign .minusMinus

def Literal.content : Literal → Content
  | .integer value => .integer value
  | .float value => .float value
  | .string value => .string value
  | .boolean true => .keyword .trueWord
  | .boolean false => .keyword .falseWord

/-! ### Levels and brackets -/

/-- How tight an expression holds together. -/
def Expr.level : Expr → Nat
  | .literal _ _ => 10
  | .nothing _ => 10
  | .identifier _ => 10
  | .binary _ op _ _ => (Connective.operator op).level
  | .unary _ _ _ => 8
  | .increment _ _ .before _ => 8
  | .increment _ _ .after _ => 9
  | .assignment _ _ _ => 0
  | .call _ _ _ => 9
  | .index _ _ _ => 9
  | .slice _ _ _ _ _ => 9
  | .range _ _ _ => Connective.range.level
  | .function _ _ _ _ => 0

/-- What is written for an expression of level `own` where level `level` is wanted. -/
def guarded (level own : Nat) (ts : List Content) : List Content :=
  if own < level then .sign .leftParen :: (ts ++ [.sign .rightParen]) else ts

/-- The depth it takes to read an expression of level `own` where level `level` is
wanted. A group costs the rules from an expression to an operand once more. -/
def guardedNesting (level own nesting : Nat) : Nat := if own < level then nesting + 5 else nesting

/-- Names behind the first one of a list. -/
def writtenNamesMore : List Text → List Content
  | [] => []
  | name :: names => .sign .comma :: .identifier name :: writtenNamesMore names

/-- Names with commas between them. -/
def writtenNames : List Text → List Content
  | [] => []
  | name :: names => .identifier name :: writtenNamesMore names

/-- Whether an expression is a definition under any number of decorators. -/
def Expr.defines : Expr → Bool
  | .function _ (some _) _ _ => true
  | .call _ _ [value] => value.defines
  | _ => false

mutual

/-- An expression in tokens. -/
def Expr.written : Expr → List Content
  | .literal _ value => [value.content]
  | .nothing _ => [.keyword .nothingWord]
  | .identifier name => [.identifier name.name]
  | .binary _ op left right =>
    let c := Connective.operator op
    guarded c.level left.level left.written ++
      c.content :: guarded (c.level + 1) right.level right.written
  | .unary _ op operand => op.content :: guarded 8 operand.level operand.written
  | .increment _ direction .before target => [direction.content, .identifier target.name]
  | .increment _ direction .after target => [.identifier target.name, direction.content]
  | .assignment _ target value => .identifier target.name :: .sign .assign :: value.written
  | .call _ callee arguments =>
    guarded 9 callee.level callee.written ++
      .sign .leftParen :: (Expr.writtenAll arguments ++ [.sign .rightParen])
  | .index _ target position =>
    guarded 9 target.level target.written ++
      .sign .leftBracket :: (position.written ++ [.sign .rightBracket])
  | .slice _ target start stop step =>
    guarded 9 target.level target.written ++
      .sign .leftBracket :: (Expr.writtenOption start ++
        .sign .colon :: (Expr.writtenOption stop ++
          (Expr.writtenStep step ++ [.sign .rightBracket])))
  | .range _ start stop =>
    let c := Connective.range
    guarded c.level start.level start.written ++
      c.content :: guarded (c.level + 1) stop.level stop.written
  | .function _ _ parameters body =>
    .sign .pipe :: (writtenNames parameters ++ .sign .pipe :: body.writtenBody)

/-- Expressions with commas between them. -/
def Expr.writtenAll : List Expr → List Content
  | [] => []
  | e :: es => e.written ++ Expr.writtenMore es

/-- Expressions behind the first one of a list. -/
def Expr.writtenMore : List Expr → List Content
  | [] => []
  | e :: es => .sign .comma :: (e.written ++ Expr.writtenMore es)

def Expr.writtenOption : Option Expr → List Content
  | none => []
  | some e => e.written

/-- The step of a slice with the colon before it, if there is one. -/
def Expr.writtenStep : Option Expr → List Content
  | none => []
  | some e => .sign .colon :: e.written

/-- A definition under its decorators. -/
def Expr.writtenDefinition : Expr → List Content
  | .function _ (some name) parameters body =>
    .keyword .defWord :: .identifier name :: .sign .leftParen ::
      (writtenNames parameters ++ .sign .rightParen :: body.writtenBody)
  | .call _ decorator [value] =>
    .sign .atSign :: (guarded 9 decorator.level decorator.written ++ value.writtenDefinition)
  | _ => []

/-- A block in braces. -/
def Block.written : Block → List Content
  | .mk _ statements =>
    .sign .leftBrace :: (Stmt.writtenAll statements ++ [.sign .rightBrace])

/-- The body of a function. -/
def Block.writtenBody : Block → List Content
  | .mk _ [.returning _ (some value)] => .sign .doubleArrow :: value.written
  | .mk _ statements =>
    .sign .leftBrace :: (Stmt.writtenAll statements ++ [.sign .rightBrace])

/-- A simple statement without its semicolon. -/
def Simple.written : Simple → List Content
  | .expression (.function _ (some name) parameters body) =>
    .keyword .defWord :: .identifier name :: .sign .leftParen ::
      (writtenNames parameters ++ .sign .rightParen :: body.writtenBody)
  | .expression (.assignment _ target value) =>
    if value.defines then value.writtenDefinition
    else .identifier target.name :: .sign .assign :: value.written
  | .expression value => value.written
  | .declaration _ name value =>
    .keyword .letWord :: .identifier name :: .sign .assign :: value.written

def Simple.writtenOption : Option Simple → List Content
  | none => []
  | some s => s.written

/-- A statement without its semicolon. -/
def Stmt.written : Stmt → List Content
  | .simple statement => statement.written
  | .conditional chain => chain.written
  | .whileLoop _ condition body => .keyword .whileWord :: (condition.written ++ body.written)
  | .forEach _ item iterable body =>
    .keyword .forWord :: .identifier item :: .keyword .inWord ::
      (iterable.written ++ body.written)
  | .counting _ initializer condition step body =>
    .keyword .forWord :: .sign .leftParen ::
      (Simple.writtenOption initializer ++ .sign .semicolon ::
        (Expr.writtenOption condition ++ .sign .semicolon ::
          (Expr.writtenOption step ++ .sign .rightParen :: body.written)))
  | .returning _ value => .keyword .returnWord :: Expr.writtenOption value
  | .breaking _ => [.keyword .breakWord]
  | .continuing _ => [.keyword .continueWord]
  | .assertion _ condition none => .keyword .assertWord :: condition.written
  | .assertion _ condition (some message) =>
    .keyword .assertWord :: (condition.written ++ [.sign .comma, .string message])

/-- Statements with a semicolon behind each. -/
def Stmt.writtenAll : List Stmt → List Content
  | [] => []
  | s :: ss => s.written ++ .sign .semicolon :: Stmt.writtenAll ss

def Conditional.written : Conditional → List Content
  | .mk _ condition body otherwise =>
    .keyword .ifWord :: (condition.written ++ (body.written ++ otherwise.written))

def Otherwise.written : Otherwise → List Content
  | .skip => []
  | .block body => .keyword .elseWord :: body.written
  | .chain next => .keyword .elseWord :: next.written

end

/-! ### Depth -/

mutual

/-- The depth of rules that it takes to read an expression. An operand is the fifth rule
behind an expression, and the rules between them are one level less deep each. -/
def Expr.nesting : Expr → Nat
  | .literal _ _ => 5
  | .nothing _ => 5
  | .identifier _ => 5
  | .binary _ op left right =>
    let c := Connective.operator op
    max (guardedNesting c.level left.level left.nesting)
      (guardedNesting (c.level + 1) right.level right.nesting + 1)
  | .unary _ _ operand => guardedNesting 8 operand.level operand.nesting + 1
  | .increment _ _ .before _ => 6
  | .increment _ _ .after _ => 5
  | .assignment _ _ value => value.nesting + 1
  | .call _ callee arguments =>
    max (guardedNesting 9 callee.level callee.nesting) (Expr.nestingAll arguments + 4)
  | .index _ target position =>
    max (guardedNesting 9 target.level target.nesting) (position.nesting + 4)
  | .slice _ target start stop step =>
    max (guardedNesting 9 target.level target.nesting)
      (max (Expr.nestingOption start)
        (max (Expr.nestingOption stop) (Expr.nestingOption step)) + 4)
  | .range _ start stop =>
    let c := Connective.range
    max (guardedNesting c.level start.level start.nesting)
      (guardedNesting (c.level + 1) stop.level stop.nesting + 1)
  | .function _ _ _ body => body.bodyNesting + 5

def Expr.nestingAll : List Expr → Nat
  | [] => 0
  | e :: es => max e.nesting (Expr.nestingAll es)

def Expr.nestingOption : Option Expr → Nat
  | none => 0
  | some e => e.nesting

/-- The depth for a definition under its decorators, each of which is read from the rule
for suffixes on. -/
def Expr.definitionNesting : Expr → Nat
  | .function _ (some _) _ body => body.bodyNesting
  | .call _ decorator [value] =>
    max (guardedNesting 9 decorator.level decorator.nesting - 3) value.definitionNesting
  | _ => 0

def Block.nesting : Block → Nat
  | .mk _ statements => Stmt.nestingAll statements + 1

/-- The depth for the body of a function. -/
def Block.bodyNesting : Block → Nat
  | .mk _ [.returning _ (some value)] => value.nesting + 1
  | .mk _ statements => Stmt.nestingAll statements + 2

/-- The depth for the parts of a simple statement. -/
def Simple.nesting : Simple → Nat
  | .expression (.function _ (some _) _ body) => body.bodyNesting
  | .expression (.assignment _ _ value) =>
    if value.defines then value.definitionNesting else value.nesting + 1
  | .expression value => value.nesting
  | .declaration _ _ value => value.nesting

def Simple.nestingOption : Option Simple → Nat
  | none => 0
  | some s => s.nesting

def Stmt.nesting : Stmt → Nat
  | .simple statement => statement.nesting + 1
  | .conditional chain => chain.nesting + 1
  | .whileLoop _ condition body => max condition.nesting body.nesting + 1
  | .forEach _ _ iterable body => max iterable.nesting body.nesting + 1
  | .counting _ initializer condition step body =>
    max (Simple.nestingOption initializer)
      (max (Expr.nestingOption condition) (max (Expr.nestingOption step) body.nesting)) + 1
  | .returning _ value => Expr.nestingOption value + 1
  | .breaking _ => 1
  | .continuing _ => 1
  | .assertion _ condition _ => condition.nesting + 1

def Stmt.nestingAll : List Stmt → Nat
  | [] => 0
  | s :: ss => max s.nesting (Stmt.nestingAll ss)

def Conditional.nesting : Conditional → Nat
  | .mk _ condition body otherwise =>
    max condition.nesting (max body.nesting otherwise.nesting) + 1

def Otherwise.nesting : Otherwise → Nat
  | .skip => 0
  | .block body => body.nesting
  | .chain next => next.nesting

end

namespace Program

/-- A program in tokens. -/
def written (t : Block) : List Content := Stmt.writtenAll t.statements

/-- The depth of rules that it takes to read a program that is written so. -/
def nesting (t : Block) : Nat := Stmt.nestingAll t.statements

end Program

/-! ### Shapes -/

/-- A body is written with an arrow, or as a block. -/
theorem Block.writtenBody_eq (span : Span) (statements : List Stmt) :
    (∃ place value, statements = [.returning place (some value)]) ∨
      ((Block.mk span statements).writtenBody = (Block.mk span statements).written ∧
        (Block.mk span statements).bodyNesting = (Block.mk span statements).nesting + 1) := by
  unfold Block.writtenBody Block.bodyNesting
  split
  · next h => cases h; exact .inl ⟨_, _, rfl⟩
  · next h => cases h; exact .inr ⟨by rw [Block.written], by rw [Block.nesting]⟩

/-- What an expression is as a statement: a definition, a decorated one, or nothing but
an expression. -/
theorem Expr.writtenStatement_eq (e : Expr) :
    (∃ span name parameters body, e = .function span (some name) parameters body) ∨
      (∃ span target value, e = .assignment span target value ∧ value.defines = true) ∨
        (Simple.expression e).written = e.written := by
  cases e with
  | function span name parameters body =>
    cases name with
    | none => exact .inr (.inr (by rw [Simple.written]; nofun; nofun))
    | some name => exact .inl ⟨_, _, _, _, rfl⟩
  | assignment span target value =>
    by_cases h : value.defines = true
    · exact .inr (.inl ⟨_, _, _, rfl, h⟩)
    · exact .inr (.inr (by simp [Simple.written, Expr.written, h]))
  | _ => exact .inr (.inr (by simp [Simple.written]))

/-! ### Words -/

/-- Contents among which the end of the input is not. -/
def Words (cs : List Content) : Prop := ∀ c ∈ cs, c ≠ .endOfInput

@[simp] theorem words_nil : Words [] := nofun

@[simp] theorem words_cons {c : Content} {cs : List Content} :
    Words (c :: cs) ↔ c ≠ .endOfInput ∧ Words cs :=
  List.forall_mem_cons

@[simp] theorem words_append {cs ds : List Content} :
    Words (cs ++ ds) ↔ Words cs ∧ Words ds :=
  List.forall_mem_append

theorem words_guarded {level own : Nat} {ts : List Content} (h : Words ts) :
    Words (guarded level own ts) := by
  unfold guarded
  split <;> simp [h]

@[simp] theorem Literal.content_ne_endOfInput (value : Literal) : value.content ≠ .endOfInput := by
  rcases value with _ | _ | _ | b
  case boolean => cases b <;> nofun
  all_goals nofun

@[simp] theorem Connective.content_ne_endOfInput (c : Connective) : c.content ≠ .endOfInput := by
  rcases c with op | _
  · cases op <;> nofun
  · nofun

@[simp] theorem UnaryOperator.content_ne_endOfInput (op : UnaryOperator) :
    op.content ≠ .endOfInput := by
  cases op <;> nofun

@[simp] theorem Direction.content_ne_endOfInput (d : Direction) : d.content ≠ .endOfInput := by
  cases d <;> nofun

theorem words_writtenNamesMore (names : List Text) : Words (writtenNamesMore names) := by
  induction names with
  | nil => exact words_nil
  | cons name names ih => simp [writtenNamesMore, ih]

theorem words_writtenNames (names : List Text) : Words (writtenNames names) := by
  cases names with
  | nil => exact words_nil
  | cons name names => simp [writtenNames, words_writtenNamesMore]

mutual

theorem Expr.words_written : (e : Expr) → Words e.written
  | .literal _ _ => by simp [Expr.written]
  | .nothing _ => by simp [Expr.written]
  | .identifier _ => by simp [Expr.written]
  | .binary _ _ left right => by
    simp [Expr.written, words_guarded left.words_written, words_guarded right.words_written]
  | .unary _ _ operand => by simp [Expr.written, words_guarded operand.words_written]
  | .increment _ _ .before _ => by simp [Expr.written]
  | .increment _ _ .after _ => by simp [Expr.written]
  | .assignment _ _ value => by simp [Expr.written, value.words_written]
  | .call _ callee arguments => by
    simp [Expr.written, words_guarded callee.words_written, Expr.words_writtenAll arguments]
  | .index _ target position => by
    simp [Expr.written, words_guarded target.words_written, position.words_written]
  | .slice _ target start stop step => by
    simp [Expr.written, words_guarded target.words_written, Expr.words_writtenOption start,
      Expr.words_writtenOption stop, Expr.words_writtenStep step]
  | .range _ start stop => by
    simp [Expr.written, words_guarded start.words_written, words_guarded stop.words_written]
  | .function _ _ parameters body => by
    simp [Expr.written, words_writtenNames, body.words_writtenBody]

theorem Expr.words_writtenAll : (es : List Expr) → Words (Expr.writtenAll es)
  | [] => words_nil
  | e :: es => by simp [Expr.writtenAll, e.words_written, Expr.words_writtenMore es]

theorem Expr.words_writtenMore : (es : List Expr) → Words (Expr.writtenMore es)
  | [] => words_nil
  | e :: es => by simp [Expr.writtenMore, e.words_written, Expr.words_writtenMore es]

theorem Expr.words_writtenOption : (o : Option Expr) → Words (Expr.writtenOption o)
  | none => words_nil
  | some e => e.words_written

theorem Expr.words_writtenStep : (o : Option Expr) → Words (Expr.writtenStep o)
  | none => words_nil
  | some e => by simp [Expr.writtenStep, e.words_written]

theorem Expr.words_writtenDefinition : (e : Expr) → Words e.writtenDefinition
  | .function _ (some _) parameters body => by
    simp [Expr.writtenDefinition, words_writtenNames, body.words_writtenBody]
  | .call _ decorator [value] => by
    simp [Expr.writtenDefinition, words_guarded decorator.words_written,
      value.words_writtenDefinition]
  | .function _ none _ _ => words_nil
  | .call _ _ [] => words_nil
  | .call _ _ (_ :: _ :: _) => words_nil
  | .literal _ _ => words_nil
  | .nothing _ => words_nil
  | .identifier _ => words_nil
  | .binary _ _ _ _ => words_nil
  | .unary _ _ _ => words_nil
  | .increment _ _ _ _ => words_nil
  | .assignment _ _ _ => words_nil
  | .index _ _ _ => words_nil
  | .slice _ _ _ _ _ => words_nil
  | .range _ _ _ => words_nil

theorem Block.words_written : (b : Block) → Words b.written
  | .mk _ statements => by simp [Block.written, Stmt.words_writtenAll statements]

theorem Block.words_writtenBody : (b : Block) → Words b.writtenBody
  | .mk span statements => by
    rcases Block.writtenBody_eq span statements with ⟨_, value, rfl⟩ | ⟨h, -⟩
    · simp [Block.writtenBody, value.words_written]
    · simp [h, Block.written, Stmt.words_writtenAll statements]

theorem Simple.words_written : (s : Simple) → Words s.written
  | .expression value => by
    rcases value.writtenStatement_eq with
      ⟨_, _, _, body, rfl⟩ | ⟨_, _, value, rfl, hd⟩ | h
    · simp [Simple.written, words_writtenNames, body.words_writtenBody]
    · simp [Simple.written, hd, value.words_writtenDefinition]
    · rw [h]
      exact value.words_written
  | .declaration _ _ value => by simp [Simple.written, value.words_written]

theorem Simple.words_writtenOption : (o : Option Simple) → Words (Simple.writtenOption o)
  | none => words_nil
  | some s => s.words_written

theorem Stmt.words_written : (s : Stmt) → Words s.written
  | .simple statement => statement.words_written
  | .conditional chain => chain.words_written
  | .whileLoop _ condition body => by
    simp [Stmt.written, condition.words_written, body.words_written]
  | .forEach _ _ iterable body => by
    simp [Stmt.written, iterable.words_written, body.words_written]
  | .counting _ initializer condition step body => by
    simp [Stmt.written, Simple.words_writtenOption initializer, Expr.words_writtenOption condition,
      Expr.words_writtenOption step, body.words_written]
  | .returning _ value => by simp [Stmt.written, Expr.words_writtenOption value]
  | .breaking _ => by simp [Stmt.written]
  | .continuing _ => by simp [Stmt.written]
  | .assertion _ condition none => by simp [Stmt.written, condition.words_written]
  | .assertion _ condition (some _) => by simp [Stmt.written, condition.words_written]

theorem Stmt.words_writtenAll : (ss : List Stmt) → Words (Stmt.writtenAll ss)
  | [] => words_nil
  | s :: ss => by simp [Stmt.writtenAll, s.words_written, Stmt.words_writtenAll ss]

theorem Conditional.words_written : (c : Conditional) → Words c.written
  | .mk _ condition body otherwise => by
    simp [Conditional.written, condition.words_written, body.words_written,
      otherwise.words_written]

theorem Otherwise.words_written : (o : Otherwise) → Words o.written
  | .skip => words_nil
  | .block body => by simp [Otherwise.written, body.words_written]
  | .chain next => by simp [Otherwise.written, next.words_written]

end

/-! ### First words -/

/-- Whether an operand without signs in front of it may begin with a word. -/
def TokenKind.opensOperand : TokenKind → Bool
  | .integer => true
  | .float => true
  | .string => true
  | .identifier => true
  | .keyword .trueWord => true
  | .keyword .falseWord => true
  | .keyword .nothingWord => true
  | .sign .leftParen => true
  | .sign .pipe => true
  | _ => false

/-- Whether an expression may begin with a word. -/
def TokenKind.opensExpr : TokenKind → Bool
  | .keyword .notWord => true
  | .sign .minus => true
  | .sign .plusPlus => true
  | .sign .minusMinus => true
  | k => k.opensOperand

/-- Whether a statement may begin with a word. -/
def TokenKind.opensStmt : TokenKind → Bool
  | .keyword .letWord => true
  | .keyword .defWord => true
  | .keyword .ifWord => true
  | .keyword .whileWord => true
  | .keyword .forWord => true
  | .keyword .returnWord => true
  | .keyword .breakWord => true
  | .keyword .continueWord => true
  | .keyword .assertWord => true
  | .sign .atSign => true
  | k => k.opensExpr

theorem TokenKind.opensExpr_of_operand {k : TokenKind} (h : k.opensOperand = true) :
    k.opensExpr = true := by
  unfold opensExpr
  split
  case h_5 => exact h
  all_goals rfl

theorem TokenKind.opensStmt_of_expr {k : TokenKind} (h : k.opensExpr = true) :
    k.opensStmt = true := by
  unfold opensStmt
  split
  case h_11 => exact h
  all_goals rfl

/-- The kind of the first word, where the end of the input stands behind the last. -/
def headKind : List Content → TokenKind
  | [] => .endOfInput
  | c :: _ => c.kind

@[simp] theorem headKind_cons (c : Content) (cs : List Content) : headKind (c :: cs) = c.kind := rfl

theorem headKind_append {cs : List Content} (h : (headKind cs).opensStmt = true)
    (ds : List Content) : headKind (cs ++ ds) = headKind cs := by
  cases cs with
  | nil => exact absurd h nofun
  | cons c cs => rfl

theorem headKind_guarded_append {level own : Nat} {ts : List Content} {p : TokenKind → Prop}
    (hp : p (.sign .leftParen)) (hstmt : ∀ k, p k → k.opensStmt = true)
    (h : level ≤ own → p (headKind ts)) (ds : List Content) :
    p (headKind (guarded level own ts ++ ds)) := by
  unfold guarded
  split
  · exact hp
  · next hlt =>
    have hts := h (Nat.le_of_not_lt hlt)
    rwa [headKind_append (hstmt _ hts)]

theorem Literal.opensOperand_content (value : Literal) :
    value.content.kind.opensOperand = true := by
  rcases value with _ | _ | _ | b
  case boolean => cases b <;> rfl
  all_goals rfl

theorem Connective.level_le (c : Connective) : c.level ≤ 7 := by
  rcases c with op | _
  · cases op <;> decide
  · decide

theorem opensOperand_guarded_append {level own : Nat} {ts : List Content}
    (h : level ≤ own → (headKind ts).opensOperand = true) (ds : List Content) :
    (headKind (guarded level own ts ++ ds)).opensOperand = true :=
  headKind_guarded_append (p := fun k => k.opensOperand = true) rfl
    (fun _ hk => TokenKind.opensStmt_of_expr (TokenKind.opensExpr_of_operand hk)) h ds

theorem opensExpr_guarded_append {level own : Nat} {ts : List Content}
    (h : (headKind ts).opensExpr = true) (ds : List Content) :
    (headKind (guarded level own ts ++ ds)).opensExpr = true :=
  headKind_guarded_append (p := fun k => k.opensExpr = true) rfl
    (fun _ => TokenKind.opensStmt_of_expr) (fun _ => h) ds

/-- What needs no brackets to be called begins with no sign. -/
theorem Expr.opensOperand_written :
    (e : Expr) → 9 ≤ e.level → (headKind e.written).opensOperand = true
  | .literal _ value, _ => by simpa [Expr.written] using value.opensOperand_content
  | .nothing _, _ => by rw [Expr.written]; rfl
  | .identifier _, _ => by rw [Expr.written]; rfl
  | .increment _ _ .after _, _ => by rw [Expr.written]; rfl
  | .call _ callee _, _ => by
    rw [Expr.written]
    exact opensOperand_guarded_append callee.opensOperand_written _
  | .index _ target _, _ => by
    rw [Expr.written]
    exact opensOperand_guarded_append target.opensOperand_written _
  | .slice _ target _ _ _, _ => by
    rw [Expr.written]
    exact opensOperand_guarded_append target.opensOperand_written _
  | .binary _ op _ _, h => absurd (Nat.le_trans h (Connective.level_le (.operator op))) (by decide)

theorem Expr.opensExpr_written : (e : Expr) → (headKind e.written).opensExpr = true
  | .literal _ value => by
    rw [Expr.written]
    exact TokenKind.opensExpr_of_operand value.opensOperand_content
  | .nothing _ => by rw [Expr.written]; rfl
  | .identifier _ => by rw [Expr.written]; rfl
  | .binary _ _ left _ => by
    rw [Expr.written]
    exact opensExpr_guarded_append left.opensExpr_written _
  | .unary _ op _ => by
    rw [Expr.written]
    cases op <;> rfl
  | .increment _ direction .before _ => by
    rw [Expr.written]
    cases direction <;> rfl
  | .increment _ _ .after _ => by rw [Expr.written]; rfl
  | .assignment _ _ _ => by rw [Expr.written]; rfl
  | .call _ callee _ => by
    rw [Expr.written]
    exact opensExpr_guarded_append callee.opensExpr_written _
  | .index _ target _ => by
    rw [Expr.written]
    exact opensExpr_guarded_append target.opensExpr_written _
  | .slice _ target _ _ _ => by
    rw [Expr.written]
    exact opensExpr_guarded_append target.opensExpr_written _
  | .range _ start _ => by
    rw [Expr.written]
    exact opensExpr_guarded_append start.opensExpr_written _
  | .function _ _ _ _ => by rw [Expr.written]; rfl

theorem Expr.written_ne_nil (e : Expr) : e.written ≠ [] :=
  fun h => absurd (h ▸ e.opensExpr_written) nofun

theorem Expr.opensStmt_definition {e : Expr} (h : e.defines = true) :
    (headKind e.writtenDefinition).opensStmt = true := by
  fun_cases Expr.defines e with
  | case1 => rw [Expr.writtenDefinition]; rfl
  | case2 => rw [Expr.writtenDefinition]; rfl
  | case3 => simp [Expr.defines] at h

theorem Simple.opensStmt_written (s : Simple) : (headKind s.written).opensStmt = true := by
  cases s with
  | expression value =>
    rcases value.writtenStatement_eq with ⟨_, _, _, _, rfl⟩ | ⟨_, _, value, rfl, h⟩ | h
    · rw [Simple.written]; rfl
    · rw [Simple.written, if_pos h]
      exact Expr.opensStmt_definition h
    · rw [h]
      exact TokenKind.opensStmt_of_expr value.opensExpr_written
  | declaration => rw [Simple.written]; rfl

theorem Stmt.opensStmt_written (s : Stmt) : (headKind s.written).opensStmt = true := by
  cases s with
  | simple statement => exact statement.opensStmt_written
  | conditional chain => cases chain; rw [Stmt.written, Conditional.written]; rfl
  | assertion _ _ message => cases message <;> rw [Stmt.written] <;> rfl
  | _ => rw [Stmt.written]; rfl

/-! ### Least depths -/

theorem le_guardedNesting (level own n : Nat) : n ≤ guardedNesting level own n := by
  unfold guardedNesting
  split <;> omega

theorem five_le_guardedNesting {n : Nat} (h : 5 ≤ n) (level own : Nat) :
    5 ≤ guardedNesting level own n :=
  Nat.le_trans h (le_guardedNesting level own n)

theorem Expr.five_le_nesting : (e : Expr) → 5 ≤ e.nesting
  | .literal _ _ => by simp [Expr.nesting]
  | .nothing _ => by simp [Expr.nesting]
  | .identifier _ => by simp [Expr.nesting]
  | .binary _ op left _ => by
    have := five_le_guardedNesting left.five_le_nesting (Connective.operator op).level left.level
    simp only [Expr.nesting]
    omega
  | .unary _ _ operand => by
    have := five_le_guardedNesting operand.five_le_nesting 8 operand.level
    simp only [Expr.nesting]
    omega
  | .increment _ _ .before _ => by simp [Expr.nesting]
  | .increment _ _ .after _ => by simp [Expr.nesting]
  | .assignment _ _ value => by
    have := value.five_le_nesting
    simp only [Expr.nesting]
    omega
  | .call _ callee _ => by
    have := five_le_guardedNesting callee.five_le_nesting 9 callee.level
    simp only [Expr.nesting]
    omega
  | .index _ target _ => by
    have := five_le_guardedNesting target.five_le_nesting 9 target.level
    simp only [Expr.nesting]
    omega
  | .slice _ target _ _ _ => by
    have := five_le_guardedNesting target.five_le_nesting 9 target.level
    simp only [Expr.nesting]
    omega
  | .range _ start _ => by
    have := five_le_guardedNesting start.five_le_nesting Connective.range.level start.level
    simp only [Expr.nesting]
    omega
  | .function _ _ _ _ => by simp [Expr.nesting]

end ScriptLang
