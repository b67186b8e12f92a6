import ScriptLang.Proofs.Grammar.Reads

/-!
# Parsers move on and put brackets back

Whatever a parser reads, it leaves ahead tokens that stood ahead, before the same end of the input,
and as many brackets counted as there were: `Parser.Steady` says so of a parser, wherever it stands,
and the combinators of parsers have one rule each.

A block begins with no bracket counted. As its statements are steady, no statement begins with one:
`Grammar.divertedOfDepth q` reads `q` instead of a statement where brackets are counted, and no
other rule can tell the difference (`Grammar.divertedOfDepth_eq`, `Rule.program_divertedOfDepth`).
-/

namespace ScriptLang

open ParserState

namespace Parser

/-- A parser that only moves on in its tokens and leaves as many brackets counted as there were. -/
def Steady {α : Type} (p : Parser α) : Prop :=
  ∀ ⦃s a s'⦄, p.run s = .ok (a, s') → Leaves s [] s'

namespace Steady

variable {α β : Type} {p q : Parser α} {f : α → Parser β}

theorem pure (a : α) : Steady (pure a) := by
  intro s b s' h
  obtain ⟨-, rfl⟩ := run_pure_eq_ok.1 h
  exact Leaves.refl _

theorem bind (hp : p.Steady) (hf : ∀ a, (f a).Steady) : (p >>= f).Steady := by
  intro s b s' h
  obtain ⟨a, s₁, ha, hb⟩ := run_bind_eq_ok.1 h
  exact (hp ha).trans (hf a hb)

theorem map (g : α → β) (hp : p.Steady) : (g <$> p).Steady := by
  rw [← bind_pure_comp]
  exact hp.bind fun _ => .pure _

theorem ite {c : Prop} [Decidable c] (hp : p.Steady) (hq : q.Steady) :
    Steady (if c then p else q) := by
  split
  · exact hp
  · exact hq

theorem current_bind {f : Token → Parser β} (h : ∀ t, (f t).Steady) :
    (Parser.current >>= f).Steady :=
  fun _ _ _ hr => h _ hr

theorem kind_bind {f : TokenKind → Parser β} (h : ∀ k, (f k).Steady) :
    (Parser.kind >>= f).Steady :=
  fun _ _ _ hr => h _ hr

theorem onSameLine_bind {f : Bool → Parser β} (h : ∀ b, (f b).Steady) :
    (Parser.onSameLine >>= f).Steady :=
  fun _ _ _ hr => h _ hr

theorem spanFrom (start : Span) : (spanFrom start).Steady := by
  intro s a s' h
  cases h
  exact Leaves.refl s

theorem advance : Parser.advance.Steady := by
  intro s t s' h
  cases h
  exact Leaves.skip s

theorem advance_bind {f : Token → Parser β} (h : ∀ t, (f t).Steady) :
    (Parser.advance >>= f).Steady :=
  advance.bind h

theorem fail (e : Expectation) : (fail e : Parser α).Steady := by
  intro s a s' h
  rw [run_fail] at h
  cases h

theorem refuseTarget (target : Span) (start : Token) :
    (refuseTarget target start : Parser α).Steady := by
  intro s a s' h
  rw [run_refuseTarget] at h
  cases h

theorem tooDeep : (tooDeep : Parser α).Steady := by
  intro s a s' h
  rw [run_tooDeep] at h
  cases h

theorem expect (k : TokenKind) (e : Expectation) : (expect k e).Steady :=
  kind_bind fun _ => ite advance (fail e)

theorem expectName (e : Expectation) : (expectName e).Steady := by
  refine current_bind fun t => ?_
  split
  · exact advance_bind fun _ => .pure _
  · exact fail e

theorem accept (k : TokenKind) : (accept k).Steady :=
  kind_bind fun _ => ite (advance_bind fun _ => .pure _) (.pure _)

theorem statementEnd : statementEnd.Steady := by
  refine current_bind fun t => ?_
  split
  · exact advance_bind fun _ => .pure _
  · exact .pure _
  · exact .pure _
  · exact ite (.pure _) (fail _)

theorem atStatementEnd : atStatementEnd.Steady := by
  intro s b s' h
  rw [run_atStatementEnd] at h
  cases h
  exact Leaves.refl s

theorem inBrackets (hp : p.Steady) : (inBrackets p).Steady := by
  intro s a s' h
  obtain ⟨s₁, hinner, rfl⟩ := run_inBrackets_eq_ok.1 h
  exact (hp hinner).withBrackets (Nat.sub_eq_of_eq_add (hp hinner).brackets)

theorem outsideBrackets (hp : p.Steady) : (outsideBrackets p).Steady := by
  intro s a s' h
  obtain ⟨s₁, hinner, rfl⟩ := run_outsideBrackets_eq_ok.1 h
  exact (hp hinner).withBrackets rfl

theorem turns {turn : α → Parser (Turn α)} (h : ∀ a, (turn a).Steady) :
    ∀ (l : List Token) (a : α), (turns turn l a).Steady
  | [], _ => .pure _
  | _ :: l, a => (h a).bind fun r => by
    cases r with
    | again b => exact turns h l b
    | done b => exact .pure b

theorem loop {turn : α → Parser (Turn α)} (h : ∀ a, (turn a).Steady) (a : α) :
    (loop turn a).Steady :=
  fun s => turns h (s.finish :: s.ahead) a (s := s)

end Steady

end Parser

open ScriptLang.Parser

/-- All rules of a grammar are steady. -/
structure Grammar.Steady (g : Grammar) : Prop where
  expression : g.expression.Steady
  binary : ∀ level, (g.binary level).Steady
  unary : g.unary.Steady
  suffixed : g.suffixed.Steady
  primary : g.primary.Steady
  body : g.body.Steady
  block : g.block.Steady
  conditional : g.conditional.Steady
  statement : g.statement.Steady

namespace Rule

variable {g : Grammar} (hg : g.Steady)
include hg

/-! ### Expressions -/

theorem expression_steady : (expression g).Steady := by
  unfold expression
  refine .current_bind fun _ => .bind (hg.binary 1) fun _ => .kind_bind fun _ =>
    .onSameLine_bind fun _ => .ite ?_ (.pure _)
  split
  · exact .advance_bind fun _ => .bind hg.expression fun _ => .pure _
  · exact .refuseTarget _ _

theorem binaryTurn_steady (level : Nat) (left : Expr) : (binaryTurn g level left).Steady := by
  unfold binaryTurn
  refine .onSameLine_bind fun _ => .ite (.pure _) (.kind_bind fun _ => ?_)
  split
  · exact .pure _
  · exact .ite (.pure _) (.advance_bind fun _ => .bind (hg.binary _) fun _ => .pure _)

theorem binary_steady (level : Nat) : (Rule.binary g level).Steady :=
  .bind hg.unary fun left => .loop (binaryTurn_steady hg level) left

omit hg in
theorem increment_steady (sign : Token) (target : Expr) (direction : Direction) (side : Side) :
    (increment sign target direction side).Steady := by
  unfold increment
  split
  · exact .pure _
  · exact .refuseTarget _ _

theorem unary_steady : (unary g).Steady := by
  unfold unary
  refine .kind_bind fun _ => ?_
  split
  · exact .advance_bind fun _ => .bind hg.unary fun _ => .pure _
  · exact .advance_bind fun _ => .bind hg.unary fun _ => .pure _
  · exact .advance_bind fun _ => .bind hg.unary fun _ => increment_steady _ _ _ _
  · exact .advance_bind fun _ => .bind hg.unary fun _ => increment_steady _ _ _ _
  · exact hg.suffixed

theorem argumentTurn_steady (done : List Expr) : (argumentTurn g done).Steady :=
  .bind (.accept _) fun _ => .ite (.kind_bind fun _ => .ite (.pure _)
    (.bind hg.expression fun _ => .pure _)) (.pure _)

theorem arguments_steady : (arguments g).Steady :=
  .kind_bind fun _ => .ite (.pure _) (.bind hg.expression fun _ =>
    .bind (.loop (argumentTurn_steady hg) _) fun _ => .pure _)

theorem call_steady (callee : Expr) : (call g callee).Steady :=
  .bind (.expect _ _) fun _ => .bind (.inBrackets (arguments_steady hg)) fun _ =>
    .bind (.expect _ _) fun _ => .bind (.spanFrom _) fun _ => .pure _

theorem optional_steady (leftOut : Bool) : (optional g leftOut).Steady :=
  .ite (.pure _) (.map _ hg.expression)

theorem stride_steady : (stride g).Steady :=
  .bind (.accept _) fun _ => .ite (.kind_bind fun _ => optional_steady hg _) (.pure _)

theorem stretch_steady (start : Option Expr) : (stretch g start).Steady := by
  rw [stretch_eq]
  exact .kind_bind fun _ => .bind (optional_steady hg _) fun _ =>
    .bind (stride_steady hg) fun _ => .pure _

theorem subscript_steady : (subscript g).Steady :=
  .bind (.accept _) fun _ => .ite (stretch_steady hg none) (.bind hg.expression fun _ =>
    .bind (.accept _) fun _ => .ite (stretch_steady hg _) (.pure _))

theorem subscripted_steady (target : Expr) : (subscripted g target).Steady := by
  unfold subscripted
  refine .bind (.expect _ _) fun _ => .bind (.inBrackets (subscript_steady hg)) fun u => ?_
  cases u <;> exact .bind (.expect _ _) fun _ => .bind (.spanFrom _) fun _ => .pure _

theorem suffixTurn_steady (operand : Expr) : (suffixTurn g operand).Steady := by
  unfold suffixTurn
  refine .onSameLine_bind fun _ => .ite (.pure _) (.kind_bind fun _ => ?_)
  split
  · exact .bind (call_steady hg operand) fun _ => .pure _
  · exact .bind (subscripted_steady hg operand) fun _ => .pure _
  · exact .advance_bind fun _ => .bind (increment_steady _ _ _ _) fun _ => .pure _
  · exact .advance_bind fun _ => .bind (increment_steady _ _ _ _) fun _ => .pure _
  · exact .pure _

theorem suffixed_steady : (suffixed g).Steady :=
  .bind hg.primary fun operand => .loop (suffixTurn_steady hg) operand

omit hg in
theorem parameterTurn_steady (closing : TokenKind) (done : List Text) :
    (parameterTurn closing done).Steady :=
  .bind (.accept _) fun _ => .ite (.kind_bind fun _ => .ite (.pure _)
    (.bind (.expectName _) fun _ => .pure _)) (.pure _)

omit hg in
theorem parameterNames_steady (closing : TokenKind) : (parameterNames closing).Steady :=
  .bind (.expectName _) fun _ => .bind (.loop (parameterTurn_steady closing) _) fun _ => .pure _

omit hg in
theorem parameters_steady (closing : TokenKind) : (parameters closing).Steady :=
  .kind_bind fun _ => .ite (.pure _) (parameterNames_steady closing)

theorem body_steady : (body g).Steady :=
  .kind_bind fun _ => .ite (.advance_bind fun _ => .bind (.outsideBrackets hg.expression) fun _ =>
    .pure _) hg.block

theorem lambda_steady : (lambda g).Steady :=
  .bind (.expect _ _) fun _ => .bind (parameters_steady _) fun _ => .bind (.expect _ _) fun _ =>
    .bind hg.body fun _ => .bind (.spanFrom _) fun _ => .pure _

theorem group_steady : (group g).Steady :=
  .advance_bind fun _ => .bind (.inBrackets hg.expression) fun _ =>
    .bind (.expect _ _) fun _ => .pure _

theorem primary_steady : (primary g).Steady := by
  unfold primary
  refine .current_bind fun t => ?_
  have leaf : ∀ e : Expr, (Parser.advance *> Pure.pure e : Parser Expr).Steady := fun e =>
    Steady.advance_bind (f := fun _ => Pure.pure e) fun _ => .pure e
  dsimp only
  split
  case h_8 => exact group_steady hg
  case h_9 => exact lambda_steady hg
  case h_10 => exact .fail _
  all_goals exact leaf _

/-! ### Statements -/

theorem blockTurn_steady (done : List Stmt) : (blockTurn g done).Steady := by
  unfold blockTurn
  refine .kind_bind fun _ => ?_
  split
  · exact .pure _
  · exact .fail _
  · exact .advance_bind fun _ => .pure _
  · exact .bind hg.statement fun _ => .pure _

theorem block_steady : (block g).Steady :=
  .bind (.expect _ _) fun _ => .bind (.outsideBrackets (.loop (blockTurn_steady hg) [])) fun _ =>
    .bind (.expect _ _) fun _ => .bind (.spanFrom _) fun _ => .pure _

theorem declaration_steady : (declaration g).Steady :=
  .bind (.expect _ _) fun _ => .bind (.expectName _) fun _ => .bind (.expect _ _) fun _ =>
    .bind hg.expression fun _ => .pure _

theorem declarationStatement_steady : (declarationStatement g).Steady :=
  .bind (declaration_steady hg) fun _ => .bind .statementEnd fun _ =>
    .bind (.spanFrom _) fun _ => .pure _

theorem definition_steady : (definition g).Steady := by
  rw [definition_eq]
  exact .bind (.expect _ _) fun _ => .bind (.expectName _) fun _ => .bind (.expect _ _) fun _ =>
    .bind (parameters_steady _) fun _ => .bind (.expect _ _) fun _ => .kind_bind fun _ =>
      .bind hg.body fun _ => .bind (.ite .statementEnd (.pure _)) fun _ =>
        .bind (.spanFrom _) fun _ => .pure _

theorem definitionStatement_steady : (definitionStatement g).Steady :=
  .bind (definition_steady hg) fun _ => .pure _

theorem decoratorTurn_steady (done : List Expr) : (decoratorTurn g done).Steady :=
  .bind (.accept _) fun _ => .ite (.bind hg.suffixed fun _ => .bind (.accept _) fun _ => .pure _)
    (.pure _)

theorem decorated_steady : (decorated g).Steady :=
  .bind (.loop (decoratorTurn_steady hg) []) fun _ => .kind_bind fun _ =>
    .ite (.bind (definition_steady hg) fun _ => .pure _) (.fail _)

theorem otherwise_steady : (otherwise g).Steady :=
  .bind (.accept _) fun _ => .ite (.kind_bind fun _ =>
    .ite (.bind hg.conditional fun _ => .pure _) (.bind hg.block fun _ => .pure _)) (.pure _)

theorem conditional_steady : (conditional g).Steady :=
  .bind (.expect _ _) fun _ => .bind hg.expression fun _ => .bind hg.block fun _ =>
    .bind (otherwise_steady hg) fun _ => .bind (.spanFrom _) fun _ => .pure _

theorem whileLoop_steady : (whileLoop g).Steady :=
  .bind (.expect _ _) fun _ => .bind hg.expression fun _ => .bind hg.block fun _ =>
    .bind (.spanFrom _) fun _ => .pure _

theorem initializer_steady : (initializer g).Steady := by
  unfold initializer
  refine .kind_bind fun _ => ?_
  split
  · exact .bind (declaration_steady hg) fun _ => .bind (.spanFrom _) fun _ => .pure _
  · exact .pure _
  · exact .bind hg.expression fun _ => .pure _

theorem optionalBefore_steady (closing : TokenKind) : (optionalBefore g closing).Steady :=
  .kind_bind fun _ => .ite (.pure _) (.map _ hg.expression)

theorem countingHeader_steady : (countingHeader g).Steady :=
  .bind (initializer_steady hg) fun _ => .bind (.expect _ _) fun _ =>
    .bind (optionalBefore_steady hg _) fun _ => .bind (.expect _ _) fun _ =>
      .bind (optionalBefore_steady hg _) fun _ => .pure _

theorem countingLoop_steady (start : Token) : (countingLoop g start).Steady :=
  .bind (.expect _ _) fun _ => .bind (.inBrackets (countingHeader_steady hg)) fun _ =>
    .bind (.expect _ _) fun _ => .bind hg.block fun _ => .bind (.spanFrom _) fun _ => .pure _

theorem forLoop_steady : (forLoop g).Steady :=
  .bind (.expect _ _) fun start => .kind_bind fun _ => .ite (countingLoop_steady hg start)
    (.bind (.expectName _) fun _ => .bind (.expect _ _) fun _ => .bind hg.expression fun _ =>
      .bind hg.block fun _ => .bind (.spanFrom _) fun _ => .pure _)

theorem returning_steady : (returning g).Steady := by
  rw [returning_eq]
  exact .bind (.expect _ _) fun _ => .bind (.bind .atStatementEnd fun _ => optional_steady hg _)
    fun _ => .bind .statementEnd fun _ => .bind (.spanFrom _) fun _ => .pure _

omit hg in
theorem message_steady : message.Steady := by
  refine .bind (.accept _) fun _ => .ite (.map _ (.current_bind fun t => ?_)) (.pure _)
  split
  · exact .advance_bind fun _ => .pure _
  · exact .fail _

theorem assertion_steady : (assertion g).Steady := by
  rw [assertion_eq]
  exact .bind (.expect _ _) fun _ => .bind hg.expression fun _ => .bind message_steady fun _ =>
    .bind .statementEnd fun _ => .bind (.spanFrom _) fun _ => .pure _

omit hg in
theorem word_steady (make : Span → Stmt) : (word make).Steady :=
  .advance_bind fun _ => .bind .statementEnd fun _ => .pure _

theorem statement_steady : (statement g).Steady := by
  unfold statement
  refine .kind_bind fun _ => ?_
  split
  · exact declarationStatement_steady hg
  · exact definitionStatement_steady hg
  · exact decorated_steady hg
  · exact .bind hg.conditional fun _ => .pure _
  · exact whileLoop_steady hg
  · exact forLoop_steady hg
  · exact returning_steady hg
  · exact word_steady _
  · exact word_steady _
  · exact assertion_steady hg
  · exact .bind hg.expression fun _ => .bind .statementEnd fun _ => .pure _

theorem programTurn_steady (done : List Stmt) : (programTurn g done).Steady := by
  unfold programTurn
  refine .kind_bind fun _ => ?_
  split
  · exact .pure _
  · exact .advance_bind fun _ => .pure _
  · exact .fail _
  · exact .bind hg.statement fun _ => .pure _

end Rule

namespace Grammar

variable {g : Grammar}

theorem Steady.step (hg : g.Steady) : g.step.Steady where
  expression := Rule.expression_steady hg
  binary := Rule.binary_steady hg
  unary := Rule.unary_steady hg
  suffixed := Rule.suffixed_steady hg
  primary := Rule.primary_steady hg
  body := Rule.body_steady hg
  block := Rule.block_steady hg
  conditional := Rule.conditional_steady hg
  statement := Rule.statement_steady hg

theorem steady_bottom : bottom.Steady := by
  constructor <;> intros <;> exact .tooDeep

theorem steady_ofDepth (n : Nat) : (ofDepth n).Steady := by
  induction n with
  | zero => exact steady_bottom
  | succ n ih => exact ih.step

end Grammar

/-! ### Statements start outside of brackets -/

namespace Parser

variable {α : Type}

/-- `p` where no bracket is counted, and `q` elsewhere. -/
def divert (q p : Parser α) : Parser α := fun s => if s.brackets = 0 then p.run s else q.run s

theorem run_divert {q p : Parser α} {s : ParserState} (hs : s.brackets = 0) :
    (divert q p).run s = p.run s :=
  if_pos hs

variable {turn turn' : α → Parser (Turn α)} (hsteady : ∀ a, (turn a).Steady)
  (h : ∀ a s, s.brackets = 0 → (turn' a).run s = (turn a).run s)
include hsteady h

theorem run_turns_congr :
    ∀ (l : List Token) (a : α) (s : ParserState), s.brackets = 0 →
      (turns turn' l a).run s = (turns turn l a).run s
  | [], _, _, _ => rfl
  | _ :: l, a, s, hs => by
    unfold turns
    rw [run_bind, run_bind, h a s hs]
    cases hr : (turn a).run s with
    | error c => rfl
    | ok x =>
      obtain ⟨r, s₁⟩ := x
      cases r with
      | done b => rfl
      | again b => exact run_turns_congr l b s₁ ((hsteady a hr).brackets.trans hs)

/-- Steady turns that start outside of all brackets go on there. -/
theorem run_loop_congr (a : α) {s : ParserState} (hs : s.brackets = 0) :
    (loop turn' a).run s = (loop turn a).run s :=
  run_turns_congr hsteady h (s.finish :: s.ahead) a s hs

end Parser

namespace Grammar

/-- The grammar that reads `q` where it would start a statement with brackets counted. -/
def divert (q : Parser Stmt) (g : Grammar) : Grammar :=
  { g with statement := Parser.divert q g.statement }

/-- The grammar that follows rules `n` deep, and that reads `q`, wherever among these rules it
would start a statement with brackets counted. -/
def divertedOfDepth (q : Parser Stmt) : Nat → Grammar
  | 0 => bottom.divert q
  | n + 1 => (divertedOfDepth q n).step.divert q

end Grammar

namespace Rule

variable {g : Grammar} {q : Parser Stmt}

theorem run_blockTurn_divert (done : List Stmt) (s : ParserState) (hs : s.brackets = 0) :
    (blockTurn (g.divert q) done).run s = (blockTurn g done).run s := by
  unfold blockTurn
  rw [run_kind_bind, run_kind_bind]
  split
  case h_4 => rw [run_bind, run_bind, Grammar.divert, run_divert hs]
  all_goals rfl

theorem run_programTurn_divert (done : List Stmt) (s : ParserState) (hs : s.brackets = 0) :
    (programTurn (g.divert q) done).run s = (programTurn g done).run s := by
  unfold programTurn
  rw [run_kind_bind, run_kind_bind]
  split
  case h_4 => rw [run_bind, run_bind, Grammar.divert, run_divert hs]
  all_goals rfl

theorem block_divert (hg : g.Steady) : block (g.divert q) = block g := by
  have hloop : outsideBrackets (loop (blockTurn (g.divert q)) []) =
      outsideBrackets (loop (blockTurn g) []) := by
    funext s
    change (outsideBrackets (loop (blockTurn (g.divert q)) [])).run s =
      (outsideBrackets (loop (blockTurn g) [])).run s
    rw [run_outsideBrackets, run_outsideBrackets]
    rw [run_loop_congr (blockTurn_steady hg) run_blockTurn_divert [] rfl]
  unfold block
  rw [hloop]

end Rule

namespace Grammar

variable {g : Grammar}

/-- No rule but a block starts statements. -/
theorem step_divert (hg : g.Steady) (q : Parser Stmt) : (g.divert q).step = g.step := by
  unfold step
  rw [Rule.block_divert hg]
  rfl

/-- No rule but the one for statements can tell what statements with brackets counted do. -/
theorem divertedOfDepth_eq (q : Parser Stmt) (n : Nat) :
    divertedOfDepth q n = (ofDepth n).divert q := by
  induction n with
  | zero => rfl
  | succ n ih => rw [divertedOfDepth, ih, step_divert (steady_ofDepth n), ofDepth_succ]

end Grammar

theorem Rule.program_divertedOfDepth (q : Parser Stmt) (n : Nat) {s : ParserState}
    (hs : s.brackets = 0) :
    (program (Grammar.divertedOfDepth q n)).run s = (program (Grammar.ofDepth n)).run s := by
  rw [Grammar.divertedOfDepth_eq]
  unfold program
  rw [run_current_bind, run_current_bind, run_bind, run_bind,
    run_loop_congr (programTurn_steady (Grammar.steady_ofDepth n)) run_programTurn_divert [] hs]

end ScriptLang
