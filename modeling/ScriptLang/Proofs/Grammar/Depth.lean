import ScriptLang.Proofs.Grammar.Run

/-!
# Deeper grammars

A grammar that follows rules only so deep complains of nesting, or it reads what a deeper
one reads, with the same tree, the same complaint and the same tokens left ahead.

`Parser.Approximates p q` says so of two parsers, at every state; the combinators of parsers
keep it, and so do all rules. `Grammar.ofDepth_approximates` draws the conclusion.
-/

namespace ScriptLang

/-- A reading that was given up for its nesting. -/
def Outgrown {α : Type} (r : Except Complaint α) : Prop :=
  ∃ c, r = .error c ∧ c.cause = .nestedTooDeeply

theorem not_outgrown_ok {α : Type} (x : α) : ¬ Outgrown (.ok x) := by
  rintro ⟨c, hc, -⟩
  cases hc

theorem outgrown_error {α : Type} {c : Complaint} :
    Outgrown (.error c : Except Complaint α) ↔ c.cause = .nestedTooDeeply := by
  refine ⟨?_, fun h => ⟨c, rfl, h⟩⟩
  rintro ⟨d, hd, hcause⟩
  cases hd
  exact hcause

namespace Parser

/-- A parser complains of nesting at a state, or does there what `q` does. -/
def ApproximatesAt {α : Type} (p q : Parser α) (s : ParserState) : Prop :=
  Outgrown (p.run s) ∨ p.run s = q.run s

/-- A parser complains of nesting or does what `q` does. -/
def Approximates {α : Type} (p q : Parser α) : Prop := ∀ s, p.ApproximatesAt q s

theorem ApproximatesAt.bind {α β : Type} {p p' : Parser α} {f f' : α → Parser β}
    {s : ParserState} (hp : p.ApproximatesAt p' s)
    (hf : ∀ a s₁, p.run s = .ok (a, s₁) → (f a).ApproximatesAt (f' a) s₁) :
    (p >>= f).ApproximatesAt (p' >>= f') s := by
  rcases hp with ⟨c, hc, hcause⟩ | heq
  · exact .inl ⟨c, run_bind_of_error hc f, hcause⟩
  · unfold ApproximatesAt
    rw [run_bind, run_bind, ← heq]
    cases hr : p.run s with
    | error c => exact .inr rfl
    | ok x => exact hf x.1 x.2 hr

namespace Approximates

variable {α β : Type} {p p' q q' : Parser α} {f f' : α → Parser β}

theorem refl (p : Parser α) : p.Approximates p := fun _ => .inr rfl

theorem of_tooDeep (p : Parser α) : Approximates tooDeep p := fun _ => .inl ⟨_, rfl, rfl⟩

theorem bind (hp : p.Approximates p') (hf : ∀ a, (f a).Approximates (f' a)) :
    (p >>= f).Approximates (p' >>= f') :=
  fun s => (hp s).bind fun a s₁ _ => hf a s₁

theorem after (p : Parser α) (hf : ∀ a, (f a).Approximates (f' a)) :
    (p >>= f).Approximates (p >>= f') :=
  (refl p).bind hf

theorem map (g : α → β) (hp : p.Approximates p') : (g <$> p).Approximates (g <$> p') := by
  rw [← bind_pure_comp, ← bind_pure_comp]
  exact hp.bind fun _ => refl _

theorem ite {c : Prop} [Decidable c] (hp : p.Approximates p') (hq : q.Approximates q') :
    Approximates (if c then p else q) (if c then p' else q') := by
  split
  · exact hp
  · exact hq

theorem inBrackets (hp : p.Approximates p') : (inBrackets p).Approximates (inBrackets p') := by
  intro s
  unfold ApproximatesAt
  rw [run_inBrackets, run_inBrackets]
  rcases hp { s with brackets := s.brackets + 1 } with ⟨c, hc, hcause⟩ | heq
  · rw [hc]
    exact .inl ⟨c, rfl, hcause⟩
  · rw [heq]
    exact .inr rfl

theorem outsideBrackets (hp : p.Approximates p') :
    (outsideBrackets p).Approximates (outsideBrackets p') := by
  intro s
  unfold ApproximatesAt
  rw [run_outsideBrackets, run_outsideBrackets]
  rcases hp { s with brackets := 0 } with ⟨c, hc, hcause⟩ | heq
  · rw [hc]
    exact .inl ⟨c, rfl, hcause⟩
  · rw [heq]
    exact .inr rfl

theorem turns {turn turn' : α → Parser (Turn α)} (h : ∀ a, (turn a).Approximates (turn' a)) :
    ∀ (l : List Token) (a : α), (turns turn l a).Approximates (Parser.turns turn' l a)
  | [], _ => refl _
  | _ :: l, a => (h a).bind fun r => by
    cases r with
    | again b => exact turns h l b
    | done b => exact refl _

theorem loop {turn turn' : α → Parser (Turn α)} (h : ∀ a, (turn a).Approximates (turn' a))
    (a : α) : (loop turn a).Approximates (Parser.loop turn' a) :=
  fun s => turns h (s.finish :: s.ahead) a s

end Approximates

end Parser

open ScriptLang.Parser

/-- All rules of a grammar approximate those of another one. -/
structure Grammar.Approximates (g g' : Grammar) : Prop where
  expression : g.expression.Approximates g'.expression
  binary : ∀ level, (g.binary level).Approximates (g'.binary level)
  unary : g.unary.Approximates g'.unary
  suffixed : g.suffixed.Approximates g'.suffixed
  primary : g.primary.Approximates g'.primary
  body : g.body.Approximates g'.body
  block : g.block.Approximates g'.block
  conditional : g.conditional.Approximates g'.conditional
  statement : g.statement.Approximates g'.statement

namespace Rule

variable {g g' : Grammar} (hg : g.Approximates g')
include hg

/-! ### Expressions -/

theorem expression_approximates : (expression g).Approximates (expression g') := by
  unfold expression
  refine .after _ fun _ => .bind (hg.binary 1) fun e => .after _ fun _ => .after _ fun _ =>
    .ite ?_ (.refl _)
  split
  · exact .after _ fun _ => .bind hg.expression fun _ => .refl _
  · exact .refl _

theorem binaryTurn_approximates (level : Nat) (left : Expr) :
    (binaryTurn g level left).Approximates (binaryTurn g' level left) := by
  unfold binaryTurn
  refine .after _ fun _ => .ite (.refl _) (.after _ fun k => ?_)
  split
  · exact .refl _
  · exact .ite (.refl _) (.after _ fun _ => .bind (hg.binary _) fun _ => .refl _)

theorem binary_approximates (level : Nat) :
    (Rule.binary g level).Approximates (Rule.binary g' level) :=
  .bind hg.unary fun left => .loop (binaryTurn_approximates hg level) left

theorem unary_approximates : (unary g).Approximates (unary g') := by
  unfold unary
  refine .after _ fun k => ?_
  split
  · exact .after _ fun _ => .bind hg.unary fun _ => .refl _
  · exact .after _ fun _ => .bind hg.unary fun _ => .refl _
  · exact .after _ fun _ => .bind hg.unary fun _ => .refl _
  · exact .after _ fun _ => .bind hg.unary fun _ => .refl _
  · exact hg.suffixed

theorem argumentTurn_approximates (done : List Expr) :
    (argumentTurn g done).Approximates (argumentTurn g' done) := by
  unfold argumentTurn
  exact .after _ fun _ => .ite (.after _ fun _ => .ite (.refl _)
    (.bind hg.expression fun _ => .refl _)) (.refl _)

theorem arguments_approximates : (arguments g).Approximates (arguments g') := by
  unfold arguments
  exact .after _ fun _ => .ite (.refl _) (.bind hg.expression fun _ =>
    .bind (.loop (argumentTurn_approximates hg) _) fun _ => .refl _)

theorem call_approximates (callee : Expr) : (call g callee).Approximates (call g' callee) := by
  unfold call
  exact .after _ fun _ => .bind (.inBrackets (arguments_approximates hg)) fun _ => .refl _

theorem optional_approximates (leftOut : Bool) :
    (optional g leftOut).Approximates (optional g' leftOut) :=
  .ite (.refl _) (.map _ hg.expression)

theorem stride_approximates : (stride g).Approximates (stride g') :=
  .after _ fun _ => .ite (.after _ fun _ => optional_approximates hg _) (.refl _)

theorem stretch_approximates (start : Option Expr) :
    (stretch g start).Approximates (stretch g' start) := by
  rw [stretch_eq, stretch_eq]
  exact .after _ fun _ => .bind (optional_approximates hg _) fun _ =>
    .bind (stride_approximates hg) fun _ => .refl _

theorem subscript_approximates : (subscript g).Approximates (subscript g') := by
  unfold subscript
  exact .after _ fun _ => .ite (stretch_approximates hg none) (.bind hg.expression fun _ =>
    .after _ fun _ => .ite (stretch_approximates hg _) (.refl _))

theorem subscripted_approximates (target : Expr) :
    (subscripted g target).Approximates (subscripted g' target) := by
  unfold subscripted
  exact .after _ fun _ => .bind (.inBrackets (subscript_approximates hg)) fun _ => .refl _

theorem suffixTurn_approximates (operand : Expr) :
    (suffixTurn g operand).Approximates (suffixTurn g' operand) := by
  unfold suffixTurn
  refine .after _ fun _ => .ite (.refl _) (.after _ fun k => ?_)
  split
  · exact .bind (call_approximates hg operand) fun _ => .refl _
  · exact .bind (subscripted_approximates hg operand) fun _ => .refl _
  · exact .refl _
  · exact .refl _
  · exact .refl _

theorem suffixed_approximates : (suffixed g).Approximates (suffixed g') :=
  .bind hg.primary fun operand => .loop (suffixTurn_approximates hg) operand

theorem body_approximates : (body g).Approximates (body g') := by
  unfold body
  exact .after _ fun _ => .ite (.after _ fun _ => .bind (.outsideBrackets hg.expression)
    fun _ => .refl _) hg.block

theorem lambda_approximates : (lambda g).Approximates (lambda g') := by
  unfold lambda
  exact .after _ fun _ => .after _ fun _ => .after _ fun _ => .bind hg.body fun _ => .refl _

theorem group_approximates : (group g).Approximates (group g') := by
  unfold group
  exact .after _ fun _ => .bind (.inBrackets hg.expression) fun _ => .refl _

theorem primary_approximates : (primary g).Approximates (primary g') := by
  unfold primary
  refine .after _ fun t => ?_
  dsimp only
  split
  case h_8 => exact group_approximates hg
  case h_9 => exact lambda_approximates hg
  all_goals exact .refl _

/-! ### Statements -/

theorem blockTurn_approximates (done : List Stmt) :
    (blockTurn g done).Approximates (blockTurn g' done) := by
  unfold blockTurn
  refine .after _ fun k => ?_
  split
  case h_4 => exact .bind hg.statement fun _ => .refl _
  all_goals exact .refl _

theorem block_approximates : (block g).Approximates (block g') := by
  unfold block
  exact .after _ fun _ => .bind (.outsideBrackets (.loop (blockTurn_approximates hg) []))
    fun _ => .refl _

theorem declaration_approximates : (declaration g).Approximates (declaration g') := by
  unfold declaration
  exact .after _ fun _ => .after _ fun _ => .after _ fun _ => .bind hg.expression fun _ => .refl _

theorem declarationStatement_approximates :
    (declarationStatement g).Approximates (declarationStatement g') :=
  .bind (declaration_approximates hg) fun _ => .refl _

theorem definition_approximates : (definition g).Approximates (definition g') := by
  unfold definition
  exact .after _ fun _ => .after _ fun _ => .after _ fun _ => .after _ fun _ => .after _ fun _ =>
    .after _ fun _ => .bind hg.body fun _ => .refl _

theorem decoratorTurn_approximates (done : List Expr) :
    (decoratorTurn g done).Approximates (decoratorTurn g' done) := by
  unfold decoratorTurn
  exact .after _ fun _ => .ite (.bind hg.suffixed fun _ => .refl _) (.refl _)

theorem decorated_approximates : (decorated g).Approximates (decorated g') := by
  unfold decorated
  exact .bind (.loop (decoratorTurn_approximates hg) []) fun _ => .after _ fun _ =>
    .ite (.bind (definition_approximates hg) fun _ => .refl _) (.refl _)

theorem otherwise_approximates : (otherwise g).Approximates (otherwise g') := by
  unfold otherwise
  exact .after _ fun _ => .ite (.after _ fun _ => .ite (.bind hg.conditional fun _ => .refl _)
    (.bind hg.block fun _ => .refl _)) (.refl _)

theorem conditional_approximates : (conditional g).Approximates (conditional g') := by
  unfold conditional
  exact .after _ fun _ => .bind hg.expression fun _ => .bind hg.block fun _ =>
    .bind (otherwise_approximates hg) fun _ => .refl _

theorem whileLoop_approximates : (whileLoop g).Approximates (whileLoop g') := by
  unfold whileLoop
  exact .after _ fun _ => .bind hg.expression fun _ => .bind hg.block fun _ => .refl _

theorem initializer_approximates : (initializer g).Approximates (initializer g') := by
  unfold initializer
  refine .after _ fun k => ?_
  split
  · exact .bind (declaration_approximates hg) fun _ => .refl _
  · exact .refl _
  · exact .bind hg.expression fun _ => .refl _

theorem countingHeader_approximates : (countingHeader g).Approximates (countingHeader g') := by
  have hoptional : ∀ k, (optionalBefore g k).Approximates (optionalBefore g' k) := fun k => by
    rw [optionalBefore_eq, optionalBefore_eq]
    exact .after _ fun _ => optional_approximates hg _
  unfold countingHeader
  exact .bind (initializer_approximates hg) fun _ => .after _ fun _ => .bind (hoptional _)
    fun _ => .after _ fun _ => .bind (hoptional _) fun _ => .refl _

theorem countingLoop_approximates (start : Token) :
    (countingLoop g start).Approximates (countingLoop g' start) := by
  unfold countingLoop
  exact .after _ fun _ => .bind (.inBrackets (countingHeader_approximates hg)) fun _ =>
    .after _ fun _ => .bind hg.block fun _ => .refl _

theorem forLoop_approximates : (forLoop g).Approximates (forLoop g') := by
  unfold forLoop
  exact .after _ fun start => .after _ fun _ => .ite (countingLoop_approximates hg start)
    (.after _ fun _ => .after _ fun _ => .bind hg.expression fun _ => .bind hg.block fun _ =>
      .refl _)

theorem returning_approximates : (returning g).Approximates (returning g') := by
  rw [returning_eq, returning_eq]
  exact .after _ fun _ => .bind (.after _ fun _ => optional_approximates hg _) fun _ => .refl _

theorem assertion_approximates : (assertion g).Approximates (assertion g') := by
  unfold assertion
  exact .after _ fun _ => .bind hg.expression fun _ => .refl _

theorem statement_approximates : (statement g).Approximates (statement g') := by
  unfold statement
  refine .after _ fun k => ?_
  split
  · exact declarationStatement_approximates hg
  · exact .bind (definition_approximates hg) fun _ => .refl _
  · exact decorated_approximates hg
  · exact .bind hg.conditional fun _ => .refl _
  · exact whileLoop_approximates hg
  · exact forLoop_approximates hg
  · exact returning_approximates hg
  · exact .refl _
  · exact .refl _
  · exact assertion_approximates hg
  · exact .bind hg.expression fun _ => .refl _

theorem program_approximates : (program g).Approximates (program g') := by
  have hturn : ∀ done, (programTurn g done).Approximates (programTurn g' done) := by
    intro done
    unfold programTurn
    refine .after _ fun k => ?_
    split
    case h_4 => exact .bind hg.statement fun _ => .refl _
    all_goals exact .refl _
  unfold program
  exact .after _ fun _ => .bind (.loop hturn []) fun _ => .refl _

end Rule

namespace Grammar

variable {g g' : Grammar}

theorem Approximates.step (hg : g.Approximates g') : g.step.Approximates g'.step where
  expression := Rule.expression_approximates hg
  binary := Rule.binary_approximates hg
  unary := Rule.unary_approximates hg
  suffixed := Rule.suffixed_approximates hg
  primary := Rule.primary_approximates hg
  body := Rule.body_approximates hg
  block := Rule.block_approximates hg
  conditional := Rule.conditional_approximates hg
  statement := Rule.statement_approximates hg

theorem bottom_approximates (g : Grammar) : bottom.Approximates g where
  expression := .of_tooDeep _
  binary _ := .of_tooDeep _
  unary := .of_tooDeep _
  suffixed := .of_tooDeep _
  primary := .of_tooDeep _
  body := .of_tooDeep _
  block := .of_tooDeep _
  conditional := .of_tooDeep _
  statement := .of_tooDeep _

/-- A grammar complains of nesting or reads what a deeper one does. -/
theorem ofDepth_approximates {m n : Nat} (h : n ≤ m) : (ofDepth n).Approximates (ofDepth m) := by
  induction n generalizing m with
  | zero => exact bottom_approximates _
  | succ n ih =>
    obtain ⟨m, rfl⟩ : ∃ k, m = k + 1 := Nat.exists_eq_add_one.2 (Nat.lt_of_lt_of_le n.succ_pos h)
    exact (ih (Nat.le_of_succ_le_succ h)).step

end Grammar

/-- Tokens that are not given up for their nesting are read as with a greater depth. -/
theorem Program.parseTokensAt_approximates {m n : Nat} (h : n ≤ m) (tokens : List Token) :
    Outgrown (parseTokensAt n tokens) ∨ parseTokensAt n tokens = parseTokensAt m tokens := by
  unfold parseTokensAt
  cases initialState? tokens with
  | none => exact .inr rfl
  | some s =>
    rcases Rule.program_approximates (Grammar.ofDepth_approximates h) s with ⟨c, hc, hcause⟩ | heq
    · exact .inl ⟨c, by dsimp only; rw [hc]; rfl, hcause⟩
    · exact .inr (by dsimp only; rw [heq])

end ScriptLang
