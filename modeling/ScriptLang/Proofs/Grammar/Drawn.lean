import ScriptLang.Proofs.Grammar.Run
import ScriptLang.Proofs.Tree.Part

/-!
# Literals and names are drawn from tokens

`Parser.Ensures T p Q` says that `p` yields what satisfies `Q` from tokens that satisfy
`T`, and leaves such tokens ahead; the combinators of parsers have one rule each.

A part is drawn from tokens that satisfy `T` if it is an integer literal that such a token
says, reads or binds again a name that such a token says, or does neither. `Grammar.Draws` says
that all rules of a grammar yield trees of such parts, and `Program.parseTokensAt_drawn` that
programs consist of them.
-/

namespace ScriptLang

variable {T : Token → Prop}

/-- The tokens ahead and the end of the input satisfy `T`. -/
structure ParserState.All (T : Token → Prop) (s : ParserState) : Prop where
  finish : T s.finish
  ahead : ∀ t ∈ s.ahead, T t

namespace ParserState.All

variable {s : ParserState}

theorem current (h : s.All T) : T s.current := by
  cases hs : s.ahead with
  | nil => rw [current_of_nil hs]; exact h.finish
  | cons t ts => rw [current_of_cons hs]; exact h.ahead t (by simp [hs])

theorem skip (h : s.All T) : s.skip.All T := by
  cases hs : s.ahead with
  | nil => rwa [skip_of_nil hs]
  | cons t ts =>
    rw [skip_of_cons hs]
    exact ⟨h.finish, fun u hu => h.ahead u (by simp [hs, show u ∈ ts from hu])⟩

theorem withBrackets (h : s.All T) (n : Nat) : ({ s with brackets := n } : ParserState).All T :=
  ⟨h.finish, h.ahead⟩

end ParserState.All

/-- The value that a turn comes to, whether the loop goes on or not. -/
def Turn.value {α : Type} : Turn α → α
  | .again a => a
  | .done a => a

namespace Parser

/-- A parser yields what satisfies `Q` from tokens that satisfy `T`. -/
def Ensures {α : Type} (T : Token → Prop) (p : Parser α) (Q : α → Prop) : Prop :=
  ∀ ⦃s a s'⦄, s.All T → p.run s = .ok (a, s') → Q a ∧ s'.All T

namespace Ensures

variable {α β : Type} {p q : Parser α} {f : α → Parser β} {Q Q' : α → Prop} {R : β → Prop}

theorem pure {a : α} (h : Q a) : Ensures T (pure a) Q := by
  intro s b s' hs hrun
  obtain ⟨rfl, rfl⟩ := run_pure_eq_ok.1 hrun
  exact ⟨h, hs⟩

theorem bind (hp : Ensures T p Q) (hf : ∀ a, Q a → Ensures T (f a) R) :
    Ensures T (p >>= f) R := by
  intro s b s' hs hrun
  obtain ⟨a, s₁, ha, hb⟩ := run_bind_eq_ok.1 hrun
  obtain ⟨hQ, hs₁⟩ := hp hs ha
  exact hf a hQ hs₁ hb

theorem map {g : α → β} (hp : Ensures T p Q) (hg : ∀ a, Q a → R (g a)) :
    Ensures T (g <$> p) R := by
  rw [← bind_pure_comp]
  exact hp.bind fun a ha => .pure (hg a ha)

theorem ite {P : Prop} [Decidable P] (hp : Ensures T p Q) (hq : Ensures T q Q) :
    Ensures T (if P then p else q) Q := by
  split
  · exact hp
  · exact hq

theorem current : Ensures T current T := by
  intro s a s' hs hrun
  cases hrun
  exact ⟨hs.current, hs⟩

theorem kind : Ensures T kind fun _ => True := by
  intro s a s' hs hrun
  cases hrun
  exact ⟨trivial, hs⟩

theorem onSameLine : Ensures T onSameLine fun _ => True := by
  intro s a s' hs hrun
  cases hrun
  exact ⟨trivial, hs⟩

theorem spanFrom (start : Span) : Ensures T (spanFrom start) fun _ => True := by
  intro s a s' hs hrun
  cases hrun
  exact ⟨trivial, hs⟩

theorem atStatementEnd : Ensures T atStatementEnd fun _ => True := by
  intro s a s' hs hrun
  rw [run_atStatementEnd] at hrun
  cases hrun
  exact ⟨trivial, hs⟩

theorem advance : Ensures T advance T := by
  intro s a s' hs hrun
  cases hrun
  exact ⟨hs.current, hs.skip⟩

theorem fail (e : Expectation) : Ensures T (fail e) Q := by
  intro s a s' hs hrun
  rw [run_fail] at hrun
  cases hrun

theorem refuseTarget (target : Span) (start : Token) :
    Ensures T (refuseTarget target start) Q := by
  intro s a s' hs hrun
  cases hrun

theorem tooDeep : Ensures T tooDeep Q := by
  intro s a s' hs hrun
  cases hrun

theorem expect (k : TokenKind) (e : Expectation) : Ensures T (expect k e) T := by
  unfold Parser.expect
  exact kind.bind fun _ _ => .ite advance (fail e)

theorem expectName (e : Expectation) :
    Ensures T (expectName e) fun name => ∃ t, T t ∧ t.content = .identifier name := by
  unfold Parser.expectName
  refine current.bind fun t ht => ?_
  split
  · next name hname => exact advance.bind fun _ _ => .pure ⟨t, ht, hname⟩
  · exact fail e

theorem accept (k : TokenKind) : Ensures T (accept k) fun _ => True := by
  unfold Parser.accept
  exact kind.bind fun _ _ => .ite (advance.bind fun _ _ => .pure trivial) (.pure trivial)

theorem statementEnd : Ensures T statementEnd fun _ => True := by
  unfold Parser.statementEnd
  refine current.bind fun t _ => ?_
  split
  · exact advance.bind fun _ _ => .pure trivial
  · exact .pure trivial
  · exact .pure trivial
  · exact .ite (.pure trivial) (fail _)

theorem inBrackets (hp : Ensures T p Q) : Ensures T (inBrackets p) Q := by
  intro s a s' hs hrun
  obtain ⟨s₁, hinner, rfl⟩ := run_inBrackets_eq_ok.1 hrun
  obtain ⟨hQ, hs₁⟩ := hp (hs.withBrackets _) hinner
  exact ⟨hQ, hs₁.withBrackets _⟩

theorem outsideBrackets (hp : Ensures T p Q) : Ensures T (outsideBrackets p) Q := by
  intro s a s' hs hrun
  obtain ⟨s₁, hinner, rfl⟩ := run_outsideBrackets_eq_ok.1 hrun
  obtain ⟨hQ, hs₁⟩ := hp (hs.withBrackets _) hinner
  exact ⟨hQ, hs₁.withBrackets _⟩

/-- What each turn keeps holds of the end of a loop. -/
theorem turns {turn : α → Parser (Turn α)}
    (hturn : ∀ a, Q a → Ensures T (turn a) fun r => Q r.value) :
    ∀ (l : List Token) {a : α}, Q a → Ensures T (turns turn l a) Q
  | [], _, ha => .pure ha
  | _ :: l, _, ha => (hturn _ ha).bind fun r hr => by
    cases r with
    | again b => exact turns hturn l hr
    | done b => exact .pure hr

theorem loop {turn : α → Parser (Turn α)} {a : α}
    (hturn : ∀ a, Q a → Ensures T (turn a) fun r => Q r.value) (ha : Q a) :
    Ensures T (loop turn a) Q := by
  intro s b s' hs hrun
  exact turns hturn _ ha hs hrun

end Ensures

end Parser

/-! ### Trees drawn from tokens -/

/-- Some token of `T` says the integer of a part that is an integer literal, and the name of one
that reads a name or binds it again. -/
def Part.Drawn (T : Token → Prop) : Part → Prop
  | .expression (.literal _ (.integer n)) => ∃ t, T t ∧ t.content = .integer n
  | .expression (.identifier name) => ∃ t, T t ∧ t.content = .identifier name.name
  | .expression (.increment _ _ _ target) => ∃ t, T t ∧ t.content = .identifier target.name
  | .expression (.assignment _ target _) => ∃ t, T t ∧ t.content = .identifier target.name
  | _ => True

/-- All parts of a tree are drawn from tokens of `T`. -/
abbrev Drawn (T : Token → Prop) (parts : List Part) : Prop := Within (Part.Drawn T) parts

/-- All rules of a grammar yield trees drawn from the tokens they read. -/
structure Grammar.Draws (T : Token → Prop) (g : Grammar) : Prop where
  expression : g.expression.Ensures T fun e => Drawn T e.parts
  binary : ∀ level, (g.binary level).Ensures T fun e => Drawn T e.parts
  unary : g.unary.Ensures T fun e => Drawn T e.parts
  suffixed : g.suffixed.Ensures T fun e => Drawn T e.parts
  primary : g.primary.Ensures T fun e => Drawn T e.parts
  body : g.body.Ensures T fun b => Drawn T b.parts
  block : g.block.Ensures T fun b => Drawn T b.parts
  conditional : g.conditional.Ensures T fun c => Drawn T c.parts
  statement : g.statement.Ensures T fun s => Drawn T s.parts

namespace Rule

open ScriptLang.Parser

variable {g : Grammar}

/-! ### Expressions -/

theorem expression_draws (hg : g.Draws T) :
    (expression g).Ensures T fun e => Drawn T e.parts := by
  unfold expression
  refine .bind .current fun _ _ => .bind (hg.binary 1) fun e he => .bind .kind fun _ _ =>
    .bind .onSameLine fun _ _ => .ite ?_ (.pure he)
  split
  · exact .bind .advance fun _ _ => .bind hg.expression fun v hv =>
      .pure (within_cons.2 ⟨(within_cons.1 he).1, hv⟩)
  · exact .refuseTarget _ _

theorem join_drawn (c : Connective) {left right : Expr} (hl : Drawn T left.parts)
    (hr : Drawn T right.parts) : Drawn T (c.join left right).parts := by
  cases c <;> exact within_cons.2 ⟨trivial, within_append.2 ⟨hl, hr⟩⟩

theorem binaryTurn_draws (hg : g.Draws T) (level : Nat) {left : Expr}
    (hl : Drawn T left.parts) :
    (binaryTurn g level left).Ensures T fun r => Drawn T r.value.parts := by
  unfold binaryTurn
  refine .bind .onSameLine fun _ _ => .ite (.pure hl) (.bind .kind fun _ _ => ?_)
  split
  · exact .pure hl
  · next c _ =>
    exact .ite (.pure hl) (.bind .advance fun _ _ => .bind (hg.binary _) fun right hr =>
      .pure (join_drawn c hl hr))

theorem binary_draws (hg : g.Draws T) (level : Nat) :
    (Rule.binary g level).Ensures T fun e => Drawn T e.parts := by
  unfold Rule.binary
  exact .bind hg.unary fun left hl => .loop (fun _ h => binaryTurn_draws hg level h) hl

theorem increment_draws (sign : Token) {target : Expr} (ht : Drawn T target.parts)
    (direction : Direction) (side : Side) :
    (increment sign target direction side).Ensures T fun e => Drawn T e.parts := by
  unfold increment
  split
  · exact .pure (within_cons.2 ⟨(within_cons.1 ht).1, within_nil⟩)
  · exact .refuseTarget _ _

theorem unary_draws (hg : g.Draws T) : (unary g).Ensures T fun e => Drawn T e.parts := by
  unfold unary
  refine .bind .kind fun _ _ => ?_
  split
  · exact .bind .advance fun _ _ => .bind hg.unary fun e he =>
      .pure (within_cons.2 ⟨trivial, he⟩)
  · exact .bind .advance fun _ _ => .bind hg.unary fun e he =>
      .pure (within_cons.2 ⟨trivial, he⟩)
  · exact .bind .advance fun _ _ => .bind hg.unary fun _ he => increment_draws _ he _ _
  · exact .bind .advance fun _ _ => .bind hg.unary fun _ he => increment_draws _ he _ _
  · exact hg.suffixed

theorem argumentTurn_draws (hg : g.Draws T) {done : List Expr}
    (hd : ∀ e ∈ done, Drawn T e.parts) :
    (argumentTurn g done).Ensures T fun r => ∀ e ∈ r.value, Drawn T e.parts := by
  unfold argumentTurn
  exact .bind (.accept _) fun _ _ => .ite
    (.bind .kind fun _ _ => .ite (.pure hd) (.bind hg.expression fun e he =>
      .pure (List.forall_mem_cons.2 ⟨he, hd⟩))) (.pure hd)

theorem arguments_draws (hg : g.Draws T) :
    (arguments g).Ensures T fun es => Drawn T (Expr.partsAll es) := by
  unfold arguments
  refine .bind .kind fun _ _ => .ite (.pure within_nil) (.bind hg.expression fun first hf =>
    .bind (.loop (fun _ h => argumentTurn_draws hg h) (List.forall_mem_singleton.2 hf))
      fun es hes => .pure (within_partsAll.2 fun e he => hes e (List.mem_reverse.1 he)))

theorem call_draws (hg : g.Draws T) {callee : Expr} (hc : Drawn T callee.parts) :
    (call g callee).Ensures T fun e => Drawn T e.parts := by
  unfold call
  exact .bind (.expect _ _) fun _ _ => .bind (.inBrackets (arguments_draws hg)) fun es hes =>
    .bind (.expect _ _) fun _ _ => .bind (.spanFrom _) fun _ _ =>
      .pure (within_cons.2 ⟨trivial, within_append.2 ⟨hc, hes⟩⟩)

/-- The parts of what stands between square brackets. -/
def Subscript.parts : Subscript → List Part
  | .position value => value.parts
  | .stretch start stop step =>
    Expr.partsOption start ++ Expr.partsOption stop ++ Expr.partsOption step

theorem optional_draws (hg : g.Draws T) (leftOut : Bool) :
    (optional g leftOut).Ensures T fun o => Drawn T (Expr.partsOption o) := by
  unfold optional
  exact .ite (.pure within_nil) (.map hg.expression fun _ h => h)

theorem stride_draws (hg : g.Draws T) :
    (stride g).Ensures T fun o => Drawn T (Expr.partsOption o) := by
  unfold stride
  exact .bind (.accept _) fun _ _ =>
    .ite (.bind .kind fun _ _ => optional_draws hg _) (.pure within_nil)

theorem stretch_draws (hg : g.Draws T) {start : Option Expr}
    (hs : Drawn T (Expr.partsOption start)) :
    (stretch g start).Ensures T fun x => Drawn T x.parts := by
  rw [stretch_eq]
  exact .bind .kind fun _ _ => .bind (optional_draws hg _) fun _ hstop =>
    .bind (stride_draws hg) fun _ hstep =>
      .pure (within_append.2 ⟨within_append.2 ⟨hs, hstop⟩, hstep⟩)

theorem subscript_draws (hg : g.Draws T) : (subscript g).Ensures T fun x => Drawn T x.parts := by
  unfold subscript
  exact .bind (.accept _) fun _ _ => .ite (stretch_draws hg within_nil)
    (.bind hg.expression fun e he => .bind (.accept _) fun _ _ =>
      .ite (stretch_draws hg he) (.pure he))

theorem subscripted_draws (hg : g.Draws T) {target : Expr} (ht : Drawn T target.parts) :
    (subscripted g target).Ensures T fun e => Drawn T e.parts := by
  unfold subscripted
  refine .bind (.expect _ _) fun _ _ => .bind (.inBrackets (subscript_draws hg)) fun x hx => ?_
  cases x with
  | position value =>
    exact .bind (.expect _ _) fun _ _ => .bind (.spanFrom _) fun _ _ =>
      .pure (within_cons.2 ⟨trivial, within_append.2 ⟨ht, hx⟩⟩)
  | stretch start stop step =>
    simp only [Subscript.parts, within_append] at hx
    refine .bind (.expect _ _) fun _ _ => .bind (.spanFrom _) fun _ _ => .pure ?_
    simp only [Expr.parts, within_cons, within_append]
    exact ⟨trivial, ⟨⟨ht, hx.1.1⟩, hx.1.2⟩, hx.2⟩

theorem suffixTurn_draws (hg : g.Draws T) {operand : Expr} (ho : Drawn T operand.parts) :
    (suffixTurn g operand).Ensures T fun r => Drawn T r.value.parts := by
  unfold suffixTurn
  refine .bind .onSameLine fun _ _ => .ite (.pure ho) (.bind .kind fun _ _ => ?_)
  split
  · exact .bind (call_draws hg ho) fun _ h => .pure h
  · exact .bind (subscripted_draws hg ho) fun _ h => .pure h
  · exact .bind .advance fun _ _ => .bind (increment_draws _ ho _ _) fun _ h => .pure h
  · exact .bind .advance fun _ _ => .bind (increment_draws _ ho _ _) fun _ h => .pure h
  · exact .pure ho

theorem suffixed_draws (hg : g.Draws T) : (suffixed g).Ensures T fun e => Drawn T e.parts := by
  unfold suffixed
  exact .bind hg.primary fun _ h => .loop (fun _ h => suffixTurn_draws hg h) h

theorem parameterTurn_ensures (closing : TokenKind) (done : List Text) :
    (parameterTurn closing done).Ensures T fun _ => True := by
  unfold parameterTurn
  exact .bind (.accept _) fun _ _ => .ite
    (.bind .kind fun _ _ => .ite (.pure trivial)
      (.bind (.expectName _) fun _ _ => .pure trivial)) (.pure trivial)

theorem parameters_ensures (closing : TokenKind) :
    (parameters closing).Ensures T fun _ => True := by
  unfold parameters parameterNames
  exact .bind .kind fun _ _ => .ite (.pure trivial) (.bind (.expectName _) fun _ _ =>
    .bind (.loop (Q := fun _ => True) (fun _ _ => parameterTurn_ensures _ _) trivial)
      fun _ _ => .pure trivial)

theorem body_draws (hg : g.Draws T) : (body g).Ensures T fun b => Drawn T b.parts := by
  unfold body
  refine .bind .kind fun _ _ => .ite (.bind .advance fun _ _ =>
    .bind (.outsideBrackets hg.expression) fun e he => .pure ?_) hg.block
  exact within_append.2 ⟨within_cons.2 ⟨trivial, he⟩, within_nil⟩

theorem lambda_draws (hg : g.Draws T) : (lambda g).Ensures T fun e => Drawn T e.parts := by
  unfold lambda
  exact .bind (.expect _ _) fun _ _ => .bind (parameters_ensures _) fun _ _ =>
    .bind (.expect _ _) fun _ _ => .bind hg.body fun _ hb => .bind (.spanFrom _) fun _ _ =>
      .pure (within_cons.2 ⟨trivial, hb⟩)

theorem group_draws (hg : g.Draws T) : (group g).Ensures T fun e => Drawn T e.parts := by
  unfold group
  exact .bind .advance fun _ _ => .bind (.inBrackets hg.expression) fun _ he =>
    .bind (.expect _ _) fun _ _ => .pure he

theorem primary_draws (hg : g.Draws T) : (primary g).Ensures T fun e => Drawn T e.parts := by
  unfold primary
  refine .bind .current fun t ht => ?_
  have hleaf : ∀ e : Expr, e.parts = [.expression e] → Part.Drawn T (.expression e) →
      (advance *> pure e : Parser Expr).Ensures T fun e => Drawn T e.parts := by
    intro e he hdrawn s a s' hs hrun
    rw [run_advance_seq, run_pure] at hrun
    cases hrun
    have hparts : Drawn T e.parts := he ▸ within_cons.2 ⟨hdrawn, within_nil⟩
    exact ⟨hparts, hs.skip⟩
  dsimp only
  split
  · next value hvalue => exact hleaf _ rfl ⟨t, ht, hvalue⟩
  · exact hleaf _ rfl trivial
  · exact hleaf _ rfl trivial
  · exact hleaf _ rfl trivial
  · exact hleaf _ rfl trivial
  · exact hleaf _ rfl trivial
  · next name hname => exact hleaf _ rfl ⟨t, ht, hname⟩
  · exact group_draws hg
  · exact lambda_draws hg
  · exact .fail _

/-! ### Statements -/

theorem blockTurn_draws (hg : g.Draws T) {done : List Stmt}
    (hd : ∀ s ∈ done, Drawn T s.parts) :
    (blockTurn g done).Ensures T fun r => ∀ s ∈ r.value, Drawn T s.parts := by
  unfold blockTurn
  refine .bind .kind fun _ _ => ?_
  split
  · exact .pure hd
  · exact .fail _
  · exact .bind .advance fun _ _ => .pure hd
  · exact .bind hg.statement fun s hs => .pure (List.forall_mem_cons.2 ⟨hs, hd⟩)

/-- Statements that were collected the latest first. -/
theorem reverse_drawn {ss : List Stmt} (h : ∀ s ∈ ss, Drawn T s.parts) :
    Drawn T (Stmt.partsAll ss.reverse) :=
  within_stmtPartsAll.2 fun s hs => h s (List.mem_reverse.1 hs)

theorem block_draws (hg : g.Draws T) : (block g).Ensures T fun b => Drawn T b.parts := by
  unfold block
  exact .bind (.expect _ _) fun _ _ =>
    .bind (.outsideBrackets (.loop (fun _ h => blockTurn_draws hg h) (nofun))) fun ss hss =>
      .bind (.expect _ _) fun _ _ => .bind (.spanFrom _) fun _ _ => .pure (reverse_drawn hss)

theorem declaration_draws (hg : g.Draws T) :
    (declaration g).Ensures T fun x => Drawn T x.2.2.parts := by
  unfold declaration
  exact .bind (.expect _ _) fun _ _ => .bind (.expectName _) fun _ _ =>
    .bind (.expect _ _) fun _ _ => .bind hg.expression fun _ he => .pure he

theorem declarationStatement_draws (hg : g.Draws T) :
    (declarationStatement g).Ensures T fun s => Drawn T s.parts := by
  unfold declarationStatement
  exact .bind (declaration_draws hg) fun ⟨_, _, _⟩ hx => .bind .statementEnd fun _ _ =>
    .bind (.spanFrom _) fun _ _ => .pure (within_cons.2 ⟨trivial, hx⟩)

theorem definitionEnd_ensures (arrow : Bool) :
    (definitionEnd arrow).Ensures T fun _ => True := by
  unfold definitionEnd
  exact .ite .statementEnd (.pure trivial)

theorem definition_draws (hg : g.Draws T) :
    (definition g).Ensures T fun d =>
      (∃ t, T t ∧ t.content = .identifier d.name) ∧ Drawn T d.expr.parts := by
  rw [definition_eq]
  exact .bind (.expect _ _) fun _ _ => .bind (.expectName _) fun _ hn =>
    .bind (.expect _ _) fun _ _ => .bind (parameters_ensures _) fun _ _ =>
      .bind (.expect _ _) fun _ _ => .bind .kind fun _ _ => .bind hg.body fun _ hb =>
        .bind (definitionEnd_ensures _) fun _ _ => .bind (.spanFrom _) fun _ _ =>
          .pure ⟨hn, within_cons.2 ⟨trivial, hb⟩⟩

theorem decoratorTurn_draws (hg : g.Draws T) {done : List Expr}
    (hd : ∀ e ∈ done, Drawn T e.parts) :
    (decoratorTurn g done).Ensures T fun r => ∀ e ∈ r.value, Drawn T e.parts := by
  unfold decoratorTurn
  exact .bind (.accept _) fun _ _ => .ite
    (.bind hg.suffixed fun e he => .bind (.accept _) fun _ _ =>
      .pure (List.forall_mem_cons.2 ⟨he, hd⟩)) (.pure hd)

theorem foldl_decorate_drawn (d : Definition) {decorators : List Expr} {value : Expr}
    (hd : ∀ e ∈ decorators, Drawn T e.parts) (hv : Drawn T value.parts) :
    Drawn T (decorators.foldl (decorate d) value).parts := by
  induction decorators generalizing value with
  | nil => exact hv
  | cons e es ih =>
    rw [List.forall_mem_cons] at hd
    refine ih hd.2 (within_cons.2 ⟨trivial, within_append.2 ⟨hd.1, ?_⟩⟩)
    exact within_append.2 ⟨hv, within_nil⟩

theorem decorated_draws (hg : g.Draws T) : (decorated g).Ensures T fun s => Drawn T s.parts := by
  unfold decorated
  exact .bind (.loop (fun _ h => decoratorTurn_draws hg h) (nofun)) fun _ hes =>
    .bind .kind fun _ _ => .ite (.bind (definition_draws hg) fun d hd =>
      .pure (within_cons.2
        ⟨trivial, within_cons.2 ⟨hd.1, foldl_decorate_drawn d hes hd.2⟩⟩)) (.fail _)

theorem otherwise_draws (hg : g.Draws T) : (otherwise g).Ensures T fun o => Drawn T o.parts := by
  unfold otherwise
  exact .bind (.accept _) fun _ _ => .ite
    (.bind .kind fun _ _ => .ite (.bind hg.conditional fun _ h => .pure h)
      (.bind hg.block fun _ h => .pure h)) (.pure within_nil)

theorem conditional_draws (hg : g.Draws T) :
    (conditional g).Ensures T fun c => Drawn T c.parts := by
  unfold conditional
  exact .bind (.expect _ _) fun _ _ => .bind hg.expression fun _ he => .bind hg.block fun _ hb =>
    .bind (otherwise_draws hg) fun _ ho => .bind (.spanFrom _) fun _ _ =>
      .pure (within_cons.2 ⟨trivial, within_append.2 ⟨within_append.2 ⟨he, hb⟩, ho⟩⟩)

theorem whileLoop_draws (hg : g.Draws T) : (whileLoop g).Ensures T fun s => Drawn T s.parts := by
  unfold whileLoop
  exact .bind (.expect _ _) fun _ _ => .bind hg.expression fun _ he => .bind hg.block fun _ hb =>
    .bind (.spanFrom _) fun _ _ => .pure (within_cons.2 ⟨trivial, within_append.2 ⟨he, hb⟩⟩)

theorem initializer_draws (hg : g.Draws T) :
    (initializer g).Ensures T fun o => Drawn T (Simple.partsOption o) := by
  unfold initializer
  refine .bind .kind fun _ _ => ?_
  split
  · exact .bind (declaration_draws hg) fun ⟨_, _, _⟩ hx => .bind (.spanFrom _) fun _ _ =>
      .pure (within_cons.2 ⟨trivial, hx⟩)
  · exact .pure within_nil
  · exact .bind hg.expression fun _ he => .pure (within_cons.2 ⟨trivial, he⟩)

theorem optionalBefore_draws (hg : g.Draws T) (closing : TokenKind) :
    (optionalBefore g closing).Ensures T fun o => Drawn T (Expr.partsOption o) := by
  rw [optionalBefore_eq]
  exact .bind .kind fun _ _ => optional_draws hg _

theorem countingHeader_draws (hg : g.Draws T) :
    (countingHeader g).Ensures T fun x => Drawn T (Simple.partsOption x.1) ∧
      Drawn T (Expr.partsOption x.2.1) ∧ Drawn T (Expr.partsOption x.2.2) := by
  unfold countingHeader
  exact .bind (initializer_draws hg) fun _ hi => .bind (.expect _ _) fun _ _ =>
    .bind (optionalBefore_draws hg _) fun _ hc => .bind (.expect _ _) fun _ _ =>
      .bind (optionalBefore_draws hg _) fun _ hs => .pure ⟨hi, hc, hs⟩

theorem countingLoop_draws (hg : g.Draws T) (start : Token) :
    (countingLoop g start).Ensures T fun s => Drawn T s.parts := by
  unfold countingLoop
  refine .bind (.expect _ _) fun _ _ => .bind (.inBrackets (countingHeader_draws hg))
    fun ⟨_, _, _⟩ hx => .bind (.expect _ _) fun _ _ => .bind hg.block fun _ hb =>
      .bind (.spanFrom _) fun _ _ => .pure ?_
  simp only [Stmt.parts, within_cons, within_append]
  exact ⟨trivial, ⟨⟨hx.1, hx.2.1⟩, hx.2.2⟩, hb⟩

theorem forLoop_draws (hg : g.Draws T) : (forLoop g).Ensures T fun s => Drawn T s.parts := by
  unfold forLoop
  exact .bind (.expect _ _) fun start _ => .bind .kind fun _ _ => .ite
    (countingLoop_draws hg start)
    (.bind (.expectName _) fun _ _ => .bind (.expect _ _) fun _ _ =>
      .bind hg.expression fun _ he => .bind hg.block fun _ hb => .bind (.spanFrom _) fun _ _ =>
        .pure (within_cons.2 ⟨trivial, within_append.2 ⟨he, hb⟩⟩))

theorem returning_draws (hg : g.Draws T) : (returning g).Ensures T fun s => Drawn T s.parts := by
  rw [returning_eq]
  exact .bind (.expect _ _) fun _ _ =>
    .bind (.bind .atStatementEnd fun _ _ => optional_draws hg _) fun _ ho =>
      .bind .statementEnd fun _ _ => .bind (.spanFrom _) fun _ _ =>
        .pure (within_cons.2 ⟨trivial, ho⟩)

theorem message_ensures : message.Ensures T fun _ => True := by
  unfold message assertionMessage
  refine .bind (.accept _) fun _ _ => .ite (.map (Q := fun _ => True) ?_ fun _ _ => trivial)
    (.pure trivial)
  refine .bind .current fun t _ => ?_
  split
  · exact .bind .advance fun _ _ => .pure trivial
  · exact .fail _

theorem assertion_draws (hg : g.Draws T) : (assertion g).Ensures T fun s => Drawn T s.parts := by
  rw [assertion_eq]
  exact .bind (.expect _ _) fun _ _ => .bind hg.expression fun _ he =>
    .bind message_ensures fun _ _ => .bind .statementEnd fun _ _ => .bind (.spanFrom _) fun _ _ =>
      .pure (within_cons.2 ⟨trivial, he⟩)

theorem word_draws {make : Span → Stmt} (h : ∀ span, Drawn T (make span).parts) :
    (word make).Ensures T fun s => Drawn T s.parts := by
  unfold word
  exact .bind .advance fun _ _ => .bind .statementEnd fun _ _ => .pure (h _)

theorem expressionStatement_draws (hg : g.Draws T) :
    (expressionStatement g).Ensures T fun s => Drawn T s.parts := by
  unfold expressionStatement
  exact .bind hg.expression fun _ he => .bind .statementEnd fun _ _ =>
    .pure (within_cons.2 ⟨trivial, he⟩)

theorem statement_draws (hg : g.Draws T) : (statement g).Ensures T fun s => Drawn T s.parts := by
  unfold statement
  refine .bind .kind fun _ _ => ?_
  split
  · exact declarationStatement_draws hg
  · exact .bind (definition_draws hg) fun _ hd => .pure (within_cons.2 ⟨trivial, hd.2⟩)
  · exact decorated_draws hg
  · exact .bind hg.conditional fun _ h => .pure h
  · exact whileLoop_draws hg
  · exact forLoop_draws hg
  · exact returning_draws hg
  · exact word_draws fun _ => within_cons.2 ⟨trivial, within_nil⟩
  · exact word_draws fun _ => within_cons.2 ⟨trivial, within_nil⟩
  · exact assertion_draws hg
  · exact expressionStatement_draws hg

end Rule

/-! ### Grammars and programs -/

namespace Grammar

open Rule ScriptLang.Parser

theorem Draws.step {g : Grammar} (hg : g.Draws T) : g.step.Draws T where
  expression := expression_draws hg
  binary := binary_draws hg
  unary := unary_draws hg
  suffixed := suffixed_draws hg
  primary := primary_draws hg
  body := body_draws hg
  block := block_draws hg
  conditional := conditional_draws hg
  statement := statement_draws hg

theorem ofDepth_draws (T : Token → Prop) : ∀ n, (ofDepth n).Draws T
  | 0 => ⟨.tooDeep, fun _ => .tooDeep, .tooDeep, .tooDeep, .tooDeep, .tooDeep, .tooDeep,
      .tooDeep, .tooDeep⟩
  | n + 1 => (ofDepth_draws T n).step

end Grammar

theorem Rule.programTurn_draws {g : Grammar} (hg : g.Draws T) {done : List Stmt}
    (hd : ∀ s ∈ done, Drawn T s.parts) :
    (programTurn g done).Ensures T fun r => ∀ s ∈ r.value, Drawn T s.parts := by
  unfold programTurn
  refine .bind .kind fun _ _ => ?_
  split
  · exact .pure hd
  · exact .bind .advance fun _ _ => .pure hd
  · exact .fail _
  · exact .bind hg.statement fun s hs => .pure (List.forall_mem_cons.2 ⟨hs, hd⟩)

theorem Rule.program_draws {g : Grammar} (hg : g.Draws T) :
    (program g).Ensures T fun b => Drawn T b.parts := by
  unfold program
  exact .bind .current fun _ _ => .bind (.loop (fun _ h => programTurn_draws hg h) (nofun))
    fun _ hss => .bind .current fun _ _ => .pure (reverse_drawn hss)

/-- Every integer literal of a program is one of its tokens, and so is every name that it reads or
binds again. -/
theorem Program.parseTokensAt_drawn {depth : Nat} {tokens : List Token} {program : Block}
    (h : parseTokensAt depth tokens = .ok program) : Drawn (· ∈ tokens) program.parts := by
  unfold parseTokensAt at h
  split at h
  · cases h
    exact within_nil
  · next s hs =>
    obtain ⟨finish, hfinish, rfl⟩ := Option.map_eq_some_iff.1 hs
    cases hrun : (Rule.program (Grammar.ofDepth depth)).run
        ⟨tokens.dropLast, finish, finish.span.stop, 0⟩ with
    | error c => rw [hrun] at h; cases h
    | ok x =>
      rw [hrun] at h
      cases h
      refine (Rule.program_draws (Grammar.ofDepth_draws _ depth) ⟨?_, ?_⟩ hrun).1
      · exact List.mem_of_getLast? hfinish
      · exact fun t ht => List.dropLast_subset tokens ht

end ScriptLang
