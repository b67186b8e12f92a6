import ScriptLang.Proofs.Grammar.Depth
import ScriptLang.Proofs.Grammar.Marked

/-!
# Enough depth

Rules that lie inside one another and read nothing in between are few: at most six, from a
statement to an operand. So a grammar that follows six rules for every token ahead, and six
more, never complains of nesting.

`Parser.Fits P n k p` says that `p`, before at most `n` tokens of which the first satisfies
`P`, does not complain of nesting and reads `k` tokens if it succeeds; the combinators of
parsers have one rule each. `Grammar.Ample d` has the rules fit with what a depth of `d`
allows, `Grammar.ample_ofDepth` proves it.
-/

namespace ScriptLang

/-- The end of the input stands behind the tokens ahead. -/
def ParserState.Closed (s : ParserState) : Prop := s.finish.content = .endOfInput

theorem ParserState.Closed.ahead_ne_nil {s : ParserState} (h : s.Closed)
    (hk : s.current.kind ≠ .endOfInput) : s.ahead ≠ [] := fun hnil =>
  hk (by rw [current_of_nil hnil]; exact Token.kind_eq_endOfInput.2 h)

open ParserState

namespace Parser

/-- Before at most `n` tokens, of which the first satisfies `P`, a parser does not complain of
nesting, and reads at least `k` tokens if it succeeds. -/
def Fits {α : Type} (P : Token → Prop) (n k : Nat) (p : Parser α) : Prop :=
  ∀ ⦃s⦄, s.Closed → P s.current → s.ahead.length ≤ n → ¬ Outgrown (p.run s) ∧
    ∀ ⦃a s'⦄, p.run s = .ok (a, s') →
      s'.finish = s.finish ∧ s'.ahead.length + k ≤ s.ahead.length

namespace Fits

variable {α β : Type} {P : Token → Prop} {n k : Nat} {p q : Parser α} {f : α → Parser β}

/-- What reads tokens reads none. -/
theorem weaken (h : Fits P n k p) : Fits P n 0 p := fun _ hs hP hn =>
  ⟨(h hs hP hn).1, fun _ _ hr =>
    ⟨((h hs hP hn).2 hr).1, by have := ((h hs hP hn).2 hr).2; omega⟩⟩

theorem pure (a : α) : Fits P n 0 (pure a) := by
  intro s _ _ _
  refine ⟨not_outgrown_ok _, fun b s' hr => ?_⟩
  obtain ⟨-, rfl⟩ := run_pure_eq_ok.1 hr
  exact ⟨rfl, Nat.le_refl _⟩

/-- One parser and then another, which has the fewer tokens ahead. -/
theorem bind_add {j : Nat} (hp : Fits P n j p)
    (hf : j ≤ n → ∀ a, Fits (fun _ => True) (n - j) k (f a)) : Fits P n (j + k) (p >>= f) := by
  intro s hs hP hn
  obtain ⟨hgrown, hreads⟩ := hp hs hP hn
  cases hr : p.run s with
  | error c =>
    rw [run_bind_of_error hr, outgrown_error]
    rw [hr, outgrown_error] at hgrown
    exact ⟨hgrown, nofun⟩
  | ok x =>
    obtain ⟨a, s₁⟩ := x
    obtain ⟨hfinish, hlength⟩ := hreads hr
    have hs₁ : s₁.Closed := by rw [ParserState.Closed, hfinish]; exact hs
    obtain ⟨hgrown', hreads'⟩ := hf (by omega) a hs₁ trivial (by omega)
    rw [run_bind_of_ok hr]
    refine ⟨hgrown', fun b s' hb => ?_⟩
    obtain ⟨hfinish', hlength'⟩ := hreads' hb
    exact ⟨hfinish'.trans hfinish, by omega⟩

theorem bind (hp : Fits P n 1 p) (hf : 1 ≤ n → ∀ a, Fits (fun _ => True) (n - 1) 0 (f a)) :
    Fits P n 1 (p >>= f) :=
  hp.bind_add hf

/-- What comes after a parser that need not read anything. -/
theorem after (hp : Fits P n 0 p) (hf : ∀ a, Fits (fun _ => True) n k (f a)) :
    Fits P n k (p >>= f) := by
  have := hp.bind_add fun _ => hf
  rwa [Nat.zero_add] at this

theorem map (g : α → β) (hp : Fits P n 0 p) : Fits P n 0 (g <$> p) := by
  rw [← bind_pure_comp]
  exact hp.after fun _ => .pure _

theorem ite {c : Prop} [Decidable c] (hp : c → Fits P n k p) (hq : Fits P n k q) :
    Fits P n k (if c then p else q) := by
  split
  · next hc => exact hp hc
  · exact hq

theorem current_bind {f : Token → Parser β} (h : ∀ t, Fits (fun u => u = t) n k (f t)) :
    Fits P n k (Parser.current >>= f) :=
  fun _ hs _ hn => h _ hs rfl hn

theorem kind_bind {f : TokenKind → Parser β} (h : ∀ x, Fits (fun t => t.kind = x) n k (f x)) :
    Fits P n k (Parser.kind >>= f) :=
  fun _ hs _ hn => h _ hs rfl hn

theorem onSameLine_bind {f : Bool → Parser β} (h : ∀ b, Fits P n k (f b)) :
    Fits P n k (Parser.onSameLine >>= f) :=
  fun _ hs hP hn => h _ hs hP hn

theorem spanFrom (start : Span) : Fits P n 0 (spanFrom start) := by
  intro s _ _ _
  refine ⟨not_outgrown_ok _, fun a s' hr => ?_⟩
  cases hr
  exact ⟨rfl, Nat.le_refl _⟩

theorem advance (hP : Present P) : Fits P n 1 advance := by
  intro s hs hPs _
  refine ⟨not_outgrown_ok _, fun a s' hr => ?_⟩
  cases hr
  have := length_skip_lt (hs.ahead_ne_nil (hP _ hPs))
  exact ⟨skip_finish s, by omega⟩

theorem skip : Fits P n 0 Parser.advance := by
  intro s _ _ _
  refine ⟨not_outgrown_ok _, fun a s' hr => ?_⟩
  cases hr
  exact ⟨skip_finish s, length_skip_le s⟩

theorem fail (e : Expectation) : Fits P n k (fail e : Parser α) := by
  intro s _ _ _
  rw [run_fail, outgrown_error]
  refine ⟨?_, nofun⟩
  split <;> nofun

theorem refuseTarget (target : Span) (start : Token) :
    Fits P n k (refuseTarget target start : Parser α) := by
  intro s _ _ _
  rw [run_refuseTarget, outgrown_error]
  exact ⟨nofun, nofun⟩

theorem expect {x : TokenKind} (hx : x ≠ .endOfInput) (e : Expectation) :
    Fits P n 1 (expect x e) := by
  unfold Parser.expect
  refine kind_bind fun y => ite (fun hy => advance fun t ht => ?_) (fail e)
  rw [ht, hy]
  exact hx

theorem expectName (e : Expectation) : Fits P n 1 (expectName e) := by
  unfold Parser.expectName
  refine current_bind fun t => ?_
  split
  · next hc =>
    refine (advance fun u hu => ?_).bind fun _ _ => .pure _
    rw [hu, Token.kind, hc]
    nofun
  · exact fail e

theorem accept (x : TokenKind) : Fits P n 0 (accept x) := by
  unfold Parser.accept
  exact kind_bind fun _ => ite (fun _ => skip.after fun _ => .pure _) (.pure _)

theorem atStatementEnd : Fits P n 0 atStatementEnd := by
  intro s _ _ _
  rw [run_atStatementEnd]
  refine ⟨not_outgrown_ok _, fun a s' hr => ?_⟩
  cases hr
  exact ⟨rfl, Nat.le_refl _⟩

theorem statementEnd : Fits P n 0 statementEnd := by
  unfold Parser.statementEnd
  refine current_bind fun t => ?_
  split
  · exact skip.after fun _ => .pure _
  · exact .pure _
  · exact .pure _
  · exact ite (fun _ => .pure _) (fail _)

theorem inBrackets (hp : Fits P n k p) : Fits P n k (inBrackets p) := by
  intro s hs hP hn
  obtain ⟨hgrown, hreads⟩ := hp (s := { s with brackets := s.brackets + 1 }) hs hP hn
  rw [run_inBrackets]
  cases hr : p.run { s with brackets := s.brackets + 1 } with
  | error c =>
    rw [hr, outgrown_error] at hgrown
    exact ⟨by rwa [outgrown_error], nofun⟩
  | ok x =>
    have hx := hreads hr
    refine ⟨not_outgrown_ok _, fun a s' h => ?_⟩
    cases h
    exact hx

theorem outsideBrackets (hp : Fits P n k p) : Fits P n k (outsideBrackets p) := by
  intro s hs hP hn
  obtain ⟨hgrown, hreads⟩ := hp (s := { s with brackets := 0 }) hs hP hn
  rw [run_outsideBrackets]
  cases hr : p.run { s with brackets := 0 } with
  | error c =>
    rw [hr, outgrown_error] at hgrown
    exact ⟨by rwa [outgrown_error], nofun⟩
  | ok x =>
    have hx := hreads hr
    refine ⟨not_outgrown_ok _, fun a s' h => ?_⟩
    cases h
    exact hx

theorem turns {turn : α → Parser (Turn α)} (h : ∀ a, Fits (fun _ => True) n 0 (turn a)) :
    ∀ (l : List Token) (a : α), Fits (fun _ => True) n 0 (turns turn l a)
  | [], _ => .pure _
  | _ :: l, a => (h a).after fun r => by
    cases r with
    | again b => exact turns h l b
    | done b => exact .pure b

theorem loop {turn : α → Parser (Turn α)} (h : ∀ a, Fits (fun _ => True) n 0 (turn a)) (a : α) :
    Fits P n 0 (loop turn a) :=
  fun s hs _ hn => turns h (s.finish :: s.ahead) a hs trivial hn

end Fits

end Parser

open ScriptLang.Parser

/-- The rules of a grammar fit with what a depth of `d` allows: each reads a token, and needs
six rules for every token ahead and one for every rule that it may follow before. -/
structure Grammar.Ample (d : Nat) (g : Grammar) : Prop where
  expression : ∀ {P n}, 6 * n + 4 < d → g.expression.Fits P n 1
  binary : ∀ {P n} level, 6 * n + 3 < d → (g.binary level).Fits P n 1
  unary : ∀ {P n}, 6 * n + 2 < d → g.unary.Fits P n 1
  suffixed : ∀ {P n}, 6 * n + 1 < d → g.suffixed.Fits P n 1
  primary : ∀ {P n}, 6 * n < d → g.primary.Fits P n 1
  body : ∀ {P n}, 6 * n + 1 < d → g.body.Fits P n 1
  block : ∀ {P n}, 6 * n < d → g.block.Fits P n 1
  conditional : ∀ {P n}, 6 * n < d → g.conditional.Fits P n 1
  statement : ∀ {P n}, 6 * n + 5 < d → g.statement.Fits P n 1

namespace Rule

variable {d n : Nat} {g : Grammar} {P : Token → Prop} (hg : g.Ample d)
include hg

/-! ### Expressions -/

theorem expression_fits (hn : 6 * n + 4 < d + 1) : (expression g).Fits P n 1 := by
  unfold expression
  refine .current_bind fun _ => .bind (hg.binary 1 (by omega)) fun _ e => .kind_bind fun _ =>
    .onSameLine_bind fun _ => .ite (fun _ => ?_) (.pure _)
  split
  · exact .after .skip fun _ => .after (hg.expression (by omega)).weaken fun _ => .pure _
  · exact .refuseTarget _ _

theorem binaryTurn_fits (hn : 6 * n + 3 < d) (level : Nat) (left : Expr) :
    (binaryTurn g level left).Fits P n 0 := by
  unfold binaryTurn
  refine .onSameLine_bind fun _ => .ite (fun _ => .pure _) (.kind_bind fun _ => ?_)
  split
  · exact .pure _
  · exact .ite (fun _ => .pure _)
      (.after .skip fun _ => .after (hg.binary _ hn).weaken fun _ => .pure _)

theorem binary_fits (level : Nat) (hn : 6 * n + 3 < d + 1) : (Rule.binary g level).Fits P n 1 :=
  .bind (hg.unary (by omega)) fun _ _ => .loop (binaryTurn_fits hg (by omega) level) _

omit hg in
theorem increment_fits (sign : Token) (target : Expr) (direction : Direction) (side : Side) :
    (increment sign target direction side).Fits P n 0 := by
  unfold increment
  split
  · exact .pure _
  · exact .refuseTarget _ _

theorem unary_fits (hn : 6 * n + 2 < d + 1) : (unary g).Fits P n 1 := by
  unfold unary
  refine .kind_bind fun _ => ?_
  split
  · exact .bind (.advance (present_keyword _)) fun _ _ =>
      .after (hg.unary (by omega)).weaken fun _ => .pure _
  · exact .bind (.advance (present_sign _)) fun _ _ =>
      .after (hg.unary (by omega)).weaken fun _ => .pure _
  · exact .bind (.advance (present_sign _)) fun _ _ =>
      .after (hg.unary (by omega)).weaken fun _ => increment_fits _ _ _ _
  · exact .bind (.advance (present_sign _)) fun _ _ =>
      .after (hg.unary (by omega)).weaken fun _ => increment_fits _ _ _ _
  · exact hg.suffixed (by omega)

theorem argumentTurn_fits (hn : 6 * n + 4 < d) (done : List Expr) :
    (argumentTurn g done).Fits P n 0 := by
  unfold argumentTurn
  exact .after (.accept _) fun _ => .ite (fun _ => .kind_bind fun _ => .ite (fun _ => .pure _)
    (.after (hg.expression hn).weaken fun _ => .pure _)) (.pure _)

theorem arguments_fits (hn : 6 * n + 4 < d) : (arguments g).Fits P n 0 := by
  unfold arguments
  exact .kind_bind fun _ => .ite (fun _ => .pure _) (.after (hg.expression hn).weaken fun _ =>
    .after (.loop (argumentTurn_fits hg hn) _) fun _ => .pure _)

theorem call_fits (hn : 6 * n + 4 < d) (callee : Expr) : (call g callee).Fits P n 0 := by
  unfold call
  exact .after (Fits.expect (by simp) _).weaken fun _ =>
    .after (.inBrackets (arguments_fits hg hn)) fun _ =>
    .after (Fits.expect (by simp) _).weaken fun _ => .after (.spanFrom _) fun _ => .pure _

theorem optional_fits (hn : 6 * n + 4 < d) (leftOut : Bool) :
    (optional g leftOut).Fits P n 0 :=
  .ite (fun _ => .pure _) (.map _ (hg.expression hn).weaken)

theorem stride_fits (hn : 6 * n + 4 < d) : (stride g).Fits P n 0 :=
  .after (.accept _) fun _ => .ite (fun _ => .kind_bind fun _ => optional_fits hg hn _) (.pure _)

theorem stretch_fits (hn : 6 * n + 4 < d) (start : Option Expr) :
    (stretch g start).Fits P n 0 := by
  rw [stretch_eq]
  exact .kind_bind fun _ => .after (optional_fits hg hn _) fun _ =>
    .after (stride_fits hg hn) fun _ => .pure _

theorem subscript_fits (hn : 6 * n + 4 < d) : (subscript g).Fits P n 0 := by
  unfold subscript
  exact .after (.accept _) fun _ => .ite (fun _ => stretch_fits hg hn none)
    (.after (hg.expression hn).weaken fun _ => .after (.accept _) fun _ =>
      .ite (fun _ => stretch_fits hg hn _) (.pure _))

theorem subscripted_fits (hn : 6 * n + 4 < d) (target : Expr) :
    (subscripted g target).Fits P n 0 := by
  unfold subscripted
  refine .after (Fits.expect (by simp) _).weaken fun _ =>
    .after (.inBrackets (subscript_fits hg hn)) fun x => ?_
  cases x <;>
    exact .after (Fits.expect (by simp) _).weaken fun _ => .after (.spanFrom _) fun _ => .pure _

theorem suffixTurn_fits (hn : 6 * n + 4 < d) (operand : Expr) :
    (suffixTurn g operand).Fits P n 0 := by
  unfold suffixTurn
  refine .onSameLine_bind fun _ => .ite (fun _ => .pure _) (.kind_bind fun _ => ?_)
  split
  · exact .after (call_fits hg hn operand) fun _ => .pure _
  · exact .after (subscripted_fits hg hn operand) fun _ => .pure _
  · exact .after .skip fun _ => .after (increment_fits _ _ _ _) fun _ => .pure _
  · exact .after .skip fun _ => .after (increment_fits _ _ _ _) fun _ => .pure _
  · exact .pure _

theorem suffixed_fits (hn : 6 * n + 1 < d + 1) : (suffixed g).Fits P n 1 :=
  .bind (hg.primary (by omega)) fun _ _ => .loop (suffixTurn_fits hg (by omega)) _

omit hg in
theorem parameterTurn_fits (closing : TokenKind) (done : List Text) :
    (parameterTurn closing done).Fits P n 0 := by
  unfold parameterTurn
  exact .after (.accept _) fun _ => .ite (fun _ => .kind_bind fun _ => .ite (fun _ => .pure _)
    (.after (Fits.expectName _).weaken fun _ => .pure _)) (.pure _)

omit hg in
theorem parameters_fits (closing : TokenKind) : (parameters closing).Fits P n 0 := by
  unfold parameters parameterNames
  exact .kind_bind fun _ => .ite (fun _ => .pure _) (.after (Fits.expectName _).weaken fun _ =>
    .after (.loop (parameterTurn_fits closing) _) fun _ => .pure _)

theorem body_fits (hn : 6 * n + 1 < d + 1) : (body g).Fits P n 1 := by
  unfold body
  refine .kind_bind fun _ => .ite (fun hk => ?_) (hg.block (by omega))
  subst hk
  exact .bind (.advance (present_sign _)) fun _ _ =>
    .after (.outsideBrackets (hg.expression (by omega)).weaken) fun _ => .pure _

theorem lambda_fits (hn : 6 * n < d + 1) : (lambda g).Fits P n 1 := by
  unfold lambda
  exact .bind (.expect (by simp) _) fun _ _ => .after (parameters_fits _) fun _ =>
    .after (Fits.expect (by simp) _).weaken fun _ => .after (hg.body (by omega)).weaken fun _ =>
      .after (.spanFrom _) fun _ => .pure _

theorem group_fits (hP : Present P) (hn : 6 * n < d + 1) : (group g).Fits P n 1 := by
  unfold group
  exact .bind (.advance hP) fun _ _ => .after (.inBrackets (hg.expression (by omega)).weaken)
    fun _ => .after (Fits.expect (by simp) _).weaken fun _ => .pure _

theorem primary_fits (hn : 6 * n < d + 1) : (primary g).Fits P n 1 := by
  unfold primary
  refine .current_bind fun t => ?_
  have hpresent : t.content ≠ .endOfInput → Present fun u => u = t :=
    fun hne u hu heq => hne (Token.kind_eq_endOfInput.1 (hu ▸ heq))
  have hleaf : t.content ≠ .endOfInput → ∀ e : Expr,
      (advance *> pure e : Parser Expr).Fits (fun u => u = t) n 1 := by
    intro hne e
    exact (Fits.advance (hpresent hne)).bind (f := fun _ => pure e) fun _ _ => .pure _
  dsimp only
  split
  case h_8 h => exact group_fits hg (hpresent (by simp [h])) hn
  case h_9 => exact lambda_fits hg hn
  case h_10 => exact .fail _
  all_goals
    next h => exact hleaf (by simp [h]) _

/-! ### Statements -/

theorem blockTurn_fits (hn : 6 * n + 5 < d) (done : List Stmt) :
    (blockTurn g done).Fits P n 0 := by
  unfold blockTurn
  refine .kind_bind fun _ => ?_
  split
  · exact .pure _
  · exact .fail _
  · exact .after .skip fun _ => .pure _
  · exact .after (hg.statement hn).weaken fun _ => .pure _

theorem block_fits (hn : 6 * n < d + 1) : (block g).Fits P n 1 := by
  unfold block
  exact .bind (.expect (by simp) _) fun _ _ =>
    .after (.outsideBrackets (.loop (blockTurn_fits hg (by omega)) [])) fun _ =>
      .after (Fits.expect (by simp) _).weaken fun _ => .after (.spanFrom _) fun _ => .pure _

theorem declaration_fits (hn : 6 * n < d + 1) : (declaration g).Fits P n 1 := by
  unfold declaration
  exact .bind (.expect (by simp) _) fun _ _ => .after (Fits.expectName _).weaken fun _ =>
    .after (Fits.expect (by simp) _).weaken fun _ =>
      .after (hg.expression (by omega)).weaken fun _ => .pure _

theorem declarationStatement_fits (hn : 6 * n < d + 1) :
    (declarationStatement g).Fits P n 1 :=
  .bind (declaration_fits hg hn) fun _ _ => .after .statementEnd fun _ =>
    .after (.spanFrom _) fun _ => .pure _

theorem definition_fits (hn : 6 * n < d + 1) : (definition g).Fits P n 1 := by
  rw [definition_eq]
  exact .bind (.expect (by simp) _) fun _ _ => .after (Fits.expectName _).weaken fun _ =>
    .after (Fits.expect (by simp) _).weaken fun _ => .after (parameters_fits _) fun _ =>
      .after (Fits.expect (by simp) _).weaken fun _ => .kind_bind fun _ =>
        .after (hg.body (by omega)).weaken fun _ =>
          .after (.ite (fun _ => .statementEnd) (.pure _)) fun _ =>
            .after (.spanFrom _) fun _ => .pure _

theorem decoratorTurn_fits (hn : 6 * n + 1 < d) (done : List Expr) :
    (decoratorTurn g done).Fits P n 0 := by
  unfold decoratorTurn
  exact .after (.accept _) fun _ => .ite (fun _ => .after (hg.suffixed hn).weaken fun _ =>
    .after (.accept _) fun _ => .pure _) (.pure _)

theorem decorated_fits (hn : 6 * n + 1 < d) : (decorated g).Fits P n 1 := by
  unfold decorated
  exact .after (.loop (decoratorTurn_fits hg hn) []) fun _ => .kind_bind fun _ =>
    .ite (fun _ => .bind (definition_fits hg (by omega)) fun _ _ => .pure _) (.fail _)

theorem otherwise_fits (hn : 6 * n < d) : (otherwise g).Fits P n 0 := by
  unfold otherwise
  exact .after (.accept _) fun _ => .ite (fun _ => .kind_bind fun _ => .ite
    (fun _ => .after (hg.conditional hn).weaken fun _ => .pure _)
    (.after (hg.block hn).weaken fun _ => .pure _)) (.pure _)

theorem conditional_fits (hn : 6 * n < d + 1) : (conditional g).Fits P n 1 := by
  unfold conditional
  exact .bind (.expect (by simp) _) fun _ _ => .after (hg.expression (by omega)).weaken fun _ =>
    .after (hg.block (by omega)).weaken fun _ => .after (otherwise_fits hg (by omega)) fun _ =>
      .after (.spanFrom _) fun _ => .pure _

theorem whileLoop_fits (hn : 6 * n < d + 1) : (whileLoop g).Fits P n 1 := by
  unfold whileLoop
  exact .bind (.expect (by simp) _) fun _ _ => .after (hg.expression (by omega)).weaken fun _ =>
    .after (hg.block (by omega)).weaken fun _ => .after (.spanFrom _) fun _ => .pure _

theorem initializer_fits (hn : 6 * n + 4 < d) : (initializer g).Fits P n 0 := by
  unfold initializer
  refine .kind_bind fun _ => ?_
  split
  · exact .after (declaration_fits hg (by omega)).weaken fun _ =>
      .after (.spanFrom _) fun _ => .pure _
  · exact .pure _
  · exact .after (hg.expression hn).weaken fun _ => .pure _

theorem countingHeader_fits (hn : 6 * n + 4 < d) : (countingHeader g).Fits P n 0 := by
  have hoptional : ∀ {P : Token → Prop} k, (optionalBefore g k).Fits P n 0 := fun k => by
    rw [optionalBefore_eq]
    exact .kind_bind fun _ => optional_fits hg hn _
  unfold countingHeader
  exact .after (initializer_fits hg hn) fun _ => .after (Fits.expect (by simp) _).weaken fun _ =>
    .after (hoptional _) fun _ => .after (Fits.expect (by simp) _).weaken fun _ =>
      .after (hoptional _) fun _ => .pure _

theorem countingLoop_fits (hn : 6 * n + 4 < d) (start : Token) :
    (countingLoop g start).Fits P n 0 := by
  unfold countingLoop
  exact .after (Fits.expect (by simp) _).weaken fun _ =>
    .after (.inBrackets (countingHeader_fits hg hn)) fun _ =>
      .after (Fits.expect (by simp) _).weaken fun _ => .after (hg.block (by omega)).weaken fun _ =>
        .after (.spanFrom _) fun _ => .pure _

theorem forLoop_fits (hn : 6 * n < d + 1) : (forLoop g).Fits P n 1 := by
  unfold forLoop
  exact .bind (.expect (by simp) _) fun _ start => .kind_bind fun _ => .ite
    (fun _ => countingLoop_fits hg (by omega) start)
    (.after (Fits.expectName _).weaken fun _ => .after (Fits.expect (by simp) _).weaken fun _ =>
      .after (hg.expression (by omega)).weaken fun _ => .after (hg.block (by omega)).weaken
        fun _ => .after (.spanFrom _) fun _ => .pure _)

theorem returning_fits (hn : 6 * n < d + 1) : (returning g).Fits P n 1 := by
  rw [returning_eq]
  exact .bind (.expect (by simp) _) fun _ _ =>
    .after (.after .atStatementEnd fun _ => optional_fits hg (by omega) _) fun _ =>
      .after .statementEnd fun _ => .after (.spanFrom _) fun _ => .pure _

omit hg in
theorem message_fits : message.Fits P n 0 := by
  refine .after (.accept _) fun _ => .ite (fun _ => .map _ ?_) (.pure _)
  unfold assertionMessage
  refine .current_bind fun _ => ?_
  split
  · exact .after .skip fun _ => .pure _
  · exact .fail _

theorem assertion_fits (hn : 6 * n < d + 1) : (assertion g).Fits P n 1 := by
  rw [assertion_eq]
  exact .bind (.expect (by simp) _) fun _ _ => .after (hg.expression (by omega)).weaken fun _ =>
    .after message_fits fun _ => .after .statementEnd fun _ => .after (.spanFrom _) fun _ =>
      .pure _

omit hg in
theorem word_fits (hP : Present P) (make : Span → Stmt) : (word make).Fits P n 1 :=
  .bind (.advance hP) fun _ _ => .after .statementEnd fun _ => .pure _

theorem statement_fits (hn : 6 * n + 5 < d + 1) : (statement g).Fits P n 1 := by
  unfold statement
  refine .kind_bind fun _ => ?_
  split
  · exact declarationStatement_fits hg (by omega)
  · exact .bind (definition_fits hg (by omega)) fun _ _ => .pure _
  · exact decorated_fits hg (by omega)
  · exact .bind (hg.conditional (by omega)) fun _ _ => .pure _
  · exact whileLoop_fits hg (by omega)
  · exact forLoop_fits hg (by omega)
  · exact returning_fits hg (by omega)
  · exact word_fits (present_keyword _) _
  · exact word_fits (present_keyword _) _
  · exact assertion_fits hg (by omega)
  · exact .bind (hg.expression (by omega)) fun _ _ => .after .statementEnd fun _ => .pure _

theorem programTurn_fits (hn : 6 * n + 5 < d) (done : List Stmt) :
    (programTurn g done).Fits P n 0 := by
  unfold programTurn
  refine .kind_bind fun _ => ?_
  split
  · exact .pure _
  · exact .after .skip fun _ => .pure _
  · exact .fail _
  · exact .after (hg.statement hn).weaken fun _ => .pure _

theorem program_fits (hn : 6 * n + 5 < d) : (program g).Fits P n 0 := by
  unfold program
  exact .current_bind fun _ => .after (.loop (programTurn_fits hg hn) []) fun _ =>
    .current_bind fun _ => .pure _

end Rule

namespace Grammar

variable {d : Nat} {g : Grammar}

theorem Ample.step (hg : g.Ample d) : g.step.Ample (d + 1) where
  expression := Rule.expression_fits hg
  binary := Rule.binary_fits hg
  unary := Rule.unary_fits hg
  suffixed := Rule.suffixed_fits hg
  primary := Rule.primary_fits hg
  body := Rule.body_fits hg
  block := Rule.block_fits hg
  conditional := Rule.conditional_fits hg
  statement := Rule.statement_fits hg

theorem ample_bottom : bottom.Ample 0 := by
  constructor <;> intros <;> contradiction

theorem ample_ofDepth (d : Nat) : (ofDepth d).Ample d := by
  induction d with
  | zero => exact ample_bottom
  | succ d ih => exact ih.step

end Grammar

end ScriptLang
