import ScriptLang.Proofs.Grammar.Retell

/-!
# Reading the statements that are written

A statement is read with the semicolon behind it or without; a list of statements is read
either way, as a loop passes over semicolons. With the rules for expressions these are all
rules of a grammar, so each depth reads the trees that it is deep enough for
(`Grammar.retells_ofDepth`).
-/

namespace ScriptLang

open Token (Content)
open ScriptLang.Parser

theorem Expr.Regular.not_defines : {e : Expr} → e.Regular → e.defines = false
  | .call _ _ [value], h => by
    rw [Expr.defines]
    exact Expr.Regular.not_defines h.2.1
  | .function _ (some _) _ _, h => absurd h.1 nofun
  | .function _ none _ _, _ => rfl
  | .call _ _ [], _ => rfl
  | .call _ _ (_ :: _ :: _), _ => rfl
  | .literal _ _, _ => rfl
  | .nothing _, _ => rfl
  | .identifier _, _ => rfl
  | .binary _ _ _ _, _ => rfl
  | .unary _ _ _, _ => rfl
  | .increment _ _ _ _, _ => rfl
  | .assignment _ _ _, _ => rfl
  | .index _ _ _, _ => rfl
  | .slice _ _ _ _ _, _ => rfl
  | .range _ _ _, _ => rfl

/-- A regular expression is written alike as a statement. -/
theorem Expr.Regular.written_simple {e : Expr} (h : e.Regular) :
    (Simple.expression e).written = e.written ∧ (Simple.expression e).nesting = e.nesting := by
  cases e with
  | function _ name _ _ =>
    have hname : name = none := h.1
    subst hname
    exact ⟨by simp [Simple.written], by simp [Simple.nesting]⟩
  | assignment _ _ value =>
    have hvalue := Expr.Regular.not_defines (e := value) h
    exact ⟨by simp [Simple.written, Expr.written, hvalue],
      by simp [Simple.nesting, Expr.nesting, hvalue]⟩
  | _ => exact ⟨by simp [Simple.written], by simp [Simple.nesting]⟩

theorem Expr.Defines.defines {name : Text} : {e : Expr} → e.Defines name → e.defines = true
  | .function _ (some _) _ _, _ => rfl
  | .call _ _ [value], h => by
    rw [Expr.defines]
    exact Expr.Defines.defines h.2

theorem Expr.Defines.headKind {name : Text} : {e : Expr} → e.Defines name → (cs : List Content) →
    headKind (e.writtenDefinition ++ cs) = .keyword .defWord ∨
      headKind (e.writtenDefinition ++ cs) = .sign .atSign
  | .function _ (some _) _ _, _, _ => .inl (by rw [Expr.writtenDefinition]; rfl)
  | .call _ _ [_], _, _ => .inr (by rw [Expr.writtenDefinition]; rfl)

theorem apart_block (b : Block) {cs : List Content} (hcs : Words cs) :
    Apart 0 (b.written ++ cs) := by
  refine .of_none (by simp [b.words_written, hcs]) ?_
  cases b
  rw [Block.written]
  rfl

namespace Rule

variable {g : Grammar} {d : Nat} {cs ds ts : List Content}

/-! ### Lists of statements -/

/-- A loop that reads statements and passes over semicolons reads a list of statements. -/
theorem statements_retells {turn : List Stmt → Parser (Turn (List Stmt))} (hg : g.Retells d)
    (ht : Advances turn) (hcs : Words cs)
    (hdone : ∀ done, (turn done).Yields cs (.done done) cs)
    (hskip : ∀ done ts, (turn done).Yields (.sign .semicolon :: ts) (.again done) ts)
    (hread : ∀ done ts s us, (headKind ts).opensStmt = true → g.statement.Yields ts s us →
      (turn done).Yields ts (.again (s :: done)) us)
    {ss : List Stmt} (hss : Stmt.RegularAll ss) (hn : Stmt.nestingAll ss ≤ d) (done : List Stmt) :
    (loop turn done).Yields (Stmt.writtenAll ss ++ cs) ((Stmt.bareAll ss).reverse ++ done) cs := by
  induction ss generalizing done with
  | nil => exact Yields.loop_done ht hcs (hdone done)
  | cons s ss ih =>
    obtain ⟨hs, hss⟩ := hss
    rw [Stmt.nestingAll] at hn
    have hwords : Words (Stmt.writtenAll ss ++ cs) := by simp [Stmt.words_writtenAll, hcs]
    have hmore := ih hss (by omega) (s.bare :: done)
    have hopens := s.opensStmt_written
    obtain ⟨rest, hrest, hs⟩ := hg.statement hs (by omega) hwords
    rw [Stmt.writtenAll, Stmt.bareAll, List.append_assoc, List.cons_append, List.reverse_cons,
      List.append_assoc]
    refine Yields.loop_again ht (by simp [s.words_written, hwords])
      (hread done _ s.bare rest (by rwa [headKind_append hopens]) hs) ?_
    rcases hrest with rfl | rfl
    · exact hmore
    · exact Yields.loop_again ht (by simp [hwords]) (hskip (s.bare :: done) _) hmore

theorem blockTurn_read {done : List Stmt} {s : Stmt} (hopens : (headKind ts).opensStmt = true)
    (h : g.statement.Yields ts s ds) : (blockTurn g done).Yields ts (.again (s :: done)) ds := by
  apply Yields.kind_bind
  generalize headKind ts = k at hopens
  split
  case h_4 => exact h.bind (Yields.pure _ ds)
  all_goals cases hopens

theorem block_retells (hs : g.Sound) (hg : g.Retells d) {b : Block} (hb : b.Regular)
    (hn : b.nesting ≤ d + 1) (hcs : Words cs) : (block g).Yields (b.written ++ cs) b.bare cs := by
  obtain ⟨span, ss⟩ := b
  rw [Block.nesting] at hn
  have hbrace : Words (.sign .rightBrace :: cs) := by simp [hcs]
  have hloop := statements_retells hg (blockTurn_advances hs) hbrace
    (fun done => Yields.kind_bind (Yields.pure _ _))
    (fun done ts => Yields.kind_bind (Yields.advance_bind (Yields.pure _ ts)))
    (fun done ts s us hopens h => blockTurn_read hopens h) hb (by omega) []
  rw [Block.written, List.cons_append, List.append_assoc]
  refine Yields.expect_sign (hloop.outsideBrackets.bind (Yields.expect_sign ?_))
  refine Yields.spanFrom_bind (Yields.pure_of_eq ?_ cs)
  simp [Block.bare]

/-! ### Declarations and definitions -/

theorem declaration_retells (hg : g.Retells d) {value : Expr} (hv : value.Regular)
    (hn : value.nesting ≤ d) (hcs : Apart 0 cs) (name : Text) :
    (declaration g).Yields
      (.keyword .letWord :: .identifier name :: .sign .assign :: (value.written ++ cs))
      (Token.plain (.keyword .letWord), name, value.bare) cs := by
  refine Yields.expect_keyword (Yields.expectName_bind .variableName (Yields.expect_sign ?_))
  exact (hg.expression hv hn hcs).bind (Yields.pure _ cs)

theorem definition_retells (hg : g.Retells d) {b : Block} (hb : b.Regular)
    (hn : b.bodyNesting ≤ d) (hcs : Words cs) (name : Text) (names : List Text) :
    ∃ rest, (rest = cs ∨ rest = .sign .semicolon :: cs) ∧
      (definition g).Yields
        (.keyword .defWord :: .identifier name :: .sign .leftParen ::
          (writtenNames names ++ .sign .rightParen ::
            (b.writtenBody ++ .sign .semicolon :: cs)))
        ⟨.nowhere, name, names, b.bare⟩ rest := by
  have hsemicolon : Apart 0 (.sign .semicolon :: cs) := .sign rfl hcs
  have hbody := hg.body hb hn hsemicolon
  have hparameters := parameters_retells (x := .rightParen) nofun
    (words_append.2 ⟨b.words_writtenBody, hsemicolon.words⟩) names
  -- only a body with an arrow takes the semicolon
  have hend (arrow : Bool) : ∃ rest, (rest = cs ∨ rest = .sign .semicolon :: cs) ∧
      (definitionEnd arrow).Yields (.sign .semicolon :: cs) () rest := by
    cases arrow with
    | true => exact ⟨cs, .inl rfl, Yields.statementEnd⟩
    | false => exact ⟨_, .inr rfl, Yields.pure () _⟩
  obtain ⟨rest, hrest, hend⟩ :=
    hend (headKind (b.writtenBody ++ .sign .semicolon :: cs) = .sign .doubleArrow)
  refine ⟨rest, hrest, ?_⟩
  rw [definition_eq]
  refine Yields.expect_keyword (Yields.expectName_bind .functionName (Yields.expect_sign ?_))
  refine hparameters.bind (Yields.expect_sign (Yields.kind_bind (hbody.bind (hend.bind ?_))))
  exact Yields.spanFrom_bind (Yields.pure _ rest)

/-- The decorators of a definition are read up to the word `def`. -/
theorem decoratorLoop_retells (hs : g.Sound) (hg : g.Retells d) (hcs : Words cs) {name : Text} :
    {e : Expr} → e.Defines name → e.definitionNesting ≤ d →
    ∃ decorators parameters b, Block.Regular b ∧ b.bodyNesting ≤ d ∧
      decorators.foldl (decorate ⟨.nowhere, name, parameters, b.bare⟩)
        (Definition.expr ⟨.nowhere, name, parameters, b.bare⟩) = e.bare ∧
      ∀ done, (loop (decoratorTurn g) done).Yields (e.writtenDefinition ++ cs)
        (decorators ++ done)
        (.keyword .defWord :: .identifier name :: .sign .leftParen ::
          (writtenNames parameters ++ .sign .rightParen :: (b.writtenBody ++ cs)))
  | .function span (some n) parameters b, he, hn => by
    obtain ⟨rfl, hb⟩ := he
    rw [Expr.definitionNesting] at hn
    refine ⟨[], parameters, b, hb, hn, by rw [Expr.bare]; rfl, fun done => ?_⟩
    rw [Expr.writtenDefinition]
    simp only [List.cons_append, List.append_assoc, List.nil_append]
    refine Yields.loop_done (decoratorTurn_advances hs)
      (by simp [words_writtenNames, b.words_writtenBody, hcs]) ?_
    exact Yields.accept_of_ne (by simp [Content.kind]) (Yields.pure _ _)
  | .call span decorator [value], he, hn => by
    obtain ⟨hd, hv⟩ := he
    rw [Expr.definitionNesting] at hn
    obtain ⟨decorators, parameters, b, hb, hbn, hvalue, hloop⟩ :=
      decoratorLoop_retells hs hg hcs hv (by omega)
    have hhead := Expr.Defines.headKind hv cs
    have hwords : Words (value.writtenDefinition ++ cs) := by
      simp [value.words_writtenDefinition, hcs]
    have happart : Apart 9 (value.writtenDefinition ++ cs) := by
      refine .of_none hwords ?_
      rcases hhead with h | h <;> rw [h] <;> rfl
    have hread := hg.suffixed hd (Expr.shown_guarded 9 decorator _) (by omega) happart
    refine ⟨decorators ++ [decorator.bare], parameters, b, hb, hbn, ?_, fun done => ?_⟩
    · rw [List.foldl_append, hvalue, Expr.bare, List.foldl_cons, List.foldl_nil, decorate,
        Expr.bare_span]
      rfl
    · have hmore := hloop (decorator.bare :: done)
      rw [Expr.writtenDefinition, List.cons_append, List.append_assoc, List.append_assoc]
      refine Yields.loop_again (decoratorTurn_advances hs)
        (by simp [words_guarded decorator.words_written, hwords]) ?_ hmore
      refine Yields.accept_of_eq rfl (hread.bind (Yields.accept_of_ne ?_ (Yields.pure _ _)))
      rcases hhead with h | h <;> simp [h]

/-- A definition under decorators is read as the assignment that it was. -/
theorem decorated_retells (hs : g.Sound) (hg : g.Retells d) (hcs : Words cs)
    {target : Identifier} {value : Expr} (hv : value.Defines target.name)
    (hn : value.definitionNesting ≤ d) :
    ∃ rest, (rest = cs ∨ rest = .sign .semicolon :: cs) ∧
      (decorated g).Yields (value.writtenDefinition ++ .sign .semicolon :: cs)
        (.simple (.expression (.assignment .nowhere target.bare value.bare))) rest := by
  have hsemicolon : Words (.sign .semicolon :: cs) := by simp [hcs]
  obtain ⟨decorators, parameters, b, hb, hbn, hvalue, hloop⟩ :=
    decoratorLoop_retells hs hg hsemicolon hv hn
  obtain ⟨rest, hrest, hdefinition⟩ := definition_retells hg hb hbn hcs target.name parameters
  refine ⟨rest, hrest, (hloop []).bind (Yields.kind_bind (Yields.ite_pos rfl ?_))⟩
  refine hdefinition.bind (Yields.pure_of_eq ?_ rest)
  rw [List.append_nil, hvalue, Expr.bare_span]
  rfl

/-! ### Choices and loops -/

theorem otherwise_retells (hg : g.Retells d) {o : Otherwise} (ho : o.Regular) (hn : o.nesting ≤ d)
    (hcs : Words cs) (helse : headKind cs ≠ .keyword .elseWord) :
    (otherwise g).Yields (o.written ++ cs) o.bare cs := by
  cases o with
  | skip => exact Yields.accept_of_ne helse (Yields.pure _ cs)
  | block b =>
    have hblock := hg.block (b := b) ho hn hcs
    rw [Otherwise.written, List.cons_append]
    refine Yields.accept_of_eq rfl (Yields.kind_bind (Yields.ite_neg ?_ ?_))
    · cases b
      rw [Block.written]
      nofun
    · exact hblock.bind (Yields.pure _ cs)
  | chain next =>
    have hnext := hg.conditional (c := next) ho hn hcs helse
    rw [Otherwise.written, List.cons_append]
    refine Yields.accept_of_eq rfl (Yields.kind_bind (Yields.ite_pos ?_ ?_))
    · cases next
      rw [Conditional.written]
      rfl
    · exact hnext.bind (Yields.pure _ cs)

theorem conditional_retells (hg : g.Retells d) {c : Conditional} (hc : c.Regular)
    (hn : c.nesting ≤ d + 1) (hcs : Words cs) (helse : headKind cs ≠ .keyword .elseWord) :
    (conditional g).Yields (c.written ++ cs) c.bare cs := by
  obtain ⟨span, condition, b, o⟩ := c
  obtain ⟨hcondition, hb, ho⟩ := hc
  rw [Conditional.nesting] at hn
  have hrest : Words (o.written ++ cs) := by simp [o.words_written, hcs]
  have hcondition := hg.expression hcondition (by omega) (apart_block b hrest)
  have hblock := hg.block hb (by omega) hrest
  have hotherwise := otherwise_retells hg ho (by omega) hcs helse
  rw [Conditional.written, List.cons_append, List.append_assoc, List.append_assoc]
  refine Yields.expect_keyword (hcondition.bind (hblock.bind (hotherwise.bind ?_)))
  exact Yields.spanFrom_bind (Yields.pure _ cs)

theorem whileLoop_retells (hg : g.Retells d) {condition : Expr} {b : Block}
    (hcondition : condition.Regular) (hb : b.Regular) (hn : condition.nesting ≤ d)
    (hbn : b.nesting ≤ d) (hcs : Words cs) :
    (whileLoop g).Yields (.keyword .whileWord :: (condition.written ++ (b.written ++ cs)))
      (.whileLoop .nowhere condition.bare b.bare) cs := by
  have hcondition := hg.expression hcondition hn (apart_block b hcs)
  refine Yields.expect_keyword (hcondition.bind ((hg.block hb hbn hcs).bind ?_))
  exact Yields.spanFrom_bind (Yields.pure _ cs)

theorem initializer_retells (hg : g.Retells d) {i : Option Simple} (hi : Simple.RegularOption i)
    (hn : Simple.nestingOption i ≤ d) (hcs : Words cs) :
    (initializer g).Yields (Simple.writtenOption i ++ .sign .semicolon :: cs)
      (Simple.bareOption i) (.sign .semicolon :: cs) := by
  have hsemicolon : Apart 0 (.sign .semicolon :: cs) := .sign rfl hcs
  apply Yields.kind_bind
  rcases i with _ | e | ⟨span, name, value⟩
  · exact Yields.pure _ _
  · have he : e.Regular := hi
    obtain ⟨hwritten, hnesting⟩ := he.written_simple
    rw [Simple.nestingOption, hnesting] at hn
    rw [Simple.writtenOption, hwritten]
    have hlet := e.headKind_ne (k := .keyword .letWord) rfl (.sign .semicolon :: cs)
    have hnone := e.headKind_ne (k := .sign .semicolon) rfl (.sign .semicolon :: cs)
    have hread := hg.expression he hn hsemicolon
    split
    · next h => exact absurd h hlet
    · next h => exact absurd h hnone
    · exact hread.bind (Yields.pure _ _)
  · have hvalue : value.Regular := hi
    have hread := declaration_retells hg hvalue hn hsemicolon name
    rw [Simple.writtenOption, Simple.written]
    exact hread.bind (Yields.spanFrom_bind (Yields.pure _ _))

theorem optionalBefore_retells (hg : g.Retells d) {o : Option Expr} (ho : Expr.RegularOption o)
    (hn : Expr.nestingOption o ≤ d) {x : Sign} (hx : (TokenKind.sign x).opensExpr = false)
    (hbinding : (TokenKind.sign x).binding? = none) (hcs : Words cs) :
    (optionalBefore g (.sign x)).Yields (Expr.writtenOption o ++ .sign x :: cs)
      (Expr.bareOption o) (.sign x :: cs) := by
  rw [optionalBefore_eq]
  have hclosing : Apart 0 (.sign x :: cs) := .sign hbinding hcs
  refine Yields.kind_bind (optional_retells hg ho hn hclosing ?_)
  cases o with
  | none => exact decide_eq_true rfl
  | some e => exact decide_eq_false (e.headKind_ne hx _)

theorem countingHeader_retells (hg : g.Retells d) {i : Option Simple}
    {condition step : Option Expr} (hi : Simple.RegularOption i)
    (hcondition : Expr.RegularOption condition) (hstep : Expr.RegularOption step)
    (hn : Simple.nestingOption i ≤ d) (hcn : Expr.nestingOption condition ≤ d)
    (hsn : Expr.nestingOption step ≤ d) (hcs : Words cs) :
    (countingHeader g).Yields
      (Simple.writtenOption i ++ .sign .semicolon ::
        (Expr.writtenOption condition ++ .sign .semicolon ::
          (Expr.writtenOption step ++ .sign .rightParen :: cs)))
      (Simple.bareOption i, Expr.bareOption condition, Expr.bareOption step)
      (.sign .rightParen :: cs) := by
  have hwords : Words (Expr.writtenOption step ++ .sign .rightParen :: cs) := by
    simp [Expr.words_writtenOption, hcs]
  have hread := optionalBefore_retells (x := .semicolon) hg hcondition hcn rfl rfl hwords
  have hread' := optionalBefore_retells (x := .rightParen) hg hstep hsn rfl rfl hcs
  refine (initializer_retells hg hi hn (by simp [Expr.words_writtenOption, hwords])).bind ?_
  exact Yields.expect_sign (hread.bind (Yields.expect_sign (hread'.bind (Yields.pure _ _))))

theorem counting_retells (hg : g.Retells d) {i : Option Simple} {condition step : Option Expr}
    {b : Block} (hi : Simple.RegularOption i) (hcondition : Expr.RegularOption condition)
    (hstep : Expr.RegularOption step) (hb : b.Regular) (hn : Simple.nestingOption i ≤ d)
    (hcn : Expr.nestingOption condition ≤ d) (hsn : Expr.nestingOption step ≤ d)
    (hbn : b.nesting ≤ d) (hcs : Words cs) :
    (forLoop g).Yields
      (.keyword .forWord :: .sign .leftParen ::
        (Simple.writtenOption i ++ .sign .semicolon ::
          (Expr.writtenOption condition ++ .sign .semicolon ::
            (Expr.writtenOption step ++ .sign .rightParen :: (b.written ++ cs)))))
      (.counting .nowhere (Simple.bareOption i) (Expr.bareOption condition)
        (Expr.bareOption step) b.bare) cs := by
  have hheader := countingHeader_retells hg hi hcondition hstep hn hcn hsn
    (words_append.2 ⟨b.words_written, hcs⟩)
  refine Yields.expect_keyword (Yields.kind_bind (Yields.ite_pos rfl ?_))
  refine Yields.expect_sign (hheader.inBrackets.bind ?_)
  refine Yields.expect_sign ((hg.block hb hbn hcs).bind ?_)
  exact Yields.spanFrom_bind (Yields.pure _ cs)

theorem forEach_retells (hg : g.Retells d) {iterable : Expr} {b : Block} (hi : iterable.Regular)
    (hb : b.Regular) (hn : iterable.nesting ≤ d) (hbn : b.nesting ≤ d) (hcs : Words cs)
    (item : Text) :
    (forLoop g).Yields
      (.keyword .forWord :: .identifier item :: .keyword .inWord ::
        (iterable.written ++ (b.written ++ cs)))
      (.forEach .nowhere item iterable.bare b.bare) cs := by
  have hiterable := hg.expression hi hn (apart_block b hcs)
  refine Yields.expect_keyword (Yields.kind_bind (Yields.ite_neg nofun ?_))
  refine Yields.expectName_bind .loopVariable ?_
  refine Yields.expect_bind .inWord rfl (hiterable.bind ((hg.block hb hbn hcs).bind ?_))
  exact Yields.spanFrom_bind (Yields.pure _ cs)

/-! ### Statements -/

theorem returning_retells (hg : g.Retells d) {o : Option Expr} (ho : Expr.RegularOption o)
    (hn : Expr.nestingOption o ≤ d) (hcs : Words cs) :
    (returning g).Yields
      (.keyword .returnWord :: (Expr.writtenOption o ++ .sign .semicolon :: cs))
      (.returning .nowhere (Expr.bareOption o)) cs := by
  have hsemicolon : Apart 0 (.sign .semicolon :: cs) := .sign rfl hcs
  rw [returning_eq]
  refine Yields.expect_keyword (Yields.bind (Yields.atStatementEnd_bind ?_
    (optional_retells hg ho hn hsemicolon rfl)) (Yields.statementEnd.bind ?_))
  · cases o with
    | none => rfl
    | some e =>
      rw [Expr.writtenOption, decide_eq_false (e.headKind_ne rfl _),
        decide_eq_false (e.headKind_ne rfl _), decide_eq_false (e.headKind_ne rfl _)]
      rfl
  · exact Yields.spanFrom_bind (Yields.pure _ cs)

theorem assertion_retells (hg : g.Retells d) {condition : Expr} (hc : condition.Regular)
    (hn : condition.nesting ≤ d) (hcs : Words cs) (text : Option Text) :
    (assertion g).Yields
      ((Stmt.assertion .nowhere condition text).written ++ .sign .semicolon :: cs)
      (.assertion .nowhere condition.bare text) cs := by
  rw [assertion_eq]
  cases text with
  | none =>
    have hcondition := hg.expression hc hn (.sign (x := .semicolon) rfl hcs)
    have hmessage : message.Yields (.sign .semicolon :: cs) none (.sign .semicolon :: cs) :=
      Yields.accept_of_ne nofun (Yields.pure _ _)
    rw [Stmt.written, List.cons_append]
    refine Yields.expect_keyword (hcondition.bind (hmessage.bind (Yields.statementEnd.bind ?_)))
    exact Yields.spanFrom_bind (Yields.pure _ cs)
  | some text =>
    have hwords : Words (.string text :: .sign .semicolon :: cs) := by simp [hcs]
    have hcondition := hg.expression hc hn (.sign (x := .comma) rfl hwords)
    have htext : assertionMessage.Yields (.string text :: .sign .semicolon :: cs) text
        (.sign .semicolon :: cs) :=
      Yields.current_bind (Yields.advance_bind (Yields.pure _ _))
    have hmessage : message.Yields (.sign .comma :: .string text :: .sign .semicolon :: cs)
        (some text) (.sign .semicolon :: cs) :=
      Yields.accept_of_eq rfl (htext.map some)
    rw [Stmt.written, List.cons_append, List.append_assoc]
    refine Yields.expect_keyword (hcondition.bind (hmessage.bind (Yields.statementEnd.bind ?_)))
    exact Yields.spanFrom_bind (Yields.pure _ cs)

theorem word_retells (make : Span → Stmt) (c : Content) :
    (word make).Yields (c :: .sign .semicolon :: cs) (make .nowhere) cs :=
  Yields.advance_bind (Yields.statementEnd.bind (Yields.pure _ cs))

/-- What begins as an expression is read as one. -/
theorem statement_of_expression {e : Expr} (hopens : (headKind ts).opensExpr = true)
    (h : g.expression.Yields ts e (.sign .semicolon :: cs)) :
    (statement g).Yields ts (.simple (.expression e)) cs := by
  apply Yields.kind_bind
  generalize headKind ts = k at hopens
  split
  case h_11 => exact h.bind (Yields.statementEnd.bind (Yields.pure _ cs))
  all_goals cases hopens

theorem simple_retells (hg : g.Retells d) {s : Simple} (h : s.Regular) (hn : s.nesting ≤ d)
    (hcs : Words cs) :
    (statement g).Yields (s.written ++ .sign .semicolon :: cs) (.simple s.bare) cs := by
  have hsemicolon : Apart 0 (.sign .semicolon :: cs) := .sign rfl hcs
  cases s with
  | expression e =>
    have he : e.Regular := h
    have hopens := e.opensExpr_written
    obtain ⟨hwritten, hnesting⟩ := he.written_simple
    rw [hnesting] at hn
    rw [hwritten, Simple.bare]
    refine statement_of_expression ?_ (hg.expression he hn hsemicolon)
    rwa [headKind_append (TokenKind.opensStmt_of_expr hopens)]
  | declaration _ name value =>
    rw [Simple.nesting] at hn
    have hvalue : value.Regular := h
    have hread := declaration_retells hg hvalue hn hsemicolon name
    rw [Simple.written]
    exact Yields.kind_bind (hread.bind (Yields.statementEnd.bind
      (Yields.spanFrom_bind (Yields.pure _ cs))))

theorem defining_retells (hs : g.Sound) (hg : g.Retells d) (hcs : Words cs) :
    {s : Simple} → s.Defining → s.nesting ≤ d →
    ∃ rest, (rest = cs ∨ rest = .sign .semicolon :: cs) ∧
      (statement g).Yields (s.written ++ .sign .semicolon :: cs) (.simple s.bare) rest
  | .expression (.function _ (some name) parameters b), hb, hn => by
    rw [Simple.nesting] at hn
    obtain ⟨rest, hrest, hread⟩ := definition_retells hg hb hn hcs name parameters
    refine ⟨rest, hrest, ?_⟩
    rw [Simple.written, Simple.bare, Expr.bare]
    simp only [List.cons_append, List.append_assoc]
    exact Yields.kind_bind (hread.bind (Yields.pure _ rest))
  | .expression (.assignment _ target (.call span decorator [value])), h, hn => by
    have hdefines : (Expr.call span decorator [value]).Defines target.name := h
    rw [Simple.nesting, if_pos hdefines.defines] at hn
    obtain ⟨rest, hrest, hread⟩ := decorated_retells hs hg hcs hdefines hn
    refine ⟨rest, hrest, ?_⟩
    rw [Simple.written, if_pos hdefines.defines, Simple.bare, Expr.bare]
    rw [Expr.writtenDefinition] at hread ⊢
    exact Yields.kind_bind hread

theorem statement_retells (hs : g.Sound) (hg : g.Retells d) {s : Stmt} (h : s.Regular)
    (hn : s.nesting ≤ d + 1) (hcs : Words cs) :
    ∃ rest, (rest = cs ∨ rest = .sign .semicolon :: cs) ∧
      (statement g).Yields (s.written ++ .sign .semicolon :: cs) s.bare rest := by
  have hsemicolon : Words (.sign .semicolon :: cs) := by simp [hcs]
  cases s with
  | simple statement =>
    rw [Stmt.nesting] at hn
    rcases h with h | h
    · exact ⟨cs, .inl rfl, simple_retells hg h (by omega) hcs⟩
    · exact defining_retells hs hg hcs h (by omega)
  | conditional chain =>
    rw [Stmt.nesting] at hn
    have hread := hg.conditional (c := chain) h (by omega) hsemicolon nofun
    refine ⟨_, .inr rfl, ?_⟩
    obtain ⟨span, condition, b, o⟩ := chain
    rw [Stmt.written, Conditional.written] at *
    exact Yields.kind_bind (hread.bind (Yields.pure _ _))
  | whileLoop _ condition b =>
    obtain ⟨hcondition, hb⟩ := h
    rw [Stmt.nesting] at hn
    have hread := whileLoop_retells hg hcondition hb (by omega) (by omega) hsemicolon
    refine ⟨_, .inr rfl, ?_⟩
    rw [Stmt.written, List.cons_append, List.append_assoc]
    exact Yields.kind_bind hread
  | forEach _ item iterable b =>
    obtain ⟨hi, hb⟩ := h
    rw [Stmt.nesting] at hn
    have hread := forEach_retells hg hi hb (by omega) (by omega) hsemicolon item
    refine ⟨_, .inr rfl, ?_⟩
    rw [Stmt.written]
    simp only [List.cons_append, List.append_assoc]
    exact Yields.kind_bind hread
  | counting _ i condition step b =>
    obtain ⟨hi, hcondition, hstep, hb⟩ := h
    rw [Stmt.nesting] at hn
    have hread := counting_retells hg hi hcondition hstep hb (by omega) (by omega) (by omega)
      (by omega) hsemicolon
    refine ⟨_, .inr rfl, ?_⟩
    rw [Stmt.written]
    simp only [List.cons_append, List.append_assoc]
    exact Yields.kind_bind hread
  | returning _ value =>
    rw [Stmt.nesting] at hn
    have hread := returning_retells (o := value) hg h (by omega) hcs
    refine ⟨cs, .inl rfl, ?_⟩
    rw [Stmt.written]
    exact Yields.kind_bind hread
  | breaking => exact ⟨cs, .inl rfl, Yields.kind_bind (word_retells .breaking _)⟩
  | continuing => exact ⟨cs, .inl rfl, Yields.kind_bind (word_retells .continuing _)⟩
  | assertion _ condition text =>
    rw [Stmt.nesting] at hn
    have hcondition : condition.Regular := h
    have hread := assertion_retells hg hcondition (by omega) hcs text
    refine ⟨cs, .inl rfl, ?_⟩
    cases text <;> exact Yields.kind_bind hread

end Rule

namespace Grammar

variable {g : Grammar} {d : Nat}

theorem Retells.step (hs : g.Sound) (hg : g.Retells d) : g.step.Retells (d + 1) where
  expression he hn hcs := Rule.expression_retells hg he hn hcs
  binary hone hlevel he h hn hcs := Rule.binary_retells hs hg hone hlevel he h hn hcs
  unary he h hn hcs := Rule.unary_retells hg he h hn hcs
  suffixed he h hn hcs := Rule.suffixed_retells hs hg he h hn hcs
  primary he h hn hcs := Rule.primary_retells hg he h hn hcs
  body hb hn hcs := Rule.body_retells hg hb hn hcs
  block hb hn hcs := Rule.block_retells hs hg hb hn hcs
  conditional hc hn hcs helse := Rule.conditional_retells hg hc hn hcs helse
  statement hs' hn hcs := Rule.statement_retells hs hg hs' hn hcs

/-- No tree is so shallow that it needs no rule. -/
theorem retells_bottom (g : Grammar) : g.Retells 0 where
  expression {e} _ _ hn _ := absurd (Nat.le_trans e.five_le_nesting hn) (by decide)
  binary _ _ _ h hn _ := absurd (Nat.le_trans h.five_le hn) (by decide)
  unary _ h hn _ := absurd (Nat.le_trans h.five_le hn) (by decide)
  suffixed _ h hn _ := absurd (Nat.le_trans h.five_le hn) (by decide)
  primary _ h hn _ := absurd (Nat.le_trans h.five_le hn) (by decide)
  body {b} _ _ hn _ := absurd hn (by
    obtain ⟨span, statements⟩ := b
    unfold Block.bodyNesting
    split <;> exact Nat.not_succ_le_zero _)
  block {b} _ _ hn _ := by cases b; exact absurd hn (Nat.not_succ_le_zero _)
  conditional {c} _ _ hn _ _ := by cases c; exact absurd hn (Nat.not_succ_le_zero _)
  statement {s} _ _ hn _ := by cases s <;> exact absurd hn (Nat.not_succ_le_zero _)

theorem retells_ofDepth (n : Nat) : (ofDepth n).Retells n := by
  induction n with
  | zero => exact retells_bottom _
  | succ n ih => exact Retells.step (sound_ofDepth n) ih

end Grammar

/-! ### Programs -/

theorem Rule.programTurn_read {g : Grammar} {done : List Stmt} {s : Stmt} {ts ds : List Content}
    (hopens : (headKind ts).opensStmt = true) (h : g.statement.Yields ts s ds) :
    (programTurn g done).Yields ts (.again (s :: done)) ds := by
  apply Yields.kind_bind
  generalize headKind ts = k at hopens
  split
  case h_4 => exact h.bind (Yields.pure _ ds)
  all_goals cases hopens

theorem Rule.program_retells {g : Grammar} {d : Nat} (hs : g.Sound) (hg : g.Retells d) {t : Block}
    (ht : t.Regular) (hn : Program.nesting t ≤ d) :
    (program g).Yields (Program.written t) t.bare [] := by
  obtain ⟨span, ss⟩ := t
  have hloop := statements_retells hg (programTurn_advances hs) (words_nil : Words [])
    (fun done => Yields.kind_bind (Yields.pure _ _))
    (fun done ts => Yields.kind_bind (Yields.advance_bind (Yields.pure _ ts)))
    (fun done ts s us hopens h => programTurn_read hopens h) ht hn []
  rw [List.append_nil] at hloop
  intro n
  have hspan : ∀ {cs : List Content}, (ParserState.atWords cs n).current.span = .nowhere := by
    intro cs
    cases cs <;> rfl
  refine Program.run_program_eq_ok.2 ⟨_, hloop n, ?_⟩
  rw [hspan, hspan, List.append_nil, List.reverse_reverse, Block.bare]
  rfl

namespace Program

variable {t : Block} {ts : List Token} {finish : Token} {depth : Nat}

theorem bare_eq_plain (hline : ∀ u ∈ ts, u.afterBreak = false) :
    ts.map Token.bare = (ts.map Token.content).map Token.plain := by
  rw [List.map_map]
  refine List.map_congr_left fun u hu => ?_
  rw [Token.bare, hline u hu]
  rfl

/-- Tokens on one line that say what a regular tree is written as are read as that tree,
whatever their places, unless it is nested too deeply. All trees of programs are regular
(`parseTokensAt_reads`). -/
theorem parseTokensAt_written (ht : t.Regular) (hts : ts.map Token.content = written t)
    (hline : ∀ u ∈ ts, u.afterBreak = false) (hfinish : finish.content = .endOfInput)
    (depth : Nat) :
    (∃ b, parseTokensAt depth (ts ++ [finish]) = .ok b ∧ b.bare = t.bare) ∨
      (depth < nesting t ∧ ∃ c, parseTokensAt depth (ts ++ [finish]) = .error c ∧
        c.cause = .nestedTooDeeply) := by
  have hwords : Words (written t) := Stmt.words_writtenAll t.statements
  have hcomplete : Complete ts finish := by
    refine ⟨hfinish, fun u hu => hwords u.content ?_⟩
    rw [← hts]
    exact List.mem_map_of_mem hu
  have hplain : Complete ((written t).map Token.plain) (Token.plain .endOfInput) := by
    refine ⟨rfl, fun u hu => ?_⟩
    obtain ⟨c, hc, rfl⟩ := List.mem_map.1 hu
    exact hwords c hc
  have hbare : ((written t).map Token.plain).map Token.bare = ts.map Token.bare := by
    rw [bare_eq_plain hline, hts, List.map_map]
    rfl
  have hread {deep : Nat} (hdeep : nesting t ≤ deep) :
      parseTokensAt deep ((written t).map Token.plain ++ [Token.plain .endOfInput]) =
        .ok t.bare :=
    parseTokensAt_eq_ok.2 ⟨_, Rule.program_retells (Grammar.sound_ofDepth deep)
      (Grammar.retells_ofDepth deep) ht hdeep 0⟩
  -- what the depth makes of the tokens is compared with what a depth that is enough does
  obtain ⟨hok, herror⟩ := parseTokensAt_deeper (Nat.le_max_left depth (nesting t)) hcomplete hplain
    hbare
  have hdeep := hread (Nat.le_max_right depth (nesting t))
  cases hparse : parseTokensAt depth (ts ++ [finish]) with
  | ok b =>
    obtain ⟨b', hb', hview⟩ := hok b hparse
    rw [hdeep, Except.ok.injEq] at hb'
    rw [← hb', Block.bare_bare] at hview
    exact .inl ⟨b, rfl, hview.symm⟩
  | error c =>
    have hcause : c.cause = .nestedTooDeeply := by
      refine Classical.not_not.1 fun hne => ?_
      obtain ⟨c', hc'⟩ := herror c hparse hne
      rw [hdeep] at hc'
      cases hc'
    refine .inr ⟨Nat.lt_of_not_le fun hle => ?_, c, rfl, hcause⟩
    obtain ⟨b', hb', -⟩ :=
      (parseTokensAt_deeper (Nat.le_refl depth) hplain hcomplete hbare.symm).1 _ (hread hle)
    rw [hparse] at hb'
    cases hb'

/-- The words of `(|x| => x)(-a)[:1] - (b - c);`. -/
theorem parseTokens_written_difference :
    let name (t : Text) : Expr := .identifier ⟨.nowhere, t⟩
    let same : Expr := .function .nowhere none [("x" : Text)]
      (.mk .nowhere [.returning .nowhere (some (name "x"))])
    let called : Expr := .call .nowhere same [.unary .nowhere .negate (name "a")]
    let first : Expr := .slice .nowhere called none (some (.literal .nowhere (.integer 1))) none
    let tree : Block := .mk .nowhere [.simple (.expression
      (.binary .nowhere .subtract first (.binary .nowhere .subtract (name "b") (name "c"))))]
    let words : List Content :=
      [.sign .leftParen, .sign .pipe, .identifier "x", .sign .pipe, .sign .doubleArrow,
        .identifier "x", .sign .rightParen, .sign .leftParen, .sign .minus, .identifier "a",
        .sign .rightParen, .sign .leftBracket, .sign .colon, .integer 1, .sign .rightBracket,
        .sign .minus, .sign .leftParen, .identifier "b", .sign .minus, .identifier "c",
        .sign .rightParen, .sign .semicolon]
    tree.Regular ∧ written tree = words ∧ nesting tree ≤ Grammar.maxDepth ∧
      ∃ b, parseTokens (words.map Token.plain ++ [Token.plain .endOfInput]) = .ok b ∧
        b.bare = tree := by
  intro name same called first tree words
  have hregular : tree.Regular := by
    simp [tree, first, called, same, name, Block.Regular, Stmt.RegularAll, Stmt.Regular,
      Simple.Regular, Expr.Regular, Expr.RegularAll, Expr.RegularOption]
  have hnesting : nesting tree ≤ Grammar.maxDepth := by decide
  have hline : ∀ u ∈ words.map Token.plain, u.afterBreak = false := by
    simp [words, Token.plain]
  exact ⟨hregular, rfl, hnesting, (parseTokensAt_written hregular rfl hline rfl
    Grammar.maxDepth).resolve_right fun h => absurd hnesting (Nat.not_le_of_lt h.1)⟩

end Program

end ScriptLang
