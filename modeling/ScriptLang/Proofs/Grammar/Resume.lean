import ScriptLang.Proofs.Grammar.Continue

/-!
# Statements on longer inputs

The rules for statements follow themselves, as those for expressions do. Behind a
statement the second reading may have read a semicolon that the sequel begins with,
which is what `Resumes` allows. In a block a closing brace comes after every statement,
and nothing of the sequel is read.

`Grammar.continues_ofDepth` gathers all rules: a grammar is followed by any that is at
least as deep.
-/

namespace ScriptLang

open ParserState ScriptLang.Parser

namespace Rule

variable {q : Sequel} {g g' : Grammar} {s t : ParserState} (hg : Grammar.Continues q g g')
include hg

/-! ### Blocks -/

theorem blockTurn_follows {done done' : List Stmt} (hd : done'.map Stmt.bare = done.map Stmt.bare)
    (h : Parallel q s t) :
    Follows q false (Parallel q) (Turn.map (List.map Stmt.bare)) (blockTurn g done)
      (blockTurn g' done') s t := by
  refine (Follows.kind h).bind h.ended fun k k' s₁ t₁ hrun hk h₁ => ?_
  obtain rfl : k' = k := hk
  cases hrun
  split
  · exact Follows.pure h₁ (congrArg Turn.done hd)
  · exact Follows.fail h₁ _ _
  · next hk =>
    refine (Follows.advance h₁ (h.ended.ahead_ne_nil hk (by simp))).bind h₁.ended
      fun _ _ s₂ t₂ _ _ h₂ => ?_
    exact Follows.pure h₂ (congrArg Turn.again hd)
  · refine (hg.statement h₁).parallel.bind h₁.ended fun x x' s₂ t₂ _ hx h₂ => ?_
    exact Follows.pure h₂ (congrArg Turn.again (by rw [List.map_cons, List.map_cons, hx, hd]))

theorem block_follows (h : Parallel q s t) :
    Follows q true (Parallel q) Block.bare (block g) (block g') s t := by
  refine (Follows.expect h (by simp) _ _).bind h.ended fun _ _ s₁ t₁ _ _ h₁ => ?_
  have hturns := Follows.outsideBrackets h₁ fun h =>
    Follows.loop (blockTurn_advances hg.sound) (blockTurn_advances hg.sound')
      (blockTurn_follows hg) (rfl : ([] : List Stmt).map Stmt.bare = [].map Stmt.bare) h
  refine hturns.bind_hungry h₁.ended (fun _ => (hungry_expect (by simp) _).bind _)
    fun ss ss' s₂ t₂ _ hss h₂ => ?_
  refine (Follows.expect h₂ (by simp) _ _).bind h₂.ended fun _ _ s₃ t₃ _ _ h₃ => ?_
  refine (Follows.spanFrom h₃ _ _).bind h₃.ended fun _ _ s₄ t₄ _ _ h₄ => ?_
  apply Follows.pure h₄
  rw [Block.bare, Block.bare, Stmt.bareAll_reverse, Stmt.bareAll_reverse, Stmt.bareAll_eq_map,
    Stmt.bareAll_eq_map, hss]

/-! ### Declarations and definitions -/

theorem declaration_follows (h : Parallel q s t) :
    Follows q true (Parallel q) (fun x => (x.2.1, x.2.2.bare)) (declaration g) (declaration g')
      s t := by
  refine (Follows.expect h (by simp) _ _).bind h.ended fun _ _ s₁ t₁ _ _ h₁ => ?_
  refine (Follows.expectName h₁ _ _).bind h₁.ended fun n n' s₂ t₂ _ hn h₂ => ?_
  refine (Follows.expect h₂ (by simp) _ _).bind h₂.ended fun _ _ s₃ t₃ _ _ h₃ => ?_
  refine (hg.expression h₃).bind h₃.ended fun e e' s₄ t₄ _ he h₄ => ?_
  exact Follows.pure h₄ (Prod.ext hn he)

theorem declarationStatement_follows (h : Parallel q s t) :
    Follows q true (Resumes q) Stmt.bare (declarationStatement g) (declarationStatement g')
      s t := by
  refine (declaration_follows hg h).bind h.ended fun x x' s₁ t₁ _ hx h₁ => ?_
  obtain ⟨start, name, value⟩ := x
  obtain ⟨start', name', value'⟩ := x'
  obtain ⟨hname, hvalue⟩ := Prod.mk.inj hx
  obtain rfl : name' = name := hname
  have hs₁ := h₁.ended
  refine (Follows.statementEnd h₁).bind_mid h₁.ended .inl fun _ _ s₂ t₂ hend _ h₂ => ?_
  have hs₂ := (statementEnd_leaves hend).ended h₁.ended
  refine (Follows.spanFrom h₂ _ _).bind_mid hs₂ .inl fun _ _ s₃ t₃ _ _ h₃ => ?_
  apply Follows.pure h₃
  simp only [Stmt.bare, Simple.bare, show value'.bare = value.bare from hvalue]

omit hg in
theorem definitionEnd_follows (arrow : Bool) (h : Parallel q s t) :
    Follows q true (Resumes q) (fun _ => ()) (definitionEnd arrow) (definitionEnd arrow) s t := by
  unfold definitionEnd
  split
  · exact Follows.statementEnd h
  · exact Follows.pure (.inl h) rfl

omit hg in
/-- A definition without spans. -/
def Definition.bare (d : Definition) : Definition := ⟨.nowhere, d.name, d.parameters, d.body.bare⟩

theorem definition_follows (h : Parallel q s t) :
    Follows q true (Resumes q) Definition.bare (definition g) (definition g') s t := by
  rw [definition_eq, definition_eq]
  refine (Follows.expect h (by simp) _ _).bind h.ended fun _ _ s₁ t₁ _ _ h₁ => ?_
  refine (Follows.expectName h₁ _ _).bind h₁.ended fun n n' s₂ t₂ _ hn h₂ => ?_
  refine (Follows.expect h₂ (by simp) _ _).bind h₂.ended fun _ _ s₃ t₃ _ _ h₃ => ?_
  refine (parameters_follows _ h₃).bind_hungry h₃.ended
    (fun _ => (hungry_expect (by simp) _).bind _) fun ns ns' s₄ t₄ _ hns h₄ => ?_
  refine (Follows.expect h₄ (by simp) _ _).bind h₄.ended fun _ _ s₅ t₅ _ _ h₅ => ?_
  refine (Follows.kind h₅).bind_hungry h₅.ended
    (fun _ => (hungry_of_reads hg.sound.body).bind _) fun k k' s₆ t₆ _ hk h₆ => ?_
  obtain rfl : k' = k := hk
  refine (hg.body h₆).bind h₆.ended fun b b' s₇ t₇ _ hb h₇ => ?_
  refine (definitionEnd_follows _ h₇).bind_mid h₇.ended .inl fun _ _ s₈ t₈ hend _ h₈ => ?_
  have hs₈ := (definitionEnd_leaves hend).ended h₇.ended
  refine (Follows.spanFrom h₈ _ _).bind_mid hs₈ .inl fun _ _ s₉ t₉ _ _ h₉ => ?_
  apply Follows.pure h₉
  rw [Definition.bare, Definition.bare, show n' = n from hn, show ns' = ns from hns, hb]

omit hg in
theorem Definition.expr_bare {d d' : Definition} (hd : d'.bare = d.bare) :
    d'.expr.bare = d.expr.bare := by
  obtain ⟨-, hname, hparameters, hbody⟩ := Definition.mk.inj hd
  simp only [Definition.expr, Expr.bare, hname, hparameters, hbody]

omit hg in
theorem decorate_bare (d d' : Definition) {decorators decorators' : List Expr} {e e' : Expr}
    (hds : decorators'.map Expr.bare = decorators.map Expr.bare) (he : e'.bare = e.bare) :
    (decorators'.foldl (decorate d') e').bare = (decorators.foldl (decorate d) e).bare := by
  induction decorators generalizing decorators' e e' with
  | nil =>
    rw [List.map_eq_nil_iff.1 hds]
    exact he
  | cons x xs ih =>
    obtain ⟨x', xs', rfl, hx, hxs⟩ := List.map_eq_cons_iff.1 hds
    have hcall : (decorate d' e' x').bare = (decorate d e x).bare := by
      simp only [decorate, Expr.bare, Expr.bareAll, hx, he]
    rw [List.foldl_cons, List.foldl_cons]
    exact ih hxs hcall

theorem decoratorTurn_follows {done done' : List Expr}
    (hd : done'.map Expr.bare = done.map Expr.bare) (h : Parallel q s t) :
    Follows q false (Parallel q) (Turn.map (List.map Expr.bare)) (decoratorTurn g done)
      (decoratorTurn g' done') s t := by
  refine (Follows.accept h (by simp)).bind h.ended fun more more' s₁ t₁ _ hmore h₁ => ?_
  obtain rfl : more' = more := hmore
  split
  · refine (hg.suffixed h₁).weaken.bind h₁.ended fun e e' s₂ t₂ _ he h₂ => ?_
    refine (Follows.accept h₂ (by simp)).bind h₂.ended fun _ _ s₃ t₃ _ _ h₃ => ?_
    exact Follows.pure h₃ (congrArg Turn.again (by rw [List.map_cons, List.map_cons, he, hd]))
  · exact Follows.pure h₁ (congrArg Turn.done hd)

omit hg in
theorem hungry_defining {g : Grammar} (k : TokenKind) (f : Definition → Parser Stmt) :
    (if k = .keyword .defWord then definition g >>= f else fail .decoratedFunction).Hungry := by
  split
  · exact ((hungry_expect (by simp) _).bind _).bind f
  · exact hungry_fail _

theorem decorated_follows (h : Parallel q s t) :
    Follows q true (Resumes q) Stmt.bare (decorated g) (decorated g') s t := by
  refine (Follows.loop (decoratorTurn_advances hg.sound) (decoratorTurn_advances hg.sound')
    (decoratorTurn_follows hg) (rfl : ([] : List Expr).map Expr.bare = [].map Expr.bare)
    h).bind_hungry h.ended (fun _ => hungry_kind_bind fun k => hungry_defining k _)
    fun ds ds' s₁ t₁ _ hds h₁ => ?_
  refine (Follows.kind h₁).bind_hungry h₁.ended (fun k => hungry_defining k _)
    fun k k' s₂ t₂ _ hk h₂ => ?_
  obtain rfl : k' = k := hk
  split
  · refine (definition_follows hg h₂).bind_mid h₂.ended .inl fun d d' s₃ t₃ _ hd h₃ => ?_
    apply Follows.pure h₃
    have hvalue := decorate_bare d d' hds (Definition.expr_bare hd)
    obtain ⟨-, hname, -, -⟩ := Definition.mk.inj hd
    simp only [Stmt.bare, Simple.bare, Expr.bare, Identifier.bare, hvalue, hname]
  · exact Follows.fail h₂ _ _

/-! ### Choices and loops -/

theorem otherwise_follows (h : Parallel q s t) :
    Follows q true (Parallel q) Otherwise.bare (otherwise g) (otherwise g') s t := by
  refine (Follows.accept_calm h (.inl rfl)).bind h.ended fun more more' s₁ t₁ _ hmore h₁ => ?_
  obtain rfl : more' = more := hmore
  split
  · refine (Follows.kind h₁).bind_hungry h₁.ended (fun k => ?_) fun k k' s₂ t₂ _ hk h₂ => ?_
    · split
      · exact (hungry_of_reads hg.sound.conditional).bind _
      · exact (hungry_of_reads hg.sound.block).bind _
    · obtain rfl : k' = k := hk
      split
      · refine (hg.conditional h₂).bind h₂.ended fun c c' s₃ t₃ _ hc h₃ => ?_
        exact Follows.pure h₃ (by simp only [Otherwise.bare, hc])
      · refine (hg.block h₂).bind h₂.ended fun b b' s₃ t₃ _ hb h₃ => ?_
        exact Follows.pure h₃ (by simp only [Otherwise.bare, hb])
  · exact Follows.pure h₁ rfl

theorem conditional_follows (h : Parallel q s t) :
    Follows q true (Parallel q) Conditional.bare (conditional g) (conditional g') s t := by
  refine (Follows.expect h (by simp) _ _).bind h.ended fun _ _ s₁ t₁ _ _ h₁ => ?_
  refine (hg.expression h₁).bind h₁.ended fun e e' s₂ t₂ _ he h₂ => ?_
  refine (hg.block h₂).bind h₂.ended fun b b' s₃ t₃ _ hb h₃ => ?_
  refine (otherwise_follows hg h₃).bind h₃.ended fun o o' s₄ t₄ _ ho h₄ => ?_
  refine (Follows.spanFrom h₄ _ _).bind h₄.ended fun _ _ s₅ t₅ _ _ h₅ => ?_
  apply Follows.pure h₅
  simp only [Conditional.bare, he, hb, ho]

theorem whileLoop_follows (h : Parallel q s t) :
    Follows q true (Parallel q) Stmt.bare (whileLoop g) (whileLoop g') s t := by
  refine (Follows.expect h (by simp) _ _).bind h.ended fun _ _ s₁ t₁ _ _ h₁ => ?_
  refine (hg.expression h₁).bind h₁.ended fun e e' s₂ t₂ _ he h₂ => ?_
  refine (hg.block h₂).bind h₂.ended fun b b' s₃ t₃ _ hb h₃ => ?_
  refine (Follows.spanFrom h₃ _ _).bind h₃.ended fun _ _ s₄ t₄ _ _ h₄ => ?_
  apply Follows.pure h₄
  simp only [Stmt.bare, he, hb]

theorem initializer_follows (h : Parallel q s t) :
    Follows q false (Parallel q) (Option.map Simple.bare) (initializer g) (initializer g')
      s t := by
  refine (Follows.kind h).bind h.ended fun k k' s₁ t₁ _ hk h₁ => ?_
  obtain rfl : k' = k := hk
  split
  · refine (declaration_follows hg h₁).weaken.bind h₁.ended fun x x' s₂ t₂ _ hx h₂ => ?_
    obtain ⟨start, name, value⟩ := x
    obtain ⟨start', name', value'⟩ := x'
    obtain ⟨hname, hvalue⟩ := Prod.mk.inj hx
    refine (Follows.spanFrom h₂ _ _).bind h₂.ended fun _ _ s₃ t₃ _ _ h₃ => ?_
    apply Follows.pure h₃
    simp only [Option.map_some, Simple.bare, show name' = name from hname,
      show value'.bare = value.bare from hvalue]
  · exact Follows.pure h₁ rfl
  · refine (hg.expression h₁).weaken.bind h₁.ended fun e e' s₂ t₂ _ he h₂ => ?_
    apply Follows.pure h₂
    simp only [Option.map_some, Simple.bare, he]

theorem optionalBefore_follows (closing : TokenKind) (h : Parallel q s t) :
    Follows q false (Parallel q) (Option.map Expr.bare) (optionalBefore g closing)
      (optionalBefore g' closing) s t := by
  rw [optionalBefore_eq, optionalBefore_eq]
  refine (Follows.kind h).bind h.ended fun k k' s₁ t₁ _ hk h₁ => ?_
  obtain rfl : k' = k := hk
  exact optional_follows hg _ h₁

omit hg in
/-- The parts of a counting loop between its brackets, without spans. -/
def headerBare (x : Option Simple × Option Expr × Option Expr) :
    Option Simple × Option Expr × Option Expr :=
  (x.1.map Simple.bare, x.2.1.map Expr.bare, x.2.2.map Expr.bare)

theorem countingHeader_follows (h : Parallel q s t) :
    Follows q false (Parallel q) headerBare (countingHeader g) (countingHeader g') s t := by
  refine (initializer_follows hg h).bind h.ended fun i i' s₁ t₁ _ hi h₁ => ?_
  refine (Follows.expect h₁ (by simp) _ _).bind h₁.ended fun _ _ s₂ t₂ _ _ h₂ => ?_
  refine (optionalBefore_follows hg _ h₂).bind h₂.ended fun c c' s₃ t₃ _ hc h₃ => ?_
  refine (Follows.expect h₃ (by simp) _ _).bind h₃.ended fun _ _ s₄ t₄ _ _ h₄ => ?_
  refine (optionalBefore_follows hg _ h₄).bind h₄.ended fun x x' s₅ t₅ _ hx h₅ => ?_
  exact Follows.pure h₅ (Prod.ext hi (Prod.ext hc hx))

theorem countingLoop_follows (start start' : Token) (h : Parallel q s t) :
    Follows q true (Parallel q) Stmt.bare (countingLoop g start) (countingLoop g' start') s t := by
  refine (Follows.expect h (by simp) _ _).bind h.ended fun _ _ s₁ t₁ _ _ h₁ => ?_
  refine (Follows.inBrackets h₁ (countingHeader_follows hg)).bind_hungry h₁.ended
    (fun _ => (hungry_expect (by simp) _).bind _) fun x x' s₂ t₂ _ hx h₂ => ?_
  obtain ⟨i, c, e⟩ := x
  obtain ⟨i', c', e'⟩ := x'
  obtain ⟨hi, hx⟩ := Prod.mk.inj hx
  obtain ⟨hc, he⟩ := Prod.mk.inj hx
  refine (Follows.expect h₂ (by simp) _ _).bind h₂.ended fun _ _ s₃ t₃ _ _ h₃ => ?_
  refine (hg.block h₃).bind h₃.ended fun b b' s₄ t₄ _ hb h₄ => ?_
  refine (Follows.spanFrom h₄ _ _).bind h₄.ended fun _ _ s₅ t₅ _ _ h₅ => ?_
  apply Follows.pure h₅
  dsimp only at hi hc he
  simp only [Stmt.bare, Simple.bareOption_eq_map, Expr.bareOption_eq_map, hi, hc, he, hb]

theorem forLoop_follows (h : Parallel q s t) :
    Follows q true (Parallel q) Stmt.bare (forLoop g) (forLoop g') s t := by
  refine (Follows.expect h (by simp) _ _).bind h.ended fun start start' s₁ t₁ _ _ h₁ => ?_
  refine (Follows.kind h₁).bind_hungry h₁.ended (fun k => ?_) fun k k' s₂ t₂ _ hk h₂ => ?_
  · split
    · exact (hungry_expect (by simp) _).bind _
    · exact (hungry_expectName _).bind _
  · obtain rfl : k' = k := hk
    split
    · exact countingLoop_follows hg start start' h₂
    · refine (Follows.expectName h₂ _ _).bind h₂.ended fun n n' s₃ t₃ _ hn h₃ => ?_
      refine (Follows.expect h₃ (by simp) _ _).bind h₃.ended fun _ _ s₄ t₄ _ _ h₄ => ?_
      refine (hg.expression h₄).bind h₄.ended fun e e' s₅ t₅ _ he h₅ => ?_
      refine (hg.block h₅).bind h₅.ended fun b b' s₆ t₆ _ hb h₆ => ?_
      refine (Follows.spanFrom h₆ _ _).bind h₆.ended fun _ _ s₇ t₇ _ _ h₇ => ?_
      apply Follows.pure h₇
      simp only [Stmt.bare, show n' = n from hn, he, hb]

/-! ### Simple statements -/

theorem returning_follows (h : Parallel q s t) :
    Follows q true (Resumes q) Stmt.bare (returning g) (returning g') s t := by
  rw [returning_eq, returning_eq]
  refine (Follows.expect h (by simp) _ _).bind h.ended fun _ _ s₁ t₁ _ _ h₁ => ?_
  have hvalue : Follows q true (Parallel q) (Option.map Expr.bare)
      (atStatementEnd >>= optional g) (atStatementEnd >>= optional g') s₁ t₁ := by
    refine (Follows.atStatementEnd h₁).bind h₁.ended fun ends ends' s₂ t₂ _ hends h₂ => ?_
    obtain rfl : ends' = ends := hends
    exact optional_follows hg _ h₂
  refine hvalue.bind h₁.ended fun v v' s₂ t₂ _ hv h₂ => ?_
  refine (Follows.statementEnd h₂).bind_mid h₂.ended .inl fun _ _ s₃ t₃ hend _ h₃ => ?_
  have hs₃ := (statementEnd_leaves hend).ended h₂.ended
  refine (Follows.spanFrom h₃ _ _).bind_mid hs₃ .inl fun _ _ s₄ t₄ _ _ h₄ => ?_
  apply Follows.pure h₄
  simp only [Stmt.bare, Expr.bareOption_eq_map, hv]

omit hg in
theorem assertionMessage_follows (h : Parallel q s t) :
    Follows q true (Parallel q) id assertionMessage assertionMessage s t := by
  by_cases hl : q.Live s
  · refine Follows.of_run_eq ?_ (run_current_bind _) (run_current_bind _)
    rw [h.content_eq hl]
    split
    · next message hc =>
      have hne := h.ended.ahead_ne_nil (k := .string) (by rw [Token.kind, hc]; rfl) (by simp)
      exact (Follows.advance h hne).bind h.ended fun _ _ _ _ _ _ h₁ => Follows.pure h₁ rfl
    · exact Follows.fail h _ _
  · obtain ⟨hnil, -⟩ := Sequel.not_live hl
    have hrun : ∀ {u : ParserState}, u.Ended → u.ahead = [] →
        assertionMessage.run u = (fail .assertionMessage : Parser Text).run u := by
      intro u hu hnil
      unfold assertionMessage
      rw [run_current_bind, current_of_nil hnil, hu.finish]
    refine Follows.of_starved h.ended hl (fun u m u' hu hnil hr => ?_) fun {c} hr => ?_
    · rw [hrun hu hnil] at hr
      exact hungry_fail _ hu hnil hr
    · rw [hrun h.ended hnil] at hr
      exact Follows.not_final_of_starved h.ended hnil hr

omit hg in
theorem message_follows (h : Parallel q s t) :
    Follows q true (Parallel q) id message message s t := by
  refine (Follows.accept_calm h (.inr rfl)).bind h.ended fun more more' s₁ t₁ _ hmore h₁ => ?_
  obtain rfl : more' = more := hmore
  split
  · rw [← bind_pure_comp]
    refine (assertionMessage_follows h₁).bind h₁.ended fun m m' s₂ t₂ _ hm h₂ => ?_
    exact Follows.pure h₂ (congrArg some hm)
  · exact Follows.pure h₁ rfl

theorem assertion_follows (h : Parallel q s t) :
    Follows q true (Resumes q) Stmt.bare (assertion g) (assertion g') s t := by
  rw [assertion_eq, assertion_eq]
  refine (Follows.expect h (by simp) _ _).bind h.ended fun _ _ s₁ t₁ _ _ h₁ => ?_
  refine (hg.expression h₁).bind h₁.ended fun e e' s₂ t₂ _ he h₂ => ?_
  refine (message_follows h₂).bind h₂.ended fun m m' s₃ t₃ _ hm h₃ => ?_
  refine (Follows.statementEnd h₃).bind_mid h₃.ended .inl fun _ _ s₄ t₄ hend _ h₄ => ?_
  have hs₄ := (statementEnd_leaves hend).ended h₃.ended
  refine (Follows.spanFrom h₄ _ _).bind_mid hs₄ .inl fun _ _ s₅ t₅ _ _ h₅ => ?_
  apply Follows.pure h₅
  simp only [Stmt.bare, he, show m' = m from hm]

omit hg in
theorem word_follows {make : Span → Stmt} (hmake : ∀ span, (make span).bare = make .nowhere)
    (h : Parallel q s t) (hne : s.ahead ≠ []) :
    Follows q true (Resumes q) Stmt.bare (word make) (word make) s t := by
  refine (Follows.advance h hne).bind h.ended fun _ _ s₁ t₁ _ _ h₁ => ?_
  refine (Follows.statementEnd h₁).bind_mid h₁.ended .inl fun _ _ s₂ t₂ _ _ h₂ => ?_
  exact Follows.pure h₂ (by rw [hmake, hmake])

theorem expressionStatement_follows (h : Parallel q s t) :
    Follows q true (Resumes q) Stmt.bare (expressionStatement g) (expressionStatement g')
      s t := by
  refine (hg.expression h).bind h.ended fun e e' s₁ t₁ _ he h₁ => ?_
  refine (Follows.statementEnd h₁).bind_mid h₁.ended .inl fun _ _ s₂ t₂ _ _ h₂ => ?_
  apply Follows.pure h₂
  simp only [Stmt.bare, Simple.bare, he]

theorem statement_follows (h : Parallel q s t) :
    Follows q true (Resumes q) Stmt.bare (statement g) (statement g') s t := by
  have hne : s.current.kind ≠ .endOfInput → s.ahead ≠ [] := fun hk =>
    h.ended.ahead_ne_nil rfl hk
  by_cases hl : q.Live s
  · refine Follows.of_run_eq ?_ (run_kind_bind _) (run_kind_bind _)
    rw [h.kind_eq hl]
    split
    · exact declarationStatement_follows hg h
    · refine (definition_follows hg h).bind_mid h.ended .inl fun d d' s₁ t₁ _ hd h₁ => ?_
      apply Follows.pure h₁
      simp only [Stmt.bare, Simple.bare, Definition.expr_bare hd]
    · exact decorated_follows hg h
    · refine (hg.conditional h).resumes.bind_mid h.ended .inl fun c c' s₁ t₁ _ hc h₁ => ?_
      apply Follows.pure h₁
      simp only [Stmt.bare, hc]
    · exact (whileLoop_follows hg h).resumes
    · exact (forLoop_follows hg h).resumes
    · exact returning_follows hg h
    · next hk => exact word_follows (fun _ => rfl) h (hne (by rw [hk]; simp))
    · next hk => exact word_follows (fun _ => rfl) h (hne (by rw [hk]; simp))
    · exact assertion_follows hg h
    · exact expressionStatement_follows hg h
  · obtain ⟨hnil, -⟩ := Sequel.not_live hl
    refine Follows.of_starved h.ended hl (hungry_of_reads (statement_reads hg.sound))
      fun {c} hr => ?_
    unfold statement at hr
    rw [run_kind_bind, h.ended.current_kind_iff.2 hnil] at hr
    exact (expressionStatement_follows hg h).waits hnil hr

end Rule

/-! ### All rules -/

namespace Grammar

variable {q : Sequel} {g g' : Grammar}

theorem Continues.step (hg : Continues q g g') : Continues q g.step g'.step where
  sound := hg.sound.step
  sound' := hg.sound'.step
  expression := Rule.expression_follows hg
  binary level _ _ := Rule.binary_follows hg level
  unary := Rule.unary_follows hg
  suffixed := Rule.suffixed_follows hg
  primary := Rule.primary_follows hg
  unary_name := Rule.unary_keepsName hg
  suffixed_name := Rule.suffixed_keepsName hg
  primary_name := Rule.primary_keepsName hg
  body := Rule.body_follows hg
  block := Rule.block_follows hg
  conditional := Rule.conditional_follows hg
  statement := Rule.statement_follows hg

/-- Nothing has to follow where no rule is followed: the complaint about that is neither
final nor one of a deeper grammar. -/
theorem tooDeep_follows {α β : Type} {calm : Bool} {post : ParserState → ParserState → Prop}
    {view : α → β} (p : Parser α) (s t : ParserState) :
    Follows q calm post view tooDeep p s t := by
  have hcause : ∀ {c : Complaint}, (tooDeep : Parser α).run s = .error c →
      c.cause = .nestedTooDeeply := by
    rintro c ⟨⟩
    rfl
  have hfinal : ∀ {c : Complaint}, (tooDeep : Parser α).run s = .error c → ¬ c.Final := by
    intro c hr
    have hcode : ("E103" : Text) ≠ "E101" ∧ ("E103" : Text) ≠ "E104" := by decide
    rw [Complaint.Final, hcause hr]
    exact fun h => h.elim hcode.1 hcode.2
  constructor
  · nofun
  · exact fun hr hc => absurd (hcause hr) (hc.resolve_left (hfinal hr)).2
  · exact fun _ _ hr => hfinal hr
  · nofun

theorem tooDeep_keepsName (p : Parser Expr) (s t : ParserState) : KeepsName tooDeep p s t := by
  intro e s' e' t' hr
  cases hr

theorem continues_bottom (hg : g.Sound) : Continues q bottom g where
  sound := sound_bottom
  sound' := hg
  expression _ := tooDeep_follows _ _ _
  binary _ _ _ _ := tooDeep_follows _ _ _
  unary _ := tooDeep_follows _ _ _
  suffixed _ := tooDeep_follows _ _ _
  primary _ := tooDeep_follows _ _ _
  unary_name _ := tooDeep_keepsName _ _ _
  suffixed_name _ := tooDeep_keepsName _ _ _
  primary_name _ := tooDeep_keepsName _ _ _
  body _ := tooDeep_follows _ _ _
  block _ := tooDeep_follows _ _ _
  conditional _ := tooDeep_follows _ _ _
  statement _ := tooDeep_follows _ _ _

/-- A grammar is followed by any that is at least as deep. -/
theorem continues_ofDepth (q : Sequel) {m n : Nat} (h : n ≤ m) :
    Continues q (ofDepth n) (ofDepth m) := by
  induction n generalizing m with
  | zero => exact continues_bottom (sound_ofDepth m)
  | succ n ih =>
    obtain ⟨m, rfl⟩ : ∃ k, m = k + 1 := Nat.exists_eq_add_one.2 (Nat.lt_of_lt_of_le n.succ_pos h)
    exact (ih (Nat.le_of_succ_le_succ h)).step

end Grammar

end ScriptLang
