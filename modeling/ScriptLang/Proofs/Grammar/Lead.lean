import ScriptLang.Proofs.Grammar.Resume

/-!
# The first token

A rule reads its first token without asking whether a line feed stands before it. Only
the tokens behind may have to stand on one line, so a break in front of a statement makes
no difference to how it is read (`Parser.Breakable`).

No statement begins with `else` or a comma, the two words that go on with a statement
behind its end (`TokenKind.Leads`).
-/

namespace ScriptLang

/-- A token with a line feed before it. -/
def Token.broken (t : Token) : Token := { t with afterBreak := true }

/-- Tokens with a line feed before the first one. -/
def Token.brokenAll : List Token → List Token
  | [] => []
  | t :: ts => t.broken :: ts

namespace ParserState

variable {s : ParserState}

/-- The state with a line feed before the tokens ahead. -/
def broken (s : ParserState) : ParserState := { s with ahead := Token.brokenAll s.ahead }

theorem broken_of_nil (h : s.ahead = []) : s.broken = s := by
  cases s
  cases h
  rfl

theorem broken_skip (s : ParserState) (h : s.ahead ≠ []) : s.broken.skip = s.skip := by
  obtain ⟨t, ts, ht⟩ := List.exists_cons_of_ne_nil h
  have hb : s.broken.ahead = t.broken :: ts := by rw [broken, ht]; rfl
  rw [skip_of_cons ht, skip_of_cons hb]
  rfl

theorem broken_current (h : s.ahead ≠ []) : s.broken.current = s.current.broken := by
  obtain ⟨t, ts, ht⟩ := List.exists_cons_of_ne_nil h
  have hb : s.broken.ahead = t.broken :: ts := by rw [broken, ht]; rfl
  rw [current_of_cons ht, current_of_cons hb]

theorem Ended.broken (h : s.Ended) : s.broken.Ended := by
  refine ⟨h.finish, fun t ht => ?_⟩
  cases hs : s.ahead with
  | nil => rw [broken_of_nil hs, hs] at ht; cases ht
  | cons u us =>
    rw [ParserState.broken, hs] at ht
    rcases List.mem_cons.1 ht with rfl | ht
    · exact h.ahead u (by rw [hs]; exact List.mem_cons_self)
    · exact h.ahead t (by rw [hs]; exact List.mem_cons_of_mem _ ht)

end ParserState

open ParserState ScriptLang.Parser

/-! ### A break before the first token -/

/-- A line feed before a parser makes no difference. -/
def Parser.Breakable {α : Type} (p : Parser α) : Prop :=
  ∀ ⦃s : ParserState⦄, s.Ended → p.run s.broken = p.run s

/-- A line feed before a parser makes no difference where a token is ahead. -/
theorem Parser.Breakable.of_ahead {α : Type} {p : Parser α}
    (h : ∀ s : ParserState, s.Ended → s.ahead ≠ [] → p.run s.broken = p.run s) :
    p.Breakable := by
  intro s hs
  by_cases hnil : s.ahead = []
  · rw [broken_of_nil hnil]
  · exact h s hs hnil

section Breakable

variable {α β : Type} {p : Parser α}

theorem Parser.Breakable.bind (h : p.Breakable) (f : α → Parser β) : (p >>= f).Breakable := by
  intro s hs
  rw [run_bind, h hs, ← run_bind]

/-- What follows the first token asks for its content and its place only. -/
theorem breakable_advance_bind {f : Token → Parser β} (h : ∀ t : Token, f t.broken = f t) :
    (advance >>= f).Breakable := by
  refine .of_ahead fun s _ hne => ?_
  rw [run_advance_bind, run_advance_bind, broken_skip s hne, broken_current hne, h]

theorem breakable_kind_bind {f : TokenKind → Parser β} (h : ∀ k, (f k).Breakable) :
    (kind >>= f).Breakable := by
  refine .of_ahead fun s hs hne => ?_
  have hk : s.broken.current.kind = s.current.kind := by rw [broken_current hne]; rfl
  rw [run_kind_bind, run_kind_bind, hk, h _ hs]

theorem breakable_current_bind {f : Token → Parser β} (hf : ∀ t : Token, f t.broken = f t)
    (h : ∀ t, (f t).Breakable) : (current >>= f).Breakable := by
  refine .of_ahead fun s hs hne => ?_
  rw [run_current_bind, run_current_bind, broken_current hne, hf, h _ hs]

theorem breakable_fail (e : Expectation) : (fail e : Parser α).Breakable := by
  refine .of_ahead fun s _ hne => ?_
  rw [run_fail, run_fail, broken_current hne]
  rfl

theorem breakable_expect_bind {k : TokenKind} {e : Expectation} {f : Token → Parser β}
    (h : ∀ t : Token, f t.broken = f t) : (expect k e >>= f).Breakable := by
  unfold expect
  rw [bind_assoc]
  refine breakable_kind_bind fun x => ?_
  rw [Rule.ite_bind]
  split
  · exact breakable_advance_bind h
  · exact (breakable_fail e).bind f

theorem breakable_tooDeep : (tooDeep : Parser α).Breakable := by
  refine .of_ahead fun s _ hne => ?_
  rw [run_tooDeep, run_tooDeep, broken_current hne]
  rfl

end Breakable

/-- A break before a rule makes no difference. -/
structure Grammar.Breakable (g : Grammar) : Prop where
  expression : g.expression.Breakable
  binary : ∀ level, (g.binary level).Breakable
  unary : g.unary.Breakable
  suffixed : g.suffixed.Breakable
  primary : g.primary.Breakable
  conditional : g.conditional.Breakable
  statement : g.statement.Breakable

namespace Rule

variable {g : Grammar}

theorem primary_breakable (g : Grammar) : (primary g).Breakable := by
  refine breakable_current_bind (fun _ => rfl) fun t => ?_
  have hsingle : ∀ e : Expr, (advance *> pure e : Parser Expr).Breakable := fun e =>
    breakable_advance_bind (f := fun _ => pure e) fun _ => rfl
  dsimp only
  split
  case h_8 => exact breakable_advance_bind fun _ => rfl
  case h_9 => exact breakable_expect_bind fun _ => rfl
  case h_10 => exact breakable_fail _
  all_goals exact hsingle _

theorem unary_breakable (hg : g.Breakable) : (unary g).Breakable := by
  refine breakable_kind_bind fun k => ?_
  split
  · exact breakable_advance_bind fun _ => rfl
  · exact breakable_advance_bind fun _ => rfl
  · exact breakable_advance_bind fun _ => rfl
  · exact breakable_advance_bind fun _ => rfl
  · exact hg.suffixed

theorem expression_breakable (hg : g.Breakable) : (expression g).Breakable :=
  breakable_current_bind (fun _ => rfl) fun _ => (hg.binary 1).bind _

/-- The first turn over decorators reads the sign of one. -/
theorem decorated_broken (hg : g.Sound) {s : ParserState} (hs : s.Ended)
    (hk : s.current.kind = .sign .atSign) : (decorated g).run s.broken = (decorated g).run s := by
  have hne := hs.ahead_ne_nil hk (by simp)
  have hk' : s.broken.current.kind = .sign .atSign := by rw [broken_current hne]; exact hk
  have hturn : (decoratorTurn g []).run s.broken = (decoratorTurn g []).run s := by
    unfold decoratorTurn
    rw [run_accept_bind, run_accept_bind, if_pos hk, if_pos hk', broken_skip s hne]
  have hloop : (loop (decoratorTurn g) []).run s.broken = (loop (decoratorTurn g) []).run s := by
    rw [run_loop (decoratorTurn_advances hg) hs.broken, run_loop (decoratorTurn_advances hg) hs]
    unfold unfoldLoop
    rw [run_bind, hturn, ← run_bind]
  unfold decorated
  rw [run_bind, hloop, ← run_bind]

theorem conditional_breakable (g : Grammar) : (conditional g).Breakable :=
  breakable_expect_bind fun _ => rfl

theorem statement_breakable (hs : g.Sound) (hg : g.Breakable) : (statement g).Breakable := by
  refine .of_ahead fun s hended hne => ?_
  have hk : s.broken.current.kind = s.current.kind := by rw [broken_current hne]; rfl
  have hdeclaration : (declarationStatement g).Breakable := by
    simp only [declarationStatement, declaration, bind_assoc, pure_bind]
    exact breakable_expect_bind fun _ => rfl
  have hdefinition : (definition g).Breakable := breakable_expect_bind fun _ => rfl
  have hword : ∀ make : Span → Stmt, (word make).Breakable := fun make =>
    breakable_advance_bind fun _ => rfl
  unfold statement
  rw [run_kind_bind, run_kind_bind, hk]
  split
  · exact hdeclaration hended
  · exact hdefinition.bind _ hended
  · next hat => exact decorated_broken hs hended hat
  · exact hg.conditional.bind _ hended
  · exact breakable_expect_bind (fun _ => rfl) hended
  · exact breakable_expect_bind (fun _ => rfl) hended
  · exact breakable_expect_bind (fun _ => rfl) hended
  · exact hword _ hended
  · exact hword _ hended
  · exact breakable_expect_bind (fun _ => rfl) hended
  · exact hg.expression.bind _ hended

end Rule

theorem Grammar.breakable_ofDepth (n : Nat) : (ofDepth n).Breakable := by
  induction n with
  | zero =>
    exact ⟨breakable_tooDeep, fun _ => breakable_tooDeep, breakable_tooDeep, breakable_tooDeep,
      breakable_tooDeep, breakable_tooDeep, breakable_tooDeep⟩
  | succ n ih =>
    exact ⟨Rule.expression_breakable ih, fun _ => ih.unary.bind _, Rule.unary_breakable ih,
      ih.primary.bind _, Rule.primary_breakable _, Rule.conditional_breakable _,
      Rule.statement_breakable (sound_ofDepth n) ih⟩

/-! ### What a statement begins with -/

theorem Token.content_of_keyword {t : Token} {word : Keyword} (h : t.kind = .keyword word) :
    t.content = .keyword word := by
  unfold Token.kind at h
  cases hc : t.content <;> rw [hc] at h <;> cases h
  rfl

theorem Token.content_of_sign {t : Token} {sign : Sign} (h : t.kind = .sign sign) :
    t.content = .sign sign := by
  unfold Token.kind at h
  cases hc : t.content <;> rw [hc] at h <;> cases h
  rfl

/-- A word that may begin a statement as far as `else` and commas are concerned. -/
def TokenKind.Leads (k : TokenKind) : Prop := k ≠ .keyword .elseWord ∧ k ≠ .sign .comma

/-- What a parser reads begins with a word that leads. -/
def Parser.Leads {α : Type} (p : Parser α) : Prop :=
  ∀ ⦃s a s'⦄, p.run s = .ok (a, s') → s.current.kind.Leads

theorem Parser.Leads.bind {α β : Type} {p : Parser α} (h : p.Leads) (f : α → Parser β) :
    (p >>= f).Leads := by
  intro s b s' hr
  obtain ⟨a, s₁, ha, -⟩ := run_bind_eq_ok.1 hr
  exact h ha

theorem leads_tooDeep {α : Type} : (tooDeep : Parser α).Leads := by
  intro s a s' hr
  cases hr

/-- What the rules for expressions and statements read begins with a word that leads. -/
structure Grammar.Leads (g : Grammar) : Prop where
  expression : g.expression.Leads
  binary : ∀ level, (g.binary level).Leads
  unary : g.unary.Leads
  suffixed : g.suffixed.Leads
  primary : g.primary.Leads
  statement : g.statement.Leads

namespace Rule

variable {g : Grammar}

theorem primary_leads (g : Grammar) : (primary g).Leads := by
  intro s e s' hr
  have hrefused : ∀ content : Token.Content, s.current.content = content →
      content = .keyword .elseWord ∨ content = .sign .comma → False := by
    rintro content hc (rfl | rfl)
    all_goals
      unfold primary at hr
      rw [run_current_bind] at hr
      dsimp only at hr
      rw [hc] at hr
      dsimp only at hr
      rw [run_fail] at hr
      cases hr
  exact ⟨fun hk => hrefused _ (Token.content_of_keyword hk) (.inl rfl),
    fun hk => hrefused _ (Token.content_of_sign hk) (.inr rfl)⟩

theorem unary_leads (hg : g.Leads) : (unary g).Leads := by
  intro s e s' hr
  unfold unary at hr
  rw [run_kind_bind] at hr
  split at hr
  case h_5 => exact hg.suffixed hr
  all_goals
    next hk => rw [hk]; exact ⟨nofun, nofun⟩

theorem expression_leads (hg : g.Leads) : (expression g).Leads := by
  intro s e s' hr
  unfold expression at hr
  rw [run_current_bind] at hr
  exact (hg.binary 1).bind _ hr

theorem statement_leads (hg : g.Leads) : (statement g).Leads := by
  intro s e s' hr
  unfold statement at hr
  rw [run_kind_bind] at hr
  split at hr
  case h_11 => exact hg.expression.bind _ hr
  all_goals
    next hk => rw [hk]; exact ⟨nofun, nofun⟩

end Rule

theorem Grammar.leads_ofDepth (n : Nat) : (ofDepth n).Leads := by
  induction n with
  | zero =>
    exact ⟨leads_tooDeep, fun _ => leads_tooDeep, leads_tooDeep, leads_tooDeep, leads_tooDeep,
      leads_tooDeep⟩
  | succ n ih =>
    exact ⟨Rule.expression_leads ih, fun _ => ih.unary.bind _, Rule.unary_leads ih,
      ih.primary.bind _, Rule.primary_leads _, Rule.statement_leads ih⟩

end ScriptLang
