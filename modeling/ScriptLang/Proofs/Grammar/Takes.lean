import ScriptLang.Proofs.Grammar.Run

/-!
# Words that are enough

A few words are enough for a rule to read something: `0` for an expression, braces for a
block. `Parser.Takes K ws p` says that `p` reads words with the contents `ws`, wherever they
stand, if a token of a kind in `K` follows; the combinators of parsers have one rule each.
`Grammar.Fresh` gathers the rules that all others are filled up with, and `Grammar.fresh_ofDepth`
says that five levels of rules are enough for them.
-/

namespace ScriptLang

open ParserState ScriptLang.Parser

/-! ### Words ahead -/

/-- A list of tokens is made up of words with the contents `ws` and then `us`. -/
def Token.Begins (ts : List Token) (ws : List Token.Content) (us : List Token) : Prop :=
  ∃ xs, xs.map Token.content = ws ∧ ts = xs ++ us

/-- The kind of the first of some tokens, or of what stands behind them. -/
def Token.lead (ts : List Token) (finish : Token) : TokenKind := (ts.headD finish).kind

/-- What is made up of `ws` and then something that `K` allows begins as `K₁` allows. -/
def Admits (K₁ K : TokenKind → Prop) : List Token.Content → Prop
  | [] => ∀ k, K k → K₁ k
  | w :: _ => K₁ w.kind

theorem Admits.cons {K₁ K : TokenKind → Prop} {w : Token.Content} {ws : List Token.Content}
    (h : K₁ w.kind) : Admits K₁ K (w :: ws) := h

namespace Token.Begins

variable {ts us : List Token} {w : Token.Content} {ws ws₁ ws₂ : List Token.Content}

theorem nil_iff : Begins ts [] us ↔ ts = us := by
  simp [Begins]

theorem cons (h : Begins ts (w :: ws) us) :
    ∃ x xs, ts = x :: xs ∧ x.content = w ∧ Begins xs ws us := by
  obtain ⟨xs, hws, rfl⟩ := h
  obtain ⟨x, xs, rfl, hx, hxs⟩ := List.map_eq_cons_iff.1 hws
  exact ⟨x, xs ++ us, rfl, hx, xs, hxs, rfl⟩

theorem append (h : Begins ts (ws₁ ++ ws₂) us) :
    ∃ vs, Begins ts ws₁ vs ∧ Begins vs ws₂ us := by
  obtain ⟨xs, hws, rfl⟩ := h
  obtain ⟨xs₁, xs₂, rfl, h₁, h₂⟩ := List.map_eq_append_iff.1 hws
  exact ⟨xs₂ ++ us, ⟨xs₁, h₁, List.append_assoc xs₁ xs₂ us⟩, xs₂, h₂, rfl⟩

theorem suffix (h : Begins ts ws us) : us <:+ ts := by
  obtain ⟨xs, -, rfl⟩ := h
  exact List.suffix_append xs us

theorem lead {K₁ K : TokenKind → Prop} {finish : Token} (h : Begins ts ws us)
    (hadmits : Admits K₁ K ws) (hK : K (Token.lead us finish)) : K₁ (Token.lead ts finish) := by
  cases ws with
  | nil =>
    rw [nil_iff.1 h]
    exact hadmits _ hK
  | cons w ws =>
    obtain ⟨x, xs, rfl, hx, -⟩ := h.cons
    rw [Token.lead, List.headD_cons, Token.kind, hx]
    exact hadmits

end Token.Begins

/-! ### Kinds -/

/-- An expression does not go on with a token of this kind, nor what it stands in. -/
def TokenKind.EndsExpr (k : TokenKind) : Prop :=
  Connective.ofKind? k = none ∧ k ∉ [.sign .assign, .sign .leftParen, .sign .leftBracket,
    .sign .plusPlus, .sign .minusMinus, .sign .comma, .sign .colon, .keyword .elseWord]

/-- A statement does not go on with a token of this kind, nor does another one follow. -/
def TokenKind.EndsBlock (k : TokenKind) : Prop := k = .sign .rightBrace ∨ k = .endOfInput

instance (k : TokenKind) : Decidable k.EndsExpr := by
  unfold TokenKind.EndsExpr
  infer_instance

theorem TokenKind.EndsExpr.ne {k k' : TokenKind} (h : k.EndsExpr) (hk' : ¬ k'.EndsExpr) :
    k ≠ k' := fun hk => hk' (hk ▸ h)

theorem TokenKind.EndsBlock.endsExpr {k : TokenKind} (h : k.EndsBlock) : k.EndsExpr := by
  rcases h with rfl | rfl <;> decide

/-- Any kind. -/
def TokenKind.Any (_ : TokenKind) : Prop := True

theorem TokenKind.any (k : TokenKind) : k.Any := trivial

/-! ### Parsers that take words -/

namespace Parser

/-- A parser reads up to `us`. -/
def ReadsUpTo {α : Type} (p : Parser α) (s : ParserState) (us : List Token) : Prop :=
  ∃ a s', p.run s = .ok (a, s') ∧ s'.ahead = us ∧ s'.finish = s.finish ∧
    s'.brackets = s.brackets

/-- A parser reads words with the contents `ws`, wherever they stand, if a kind in `K`
follows. -/
def Takes {α : Type} (K : TokenKind → Prop) (ws : List Token.Content) (p : Parser α) : Prop :=
  ∀ ⦃s us⦄, s.Ended → Token.Begins s.ahead ws us → K (Token.lead us s.finish) → p.ReadsUpTo s us

section ReadsUpTo

variable {α β : Type} {p : Parser α} {s s' : ParserState} {us vs : List Token}

theorem ReadsUpTo.of_run_eq {q : Parser α} (h : p.ReadsUpTo s us) (hrun : q.run s = p.run s) :
    q.ReadsUpTo s us := by
  unfold ReadsUpTo
  rwa [hrun]

theorem ReadsUpTo.of_bind_ok {f : α → Parser β} {a : α} {s₁ : ParserState}
    (hp : p.run s = .ok (a, s₁)) (hfinish : s₁.finish = s.finish)
    (hbrackets : s₁.brackets = s.brackets) (hf : (f a).ReadsUpTo s₁ us) :
    (p >>= f).ReadsUpTo s us := by
  obtain ⟨b, s', hrun, hahead, hfinish', hbrackets'⟩ := hf
  exact ⟨b, s', run_bind_eq_ok.2 ⟨a, s₁, hp, hrun⟩, hahead, hfinish'.trans hfinish,
    hbrackets'.trans hbrackets⟩

/-- A parser reads up to words that another one takes. -/
theorem ReadsUpTo.bind {K : TokenKind → Prop} {ws : List Token.Content} {f : α → Parser β}
    (hp : p.ReadsUpTo s vs) (hs : s.Ended) (hvs : vs <:+ s.ahead) (hf : ∀ a, (f a).Takes K ws)
    (hbegins : Token.Begins vs ws us) (hlead : K (Token.lead us s.finish)) :
    (p >>= f).ReadsUpTo s us := by
  obtain ⟨a, s₁, hrun, rfl, hfinish, hbrackets⟩ := hp
  exact .of_bind_ok hrun hfinish hbrackets
    (hf a (hs.of_suffix hfinish hvs) hbegins (by rwa [hfinish]))

theorem ReadsUpTo.inBrackets (h : p.ReadsUpTo { s with brackets := s.brackets + 1 } us) :
    (inBrackets p).ReadsUpTo s us := by
  obtain ⟨a, s₁, hrun, hahead, hfinish, hbrackets⟩ := h
  exact ⟨a, _, run_inBrackets_eq_ok.2 ⟨s₁, hrun, rfl⟩, hahead, hfinish,
    Nat.sub_eq_of_eq_add hbrackets⟩

theorem ReadsUpTo.outsideBrackets (h : p.ReadsUpTo { s with brackets := 0 } us) :
    (outsideBrackets p).ReadsUpTo s us := by
  obtain ⟨a, s₁, hrun, hahead, hfinish, -⟩ := h
  exact ⟨a, _, run_outsideBrackets_eq_ok.2 ⟨s₁, hrun, rfl⟩, hahead, hfinish, rfl⟩

end ReadsUpTo

namespace Takes

variable {α β : Type} {K K₁ : TokenKind → Prop} {ws ws₁ ws₂ : List Token.Content}
  {w : Token.Content} {p : Parser α}

theorem mono (h : p.Takes K ws) (hK : ∀ k, K₁ k → K k) : p.Takes K₁ ws :=
  fun _ _ hs hbegins hlead => h hs hbegins (hK _ hlead)

/-- What reads nothing before what follows takes nothing. -/
theorem of_idle (h : ∀ ⦃s⦄, s.Ended → K s.current.kind → ∃ a, p.run s = .ok (a, s)) :
    p.Takes K [] := by
  intro s us hs hbegins hlead
  cases Token.Begins.nil_iff.1 hbegins
  obtain ⟨a, ha⟩ := h hs hlead
  exact ⟨a, s, ha, rfl, rfl, rfl⟩

theorem pure (a : α) : Takes K [] (pure a) := .of_idle fun _ _ _ => ⟨a, rfl⟩

theorem bind {f : α → Parser β} (hp : p.Takes K₁ ws₁) (hf : ∀ a, (f a).Takes K ws₂)
    (hadmits : Admits K₁ K ws₂) : (p >>= f).Takes K (ws₁ ++ ws₂) := by
  intro s us hs hbegins hlead
  obtain ⟨vs, h₁, h₂⟩ := hbegins.append
  exact (hp hs h₁ (h₂.lead hadmits hlead)).bind hs h₁.suffix hf h₂ hlead

theorem bind_nil {f : α → Parser β} (hp : p.Takes K₁ ws) (hf : ∀ a, (f a).Takes K [])
    (hK : ∀ k, K k → K₁ k) : (p >>= f).Takes K ws := by
  have hall := hp.bind hf hK
  rwa [List.append_nil] at hall

theorem advance_bind {f : Token → Parser β} (hf : ∀ t, t.content = w → (f t).Takes K ws) :
    (advance >>= f).Takes K (w :: ws) := by
  intro s us hs hbegins hlead
  obtain ⟨x, xs, hahead, hx, hxs⟩ := hbegins.cons
  have hskip : s.skip.ahead = xs := by rw [skip_of_cons hahead]
  obtain ⟨a, s', hrun, hus, hfinish, hbrackets⟩ :=
    hf s.current (by rw [current_of_cons hahead, hx]) hs.skip (hskip ▸ hxs) (by simpa using hlead)
  exact ⟨a, s', hrun, hus, hfinish.trans (skip_finish s), hbrackets.trans (skip_brackets s)⟩

theorem advance : advance.Takes K [w] := by
  rw [← bind_pure Parser.advance]
  exact advance_bind fun t _ => pure t

/-- What looks ahead sees the first of the words. -/
theorem current_bind {f : Token → Parser β}
    (hf : ∀ t, t.content = w → (f t).Takes K (w :: ws)) :
    (current >>= f).Takes K (w :: ws) := by
  intro s us hs hbegins hlead
  obtain ⟨x, xs, hahead, hx, -⟩ := hbegins.cons
  exact hf s.current (by rw [current_of_cons hahead, hx]) hs hbegins hlead

theorem kind_bind {f : TokenKind → Parser β} (hf : (f w.kind).Takes K (w :: ws)) :
    (kind >>= f).Takes K (w :: ws) := by
  intro s us hs hbegins hlead
  obtain ⟨x, xs, hahead, hx, -⟩ := hbegins.cons
  have hk : s.current.kind = w.kind := by rw [current_of_cons hahead, Token.kind, hx]
  exact (hk ▸ hf) hs hbegins hlead

/-- What looks ahead where no word is taken sees what follows. -/
theorem kind_bind_nil {f : TokenKind → Parser β} (hf : ∀ k, K k → (f k).Takes K []) :
    (kind >>= f).Takes K [] := by
  intro s us hs hbegins hlead
  have hk : s.current.kind = Token.lead us s.finish := by
    rw [← Token.Begins.nil_iff.1 hbegins]
    rfl
  exact hf s.current.kind (hk ▸ hlead) hs hbegins hlead

theorem ite_pos {c : Prop} [Decidable c] {q : Parser α} (hc : c) (hp : p.Takes K ws) :
    (if c then p else q).Takes K ws := by
  rwa [if_pos hc]

theorem ite_neg {c : Prop} [Decidable c] {q : Parser α} (hc : ¬ c) (hq : q.Takes K ws) :
    (if c then p else q).Takes K ws := by
  rwa [if_neg hc]

theorem inBrackets (hp : p.Takes K ws) : (inBrackets p).Takes K ws :=
  fun s _ hs hbegins hlead =>
    (hp (hs.withBrackets (s.brackets + 1)) hbegins hlead).inBrackets

theorem outsideBrackets (hp : p.Takes K ws) : (outsideBrackets p).Takes K ws :=
  fun _ _ hs hbegins hlead => (hp (hs.withBrackets 0) hbegins hlead).outsideBrackets

theorem spanFrom (start : Span) : (spanFrom start).Takes K [] := .of_idle fun _ _ _ => ⟨_, rfl⟩

theorem expect {k : TokenKind} (hk : w.kind = k) (e : Expectation) : (expect k e).Takes K [w] :=
  kind_bind (ite_pos hk advance)

theorem expectName {name : Text} (e : Expectation) :
    (expectName e).Takes K [.identifier name] := by
  refine current_bind fun t ht => ?_
  rw [ht]
  exact advance_bind fun _ _ => pure name

theorem accept_bind {k : TokenKind} {f : Bool → Parser β} (hf : (f false).Takes K ws)
    (hadmits : Admits (· ≠ k) K ws) : (accept k >>= f).Takes K ws := by
  intro s us hs hbegins hlead
  have hk : s.current.kind ≠ k := hbegins.lead hadmits hlead
  exact (hf hs hbegins hlead).of_run_eq (by rw [run_accept_bind, if_neg hk])

/-- A loop takes nothing where its turn is done. -/
theorem loop {turn : α → Parser (Turn α)} (a : α)
    (hstops : ∀ ⦃s⦄, s.Ended → K s.current.kind → ∃ b, (turn a).run s = .ok (.done b, s)) :
    (loop turn a).Takes K [] := by
  refine .of_idle fun s hs hk => ?_
  obtain ⟨b, hb⟩ := hstops hs hk
  refine ⟨b, ?_⟩
  change (turns turn (s.finish :: s.ahead) a).run s = _
  rw [turns, run_bind_of_ok hb]
  rfl

end Takes

/-- Where a block ends a statement ends, too. -/
theorem run_statementEnd_of_endsBlock {s : ParserState} (h : s.current.kind.EndsBlock) :
    statementEnd.run s = .ok ((), s) := by
  rw [run_statementEnd]
  rcases h with h | h <;> simp [endsStatement, h]

end Parser

/-! ### Rules -/

/-- The literal `0`. -/
def Token.Content.zero : Token.Content := .integer 0

/-- A pair of braces. -/
def Token.Content.braces : List Token.Content := [.sign .leftBrace, .sign .rightBrace]

open Token.Content

/-- The parsers of a grammar that read an expression from a `0`, and a block from a pair of
braces. -/
structure Grammar.Fresh (g : Grammar) : Prop where
  expression : g.expression.Takes TokenKind.EndsExpr [zero]
  binary : ∀ level, (g.binary level).Takes TokenKind.EndsExpr [zero]
  unary : g.unary.Takes TokenKind.EndsExpr [zero]
  suffixed : g.suffixed.Takes TokenKind.EndsExpr [zero]
  primary : g.primary.Takes TokenKind.EndsExpr [zero]
  body : g.body.Takes TokenKind.EndsExpr braces
  block : g.block.Takes TokenKind.Any braces

namespace Rule

variable {g : Grammar} {s : ParserState}

/-! ### Where repetitions stop -/

theorem binaryTurn_stops (level : Nat) (left : Expr) (h : s.current.kind.EndsExpr) :
    ∃ e, (binaryTurn g level left).run s = .ok (.done e, s) := by
  refine ⟨left, ?_⟩
  unfold binaryTurn
  rw [run_onSameLine_bind]
  split
  · rfl
  · rw [run_kind_bind, h.1]
    rfl

theorem suffixTurn_stops (operand : Expr) (h : s.current.kind.EndsExpr) :
    ∃ e, (suffixTurn g operand).run s = .ok (.done e, s) := by
  refine ⟨operand, ?_⟩
  unfold suffixTurn
  rw [run_onSameLine_bind]
  split
  · rfl
  · rw [run_kind_bind]
    split
    · next hk => exact absurd hk (h.ne (by decide))
    · next hk => exact absurd hk (h.ne (by decide))
    · next hk => exact absurd hk (h.ne (by decide))
    · next hk => exact absurd hk (h.ne (by decide))
    · rfl

theorem blockTurn_stops (done : List Stmt) (h : s.current.kind = .sign .rightBrace) :
    ∃ ss, (blockTurn g done).run s = .ok (.done ss, s) := by
  refine ⟨done, ?_⟩
  unfold blockTurn
  rw [run_kind_bind, h]
  rfl

/-! ### Expressions and blocks -/

/-- Behind its operand an expression does not go on. -/
theorem assigned_takes (f : Parser Expr) (e : Expr) :
    (kind >>= fun k => onSameLine >>= fun same =>
      if (k = .sign .assign && same) = true then f else pure e).Takes TokenKind.EndsExpr [] := by
  refine .kind_bind_nil fun k hk => ?_
  have hassign : k ≠ .sign .assign := hk.ne (by decide)
  intro s us hs hbegins hlead
  exact (Takes.pure e hs hbegins hlead).of_run_eq (by rw [run_onSameLine_bind]; simp [hassign])

theorem expression_takes (h : (g.binary 1).Takes TokenKind.EndsExpr [zero]) :
    (expression g).Takes TokenKind.EndsExpr [zero] :=
  .current_bind fun _ _ => h.bind_nil (fun e => assigned_takes _ e) fun _ hk => hk

theorem binary_takes (h : g.unary.Takes TokenKind.EndsExpr [zero]) (level : Nat) :
    (Rule.binary g level).Takes TokenKind.EndsExpr [zero] :=
  h.bind_nil (fun left => .loop left fun _ _ hk => binaryTurn_stops level left hk) fun _ hk => hk

theorem unary_takes (h : g.suffixed.Takes TokenKind.EndsExpr [zero]) :
    (unary g).Takes TokenKind.EndsExpr [zero] :=
  .kind_bind h

theorem suffixed_takes (h : g.primary.Takes TokenKind.EndsExpr [zero]) :
    (suffixed g).Takes TokenKind.EndsExpr [zero] :=
  h.bind_nil (fun operand => .loop operand fun _ _ hk => suffixTurn_stops operand hk) fun _ hk => hk

theorem primary_takes (K : TokenKind → Prop) : (primary g).Takes K [zero] := by
  refine .current_bind fun t ht => ?_
  dsimp only
  rw [ht]
  exact .advance_bind fun _ _ => .pure _

theorem block_takes (K : TokenKind → Prop) : (block g).Takes K braces := by
  have hloop : (loop (blockTurn g) []).Takes (· = .sign .rightBrace) [] :=
    .loop [] fun _ _ hk => blockTurn_stops [] hk
  have hend : ∀ (start : Token) (ss : List Stmt), Takes K [.sign .rightBrace] (do
      let _ ← expect (.sign .rightBrace) .blockEnd
      return Block.mk (← spanFrom start.span) ss.reverse) := fun start ss =>
    (Takes.expect rfl _).bind_nil (fun _ => (Takes.spanFrom _).bind_nil (fun _ => .pure _)
      fun _ h => h) fun _ h => h
  exact (Takes.expect (w := .sign .leftBrace) rfl _).bind (fun start =>
    hloop.outsideBrackets.bind (hend start) (.cons rfl)) (.cons rfl)

theorem body_takes {K : TokenKind → Prop} (h : g.block.Takes K braces) : (body g).Takes K braces :=
  .kind_bind (.ite_neg (by decide) h)

end Rule

namespace Grammar

open Rule

variable {g : Grammar}

theorem Fresh.step (h : g.Fresh) : g.step.Fresh where
  expression := expression_takes (h.binary 1)
  binary := binary_takes h.unary
  unary := unary_takes h.suffixed
  suffixed := suffixed_takes h.primary
  primary := primary_takes _
  body := body_takes (h.block.mono fun k _ => k.any)
  block := block_takes _

/-- From an expression to a literal there are five levels of rules. -/
theorem fresh_ofDepth (n : Nat) : (ofDepth (n + 5)).Fresh := by
  induction n with
  | succ n ih => exact ih.step
  | zero =>
    have hprimary : ∀ g : Grammar, g.step.primary.Takes TokenKind.EndsExpr [zero] := fun g =>
      primary_takes (g := g) _
    have hsuffixed : ∀ g : Grammar, g.step.step.suffixed.Takes TokenKind.EndsExpr [zero] :=
      fun g => suffixed_takes (hprimary g)
    have hunary : ∀ g : Grammar, g.step.step.step.unary.Takes TokenKind.EndsExpr [zero] :=
      fun g => unary_takes (hsuffixed g)
    have hbinary : ∀ (g : Grammar) level,
        (g.step.step.step.step.binary level).Takes TokenKind.EndsExpr [zero] :=
      fun g level => binary_takes (hunary g) level
    exact {
      expression := expression_takes (hbinary bottom 1)
      binary := hbinary bottom.step
      unary := hunary bottom.step.step
      suffixed := hsuffixed bottom.step.step.step
      primary := hprimary bottom.step.step.step.step
      body := body_takes (block_takes _)
      block := block_takes _ }

end Grammar

end ScriptLang
