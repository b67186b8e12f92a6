import ScriptLang.Proofs.Grammar.Sequel

/-!
# Rules on longer inputs

Every rule of a grammar follows itself, over a grammar that may be deeper: what
`Follows` says of the two readings of an input holds of the rule if it holds of the
parsers for its parts. `Grammar.follows_ofDepth` draws the conclusion for all rules.

What stands behind an expression on its line matters to three rules. They are put in
terms of `ParserState.following` first, which a calm sequel does not change.
-/

namespace ScriptLang

open ParserState ScriptLang.Parser

/-- If the second reading yields a name, the first one has yielded a name too. -/
def Parser.KeepsName (p p' : Parser Expr) (s t : ParserState) : Prop :=
  ∀ ⦃e s' e' t'⦄, p.run s = .ok (e, s') → p'.run t = .ok (e', t') → e'.name?.isSome →
    e.name?.isSome

/-- The rules of `g'` follow those of `g`. -/
structure Grammar.Continues (q : Sequel) (g g' : Grammar) : Prop where
  sound : g.Sound
  sound' : g'.Sound
  expression : ∀ {s t}, Parallel q s t →
    Follows q true (Parallel q) Expr.bare g.expression g'.expression s t
  binary : ∀ level {s t}, Parallel q s t →
    Follows q true (Parallel q) Expr.bare (g.binary level) (g'.binary level) s t
  unary : ∀ {s t}, Parallel q s t → Follows q true (Parallel q) Expr.bare g.unary g'.unary s t
  suffixed : ∀ {s t}, Parallel q s t →
    Follows q true (Parallel q) Expr.bare g.suffixed g'.suffixed s t
  primary : ∀ {s t}, Parallel q s t →
    Follows q true (Parallel q) Expr.bare g.primary g'.primary s t
  unary_name : ∀ {s t}, Parallel q s t → KeepsName g.unary g'.unary s t
  suffixed_name : ∀ {s t}, Parallel q s t → KeepsName g.suffixed g'.suffixed s t
  primary_name : ∀ {s t}, Parallel q s t → KeepsName g.primary g'.primary s t
  body : ∀ {s t}, Parallel q s t → Follows q true (Parallel q) Block.bare g.body g'.body s t
  block : ∀ {s t}, Parallel q s t → Follows q true (Parallel q) Block.bare g.block g'.block s t
  conditional : ∀ {s t}, Parallel q s t →
    Follows q true (Parallel q) Conditional.bare g.conditional g'.conditional s t
  statement : ∀ {s t}, Parallel q s t →
    Follows q true (Resumes q) Stmt.bare g.statement g'.statement s t

theorem Expr.eq_identifier_of_name? {e : Expr} {name : Text} (h : e.name? = some name) :
    ∃ span, e = .identifier ⟨span, name⟩ := by
  cases e <;> cases h
  exact ⟨_, rfl⟩

theorem Expr.name?_eq_of_bare {e e' : Expr} (h : e'.bare = e.bare) : e'.name? = e.name? := by
  rw [← name?_bare e', h, name?_bare]

/-- Two readings of a name differ in its span at most. -/
theorem Expr.eq_identifiers {e e' : Expr} (h : e.name?.isSome) (he : e'.bare = e.bare) :
    ∃ span name, e = .identifier ⟨span, name⟩ ∧ ∃ span', e' = .identifier ⟨span', name⟩ := by
  obtain ⟨name, hname⟩ := Option.isSome_iff_exists.1 h
  obtain ⟨span, rfl⟩ := eq_identifier_of_name? hname
  exact ⟨span, name, rfl, eq_identifier_of_name? ((name?_eq_of_bare he).trans hname)⟩

theorem ParserState.following_eq_some {s : ParserState} {k : TokenKind}
    (h : s.following = some k) :
    s.onSameLine = true ∧ s.current.kind = k ∧ k ≠ .endOfInput := by
  unfold ParserState.following at h
  split at h <;> cases h
  next hc => simpa using hc

theorem ParserState.following_of_break {s : ParserState} (h : s.onSameLine = false) :
    s.following = none := by
  rw [ParserState.following, h]
  rfl

theorem ParserState.following_of_end {s : ParserState} (h : s.current.kind = .endOfInput) :
    s.following = none := by
  unfold ParserState.following
  rw [h, if_neg]
  simp

theorem ParserState.following_of_line {s : ParserState} (h : s.onSameLine = true)
    (hk : s.current.kind ≠ .endOfInput) : s.following = some s.current.kind := by
  unfold ParserState.following
  rw [if_pos]
  simp [h, hk]

theorem ParserState.Ended.ahead_ne_nil_of_following {s : ParserState} (hs : s.Ended)
    {k : TokenKind} (h : s.following = some k) : s.ahead ≠ [] :=
  hs.ahead_ne_nil (following_eq_some h).2.1 (following_eq_some h).2.2

namespace Rule

variable {g : Grammar}

/-! ### Rules that look behind an expression -/

/-- An expression, or an assignment to it if the sign of one follows. -/
def assigned (g : Grammar) (start : Token) (e : Expr) (next : Option TokenKind) : Parser Expr :=
  if next = some (.sign .assign) then
    match e with
    | .identifier target => do
      let _ ← advance
      let value ← g.expression
      pure (.assignment (target.span.merge value.span) target value)
    | _ => refuseTarget e.span start
  else pure e

theorem assigned_of_not_name {e : Expr} (h : ¬ e.name?.isSome) (start : Token) :
    assigned g start e (some (.sign .assign)) = refuseTarget e.span start := by
  cases e <;> first | rfl | exact absurd rfl h

theorem assigned_of_ne {next : Option TokenKind} (h : next ≠ some (.sign .assign))
    (start : Token) (e : Expr) : assigned g start e next = pure e :=
  if_neg h

theorem run_expression (g : Grammar) (s : ParserState) :
    (expression g).run s =
      (do assigned g s.current (← g.binary 1) (← following)).run s := by
  unfold expression
  rw [run_current_bind]
  refine run_bind_congr fun e s₁ _ => ?_
  rw [run_kind_bind, run_onSameLine_bind]
  change _ = (assigned g s.current e s₁.following).run s₁
  unfold assigned
  cases hline : s₁.onSameLine with
  | false => rw [following_of_break hline, if_neg (by simp), if_neg (by simp)]
  | true =>
    by_cases hk : s₁.current.kind = .endOfInput
    · rw [following_of_end hk, hk, if_neg (by simp), if_neg (by simp)]
    · rw [following_of_line hline hk]
      by_cases hassign : s₁.current.kind = .sign .assign
      · rw [hassign, if_pos (by simp)]
        rfl
      · rw [if_neg (by simpa using hassign), if_neg (by simpa using hassign)]

/-- The operators behind an operand, if the kind of one follows. -/
def operated (g : Grammar) (level : Nat) (left : Expr) (next : Option TokenKind) :
    Parser (Turn Expr) :=
  match next.bind Connective.ofKind? with
  | none => pure (.done left)
  | some c =>
    if c.level < level then pure (.done left)
    else do
      let _ ← advance
      let right ← g.binary (c.level + 1)
      pure (.again (c.join left right))

theorem run_binaryTurn (g : Grammar) (level : Nat) (left : Expr) (s : ParserState) :
    (binaryTurn g level left).run s = (following >>= operated g level left).run s := by
  change _ = (operated g level left s.following).run s
  unfold binaryTurn operated
  rw [run_onSameLine_bind]
  cases hline : s.onSameLine with
  | false => rw [following_of_break hline]; rfl
  | true =>
    by_cases hk : s.current.kind = .endOfInput
    · rw [following_of_end hk, if_neg (by simp), run_kind_bind, hk]
      rfl
    · rw [following_of_line hline hk, if_neg (by simp), run_kind_bind]
      rfl

/-- What is done with an operand, if something follows. -/
def suffixes (g : Grammar) (operand : Expr) (next : Option TokenKind) : Parser (Turn Expr) :=
  match next with
  | some (.sign .leftParen) => do pure (.again (← call g operand))
  | some (.sign .leftBracket) => do pure (.again (← subscripted g operand))
  | some (.sign .plusPlus) => do pure (.again (← increment (← advance) operand .up .after))
  | some (.sign .minusMinus) => do pure (.again (← increment (← advance) operand .down .after))
  | _ => pure (.done operand)

theorem run_suffixTurn (g : Grammar) (operand : Expr) (s : ParserState) :
    (suffixTurn g operand).run s = (following >>= suffixes g operand).run s := by
  change _ = (suffixes g operand s.following).run s
  unfold suffixTurn suffixes
  rw [run_onSameLine_bind]
  cases hline : s.onSameLine with
  | false => rw [following_of_break hline]; rfl
  | true =>
    by_cases hk : s.current.kind = .endOfInput
    · rw [following_of_end hk, if_neg (by simp), run_kind_bind, hk]
    · rw [following_of_line hline hk, if_neg (by simp), run_kind_bind]
      split <;> simp_all

/-! ### Operators and operands -/

section Expressions

variable {q : Sequel} {g' : Grammar} {s t : ParserState} (hg : Grammar.Continues q g g')
include hg

theorem expression_follows (h : Parallel q s t) :
    Follows q true (Parallel q) Expr.bare (expression g) (expression g') s t := by
  refine Follows.of_run_eq ?_ (run_expression g s) (run_expression g' t)
  refine (hg.binary 1 h).bind h.ended fun e e' s₁ t₁ _ he h₁ => ?_
  refine (Follows.following h₁).bind h₁.ended fun next next' s₂ t₂ hnext hsame h₂ => ?_
  cases hnext
  obtain rfl : next' = s₁.following := hsame
  by_cases hassign : s₁.following = some (.sign .assign)
  · have hne := h₁.ended.ahead_ne_nil_of_following hassign
    have hname := Expr.name?_eq_of_bare he
    rw [hassign]
    by_cases hsome : e.name?.isSome
    · obtain ⟨span, name, rfl, span', rfl⟩ := Expr.eq_identifiers hsome he
      refine (Follows.advance h₂ hne).bind h₂.ended fun _ _ s₃ t₃ _ _ h₃ => ?_
      refine (hg.expression h₃).bind h₃.ended fun v v' s₄ t₄ _ hv h₄ => ?_
      apply Follows.pure h₄
      simp only [Expr.bare, Identifier.bare, hv]
    · rw [assigned_of_not_name hsome, assigned_of_not_name (by rwa [hname])]
      exact Follows.refuse hne _ _ _ _
  · rw [assigned_of_ne hassign, assigned_of_ne hassign]
    exact Follows.pure h₂ he

omit hg in
theorem join_bare {left left' right right' : Expr} (c : Connective)
    (hl : left'.bare = left.bare) (hr : right'.bare = right.bare) :
    (c.join left' right').bare = (c.join left right).bare := by
  cases c <;> simp only [Connective.join, Expr.bare, hl, hr]

theorem binaryTurn_follows (level : Nat) {left left' : Expr} (hleft : left'.bare = left.bare)
    (h : Parallel q s t) :
    Follows q true (Parallel q) (Turn.map Expr.bare) (binaryTurn g level left)
      (binaryTurn g' level left') s t := by
  refine Follows.of_run_eq ?_ (run_binaryTurn g level left s) (run_binaryTurn g' level left' t)
  refine (Follows.following h).bind h.ended fun next next' s₁ t₁ hnext hsame h₁ => ?_
  cases hnext
  obtain rfl : next' = s.following := hsame
  have hdone : (Turn.done left').map Expr.bare = (Turn.done left).map Expr.bare :=
    congrArg Turn.done hleft
  unfold operated
  cases hc : s.following.bind Connective.ofKind? with
  | none => exact Follows.pure h₁ hdone
  | some c =>
    obtain ⟨k, hk, -⟩ := Option.bind_eq_some_iff.1 hc
    have hne := h.ended.ahead_ne_nil_of_following hk
    dsimp only
    split
    · exact Follows.pure h₁ hdone
    · refine (Follows.advance h₁ hne).bind h₁.ended fun _ _ s₂ t₂ _ _ h₂ => ?_
      refine (hg.binary (c.level + 1) h₂).bind h₂.ended fun r r' s₃ t₃ _ hr h₃ => ?_
      exact Follows.pure h₃ (congrArg Turn.again (join_bare c hleft hr))

theorem binary_follows (level : Nat) (h : Parallel q s t) :
    Follows q true (Parallel q) Expr.bare (Rule.binary g level) (Rule.binary g' level) s t := by
  refine (hg.unary h).bind h.ended fun e e' s₁ t₁ _ he h₁ => ?_
  exact Follows.loop (binaryTurn_advances hg.sound level) (binaryTurn_advances hg.sound' level)
    (binaryTurn_follows hg level) he h₁

omit hg in
theorem increment_of_not_name {operand : Expr} (hname : ¬ operand.name?.isSome) (sign : Token)
    (direction : Direction) (side : Side) :
    increment sign operand direction side = refuseTarget operand.span sign := by
  cases operand <;> first | rfl | exact absurd rfl hname

omit hg in
theorem name?_of_run_increment_eq_ok {sign : Token} {operand e : Expr} {direction : Direction}
    {side : Side} {s' : ParserState}
    (h : (increment sign operand direction side).run s = .ok (e, s')) :
    operand.name?.isSome := by
  by_cases hname : operand.name?.isSome
  · exact hname
  · rw [increment_of_not_name hname, run_refuseTarget] at h
    cases h

omit hg in
theorem increment_follows {post : ParserState → ParserState → Prop} {operand operand' : Expr}
    (hop : operand'.bare = operand.bare) (hname : operand.name?.isSome) (sign sign' : Token)
    (direction : Direction) (side : Side) (h : post s t) :
    Follows q true post Expr.bare (increment sign operand direction side)
      (increment sign' operand' direction side) s t := by
  obtain ⟨span, name, rfl, span', rfl⟩ := Expr.eq_identifiers hname hop
  apply Follows.pure h
  simp only [Expr.bare, Identifier.bare]

/-- The sign before a name is read on its own. If no name follows it, the first reading
complains at once, and the second one when it has read its operand, which is no name
either. -/
theorem prefixed_follows (direction : Direction) (h : Parallel q s t) (hne : s.ahead ≠ []) :
    Follows q true (Parallel q) Expr.bare
      (do increment (← advance) (← g.unary) direction .before)
      (do increment (← advance) (← g'.unary) direction .before) s t := by
  have h₁ := h.skip hne
  have hunary := hg.unary h₁
  constructor
  · intro e s' hr hs'
    rw [run_advance_bind] at hr
    obtain ⟨o, s₁, ho, hr⟩ := run_bind_eq_ok.1 hr
    obtain ⟨-, rfl⟩ := run_increment_eq_ok hr
    have hname := name?_of_run_increment_eq_ok hr
    obtain ⟨o', t₁, ho', hview, hpost⟩ := hunary.ok ho hs'
    obtain ⟨e', t', hr', he'⟩ := (increment_follows hview hname s.current t.current direction
      .before hpost).ok hr hs'
    exact ⟨e', t', by rw [run_advance_bind, run_bind_of_ok ho', hr'], he'⟩
  · intro c hr hc
    rw [run_advance_bind] at hr ⊢
    rcases run_bind_eq_error.1 hr with ho | ⟨o, s₁, ho, hr⟩
    · obtain ⟨c', ho'⟩ := hunary.error ho hc
      exact ⟨c', run_bind_of_error ho' _⟩
    · have hname : ¬ o.name?.isSome := by
        intro hname
        obtain ⟨name, hname⟩ := Option.isSome_iff_exists.1 hname
        obtain ⟨span, rfl⟩ := Expr.eq_identifier_of_name? hname
        cases hr
      cases ho' : g'.unary.run t.skip with
      | error c' => exact ⟨c', run_bind_of_error ho' _⟩
      | ok x =>
        obtain ⟨o', t₁⟩ := x
        have hname' : ¬ o'.name?.isSome := fun h => hname (hg.unary_name h₁ ho ho' h)
        rw [run_bind_of_ok ho', increment_of_not_name hname']
        exact ⟨_, rfl⟩
  · exact fun hnil => absurd hnil hne
  · intro e s' hr
    rw [run_advance_bind] at hr
    obtain ⟨o, s₁, ho, hr⟩ := run_bind_eq_ok.1 hr
    obtain ⟨-, rfl⟩ := run_increment_eq_ok hr
    have hskip := Leaves.skip s
    obtain ⟨h₁, h₂, h₃⟩ := hunary.leaves ho
    exact ⟨h₁.trans hskip.ahead, h₂.trans hskip.finish, h₃.trans hskip.brackets⟩

theorem unary_follows (h : Parallel q s t) :
    Follows q true (Parallel q) Expr.bare (unary g) (unary g') s t := by
  have hsign : ∀ op, s.ahead ≠ [] → Follows q true (Parallel q) Expr.bare
      (do let sign ← advance
          let operand ← g.unary
          pure (.unary (sign.span.merge operand.span) op operand))
      (do let sign ← advance
          let operand ← g'.unary
          pure (.unary (sign.span.merge operand.span) op operand)) s t := by
    intro op hne
    refine (Follows.advance h hne).bind h.ended fun _ _ s₁ t₁ _ _ h₁ => ?_
    refine (hg.unary h₁).bind h₁.ended fun o o' s₂ t₂ _ ho h₂ => ?_
    exact Follows.pure h₂ (by simp only [Expr.bare, ho])
  have hne : s.current.kind ≠ .endOfInput → s.ahead ≠ [] := fun hk =>
    h.ended.ahead_ne_nil rfl hk
  by_cases hl : q.Live s
  · refine Follows.of_run_eq ?_ (run_kind_bind _) (run_kind_bind _)
    rw [h.kind_eq hl]
    split
    · next hk => exact hsign .not (hne (by rw [hk]; simp))
    · next hk => exact hsign .negate (hne (by rw [hk]; simp))
    · next hk => exact prefixed_follows hg .up h (hne (by rw [hk]; simp))
    · next hk => exact prefixed_follows hg .down h (hne (by rw [hk]; simp))
    · exact hg.suffixed h
  · obtain ⟨hnil, -⟩ := Sequel.not_live hl
    have hhungry := hungry_of_readsExpr (unary_reads hg.sound)
    refine Follows.of_starved h.ended hl hhungry fun {c} hr => ?_
    unfold unary at hr
    rw [run_kind_bind, h.ended.current_kind_iff.2 hnil] at hr
    exact (hg.suffixed h).waits hnil hr

omit hg in
theorem live_of_hungry {α : Type} {p : Parser α} (hp : p.Hungry) (h : Parallel q s t) {a : α}
    {s' : ParserState} (hr : p.run s = .ok (a, s')) : q.Live s :=
  .inl fun hnil => hp h.ended hnil hr

/-! ### Names -/

/-- The words in front of an operand. -/
def isPrefixSign : TokenKind → Bool
  | .keyword .notWord => true
  | .sign .minus => true
  | .sign .plusPlus => true
  | .sign .minusMinus => true
  | _ => false

omit hg in
theorem run_unary_of_operand (hk : isPrefixSign s.current.kind = false) :
    (unary g).run s = g.suffixed.run s := by
  unfold unary
  rw [run_kind_bind]
  split <;> first | rfl | (next h => rw [h] at hk; cases hk)

omit hg in
theorem isPrefixSign_of_name {e : Expr} {s' : ParserState}
    (h : (unary g).run s = .ok (e, s')) (hname : e.name?.isSome) :
    isPrefixSign s.current.kind = false := by
  unfold unary at h
  rw [run_kind_bind] at h
  split at h
  · rw [run_advance_bind] at h
    obtain ⟨o, s₁, -, h⟩ := run_bind_eq_ok.1 h
    obtain ⟨rfl, -⟩ := run_pure_eq_ok.1 h
    cases hname
  · rw [run_advance_bind] at h
    obtain ⟨o, s₁, -, h⟩ := run_bind_eq_ok.1 h
    obtain ⟨rfl, -⟩ := run_pure_eq_ok.1 h
    cases hname
  · rw [run_advance_bind] at h
    obtain ⟨o, s₁, -, h⟩ := run_bind_eq_ok.1 h
    obtain ⟨⟨span, target, rfl⟩, -⟩ := run_increment_eq_ok h
    cases hname
  · rw [run_advance_bind] at h
    obtain ⟨o, s₁, -, h⟩ := run_bind_eq_ok.1 h
    obtain ⟨⟨span, target, rfl⟩, -⟩ := run_increment_eq_ok h
    cases hname
  · next h₁ h₂ h₃ h₄ =>
    unfold isPrefixSign
    split <;> first | rfl | contradiction

theorem unary_keepsName (h : Parallel q s t) : KeepsName (unary g) (unary g') s t := by
  intro e s' e' t' hr hr' hname
  have hl := live_of_hungry (hungry_of_readsExpr (unary_reads hg.sound)) h hr
  have hk := isPrefixSign_of_name hr' hname
  rw [run_unary_of_operand hk] at hr'
  rw [h.kind_eq hl] at hk
  rw [run_unary_of_operand hk] at hr
  exact hg.suffixed_name h hr hr' hname

/-- The words behind an operand. -/
def isSuffixSign : Option TokenKind → Bool
  | some (.sign .leftParen) => true
  | some (.sign .leftBracket) => true
  | some (.sign .plusPlus) => true
  | some (.sign .minusMinus) => true
  | _ => false

omit hg in
theorem call_name? {callee e : Expr} {s' : ParserState} (h : (call g callee).run s = .ok (e, s')) :
    ¬ e.name?.isSome := by
  unfold call at h
  rw [run_expect_bind_eq_ok] at h
  obtain ⟨-, h⟩ := h
  obtain ⟨found, s₁, -, h⟩ := run_bind_eq_ok.1 h
  obtain ⟨k, s₂, -, h⟩ := run_bind_eq_ok.1 h
  rw [run_spanFrom_bind] at h
  obtain ⟨rfl, -⟩ := run_pure_eq_ok.1 h
  nofun

omit hg in
theorem subscripted_name? {target e : Expr} {s' : ParserState}
    (h : (subscripted g target).run s = .ok (e, s')) : ¬ e.name?.isSome := by
  unfold subscripted at h
  rw [run_expect_bind_eq_ok] at h
  obtain ⟨-, h⟩ := h
  obtain ⟨found, s₁, -, h⟩ := run_bind_eq_ok.1 h
  split at h
  all_goals
    obtain ⟨k, s₂, -, h⟩ := run_bind_eq_ok.1 h
    rw [run_spanFrom_bind] at h
    obtain ⟨rfl, -⟩ := run_pure_eq_ok.1 h
    nofun

omit hg in
/-- A turn goes on exactly if the sign of one follows, and then yields no name. -/
theorem suffixTurn_cases {operand : Expr} {r : Turn Expr} {s' : ParserState}
    (h : (suffixTurn g operand).run s = .ok (r, s')) :
    (isSuffixSign s.following = false ∧ r = .done operand ∧ s' = s) ∨
      (isSuffixSign s.following = true ∧ ∃ e, r = .again e ∧ ¬ e.name?.isSome) := by
  rw [run_suffixTurn] at h
  change (suffixes g operand s.following).run s = _ at h
  unfold suffixes at h
  split at h
  · next hk =>
    obtain ⟨e, s₁, he, h⟩ := run_bind_eq_ok.1 h
    obtain ⟨rfl, -⟩ := run_pure_eq_ok.1 h
    exact .inr ⟨by rw [hk]; rfl, e, rfl, call_name? he⟩
  · next hk =>
    obtain ⟨e, s₁, he, h⟩ := run_bind_eq_ok.1 h
    obtain ⟨rfl, -⟩ := run_pure_eq_ok.1 h
    exact .inr ⟨by rw [hk]; rfl, e, rfl, subscripted_name? he⟩
  · next hk =>
    rw [run_advance_bind] at h
    obtain ⟨e, s₁, he, h⟩ := run_bind_eq_ok.1 h
    obtain ⟨rfl, -⟩ := run_pure_eq_ok.1 h
    obtain ⟨⟨span, target, rfl⟩, -⟩ := run_increment_eq_ok he
    exact .inr ⟨by rw [hk]; rfl, _, rfl, nofun⟩
  · next hk =>
    rw [run_advance_bind] at h
    obtain ⟨e, s₁, he, h⟩ := run_bind_eq_ok.1 h
    obtain ⟨rfl, -⟩ := run_pure_eq_ok.1 h
    obtain ⟨⟨span, target, rfl⟩, -⟩ := run_increment_eq_ok he
    exact .inr ⟨by rw [hk]; rfl, _, rfl, nofun⟩
  · next h₁ h₂ h₃ h₄ =>
    obtain ⟨rfl, rfl⟩ := run_pure_eq_ok.1 h
    refine .inl ⟨?_, rfl, rfl⟩
    unfold isSuffixSign
    split <;> first | rfl | contradiction

omit hg in
/-- If a name comes out of the loop over suffixes, it went in, and there was none. -/
theorem suffixes_name {g : Grammar} (hs : g.Sound) {operand e : Expr} {s' : ParserState}
    (hended : s.Ended) (h : (loop (suffixTurn g) operand).run s = .ok (e, s'))
    (hname : e.name?.isSome) : isSuffixSign s.following = false ∧ e = operand := by
  rcases run_loop_eq_ok (suffixTurn_advances hs) hended h with hturn | ⟨a, s₁, hturn, hloop⟩
  · rcases suffixTurn_cases hturn with ⟨hk, hr, -⟩ | ⟨-, a, hr, -⟩ <;> cases hr
    exact ⟨hk, rfl⟩
  · rcases suffixTurn_cases hturn with ⟨-, hr, -⟩ | ⟨-, b, hr, hb⟩ <;> cases hr
    have hs₁ := (suffixTurn_advances hs hended hturn).1
    refine absurd hname (loop_induction (suffixTurn_advances hs)
      (P := fun a _ => ¬ a.name?.isSome) (Q := fun a _ => ¬ a.name?.isSome) ?_ ?_ hs₁ hb hloop)
    · intro a s₂ b s₃ ha _ hturn
      rcases suffixTurn_cases hturn with ⟨-, hr, -⟩ | ⟨-, c, hr, -⟩ <;> cases hr
      exact ha
    · intro a s₂ b s₃ _ _ hturn
      rcases suffixTurn_cases hturn with ⟨-, hr, -⟩ | ⟨-, c, hr, hc⟩ <;> cases hr
      exact hc

theorem suffixed_keepsName (h : Parallel q s t) : KeepsName (suffixed g) (suffixed g') s t := by
  intro e s' e' t' hr hr' hname
  obtain ⟨o, s₁, ho, hloop⟩ := run_bind_eq_ok.1 hr
  obtain ⟨o', t₁, ho', hloop'⟩ := run_bind_eq_ok.1 hr'
  have hs₁ := (hg.sound.primary h.ended ho).ended h.ended
  have ht₁ := (hg.sound'.primary h.ended' ho').ended h.ended'
  obtain ⟨hsign, rfl⟩ := suffixes_name hg.sound' ht₁ hloop' hname
  have honame := hg.primary_name h ho ho' hname
  rcases run_loop_eq_ok (suffixTurn_advances hg.sound) hs₁ hloop with hturn | ⟨a, s₂, hturn, -⟩
  · rcases suffixTurn_cases hturn with ⟨-, hr, -⟩ | ⟨-, b, hr, -⟩ <;> cases hr
    exact honame
  · -- a suffix of the first reading is one of the second
    rcases suffixTurn_cases hturn with ⟨-, hr, -⟩ | ⟨hsign', -⟩
    · cases hr
    · have hne := (suffixTurn_again hg.sound hs₁ hturn).1
      have hsettled : q.Settled true s₁ := .inl (.inl hne)
      obtain ⟨b, t₂, hb, -, hpost⟩ := (hg.primary h).ok ho hsettled
      rw [ho'] at hb
      cases hb
      rw [hpost.following_eq hsettled, hsign'] at hsign
      cases hsign

/-! ### Lists between brackets -/

theorem argumentTurn_follows {done done' : List Expr}
    (hd : done'.map Expr.bare = done.map Expr.bare) (h : Parallel q s t) :
    Follows q false (Parallel q) (Turn.map (List.map Expr.bare)) (argumentTurn g done)
      (argumentTurn g' done') s t := by
  refine (Follows.accept h (by simp)).bind h.ended fun more more' s₁ t₁ _ hmore h₁ => ?_
  obtain rfl : more' = more := hmore
  split
  · refine (Follows.kind h₁).bind h₁.ended fun k k' s₂ t₂ _ hk h₂ => ?_
    obtain rfl : k' = k := hk
    split
    · exact Follows.pure h₂ (congrArg Turn.done hd)
    · refine (hg.expression h₂).weaken.bind h₂.ended fun e e' s₃ t₃ _ he h₃ => ?_
      exact Follows.pure h₃ (congrArg Turn.again (by rw [List.map_cons, List.map_cons, he, hd]))
  · exact Follows.pure h₁ (congrArg Turn.done hd)

theorem arguments_follows (h : Parallel q s t) :
    Follows q false (Parallel q) (List.map Expr.bare) (arguments g) (arguments g') s t := by
  refine (Follows.kind h).bind h.ended fun k k' s₁ t₁ _ hk h₁ => ?_
  obtain rfl : k' = k := hk
  split
  · exact Follows.pure h₁ rfl
  · refine (hg.expression h₁).weaken.bind h₁.ended fun e e' s₂ t₂ _ he h₂ => ?_
    have hfirst : [e'].map Expr.bare = [e].map Expr.bare := congrArg (fun e => [e]) he
    refine (Follows.loop (argumentTurn_advances hg.sound) (argumentTurn_advances hg.sound')
      (argumentTurn_follows hg) hfirst h₂).bind h₂.ended fun es es' s₃ t₃ _ hes h₃ => ?_
    exact Follows.pure h₃ (by rw [List.map_reverse, List.map_reverse, hes])

theorem call_follows {callee callee' : Expr} (hc : callee'.bare = callee.bare)
    (h : Parallel q s t) :
    Follows q true (Parallel q) Expr.bare (call g callee) (call g' callee') s t := by
  refine (Follows.expect h (by simp) _ _).bind h.ended fun _ _ s₁ t₁ _ _ h₁ => ?_
  refine (Follows.inBrackets h₁ (arguments_follows hg)).bind_hungry h₁.ended
    (fun _ => (hungry_expect (by simp) _).bind _) fun es es' s₂ t₂ _ hes h₂ => ?_
  refine (Follows.expect h₂ (by simp) _ _).bind h₂.ended fun _ _ s₃ t₃ _ _ h₃ => ?_
  refine (Follows.spanFrom h₃ _ _).bind h₃.ended fun _ _ s₄ t₄ _ _ h₄ => ?_
  apply Follows.pure h₄
  simp only [Expr.bare, Expr.bareAll_eq_map, hc, hes]

omit hg in
/-- What stands between square brackets, without spans. -/
def Subscript.bare : Subscript → Subscript
  | .position value => .position value.bare
  | .stretch start stop step =>
    .stretch (start.map Expr.bare) (stop.map Expr.bare) (step.map Expr.bare)

theorem optional_follows {calm : Bool} (leftOut : Bool) (h : Parallel q s t) :
    Follows q calm (Parallel q) (Option.map Expr.bare) (optional g leftOut)
      (optional g' leftOut) s t := by
  unfold optional
  split
  · exact Follows.pure h rfl
  · rw [← bind_pure_comp, ← bind_pure_comp]
    refine ((hg.expression h).at_calm calm).bind h.ended fun e e' s₁ t₁ _ he h₁ => ?_
    exact Follows.pure h₁ (congrArg some he)

theorem stride_follows (h : Parallel q s t) :
    Follows q false (Parallel q) (Option.map Expr.bare) (stride g) (stride g') s t := by
  refine (Follows.accept h (by simp)).bind h.ended fun more more' s₁ t₁ _ hmore h₁ => ?_
  obtain rfl : more' = more := hmore
  split
  · refine (Follows.kind h₁).bind h₁.ended fun k k' s₂ t₂ _ hk h₂ => ?_
    obtain rfl : k' = k := hk
    exact optional_follows hg _ h₂
  · exact Follows.pure h₁ rfl

theorem stretch_follows {start start' : Option Expr}
    (hs : start'.map Expr.bare = start.map Expr.bare) (h : Parallel q s t) :
    Follows q false (Parallel q) Subscript.bare (stretch g start) (stretch g' start') s t := by
  rw [stretch_eq, stretch_eq]
  refine (Follows.kind h).bind h.ended fun k k' s₁ t₁ _ hk h₁ => ?_
  obtain rfl : k' = k := hk
  refine (optional_follows hg _ h₁).bind h₁.ended fun stop stop' s₂ t₂ _ hstop h₂ => ?_
  refine (stride_follows hg h₂).bind h₂.ended fun step step' s₃ t₃ _ hstep h₃ => ?_
  exact Follows.pure h₃ (by simp only [Subscript.bare, hs, hstop, hstep])

theorem subscript_follows (h : Parallel q s t) :
    Follows q false (Parallel q) Subscript.bare (subscript g) (subscript g') s t := by
  refine (Follows.accept h (by simp)).bind h.ended fun more more' s₁ t₁ _ hmore h₁ => ?_
  obtain rfl : more' = more := hmore
  split
  · exact stretch_follows hg rfl h₁
  · refine (hg.expression h₁).weaken.bind h₁.ended fun e e' s₂ t₂ _ he h₂ => ?_
    refine (Follows.accept h₂ (by simp)).bind h₂.ended fun more more' s₃ t₃ _ hmore h₃ => ?_
    obtain rfl : more' = more := hmore
    split
    · exact stretch_follows hg (congrArg some he) h₃
    · exact Follows.pure h₃ (congrArg Subscript.position he)

omit hg in
/-- What stands before a square bracket with what stands behind it. -/
def taken (target : Expr) : Subscript → Parser Expr
  | .position value => do
    let _ ← expect (.sign .rightBracket) .indexEnd
    return .index (← spanFrom target.span) target value
  | .stretch start stop step => do
    let _ ← expect (.sign .rightBracket) .sliceEnd
    return .slice (← spanFrom target.span) target start stop step

omit hg in
theorem hungry_taken (target : Expr) (u : Subscript) : (taken target u).Hungry := by
  cases u <;> exact (hungry_expect (by simp) _).bind _

theorem subscripted_follows {target target' : Expr} (ht : target'.bare = target.bare)
    (h : Parallel q s t) :
    Follows q true (Parallel q) Expr.bare (subscripted g target) (subscripted g' target') s t := by
  refine (Follows.expect h (by simp) _ _).bind h.ended fun _ _ s₁ t₁ _ _ h₁ => ?_
  refine (Follows.inBrackets h₁ (subscript_follows hg)).bind_hungry h₁.ended
    (hungry_taken target) fun u u' s₂ t₂ _ hu h₂ => ?_
  cases u with
  | position value =>
    cases u' with
    | stretch start stop step => cases hu
    | position value' =>
      refine (Follows.expect h₂ (by simp) _ _).bind h₂.ended fun _ _ s₃ t₃ _ _ h₃ => ?_
      refine (Follows.spanFrom h₃ _ _).bind h₃.ended fun _ _ s₄ t₄ _ _ h₄ => ?_
      apply Follows.pure h₄
      simp only [Expr.bare, ht, Subscript.position.inj hu]
  | stretch start stop step =>
    cases u' with
    | position value => cases hu
    | stretch start' stop' step' =>
      obtain ⟨h₅, h₆, h₇⟩ := Subscript.stretch.inj hu
      refine (Follows.expect h₂ (by simp) _ _).bind h₂.ended fun _ _ s₃ t₃ _ _ h₃ => ?_
      refine (Follows.spanFrom h₃ _ _).bind h₃.ended fun _ _ s₄ t₄ _ _ h₄ => ?_
      apply Follows.pure h₄
      simp only [Expr.bare, Expr.bareOption_eq_map, ht, h₅, h₆, h₇]

theorem suffixTurn_follows {operand operand' : Expr} (hop : operand'.bare = operand.bare)
    (h : Parallel q s t) :
    Follows q true (Parallel q) (Turn.map Expr.bare) (suffixTurn g operand)
      (suffixTurn g' operand') s t := by
  refine Follows.of_run_eq ?_ (run_suffixTurn g operand s) (run_suffixTurn g' operand' t)
  refine (Follows.following h).bind h.ended fun next next' s₁ t₁ hnext hsame h₁ => ?_
  cases hnext
  obtain rfl : next' = s.following := hsame
  -- an increment of what is no name is refused by both readings where they stand
  have hcount : ∀ direction, s.ahead ≠ [] →
      Follows q true (Parallel q) (Turn.map Expr.bare)
        (do pure (.again (← increment (← advance) operand direction .after)))
        (do pure (.again (← increment (← advance) operand' direction .after))) s t₁ := by
    intro direction hne
    by_cases hname : operand.name?.isSome
    · refine (Follows.advance h₁ hne).bind h₁.ended fun sign sign' s₂ t₂ _ _ h₂ => ?_
      refine (increment_follows hop hname sign sign' direction .after h₂).bind h₂.ended
        fun e e' s₃ t₃ _ he h₃ => ?_
      exact Follows.pure h₃ (congrArg Turn.again he)
    · have hname' : ¬ operand'.name?.isSome := by rwa [Expr.name?_eq_of_bare hop]
      refine Follows.of_run_eq
        (Follows.refuse (α := Turn Expr) hne operand.span operand'.span s.current t₁.current) ?_ ?_
      · rw [run_advance_bind, increment_of_not_name hname]
        rfl
      · rw [run_advance_bind, increment_of_not_name hname']
        rfl
  unfold suffixes
  split
  · next hk =>
    have hne := h.ended.ahead_ne_nil_of_following hk
    refine (call_follows hg hop h₁).bind h₁.ended fun e e' s₂ t₂ _ he h₂ => ?_
    exact Follows.pure h₂ (congrArg Turn.again he)
  · next hk =>
    have hne := h.ended.ahead_ne_nil_of_following hk
    refine (subscripted_follows hg hop h₁).bind h₁.ended fun e e' s₂ t₂ _ he h₂ => ?_
    exact Follows.pure h₂ (congrArg Turn.again he)
  · next hk => exact hcount .up (h.ended.ahead_ne_nil_of_following hk)
  · next hk => exact hcount .down (h.ended.ahead_ne_nil_of_following hk)
  · exact Follows.pure h₁ (congrArg Turn.done hop)

theorem suffixed_follows (h : Parallel q s t) :
    Follows q true (Parallel q) Expr.bare (suffixed g) (suffixed g') s t := by
  refine (hg.primary h).bind h.ended fun e e' s₁ t₁ _ he h₁ => ?_
  exact Follows.loop (suffixTurn_advances hg.sound) (suffixTurn_advances hg.sound')
    (suffixTurn_follows hg) he h₁

/-! ### Functions and operands -/

omit hg in
theorem parameterTurn_follows {closing : TokenKind} {done done' : List Text} (hd : done' = done)
    (h : Parallel q s t) :
    Follows q false (Parallel q) (Turn.map id) (parameterTurn closing done)
      (parameterTurn closing done') s t := by
  subst hd
  refine (Follows.accept h (by simp)).bind h.ended fun more more' s₁ t₁ _ hmore h₁ => ?_
  obtain rfl : more' = more := hmore
  split
  · refine (Follows.kind h₁).bind h₁.ended fun k k' s₂ t₂ _ hk h₂ => ?_
    obtain rfl : k' = k := hk
    split
    · exact Follows.pure h₂ rfl
    · refine (Follows.expectName h₂ _ _).bind h₂.ended fun n n' s₃ t₃ _ hn h₃ => ?_
      obtain rfl : n' = n := hn
      exact Follows.pure h₃ rfl
  · exact Follows.pure h₁ rfl

omit hg in
theorem parameters_follows (closing : TokenKind) (h : Parallel q s t) :
    Follows q false (Parallel q) id (parameters closing) (parameters closing) s t := by
  refine (Follows.kind h).bind h.ended fun k k' s₁ t₁ _ hk h₁ => ?_
  obtain rfl : k' = k := hk
  split
  · exact Follows.pure h₁ rfl
  · refine (Follows.expectName h₁ _ _).bind h₁.ended fun n n' s₂ t₂ _ hn h₂ => ?_
    obtain rfl : n' = n := hn
    refine (Follows.loop (parameterTurn_advances closing) (parameterTurn_advances closing)
      parameterTurn_follows rfl h₂).bind h₂.ended fun ns ns' s₃ t₃ _ hns h₃ => ?_
    exact Follows.pure h₃ (congrArg List.reverse hns)

theorem body_follows (h : Parallel q s t) :
    Follows q true (Parallel q) Block.bare (body g) (body g') s t := by
  by_cases hl : q.Live s
  · refine Follows.of_run_eq ?_ (run_kind_bind _) (run_kind_bind _)
    rw [h.kind_eq hl]
    split
    · next hk =>
      have hne := h.ended.ahead_ne_nil hk (by simp)
      refine (Follows.advance h hne).bind h.ended fun _ _ s₁ t₁ _ _ h₁ => ?_
      refine (Follows.outsideBrackets h₁ hg.expression).bind h₁.ended
        fun e e' s₂ t₂ _ he h₂ => ?_
      apply Follows.pure h₂
      simp only [Block.bare, Stmt.bareAll, Stmt.bare, Expr.bareOption, he]
    · exact hg.block h
  · obtain ⟨hnil, -⟩ := Sequel.not_live hl
    refine Follows.of_starved h.ended hl (hungry_of_reads (body_reads hg.sound)) fun {c} hr => ?_
    unfold body at hr
    rw [run_kind_bind, h.ended.current_kind_iff.2 hnil] at hr
    exact (hg.block h).waits hnil hr

theorem lambda_follows (h : Parallel q s t) :
    Follows q true (Parallel q) Expr.bare (lambda g) (lambda g') s t := by
  refine (Follows.expect h (by simp) _ _).bind h.ended fun _ _ s₁ t₁ _ _ h₁ => ?_
  refine (parameters_follows _ h₁).bind_hungry h₁.ended
    (fun _ => (hungry_expect (by simp) _).bind _) fun names names' s₂ t₂ _ hnames h₂ => ?_
  obtain rfl : names' = names := hnames
  refine (Follows.expect h₂ (by simp) _ _).bind h₂.ended fun _ _ s₃ t₃ _ _ h₃ => ?_
  refine (hg.body h₃).bind h₃.ended fun b b' s₄ t₄ _ hb h₄ => ?_
  refine (Follows.spanFrom h₄ _ _).bind h₄.ended fun _ _ s₅ t₅ _ _ h₅ => ?_
  apply Follows.pure h₅
  simp only [Expr.bare, hb]

theorem group_follows (h : Parallel q s t) (hne : s.ahead ≠ []) :
    Follows q true (Parallel q) Expr.bare (group g) (group g') s t := by
  refine (Follows.advance h hne).bind h.ended fun _ _ s₁ t₁ _ _ h₁ => ?_
  refine (Follows.inBrackets h₁ fun h => (hg.expression h).weaken).bind_hungry h₁.ended
    (fun _ => (hungry_expect (by simp) _).bind _) fun e e' s₂ t₂ _ he h₂ => ?_
  refine (Follows.expect h₂ (by simp) _ _).bind h₂.ended fun _ _ s₃ t₃ _ _ h₃ => ?_
  exact Follows.pure h₃ he

theorem primary_follows (h : Parallel q s t) :
    Follows q true (Parallel q) Expr.bare (primary g) (primary g') s t := by
  by_cases hl : q.Live s
  · have hcontent := h.content_eq hl
    have hne : s.current.content ≠ .endOfInput → s.ahead ≠ [] := fun hc =>
      h.ended.ahead_ne_nil rfl fun hk => hc (Token.kind_eq_endOfInput.1 hk)
    have hsingle : ∀ {e e' : Expr}, e'.bare = e.bare → s.ahead ≠ [] →
        Follows q true (Parallel q) Expr.bare (advance *> pure e) (advance *> pure e') s t := by
      intro e e' he hs
      have hbind : Follows q true (Parallel q) Expr.bare (advance >>= fun _ => pure e)
          (advance >>= fun _ => pure e') s t :=
        (Follows.advance h hs).bind h.ended fun _ _ _ _ _ _ h₁ => Follows.pure h₁ he
      exact Follows.of_run_eq hbind (run_advance_seq _) (run_advance_seq _)
    refine Follows.of_run_eq ?_ (run_current_bind _) (run_current_bind _)
    dsimp only
    rw [hcontent]
    split
    case h_8 hc => exact group_follows hg h (hne (by rw [hc]; simp))
    case h_9 => exact lambda_follows hg h
    case h_10 => exact Follows.fail h _ _
    all_goals
      next hc => exact hsingle rfl (hne (by rw [hc]; simp))
  · obtain ⟨hnil, -⟩ := Sequel.not_live hl
    refine Follows.of_starved h.ended hl (hungry_of_readsExpr (primary_reads hg.sound))
      fun {c} hr => ?_
    unfold primary at hr
    rw [run_current_bind, current_of_nil hnil, h.ended.finish] at hr
    exact Follows.not_final_of_starved h.ended hnil hr

/-- A group is what it holds, and the bracket behind that shows that the first reading has
not looked past its input. -/
theorem group_keepsName (h : Parallel q s t) (hne : s.ahead ≠ []) :
    KeepsName (group g) (group g') s t := by
  intro e s' e' t' hr hr' hname
  have h₁ := h.skip hne
  unfold group at hr hr'
  rw [run_advance_bind] at hr hr'
  obtain ⟨a, s₁, ha, hr⟩ := run_bind_eq_ok.1 hr
  obtain ⟨_, s₂, hexpect, hr⟩ := run_bind_eq_ok.1 hr
  obtain ⟨rfl, -⟩ := run_pure_eq_ok.1 hr
  obtain ⟨b, t₁, hb, hr'⟩ := run_bind_eq_ok.1 hr'
  obtain ⟨_, t₂, -, hr'⟩ := run_bind_eq_ok.1 hr'
  obtain ⟨rfl, -⟩ := run_pure_eq_ok.1 hr'
  have hin := Follows.inBrackets h₁ fun h => (hg.expression h).weaken
  have hs₁ : s₁.ahead ≠ [] := fun hnil =>
    hungry_expect (by simp) _ (hin.ended h₁.ended ha) hnil hexpect
  obtain ⟨b', t₃, hb', hview, -⟩ := hin.ok ha (.inl (.inl hs₁))
  rw [hb] at hb'
  cases hb'
  rwa [← Expr.name?_eq_of_bare hview]

omit hg in
theorem lambda_name? {e : Expr} {s' : ParserState} (h : (lambda g).run s = .ok (e, s')) :
    ¬ e.name?.isSome := by
  unfold lambda at h
  rw [run_expect_bind_eq_ok] at h
  obtain ⟨-, h⟩ := h
  obtain ⟨names, s₁, -, h⟩ := run_bind_eq_ok.1 h
  obtain ⟨_, s₂, -, h⟩ := run_bind_eq_ok.1 h
  obtain ⟨b, s₃, -, h⟩ := run_bind_eq_ok.1 h
  rw [run_spanFrom_bind] at h
  obtain ⟨rfl, -⟩ := run_pure_eq_ok.1 h
  nofun

theorem primary_keepsName (h : Parallel q s t) : KeepsName (primary g) (primary g') s t := by
  intro e s' e' t' hr hr' hname
  have hl := live_of_hungry (hungry_of_readsExpr (primary_reads hg.sound)) h hr
  have hcontent := h.content_eq hl
  unfold primary at hr hr'
  rw [run_current_bind] at hr hr'
  dsimp only at hr hr'
  rw [hcontent] at hr'
  split at hr'
  case h_7 name hc =>
    rw [hc] at hr
    cases hr
    rfl
  case h_8 hc =>
    rw [hc] at hr
    have hne := h.ended.ahead_ne_nil (k := .sign .leftParen) (by rw [Token.kind, hc]; rfl) (by simp)
    exact group_keepsName hg h hne hr hr' hname
  case h_9 => exact absurd hname (lambda_name? hr')
  case h_10 => rw [run_fail] at hr'; cases hr'
  all_goals
    cases hr'
    cases hname

end Expressions

end Rule

end ScriptLang
