import ScriptLang.Proofs.Grammar.Reads
import ScriptLang.Proofs.Tree.Bare

/-!
# Parsers on longer inputs

A list of tokens is read twice: alone, and with a sequel behind it. `Parallel` relates
the states of the two readings, `Follows` says how their results are related.

* A result of the first reading is one of the second if tokens are left ahead, so that
  the reading has not looked past its input, or if nothing that the reading looks for
  can begin the sequel (`Sequel.Calm`).
* A complaint that more input cannot mend, `Complaint.Final`, is repeated in some form.
* With nothing ahead, no such complaint arises.

The sequel may be empty. Then `Follows` says that neither spans nor a greater depth of
the grammar change what is read. The combinators of parsers keep `Follows`; the
intermediate states of the second reading are related by `mid`, which is `Parallel`
unless a statement ends in between.
-/

namespace ScriptLang

/-- A token without its place and without the text it was written as. -/
def Token.bare (t : Token) : Token := ⟨t.content, [], .nowhere, t.afterBreak⟩

theorem Token.content_eq_of_bare {t u : Token} (h : t.bare = u.bare) : t.content = u.content := by
  have := congrArg Token.content h
  exact this

theorem Token.afterBreak_eq_of_bare {t u : Token} (h : t.bare = u.bare) :
    t.afterBreak = u.afterBreak := by
  have := congrArg Token.afterBreak h
  exact this

/-- What follows a list of tokens in a longer one. -/
structure Sequel where
  rest : List Token
  /-- The end of the longer input. -/
  finish : Token
  finish_content : finish.content = .endOfInput
  rest_content : ∀ t ∈ rest, t.content ≠ .endOfInput

/-- The sequel begins on a line of its own, and not with a word that goes on with a
statement behind its end. -/
def Sequel.Calm (q : Sequel) : Prop :=
  ∀ t ∈ q.rest.head?, t.afterBreak = true ∧ t.kind ≠ .keyword .elseWord ∧ t.kind ≠ .sign .comma

/-- A complaint that more tokens at the end do not mend. -/
def Complaint.Final (c : Complaint) : Prop := c.cause.code = "E101" ∨ c.cause.code = "E104"

/-- A complaint that a reading with the sequel repeats in some form. -/
def Sequel.Lasts (q : Sequel) (c : Complaint) : Prop :=
  c.Final ∨ (q.rest = [] ∧ c.cause ≠ .nestedTooDeeply)

open ParserState ScriptLang.Parser

/-- The tokens ahead of `t` are, up to spans, those ahead of `s` and then the sequel. -/
structure Parallel (q : Sequel) (s t : ParserState) : Prop where
  ended : s.Ended
  ended' : t.Ended
  brackets : t.brackets = s.brackets
  ahead : t.ahead.map Token.bare = (s.ahead ++ q.rest).map Token.bare

/-- The token ahead is the same in both readings. -/
def Sequel.Live (q : Sequel) (s : ParserState) : Prop := s.ahead ≠ [] ∨ q.rest = []

/-- The sequel has no influence on a reading that ends here. -/
def Sequel.Settled (q : Sequel) (calm : Bool) (s : ParserState) : Prop :=
  q.Live s ∨ (calm = true ∧ q.Calm ∧ s.brackets = 0)

section State

variable {q : Sequel} {s t : ParserState} {calm : Bool}

theorem Sequel.Live.settled (h : q.Live s) : q.Settled calm s := .inl h

theorem Sequel.not_live (h : ¬ q.Live s) : s.ahead = [] ∧ q.rest ≠ [] := by
  obtain ⟨hs, hq⟩ := not_or.1 h
  exact ⟨Classical.not_not.1 hs, hq⟩

theorem Sequel.Settled.live (h : q.Settled false s) : q.Live s :=
  h.resolve_right fun h => absurd h.1 (by decide)

namespace Parallel

theorem skip (h : Parallel q s t) (hs : s.ahead ≠ []) : Parallel q s.skip t.skip := by
  obtain ⟨x, xs, hx⟩ := List.exists_cons_of_ne_nil hs
  have ht := h.ahead
  rw [hx, List.cons_append, List.map_cons, List.map_eq_cons_iff] at ht
  obtain ⟨y, ys, hy, -, hys⟩ := ht
  exact ⟨h.ended.skip, h.ended'.skip, by simp [h.brackets],
    by rw [skip_of_cons hx, skip_of_cons hy]; exact hys⟩

theorem current_bare (h : Parallel q s t) (hs : s.ahead ≠ []) :
    t.current.bare = s.current.bare := by
  obtain ⟨x, xs, hx⟩ := List.exists_cons_of_ne_nil hs
  have ht := h.ahead
  rw [hx, List.cons_append, List.map_cons, List.map_eq_cons_iff] at ht
  obtain ⟨y, ys, hy, hxy, -⟩ := ht
  rw [current_of_cons hx, current_of_cons hy, hxy]

theorem ahead_eq_nil (h : Parallel q s t) (hs : s.ahead = []) (hq : q.rest = []) :
    t.ahead = [] := by
  have ht := h.ahead
  rw [hs, hq] at ht
  exact List.map_eq_nil_iff.1 ht

theorem content_eq (h : Parallel q s t) (hl : q.Live s) :
    t.current.content = s.current.content := by
  by_cases hs : s.ahead = []
  · have hq := hl.resolve_left (by simpa using hs)
    rw [current_of_nil hs, current_of_nil (h.ahead_eq_nil hs hq), h.ended.finish,
      h.ended'.finish]
  · exact Token.content_eq_of_bare (h.current_bare hs)

theorem kind_eq (h : Parallel q s t) (hl : q.Live s) : t.current.kind = s.current.kind :=
  congrArg Token.Content.kind (h.content_eq hl)

theorem afterBreak_eq (h : Parallel q s t) (hs : s.ahead ≠ []) :
    t.current.afterBreak = s.current.afterBreak :=
  Token.afterBreak_eq_of_bare (h.current_bare hs)

theorem withBrackets (h : Parallel q s t) {m n : Nat} (hn : n = m) :
    Parallel q { s with brackets := m } { t with brackets := n } :=
  ⟨h.ended.withBrackets m, h.ended'.withBrackets n, hn, h.ahead⟩

/-- With nothing ahead but a sequel, the second reading sees the sequel. -/
theorem head_of_not_live (h : Parallel q s t) (hl : ¬ q.Live s) :
    ∃ u ∈ q.rest.head?, t.current.kind = u.kind ∧ t.current.afterBreak = u.afterBreak := by
  obtain ⟨hs, hq⟩ := Sequel.not_live hl
  obtain ⟨u, us, hu⟩ := List.exists_cons_of_ne_nil hq
  have ht := h.ahead
  rw [hs, hu, List.nil_append, List.map_cons, List.map_eq_cons_iff] at ht
  obtain ⟨y, ys, hy, hxy, -⟩ := ht
  refine ⟨u, by rw [hu]; rfl, ?_, ?_⟩
  · rw [current_of_cons hy]
    exact congrArg Token.Content.kind (Token.content_eq_of_bare hxy)
  · rw [current_of_cons hy]
    exact Token.afterBreak_eq_of_bare hxy

end Parallel

theorem exists_parallel (q : Sequel) (hs : s.Ended) : ∃ t, Parallel q s t := by
  refine ⟨⟨s.ahead ++ q.rest, q.finish, s.lastStop, s.brackets⟩, hs,
    ⟨q.finish_content, fun t ht => ?_⟩, rfl, rfl⟩
  rcases List.mem_append.1 ht with ht | ht
  · exact hs.ahead t ht
  · exact q.rest_content t ht

end State

/-- The kind of the token that may go on with the line, if there is one. -/
def ParserState.following (s : ParserState) : Option TokenKind :=
  if s.onSameLine && s.current.kind ≠ .endOfInput then some s.current.kind else none

/-- The kind of the token that may go on with the line, if there is one. -/
def Parser.following : Parser (Option TokenKind) := return (← get).following

/-- A turn seen through a view of what it carries. -/
def Turn.map {α β : Type} (view : α → β) : Turn α → Turn β
  | .again a => .again (view a)
  | .done a => .done (view a)

theorem Parallel.following_eq {q : Sequel} {s t : ParserState} {calm : Bool}
    (h : Parallel q s t) (hs : q.Settled calm s) : t.following = s.following := by
  unfold ParserState.following
  by_cases hnil : s.ahead = []
  · rw [h.ended.current_kind_iff.2 hnil]
    rcases hs with hl | ⟨-, hcalm, hb⟩
    · rw [h.kind_eq hl, h.ended.current_kind_iff.2 hnil]
      simp
    · by_cases hl : q.Live s
      · rw [h.kind_eq hl, h.ended.current_kind_iff.2 hnil]
        simp
      · obtain ⟨u, hu, -, hbreak⟩ := h.head_of_not_live hl
        simp [ParserState.onSameLine, hbreak, (hcalm u hu).1, h.brackets, hb]
  · rw [ParserState.onSameLine, ParserState.onSameLine, h.brackets, h.afterBreak_eq hnil,
      h.kind_eq (.inl hnil)]

theorem ParserState.Ended.endsStatement {s : ParserState} (h : s.Ended) (hnil : s.ahead = []) :
    endsStatement s = true := by
  simp [Parser.endsStatement, h.current_kind_iff.2 hnil]

theorem Parallel.endsStatement_eq {q : Sequel} {s t : ParserState} {calm : Bool}
    (h : Parallel q s t) (hs : q.Settled calm s) : endsStatement t = endsStatement s := by
  by_cases hl : q.Live s
  · by_cases hnil : s.ahead = []
    · rw [h.ended.endsStatement hnil]
      simp [endsStatement, h.kind_eq hl, h.ended.current_kind_iff.2 hnil]
    · unfold endsStatement
      rw [h.kind_eq hl, h.afterBreak_eq hnil]
  · obtain ⟨-, hcalm, -⟩ := hs.resolve_left hl
    obtain ⟨u, hu, -, hbreak⟩ := h.head_of_not_live hl
    rw [h.ended.endsStatement (Sequel.not_live hl).1]
    simp [endsStatement, hbreak, (hcalm u hu).1]

/-! ### Two readings -/

/-- The second reading, of `p'` from `t`, follows the first one, of `p` from `s`. What
is told apart about results is given by `view`, and `post` relates the states behind
them. -/
structure Follows {α β : Type} (q : Sequel) (calm : Bool)
    (post : ParserState → ParserState → Prop) (view : α → β) (p p' : Parser α)
    (s t : ParserState) : Prop where
  ok : ∀ {a s'}, p.run s = .ok (a, s') → q.Settled calm s' →
    ∃ b t', p'.run t = .ok (b, t') ∧ view b = view a ∧ post s' t'
  error : ∀ {c}, p.run s = .error c → q.Lasts c → ∃ c', p'.run t = .error c'
  waits : s.ahead = [] → ∀ {c}, p.run s = .error c → ¬ c.Final
  leaves : ∀ {a s'}, p.run s = .ok (a, s') →
    s'.ahead <:+ s.ahead ∧ s'.finish = s.finish ∧ s'.brackets = s.brackets

/-- With nothing ahead a parser complains. -/
def Parser.Hungry {α : Type} (p : Parser α) : Prop :=
  ∀ ⦃s a s'⦄, s.Ended → s.ahead = [] → p.run s ≠ .ok (a, s')

section Hungry

variable {α β : Type} {p : Parser α} {f : α → Parser β}

theorem hungry_of_reads {regular : α → Prop} {placed : Place → α → List (Place × Stmt)}
    (h : p.Reads regular placed) : p.Hungry := by
  intro s a s' hs hnil hp
  have hlt := (h hs hp .outside).lt
  rw [hnil] at hlt
  exact Nat.not_lt_zero _ hlt

theorem hungry_of_readsExpr {p : Parser Expr} (h : p.ReadsExpr) : p.Hungry := by
  intro s a s' hs hnil hp
  have hlt := (h hs hp).lt
  rw [hnil] at hlt
  exact Nat.not_lt_zero _ hlt

theorem hungry_expect {k : TokenKind} (hk : k ≠ .endOfInput) (e : Expectation) :
    (expect k e).Hungry := by
  intro s a s' hs hnil hp
  obtain ⟨hc, -⟩ := run_expect_eq_ok.1 hp
  exact hs.ahead_ne_nil hc hk hnil

theorem hungry_expectName (e : Expectation) : (expectName e).Hungry := by
  intro s a s' hs hnil hp
  obtain ⟨hname, -⟩ := run_expectName_eq_ok.1 hp
  rw [current_of_nil hnil, hs.finish] at hname
  cases hname

theorem Parser.Hungry.bind (h : p.Hungry) (f : α → Parser β) : (p >>= f).Hungry := by
  intro s a s' hs hnil hp
  obtain ⟨b, s₁, hp, -⟩ := run_bind_eq_ok.1 hp
  exact h hs hnil hp

theorem hungry_kind_bind {f : TokenKind → Parser β} (h : ∀ k, (f k).Hungry) :
    (kind >>= f).Hungry :=
  fun s _ _ hs hnil hp => h s.current.kind hs hnil hp

theorem hungry_fail (e : Expectation) : (fail e : Parser α).Hungry := by
  intro s a s' _ _ hp
  rw [run_fail] at hp
  cases hp

end Hungry

namespace Follows

variable {α β γ δ : Type} {q : Sequel} {calm : Bool} {mid post : ParserState → ParserState → Prop}
  {view : α → β} {view' : γ → δ} {p p' : Parser α} {f f' : α → Parser γ} {s t : ParserState}

theorem ended (h : Follows q calm post view p p' s t) (hs : s.Ended) {a : α} {s' : ParserState}
    (hp : p.run s = .ok (a, s')) : s'.Ended :=
  hs.of_suffix (h.leaves hp).2.1 (h.leaves hp).1

/-- Nothing ahead stays nothing ahead. -/
theorem ahead_eq_nil (h : Follows q calm post view p p' s t) (hs : s.ahead = []) {a : α}
    {s' : ParserState} (hp : p.run s = .ok (a, s')) : s'.ahead = [] := by
  have := (h.leaves hp).1
  rw [hs] at this
  exact List.suffix_nil.1 this

theorem settled_of_settled (h : Follows q calm post view p p' s t) {a : α} {s' : ParserState}
    (hp : p.run s = .ok (a, s')) (hs' : q.Settled calm s') : q.Settled calm s := by
  rcases hs' with (hne | hq) | ⟨hc, hcalm, hb⟩
  · exact .inl (.inl fun hs => hne (h.ahead_eq_nil hs hp))
  · exact .inl (.inr hq)
  · exact .inr ⟨hc, hcalm, by rw [← (h.leaves hp).2.2]; exact hb⟩

/-- One parser and then another. The first has to be settled, by `calm₁`, whenever both
together are. -/
theorem bind_of_settled {calm₁ : Bool} (h : Follows q calm₁ mid view p p' s t) (hs : s.Ended)
    (hmid : ∀ {s t}, Parallel q s t → mid s t)
    (hf : ∀ a b s₁ t₁, p.run s = .ok (a, s₁) → view b = view a → mid s₁ t₁ →
      Follows q calm post view' (f a) (f' b) s₁ t₁)
    (hsettled : ∀ a s₁ c s', p.run s = .ok (a, s₁) → (f a).run s₁ = .ok (c, s') →
      q.Settled calm s' → q.Settled calm₁ s₁) :
    Follows q calm post view' (p >>= f) (p' >>= f') s t := by
  -- where the second reading is lost, the rest of the first one is compared with a reading
  -- of its own kind
  have halone : ∀ {a s₁}, p.run s = .ok (a, s₁) →
      ∃ t₁, Follows q calm post view' (f a) (f' a) s₁ t₁ := by
    intro a s₁ hp
    obtain ⟨t₁, ht₁⟩ := exists_parallel q (h.ended hs hp)
    exact ⟨t₁, hf a a s₁ t₁ hp rfl (hmid ht₁)⟩
  constructor
  · intro c s' hr hs'
    obtain ⟨a, s₁, hp, hfa⟩ := run_bind_eq_ok.1 hr
    obtain ⟨b, t₁, hp', hview, hpost⟩ := h.ok hp (hsettled a s₁ c s' hp hfa hs')
    obtain ⟨d, t', hfb, hd⟩ := (hf a b s₁ t₁ hp hview hpost).ok hfa hs'
    exact ⟨d, t', run_bind_eq_ok.2 ⟨b, t₁, hp', hfb⟩, hd⟩
  · intro c hr hc
    rcases run_bind_eq_error.1 hr with hp | ⟨a, s₁, hp, hfa⟩
    · obtain ⟨c', hp'⟩ := h.error hp hc
      exact ⟨c', run_bind_of_error hp' f'⟩
    · by_cases hl : q.Live s₁
      · obtain ⟨b, t₁, hp', hview, hpost⟩ := h.ok hp hl.settled
        obtain ⟨c', hfb⟩ := (hf a b s₁ t₁ hp hview hpost).error hfa hc
        exact ⟨c', by rw [run_bind_of_ok hp', hfb]⟩
      · obtain ⟨hs₁, hq⟩ := Sequel.not_live hl
        obtain ⟨t₁, ht₁⟩ := halone hp
        exact absurd (hc.resolve_right fun h => hq h.1) (ht₁.waits hs₁ hfa)
  · intro hnil c hr
    rcases run_bind_eq_error.1 hr with hp | ⟨a, s₁, hp, hfa⟩
    · exact h.waits hnil hp
    · obtain ⟨t₁, ht₁⟩ := halone hp
      exact ht₁.waits (h.ahead_eq_nil hnil hp) hfa
  · intro c s' hr
    obtain ⟨a, s₁, hp, hfa⟩ := run_bind_eq_ok.1 hr
    obtain ⟨t₁, ht₁⟩ := halone hp
    obtain ⟨h₁, h₂, h₃⟩ := h.leaves hp
    obtain ⟨h₄, h₅, h₆⟩ := ht₁.leaves hfa
    exact ⟨h₄.trans h₁, h₅.trans h₂, h₆.trans h₃⟩

theorem bind_mid (h : Follows q calm mid view p p' s t) (hs : s.Ended)
    (hmid : ∀ {s t}, Parallel q s t → mid s t)
    (hf : ∀ a b s₁ t₁, p.run s = .ok (a, s₁) → view b = view a → mid s₁ t₁ →
      Follows q calm post view' (f a) (f' b) s₁ t₁) :
    Follows q calm post view' (p >>= f) (p' >>= f') s t := by
  refine h.bind_of_settled hs hmid hf fun a s₁ c s' hp hfa hs' => ?_
  obtain ⟨t₁, ht₁⟩ := exists_parallel q (h.ended hs hp)
  exact (hf a a s₁ t₁ hp rfl (hmid ht₁)).settled_of_settled hfa hs'

theorem bind (h : Follows q calm (Parallel q) view p p' s t) (hs : s.Ended)
    (hf : ∀ a b s₁ t₁, p.run s = .ok (a, s₁) → view b = view a → Parallel q s₁ t₁ →
      Follows q calm post view' (f a) (f' b) s₁ t₁) :
    Follows q calm post view' (p >>= f) (p' >>= f') s t :=
  h.bind_mid hs id hf

/-- What comes before a hungry parser need not be settled at the end of the input. -/
theorem bind_hungry (h : Follows q false (Parallel q) view p p' s t) (hs : s.Ended)
    (hhungry : ∀ a, (f a).Hungry)
    (hf : ∀ a b s₁ t₁, p.run s = .ok (a, s₁) → view b = view a → Parallel q s₁ t₁ →
      Follows q calm post view' (f a) (f' b) s₁ t₁) :
    Follows q calm post view' (p >>= f) (p' >>= f') s t :=
  h.bind_of_settled hs id hf fun a _ _ _ hp hfa _ =>
    .inl (.inl fun hnil => hhungry a (h.ended hs hp) hnil hfa)

/-! ### Looking ahead and moving on -/

section Primitives

variable {a b : α}

theorem of_run_eq {r r' : Parser α} (h : Follows q calm post view r r' s t)
    (hp : p.run s = r.run s) (hp' : p'.run t = r'.run t) :
    Follows q calm post view p p' s t :=
  ⟨by rw [hp, hp']; exact h.ok, by rw [hp, hp']; exact h.error, by rw [hp]; exact h.waits,
    by rw [hp]; exact h.leaves⟩

theorem pure (hpost : post s t) (hview : view b = view a) :
    Follows q calm post view (pure a) (pure b) s t := by
  constructor
  · intro c s' h _
    obtain ⟨rfl, rfl⟩ := run_pure_eq_ok.1 h
    exact ⟨b, t, rfl, hview, hpost⟩
  · nofun
  · nofun
  · intro c s' h
    obtain ⟨rfl, rfl⟩ := run_pure_eq_ok.1 h
    exact ⟨List.suffix_rfl, rfl, rfl⟩

/-- Past the end of its input the first reading says nothing about the second one. -/
theorem pure_of_not_live (hl : ¬ q.Live s) : Follows q false post view (Pure.pure a) p' s t := by
  constructor
  · intro c s' h hs'
    obtain ⟨rfl, rfl⟩ := run_pure_eq_ok.1 h
    exact absurd hs'.live hl
  · nofun
  · nofun
  · intro c s' h
    obtain ⟨rfl, rfl⟩ := run_pure_eq_ok.1 h
    exact ⟨List.suffix_rfl, rfl, rfl⟩

/-- Where the first reading complains, the second one need only do so too. -/
theorem of_error {c c' : Complaint} (hp : p.run s = .error c) (hp' : p'.run t = .error c')
    (hc : s.ahead = [] → ¬ c.Final) : Follows q calm post view p p' s t := by
  constructor
  · intro a s' h
    rw [hp] at h
    cases h
  · exact fun _ _ => ⟨c', hp'⟩
  · intro hs d h
    rw [hp] at h
    cases h
    exact hc hs
  · intro a s' h
    rw [hp] at h
    cases h

theorem not_final_of_starved (hs : s.Ended) (hnil : s.ahead = []) {e : Expectation}
    {c : Complaint} (h : (fail e : Parser α).run s = .error c) : ¬ c.Final := by
  rw [run_fail, if_pos (hs.current_kind_iff.2 hnil)] at h
  cases h
  have hcode : ("E102" : Text) ≠ "E101" ∧ ("E102" : Text) ≠ "E104" := by decide
  exact fun h => h.elim hcode.1 hcode.2

theorem fail (h : Parallel q s t) (e e' : Expectation) :
    Follows q calm post view (fail e) (fail e') s t :=
  of_error (run_fail e) (run_fail e') fun hs =>
    not_final_of_starved (α := α) h.ended hs (run_fail e)

/-- A hungry parser that has nothing ahead but a sequel. -/
theorem of_starved (hs : s.Ended) (hl : ¬ q.Live s) (hp : p.Hungry)
    (hwaits : ∀ {c}, p.run s = .error c → ¬ c.Final) : Follows q calm post view p p' s t := by
  obtain ⟨hnil, hq⟩ := Sequel.not_live hl
  constructor
  · intro a s' h
    exact absurd h (hp hs hnil)
  · intro c h hc
    exact absurd (hc.resolve_right fun h => hq h.1) (hwaits h)
  · exact fun _ _ => hwaits
  · intro a s' h
    exact absurd h (hp hs hnil)

theorem refuse (hs : s.ahead ≠ []) (target target' : Span) (start start' : Token) :
    Follows q calm post view (refuseTarget target start) (refuseTarget target' start') s t :=
  of_error (run_refuseTarget target start) (run_refuseTarget target' start') fun h =>
    absurd h hs

theorem kind (h : Parallel q s t) : Follows q false (Parallel q) id kind kind s t := by
  constructor
  · intro k s' hr hs'
    cases hr
    exact ⟨_, _, rfl, h.kind_eq hs'.live, h⟩
  · nofun
  · nofun
  · intro k s' hr
    cases hr
    exact ⟨List.suffix_rfl, rfl, rfl⟩

theorem spanFrom (hpost : post s t) (start start' : Span) :
    Follows q calm post (fun _ => ()) (spanFrom start) (spanFrom start') s t := by
  constructor
  · intro c s' h _
    cases h
    exact ⟨_, _, rfl, rfl, hpost⟩
  · nofun
  · nofun
  · intro c s' h
    cases h
    exact ⟨List.suffix_rfl, rfl, rfl⟩

theorem advance (h : Parallel q s t) (hs : s.ahead ≠ []) :
    Follows q calm (Parallel q) (fun _ => ()) advance advance s t := by
  constructor
  · intro c s' hr _
    cases hr
    exact ⟨_, _, rfl, rfl, h.skip hs⟩
  · nofun
  · nofun
  · intro c s' hr
    cases hr
    have := Leaves.skip s
    exact ⟨this.ahead, this.finish, this.brackets⟩

theorem expect (h : Parallel q s t) {k : TokenKind} (hk : k ≠ .endOfInput)
    (e e' : Expectation) :
    Follows q calm (Parallel q) (fun _ => ()) (expect k e) (expect k e') s t := by
  by_cases hl : q.Live s
  · unfold Parser.expect
    by_cases hc : s.current.kind = k
    · have hs := h.ended.ahead_ne_nil hc hk
      refine of_run_eq (advance h hs) ?_ ?_
      · rw [run_kind_bind, if_pos hc]
      · rw [run_kind_bind, if_pos (by rw [h.kind_eq hl, hc])]
    · refine of_run_eq (Follows.fail h e e') ?_ ?_
      · rw [run_kind_bind, if_neg hc]
      · rw [run_kind_bind, if_neg (by rwa [h.kind_eq hl])]
  · refine of_starved h.ended hl (fun s a s' hs hnil hr => ?_) fun {c} hr => ?_
    · obtain ⟨hc, -⟩ := run_expect_eq_ok.1 hr
      exact hs.ahead_ne_nil hc hk hnil
    · obtain ⟨hnil, -⟩ := Sequel.not_live hl
      unfold Parser.expect at hr
      rw [run_kind_bind, if_neg fun hc => h.ended.ahead_ne_nil hc hk hnil] at hr
      exact not_final_of_starved h.ended hnil hr

theorem expectName (h : Parallel q s t) (e e' : Expectation) :
    Follows q calm (Parallel q) id (expectName e) (expectName e') s t := by
  have hfail : ∀ {u : ParserState} {e : Expectation},
      (∀ name, u.current.content ≠ .identifier name) →
      (Parser.expectName e).run u = (Parser.fail e : Parser Text).run u := by
    intro u e hc
    unfold Parser.expectName
    rw [run_current_bind]
    split
    · next name hname => exact absurd hname (hc name)
    · rfl
  by_cases hl : q.Live s
  · have hcontent := h.content_eq hl
    by_cases hc : ∃ name, s.current.content = .identifier name
    · obtain ⟨name, hname⟩ := hc
      have hs : s.ahead ≠ [] := h.ended.ahead_ne_nil rfl (by rw [Token.kind, hname]; nofun)
      refine of_run_eq ((advance h hs).bind h.ended fun a b s₁ t₁ _ _ h₁ =>
        pure (a := name) (b := name) h₁ rfl) ?_ ?_
      · exact run_expectName_eq_ok.2 ⟨hname, rfl⟩
      · exact run_expectName_eq_ok.2 ⟨by rw [hcontent, hname], rfl⟩
    · have hc := not_exists.1 hc
      exact of_run_eq (Follows.fail h e e') (hfail hc) (hfail (by rwa [hcontent]))
  · obtain ⟨hnil, -⟩ := Sequel.not_live hl
    have hc : ∀ name, s.current.content ≠ .identifier name := by
      intro name hname
      rw [current_of_nil hnil, h.ended.finish] at hname
      cases hname
    refine of_starved h.ended hl (fun s a s' hs hnil hr => ?_) fun {c} hr => ?_
    · obtain ⟨hname, -⟩ := run_expectName_eq_ok.1 hr
      rw [current_of_nil hnil, hs.finish] at hname
      cases hname
    · rw [hfail hc] at hr
      exact not_final_of_starved h.ended hnil hr

/-- The first reading reads no token of a kind where it has none; the second one must not
either, or its state does not matter. -/
theorem accept_of_settled (h : Parallel q s t) {k : TokenKind} (hk : k ≠ .endOfInput)
    (hcalm : ¬ q.Live s → q.Settled calm s → t.current.kind ≠ k) :
    Follows q calm (Parallel q) id (accept k) (accept k) s t := by
  have hrun : ∀ u : ParserState, (Parser.accept k).run u =
      if u.current.kind = k then .ok (true, u.skip) else .ok (false, u) := by
    intro u
    rw [← bind_pure (Parser.accept k), run_accept_bind]
    rfl
  by_cases hc : s.current.kind = k
  · have hs := h.ended.ahead_ne_nil hc hk
    have hc' : t.current.kind = k := by rw [h.kind_eq (.inl hs), hc]
    refine of_run_eq ((advance h hs).bind h.ended fun _ _ _ _ _ _ h₁ =>
      pure (a := true) (b := true) h₁ rfl) ?_ ?_
    · rw [hrun, if_pos hc]; rfl
    · rw [hrun, if_pos hc']; rfl
  · constructor
    · intro a s' hr hs'
      rw [hrun, if_neg hc] at hr
      cases hr
      refine ⟨false, t, ?_, rfl, h⟩
      rw [hrun, if_neg]
      by_cases hl : q.Live s
      · rwa [h.kind_eq hl]
      · exact hcalm hl hs'
    · intro c hr
      rw [hrun, if_neg hc] at hr
      cases hr
    · intro _ c hr
      rw [hrun, if_neg hc] at hr
      cases hr
    · intro a s' hr
      rw [hrun, if_neg hc] at hr
      cases hr
      exact ⟨List.suffix_rfl, rfl, rfl⟩

theorem accept (h : Parallel q s t) {k : TokenKind} (hk : k ≠ .endOfInput) :
    Follows q false (Parallel q) id (accept k) (accept k) s t :=
  accept_of_settled h hk fun hl hs => absurd hs.live hl

/-- No calm sequel begins with what may go on with a statement behind its end. -/
theorem accept_calm (h : Parallel q s t) {k : TokenKind}
    (hk : k = .keyword .elseWord ∨ k = .sign .comma) :
    Follows q calm (Parallel q) id (Parser.accept k) (Parser.accept k) s t := by
  refine accept_of_settled h (by rcases hk with rfl | rfl <;> simp) fun hl hs => ?_
  obtain ⟨-, hcalm, -⟩ := hs.resolve_left hl
  obtain ⟨u, hu, hkind, -⟩ := h.head_of_not_live hl
  obtain ⟨-, helse, hcomma⟩ := hcalm u hu
  rw [hkind]
  rcases hk with rfl | rfl
  · exact helse
  · exact hcomma

theorem following (h : Parallel q s t) :
    Follows q calm (Parallel q) id following following s t := by
  constructor
  · intro k s' hr hs'
    cases hr
    exact ⟨_, _, rfl, h.following_eq hs', h⟩
  · nofun
  · nofun
  · intro k s' hr
    cases hr
    exact ⟨List.suffix_rfl, rfl, rfl⟩

end Primitives

/-! ### Brackets -/

theorem inBrackets (h : Parallel q s t)
    (hp : ∀ {s t}, Parallel q s t → Follows q false (Parallel q) view p p' s t) :
    Follows q false (Parallel q) view (inBrackets p) (inBrackets p') s t := by
  have hp := hp (h.withBrackets (m := s.brackets + 1) (n := t.brackets + 1)
    (by rw [h.brackets]))
  constructor
  · intro a s' hr hs'
    obtain ⟨s₁, hrun, rfl⟩ := run_inBrackets_eq_ok.1 hr
    obtain ⟨b, t₁, hr', hview, hpost⟩ := hp.ok hrun (.inl hs'.live)
    refine ⟨b, _, run_inBrackets_eq_ok.2 ⟨t₁, hr', rfl⟩, hview, ?_⟩
    exact hpost.withBrackets (by rw [hpost.brackets])
  · intro c hr hc
    rw [run_inBrackets] at hr
    split at hr <;> cases hr
    next hr =>
      obtain ⟨c', hr'⟩ := hp.error hr hc
      exact ⟨c', by rw [run_inBrackets, hr']⟩
  · intro hs c hr
    rw [run_inBrackets] at hr
    split at hr <;> cases hr
    next hr => exact hp.waits hs hr
  · intro a s' hr
    obtain ⟨s₁, hrun, rfl⟩ := run_inBrackets_eq_ok.1 hr
    obtain ⟨h₁, h₂, h₃⟩ := hp.leaves hrun
    exact ⟨h₁, h₂, by rw [h₃]; rfl⟩

theorem outsideBrackets (h : Parallel q s t)
    (hp : ∀ {s t}, Parallel q s t → Follows q calm (Parallel q) view p p' s t) :
    Follows q calm (Parallel q) view (outsideBrackets p) (outsideBrackets p') s t := by
  have hp := hp (h.withBrackets (m := 0) (n := 0) rfl)
  constructor
  · intro a s' hr hs'
    obtain ⟨s₁, hrun, rfl⟩ := run_outsideBrackets_eq_ok.1 hr
    have hs₁ : q.Settled calm s₁ := hs'.imp id fun h => ⟨h.1, h.2.1, (hp.leaves hrun).2.2⟩
    obtain ⟨b, t₁, hr', hview, hpost⟩ := hp.ok hrun hs₁
    exact ⟨b, _, run_outsideBrackets_eq_ok.2 ⟨t₁, hr', rfl⟩, hview,
      hpost.withBrackets h.brackets⟩
  · intro c hr hc
    rw [run_outsideBrackets] at hr
    split at hr <;> cases hr
    next hr =>
      obtain ⟨c', hr'⟩ := hp.error hr hc
      exact ⟨c', by rw [run_outsideBrackets, hr']⟩
  · intro hs c hr
    rw [run_outsideBrackets] at hr
    split at hr <;> cases hr
    next hr => exact hp.waits hs hr
  · intro a s' hr
    obtain ⟨s₁, hrun, rfl⟩ := run_outsideBrackets_eq_ok.1 hr
    obtain ⟨h₁, h₂, -⟩ := hp.leaves hrun
    exact ⟨h₁, h₂, rfl⟩

/-! ### Loops -/

theorem loop {view : α → β} {turn turn' : α → Parser (Turn α)} (ht : Advances turn)
    (ht' : Advances turn')
    (hturn : ∀ {a b s t}, view b = view a → Parallel q s t →
      Follows q calm (Parallel q) (Turn.map view) (turn a) (turn' b) s t)
    {a b : α} {s t : ParserState} (hview : view b = view a) (h : Parallel q s t) :
    Follows q calm (Parallel q) view (loop turn a) (loop turn' b) s t := by
  refine of_run_eq (bind (hturn hview h) h.ended fun r r' s₁ t₁ hr hrr h₁ => ?_)
    (run_loop ht h.ended a) (run_loop ht' h.ended' b)
  cases r with
  | done c =>
    cases r' with
    | done d => exact pure h₁ (Turn.done.inj hrr)
    | again d => cases hrr
  | again c =>
    cases r' with
    | done d => cases hrr
    | again d =>
      have hlt := (ht h.ended hr).2
      exact loop ht ht' hturn (Turn.again.inj hrr) h₁
termination_by s.ahead.length

/-! ### The end of a statement -/

section Ends

variable {q : Sequel} {calm : Bool} {s t : ParserState}

theorem atStatementEnd (h : Parallel q s t) :
    Follows q calm (Parallel q) id atStatementEnd atStatementEnd s t := by
  constructor
  · intro a s' hr hs'
    rw [run_atStatementEnd] at hr
    cases hr
    exact ⟨_, _, run_atStatementEnd, h.endsStatement_eq hs', h⟩
  · intro c hr
    rw [run_atStatementEnd] at hr
    cases hr
  · intro _ c hr
    rw [run_atStatementEnd] at hr
    cases hr
  · intro a s' hr
    rw [run_atStatementEnd] at hr
    cases hr
    exact ⟨List.suffix_rfl, rfl, rfl⟩

end Ends

end Follows

/-- The readings behind a statement: side by side, or the second one has read a semicolon
that the sequel begins with. -/
def Resumes (q : Sequel) (s t : ParserState) : Prop :=
  Parallel q s t ∨
    (¬ q.Live s ∧ ∃ u, Parallel q s u ∧ u.current.kind = .sign .semicolon ∧ t = u.skip)

theorem Resumes.parallel {q : Sequel} {s t : ParserState} (h : Resumes q s t) (hl : q.Live s) :
    Parallel q s t :=
  h.resolve_right fun h => h.1 hl

namespace Follows

variable {α β : Type} {q : Sequel} {calm : Bool} {view : α → β} {p p' : Parser α}
  {s t : ParserState}

theorem resumes (h : Follows q calm (Parallel q) view p p' s t) :
    Follows q calm (Resumes q) view p p' s t := by
  refine ⟨fun hr hs' => ?_, h.error, h.waits, h.leaves⟩
  obtain ⟨b, t', hr', hview, hpost⟩ := h.ok hr hs'
  exact ⟨b, t', hr', hview, .inl hpost⟩

/-- Where tokens are left behind a statement, nothing of the sequel is read. -/
theorem parallel (h : Follows q true (Resumes q) view p p' s t) :
    Follows q false (Parallel q) view p p' s t := by
  refine ⟨fun hr hs' => ?_, h.error, h.waits, h.leaves⟩
  obtain ⟨b, t', hr', hview, hpost⟩ := h.ok hr hs'.live.settled
  exact ⟨b, t', hr', hview, hpost.parallel hs'.live⟩

/-- A reading that need not be settled at the end of the input. -/
theorem weaken (h : Follows q true (Parallel q) view p p' s t) :
    Follows q false (Parallel q) view p p' s t :=
  h.resumes.parallel

theorem at_calm (h : Follows q true (Parallel q) view p p' s t) (calm : Bool) :
    Follows q calm (Parallel q) view p p' s t := by
  cases calm with
  | false => exact h.weaken
  | true => exact h

theorem statementEnd (h : Parallel q s t) :
    Follows q calm (Resumes q) (fun _ => ()) statementEnd statementEnd s t := by
  constructor
  · rintro ⟨⟩ s' hr hs'
    by_cases hk : s.current.kind = .sign .semicolon
    · have hne := h.ended.ahead_ne_nil hk (by simp)
      rw [run_statementEnd, if_pos hk] at hr
      cases hr
      rw [run_statementEnd, if_pos (by rw [h.kind_eq (.inl hne), hk])]
      exact ⟨_, _, rfl, rfl, .inl (h.skip hne)⟩
    · rw [run_statementEnd, if_neg hk] at hr
      split at hr
      · next hends =>
        cases hr
        have hends' := (h.endsStatement_eq hs').trans hends
        by_cases hk' : t.current.kind = .sign .semicolon
        · have hl : ¬ q.Live s := fun hl => hk (by rw [← h.kind_eq hl, hk'])
          rw [run_statementEnd, if_pos hk']
          exact ⟨_, _, rfl, rfl, .inr ⟨hl, t, h, hk', rfl⟩⟩
        · rw [run_statementEnd, if_neg hk', if_pos hends']
          exact ⟨_, _, rfl, rfl, .inl h⟩
      · rw [run_fail] at hr
        cases hr
  · intro c hr hc
    by_cases hk : s.current.kind = .sign .semicolon
    · rw [run_statementEnd, if_pos hk] at hr
      cases hr
    · rw [run_statementEnd, if_neg hk] at hr
      split at hr
      · cases hr
      · next hends =>
        have hne : s.ahead ≠ [] := fun hnil => hends (h.ended.endsStatement hnil)
        have hsettled : q.Settled false s := .inl (.inl hne)
        rw [run_statementEnd, h.kind_eq (.inl hne), if_neg hk, h.endsStatement_eq hsettled,
          if_neg hends]
        exact ⟨_, run_fail _⟩
  · intro hs c hr
    rw [run_statementEnd, h.ended.current_kind_iff.2 hs, if_neg (by simp),
      if_pos (h.ended.endsStatement hs)] at hr
    cases hr
  · intro a s' hr
    have := Rule.statementEnd_leaves hr
    exact ⟨this.ahead, this.finish, this.brackets⟩

end Follows

end ScriptLang
