import ScriptLang.Proofs.Grammar.Aim
import ScriptLang.Proofs.Grammar.Takes
import ScriptLang.Proofs.Token.Spelled

/-!
# Inputs that end too early

A parser complains that the input ends too early. Then some words behind the input would have
let a deeper grammar read it. `MendsAt K p p' s` relates the reading of `p` from `s` to the
readings of `p'` from the same tokens with a sequel behind them (`ParserState.extend`):

* What `p` reads, `p'` reads too, if tokens are left ahead or the sequel begins with a kind in
  `K`.
* If the input ends too early for `p`, there are words such that `p'` reads the input and
  then these, if a kind in `K` follows.

`Completes K ws p p'` says so of all states, and that `p'` reads `ws` where nothing stands
before. The combinators of parsers have one rule each. The words that a sequence takes at its
end are those of the parser that failed and then all that the parsers behind it take.
-/

namespace ScriptLang

open ParserState ScriptLang.Parser

/-- The input ends too early. -/
def Complaint.Early (c : Complaint) : Prop := c.cause.code = "E102"

theorem Complaint.Early.cause {c : Complaint} (h : c.Early) : ∃ e, c.cause = .unexpectedEnd e := by
  have hcodes : ("E101" : Text) ≠ "E102" ∧ ("E103" : Text) ≠ "E102" ∧ ("E104" : Text) ≠ "E102" := by
    decide
  unfold Complaint.Early at h
  cases hc : c.cause with
  | unexpectedEnd e => exact ⟨e, rfl⟩
  | unexpectedToken e found => rw [hc] at h; exact absurd h hcodes.1
  | nestedTooDeeply => rw [hc] at h; exact absurd h hcodes.2.1
  | invalidTarget => rw [hc] at h; exact absurd h hcodes.2.2

/-! ### States with a sequel -/

/-- The kind of what a sequel begins with. -/
def Sequel.lead (q : Sequel) : TokenKind := Token.lead q.rest q.finish

namespace ParserState

variable {s s' : ParserState} {q : Sequel}

/-- The state with a sequel behind the tokens ahead. -/
def extend (s : ParserState) (q : Sequel) : ParserState :=
  { s with ahead := s.ahead ++ q.rest, finish := q.finish }

theorem extend_ended (hs : s.Ended) (q : Sequel) : (s.extend q).Ended := by
  refine ⟨q.finish_content, fun t ht => ?_⟩
  rcases List.mem_append.1 ht with ht | ht
  · exact hs.ahead t ht
  · exact q.rest_content t ht

theorem extend_current (h : s.ahead ≠ []) (q : Sequel) : (s.extend q).current = s.current := by
  obtain ⟨t, ts, ht⟩ := List.exists_cons_of_ne_nil h
  simp [current, extend, ht]

theorem extend_skip (h : s.ahead ≠ []) (q : Sequel) : (s.extend q).skip = s.skip.extend q := by
  obtain ⟨t, ts, ht⟩ := List.exists_cons_of_ne_nil h
  simp [skip, extend, ht]

theorem extend_onSameLine (h : s.ahead ≠ []) (q : Sequel) :
    (s.extend q).onSameLine = s.onSameLine := by
  rw [onSameLine, extend_current h]
  rfl

theorem extend_ahead (h : s.ahead = []) (q : Sequel) : (s.extend q).ahead = q.rest := by
  simp [extend, h]

theorem extend_kind (h : s.ahead = []) (q : Sequel) : (s.extend q).current.kind = q.lead := by
  simp [current, extend, h, Sequel.lead, Token.lead]

/-- No sign of an increment stands among the tokens ahead. -/
structure Plain (s : ParserState) : Prop extends s.Ended where
  uncounted : ∀ t ∈ s.ahead, ¬ t.kind.Counts

namespace Plain

theorem of_suffix (h : s.Plain) (hf : s'.finish = s.finish) (ha : s'.ahead <:+ s.ahead) :
    s'.Plain :=
  ⟨h.toEnded.of_suffix hf ha, fun t ht => h.uncounted t (ha.subset ht)⟩

theorem skip (h : s.Plain) : s.skip.Plain :=
  h.of_suffix (skip_finish s) (Leaves.skip s).ahead

theorem withBrackets (h : s.Plain) (n : Nat) : ({ s with brackets := n } : ParserState).Plain :=
  ⟨h.toEnded.withBrackets n, h.uncounted⟩

theorem current (h : s.Plain) (hne : s.ahead ≠ []) : ¬ s.current.kind.Counts :=
  h.uncounted s.current (by rw [ahead_eq_cons hne]; exact List.mem_cons_self)

end Plain

end ParserState

/-! ### Parsers with nothing ahead -/

namespace Parser

variable {β : Type}

theorem hungry_kind_bind_end {f : TokenKind → Parser β} (h : (f .endOfInput).Hungry) :
    (kind >>= f).Hungry := by
  intro s a s' hs hnil hr
  rw [run_kind_bind, hs.current_kind_iff.2 hnil] at hr
  exact h hs hnil hr

theorem hungry_accept_bind {k : TokenKind} {f : Bool → Parser β} (hend : k ≠ .endOfInput)
    (h : (f false).Hungry) : (accept k >>= f).Hungry := by
  intro s a s' hs hnil hr
  rw [run_accept_bind, hs.current_kind_iff.2 hnil, if_neg hend.symm] at hr
  exact h hs hnil hr

end Parser

/-! ### Words that fill gaps -/

namespace Token.Content

/-- A name. -/
def someName : Content := .identifier "a"

/-- The empty text, as a literal. -/
def noText : Content := .string []

end Token.Content

namespace Token.Spelled

open Token.Content

variable {ws : List Content}

instance [h : Spelled ws] : Spelled (zero :: ws) := cons (.of_text "0" rfl (by decide)) h

instance [h : Spelled ws] : Spelled (someName :: ws) := cons (.of_text "a" rfl (by decide)) h

instance [h : Spelled ws] : Spelled (noText :: ws) := by
  refine cons (.of_text "\x22\x22" ?_ (by decide)) h
  have hbody : StringLiteral.body '"' [CodePoint.ofChar '"'] = .closed [] 1 := by
    rw [StringLiteral.body, if_pos rfl]
  have hscan : StringLiteral.scan '"' [CodePoint.ofChar '"'] = .ok (noText, 1) := by
    rw [StringLiteral.scan, hbody]
    rfl
  exact hscan

instance : Spelled braces := inferInstanceAs (Spelled [.sign .leftBrace, .sign .rightBrace])

end Token.Spelled

/-! ### Parsers that mend others -/

/-- What `p` reads from `s`, `p'` reads with a sequel, too; and if the input ends too early
for `p`, there are words behind it that `p'` reads. -/
structure MendsAt {α : Type} (K : TokenKind → Prop) (p p' : Parser α) (s : ParserState) :
    Prop where
  leaves : ∀ {a s'}, p.run s = .ok (a, s') →
    s'.ahead <:+ s.ahead ∧ s'.finish = s.finish ∧ s'.brackets = s.brackets
  repeats : ∀ {a s'}, p.run s = .ok (a, s') → ∀ q : Sequel, s'.ahead ≠ [] ∨ K q.lead →
    p'.run (s.extend q) = .ok (a, s'.extend q)
  mends : ∀ {c}, p.run s = .error c → c.Early → ∃ ws, Token.Spelled ws ∧
    ∀ (q : Sequel) (us : List Token), Token.Begins q.rest ws us → K (Token.lead us q.finish) →
      p'.ReadsUpTo (s.extend q) us

/-- `p'` mends `p` where tokens are ahead. -/
def Mends {α : Type} (K : TokenKind → Prop) (p p' : Parser α) : Prop :=
  ∀ ⦃s⦄, s.Plain → s.ahead ≠ [] → MendsAt K p p' s

/-- `p'` mends `p` everywhere, and the words `ws` are enough for `p'`. -/
structure Completes {α : Type} (K : TokenKind → Prop) (ws : List Token.Content)
    (p p' : Parser α) : Prop where
  mends : ∀ ⦃s⦄, s.Plain → MendsAt K p p' s
  takes : p'.Takes K ws

namespace MendsAt

variable {α β : Type} {K K₁ : TokenKind → Prop} {p p' q q' : Parser α} {f f' : α → Parser β}
  {s : ParserState} {ws : List Token.Content}

theorem mono (h : MendsAt K p p' s) (hK : ∀ k, K₁ k → K k) : MendsAt K₁ p p' s where
  leaves := h.leaves
  repeats hr q hq := h.repeats hr q (hq.imp_right (hK _))
  mends hr hc := by
    obtain ⟨ws, hws, hreads⟩ := h.mends hr hc
    exact ⟨ws, hws, fun q us hbegins hlead => hreads q us hbegins (hK _ hlead)⟩

theorem of_run_eq (h : MendsAt K p p' s) (hq : q.run s = p.run s)
    (hq' : ∀ x : Sequel, q'.run (s.extend x) = p'.run (s.extend x)) : MendsAt K q q' s where
  leaves hr := h.leaves (hq ▸ hr)
  repeats hr x hx := (hq' x).trans (h.repeats (hq ▸ hr) x hx)
  mends hr hc := by
    obtain ⟨ws, hws, hreads⟩ := h.mends (hq ▸ hr) hc
    exact ⟨ws, hws, fun x us hbegins hlead => (hreads x us hbegins hlead).of_run_eq (hq' x)⟩

theorem plain (h : MendsAt K p p' s) (hs : s.Plain) {a : α} {s' : ParserState}
    (hr : p.run s = .ok (a, s')) : s'.Plain :=
  hs.of_suffix (h.leaves hr).2.1 (h.leaves hr).1

/-- What refuses a token ahead, or its target, does not ask for more. -/
theorem of_refused {c : Complaint} (h : p.run s = .error c) (hc : ∀ e, c.cause ≠ .unexpectedEnd e) :
    MendsAt K p p' s where
  leaves hr := by rw [h] at hr; cases hr
  repeats hr := by rw [h] at hr; cases hr
  mends hr hearly := by
    rw [h] at hr
    cases hr
    obtain ⟨e, he⟩ := hearly.cause
    exact absurd he (hc e)

theorem fail (hs : s.Ended) (hne : s.ahead ≠ []) (e : Expectation) :
    MendsAt K (fail e : Parser α) p' s := by
  refine of_refused (run_fail e) ?_
  rw [if_neg fun hk => hne (hs.current_kind_iff.1 hk)]
  nofun

theorem refuseTarget (target : Span) (start : Token) :
    MendsAt K (refuseTarget target start : Parser α) p' s :=
  of_refused (run_refuseTarget target start) nofun

theorem pure (a : α) : MendsAt K (pure a) (pure a) s where
  leaves hr := by
    obtain ⟨-, rfl⟩ := run_pure_eq_ok.1 hr
    exact ⟨List.suffix_rfl, rfl, rfl⟩
  repeats hr q _ := by
    obtain ⟨rfl, rfl⟩ := run_pure_eq_ok.1 hr
    rfl
  mends := nofun

/-- One parser and then another. What the first leaves ahead, or the words that the second
takes, or what follows, may stand behind the first. -/
theorem bind_at [hws : Token.Spelled ws] (hp : MendsAt K₁ p p' s) (hs : s.Plain)
    (hf : ∀ {a s₁}, p.run s = .ok (a, s₁) → MendsAt K (f a) (f' a) s₁)
    (htakes : ∀ a, (f' a).Takes K ws) (hadmits : Admits K₁ K ws)
    (hK : (∀ k, K k → K₁ k) ∨ ∀ a, (f a).Hungry) :
    MendsAt K (p >>= f) (p' >>= f') s where
  leaves hr := by
    obtain ⟨a, s₁, ha, hb⟩ := run_bind_eq_ok.1 hr
    obtain ⟨h₁, h₂, h₃⟩ := hp.leaves ha
    obtain ⟨h₄, h₅, h₆⟩ := (hf ha).leaves hb
    exact ⟨h₄.trans h₁, h₅.trans h₂, h₆.trans h₃⟩
  repeats hr q hq := by
    obtain ⟨a, s₁, ha, hb⟩ := run_bind_eq_ok.1 hr
    have hq₁ : s₁.ahead ≠ [] ∨ K₁ q.lead := by
      by_cases hnil : s₁.ahead = []
      · have hnil' := (hf ha).leaves hb
        rw [hnil, List.suffix_nil] at hnil'
        rcases hK with hK | hK
        · exact .inr (hK _ (hq.resolve_left fun h => h hnil'.1))
        · exact absurd hb (hK a (hp.plain hs ha).toEnded hnil)
      · exact .inl hnil
    exact run_bind_eq_ok.2 ⟨a, _, hp.repeats ha q hq₁, (hf ha).repeats hb q hq⟩
  mends hr hc := by
    rcases run_bind_eq_error.1 hr with hr | ⟨a, s₁, ha, hr⟩
    · obtain ⟨ws₁, hws₁, hreads⟩ := hp.mends hr hc
      refine ⟨ws₁ ++ ws, inferInstance, fun q us hbegins hlead => ?_⟩
      obtain ⟨vs, h₁, h₂⟩ := hbegins.append
      have hvs : vs <:+ (s.extend q).ahead := h₁.suffix.trans (List.suffix_append s.ahead q.rest)
      exact (hreads q vs h₁ (h₂.lead hadmits hlead)).bind (extend_ended hs.toEnded q) hvs
        htakes h₂ hlead
    · obtain ⟨-, hfinish, hbrackets⟩ := hp.leaves ha
      by_cases hnil : s₁.ahead = []
      · refine ⟨ws, hws, fun q us hbegins hlead => ?_⟩
        have hq := hp.repeats ha q (.inr (hbegins.lead hadmits hlead))
        have hended := extend_ended (hp.plain hs ha).toEnded q
        refine .of_bind_ok hq rfl hbrackets (htakes a hended ?_ hlead)
        rwa [extend_ahead hnil]
      · obtain ⟨ws₁, hws₁, hreads⟩ := (hf ha).mends hr hc
        refine ⟨ws₁, hws₁, fun q us hbegins hlead => ?_⟩
        exact .of_bind_ok (hp.repeats ha q (.inl hnil)) rfl hbrackets (hreads q us hbegins hlead)

theorem bind [Token.Spelled ws] (hp : MendsAt K₁ p p' s) (hs : s.Plain)
    (hf : ∀ a, Completes K ws (f a) (f' a)) (hadmits : Admits K₁ K ws)
    (hK : (∀ k, K k → K₁ k) ∨ ∀ a, (f a).Hungry) : MendsAt K (p >>= f) (p' >>= f') s :=
  hp.bind_at hs (fun hr => (hf _).mends (hp.plain hs hr)) (fun a => (hf a).takes) hadmits hK

theorem bind_nil (hp : MendsAt K₁ p p' s) (hs : s.Plain) (hf : ∀ a, Completes K [] (f a) (f' a))
    (hK : ∀ k, K k → K₁ k) : MendsAt K (p >>= f) (p' >>= f') s :=
  hp.bind hs hf hK (.inl hK)

/-- A parser whose result is dressed up. -/
theorem andPure (h : MendsAt K p p' s) (hs : s.Plain) (g : α → β) :
    MendsAt K (p >>= fun a => Pure.pure (g a)) (p' >>= fun a => Pure.pure (g a)) s :=
  h.bind_nil hs (fun a => ⟨fun _ _ => .pure (g a), .pure (g a)⟩) fun _ hk => hk

/-- What looks ahead sees the same token with a sequel. -/
theorem current_bind {f f' : Token → Parser β} (hne : s.ahead ≠ [])
    (h : MendsAt K (f s.current) (f' s.current) s) :
    MendsAt K (current >>= f) (current >>= f') s :=
  h.of_run_eq rfl fun q => by rw [run_current_bind, extend_current hne]

theorem kind_bind {f f' : TokenKind → Parser β} (hne : s.ahead ≠ [])
    (h : MendsAt K (f s.current.kind) (f' s.current.kind) s) :
    MendsAt K (kind >>= f) (kind >>= f') s :=
  h.of_run_eq rfl fun q => by rw [run_kind_bind, extend_current hne]

theorem advance_bind {f f' : Token → Parser β} (hne : s.ahead ≠ [])
    (h : MendsAt K (f s.current) (f' s.current) s.skip) :
    MendsAt K (advance >>= f) (advance >>= f') s := by
  have hrun : ∀ q : Sequel,
      (advance >>= f').run (s.extend q) = (f' s.current).run (s.skip.extend q) := fun q => by
    rw [run_advance_bind, extend_current hne, extend_skip hne]
  constructor
  · intro a s' hr
    obtain ⟨h₁, h₂, h₃⟩ := h.leaves hr
    exact ⟨h₁.trans (Leaves.skip s).ahead, h₂.trans (skip_finish s), h₃.trans (skip_brackets s)⟩
  · intro a s' hr q hq
    rw [hrun]
    exact h.repeats hr q hq
  · intro c hr hc
    obtain ⟨ws, hws, hreads⟩ := h.mends hr hc
    refine ⟨ws, hws, fun q us hbegins hlead => ?_⟩
    obtain ⟨a, s', hr, hahead, hfinish, hbrackets⟩ := hreads q us hbegins hlead
    exact ⟨a, s', (hrun q).trans hr, hahead, hfinish, hbrackets.trans (skip_brackets s)⟩

theorem accept_bind {k : TokenKind} {f f' : Bool → Parser β} (hs : s.Plain) (hne : s.ahead ≠ [])
    (htrue : ∀ ⦃s⦄, s.Plain → MendsAt K (f true) (f' true) s)
    (hfalse : MendsAt K (f false) (f' false) s) :
    MendsAt K (accept k >>= f) (accept k >>= f') s := by
  have hrun : ∀ f : Bool → Parser β, accept k >>= f =
      kind >>= fun k' => if k' = k then advance >>= fun _ => f true else f false := by
    intro f
    unfold accept
    rw [bind_assoc]
    refine congrArg (kind >>= ·) (funext fun k' => ?_)
    split <;> rfl
  rw [hrun, hrun]
  refine kind_bind hne ?_
  split
  · exact advance_bind hne (htrue hs.skip)
  · exact hfalse

theorem inBrackets (h : MendsAt K p p' { s with brackets := s.brackets + 1 }) :
    MendsAt K (inBrackets p) (inBrackets p') s where
  leaves hr := by
    obtain ⟨s₁, hinner, rfl⟩ := run_inBrackets_eq_ok.1 hr
    obtain ⟨h₁, h₂, h₃⟩ := h.leaves hinner
    exact ⟨h₁, h₂, Nat.sub_eq_of_eq_add h₃⟩
  repeats hr q hq := by
    obtain ⟨s₁, hinner, rfl⟩ := run_inBrackets_eq_ok.1 hr
    exact run_inBrackets_eq_ok.2 ⟨_, h.repeats hinner q hq, rfl⟩
  mends hr hc := by
    rw [run_inBrackets] at hr
    split at hr
    · cases hr
    · next hr' =>
      cases hr
      obtain ⟨ws, hws, hreads⟩ := h.mends hr' hc
      exact ⟨ws, hws, fun q us hbegins hlead => (hreads q us hbegins hlead).inBrackets⟩

theorem outsideBrackets (h : MendsAt K p p' { s with brackets := 0 }) :
    MendsAt K (outsideBrackets p) (outsideBrackets p') s where
  leaves hr := by
    obtain ⟨s₁, hinner, rfl⟩ := run_outsideBrackets_eq_ok.1 hr
    obtain ⟨h₁, h₂, -⟩ := h.leaves hinner
    exact ⟨h₁, h₂, rfl⟩
  repeats hr q hq := by
    obtain ⟨s₁, hinner, rfl⟩ := run_outsideBrackets_eq_ok.1 hr
    exact run_outsideBrackets_eq_ok.2 ⟨_, h.repeats hinner q hq, rfl⟩
  mends hr hc := by
    rw [run_outsideBrackets] at hr
    split at hr
    · cases hr
    · next hr' =>
      cases hr
      obtain ⟨ws, hws, hreads⟩ := h.mends hr' hc
      exact ⟨ws, hws, fun q us hbegins hlead => (hreads q us hbegins hlead).outsideBrackets⟩

end MendsAt

/-! ### Parsers that complete others -/

namespace Completes

variable {α β : Type} {K K₁ : TokenKind → Prop} {p p' : Parser α} {f f' : α → Parser β}
  {s : ParserState} {w : Token.Content} {ws ws₁ ws₂ : List Token.Content}

theorem mono (h : Completes K ws p p') (hK : ∀ k, K₁ k → K k) : Completes K₁ ws p p' :=
  ⟨fun _ hs => (h.mends hs).mono hK, h.takes.mono hK⟩

/-- What complains with nothing ahead asks for the words that it takes. -/
theorem of_hungry [hws : Token.Spelled ws] (h : Mends K p p') (hhungry : p.Hungry)
    (htakes : p'.Takes K ws) : Completes K ws p p' := by
  refine ⟨fun s hs => ?_, htakes⟩
  by_cases hnil : s.ahead = []
  · refine ⟨fun hr => absurd hr (hhungry hs.toEnded hnil), fun hr =>
      absurd hr (hhungry hs.toEnded hnil), fun _ _ => ⟨ws, hws, fun q us hbegins hlead => ?_⟩⟩
    exact htakes (extend_ended hs.toEnded q) (by rwa [extend_ahead hnil]) hlead
  · exact h hs hnil

/-- What reads nothing with nothing ahead does so before what may follow. -/
theorem of_idle (a : α) (h : Mends K p p')
    (hend : ∀ ⦃s⦄, s.current.kind = .endOfInput → p.run s = .ok (a, s))
    (hidle : ∀ ⦃s⦄, K s.current.kind → p'.run s = .ok (a, s)) : Completes K [] p p' := by
  refine ⟨fun s hs => ?_, .of_idle fun s _ hk => ⟨a, hidle hk⟩⟩
  by_cases hnil : s.ahead = []
  · have ha := hend (hs.current_kind_iff.2 hnil)
    constructor
    · intro b s' hr
      cases ha.symm.trans hr
      exact ⟨List.suffix_rfl, rfl, rfl⟩
    · intro b s' hr q hlead
      cases ha.symm.trans hr
      refine hidle ?_
      rw [extend_kind hnil]
      exact hlead.resolve_left fun h => h hnil
    · intro c hr
      cases ha.symm.trans hr
  · exact h hs hnil

theorem pure (a : α) : Completes K [] (pure a) (pure a) := ⟨fun _ _ => .pure a, .pure a⟩

/-- One parser and then another; with nothing ahead, what follows may stand behind the first. -/
theorem bind [Token.Spelled ws₂] (hp : Completes K₁ ws₁ p p')
    (hf : ∀ a, Completes K ws₂ (f a) (f' a)) (hadmits : Admits K₁ K ws₂)
    (hK : ∀ k, K k → K₁ k) : Completes K (ws₁ ++ ws₂) (p >>= f) (p' >>= f') :=
  ⟨fun _ hs => (hp.mends hs).bind hs hf hadmits (.inl hK),
    hp.takes.bind (fun a => (hf a).takes) hadmits⟩

/-- One parser and then another that complains with nothing ahead. -/
theorem bind_hungry [Token.Spelled ws₂] (hp : Completes K₁ ws₁ p p')
    (hf : ∀ a, Completes K ws₂ (f a) (f' a)) (hadmits : Admits K₁ K ws₂)
    (hhungry : ∀ a, (f a).Hungry) : Completes K (ws₁ ++ ws₂) (p >>= f) (p' >>= f') :=
  ⟨fun _ hs => (hp.mends hs).bind hs hf hadmits (.inr hhungry),
    hp.takes.bind (fun a => (hf a).takes) hadmits⟩

/-- A parser that does not look at what follows, and then another. -/
theorem andThen [Token.Spelled ws₂] (hp : Completes TokenKind.Any ws₁ p p')
    (hf : ∀ a, Completes K ws₂ (f a) (f' a)) : Completes K (ws₁ ++ ws₂) (p >>= f) (p' >>= f') :=
  hp.bind hf (by cases ws₂ <;> simp [Admits, TokenKind.Any]) fun k _ => k.any

theorem bind_nil (hp : Completes K₁ ws p p') (hf : ∀ a, Completes K [] (f a) (f' a))
    (hK : ∀ k, K k → K₁ k) : Completes K ws (p >>= f) (p' >>= f') :=
  ⟨fun _ hs => (hp.mends hs).bind_nil hs hf hK,
    hp.takes.bind_nil (fun a => (hf a).takes) hK⟩

/-- A parser whose result is dressed up. -/
theorem andPure (hp : Completes K ws p p') (g : α → β) :
    Completes K ws (p >>= fun a => Pure.pure (g a)) (p' >>= fun a => Pure.pure (g a)) :=
  hp.bind_nil (fun a => .pure (g a)) fun _ hk => hk

theorem inBrackets (h : Completes K ws p p') : Completes K ws (inBrackets p) (inBrackets p') :=
  ⟨fun _ hs => (h.mends (hs.withBrackets _)).inBrackets, h.takes.inBrackets⟩

theorem outsideBrackets (h : Completes K ws p p') :
    Completes K ws (outsideBrackets p) (outsideBrackets p') :=
  ⟨fun _ hs => (h.mends (hs.withBrackets _)).outsideBrackets, h.takes.outsideBrackets⟩

theorem spanFrom (start : Span) : Completes K [] (spanFrom start) (spanFrom start) := by
  refine ⟨fun s _ => ⟨fun hr => ?_, fun hr q _ => ?_, nofun⟩, .spanFrom start⟩
  · cases hr
    exact ⟨List.suffix_rfl, rfl, rfl⟩
  · cases hr
    rfl

theorem expect [Token.Spelled [w]] (hend : w.kind ≠ .endOfInput) (e : Expectation) :
    Completes K [w] (expect w.kind e) (expect w.kind e) := by
  refine .of_hungry (fun s hs hne => .kind_bind hne ?_) (hungry_expect hend e) (.expect rfl e)
  split
  · exact .advance_bind hne (.pure _)
  · exact .fail hs.toEnded hne e

theorem sign (k : Sign) (e : Expectation) :
    Completes K [.sign k] (Parser.expect (.sign k) e) (Parser.expect (.sign k) e) :=
  expect (w := .sign k) (show TokenKind.sign k ≠ .endOfInput from nofun) e

theorem keyword (k : Keyword) (e : Expectation) :
    Completes K [.keyword k] (Parser.expect (.keyword k) e) (Parser.expect (.keyword k) e) :=
  expect (w := .keyword k) (show TokenKind.keyword k ≠ .endOfInput from nofun) e

theorem expectName (e : Expectation) :
    Completes K [.someName] (expectName e) (expectName e) := by
  refine .of_hungry (fun s hs hne => .current_bind hne ?_) (hungry_expectName e) (.expectName e)
  split
  · exact .advance_bind hne (.pure _)
  · exact .fail hs.toEnded hne e

/-- A choice by the token ahead, which the end of the input leaves to what asks for more. -/
theorem kind_bind [Token.Spelled (w :: ws)] {f f' : TokenKind → Parser β}
    (h : ∀ ⦃s⦄, s.Plain → s.ahead ≠ [] → MendsAt K (f s.current.kind) (f' s.current.kind) s)
    (hhungry : (f .endOfInput).Hungry) (htakes : (f' w.kind).Takes K (w :: ws)) :
    Completes K (w :: ws) (kind >>= f) (kind >>= f') :=
  .of_hungry (fun _ hs hne => .kind_bind hne (h hs hne)) (hungry_kind_bind_end hhungry)
    (.kind_bind htakes)

/-- One parser where a kind stands ahead, and else one that asks for more. -/
theorem kind_ite [Token.Spelled (w :: ws)] {k : TokenKind} {a a' b b' : Parser β}
    (hend : k ≠ .endOfInput) (ha : Mends K a a') (hb : Completes K (w :: ws) b b')
    (hhungry : b.Hungry) (hk : w.kind ≠ k) :
    Completes K (w :: ws) (kind >>= fun k' => if k' = k then a else b)
      (kind >>= fun k' => if k' = k then a' else b') := by
  refine .kind_bind (fun s hs hne => ?_) ?_ (.ite_neg hk hb.takes)
  · split
    · exact ha hs hne
    · exact hb.mends hs
  · rwa [if_neg hend.symm]

/-- What a kind of token ahead on the line leads to, if nothing else does more than read
nothing. -/
theorem following_bind {f f' : Option TokenKind → Parser β} (b : β)
    (h : ∀ k ⦃s⦄, s.Plain → s.ahead ≠ [] → s.following = some k →
      MendsAt K (f (some k)) (f' (some k)) s)
    (hnone : f none = Pure.pure b) (hnone' : f' none = Pure.pure b)
    (hK : ∀ k, K k → f' (some k) = Pure.pure b) :
    Completes K [] (following >>= f) (following >>= f') := by
  have hidle : ∀ {s : ParserState}, K s.current.kind → (following >>= f').run s = .ok (b, s) := by
    intro s hk
    change (f' s.following).run s = _
    cases hs : s.following with
    | none => rw [hnone']; rfl
    | some k =>
      obtain ⟨-, rfl, -⟩ := ParserState.following_eq_some hs
      rw [hK _ hk]
      rfl
  refine .of_idle b (fun s hs hne => ?_) (fun s hend => ?_) fun _ hk => hidle hk
  · have hsame : ∀ q : Sequel, (s.extend q).following = s.following := fun q => by
      rw [ParserState.following, extend_onSameLine hne, extend_current hne]
      rfl
    cases hk : s.following with
    | none =>
      refine (MendsAt.pure b).of_run_eq ?_ fun q => ?_
      · change (f s.following).run s = _
        rw [hk, hnone]
      · change (f' (s.extend q).following).run _ = _
        rw [hsame, hk, hnone']
    | some k =>
      refine (h k hs hne hk).of_run_eq ?_ fun q => ?_
      · change (f s.following).run s = _
        rw [hk]
      · change (f' (s.extend q).following).run _ = _
        rw [hsame, hk]
  · change (f s.following).run s = _
    rw [following_of_end hend, hnone]
    rfl

/-- A part that is left out where its sign does not stand. -/
theorem accept_idle {k : TokenKind} {f f' : Bool → Parser β} (hend : k ≠ .endOfInput)
    (hK : ∀ k', K k' → k' ≠ k) (htrue : ∀ ⦃s⦄, s.Plain → MendsAt K (f true) (f' true) s) {b : β}
    (hfalse : f false = Pure.pure b) (hfalse' : f' false = Pure.pure b) :
    Completes K [] (accept k >>= f) (accept k >>= f') := by
  have hrun : ∀ {f : Bool → Parser β} {s : ParserState}, f false = Pure.pure b →
      s.current.kind ≠ k → (accept k >>= f).run s = .ok (b, s) := by
    intro f s hf hk
    rw [run_accept_bind, if_neg hk, hf]
    rfl
  refine .of_idle b (fun s hs hne => .accept_bind hs hne htrue ?_)
    (fun s hk => hrun hfalse fun h => hend (h ▸ hk)) fun s hk => hrun hfalse' (hK _ hk)
  rw [hfalse, hfalse']
  exact .pure b

theorem accept_hungry [Token.Spelled (w :: ws)] {k : TokenKind} {f f' : Bool → Parser β}
    (hend : k ≠ .endOfInput) (htrue : ∀ ⦃s⦄, s.Plain → MendsAt K (f true) (f' true) s)
    (hfalse : Completes K (w :: ws) (f false) (f' false)) (hhungry : (f false).Hungry)
    (hk : w.kind ≠ k) : Completes K (w :: ws) (accept k >>= f) (accept k >>= f') :=
  .of_hungry (fun _ hs hne => .accept_bind hs hne htrue (hfalse.mends hs))
    (hungry_accept_bind hend hhungry) (.accept_bind hfalse.takes hk)

/-- The end of a statement takes nothing where a block ends. -/
theorem statementEnd : Completes TokenKind.EndsBlock [] statementEnd statementEnd := by
  refine .of_idle () (fun s hs hne => .current_bind hne ?_)
    (fun _ hk => run_statementEnd_of_endsBlock (.inr hk)) fun _ => run_statementEnd_of_endsBlock
  split
  · exact .advance_bind hne (.pure _)
  · exact .pure _
  · exact .pure _
  · split
    · exact .pure _
    · exact .fail hs.toEnded hne _

/-! ### Loops -/

section Loop

variable {turn turn' : α → Parser (Turn α)}

/-- A loop of turns that mend each other; the words of a turn are enough for the loop, which is
done before what follows them. -/
theorem loop_mends (ht : Advances turn) (ht' : Advances turn')
    (hturn : ∀ a ⦃s⦄, s.Plain → MendsAt K (turn a) (turn' a) s)
    (hstops : ∀ a ⦃s⦄, s.Ended → K s.current.kind → ∃ b, (turn' a).run s = .ok (.done b, s))
    (a : α) {s : ParserState} (hs : s.Plain) : MendsAt K (loop turn a) (loop turn' a) s := by
  have hmends := hturn a hs
  have hunfolded : MendsAt K (unfoldLoop turn a) (unfoldLoop turn' a) s := by
    have hadmits : Admits K K [] := fun _ hk => hk
    refine hmends.bind_at hs (fun {r s₁} hr => ?_) (fun r => ?_) hadmits (.inl hadmits)
    · cases r with
      | done b => exact .pure b
      | again b =>
        have hlt := (ht hs.toEnded hr).2
        exact loop_mends ht ht' hturn hstops b (hmends.plain hs hr)
    · cases r with
      | done b => exact .pure b
      | again b => exact .loop b (hstops b)
  exact hunfolded.of_run_eq (run_loop ht hs.toEnded a)
    fun q => run_loop ht' (extend_ended hs.toEnded q) a
termination_by s.ahead.length

theorem loop (ht : Advances turn) (ht' : Advances turn')
    (hturn : ∀ a ⦃s⦄, s.Plain → MendsAt K (turn a) (turn' a) s)
    (hstops : ∀ a ⦃s⦄, s.Ended → K s.current.kind → ∃ b, (turn' a).run s = .ok (.done b, s))
    (a : α) : Completes K [] (loop turn a) (loop turn' a) :=
  ⟨fun _ hs => loop_mends ht ht' hturn hstops a hs, .loop a (hstops a)⟩

end Loop

end Completes

end ScriptLang
