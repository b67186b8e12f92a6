import ScriptLang.Grammar.Program

/-!
# Running parsers

What the parsers that all others are made of do to a state, as equations: `bind` first,
then the parsers that look ahead, move on, or refuse. `ParserState.Ended` says that the
end of the input stands behind the tokens ahead and nowhere among them.

A loop is bounded by the tokens ahead. If each turn that goes on reads a token, the
bound is never met, and `run_loop` unfolds a loop into one turn and the loop again.
-/

namespace ScriptLang

theorem exists_ok_of_any {ε α : Type} {x : Except ε α} {check : α → Bool}
    (h : x.toOption.any check = true) : ∃ a, x = .ok a ∧ check a = true := by
  cases x with
  | error _ => cases h
  | ok a => exact ⟨a, rfl, h⟩

namespace ParserState

/-- The end of the input stands behind the tokens ahead and nowhere among them. -/
structure Ended (s : ParserState) : Prop where
  finish : s.finish.content = .endOfInput
  ahead : ∀ t ∈ s.ahead, t.content ≠ .endOfInput

end ParserState

theorem Token.kind_eq_endOfInput {t : Token} :
    t.kind = .endOfInput ↔ t.content = .endOfInput := by
  unfold Token.kind
  cases t.content <;> simp [Token.Content.kind]

namespace ParserState

variable {s s' : ParserState}

theorem current_of_nil (h : s.ahead = []) : s.current = s.finish := by
  simp [current, h]

theorem current_of_cons {t : Token} {ts : List Token} (h : s.ahead = t :: ts) :
    s.current = t := by
  simp [current, h]

theorem skip_of_cons {t : Token} {ts : List Token} (h : s.ahead = t :: ts) :
    s.skip = { s with ahead := ts, lastStop := t.span.stop } := by
  simp [skip, h]

theorem skip_of_nil (h : s.ahead = []) : s.skip = s := by
  simp [skip, h]

@[simp] theorem skip_finish (s : ParserState) : s.skip.finish = s.finish := by
  unfold skip
  split <;> rfl

theorem ahead_eq_cons (h : s.ahead ≠ []) : s.ahead = s.current :: s.skip.ahead := by
  cases ht : s.ahead with
  | nil => exact absurd ht h
  | cons t ts => rw [current_of_cons ht, skip_of_cons ht]

namespace Ended

theorem current_kind_iff (h : s.Ended) : s.current.kind = .endOfInput ↔ s.ahead = [] := by
  rw [Token.kind_eq_endOfInput]
  cases ht : s.ahead with
  | nil => simp [current_of_nil ht, h.finish]
  | cons t ts => simpa [current_of_cons ht] using h.ahead t (by simp [ht])

theorem ahead_ne_nil (h : s.Ended) {k : TokenKind} (hk : s.current.kind = k)
    (hne : k ≠ .endOfInput) : s.ahead ≠ [] := by
  intro hs
  exact hne (hk ▸ h.current_kind_iff.2 hs)

theorem of_suffix (h : s.Ended) (hf : s'.finish = s.finish) (ha : s'.ahead <:+ s.ahead) :
    s'.Ended :=
  ⟨by rw [hf]; exact h.finish, fun t ht => h.ahead t (ha.subset ht)⟩

theorem skip (h : s.Ended) : s.skip.Ended := by
  apply h.of_suffix (skip_finish s)
  cases ht : s.ahead with
  | nil => simp [skip_of_nil ht, ht]
  | cons t ts => simp [skip_of_cons ht]

theorem withBrackets (h : s.Ended) (n : Nat) : ({ s with brackets := n } : ParserState).Ended :=
  ⟨h.finish, h.ahead⟩

end Ended

end ParserState

namespace Parser

variable {α β : Type} {s s' s₁ : ParserState} {c : Complaint}

/-! ### Sequences -/

theorem run_bind (p : Parser α) (f : α → Parser β) (s : ParserState) :
    (p >>= f).run s =
      match p.run s with
      | .ok (a, s₁) => (f a).run s₁
      | .error c => .error c := by
  change (p.run s >>= fun x => (f x.1).run x.2) = _
  cases p.run s <;> rfl

theorem run_bind_of_ok {p : Parser α} {a : α} (h : p.run s = .ok (a, s₁)) (f : α → Parser β) :
    (p >>= f).run s = (f a).run s₁ := by
  rw [run_bind, h]

theorem run_bind_of_error {p : Parser α} (h : p.run s = .error c) (f : α → Parser β) :
    (p >>= f).run s = .error c := by
  rw [run_bind, h]

theorem run_bind_eq_ok {p : Parser α} {f : α → Parser β} {b : β} :
    (p >>= f).run s = .ok (b, s') ↔
      ∃ a s₁, p.run s = .ok (a, s₁) ∧ (f a).run s₁ = .ok (b, s') := by
  rw [run_bind]
  cases p.run s with
  | error c => simp
  | ok x => exact ⟨fun h => ⟨x.1, x.2, rfl, h⟩, fun ⟨a, s₁, ha, h⟩ => by cases ha; exact h⟩

theorem run_bind_eq_error {p : Parser α} {f : α → Parser β} :
    (p >>= f).run s = .error c ↔
      p.run s = .error c ∨ ∃ a s₁, p.run s = .ok (a, s₁) ∧ (f a).run s₁ = .error c := by
  rw [run_bind]
  cases p.run s with
  | error c => simp
  | ok x => exact ⟨fun h => .inr ⟨x.1, x.2, rfl, h⟩, fun h => by
      rcases h with h | ⟨a, s₁, ha, h⟩
      · cases h
      · cases ha; exact h⟩

theorem run_bind_congr {p : Parser α} {f g : α → Parser β}
    (h : ∀ a s₁, p.run s = .ok (a, s₁) → (f a).run s₁ = (g a).run s₁) :
    (p >>= f).run s = (p >>= g).run s := by
  rw [run_bind, run_bind]
  cases hp : p.run s with
  | error c => rfl
  | ok x => exact h x.1 x.2 hp

theorem run_pure (a : α) : (pure a : Parser α).run s = .ok (a, s) := rfl

theorem run_pure_eq_ok {a b : α} :
    (pure a : Parser α).run s = .ok (b, s') ↔ b = a ∧ s' = s := by
  rw [run_pure]
  simp only [Except.ok.injEq, Prod.mk.injEq]
  exact and_congr eq_comm eq_comm

theorem run_map_eq_ok {p : Parser α} {f : α → β} {b : β} :
    (f <$> p).run s = .ok (b, s') ↔ ∃ a, p.run s = .ok (a, s') ∧ b = f a := by
  rw [← bind_pure_comp, run_bind_eq_ok]
  simp only [run_pure_eq_ok]
  exact ⟨fun ⟨a, s₁, h, hb, hs⟩ => ⟨a, hs ▸ h, hb⟩, fun ⟨a, h, hb⟩ => ⟨a, s', h, hb, rfl⟩⟩

theorem run_ite (P : Prop) [Decidable P] (p q : Parser α) :
    (if P then p else q).run s = if P then p.run s else q.run s := by
  split <;> rfl

/-! ### Looking ahead -/

theorem run_current_bind (f : Token → Parser α) :
    (current >>= f).run s = (f s.current).run s := rfl

theorem run_kind_bind (f : TokenKind → Parser α) :
    (kind >>= f).run s = (f s.current.kind).run s := rfl

theorem run_onSameLine_bind (f : Bool → Parser α) :
    (onSameLine >>= f).run s = (f s.onSameLine).run s := rfl

theorem run_spanFrom_bind (start : Span) (f : Span → Parser α) :
    (spanFrom start >>= f).run s = (f { start with stop := s.lastStop }).run s := rfl

/-- Whether the token ahead ends a statement. -/
def endsStatement (s : ParserState) : Bool :=
  s.current.kind = .sign .semicolon || s.current.kind = .sign .rightBrace ||
    s.current.kind = .endOfInput || s.current.afterBreak

theorem run_atStatementEnd : atStatementEnd.run s = .ok (endsStatement s, s) := by
  unfold atStatementEnd endsStatement
  rw [run_current_bind]
  split <;> simp_all <;> rfl

theorem run_atStatementEnd_bind (f : Bool → Parser α) :
    (atStatementEnd >>= f).run s = (f (endsStatement s)).run s :=
  run_bind_of_ok run_atStatementEnd f

/-! ### Moving on -/

theorem run_advance : advance.run s = .ok (s.current, s.skip) := rfl

theorem run_advance_bind (f : Token → Parser α) :
    (advance >>= f).run s = (f s.current).run s.skip := rfl

theorem run_advance_seq (p : Parser α) : (advance *> p).run s = p.run s.skip := rfl

theorem run_accept_bind (k : TokenKind) (f : Bool → Parser α) :
    (accept k >>= f).run s =
      if s.current.kind = k then (f true).run s.skip else (f false).run s := by
  unfold accept
  rw [bind_assoc, run_kind_bind]
  split <;> rfl

theorem run_expect_eq_ok {k : TokenKind} {e : Expectation} {t : Token} :
    (expect k e).run s = .ok (t, s') ↔ s.current.kind = k ∧ t = s.current ∧ s' = s.skip := by
  unfold expect
  rw [run_kind_bind, run_ite]
  split
  · next hk => simp only [run_advance, Except.ok.injEq, Prod.mk.injEq, hk, true_and]; grind
  · next hk =>
    simp only [hk, false_and, iff_false]
    unfold fail
    rw [run_current_bind]
    split <;> intro h <;> cases h

theorem run_expect_of_eq {k : TokenKind} (h : s.current.kind = k) (e : Expectation) :
    (expect k e).run s = .ok (s.current, s.skip) :=
  run_expect_eq_ok.2 ⟨h, rfl, rfl⟩

theorem run_expect_bind_eq_ok {k : TokenKind} {e : Expectation} {f : Token → Parser α} {a : α} :
    (expect k e >>= f).run s = .ok (a, s') ↔
      s.current.kind = k ∧ (f s.current).run s.skip = .ok (a, s') := by
  rw [run_bind_eq_ok]
  simp only [run_expect_eq_ok]
  exact ⟨fun ⟨t, s₁, ⟨hk, ht, hs⟩, h⟩ => ⟨hk, ht ▸ hs ▸ h⟩,
    fun ⟨hk, h⟩ => ⟨s.current, s.skip, ⟨hk, rfl, rfl⟩, h⟩⟩

theorem run_expectName_eq_ok {e : Expectation} {name : Text} :
    (expectName e).run s = .ok (name, s') ↔
      s.current.content = .identifier name ∧ s' = s.skip := by
  unfold expectName
  rw [run_current_bind]
  cases hc : s.current.content <;>
    simp only [Token.Content.identifier.injEq, reduceCtorEq, false_and, iff_false]
  case identifier n =>
    rw [run_advance_bind, run_pure_eq_ok]
    exact and_congr eq_comm Iff.rfl
  all_goals
    unfold fail
    rw [run_current_bind, hc]
    intro h
    cases h

theorem run_inBrackets (p : Parser α) :
    (inBrackets p).run s =
      match p.run { s with brackets := s.brackets + 1 } with
      | .ok (a, s₁) => .ok (a, { s₁ with brackets := s₁.brackets - 1 })
      | .error c => .error c := by
  change (p >>= fun a => (do modify fun s => { s with brackets := s.brackets - 1 }; pure a)).run
    { s with brackets := s.brackets + 1 } = _
  rw [run_bind]
  cases p.run { s with brackets := s.brackets + 1 } <;> rfl

theorem run_outsideBrackets (p : Parser α) :
    (outsideBrackets p).run s =
      match p.run { s with brackets := 0 } with
      | .ok (a, s₁) => .ok (a, { s₁ with brackets := s.brackets })
      | .error c => .error c := by
  change (p >>= fun a => (do modify fun t => { t with brackets := s.brackets }; pure a)).run
    { s with brackets := 0 } = _
  rw [run_bind]
  cases p.run { s with brackets := 0 } <;> rfl

theorem run_inBrackets_eq_ok {p : Parser α} {a : α} :
    (inBrackets p).run s = .ok (a, s') ↔
      ∃ s₁, p.run { s with brackets := s.brackets + 1 } = .ok (a, s₁) ∧
        s' = { s₁ with brackets := s₁.brackets - 1 } := by
  rw [run_inBrackets]
  cases p.run { s with brackets := s.brackets + 1 } with
  | error c => simp
  | ok x => simp only [Except.ok.injEq, Prod.mk.injEq]; grind

theorem run_outsideBrackets_eq_ok {p : Parser α} {a : α} :
    (outsideBrackets p).run s = .ok (a, s') ↔
      ∃ s₁, p.run { s with brackets := 0 } = .ok (a, s₁) ∧
        s' = { s₁ with brackets := s.brackets } := by
  rw [run_outsideBrackets]
  cases p.run { s with brackets := 0 } with
  | error c => simp
  | ok x => simp only [Except.ok.injEq, Prod.mk.injEq]; grind

/-! ### Refusing -/

theorem run_fail (e : Expectation) :
    (fail e : Parser α).run s =
      .error (if s.current.kind = .endOfInput then ⟨.unexpectedEnd e, s.current.span, none⟩
        else ⟨.unexpectedToken e s.current.description, s.current.span,
          some s.current.span.start.line⟩) := by
  unfold fail
  rw [run_current_bind]
  split
  · next h => rw [if_pos (Token.kind_eq_endOfInput.2 h)]; rfl
  · next h => rw [if_neg fun hk => h (Token.kind_eq_endOfInput.1 hk)]; rfl

theorem run_refuseTarget (target : Span) (start : Token) :
    (refuseTarget target start : Parser α).run s =
      .error ⟨.invalidTarget, target, some start.span.start.line⟩ := rfl

theorem run_tooDeep :
    (tooDeep : Parser α).run s =
      .error ⟨.nestedTooDeeply, s.current.span, some s.current.span.start.line⟩ := rfl

/-! ### The end of a statement -/

/-- The state behind the end of a statement. -/
def afterStatement (s : ParserState) : ParserState :=
  if s.current.kind = .sign .semicolon then s.skip else s

theorem run_statementEnd :
    statementEnd.run s =
      if s.current.kind = .sign .semicolon then .ok ((), s.skip)
      else if endsStatement s then .ok ((), s)
      else (fail .statementEnd : Parser Unit).run s := by
  unfold statementEnd endsStatement
  rw [run_current_bind]
  split <;> simp_all [run_ite] <;> rfl

theorem run_statementEnd_eq_ok {u : Unit} (h : statementEnd.run s = .ok (u, s')) :
    s' = afterStatement s := by
  rw [run_statementEnd] at h
  unfold afterStatement
  split at h
  · next hk => rw [if_pos hk]; cases h; rfl
  · next hk =>
    rw [if_neg hk]
    split at h
    · cases h; rfl
    · rw [run_fail] at h; cases h

/-! ### Loops -/

/-- Each turn that goes on reads a token. -/
def Advances (turn : α → Parser (Turn α)) : Prop :=
  ∀ ⦃a s b s'⦄, s.Ended → (turn a).run s = .ok (.again b, s') →
    s'.Ended ∧ s'.ahead.length < s.ahead.length

/-- From a state that satisfies `I`, each turn that goes on reads a token and keeps `I`. -/
def AdvancesOn (I : ParserState → Prop) (turn : α → Parser (Turn α)) : Prop :=
  ∀ ⦃a s b s'⦄, I s → (turn a).run s = .ok (.again b, s') →
    I s' ∧ s'.ahead.length < s.ahead.length

/-- One turn, and the loop again if it goes on. -/
def unfoldLoop (turn : α → Parser (Turn α)) (a : α) : Parser α := do
  match ← turn a with
  | .again b => loop turn b
  | .done b => pure b

theorem run_turns_congr_on {I : ParserState → Prop} {turn : α → Parser (Turn α)}
    (ht : AdvancesOn I turn) :
    ∀ {l m : List Token} {s : ParserState} (a : α), I s → s.ahead.length < l.length →
      s.ahead.length < m.length → (turns turn l a).run s = (turns turn m a).run s
  | [], _, _, _, _, hl, _ => absurd hl (by simp)
  | _ :: _, [], _, _, _, _, hm => absurd hm (by simp)
  | _ :: l, _ :: m, s, a, hs, hl, hm => by
    refine run_bind_congr fun r s₁ hr => ?_
    cases r with
    | done b => rfl
    | again b =>
      obtain ⟨hs₁, hlt⟩ := ht hs hr
      rw [List.length_cons] at hl hm
      exact run_turns_congr_on ht b hs₁ (by omega) (by omega)

theorem run_loop_on {I : ParserState → Prop} {turn : α → Parser (Turn α)}
    (ht : AdvancesOn I turn) (hs : I s) (a : α) :
    (loop turn a).run s = (unfoldLoop turn a).run s := by
  change (turns turn (s.finish :: s.ahead) a).run s = _
  refine run_bind_congr fun r s₁ hr => ?_
  cases r with
  | done b => rfl
  | again b =>
    obtain ⟨hs₁, hlt⟩ := ht hs hr
    exact run_turns_congr_on ht b hs₁ hlt (by simp)

theorem run_loop {turn : α → Parser (Turn α)} (ht : Advances turn) (hs : s.Ended) (a : α) :
    (loop turn a).run s = (unfoldLoop turn a).run s :=
  run_loop_on ht hs a

theorem run_loop_of_done {turn : α → Parser (Turn α)} {a b : α}
    (ht : Advances turn) (hs : s.Ended) (h : (turn a).run s = .ok (.done b, s')) :
    (loop turn a).run s = .ok (b, s') := by
  rw [run_loop ht hs, unfoldLoop, run_bind_of_ok h]
  rfl

theorem run_loop_of_again {turn : α → Parser (Turn α)} {a b : α}
    (ht : Advances turn) (hs : s.Ended) (h : (turn a).run s = .ok (.again b, s')) :
    (loop turn a).run s = (loop turn b).run s' := by
  rw [run_loop ht hs, unfoldLoop, run_bind_of_ok h]

theorem run_loop_eq_ok {turn : α → Parser (Turn α)} {a b : α} (ht : Advances turn)
    (hs : s.Ended) (h : (loop turn a).run s = .ok (b, s')) :
    (turn a).run s = .ok (.done b, s') ∨
      ∃ a' s₁, (turn a).run s = .ok (.again a', s₁) ∧ (loop turn a').run s₁ = .ok (b, s') := by
  rw [run_loop ht hs, unfoldLoop, run_bind_eq_ok] at h
  obtain ⟨r, s₁, hr, h⟩ := h
  cases r with
  | done a' =>
    obtain ⟨rfl, rfl⟩ := run_pure_eq_ok.1 h
    exact .inl hr
  | again a' => exact .inr ⟨a', s₁, hr, h⟩

/-- What holds of the start of a loop and is kept by each turn holds of its end. -/
theorem loop_induction {turn : α → Parser (Turn α)} (ht : Advances turn)
    {P : α → ParserState → Prop} {Q : α → ParserState → Prop}
    (hdone : ∀ a s b s', P a s → s.Ended → (turn a).run s = .ok (.done b, s') → Q b s')
    (hagain : ∀ a s b s', P a s → s.Ended → (turn a).run s = .ok (.again b, s') → P b s')
    {a b : α} {s s' : ParserState} (hs : s.Ended) (hP : P a s)
    (h : (loop turn a).run s = .ok (b, s')) : Q b s' := by
  rcases run_loop_eq_ok ht hs h with h | ⟨a', s₁, hr, h⟩
  · exact hdone a s b s' hP hs h
  · have hlt := ht hs hr
    exact loop_induction ht hdone hagain hlt.1 (hagain a s a' s₁ hP hs hr) h
termination_by s.ahead.length

end Parser

/-!
### Parts that may be left out

Four rules have a part that may be left out in their middle. They are the sequences of
their parts, with the choice in a part of its own.
-/

namespace Rule

open ScriptLang.Parser

variable {g : Grammar}

theorem ite_bind {α β : Type} (P : Prop) [Decidable P] (p q : Parser α) (f : α → Parser β) :
    (if P then p else q) >>= f = if P then p >>= f else q >>= f := by
  split <;> rfl

/-- An expression unless it is left out. -/
def optional (g : Grammar) (leftOut : Bool) : Parser (Option Expr) :=
  if leftOut then pure none else some <$> g.expression

/-- The last part of a stretch with the colon before it. -/
def stride (g : Grammar) : Parser (Option Expr) :=
  accept (.sign .colon) >>= fun more =>
    if more then kind >>= fun next => optional g (next = .sign .rightBracket) else pure none

/-- The message of an assertion with the comma before it. -/
def message : Parser (Option Text) :=
  accept (.sign .comma) >>= fun more => if more then some <$> assertionMessage else pure none

/-- The end of a definition, which an arrow makes a simple statement. -/
def definitionEnd (arrow : Bool) : Parser Unit := if arrow then statementEnd else pure ()

theorem stretch_eq (start : Option Expr) :
    stretch g start = (do
      let next ← kind
      let stop ← optional g (next = .sign .colon || next = .sign .rightBracket)
      let step ← stride g
      pure (.stretch start stop step)) := by
  simp only [stretch, stride, optional, ite_bind, bind_assoc, decide_eq_true_eq]

theorem optionalBefore_eq (closing : TokenKind) :
    optionalBefore g closing = kind >>= fun next => optional g (next = closing) := by
  simp only [optionalBefore, optional, decide_eq_true_eq]

theorem returning_eq :
    returning g = (do
      let start ← expect (.keyword .returnWord) (.token (.keyword .returnWord))
      let value ← atStatementEnd >>= optional g
      statementEnd
      let span ← spanFrom start.span
      pure (.returning span value)) := by
  simp only [returning, optional, ite_bind, bind_assoc]

theorem assertion_eq :
    assertion g = (do
      let start ← expect (.keyword .assertWord) (.token (.keyword .assertWord))
      let condition ← g.expression
      let text ← message
      statementEnd
      let span ← spanFrom start.span
      pure (.assertion span condition text)) := by
  simp only [assertion, message, ite_bind, bind_assoc]

theorem definition_eq :
    definition g = (do
      let start ← expect (.keyword .defWord) (.token (.keyword .defWord))
      let name ← expectName .functionName
      let _ ← expect (.sign .leftParen) .parametersStart
      let names ← parameters (.sign .rightParen)
      let _ ← expect (.sign .rightParen) .argumentEnd
      let next ← kind
      let block ← g.body
      definitionEnd (next = .sign .doubleArrow)
      let span ← spanFrom start.span
      pure ⟨span, name, names, block⟩) := by
  simp only [definition, definitionEnd, ite_bind, decide_eq_true_eq, pure_bind]

end Rule

end ScriptLang
