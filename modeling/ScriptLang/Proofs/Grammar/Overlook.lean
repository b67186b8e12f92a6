import ScriptLang.Proofs.Grammar.Reads
import ScriptLang.Proofs.Token.Bracketed

/-!
# Line breaks in brackets

The parser counts the brackets that are open, takes the count away in a block or behind an arrow,
and puts it back. So wherever it asks for a line break, the count is positive or the token ahead is
not bracketed (`Settled`), and at the ends of statements it is not bracketed at all. Line breaks
before bracketed tokens make no difference, then, not even to how a reading fails
(`Program.parseTokensAt_rebroken`).

`Parser.Overlooks K n ds p es` says so of a parser: with `n` brackets counted, the delimiters `ds`
open and a token of a kind in `K` ahead, it reads the same from two lists of tokens that agree but
for such line breaks, and leaves the delimiters `es` open. The combinators of parsers have one rule
each.
-/

namespace ScriptLang

/-- Two states before tokens that agree but for line breaks before bracketed ones, with `n`
brackets counted and the delimiters `ds` open. A last token that is not the end of the input may be
read more than once, so it is the same. -/
structure ParserState.Rebroken (ds : List Opening) (n : Nat) (s s' : ParserState) : Prop where
  tokens : ScriptLang.Rebroken ds (s.ahead ++ [s.finish]) (s'.ahead ++ [s'.finish])
  last : s.finish.kind = .endOfInput ∨ s'.finish = s.finish
  lastStop : s'.lastStop = s.lastStop
  brackets : s.brackets = n
  brackets' : s'.brackets = n

/-- No line break before the token ahead matters: a bracket is counted, or the token ahead is not
bracketed. -/
def Settled (ds : List Opening) (n : Nat) : Prop := 0 < n ∨ bracketing ds = false

namespace ParserState.Rebroken

variable {ds es : List Opening} {n : Nat} {s s' : ParserState}

theorem cases_ahead (h : s.Rebroken ds n s') :
    (s.ahead = [] ∧ s'.ahead = [] ∧ ∃ b, s'.finish = s.finish.withBreak b ∧
      (bracketing ds = false → b = s.finish.afterBreak)) ∨
    ∃ t ts b us, s.ahead = t :: ts ∧ s'.ahead = t.withBreak b :: us ∧
      (bracketing ds = false → b = t.afterBreak) ∧
      ScriptLang.Rebroken (openBehind ds t.kind) (ts ++ [s.finish]) (us ++ [s'.finish]) := by
  have htokens := h.tokens
  have hlength : s'.ahead.length = s.ahead.length := by simpa using htokens.length_eq
  cases hs : s.ahead with
  | nil =>
    have hs' : s'.ahead = [] := List.length_eq_zero_iff.1 (by rw [hlength, hs, List.length_nil])
    rw [hs, hs'] at htokens
    obtain ⟨b, us, heq, hb, -⟩ := htokens.cons_left
    exact .inl ⟨rfl, hs', b, (List.cons.inj heq).1, hb⟩
  | cons t ts =>
    rw [hs] at htokens hlength
    obtain ⟨b, vs, heq, hb, hrest⟩ := htokens.cons_left
    cases hs' : s'.ahead with
    | nil => rw [hs'] at hlength; cases hlength
    | cons u us =>
      rw [hs', List.cons_append] at heq
      obtain ⟨rfl, rfl⟩ := List.cons.inj heq
      exact .inr ⟨t, ts, b, us, rfl, rfl, hb, hrest⟩

/-- The tokens ahead say the same. -/
theorem current (h : s.Rebroken ds n s') : ∃ b, s'.current = s.current.withBreak b ∧
    (bracketing ds = false → b = s.current.afterBreak) := by
  rcases h.cases_ahead with ⟨hs, hs', b, hfinish, hb⟩ | ⟨t, ts, b, us, hs, hs', hb, -⟩
  · rw [current_of_nil hs, current_of_nil hs']
    exact ⟨b, hfinish, hb⟩
  · rw [current_of_cons hs, current_of_cons hs']
    exact ⟨b, rfl, hb⟩

theorem current_eq (h : s.Rebroken ds n s') (hds : bracketing ds = false) :
    s'.current = s.current := by
  obtain ⟨b, hcurrent, hb⟩ := h.current
  rw [hcurrent, hb hds, Token.withBreak_self]

theorem current_kind (h : s.Rebroken ds n s') : s'.current.kind = s.current.kind := by
  obtain ⟨b, hcurrent, -⟩ := h.current
  rw [hcurrent, Token.withBreak_kind]

theorem onSameLine_eq (h : s.Rebroken ds n s') (hds : Settled ds n) :
    s'.onSameLine = s.onSameLine := by
  unfold onSameLine
  rw [h.brackets, h.brackets']
  rcases hds with hn | hds
  · simp [hn]
  · rw [h.current_eq hds]

theorem skip (h : s.Rebroken ds n s') :
    s.skip.Rebroken (openBehind ds s.current.kind) n s'.skip := by
  rcases h.cases_ahead with ⟨hs, hs', b, hfinish, hb⟩ | ⟨t, ts, b, us, hs, hs', hb, hrest⟩
  · rw [skip_of_nil hs, skip_of_nil hs', current_of_nil hs]
    refine ⟨?_, h.last, h.lastStop, h.brackets, h.brackets'⟩
    -- the last token stays ahead: the end of the input opens nothing, any other token is the same
    rcases h.last with hlast | hsame
    · rw [hlast]
      exact h.tokens
    · rw [hs, hs', hsame]
      exact .refl _ _
  · rw [skip_of_cons hs, skip_of_cons hs', current_of_cons hs]
    exact ⟨hrest, h.last, rfl, h.brackets, h.brackets'⟩

theorem withBrackets (h : s.Rebroken ds n s') (m : Nat) :
    ParserState.Rebroken ds m { s with brackets := m } { s' with brackets := m } :=
  ⟨h.tokens, h.last, h.lastStop, rfl, rfl⟩

theorem of_moreArrows (h : s.Rebroken es n s') (hds : MoreArrows ds es) : s.Rebroken ds n s' :=
  ⟨h.tokens.of_moreArrows hds, h.last, h.lastStop, h.brackets, h.brackets'⟩

end ParserState.Rebroken

namespace Parser

/-- Two readings that come to the same: a result in states before like tokens, or a complaint. -/
inductive Alike {α : Type} (n : Nat) (es : List Opening) :
    Except Complaint (α × ParserState) → Except Complaint (α × ParserState) → Prop
  | ok (a : α) {s s' : ParserState} (h : s.Rebroken es n s') : Alike n es (.ok (a, s)) (.ok (a, s'))
  | error (c : Complaint) : Alike n es (.error c) (.error c)

/-- A parser reads the same whatever line breaks stand before bracketed tokens. -/
def Overlooks {α : Type} (K : TokenKind → Prop) (n : Nat) (ds : List Opening) (p : Parser α)
    (es : List Opening) : Prop :=
  ∀ ⦃s s'⦄, s.Rebroken ds n s' → K s.current.kind → Alike n es (p.run s) (p.run s')

namespace Overlooks

variable {α β : Type} {K : TokenKind → Prop} {n : Nat} {ds es fs : List Opening}
  {p q : Parser α} {f : α → Parser β}

theorem pure (a : α) : Overlooks K n ds (pure a) ds :=
  fun _ _ hs _ => .ok a hs

theorem bind (hp : Overlooks K n ds p es) (hf : ∀ a, Overlooks (fun _ => True) n es (f a) fs) :
    Overlooks K n ds (p >>= f) fs := by
  intro s s' hs hk
  have hrun := hp hs hk
  rw [run_bind, run_bind]
  generalize p.run s = x at hrun ⊢
  generalize p.run s' = y at hrun ⊢
  cases hrun with
  | ok a hs₁ => exact hf a hs₁ trivial
  | error c => exact .error c

theorem map (g : α → β) (hp : Overlooks K n ds p es) : Overlooks K n ds (g <$> p) es := by
  rw [← bind_pure_comp]
  exact hp.bind fun a => .pure (g a)

theorem ite {c : Prop} [Decidable c] (hp : c → Overlooks K n ds p es)
    (hq : Overlooks K n ds q es) : Overlooks K n ds (if c then p else q) es := by
  split
  · next hc => exact hp hc
  · exact hq

theorem of_moreArrows (hp : Overlooks K n ds p es) (hes : MoreArrows fs es) :
    Overlooks K n ds p fs := by
  intro s s' hs hk
  have hrun := hp hs hk
  generalize p.run s = x at hrun ⊢
  generalize p.run s' = y at hrun ⊢
  cases hrun with
  | ok a hs₁ => exact .ok a (hs₁.of_moreArrows hes)
  | error c => exact .error c

/-! ### Looking ahead -/

theorem current_bind {f : Token → Parser β} (hf : ∀ t b, f (t.withBreak b) = f t)
    (h : ∀ t, Overlooks (fun k => k = t.kind) n ds (f t) fs) :
    Overlooks K n ds (Parser.current >>= f) fs := by
  intro s s' hs _
  obtain ⟨b, hcurrent, -⟩ := hs.current
  rw [run_current_bind, run_current_bind, hcurrent, hf]
  exact h _ hs rfl

theorem kind_bind {f : TokenKind → Parser β}
    (h : ∀ x, Overlooks (fun k => k = x) n ds (f x) fs) :
    Overlooks K n ds (Parser.kind >>= f) fs := by
  intro s s' hs _
  rw [run_kind_bind, run_kind_bind, hs.current_kind]
  exact h _ hs rfl

theorem onSameLine_bind {f : Bool → Parser β} (hds : Settled ds n)
    (h : ∀ b, Overlooks K n ds (f b) fs) : Overlooks K n ds (Parser.onSameLine >>= f) fs := by
  intro s s' hs hk
  rw [run_onSameLine_bind, run_onSameLine_bind, hs.onSameLine_eq hds]
  exact h _ hs hk

theorem spanFrom_bind {start : Span} {f : Span → Parser β}
    (h : ∀ span, Overlooks K n ds (f span) fs) : Overlooks K n ds (spanFrom start >>= f) fs := by
  intro s s' hs hk
  rw [run_spanFrom_bind, run_spanFrom_bind, hs.lastStop]
  exact h _ hs hk

theorem atStatementEnd (hds : bracketing ds = false) : Overlooks K n ds atStatementEnd ds := by
  intro s s' hs _
  have hends : endsStatement s' = endsStatement s := by
    unfold endsStatement
    rw [hs.current_eq hds]
  rw [run_atStatementEnd, run_atStatementEnd, hends]
  exact .ok _ hs

/-! ### Refusing -/

theorem fail (e : Expectation) : Overlooks K n ds (fail e : Parser α) es := by
  intro s s' hs _
  obtain ⟨b, hcurrent, -⟩ := hs.current
  rw [run_fail, run_fail, hcurrent]
  exact .error _

theorem refuseTarget (target : Span) (start : Token) :
    Overlooks K n ds (refuseTarget target start : Parser α) es :=
  fun _ _ _ _ => .error _

theorem tooDeep : Overlooks K n ds (tooDeep : Parser α) es := by
  intro s s' hs _
  obtain ⟨b, hcurrent, -⟩ := hs.current
  rw [run_tooDeep, run_tooDeep, hcurrent]
  exact .error _

/-! ### Moving on -/

theorem advance_bind {x : TokenKind} {f : Token → Parser β}
    (hf : ∀ t b, f (t.withBreak b) = f t)
    (h : ∀ t, Overlooks (fun _ => True) n (openBehind ds x) (f t) fs) :
    Overlooks (fun k => k = x) n ds (advance >>= f) fs := by
  rintro s s' hs rfl
  obtain ⟨b, hcurrent, -⟩ := hs.current
  rw [run_advance_bind, run_advance_bind, hcurrent, hf]
  exact h _ hs.skip trivial

theorem advance_seq {x : TokenKind} {p : Parser β}
    (h : Overlooks (fun _ => True) n (openBehind ds x) p fs) :
    Overlooks (fun k => k = x) n ds (advance *> p) fs := by
  rintro s s' hs rfl
  rw [run_advance_seq, run_advance_seq]
  exact h hs.skip trivial

theorem expect_bind {x : TokenKind} {e : Expectation} {f : Token → Parser β}
    (hf : ∀ t b, f (t.withBreak b) = f t)
    (h : ∀ t, Overlooks (fun _ => True) n (openBehind ds x) (f t) fs) :
    Overlooks K n ds (expect x e >>= f) fs := by
  unfold Parser.expect
  rw [bind_assoc]
  refine kind_bind fun k => ?_
  rw [Rule.ite_bind]
  refine ite (fun hk => ?_) ?_
  · subst hk
    exact advance_bind hf h
  · exact bind (fail e) fun t => h t

theorem accept_bind {x : TokenKind} {f : Bool → Parser β}
    (ht : Overlooks (fun _ => True) n (openBehind ds x) (f true) fs)
    (hf : Overlooks (fun _ => True) n ds (f false) fs) :
    Overlooks K n ds (accept x >>= f) fs := by
  intro s s' hs _
  rw [run_accept_bind, run_accept_bind, hs.current_kind]
  split
  · next hk =>
    subst hk
    exact ht hs.skip trivial
  · exact hf hs trivial

theorem accept_ite {x : TokenKind} {p q : Parser β}
    (hp : Overlooks (fun _ => True) n (openBehind ds x) p fs)
    (hq : Overlooks (fun _ => True) n ds q fs) :
    Overlooks K n ds (accept x >>= fun found => if found then p else q) fs :=
  accept_bind hp hq

theorem expectName (e : Expectation) : Overlooks K n ds (expectName e) ds := by
  unfold Parser.expectName
  refine current_bind (fun _ _ => rfl) fun t => ?_
  split
  · next name h =>
    have hkind : t.kind = .identifier := by
      rw [Token.kind, h]
      rfl
    rw [hkind]
    exact advance_bind (fun _ _ => rfl) fun _ => .pure name
  · exact fail e

theorem statementEnd (hds : bracketing ds = false) : Overlooks K n ds statementEnd ds := by
  unfold Parser.statementEnd
  intro s s' hs hk
  rw [run_current_bind, run_current_bind, hs.current_eq hds]
  split
  · next h => exact advance_bind (fun _ _ => rfl) (fun _ => .pure ()) hs h
  · exact .ok () hs
  · exact .ok () hs
  · split
    · exact .ok () hs
    · exact fail _ hs hk

theorem inBrackets (hp : Overlooks K (n + 1) ds p es) : Overlooks K n ds (inBrackets p) es := by
  intro s s' hs hk
  have hrun := hp (hs.withBrackets (n + 1)) hk
  rw [run_inBrackets, run_inBrackets, hs.brackets, hs.brackets']
  generalize p.run { s with brackets := n + 1 } = x at hrun ⊢
  generalize p.run { s' with brackets := n + 1 } = y at hrun ⊢
  cases hrun with
  | @ok a s₁ s₁' hs₁ =>
    dsimp only
    rw [hs₁.brackets, hs₁.brackets']
    exact .ok a (hs₁.withBrackets n)
  | error c => exact .error c

theorem outsideBrackets (hp : Overlooks K 0 ds p es) :
    Overlooks K n ds (outsideBrackets p) es := by
  intro s s' hs hk
  have hrun := hp (hs.withBrackets 0) hk
  rw [run_outsideBrackets, run_outsideBrackets, hs.brackets, hs.brackets']
  generalize p.run { s with brackets := 0 } = x at hrun ⊢
  generalize p.run { s' with brackets := 0 } = y at hrun ⊢
  cases hrun with
  | ok a hs₁ => exact .ok a (hs₁.withBrackets n)
  | error c => exact .error c

theorem turns {turn : α → Parser (Turn α)}
    (hturn : ∀ a, Overlooks (fun _ => True) n ds (turn a) ds) :
    ∀ (ts us : List Token) (a : α), us.length = ts.length → ∀ ⦃s s'⦄, s.Rebroken ds n s' →
      Alike n ds ((turns turn ts a).run s) ((turns turn us a).run s')
  | [], [], a, _, _, _, hs => .ok a hs
  | _ :: ts, _ :: us, a, hlength, s, s', hs => by
    have hrun := hturn a hs trivial
    rw [Parser.turns, Parser.turns, run_bind, run_bind]
    generalize (turn a).run s = x at hrun ⊢
    generalize (turn a).run s' = y at hrun ⊢
    cases hrun with
    | ok r hs₁ =>
      cases r with
      | again b => exact turns hturn ts us b (Nat.succ.inj hlength) hs₁
      | done b => exact .ok b hs₁
    | error c => exact .error c

theorem loop {turn : α → Parser (Turn α)}
    (hturn : ∀ a, Overlooks (fun _ => True) n ds (turn a) ds) (a : α) :
    Overlooks K n ds (loop turn a) ds := by
  intro s s' hs _
  have hlength : s'.ahead.length = s.ahead.length := by simpa using hs.tokens.length_eq
  exact turns hturn (s.finish :: s.ahead) (s'.finish :: s'.ahead) a (congrArg Nat.succ hlength) hs

end Overlooks

end Parser

open ScriptLang.Parser

/-- All rules of a grammar read the same whatever line breaks stand before bracketed tokens, and
leave the delimiters open that were. Expressions are read where line breaks are settled,
statements where no token is bracketed; a block settles its own line breaks. -/
structure Grammar.Overlooks (g : Grammar) : Prop where
  expression : ∀ {K n ds}, Settled ds n → g.expression.Overlooks K n ds ds
  binary : ∀ {K n ds} level, Settled ds n → (g.binary level).Overlooks K n ds ds
  unary : ∀ {K n ds}, Settled ds n → g.unary.Overlooks K n ds ds
  suffixed : ∀ {K n ds}, Settled ds n → g.suffixed.Overlooks K n ds ds
  primary : ∀ {K n} ds, g.primary.Overlooks K n ds ds
  body : ∀ {K n} ds, g.body.Overlooks K n ds ds
  block : ∀ {K n} ds, g.block.Overlooks K n ds ds
  conditional : ∀ {K n ds}, bracketing ds = false → g.conditional.Overlooks K n ds ds
  statement : ∀ {K n ds}, bracketing ds = false → g.statement.Overlooks K n ds ds

theorem settled_succ (ds : List Opening) (n : Nat) : Settled ds (n + 1) := .inl n.succ_pos

namespace Rule

variable {g : Grammar} {K : TokenKind → Prop} {n : Nat} {ds : List Opening}

/-! ### Expressions -/

theorem expression_overlooks (hg : g.Overlooks) (hds : Settled ds n) :
    (expression g).Overlooks K n ds ds := by
  unfold expression
  refine .current_bind (fun _ _ => rfl) fun _ => .bind (hg.binary 1 hds) fun e =>
    .kind_bind fun k => .onSameLine_bind hds fun same => .ite (fun h => ?_) (.pure e)
  have hk : k = .sign .assign := of_decide_eq_true (Bool.and_eq_true_iff.1 h).1
  subst hk
  split
  · exact .advance_bind (fun _ _ => rfl) fun _ => .bind (hg.expression hds) fun _ => .pure _
  · exact .refuseTarget _ _

/-- The sign of a connective opens and closes nothing. -/
theorem openBehind_connective {k : TokenKind} {c : Connective}
    (h : Connective.ofKind? k = some c) : openBehind ds k = ds := by
  unfold Connective.ofKind? at h
  split at h
  case h_14 => cases h
  all_goals rfl

theorem binaryTurn_overlooks (hg : g.Overlooks) (hds : Settled ds n) (level : Nat) (left : Expr) :
    (binaryTurn g level left).Overlooks K n ds ds := by
  unfold binaryTurn
  refine .onSameLine_bind hds fun _ => .ite (fun _ => .pure _) (.kind_bind fun k => ?_)
  split
  · exact .pure _
  · next c hc =>
    refine .ite (fun _ => .pure _) (.advance_bind (fun _ _ => rfl) fun _ => ?_)
    rw [openBehind_connective hc]
    exact .bind (hg.binary _ hds) fun _ => .pure _

theorem binary_overlooks (hg : g.Overlooks) (hds : Settled ds n) (level : Nat) :
    (Rule.binary g level).Overlooks K n ds ds := by
  unfold Rule.binary
  exact .bind (hg.unary hds) fun left => .loop (binaryTurn_overlooks hg hds level) left

theorem increment_overlooks (sign : Token) (target : Expr) (direction : Direction) (side : Side) :
    (increment sign target direction side).Overlooks K n ds ds := by
  unfold increment
  split
  · exact .pure _
  · exact .refuseTarget _ _

theorem unary_overlooks (hg : g.Overlooks) (hds : Settled ds n) :
    (unary g).Overlooks K n ds ds := by
  unfold unary
  refine .kind_bind fun k => ?_
  split
  · exact .advance_bind (fun _ _ => rfl) fun _ => .bind (hg.unary hds) fun _ => .pure _
  · exact .advance_bind (fun _ _ => rfl) fun _ => .bind (hg.unary hds) fun _ => .pure _
  · exact .advance_bind (fun _ _ => rfl) fun _ => .bind (hg.unary hds) fun _ =>
      increment_overlooks _ _ _ _
  · exact .advance_bind (fun _ _ => rfl) fun _ => .bind (hg.unary hds) fun _ =>
      increment_overlooks _ _ _ _
  · exact hg.suffixed hds

theorem argumentTurn_overlooks (hg : g.Overlooks) (hds : Settled ds n) (done : List Expr) :
    (argumentTurn g done).Overlooks K n ds ds := by
  unfold argumentTurn
  exact .accept_ite (.kind_bind fun _ => .ite (fun _ => .pure _)
    (.bind (hg.expression hds) fun _ => .pure _)) (.pure _)

theorem arguments_overlooks (hg : g.Overlooks) (hds : Settled ds n) :
    (arguments g).Overlooks K n ds ds := by
  unfold arguments
  exact .kind_bind fun _ => .ite (fun _ => .pure _) (.bind (hg.expression hds) fun _ =>
    .bind (.loop (argumentTurn_overlooks hg hds) _) fun _ => .pure _)

theorem call_overlooks (hg : g.Overlooks) (callee : Expr) :
    (call g callee).Overlooks K n ds ds := by
  unfold call
  exact .expect_bind (fun _ _ => rfl) fun _ =>
    .bind (.inBrackets (arguments_overlooks hg (settled_succ _ _))) fun _ =>
      .expect_bind (fun _ _ => rfl) fun _ => .spanFrom_bind fun _ => .pure _

theorem optional_overlooks (hg : g.Overlooks) (hds : Settled ds n) (leftOut : Bool) :
    (optional g leftOut).Overlooks K n ds ds := by
  unfold optional
  exact .ite (fun _ => .pure _) (.map _ (hg.expression hds))

theorem stride_overlooks (hg : g.Overlooks) (hds : Settled ds n) :
    (stride g).Overlooks K n ds ds := by
  unfold stride
  exact .accept_ite (.kind_bind fun _ => optional_overlooks hg hds _) (.pure _)

theorem stretch_overlooks (hg : g.Overlooks) (hds : Settled ds n) (start : Option Expr) :
    (stretch g start).Overlooks K n ds ds := by
  rw [stretch_eq]
  exact .kind_bind fun _ => .bind (optional_overlooks hg hds _) fun _ =>
    .bind (stride_overlooks hg hds) fun _ => .pure _

theorem subscript_overlooks (hg : g.Overlooks) (hds : Settled ds n) :
    (subscript g).Overlooks K n ds ds := by
  unfold subscript
  exact .accept_ite (stretch_overlooks hg hds none) (.bind (hg.expression hds) fun _ =>
    .accept_ite (stretch_overlooks hg hds _) (.pure _))

theorem subscripted_overlooks (hg : g.Overlooks) (target : Expr) :
    (subscripted g target).Overlooks K n ds ds := by
  unfold subscripted
  refine .expect_bind (fun _ _ => rfl) fun _ =>
    .bind (.inBrackets (subscript_overlooks hg (settled_succ _ _))) fun found => ?_
  cases found with
  | position value =>
    exact .expect_bind (fun _ _ => rfl) fun _ => .spanFrom_bind fun _ => .pure _
  | stretch start stop step =>
    exact .expect_bind (fun _ _ => rfl) fun _ => .spanFrom_bind fun _ => .pure _

theorem suffixTurn_overlooks (hg : g.Overlooks) (hds : Settled ds n) (operand : Expr) :
    (suffixTurn g operand).Overlooks K n ds ds := by
  unfold suffixTurn
  refine .onSameLine_bind hds fun _ => .ite (fun _ => .pure _) (.kind_bind fun k => ?_)
  split
  · exact .bind (call_overlooks hg operand) fun _ => .pure _
  · exact .bind (subscripted_overlooks hg operand) fun _ => .pure _
  · exact .advance_bind (fun _ _ => rfl) fun _ => .bind (increment_overlooks _ _ _ _)
      fun _ => .pure _
  · exact .advance_bind (fun _ _ => rfl) fun _ => .bind (increment_overlooks _ _ _ _)
      fun _ => .pure _
  · exact .pure _

theorem suffixed_overlooks (hg : g.Overlooks) (hds : Settled ds n) :
    (suffixed g).Overlooks K n ds ds := by
  unfold suffixed
  exact .bind (hg.primary _) fun operand => .loop (suffixTurn_overlooks hg hds) operand

theorem parameterTurn_overlooks (closing : TokenKind) (done : List Text) :
    (parameterTurn closing done).Overlooks K n ds ds := by
  unfold parameterTurn
  exact .accept_ite (.kind_bind fun _ => .ite (fun _ => .pure _)
    (.bind (.expectName _) fun _ => .pure _)) (.pure _)

theorem parameters_overlooks (closing : TokenKind) :
    (parameters closing).Overlooks K n ds ds := by
  unfold parameters parameterNames
  exact .kind_bind fun _ => .ite (fun _ => .pure _) (.bind (.expectName _) fun _ =>
    .bind (.loop (parameterTurn_overlooks closing) _) fun _ => .pure _)

/-- Behind the arrow of a body no token is bracketed, so the count of brackets may be taken
away; that the arrow stands there only matters inside the brackets around the function. -/
theorem body_overlooks (hg : g.Overlooks) : (body g).Overlooks K n ds ds := by
  unfold body
  refine .kind_bind fun k => .ite (fun hk => ?_) (hg.block _)
  subst hk
  refine .of_moreArrows (.advance_bind (fun _ _ => rfl) fun _ => .bind (.outsideBrackets
    (hg.expression (.inr (bracketing_markArrow ds)))) fun _ => .pure _) (moreArrows_markArrow ds)

theorem lambda_overlooks (hg : g.Overlooks) :
    (lambda g).Overlooks K n ds ds := by
  unfold lambda
  exact .expect_bind (fun _ _ => rfl) fun _ => .bind (parameters_overlooks _) fun _ =>
    .expect_bind (fun _ _ => rfl) fun _ => .bind (hg.body _) fun _ => .spanFrom_bind fun _ =>
      .pure _

theorem group_overlooks (hg : g.Overlooks) :
    (group g).Overlooks (fun k => k = .sign .leftParen) n ds ds := by
  unfold group
  exact .advance_bind (fun _ _ => rfl) fun _ =>
    .bind (.inBrackets (hg.expression (settled_succ _ _))) fun _ =>
      .expect_bind (fun _ _ => rfl) fun _ => .pure _

theorem primary_overlooks (hg : g.Overlooks) : (primary g).Overlooks K n ds ds := by
  unfold primary
  refine .current_bind (fun _ _ => rfl) fun t => ?_
  have hkind : t.kind = t.content.kind := rfl
  have hleaf : openBehind ds t.kind = ds → ∀ e : Expr,
      (advance *> pure e : Parser Expr).Overlooks (fun k => k = t.kind) n ds ds :=
    fun h e => .advance_seq (h.symm ▸ .pure e)
  dsimp only
  rw [hkind] at hleaf ⊢
  split
  case h_8 h => rw [h]; exact group_overlooks hg
  case h_9 => exact lambda_overlooks hg
  case h_10 => exact .fail _
  all_goals next h => exact hleaf (by rw [h]; rfl) _

/-! ### Statements -/

theorem blockTurn_overlooks (hg : g.Overlooks) (hds : bracketing ds = false) (done : List Stmt) :
    (blockTurn g done).Overlooks K n ds ds := by
  unfold blockTurn
  refine .kind_bind fun _ => ?_
  split
  · exact .pure _
  · exact .fail _
  · exact .advance_bind (fun _ _ => rfl) fun _ => .pure _
  · exact .bind (hg.statement hds) fun _ => .pure _

theorem block_overlooks (hg : g.Overlooks) : (block g).Overlooks K n ds ds := by
  unfold block
  exact .expect_bind (fun _ _ => rfl) fun _ =>
    .bind (.outsideBrackets (.loop (blockTurn_overlooks hg rfl) [])) fun _ =>
      .expect_bind (fun _ _ => rfl) fun _ => .spanFrom_bind fun _ => .pure _

/-- A declaration yields its first token, of which only the place is used. -/
theorem declaration_bind (hg : g.Overlooks) (hds : Settled ds n) {α : Type}
    {f : Token × Text × Expr → Parser α}
    (hf : ∀ t b x, f (t.withBreak b, x) = f (t, x))
    (h : ∀ x, (f x).Overlooks (fun _ => True) n ds ds) :
    (declaration g >>= f).Overlooks K n ds ds := by
  unfold declaration
  simp only [bind_assoc, pure_bind]
  exact .expect_bind (fun t b => by simp only [hf]) fun _ => .bind (.expectName _) fun _ =>
    .expect_bind (fun _ _ => rfl) fun _ => .bind (hg.expression hds) fun _ => h _

theorem declarationStatement_overlooks (hg : g.Overlooks) (hds : bracketing ds = false) :
    (declarationStatement g).Overlooks K n ds ds := by
  unfold declarationStatement
  exact declaration_bind hg (.inr hds) (fun _ _ _ => rfl) fun _ =>
    .bind (.statementEnd hds) fun _ => .spanFrom_bind fun _ => .pure _

theorem definition_overlooks (hg : g.Overlooks) (hds : bracketing ds = false) :
    (definition g).Overlooks K n ds ds := by
  rw [definition_eq]
  refine .expect_bind (fun _ _ => rfl) fun _ => .bind (.expectName _) fun _ =>
    .expect_bind (fun _ _ => rfl) fun _ => .bind (parameters_overlooks _) fun _ =>
      .expect_bind (fun _ _ => rfl) fun _ => .kind_bind fun _ => .bind (hg.body _) fun _ => ?_
  unfold definitionEnd
  exact .bind (.ite (fun _ => .statementEnd hds) (.pure _)) fun _ => .spanFrom_bind fun _ =>
    .pure _

theorem decoratorTurn_overlooks (hg : g.Overlooks) (hds : Settled ds n) (done : List Expr) :
    (decoratorTurn g done).Overlooks K n ds ds := by
  unfold decoratorTurn
  exact .accept_ite (.bind (hg.suffixed hds) fun _ => .accept_bind (.pure _) (.pure _)) (.pure _)

theorem decorated_overlooks (hg : g.Overlooks) (hds : bracketing ds = false) :
    (decorated g).Overlooks K n ds ds := by
  unfold decorated
  exact .bind (.loop (decoratorTurn_overlooks hg (.inr hds)) []) fun _ => .kind_bind fun _ =>
    .ite (fun _ => .bind (definition_overlooks hg hds) fun _ => .pure _) (.fail _)

theorem otherwise_overlooks (hg : g.Overlooks) (hds : bracketing ds = false) :
    (otherwise g).Overlooks K n ds ds := by
  unfold otherwise
  exact .accept_ite (.kind_bind fun _ => .ite (fun _ => .bind (hg.conditional hds) fun _ => .pure _)
    (.bind (hg.block _) fun _ => .pure _)) (.pure _)

theorem conditional_overlooks (hg : g.Overlooks) (hds : bracketing ds = false) :
    (conditional g).Overlooks K n ds ds := by
  unfold conditional
  exact .expect_bind (fun _ _ => rfl) fun _ => .bind (hg.expression (.inr hds)) fun _ =>
    .bind (hg.block _) fun _ => .bind (otherwise_overlooks hg hds) fun _ => .spanFrom_bind fun _ =>
      .pure _

theorem whileLoop_overlooks (hg : g.Overlooks) (hds : bracketing ds = false) :
    (whileLoop g).Overlooks K n ds ds := by
  unfold whileLoop
  exact .expect_bind (fun _ _ => rfl) fun _ => .bind (hg.expression (.inr hds)) fun _ =>
    .bind (hg.block _) fun _ => .spanFrom_bind fun _ => .pure _

theorem initializer_overlooks (hg : g.Overlooks) (hds : Settled ds n) :
    (initializer g).Overlooks K n ds ds := by
  unfold initializer
  refine .kind_bind fun _ => ?_
  split
  · exact declaration_bind hg hds (fun _ _ _ => rfl) fun _ => .spanFrom_bind fun _ => .pure _
  · exact .pure _
  · exact .bind (hg.expression hds) fun _ => .pure _

theorem optionalBefore_overlooks (hg : g.Overlooks) (hds : Settled ds n) (closing : TokenKind) :
    (optionalBefore g closing).Overlooks K n ds ds := by
  rw [optionalBefore_eq]
  exact .kind_bind fun _ => optional_overlooks hg hds _

theorem countingHeader_overlooks (hg : g.Overlooks) (hds : Settled ds n) :
    (countingHeader g).Overlooks K n ds ds := by
  unfold countingHeader
  exact .bind (initializer_overlooks hg hds) fun _ => .expect_bind (fun _ _ => rfl) fun _ =>
    .bind (optionalBefore_overlooks hg hds _) fun _ => .expect_bind (fun _ _ => rfl) fun _ =>
      .bind (optionalBefore_overlooks hg hds _) fun _ => .pure _

theorem countingLoop_overlooks (hg : g.Overlooks) (start : Token) :
    (countingLoop g start).Overlooks K n ds ds := by
  unfold countingLoop
  exact .expect_bind (fun _ _ => rfl) fun _ =>
    .bind (.inBrackets (countingHeader_overlooks hg (settled_succ _ _))) fun _ =>
      .expect_bind (fun _ _ => rfl) fun _ => .bind (hg.block _) fun _ => .spanFrom_bind fun _ =>
        .pure _

theorem forLoop_overlooks (hg : g.Overlooks) (hds : bracketing ds = false) :
    (forLoop g).Overlooks K n ds ds := by
  unfold forLoop
  exact .expect_bind (fun _ _ => rfl) fun start => .kind_bind fun _ => .ite
    (fun _ => countingLoop_overlooks hg start)
    (.bind (.expectName _) fun _ => .expect_bind (fun _ _ => rfl) fun _ =>
      .bind (hg.expression (.inr hds)) fun _ => .bind (hg.block _) fun _ => .spanFrom_bind fun _ =>
        .pure _)

theorem returning_overlooks (hg : g.Overlooks) (hds : bracketing ds = false) :
    (returning g).Overlooks K n ds ds := by
  rw [returning_eq]
  exact .expect_bind (fun _ _ => rfl) fun _ => .bind (.bind (.atStatementEnd hds) fun _ =>
    optional_overlooks hg (.inr hds) _) fun _ => .bind (.statementEnd hds) fun _ =>
      .spanFrom_bind fun _ => .pure _

theorem message_overlooks : message.Overlooks K n ds ds := by
  unfold message assertionMessage
  refine .accept_ite (.map _ (.current_bind (fun _ _ => rfl) fun t => ?_)) (.pure _)
  split
  · next text h =>
    have hkind : t.kind = .string := by
      rw [Token.kind, h]
      rfl
    rw [hkind]
    exact .advance_bind (fun _ _ => rfl) fun _ => .pure text
  · exact .fail _

theorem assertion_overlooks (hg : g.Overlooks) (hds : bracketing ds = false) :
    (assertion g).Overlooks K n ds ds := by
  rw [assertion_eq]
  exact .expect_bind (fun _ _ => rfl) fun _ => .bind (hg.expression (.inr hds)) fun _ =>
    .bind message_overlooks fun _ => .bind (.statementEnd hds) fun _ => .spanFrom_bind fun _ =>
      .pure _

theorem word_overlooks {make : Span → Stmt} {k : TokenKind} (hk : openBehind ds k = ds)
    (hds : bracketing ds = false) : (word make).Overlooks (fun x => x = k) n ds ds := by
  unfold word
  exact .advance_bind (fun _ _ => rfl) fun _ =>
    hk.symm ▸ .bind (.statementEnd hds) fun _ => .pure _

theorem expressionStatement_overlooks (hg : g.Overlooks) (hds : bracketing ds = false) :
    (expressionStatement g).Overlooks K n ds ds := by
  unfold expressionStatement
  exact .bind (hg.expression (.inr hds)) fun _ => .bind (.statementEnd hds) fun _ => .pure _

theorem statement_overlooks (hg : g.Overlooks) (hds : bracketing ds = false) :
    (statement g).Overlooks K n ds ds := by
  unfold statement
  refine .kind_bind fun k => ?_
  split
  · exact declarationStatement_overlooks hg hds
  · exact .bind (definition_overlooks hg hds) fun _ => .pure _
  · exact decorated_overlooks hg hds
  · exact .bind (hg.conditional hds) fun _ => .pure _
  · exact whileLoop_overlooks hg hds
  · exact forLoop_overlooks hg hds
  · exact returning_overlooks hg hds
  · exact word_overlooks rfl hds
  · exact word_overlooks rfl hds
  · exact assertion_overlooks hg hds
  · exact expressionStatement_overlooks hg hds

theorem programTurn_overlooks (hg : g.Overlooks) (hds : bracketing ds = false)
    (done : List Stmt) : (programTurn g done).Overlooks K n ds ds := by
  unfold programTurn
  refine .kind_bind fun _ => ?_
  split
  · exact .pure _
  · exact .advance_bind (fun _ _ => rfl) fun _ => .pure _
  · exact .fail _
  · exact .bind (hg.statement hds) fun _ => .pure _

theorem program_overlooks (hg : g.Overlooks) : (program g).Overlooks (fun _ => True) 0 [] [] := by
  unfold program
  exact .current_bind (fun _ _ => rfl) fun _ => .bind (.loop (programTurn_overlooks hg rfl) [])
    fun _ => .current_bind (fun _ _ => rfl) fun _ => .pure _

end Rule

/-! ### Grammars and programs -/

namespace Grammar

open Rule

theorem Overlooks.step {g : Grammar} (hg : g.Overlooks) : g.step.Overlooks where
  expression := expression_overlooks hg
  binary level hds := binary_overlooks hg hds level
  unary := unary_overlooks hg
  suffixed := suffixed_overlooks hg
  primary _ := primary_overlooks hg
  body _ := body_overlooks hg
  block _ := block_overlooks hg
  conditional := conditional_overlooks hg
  statement := statement_overlooks hg

theorem ofDepth_overlooks : ∀ depth, (ofDepth depth).Overlooks
  | 0 => ⟨fun _ => .tooDeep, fun _ _ => .tooDeep, fun _ => .tooDeep, fun _ => .tooDeep,
      fun _ => .tooDeep, fun _ => .tooDeep, fun _ => .tooDeep, fun _ => .tooDeep, fun _ => .tooDeep⟩
  | depth + 1 => (ofDepth_overlooks depth).step

end Grammar

namespace Program

/-- With other line breaks before bracketed tokens, a list of tokens is read as the same tree or
refused with the same complaint. The last token is the end of the input, as in all lists that come
from a source, or keeps its line break: any other token would be ahead again after it is read. -/
theorem parseTokensAt_rebroken (depth : Nat) (breaks : Nat → Bool) (tokens : List Token)
    (hlast : (∀ t ∈ tokens.getLast?, t.kind = .endOfInput) ∨
      (Token.rebroken [] breaks tokens).getLast? = tokens.getLast?) :
    parseTokensAt depth (Token.rebroken [] breaks tokens) = parseTokensAt depth tokens := by
  have htokens := Rebroken.of_rebroken [] breaks tokens
  generalize Token.rebroken [] breaks tokens = others at htokens hlast ⊢
  rcases List.eq_nil_or_concat' tokens with rfl | ⟨ts, finish, rfl⟩
  · rw [List.length_eq_zero_iff.1 htokens.length_eq]
  rcases List.eq_nil_or_concat' others with rfl | ⟨us, finish', rfl⟩
  · have hlength := htokens.length_eq
    simp at hlength
  have hspan : finish'.span = finish.span := by
    have hspans := htokens.map_span
    rw [List.map_append, List.map_append] at hspans
    exact List.singleton_inj.1 (List.append_inj_right' hspans rfl)
  have hstart : ParserState.Rebroken [] 0 ⟨ts, finish, finish.span.stop, 0⟩
      ⟨us, finish', finish'.span.stop, 0⟩ := by
    refine ⟨htokens, hlast.imp (fun h => h finish (by simp)) (fun h => ?_),
      congrArg Span.stop hspan, rfl, rfl⟩
    simpa using h
  have hrun := Rule.program_overlooks (Grammar.ofDepth_overlooks depth) hstart trivial
  rw [parseTokensAt_append, parseTokensAt_append]
  generalize (Rule.program (Grammar.ofDepth depth)).run ⟨ts, finish, finish.span.stop, 0⟩ = x
    at hrun ⊢
  generalize (Rule.program (Grammar.ofDepth depth)).run ⟨us, finish', finish'.span.stop, 0⟩ = y
    at hrun ⊢
  cases hrun <;> rfl

/-- A line break before the sign in a call may go away. -/
theorem parseTokensAt_rebroken_call :
    ∃ tokens b, Token.tokenize none "f(1\n+ 2)" = .ok tokens ∧
      tokens.map Token.afterBreak = [false, false, false, true, false, false, false] ∧
      (Token.rebroken [] (fun _ => false) tokens).map Token.afterBreak =
        [false, false, false, false, false, false, false] ∧
      parseTokensAt 20 tokens = .ok b ∧
      parseTokensAt 20 (Token.rebroken [] (fun _ => false) tokens) = .ok b := by
  have hcheck : ((Token.tokenize none "f(1\n+ 2)").toOption.any fun tokens =>
      tokens.map Token.afterBreak = [false, false, false, true, false, false, false] &&
      ((Token.rebroken [] (fun _ => false) tokens).map Token.afterBreak =
        [false, false, false, false, false, false, false] &&
      (tokens.getLast?.all (fun t => t.kind = .endOfInput) &&
      (parseTokensAt 20 tokens).toOption.isSome))) = true := by
    decide +kernel
  obtain ⟨tokens, htokens, hcheck⟩ := exists_ok_of_any hcheck
  simp only [Bool.and_eq_true, decide_eq_true_eq, Option.all_eq_true] at hcheck
  obtain ⟨hbreaks, hothers, hlast, hparses⟩ := hcheck
  cases hb : parseTokensAt 20 tokens with
  | error c => rw [hb] at hparses; cases hparses
  | ok b =>
    refine ⟨tokens, b, htokens, hbreaks, hothers, hb, ?_⟩
    rw [parseTokensAt_rebroken 20 (fun _ => false) tokens (.inl hlast), hb]

end Program

end ScriptLang
