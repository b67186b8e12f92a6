import ScriptLang.Proofs.Grammar.Continue
import ScriptLang.Proofs.Grammar.Drawn

/-!
# Where complaints point

A complaint points at a stretch of the source and may ask for a line to be quoted. Mostly this
is the line where the stretch begins. A target that is refused is the exception: the line is
that of the token with which the expression begins, or of the sign of the increment
(`Beside`), and a target may begin on a line of its own.

`ParserState.Opened` says where an expression begins: at the first token that is no opening
bracket. `Parser.Aims` says that all complaints of a parser are as described, and leaves tokens
ahead; the combinators of parsers have one rule each. `Grammar.points_ofDepth` gathers the
rules of a grammar, `Program.parseTokensAt_aimed` draws the conclusion for programs.
-/

namespace ScriptLang

open ParserState ScriptLang.Parser

/-- The sign of an increment. -/
def TokenKind.Counts (k : TokenKind) : Prop := k = .sign .plusPlus ∨ k = .sign .minusMinus

/-- A token stands beside what begins at a position: before it, with nothing but opening
brackets in between, or, as the sign of an increment, somewhere behind it. -/
inductive Beside (ts : List Token) (start : Token) (p : Position) : Prop where
  | before {opening : List Token} {first : Token} (here : (start :: (opening ++ [first])) <:+: ts)
      (kind : start.kind = .sign .leftParen ∨ start.kind.Counts)
      (brackets : ∀ t ∈ opening, t.kind = .sign .leftParen) (begins : first.span.start = p)
  | behind {between : List Token} {first : Token} (here : (first :: (between ++ [start])) <:+: ts)
      (kind : start.kind.Counts) (begins : first.span.start = p)

theorem Beside.of_infix {ts us : List Token} {start : Token} {p : Position}
    (h : Beside us start p) (hus : us <:+: ts) : Beside ts start p := by
  cases h with
  | before here kind brackets begins => exact .before (here.trans hus) kind brackets begins
  | behind here kind begins => exact .behind (here.trans hus) kind begins

/-- The line that a complaint about tokens quotes is the one where its stretch begins, or, if a
target is refused, the one of a token beside the target. -/
def Complaint.Aimed (ts : List Token) (c : Complaint) : Prop :=
  (∀ n, c.line = some n → n = c.span.start.line) ∨
    c.cause = .invalidTarget ∧
      ∃ start, Beside ts start c.span.start ∧ c.line = some start.span.start.line

theorem Complaint.Aimed.of_infix {ts us : List Token} {c : Complaint} (h : c.Aimed us)
    (hus : us <:+: ts) : c.Aimed ts :=
  h.imp_right fun ⟨hcause, start, hbeside, hline⟩ => ⟨hcause, start, hbeside.of_infix hus, hline⟩

theorem Complaint.Aimed.of_suffix {ts us : List Token} {c : Complaint} (h : c.Aimed us)
    (hus : us <:+ ts) : c.Aimed ts :=
  h.of_infix hus.isInfix

namespace ParserState

/-- From `s` to `s'` tokens are read, and the first one that is no opening bracket begins at
`p`. -/
def Opened (s : ParserState) (p : Position) (s' : ParserState) : Prop :=
  ∃ opening first between, s.ahead = opening ++ first :: (between ++ s'.ahead) ∧
    (∀ t ∈ opening, t.kind = .sign .leftParen) ∧ first.span.start = p

namespace Opened

variable {s s' s₁ : ParserState} {p : Position}

theorem suffix (h : s.Opened p s') : s'.ahead <:+ s.ahead := by
  obtain ⟨opening, first, between, hahead, -, -⟩ := h
  exact ⟨opening ++ first :: between, by rw [hahead]; simp⟩

theorem andThen (h : s.Opened p s₁) (h' : s'.ahead <:+ s₁.ahead) : s.Opened p s' := by
  obtain ⟨opening, first, between, hahead, hopening, hfirst⟩ := h
  obtain ⟨more, hmore⟩ := h'
  exact ⟨opening, first, between ++ more, by rw [hahead, ← hmore]; simp, hopening, hfirst⟩

theorem of_skip (hs : s.ahead ≠ []) (h : s'.ahead <:+ s.skip.ahead) :
    s.Opened s.current.span.start s' := by
  obtain ⟨between, hbetween⟩ := h
  refine ⟨[], s.current, between, ?_, nofun, rfl⟩
  rw [List.nil_append, hbetween]
  exact ahead_eq_cons hs

theorem of_bracket (hs : s.ahead ≠ []) (hk : s.current.kind = .sign .leftParen)
    (h : s.skip.Opened p s') : s.Opened p s' := by
  obtain ⟨opening, first, between, hahead, hopening, hfirst⟩ := h
  refine ⟨s.current :: opening, first, between, ?_, ?_, hfirst⟩
  · rw [ahead_eq_cons hs, hahead]
    rfl
  · exact List.forall_mem_cons.2 ⟨hk, hopening⟩

/-- A refusal of what was read, which quotes the line where the reading began. -/
theorem aimed (h : s.Opened p s') {c : Complaint} (hcause : c.cause = .invalidTarget)
    (hspan : c.span.start = p) (hline : c.line = some s.current.span.start.line) :
    c.Aimed s.ahead := by
  obtain ⟨opening, first, between, hahead, hopening, hfirst⟩ := h
  cases opening with
  | nil =>
    refine .inl fun n hn => ?_
    rw [hline, current_of_cons hahead] at hn
    cases hn
    rw [hfirst, hspan]
  | cons t opening =>
    obtain ⟨ht, hopening⟩ := List.forall_mem_cons.1 hopening
    rw [current_of_cons hahead] at hline
    have hhere : (t :: (opening ++ [first])) <:+: s.ahead :=
      ⟨[], between ++ s'.ahead, by rw [hahead]; simp⟩
    exact .inr ⟨hcause, t, .before hhere (.inl ht) hopening (hfirst.trans hspan.symm), hline⟩

end Opened

end ParserState

namespace Parser

/-- All complaints of a parser are aimed, and what it leaves ahead are the last of the tokens
ahead. -/
def Aims {α : Type} (p : Parser α) : Prop :=
  ∀ ⦃s⦄, s.Ended → (∀ ⦃c⦄, p.run s = .error c → c.Aimed s.ahead) ∧
    ∀ ⦃a s'⦄, p.run s = .ok (a, s') → s'.Ended ∧ s'.ahead <:+ s.ahead

/-- From `s`, all complaints of a parser are aimed at tokens ahead of `s₀`, and what it yields
begins, by `begins`, with the tokens read since `s₀`. -/
def PointsFrom {α : Type} (s₀ : ParserState) (begins : α → Position) (p : Parser α)
    (s : ParserState) : Prop :=
  (∀ ⦃c⦄, p.run s = .error c → c.Aimed s₀.ahead) ∧
    ∀ ⦃a s'⦄, p.run s = .ok (a, s') → s'.Ended ∧ s₀.Opened (begins a) s'

/-- All complaints of a parser of expressions are aimed, and what it reads begins where the
first token does that is no opening bracket. -/
def Points (p : Parser Expr) : Prop := ∀ ⦃s⦄, s.Ended → p.PointsFrom s (·.span.start) s

theorem Points.aims {p : Parser Expr} (h : p.Points) : p.Aims := fun _ hs =>
  ⟨(h hs).1, fun _ _ hr => ⟨((h hs).2 hr).1, ((h hs).2 hr).2.suffix⟩⟩

namespace Aims

variable {α β : Type} {p q : Parser α} {f : α → Parser β}

theorem pure (a : α) : Aims (pure a) := by
  refine fun s hs => ⟨nofun, fun b s' hr => ?_⟩
  obtain ⟨-, rfl⟩ := run_pure_eq_ok.1 hr
  exact ⟨hs, List.suffix_rfl⟩

theorem bind (hp : p.Aims) (hf : ∀ a, (f a).Aims) : (p >>= f).Aims := by
  intro s hs
  constructor
  · intro c hc
    rcases run_bind_eq_error.1 hc with hc | ⟨a, s₁, ha, hc⟩
    · exact (hp hs).1 hc
    · obtain ⟨hs₁, hsuffix⟩ := (hp hs).2 ha
      exact ((hf a hs₁).1 hc).of_suffix hsuffix
  · intro b s' hr
    obtain ⟨a, s₁, ha, hb⟩ := run_bind_eq_ok.1 hr
    obtain ⟨hs₁, hsuffix⟩ := (hp hs).2 ha
    obtain ⟨hs', hsuffix'⟩ := (hf a hs₁).2 hb
    exact ⟨hs', hsuffix'.trans hsuffix⟩

theorem map (g : α → β) (hp : p.Aims) : (g <$> p).Aims := by
  rw [← bind_pure_comp]
  exact hp.bind fun _ => .pure _

theorem ite {c : Prop} [Decidable c] (hp : p.Aims) (hq : q.Aims) : (if c then p else q).Aims := by
  split
  · exact hp
  · exact hq

theorem current : Aims current := fun s hs => ⟨nofun, fun a s' hr => by
  cases hr
  exact ⟨hs, List.suffix_rfl⟩⟩

theorem kind : Aims kind := fun s hs => ⟨nofun, fun a s' hr => by
  cases hr
  exact ⟨hs, List.suffix_rfl⟩⟩

theorem onSameLine : Aims onSameLine := fun s hs => ⟨nofun, fun a s' hr => by
  cases hr
  exact ⟨hs, List.suffix_rfl⟩⟩

theorem spanFrom (start : Span) : Aims (spanFrom start) := fun s hs => ⟨nofun, fun a s' hr => by
  cases hr
  exact ⟨hs, List.suffix_rfl⟩⟩

theorem advance : Aims advance := fun s hs => ⟨nofun, fun a s' hr => by
  cases hr
  exact ⟨hs.skip, (Leaves.skip s).ahead⟩⟩

theorem fail (e : Expectation) : Aims (fail e : Parser α) := by
  refine fun s hs => ⟨fun c hc => .inl fun n hn => ?_, fun a s' hr => ?_⟩
  · rw [run_fail] at hc
    cases hc
    split at hn <;> cases hn
    next hk => rw [if_neg hk]
  · rw [run_fail] at hr
    cases hr

theorem tooDeep : Aims (tooDeep : Parser α) := by
  refine fun s hs => ⟨fun c hc => .inl fun n hn => ?_, nofun⟩
  cases hc
  cases hn
  rfl

theorem expect (k : TokenKind) (e : Expectation) : Aims (expect k e) :=
  .bind .kind fun _ => .ite .advance (.fail e)

theorem expectName (e : Expectation) : Aims (expectName e) := by
  refine .bind .current fun t => ?_
  split
  · exact .bind .advance fun _ => .pure _
  · exact .fail e

theorem accept (k : TokenKind) : Aims (accept k) :=
  .bind .kind fun _ => .ite (.bind .advance fun _ => .pure _) (.pure _)

theorem atStatementEnd : Aims atStatementEnd := fun s hs => by
  rw [run_atStatementEnd]
  refine ⟨nofun, fun a s' hr => ?_⟩
  cases hr
  exact ⟨hs, List.suffix_rfl⟩

theorem statementEnd : Aims statementEnd := by
  refine .bind .current fun t => ?_
  split
  · exact .bind .advance fun _ => .pure _
  · exact .pure _
  · exact .pure _
  · exact .ite (.pure _) (.fail _)

theorem inBrackets (hp : p.Aims) : (inBrackets p).Aims := by
  intro s hs
  obtain ⟨herror, hok⟩ := hp (hs.withBrackets (s.brackets + 1))
  constructor
  · intro c hc
    rw [run_inBrackets] at hc
    split at hc <;> cases hc
    next hr => exact herror hr
  · intro a s' hr
    obtain ⟨s₁, hinner, rfl⟩ := run_inBrackets_eq_ok.1 hr
    exact ⟨(hok hinner).1.withBrackets _, (hok hinner).2⟩

theorem outsideBrackets (hp : p.Aims) : (outsideBrackets p).Aims := by
  intro s hs
  obtain ⟨herror, hok⟩ := hp (hs.withBrackets 0)
  constructor
  · intro c hc
    rw [run_outsideBrackets] at hc
    split at hc <;> cases hc
    next hr => exact herror hr
  · intro a s' hr
    obtain ⟨s₁, hinner, rfl⟩ := run_outsideBrackets_eq_ok.1 hr
    exact ⟨(hok hinner).1.withBrackets _, (hok hinner).2⟩

theorem turns {turn : α → Parser (Turn α)} (h : ∀ a, (turn a).Aims) :
    ∀ (l : List Token) (a : α), (turns turn l a).Aims
  | [], _ => .pure _
  | _ :: l, a => (h a).bind fun r => by
    cases r with
    | again b => exact turns h l b
    | done b => exact .pure b

theorem loop {turn : α → Parser (Turn α)} (h : ∀ a, (turn a).Aims) (a : α) :
    (loop turn a).Aims :=
  fun _ hs => turns h _ a hs

end Aims

namespace PointsFrom

variable {α β : Type} {s₀ s : ParserState} {p : Parser α} {f : α → Parser β}
  {begins : α → Position} {begins' : β → Position} {x : Position}

theorem pure {a : α} (hs : s.Ended) (h : s₀.Opened (begins a) s) :
    PointsFrom s₀ begins (pure a) s := by
  refine ⟨nofun, fun b s' hr => ?_⟩
  obtain ⟨rfl, rfl⟩ := run_pure_eq_ok.1 hr
  exact ⟨hs, h⟩

theorem bind (hp : PointsFrom s₀ begins p s)
    (hf : ∀ a s₁, p.run s = .ok (a, s₁) → s₁.Ended → s₀.Opened (begins a) s₁ →
      PointsFrom s₀ begins' (f a) s₁) : PointsFrom s₀ begins' (p >>= f) s := by
  constructor
  · intro c hc
    rcases run_bind_eq_error.1 hc with hc | ⟨a, s₁, ha, hc⟩
    · exact hp.1 hc
    · obtain ⟨hs₁, hopened⟩ := hp.2 ha
      exact (hf a s₁ ha hs₁ hopened).1 hc
  · intro b s' hr
    obtain ⟨a, s₁, ha, hb⟩ := run_bind_eq_ok.1 hr
    obtain ⟨hs₁, hopened⟩ := hp.2 ha
    exact (hf a s₁ ha hs₁ hopened).2 hb

theorem advance_bind {f : Token → Parser β} (h : PointsFrom s₀ begins' (f s.current) s.skip) :
    PointsFrom s₀ begins' (Parser.advance >>= f) s :=
  h

theorem onSameLine_bind {f : Bool → Parser β}
    (h : PointsFrom s₀ begins' (f s.onSameLine) s) :
    PointsFrom s₀ begins' (Parser.onSameLine >>= f) s :=
  h

theorem kind_bind {f : TokenKind → Parser β}
    (h : PointsFrom s₀ begins' (f s.current.kind) s) :
    PointsFrom s₀ begins' (Parser.kind >>= f) s :=
  h

/-- What goes on with an expression and yields one that begins where this one does. -/
theorem of_aims (hp : p.Aims) (hs : s.Ended) (h : s₀.Opened x s)
    (hbegins : ∀ a s', p.run s = .ok (a, s') → begins a = x) : PointsFrom s₀ begins p s := by
  refine ⟨fun c hc => ((hp hs).1 hc).of_suffix h.suffix, fun a s' hr => ?_⟩
  obtain ⟨hs', hsuffix⟩ := (hp hs).2 hr
  exact ⟨hs', by rw [hbegins a s' hr]; exact h.andThen hsuffix⟩

theorem refuseTarget {target : Span} {start : Token}
    (h : Complaint.Aimed s₀.ahead ⟨.invalidTarget, target, some start.span.start.line⟩) :
    PointsFrom s₀ begins (refuseTarget target start) s := by
  refine ⟨fun c hc => ?_, nofun⟩
  cases hc
  exact h

/-- What each turn keeps holds of the end of a loop. -/
theorem turns {turn : Expr → Parser (Turn Expr)}
    (h : ∀ ⦃a s⦄, s.Ended → s₀.Opened a.span.start s →
      PointsFrom s₀ (·.value.span.start) (turn a) s) :
    ∀ (l : List Token) {a : Expr} {s : ParserState}, s.Ended → s₀.Opened a.span.start s →
      PointsFrom s₀ (·.span.start) (turns turn l a) s
  | [], _, _, hs, ha => .pure hs ha
  | _ :: l, _, _, hs, ha => (h hs ha).bind fun r s₁ _ hs₁ hr => by
    cases r with
    | again b => exact turns h l hs₁ hr
    | done b => exact .pure hs₁ hr

theorem loop {turn : Expr → Parser (Turn Expr)}
    (h : ∀ ⦃a s⦄, s.Ended → s₀.Opened a.span.start s →
      PointsFrom s₀ (·.value.span.start) (turn a) s) {a : Expr} (hs : s.Ended)
    (ha : s₀.Opened a.span.start s) : PointsFrom s₀ (·.span.start) (loop turn a) s :=
  turns h _ hs ha

end PointsFrom

end Parser

/-- All complaints of the rules of a grammar are aimed, and its expressions begin where their
first tokens do. -/
structure Grammar.Points (g : Grammar) : Prop where
  expression : g.expression.Points
  binary : ∀ level, (g.binary level).Points
  unary : g.unary.Points
  suffixed : g.suffixed.Points
  primary : g.primary.Points
  body : g.body.Aims
  block : g.block.Aims
  conditional : g.conditional.Aims
  statement : g.statement.Aims

namespace Rule

variable {g : Grammar} {s s₀ : ParserState}

/-! ### Operators and operands -/

theorem assigned_points (hg : g.Points) {e : Expr} (hs : s.Ended) (he : s₀.Opened e.span.start s)
    (next : Option TokenKind) :
    PointsFrom s₀ (·.span.start) (assigned g s₀.current e next) s := by
  by_cases hassign : next = some (.sign .assign)
  · subst hassign
    by_cases hname : e.name?.isSome
    · obtain ⟨name, hname⟩ := Option.isSome_iff_exists.1 hname
      obtain ⟨span, rfl⟩ := Expr.eq_identifier_of_name? hname
      refine .of_aims (.bind .advance fun _ => .bind hg.expression.aims fun _ => .pure _) hs he
        fun a s' hr => ?_
      obtain ⟨_, s₁, -, hr⟩ := run_bind_eq_ok.1 hr
      obtain ⟨value, s₂, -, hr⟩ := run_bind_eq_ok.1 hr
      obtain ⟨rfl, -⟩ := run_pure_eq_ok.1 hr
      rfl
    · rw [assigned_of_not_name hname]
      exact .refuseTarget (he.aimed rfl rfl rfl)
  · rw [assigned_of_ne hassign]
    exact .pure hs he

theorem expression_points (hg : g.Points) : (expression g).Points := by
  intro s hs
  unfold PointsFrom
  rw [run_expression]
  exact (hg.binary 1 hs).bind fun e s₁ _ hs₁ he => assigned_points hg hs₁ he s₁.following

theorem binaryTurn_points (hg : g.Points) (level : Nat) {left : Expr} (hs : s.Ended)
    (hleft : s₀.Opened left.span.start s) :
    PointsFrom s₀ (·.value.span.start) (binaryTurn g level left) s := by
  have haims : (binaryTurn g level left).Aims := by
    unfold binaryTurn
    refine .bind .onSameLine fun _ => .ite (.pure _) (.bind .kind fun _ => ?_)
    split
    · exact .pure _
    · exact .ite (.pure _) (.bind .advance fun _ => .bind (hg.binary _).aims fun _ => .pure _)
  refine .of_aims haims hs hleft fun r s' hr => ?_
  rcases run_binaryTurn_eq_ok hr with ⟨rfl, -⟩ | ⟨c, right, -, -, rfl⟩
  · rfl
  · cases c <;> rfl

theorem binary_points (hg : g.Points) (level : Nat) : (Rule.binary g level).Points :=
  fun _ hs => (hg.unary hs).bind fun _ _ _ hs₁ hleft =>
    .loop (fun _ _ hs hleft => binaryTurn_points hg level hs hleft) hs₁ hleft

/-- The increment of an operand that the sign before it counts. -/
theorem increment_before_points (hne : s₀.ahead ≠ []) (hcounts : s₀.current.kind.Counts)
    {target : Expr} (hs : s.Ended) (htarget : s₀.skip.Opened target.span.start s)
    (direction : Direction) :
    PointsFrom s₀ (·.span.start) (increment s₀.current target direction .before) s := by
  unfold increment
  split
  · exact .pure hs (.of_skip hne htarget.suffix)
  · obtain ⟨opening, first, between, hahead, hopening, hfirst⟩ := htarget
    have hhere : (s₀.current :: (opening ++ [first])) <:+: s₀.ahead :=
      ⟨[], between ++ s.ahead, by rw [ahead_eq_cons hne, hahead]; simp⟩
    exact .refuseTarget
      (.inr ⟨rfl, s₀.current, .before hhere (.inr hcounts) hopening hfirst, rfl⟩)

/-- The increment of an operand that the sign behind it counts. -/
theorem increment_after_points (hne : s.ahead ≠ []) (hcounts : s.current.kind.Counts)
    {target : Expr} (hs : s.Ended) (htarget : s₀.Opened target.span.start s)
    (direction : Direction) :
    PointsFrom s₀ (·.span.start) (increment s.current target direction .after) s.skip := by
  unfold increment
  split
  · exact .pure hs.skip (htarget.andThen (Leaves.skip s).ahead)
  · obtain ⟨opening, first, between, hahead, -, hfirst⟩ := htarget
    have hhere : (first :: (between ++ [s.current])) <:+: s₀.ahead :=
      ⟨opening, s.skip.ahead, by rw [hahead, ahead_eq_cons hne]; simp⟩
    exact .refuseTarget (.inr ⟨rfl, s.current, .behind hhere hcounts hfirst, rfl⟩)

theorem unary_points (hg : g.Points) : (unary g).Points := by
  intro s hs
  have hne : s.current.kind ≠ .endOfInput → s.ahead ≠ [] := fun hk => hs.ahead_ne_nil rfl hk
  -- the operand behind a word in front of it
  have hword : ∀ op, s.ahead ≠ [] → PointsFrom s (fun e : Expr => e.span.start)
      (do let sign ← advance
          let operand ← g.unary
          pure (.unary (sign.span.merge operand.span) op operand)) s := by
    intro op hne
    have haims : (g.unary >>= fun operand =>
        pure (Expr.unary (s.current.span.merge operand.span) op operand)).Aims :=
      .bind hg.unary.aims fun _ => .pure _
    refine .advance_bind (.of_aims haims hs.skip (.of_skip hne List.suffix_rfl) fun a s' hr => ?_)
    obtain ⟨operand, s₂, -, hr⟩ := run_bind_eq_ok.1 hr
    obtain ⟨rfl, -⟩ := run_pure_eq_ok.1 hr
    rfl
  have hcount : ∀ direction, s.current.kind.Counts → PointsFrom s (·.span.start)
      (do increment (← advance) (← g.unary) direction .before) s := by
    intro direction hcounts
    have hne := hne (by rcases hcounts with h | h <;> rw [h] <;> simp)
    constructor
    · intro c hc
      rw [run_advance_bind] at hc
      rcases run_bind_eq_error.1 hc with hc | ⟨target, s₁, htarget, hc⟩
      · exact ((hg.unary hs.skip).1 hc).of_suffix (Leaves.skip s).ahead
      · obtain ⟨hs₁, hopened⟩ := (hg.unary hs.skip).2 htarget
        exact (increment_before_points hne hcounts hs₁ hopened direction).1 hc
    · intro e s' hr
      rw [run_advance_bind] at hr
      obtain ⟨target, s₁, htarget, hr⟩ := run_bind_eq_ok.1 hr
      obtain ⟨hs₁, hopened⟩ := (hg.unary hs.skip).2 htarget
      exact (increment_before_points hne hcounts hs₁ hopened direction).2 hr
  unfold unary
  refine .kind_bind ?_
  split
  · next hk => exact hword .not (hne (by rw [hk]; simp))
  · next hk => exact hword .negate (hne (by rw [hk]; simp))
  · next hk => exact hcount .up (.inl hk)
  · next hk => exact hcount .down (.inr hk)
  · exact hg.suffixed hs

/-! ### Suffixes -/

theorem argumentTurn_aims (hg : g.Points) (done : List Expr) : (argumentTurn g done).Aims :=
  .bind (.accept _) fun _ => .ite (.bind .kind fun _ => .ite (.pure _)
    (.bind hg.expression.aims fun _ => .pure _)) (.pure _)

theorem arguments_aims (hg : g.Points) : (arguments g).Aims :=
  .bind .kind fun _ => .ite (.pure _) (.bind hg.expression.aims fun _ =>
    .bind (.loop (argumentTurn_aims hg) _) fun _ => .pure _)

theorem call_aims (hg : g.Points) (callee : Expr) : (call g callee).Aims :=
  .bind (.expect _ _) fun _ => .bind (.inBrackets (arguments_aims hg)) fun _ =>
    .bind (.expect _ _) fun _ => .bind (.spanFrom _) fun _ => .pure _

theorem optional_aims (hg : g.Points) (leftOut : Bool) : (optional g leftOut).Aims :=
  .ite (.pure _) (.map _ hg.expression.aims)

theorem stride_aims (hg : g.Points) : (stride g).Aims :=
  .bind (.accept _) fun _ => .ite (.bind .kind fun _ => optional_aims hg _) (.pure _)

theorem stretch_aims (hg : g.Points) (start : Option Expr) : (stretch g start).Aims := by
  rw [stretch_eq]
  exact .bind .kind fun _ => .bind (optional_aims hg _) fun _ => .bind (stride_aims hg) fun _ =>
    .pure _

theorem subscript_aims (hg : g.Points) : (subscript g).Aims :=
  .bind (.accept _) fun _ => .ite (stretch_aims hg none) (.bind hg.expression.aims fun _ =>
    .bind (.accept _) fun _ => .ite (stretch_aims hg _) (.pure _))

theorem subscripted_aims (hg : g.Points) (target : Expr) : (subscripted g target).Aims := by
  refine .bind (.expect _ _) fun _ => .bind (.inBrackets (subscript_aims hg)) fun x => ?_
  cases x <;> exact .bind (.expect _ _) fun _ => .bind (.spanFrom _) fun _ => .pure _

theorem call_start {callee e : Expr} {s' : ParserState}
    (h : (call g callee).run s = .ok (e, s')) : e.span.start = callee.span.start := by
  unfold call at h
  obtain ⟨-, h⟩ := run_expect_bind_eq_ok.1 h
  obtain ⟨found, s₁, -, h⟩ := run_bind_eq_ok.1 h
  obtain ⟨_, s₂, -, h⟩ := run_bind_eq_ok.1 h
  rw [run_spanFrom_bind] at h
  obtain ⟨rfl, -⟩ := run_pure_eq_ok.1 h
  rfl

theorem subscripted_start {target e : Expr} {s' : ParserState}
    (h : (subscripted g target).run s = .ok (e, s')) : e.span.start = target.span.start := by
  unfold subscripted at h
  obtain ⟨-, h⟩ := run_expect_bind_eq_ok.1 h
  obtain ⟨found, s₁, -, h⟩ := run_bind_eq_ok.1 h
  split at h
  all_goals
    obtain ⟨_, s₂, -, h⟩ := run_bind_eq_ok.1 h
    rw [run_spanFrom_bind] at h
    obtain ⟨rfl, -⟩ := run_pure_eq_ok.1 h
    rfl

theorem suffixTurn_points (hg : g.Points) {operand : Expr} (hs : s.Ended)
    (hoperand : s₀.Opened operand.span.start s) :
    PointsFrom s₀ (fun r : Turn Expr => r.value.span.start) (suffixTurn g operand) s := by
  have hcount : ∀ direction, s.current.kind.Counts → PointsFrom s₀
      (fun r : Turn Expr => r.value.span.start)
      (do pure (.again (← increment (← advance) operand direction .after))) s := by
    intro direction hcounts
    have hne := hs.ahead_ne_nil rfl (k := s.current.kind)
      (by rcases hcounts with h | h <;> rw [h] <;> simp)
    exact (increment_after_points hne hcounts hs hoperand direction).bind
      (f := fun e => pure (Turn.again e)) fun e s₁ _ hs₁ he => .pure hs₁ he
  unfold suffixTurn
  refine .onSameLine_bind ?_
  split
  · exact .pure hs hoperand
  · refine .kind_bind ?_
    split
    · exact .bind (.of_aims (call_aims hg operand) hs hoperand fun e s' => call_start)
        fun e s₁ _ hs₁ he => .pure hs₁ he
    · exact .bind (.of_aims (subscripted_aims hg operand) hs hoperand
        fun e s' => subscripted_start) fun e s₁ _ hs₁ he => .pure hs₁ he
    · next hk => exact hcount .up (.inl hk)
    · next hk => exact hcount .down (.inr hk)
    · exact .pure hs hoperand

theorem suffixed_points (hg : g.Points) : (suffixed g).Points :=
  fun _ hs => (hg.primary hs).bind fun _ _ _ hs₁ hoperand =>
    .loop (fun _ _ hs hoperand => suffixTurn_points hg hs hoperand) hs₁ hoperand

/-! ### Functions and operands -/

theorem parameterTurn_aims (closing : TokenKind) (done : List Text) :
    (parameterTurn closing done).Aims :=
  .bind (.accept _) fun _ => .ite (.bind .kind fun _ => .ite (.pure _)
    (.bind (.expectName _) fun _ => .pure _)) (.pure _)

theorem parameters_aims (closing : TokenKind) : (parameters closing).Aims :=
  .bind .kind fun _ => .ite (.pure _) (.bind (.expectName _) fun _ =>
    .bind (.loop (parameterTurn_aims closing) _) fun _ => .pure _)

theorem body_aims (hg : g.Points) : (body g).Aims :=
  .bind .kind fun _ => .ite (.bind .advance fun _ =>
    .bind (.outsideBrackets hg.expression.aims) fun _ => .pure _) hg.block

/-- A function without a name begins with its first bar. -/
theorem lambda_points (hg : g.Points) (hs : s.Ended) :
    PointsFrom s (fun e : Expr => e.span.start) (lambda g) s := by
  have hrest : ∀ start : Token, (do
      let names ← parameters (.sign .pipe)
      let _ ← expect (.sign .pipe) .lambdaParametersEnd
      let block ← g.body
      return Expr.function (← spanFrom start.span) none names block).Aims := fun _ =>
    .bind (parameters_aims _) fun _ => .bind (.expect _ _) fun _ => .bind hg.body fun _ =>
      .bind (.spanFrom _) fun _ => .pure _
  have haims : (lambda g).Aims := .bind (.expect _ _) hrest
  refine ⟨(haims hs).1, fun e s' hr => ⟨((haims hs).2 hr).1, ?_⟩⟩
  unfold lambda at hr
  obtain ⟨hk, hr⟩ := run_expect_bind_eq_ok.1 hr
  have hsuffix := ((hrest s.current hs.skip).2 hr).2
  have hstart : e.span.start = s.current.span.start := by
    obtain ⟨_, s₁, -, hr⟩ := run_bind_eq_ok.1 hr
    obtain ⟨_, s₂, -, hr⟩ := run_bind_eq_ok.1 hr
    obtain ⟨_, s₃, -, hr⟩ := run_bind_eq_ok.1 hr
    rw [run_spanFrom_bind] at hr
    obtain ⟨rfl, -⟩ := run_pure_eq_ok.1 hr
    rfl
  dsimp only
  rw [hstart]
  exact .of_skip (hs.ahead_ne_nil hk (by simp)) hsuffix

/-- A group begins where the expression in it does. -/
theorem group_points (hg : g.Points) (hs : s.Ended) (hk : s.current.kind = .sign .leftParen) :
    PointsFrom s (fun e : Expr => e.span.start) (group g) s := by
  have hne := hs.ahead_ne_nil hk (by simp)
  have haims : (group g).Aims :=
    .bind .advance fun _ => .bind (.inBrackets hg.expression.aims) fun _ =>
      .bind (.expect _ _) fun _ => .pure _
  refine ⟨(haims hs).1, fun e s' hr => ⟨((haims hs).2 hr).1, ?_⟩⟩
  unfold group at hr
  rw [run_advance_bind] at hr
  obtain ⟨a, s₁, ha, hr⟩ := run_bind_eq_ok.1 hr
  obtain ⟨s₂, hinner, rfl⟩ := run_inBrackets_eq_ok.1 ha
  obtain ⟨hs₂, hopened⟩ := (hg.expression (hs.skip.withBrackets _)).2 hinner
  have hsuffix := ((((Aims.expect (.sign .rightParen) .groupEnd).bind fun _ => .pure a)
    (hs₂.withBrackets _)).2 hr).2
  obtain ⟨_, s₃, -, hr⟩ := run_bind_eq_ok.1 hr
  obtain ⟨rfl, -⟩ := run_pure_eq_ok.1 hr
  exact .of_bracket hne hk (Opened.andThen hopened hsuffix)

theorem primary_points (hg : g.Points) : (primary g).Points := by
  intro s hs
  have hne : s.current.content ≠ .endOfInput → s.ahead ≠ [] := fun hc =>
    hs.ahead_ne_nil rfl fun hk => hc (Token.kind_eq_endOfInput.1 hk)
  have hleaf : ∀ {e : Expr}, e.span = s.current.span → s.current.content ≠ .endOfInput →
      PointsFrom s (fun e : Expr => e.span.start) (advance *> pure e) s := by
    intro e he hc
    refine PointsFrom.pure (s := s.skip) hs.skip ?_
    rw [he]
    exact .of_skip (hne hc) List.suffix_rfl
  unfold primary PointsFrom
  rw [run_current_bind]
  dsimp only
  split
  case h_8 h => exact group_points hg hs (by rw [Token.kind, h]; rfl)
  case h_9 => exact lambda_points hg hs
  case h_10 =>
    refine ⟨(Aims.fail _ hs).1, fun a s' hr => ?_⟩
    rw [run_fail] at hr
    cases hr
  all_goals
    next h => exact hleaf rfl (by simp [h])

/-! ### Statements -/

theorem blockTurn_aims (hg : g.Points) (done : List Stmt) : (blockTurn g done).Aims := by
  refine .bind .kind fun _ => ?_
  split
  · exact .pure _
  · exact .fail _
  · exact .bind .advance fun _ => .pure _
  · exact .bind hg.statement fun _ => .pure _

theorem block_aims (hg : g.Points) : (block g).Aims :=
  .bind (.expect _ _) fun _ => .bind (.outsideBrackets (.loop (blockTurn_aims hg) [])) fun _ =>
    .bind (.expect _ _) fun _ => .bind (.spanFrom _) fun _ => .pure _

theorem declaration_aims (hg : g.Points) : (declaration g).Aims :=
  .bind (.expect _ _) fun _ => .bind (.expectName _) fun _ => .bind (.expect _ _) fun _ =>
    .bind hg.expression.aims fun _ => .pure _

theorem declarationStatement_aims (hg : g.Points) : (declarationStatement g).Aims :=
  .bind (declaration_aims hg) fun _ => .bind .statementEnd fun _ => .bind (.spanFrom _) fun _ =>
    .pure _

theorem definition_aims (hg : g.Points) : (definition g).Aims := by
  rw [definition_eq]
  exact .bind (.expect _ _) fun _ => .bind (.expectName _) fun _ => .bind (.expect _ _) fun _ =>
    .bind (parameters_aims _) fun _ => .bind (.expect _ _) fun _ => .bind .kind fun _ =>
      .bind hg.body fun _ => .bind (.ite .statementEnd (.pure _)) fun _ =>
        .bind (.spanFrom _) fun _ => .pure _

theorem decoratorTurn_aims (hg : g.Points) (done : List Expr) : (decoratorTurn g done).Aims :=
  .bind (.accept _) fun _ => .ite (.bind hg.suffixed.aims fun _ => .bind (.accept _) fun _ =>
    .pure _) (.pure _)

theorem decorated_aims (hg : g.Points) : (decorated g).Aims :=
  .bind (.loop (decoratorTurn_aims hg) []) fun _ => .bind .kind fun _ =>
    .ite (.bind (definition_aims hg) fun _ => .pure _) (.fail _)

theorem otherwise_aims (hg : g.Points) : (otherwise g).Aims :=
  .bind (.accept _) fun _ => .ite (.bind .kind fun _ =>
    .ite (.bind hg.conditional fun _ => .pure _) (.bind hg.block fun _ => .pure _)) (.pure _)

theorem conditional_aims (hg : g.Points) : (conditional g).Aims :=
  .bind (.expect _ _) fun _ => .bind hg.expression.aims fun _ => .bind hg.block fun _ =>
    .bind (otherwise_aims hg) fun _ => .bind (.spanFrom _) fun _ => .pure _

theorem whileLoop_aims (hg : g.Points) : (whileLoop g).Aims :=
  .bind (.expect _ _) fun _ => .bind hg.expression.aims fun _ => .bind hg.block fun _ =>
    .bind (.spanFrom _) fun _ => .pure _

theorem initializer_aims (hg : g.Points) : (initializer g).Aims := by
  refine .bind .kind fun _ => ?_
  split
  · exact .bind (declaration_aims hg) fun _ => .bind (.spanFrom _) fun _ => .pure _
  · exact .pure _
  · exact .bind hg.expression.aims fun _ => .pure _

theorem countingHeader_aims (hg : g.Points) : (countingHeader g).Aims := by
  have hoptional : ∀ k, (optionalBefore g k).Aims := fun k => by
    rw [optionalBefore_eq]
    exact .bind .kind fun _ => optional_aims hg _
  exact .bind (initializer_aims hg) fun _ => .bind (.expect _ _) fun _ => .bind (hoptional _)
    fun _ => .bind (.expect _ _) fun _ => .bind (hoptional _) fun _ => .pure _

theorem countingLoop_aims (hg : g.Points) (start : Token) : (countingLoop g start).Aims :=
  .bind (.expect _ _) fun _ => .bind (.inBrackets (countingHeader_aims hg)) fun _ =>
    .bind (.expect _ _) fun _ => .bind hg.block fun _ => .bind (.spanFrom _) fun _ => .pure _

theorem forLoop_aims (hg : g.Points) : (forLoop g).Aims :=
  .bind (.expect _ _) fun start => .bind .kind fun _ => .ite (countingLoop_aims hg start)
    (.bind (.expectName _) fun _ => .bind (.expect _ _) fun _ => .bind hg.expression.aims
      fun _ => .bind hg.block fun _ => .bind (.spanFrom _) fun _ => .pure _)

theorem returning_aims (hg : g.Points) : (returning g).Aims := by
  rw [returning_eq]
  exact .bind (.expect _ _) fun _ => .bind (.bind .atStatementEnd fun _ => optional_aims hg _)
    fun _ => .bind .statementEnd fun _ => .bind (.spanFrom _) fun _ => .pure _

theorem message_aims : message.Aims := by
  refine .bind (.accept _) fun _ => .ite (.map _ (.bind .current fun _ => ?_)) (.pure _)
  split
  · exact .bind .advance fun _ => .pure _
  · exact .fail _

theorem assertion_aims (hg : g.Points) : (assertion g).Aims := by
  rw [assertion_eq]
  exact .bind (.expect _ _) fun _ => .bind hg.expression.aims fun _ => .bind message_aims fun _ =>
    .bind .statementEnd fun _ => .bind (.spanFrom _) fun _ => .pure _

theorem word_aims (make : Span → Stmt) : (word make).Aims :=
  .bind .advance fun _ => .bind .statementEnd fun _ => .pure _

theorem statement_aims (hg : g.Points) : (statement g).Aims := by
  refine .bind .kind fun _ => ?_
  split
  · exact declarationStatement_aims hg
  · exact .bind (definition_aims hg) fun _ => .pure _
  · exact decorated_aims hg
  · exact .bind hg.conditional fun _ => .pure _
  · exact whileLoop_aims hg
  · exact forLoop_aims hg
  · exact returning_aims hg
  · exact word_aims _
  · exact word_aims _
  · exact assertion_aims hg
  · exact .bind hg.expression.aims fun _ => .bind .statementEnd fun _ => .pure _

end Rule

/-! ### Programs -/

namespace Grammar

variable {g : Grammar}

theorem Points.step (hg : g.Points) : g.step.Points where
  expression := Rule.expression_points hg
  binary := Rule.binary_points hg
  unary := Rule.unary_points hg
  suffixed := Rule.suffixed_points hg
  primary := Rule.primary_points hg
  body := Rule.body_aims hg
  block := Rule.block_aims hg
  conditional := Rule.conditional_aims hg
  statement := Rule.statement_aims hg

theorem points_bottom : bottom.Points := by
  have hexpr : (tooDeep : Parser Expr).Points := fun _ hs => ⟨(Aims.tooDeep hs).1, nofun⟩
  exact ⟨hexpr, fun _ => hexpr, hexpr, hexpr, hexpr, .tooDeep, .tooDeep, .tooDeep, .tooDeep⟩

theorem points_ofDepth (n : Nat) : (ofDepth n).Points := by
  induction n with
  | zero => exact points_bottom
  | succ n ih => exact ih.step

end Grammar

namespace Rule

theorem programTurn_aims {g : Grammar} (hg : g.Points) (done : List Stmt) :
    (programTurn g done).Aims := by
  refine .bind .kind fun _ => ?_
  split
  · exact .pure _
  · exact .bind .advance fun _ => .pure _
  · exact .fail _
  · exact .bind hg.statement fun _ => .pure _

theorem program_aims {g : Grammar} (hg : g.Points) : (program g).Aims :=
  .bind .current fun _ => .bind (.loop (programTurn_aims hg) []) fun _ => .bind .current fun _ =>
    .pure _

end Rule

/-- A complaint about the tokens of a program quotes the line where its stretch begins, or, if
it refuses a target, the line of a token beside the target. -/
theorem Program.parseTokensAt_aimed {depth : Nat} {tokens : List Token} {c : Complaint}
    (ht : Token.Ended tokens) (h : parseTokensAt depth tokens = .error c) : c.Aimed tokens := by
  obtain ⟨ts, finish, rfl, hf, hts⟩ := ht
  rw [parseTokensAt_append] at h
  cases hrun : (Rule.program (Grammar.ofDepth depth)).run ⟨ts, finish, finish.span.stop, 0⟩ with
  | ok x => rw [hrun] at h; cases h
  | error d =>
    rw [hrun] at h
    cases h
    have hd := (Rule.program_aims (Grammar.points_ofDepth depth) ⟨hf, hts⟩).1 hrun
    exact hd.of_infix (List.prefix_append ts [finish]).isInfix

end ScriptLang
