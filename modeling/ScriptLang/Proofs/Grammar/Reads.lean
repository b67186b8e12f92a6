import ScriptLang.Proofs.Grammar.Run
import ScriptLang.Proofs.Tree.Place
import ScriptLang.Proofs.Tree.Regular

/-!
# What parsers read

A rule that succeeds has read tokens from the front of those ahead, at least one, and
left the end of the input and the number of open brackets as they were. The tree it
yields is regular, and the statements in it that may leave a loop or a function begin
at tokens that were read, each at another one and in the order of the text.

`Grammar.Sound` says so of all rules of a grammar, `Grammar.sound_ofDepth` proves it,
and `Program.parseTokensAt_reads` draws the consequence for programs.
-/

namespace ScriptLang

namespace ParserState

variable {s s' s₁ s₂ : ParserState} {ps qs : List Position}

/-- Where the tokens ahead begin. -/
def starts (s : ParserState) : List Position := s.ahead.map fun t => t.span.start

/-- From `s` to `s'` some tokens are read, among them tokens that begin at `ps`. -/
structure Leaves (s : ParserState) (ps : List Position) (s' : ParserState) : Prop where
  ahead : s'.ahead <:+ s.ahead
  finish : s'.finish = s.finish
  brackets : s'.brackets = s.brackets
  starts : (ps ++ s'.starts).Sublist s.starts

namespace Leaves

theorem refl (s : ParserState) : Leaves s [] s :=
  ⟨List.suffix_rfl, rfl, rfl, List.Sublist.refl _⟩

theorem trans (h : Leaves s ps s₁) (h' : Leaves s₁ qs s₂) : Leaves s (ps ++ qs) s₂ := by
  refine ⟨h'.ahead.trans h.ahead, h'.finish.trans h.finish, h'.brackets.trans h.brackets, ?_⟩
  rw [List.append_assoc]
  exact ((List.Sublist.refl ps).append h'.starts).trans h.starts

theorem ended (h : Leaves s ps s') (hs : s.Ended) : s'.Ended := hs.of_suffix h.finish h.ahead

theorem length_le (h : Leaves s ps s') : s'.ahead.length ≤ s.ahead.length :=
  h.ahead.sublist.length_le

theorem skip (s : ParserState) : Leaves s [] s.skip := by
  cases ht : s.ahead with
  | nil => rw [skip_of_nil ht]; exact refl s
  | cons t ts =>
    rw [skip_of_cons ht]
    exact ⟨by simp [ht], rfl, rfl, by simp [ParserState.starts, ht]⟩

theorem skip_start (h : s.ahead ≠ []) : Leaves s [s.current.span.start] s.skip := by
  refine ⟨(skip s).ahead, skip_finish s, skip_brackets s, ?_⟩
  rw [ParserState.starts, ParserState.starts, ahead_eq_cons h]
  exact List.Sublist.refl _

theorem withBrackets {m n : Nat} (h : Leaves { s with brackets := m } ps s') (hn : n = s.brackets) :
    Leaves s ps { s' with brackets := n } :=
  ⟨h.ahead, h.finish, hn, h.starts⟩

end Leaves

theorem length_skip_lt (h : s.ahead ≠ []) : s.skip.ahead.length < s.ahead.length := by
  have := List.length_pos_iff.2 h
  rw [length_skip]
  omega

theorem length_skip_le (s : ParserState) : s.skip.ahead.length ≤ s.ahead.length :=
  (Leaves.skip s).length_le

end ParserState

open ParserState ScriptLang.Parser

/-- From `s` to `s'` tokens are read, at least one, and yield something regular, whose
jumps begin at `ps`. -/
structure Took (s : ParserState) (regular : Prop) (ps : List Position) (s' : ParserState) :
    Prop where
  regular : regular
  leaves : Leaves s ps s'
  lt : s'.ahead.length < s.ahead.length

namespace Took

variable {s s' s₁ s₂ : ParserState} {r r' : Prop} {ps qs : List Position}

theorem ended (h : Took s r ps s') (hs : s.Ended) : s'.Ended := h.leaves.ended hs

theorem andThen (h : Took s r ps s₁) (h' : Leaves s₁ qs s₂) : Took s r (ps ++ qs) s₂ :=
  ⟨h.regular, h.leaves.trans h', Nat.lt_of_le_of_lt h'.length_le h.lt⟩

theorem after (h : Leaves s ps s₁) (h' : Took s₁ r qs s₂) : Took s r (ps ++ qs) s₂ :=
  ⟨h'.regular, h.trans h'.leaves, Nat.lt_of_lt_of_le h'.lt h.length_le⟩

theorem afterSkip (h : Took s.skip r ps s') : Took s r ps s' := after (Leaves.skip s) h

theorem thenSkip (h : Took s r ps s') : Took s r ps s'.skip := by
  simpa using h.andThen (Leaves.skip s')

theorem imp (h : Took s r ps s') (hr : r → r') (hp : ps = qs) : Took s r' qs s' :=
  ⟨hr h.regular, hp ▸ h.leaves, h.lt⟩

end Took

/-- A parser that reads tokens, at least one, and yields something regular, whose
statements at a place are given by `placed`. -/
def Parser.Reads {α : Type} (p : Parser α) (regular : α → Prop)
    (placed : Place → α → List (Place × Stmt)) : Prop :=
  ∀ ⦃s a s'⦄, s.Ended → p.run s = .ok (a, s') → ∀ π, Took s (regular a) (jumps (placed π a)) s'

/-- A parser that reads an expression. -/
def Parser.ReadsExpr (p : Parser Expr) : Prop :=
  ∀ ⦃s e s'⦄, s.Ended → p.run s = .ok (e, s') → Took s e.Regular (jumps e.placed) s'

/-- A grammar all of whose rules read what they should. -/
structure Grammar.Sound (g : Grammar) : Prop where
  expression : g.expression.ReadsExpr
  binary : ∀ level, (g.binary level).ReadsExpr
  unary : g.unary.ReadsExpr
  suffixed : g.suffixed.ReadsExpr
  primary : g.primary.ReadsExpr
  body : g.body.Reads Block.Regular Block.placed
  block : g.block.Reads Block.Regular Block.placed
  conditional : g.conditional.Reads Conditional.Regular Conditional.placed
  statement : g.statement.Reads Stmt.Regular Stmt.placed

namespace Rule

variable {g : Grammar} {s s' : ParserState}

/-! ### Operators and operands -/

theorem join_placed (c : Connective) (left right : Expr) :
    (c.join left right).placed = left.placed ++ right.placed := by
  cases c <;> rfl

theorem join_regular {c : Connective} {left right : Expr} (hl : left.Regular)
    (hr : right.Regular) : (c.join left right).Regular := by
  cases c <;> exact ⟨hl, hr⟩

theorem expression_reads (hg : g.Sound) : (expression g).ReadsExpr := by
  intro s e s' hs h
  unfold expression at h
  rw [run_current_bind, run_bind_eq_ok] at h
  obtain ⟨e₁, s₁, h₁, h⟩ := h
  have took := hg.binary 1 hs h₁
  rw [run_kind_bind, run_onSameLine_bind, run_ite] at h
  split at h
  · split at h
    · next target =>
      rw [run_advance_bind, run_bind_eq_ok] at h
      obtain ⟨value, s₂, hv, h⟩ := h
      obtain ⟨rfl, rfl⟩ := run_pure_eq_ok.1 h
      have tookValue := (hg.expression (took.ended hs).skip hv).afterSkip
      exact (took.andThen tookValue.leaves).imp (fun _ => tookValue.regular) rfl
    · rw [run_refuseTarget] at h
      cases h
  · obtain ⟨rfl, rfl⟩ := run_pure_eq_ok.1 h
    exact took

theorem run_binaryTurn_eq_ok {level : Nat} {left : Expr} {r : Turn Expr}
    (h : (binaryTurn g level left).run s = .ok (r, s')) :
    (r = .done left ∧ s' = s) ∨
      ∃ c right, Connective.ofKind? s.current.kind = some c ∧
        (g.binary (c.level + 1)).run s.skip = .ok (right, s') ∧
        r = .again (c.join left right) := by
  unfold binaryTurn at h
  rw [run_onSameLine_bind, run_ite] at h
  split at h
  · exact .inl (run_pure_eq_ok.1 h)
  · rw [run_kind_bind] at h
    split at h
    · exact .inl (run_pure_eq_ok.1 h)
    · next c hc =>
      rw [run_ite] at h
      split at h
      · exact .inl (run_pure_eq_ok.1 h)
      · rw [run_advance_bind, run_bind_eq_ok] at h
        obtain ⟨right, s₁, hright, h⟩ := h
        obtain ⟨rfl, rfl⟩ := run_pure_eq_ok.1 h
        exact .inr ⟨c, right, hc, hright, rfl⟩

theorem binaryTurn_advances (hg : g.Sound) (level : Nat) : Advances (binaryTurn g level) := by
  intro left s r s' hs h
  rcases run_binaryTurn_eq_ok h with ⟨h, -⟩ | ⟨c, right, hc, hright, -⟩
  · cases h
  · have took := (hg.binary _ hs.skip hright).afterSkip
    exact ⟨took.ended hs, took.lt⟩

theorem binary_reads (hg : g.Sound) (level : Nat) : (Rule.binary g level).ReadsExpr := by
  intro s e s' hs h
  unfold Rule.binary at h
  rw [run_bind_eq_ok] at h
  obtain ⟨left, s₁, hleft, h⟩ := h
  have took := hg.unary hs hleft
  refine loop_induction (binaryTurn_advances hg level)
    (P := fun e s₁ => Took s e.Regular (jumps e.placed) s₁)
    (Q := fun e s₁ => Took s e.Regular (jumps e.placed) s₁) ?_ ?_ (took.ended hs) took h
  · intro a s₂ b s₃ took hs₂ h
    rcases run_binaryTurn_eq_ok h with ⟨hr, rfl⟩ | ⟨c, right, -, -, hr⟩ <;> cases hr
    exact took
  · intro a s₂ b s₃ took hs₂ h
    rcases run_binaryTurn_eq_ok h with ⟨hr, -⟩ | ⟨c, right, hc, hright, hr⟩ <;> cases hr
    have tookRight := (hg.binary _ hs₂.skip hright).afterSkip
    exact (took.andThen tookRight.leaves).imp (fun hr => join_regular hr tookRight.regular)
      (by rw [join_placed, jumps_append])

theorem run_increment_eq_ok {sign : Token} {target e : Expr} {direction : Direction}
    {side : Side} (h : (increment sign target direction side).run s = .ok (e, s')) :
    (∃ span name, e = .increment span direction side name) ∧ s' = s := by
  unfold increment at h
  split at h
  · obtain ⟨rfl, rfl⟩ := run_pure_eq_ok.1 h
    exact ⟨⟨_, _, rfl⟩, rfl⟩
  · rw [run_refuseTarget] at h
    cases h

theorem prefixed_reads (hg : g.Sound) {sign : Token} {direction : Direction} {e : Expr}
    (hs : s.Ended)
    (h : (do increment sign (← g.unary) direction .before).run s.skip = .ok (e, s')) :
    Took s e.Regular (jumps e.placed) s' := by
  rw [run_bind_eq_ok] at h
  obtain ⟨target, s₁, ht, h⟩ := h
  have took := (hg.unary hs.skip ht).afterSkip
  obtain ⟨⟨span, name, rfl⟩, rfl⟩ := run_increment_eq_ok h
  exact ⟨trivial, ⟨took.leaves.ahead, took.leaves.finish, took.leaves.brackets,
    (List.sublist_append_right _ _).trans took.leaves.starts⟩, took.lt⟩

theorem unary_reads (hg : g.Sound) : (unary g).ReadsExpr := by
  intro s e s' hs h
  unfold unary at h
  rw [run_kind_bind] at h
  split at h
  · rw [run_advance_bind, run_bind_eq_ok] at h
    obtain ⟨operand, s₁, ho, h⟩ := h
    obtain ⟨rfl, rfl⟩ := run_pure_eq_ok.1 h
    exact (hg.unary hs.skip ho).afterSkip
  · rw [run_advance_bind, run_bind_eq_ok] at h
    obtain ⟨operand, s₁, ho, h⟩ := h
    obtain ⟨rfl, rfl⟩ := run_pure_eq_ok.1 h
    exact (hg.unary hs.skip ho).afterSkip
  · exact prefixed_reads hg hs h
  · exact prefixed_reads hg hs h
  · exact hg.suffixed hs h

/-! ### Lists between brackets -/

theorem run_argumentTurn_eq_ok {done : List Expr} {r : Turn (List Expr)}
    (h : (argumentTurn g done).run s = .ok (r, s')) :
    (r = .done done ∧ (s' = s ∨ s' = s.skip)) ∨
      ∃ e, g.expression.run s.skip = .ok (e, s') ∧ r = .again (e :: done) := by
  unfold argumentTurn at h
  rw [run_accept_bind] at h
  split at h
  · rw [if_pos rfl, run_kind_bind, run_ite] at h
    split at h
    · obtain ⟨rfl, rfl⟩ := run_pure_eq_ok.1 h
      exact .inl ⟨rfl, .inr rfl⟩
    · rw [run_bind_eq_ok] at h
      obtain ⟨e, s₁, he, h⟩ := h
      obtain ⟨rfl, rfl⟩ := run_pure_eq_ok.1 h
      exact .inr ⟨e, he, rfl⟩
  · obtain ⟨rfl, rfl⟩ := run_pure_eq_ok.1 h
    exact .inl ⟨rfl, .inl rfl⟩

theorem argumentTurn_advances (hg : g.Sound) : Advances (argumentTurn g) := by
  intro done s r s' hs h
  rcases run_argumentTurn_eq_ok h with ⟨h, -⟩ | ⟨e, he, -⟩
  · cases h
  · have took := (hg.expression hs.skip he).afterSkip
    exact ⟨took.ended hs, took.lt⟩

theorem arguments_reads (hg : g.Sound) {es : List Expr} (hs : s.Ended)
    (h : (arguments g).run s = .ok (es, s')) :
    Expr.RegularAll es ∧ Leaves s (jumps (Expr.placedAll es)) s' := by
  unfold arguments at h
  rw [run_kind_bind, run_ite] at h
  split at h
  · obtain ⟨rfl, rfl⟩ := run_pure_eq_ok.1 h
    exact ⟨trivial, Leaves.refl _⟩
  · rw [run_bind_eq_ok] at h
    obtain ⟨first, s₁, hf, h⟩ := h
    have took := hg.expression hs hf
    rw [run_bind_eq_ok] at h
    obtain ⟨found, s₂, hl, h⟩ := h
    obtain ⟨rfl, rfl⟩ := run_pure_eq_ok.1 h
    refine loop_induction (argumentTurn_advances hg)
      (P := fun es s₁ => Expr.RegularAll es.reverse ∧
        Leaves s (jumps (Expr.placedAll es.reverse)) s₁)
      (Q := fun es s₁ => Expr.RegularAll es.reverse ∧
        Leaves s (jumps (Expr.placedAll es.reverse)) s₁) ?_ ?_ (took.ended hs) ?_ hl
    · intro a s₂ b s₃ ⟨hr, hl⟩ hs₂ h
      rcases run_argumentTurn_eq_ok h with ⟨h, hs₃⟩ | ⟨e, -, h⟩ <;> cases h
      rcases hs₃ with rfl | rfl
      · exact ⟨hr, hl⟩
      · exact ⟨hr, by simpa using hl.trans (Leaves.skip s₂)⟩
    · intro a s₂ b s₃ ⟨hr, hl⟩ hs₂ h
      rcases run_argumentTurn_eq_ok h with ⟨h, -⟩ | ⟨e, he, h⟩ <;> cases h
      have took := (hg.expression hs₂.skip he).afterSkip
      rw [Expr.regularAll_reverse] at hr ⊢
      refine ⟨⟨took.regular, hr⟩, ?_⟩
      rw [List.reverse_cons, Expr.placedAll_append, jumps_append]
      simpa [Expr.placedAll] using hl.trans took.leaves
    · exact ⟨⟨took.regular, trivial⟩, by simpa [Expr.placedAll] using took.leaves⟩

theorem inBrackets_leaves {α : Type} {p : Parser α} {a : α} {P : Prop} {ps : List Position}
    (hs : s.Ended) (h : (inBrackets p).run s = .ok (a, s'))
    (hp : ∀ {s s'}, s.Ended → p.run s = .ok (a, s') → P ∧ Leaves s ps s') :
    P ∧ Leaves s ps s' := by
  rw [run_inBrackets_eq_ok] at h
  obtain ⟨s₁, h, rfl⟩ := h
  obtain ⟨hP, hl⟩ := hp (hs.withBrackets _) h
  exact ⟨hP, hl.withBrackets (by rw [hl.brackets]; rfl)⟩

theorem call_reads (hg : g.Sound) {callee e : Expr} (hs : s.Ended)
    (h : (call g callee).run s = .ok (e, s')) :
    ∃ arguments, (callee.Regular → e.Regular) ∧
      e.placed = callee.placed ++ Expr.placedAll arguments ∧
      Leaves s.skip (jumps (Expr.placedAll arguments)) s' := by
  unfold call at h
  rw [run_expect_bind_eq_ok, run_bind_eq_ok] at h
  obtain ⟨-, found, s₁, hf, h⟩ := h
  rw [run_bind_eq_ok] at h
  obtain ⟨t, s₂, ht, h⟩ := h
  obtain ⟨-, rfl, rfl⟩ := run_expect_eq_ok.1 ht
  rw [run_spanFrom_bind] at h
  obtain ⟨rfl, rfl⟩ := run_pure_eq_ok.1 h
  obtain ⟨hr, hl⟩ := inBrackets_leaves hs.skip hf (arguments_reads hg)
  exact ⟨found, fun hc => ⟨hc, hr⟩, rfl, by simpa using hl.trans (Leaves.skip s₁)⟩

/-- The statements in what stands between square brackets. -/
def Subscript.placed : Subscript → List (Place × Stmt)
  | .position value => value.placed
  | .stretch start stop step =>
    Expr.placedOption start ++ Expr.placedOption stop ++ Expr.placedOption step

/-- What stands between square brackets, without definitions. -/
def Subscript.Regular : Subscript → Prop
  | .position value => value.Regular
  | .stretch start stop step =>
    Expr.RegularOption start ∧ Expr.RegularOption stop ∧ Expr.RegularOption step

theorem optional_reads (hg : g.Sound) {leftOut : Bool} {o : Option Expr} (hs : s.Ended)
    (h : (optional g leftOut).run s = .ok (o, s')) :
    Expr.RegularOption o ∧ Leaves s (jumps (Expr.placedOption o)) s' := by
  unfold optional at h
  rw [run_ite] at h
  split at h
  · obtain ⟨rfl, rfl⟩ := run_pure_eq_ok.1 h
    exact ⟨trivial, Leaves.refl _⟩
  · obtain ⟨e, he, rfl⟩ := run_map_eq_ok.1 h
    have took := hg.expression hs he
    exact ⟨took.regular, took.leaves⟩

theorem stride_reads (hg : g.Sound) {o : Option Expr} (hs : s.Ended)
    (h : (stride g).run s = .ok (o, s')) :
    Expr.RegularOption o ∧ Leaves s (jumps (Expr.placedOption o)) s' := by
  unfold stride at h
  rw [run_accept_bind] at h
  split at h
  · rw [if_pos rfl, run_kind_bind] at h
    obtain ⟨hr, hl⟩ := optional_reads hg hs.skip h
    exact ⟨hr, (Leaves.skip s).trans hl⟩
  · obtain ⟨rfl, rfl⟩ := run_pure_eq_ok.1 h
    exact ⟨trivial, Leaves.refl _⟩

theorem stretch_reads (hg : g.Sound) {start : Option Expr} {u : Subscript} (hs : s.Ended)
    (h : (stretch g start).run s = .ok (u, s')) (hstart : Expr.RegularOption start) :
    u.Regular ∧ ∃ later, u.placed = Expr.placedOption start ++ later ∧
      Leaves s (jumps later) s' := by
  rw [stretch_eq, run_kind_bind, run_bind_eq_ok] at h
  obtain ⟨stop, s₁, hstop, h⟩ := h
  obtain ⟨hr₁, hl₁⟩ := optional_reads hg hs hstop
  rw [run_bind_eq_ok] at h
  obtain ⟨step, s₂, hstep, h⟩ := h
  obtain ⟨hr₂, hl₂⟩ := stride_reads hg (hl₁.ended hs) hstep
  obtain ⟨rfl, rfl⟩ := run_pure_eq_ok.1 h
  refine ⟨⟨hstart, hr₁, hr₂⟩, Expr.placedOption stop ++ Expr.placedOption step, ?_, ?_⟩
  · exact List.append_assoc _ _ _
  · rw [jumps_append]
    exact hl₁.trans hl₂

theorem subscript_reads (hg : g.Sound) {u : Subscript} (hs : s.Ended)
    (h : (subscript g).run s = .ok (u, s')) : u.Regular ∧ Leaves s (jumps u.placed) s' := by
  unfold subscript at h
  rw [run_accept_bind] at h
  split at h
  · obtain ⟨hr, later, hu, hl⟩ := stretch_reads hg hs.skip h trivial
    exact ⟨hr, by rw [hu]; exact (Leaves.skip s).trans hl⟩
  · rw [if_neg (by simp), run_bind_eq_ok] at h
    obtain ⟨value, s₁, hv, h⟩ := h
    have took := hg.expression hs hv
    rw [run_accept_bind] at h
    split at h
    · obtain ⟨hr, later, hu, hl⟩ := stretch_reads hg (took.ended hs).skip h took.regular
      rw [hu, jumps_append]
      exact ⟨hr, took.leaves.trans ((Leaves.skip s₁).trans hl)⟩
    · obtain ⟨rfl, rfl⟩ := run_pure_eq_ok.1 h
      exact ⟨took.regular, took.leaves⟩

theorem subscripted_reads (hg : g.Sound) {target e : Expr} (hs : s.Ended)
    (h : (subscripted g target).run s = .ok (e, s')) :
    ∃ later, (target.Regular → e.Regular) ∧ e.placed = target.placed ++ later ∧
      Leaves s.skip (jumps later) s' := by
  unfold subscripted at h
  rw [run_expect_bind_eq_ok, run_bind_eq_ok] at h
  obtain ⟨-, u, s₁, hu, h⟩ := h
  obtain ⟨hr, hl⟩ := inBrackets_leaves hs.skip hu (subscript_reads hg)
  refine ⟨u.placed, ?_⟩
  split at h
  all_goals
    rw [run_bind_eq_ok] at h
    obtain ⟨t, s₂, ht, h⟩ := h
    obtain ⟨-, rfl, rfl⟩ := run_expect_eq_ok.1 ht
    rw [run_spanFrom_bind] at h
    obtain ⟨rfl, rfl⟩ := run_pure_eq_ok.1 h
    refine ⟨fun ht => ⟨ht, hr⟩, ?_, by simpa using hl.trans (Leaves.skip s₁)⟩
  · rfl
  · simp [Expr.placed, Subscript.placed]

theorem run_suffixTurn_eq_ok {operand : Expr} {r : Turn Expr}
    (h : (suffixTurn g operand).run s = .ok (r, s')) :
    (r = .done operand ∧ s' = s) ∨
      ∃ e, r = .again e ∧
        ((s.current.kind = .sign .leftParen ∧ (call g operand).run s = .ok (e, s')) ∨
          (s.current.kind = .sign .leftBracket ∧ (subscripted g operand).run s = .ok (e, s')) ∨
          ((s.current.kind = .sign .plusPlus ∨ s.current.kind = .sign .minusMinus) ∧
            s' = s.skip ∧ ∃ span direction name, e = .increment span direction .after name)) := by
  unfold suffixTurn at h
  rw [run_onSameLine_bind, run_ite] at h
  split at h
  · exact .inl (run_pure_eq_ok.1 h)
  · rw [run_kind_bind] at h
    split at h
    · next hk =>
      rw [run_bind_eq_ok] at h
      obtain ⟨e, s₁, he, h⟩ := h
      obtain ⟨rfl, rfl⟩ := run_pure_eq_ok.1 h
      exact .inr ⟨e, rfl, .inl ⟨hk, he⟩⟩
    · next hk =>
      rw [run_bind_eq_ok] at h
      obtain ⟨e, s₁, he, h⟩ := h
      obtain ⟨rfl, rfl⟩ := run_pure_eq_ok.1 h
      exact .inr ⟨e, rfl, .inr (.inl ⟨hk, he⟩)⟩
    · next hk =>
      rw [run_advance_bind, run_bind_eq_ok] at h
      obtain ⟨e, s₁, he, h⟩ := h
      obtain ⟨rfl, rfl⟩ := run_pure_eq_ok.1 h
      obtain ⟨⟨span, name, rfl⟩, rfl⟩ := run_increment_eq_ok he
      exact .inr ⟨_, rfl, .inr (.inr ⟨.inl hk, rfl, _, _, _, rfl⟩)⟩
    · next hk =>
      rw [run_advance_bind, run_bind_eq_ok] at h
      obtain ⟨e, s₁, he, h⟩ := h
      obtain ⟨rfl, rfl⟩ := run_pure_eq_ok.1 h
      obtain ⟨⟨span, name, rfl⟩, rfl⟩ := run_increment_eq_ok he
      exact .inr ⟨_, rfl, .inr (.inr ⟨.inr hk, rfl, _, _, _, rfl⟩)⟩
    · exact .inl (run_pure_eq_ok.1 h)

/-- A turn that goes on keeps the statements of the operand, reads on behind the sign,
and adds those of what it reads. -/
theorem suffixTurn_again (hg : g.Sound) {operand e : Expr} (hs : s.Ended)
    (h : (suffixTurn g operand).run s = .ok (.again e, s')) :
    s.ahead ≠ [] ∧ (operand.Regular → e.Regular) ∧
      ∃ ps, (jumps e.placed).Sublist (jumps operand.placed ++ ps) ∧ Leaves s.skip ps s' := by
  rcases run_suffixTurn_eq_ok h with ⟨h, -⟩ | ⟨e, h, hcase⟩ <;> cases h
  rcases hcase with ⟨hk, h⟩ | ⟨hk, h⟩ | ⟨hk, rfl, span, direction, name, rfl⟩
  · obtain ⟨arguments, hr, he, hl⟩ := call_reads hg hs h
    refine ⟨hs.ahead_ne_nil hk (by simp), hr, _, ?_, hl⟩
    simp only [he, jumps_append, List.Sublist.refl]
  · obtain ⟨later, hr, he, hl⟩ := subscripted_reads hg hs h
    refine ⟨hs.ahead_ne_nil hk (by simp), hr, _, ?_, hl⟩
    simp only [he, jumps_append, List.Sublist.refl]
  · refine ⟨?_, fun _ => trivial, [], List.nil_sublist _, Leaves.refl _⟩
    rcases hk with hk | hk <;> exact hs.ahead_ne_nil hk (by simp)

theorem suffixTurn_advances (hg : g.Sound) : Advances (suffixTurn g) := by
  intro operand s e s' hs h
  obtain ⟨hne, -, ps, -, hl⟩ := suffixTurn_again hg hs h
  exact ⟨hl.ended hs.skip, Nat.lt_of_le_of_lt hl.length_le (length_skip_lt hne)⟩

theorem suffixed_reads (hg : g.Sound) : (suffixed g).ReadsExpr := by
  intro s e s' hs h
  unfold suffixed at h
  rw [run_bind_eq_ok] at h
  obtain ⟨operand, s₁, ho, h⟩ := h
  have took := hg.primary hs ho
  refine loop_induction (suffixTurn_advances hg)
    (P := fun e s₁ => Took s e.Regular (jumps e.placed) s₁)
    (Q := fun e s₁ => Took s e.Regular (jumps e.placed) s₁) ?_ ?_ (took.ended hs) took h
  · intro a s₂ b s₃ took hs₂ h
    rcases run_suffixTurn_eq_ok h with ⟨hr, rfl⟩ | ⟨e, hr, -⟩ <;> cases hr
    exact took
  · intro a s₂ b s₃ took hs₂ h
    obtain ⟨-, hr, ps, hsub, hl⟩ := suffixTurn_again hg hs₂ h
    have took := took.andThen ((Leaves.skip s₂).trans hl)
    exact ⟨hr took.regular, ⟨took.leaves.ahead, took.leaves.finish, took.leaves.brackets,
      (hsub.append (List.Sublist.refl _)).trans took.leaves.starts⟩, took.lt⟩

/-! ### Functions and operands -/

theorem run_parameterTurn_eq_ok {closing : TokenKind} {done : List Text} {r : Turn (List Text)}
    (h : (parameterTurn closing done).run s = .ok (r, s')) :
    (r = .done done ∧ (s' = s ∨ s' = s.skip)) ∨
      ∃ name, s.current.kind = .sign .comma ∧ s.skip.current.content = .identifier name ∧
        s' = s.skip.skip ∧ r = .again (name :: done) := by
  unfold parameterTurn at h
  rw [run_accept_bind] at h
  split at h
  · next hk =>
    rw [if_pos rfl, run_kind_bind, run_ite] at h
    split at h
    · obtain ⟨rfl, rfl⟩ := run_pure_eq_ok.1 h
      exact .inl ⟨rfl, .inr rfl⟩
    · rw [run_bind_eq_ok] at h
      obtain ⟨name, s₁, hn, h⟩ := h
      obtain ⟨rfl, rfl⟩ := run_pure_eq_ok.1 h
      obtain ⟨hc, rfl⟩ := run_expectName_eq_ok.1 hn
      exact .inr ⟨name, hk, hc, rfl, rfl⟩
  · obtain ⟨rfl, rfl⟩ := run_pure_eq_ok.1 h
    exact .inl ⟨rfl, .inl rfl⟩

theorem parameterTurn_advances (closing : TokenKind) : Advances (parameterTurn closing) := by
  intro done s r s' hs h
  rcases run_parameterTurn_eq_ok h with ⟨h, -⟩ | ⟨name, hk, -, rfl, -⟩
  · cases h
  · have hne := hs.ahead_ne_nil hk (by simp)
    exact ⟨hs.skip.skip, Nat.lt_of_le_of_lt (length_skip_le _) (length_skip_lt hne)⟩

theorem parameters_leaves {closing : TokenKind} {names : List Text} (hs : s.Ended)
    (h : (parameters closing).run s = .ok (names, s')) : Leaves s [] s' := by
  unfold parameters parameterNames at h
  rw [run_kind_bind, run_ite] at h
  split at h
  · obtain ⟨rfl, rfl⟩ := run_pure_eq_ok.1 h
    exact Leaves.refl _
  · rw [run_bind_eq_ok] at h
    obtain ⟨first, s₁, hf, h⟩ := h
    obtain ⟨-, rfl⟩ := run_expectName_eq_ok.1 hf
    rw [run_bind_eq_ok] at h
    obtain ⟨found, s₂, hl, h⟩ := h
    obtain ⟨rfl, rfl⟩ := run_pure_eq_ok.1 h
    refine loop_induction (parameterTurn_advances closing) (P := fun _ s₁ => Leaves s [] s₁)
      (Q := fun _ s₁ => Leaves s [] s₁) ?_ ?_ hs.skip (Leaves.skip s) hl
    · intro a s₂ b s₃ hl hs₂ h
      rcases run_parameterTurn_eq_ok h with ⟨-, rfl | rfl⟩ | ⟨name, -, -, rfl, -⟩
      · exact hl
      · exact hl.trans (Leaves.skip s₂)
      · exact hl.trans ((Leaves.skip s₂).trans (Leaves.skip _))
    · intro a s₂ b s₃ hl hs₂ h
      rcases run_parameterTurn_eq_ok h with ⟨-, rfl | rfl⟩ | ⟨name, -, -, rfl, -⟩
      · exact hl
      · exact hl.trans (Leaves.skip s₂)
      · exact hl.trans ((Leaves.skip s₂).trans (Leaves.skip _))

theorem outsideBrackets_leaves {α : Type} {p : Parser α} {a : α} {P : Prop}
    {ps : List Position} (hs : s.Ended) (h : (outsideBrackets p).run s = .ok (a, s'))
    (hp : ∀ {s s'}, s.Ended → p.run s = .ok (a, s') → P ∧ Leaves s ps s') :
    P ∧ Leaves s ps s' := by
  rw [run_outsideBrackets_eq_ok] at h
  obtain ⟨s₁, h, rfl⟩ := h
  obtain ⟨hP, hl⟩ := hp (hs.withBrackets _) h
  exact ⟨hP, hl.withBrackets rfl⟩

theorem body_reads (hg : g.Sound) : (body g).Reads Block.Regular Block.placed := by
  intro s b s' hs h π
  unfold body at h
  rw [run_kind_bind, run_ite] at h
  split at h
  · next hk =>
    have hne := hs.ahead_ne_nil hk (by simp)
    rw [run_advance_bind, run_bind_eq_ok] at h
    obtain ⟨value, s₁, hv, h⟩ := h
    obtain ⟨rfl, rfl⟩ := run_pure_eq_ok.1 h
    obtain ⟨hr, hl⟩ := outsideBrackets_leaves hs.skip hv fun hs h =>
      ⟨(hg.expression hs h).regular, (hg.expression hs h).leaves⟩
    refine ⟨⟨hr, trivial⟩, ?_, Nat.lt_of_le_of_lt hl.length_le (length_skip_lt hne)⟩
    have hj : jumps (Block.placed π (.mk (s.current.span.merge value.span)
        [.returning (s.current.span.merge value.span) (some value)])) =
        [s.current.span.start] ++ jumps value.placed := by
      simp [Block.placed, Stmt.placedAll, Stmt.inside, Expr.placedOption, jumps, Stmt.jump?]
    rw [hj]
    exact (Leaves.skip_start hne).trans hl
  · exact hg.block hs h π

theorem lambda_reads (hg : g.Sound) {e : Expr} (hs : s.Ended)
    (h : (lambda g).run s = .ok (e, s')) : Took s e.Regular (jumps e.placed) s' := by
  unfold lambda at h
  rw [run_expect_bind_eq_ok, run_bind_eq_ok] at h
  obtain ⟨-, names, s₁, hn, h⟩ := h
  have hl₁ := parameters_leaves hs.skip hn
  rw [run_bind_eq_ok] at h
  obtain ⟨t, s₂, ht, h⟩ := h
  obtain ⟨-, rfl, rfl⟩ := run_expect_eq_ok.1 ht
  rw [run_bind_eq_ok] at h
  obtain ⟨b, s₃, hb, h⟩ := h
  rw [run_spanFrom_bind] at h
  obtain ⟨rfl, rfl⟩ := run_pure_eq_ok.1 h
  have hl := (Leaves.skip s).trans (hl₁.trans (Leaves.skip s₁))
  exact (Took.after hl (hg.body (hl.ended hs) hb .body)).imp (fun h => ⟨rfl, h⟩) rfl

theorem group_reads (hg : g.Sound) {e : Expr} (hs : s.Ended)
    (h : (group g).run s = .ok (e, s')) : Took s e.Regular (jumps e.placed) s' := by
  unfold group at h
  rw [run_advance_bind, run_bind_eq_ok] at h
  obtain ⟨e₁, s₁, he, h⟩ := h
  rw [run_bind_eq_ok] at h
  obtain ⟨t, s₂, ht, h⟩ := h
  obtain ⟨-, rfl, rfl⟩ := run_expect_eq_ok.1 ht
  obtain ⟨rfl, rfl⟩ := run_pure_eq_ok.1 h
  rw [run_inBrackets_eq_ok] at he
  obtain ⟨s₂, he, rfl⟩ := he
  have took := hg.expression (hs.skip.withBrackets _) he
  have took : Took s.skip e.Regular (jumps e.placed) { s₂ with brackets := s₂.brackets - 1 } :=
    ⟨took.regular, took.leaves.withBrackets (by rw [took.leaves.brackets]; rfl), took.lt⟩
  exact took.afterSkip.thenSkip

theorem primary_reads (hg : g.Sound) : (primary g).ReadsExpr := by
  intro s e s' hs h
  unfold primary at h
  rw [run_current_bind] at h
  have leaf : s.current.kind ≠ .endOfInput → Took s True [] s.skip := fun hk =>
    ⟨trivial, Leaves.skip s, length_skip_lt (hs.ahead_ne_nil rfl hk)⟩
  unfold Token.kind at leaf
  dsimp only at h
  split at h
  case h_8 => exact group_reads hg hs h
  case h_9 => exact lambda_reads hg hs h
  case h_10 =>
    rw [run_fail] at h
    cases h
  all_goals
    next hc =>
    rw [run_advance_seq] at h
    obtain ⟨rfl, rfl⟩ := run_pure_eq_ok.1 h
    exact leaf (by rw [hc]; simp [Token.Content.kind])

/-! ### Statements -/

theorem run_blockTurn_eq_ok {done : List Stmt} {r : Turn (List Stmt)}
    (h : (blockTurn g done).run s = .ok (r, s')) :
    (s.current.kind = .sign .rightBrace ∧ r = .done done ∧ s' = s) ∨
      (s.current.kind = .sign .semicolon ∧ r = .again done ∧ s' = s.skip) ∨
      ∃ stmt, g.statement.run s = .ok (stmt, s') ∧ r = .again (stmt :: done) := by
  unfold blockTurn at h
  rw [run_kind_bind] at h
  split at h
  · next hk => exact .inl ⟨hk, run_pure_eq_ok.1 h⟩
  · rw [run_fail] at h
    cases h
  · next hk =>
    rw [run_advance_bind] at h
    exact .inr (.inl ⟨hk, run_pure_eq_ok.1 h⟩)
  · rw [run_bind_eq_ok] at h
    obtain ⟨stmt, s₁, hst, h⟩ := h
    obtain ⟨rfl, rfl⟩ := run_pure_eq_ok.1 h
    exact .inr (.inr ⟨stmt, hst, rfl⟩)

theorem blockTurn_advances (hg : g.Sound) : Advances (blockTurn g) := by
  intro done s r s' hs h
  rcases run_blockTurn_eq_ok h with ⟨-, h, -⟩ | ⟨hk, -, rfl⟩ | ⟨stmt, h, -⟩
  · cases h
  · exact ⟨hs.skip, length_skip_lt (hs.ahead_ne_nil hk (by simp))⟩
  · have took := hg.statement hs h .outside
    exact ⟨took.ended hs, took.lt⟩

theorem statements_reads {turn : List Stmt → Parser (Turn (List Stmt))} (ht : Advances turn)
    (hturn : ∀ {s s' done r}, s.Ended → (turn done).run s = .ok (r, s') →
      (r = .done done ∧ s' = s) ∨ (r = .again done ∧ s' = s.skip) ∨
        ∃ stmt, (∀ π, Took s stmt.Regular (jumps (stmt.placed π)) s') ∧
          r = .again (stmt :: done))
    {ss : List Stmt} (hs : s.Ended) (h : (loop turn []).run s = .ok (ss, s')) :
    Stmt.RegularAll ss.reverse ∧
      ∀ π, Leaves s (jumps (Stmt.placedAll π ss.reverse)) s' := by
  refine loop_induction ht
    (P := fun ss s₁ => Stmt.RegularAll ss.reverse ∧
      ∀ π, Leaves s (jumps (Stmt.placedAll π ss.reverse)) s₁)
    (Q := fun ss s₁ => Stmt.RegularAll ss.reverse ∧
      ∀ π, Leaves s (jumps (Stmt.placedAll π ss.reverse)) s₁) ?_ ?_ hs ?_ h
  · intro a s₂ b s₃ hP hs₂ h
    rcases hturn hs₂ h with ⟨hr, rfl⟩ | ⟨hr, -⟩ | ⟨stmt, -, hr⟩ <;> cases hr
    exact hP
  · intro a s₂ b s₃ ⟨hr, hl⟩ hs₂ h
    rcases hturn hs₂ h with ⟨hb, -⟩ | ⟨hb, rfl⟩ | ⟨stmt, took, hb⟩ <;> cases hb
    · exact ⟨hr, fun π => by simpa using (hl π).trans (Leaves.skip s₂)⟩
    · rw [Stmt.regularAll_reverse] at hr ⊢
      refine ⟨⟨(took .outside).regular, hr⟩, fun π => ?_⟩
      rw [List.reverse_cons, Stmt.placedAll_append, jumps_append, Stmt.placedAll_cons]
      simpa [Stmt.placedAll] using (hl π).trans (took π).leaves
  · exact ⟨trivial, fun _ => Leaves.refl _⟩

theorem block_reads (hg : g.Sound) : (block g).Reads Block.Regular Block.placed := by
  intro s b s' hs h π
  unfold block at h
  rw [run_bind_eq_ok] at h
  obtain ⟨t, s₁, ht, h⟩ := h
  obtain ⟨hk, rfl, rfl⟩ := run_expect_eq_ok.1 ht
  have hne := hs.ahead_ne_nil hk (by simp)
  rw [run_bind_eq_ok] at h
  obtain ⟨ss, s₂, hss, h⟩ := h
  rw [run_bind_eq_ok] at h
  obtain ⟨t, s₃, ht, h⟩ := h
  obtain ⟨-, rfl, rfl⟩ := run_expect_eq_ok.1 ht
  rw [run_spanFrom_bind] at h
  obtain ⟨rfl, rfl⟩ := run_pure_eq_ok.1 h
  obtain ⟨s₃, hloop, rfl⟩ := run_outsideBrackets_eq_ok.1 hss
  obtain ⟨hr, hl⟩ := statements_reads (blockTurn_advances hg) (fun {s s' done r} hs h => by
    rcases run_blockTurn_eq_ok h with ⟨-, h⟩ | ⟨-, h⟩ | ⟨stmt, h, hr⟩
    · exact .inl h
    · exact .inr (.inl h)
    · exact .inr (.inr ⟨stmt, fun π => hg.statement hs h π, hr⟩)) (hs.skip.withBrackets 0) hloop
  have hl := ((hl π).withBrackets (n := s.skip.brackets) rfl).trans (Leaves.skip _)
  rw [List.append_nil] at hl
  exact ⟨hr, (Leaves.skip s).trans hl, Nat.lt_of_le_of_lt hl.length_le (length_skip_lt hne)⟩

theorem declaration_reads (hg : g.Sound) {x : Token × Text × Expr} (hs : s.Ended)
    (h : (declaration g).run s = .ok (x, s')) :
    Took s x.2.2.Regular (jumps x.2.2.placed) s' := by
  unfold declaration at h
  rw [run_expect_bind_eq_ok, run_bind_eq_ok] at h
  obtain ⟨-, name, s₁, hn, h⟩ := h
  obtain ⟨-, rfl⟩ := run_expectName_eq_ok.1 hn
  rw [run_bind_eq_ok] at h
  obtain ⟨t, s₁, ht, h⟩ := h
  obtain ⟨-, rfl, rfl⟩ := run_expect_eq_ok.1 ht
  rw [run_bind_eq_ok] at h
  obtain ⟨value, s₁, hv, h⟩ := h
  obtain ⟨rfl, rfl⟩ := run_pure_eq_ok.1 h
  exact (hg.expression hs.skip.skip.skip hv).afterSkip.afterSkip.afterSkip

theorem statementEnd_leaves {u : Unit} (h : statementEnd.run s = .ok (u, s')) :
    Leaves s [] s' := by
  rw [run_statementEnd_eq_ok h, afterStatement]
  split
  · exact Leaves.skip s
  · exact Leaves.refl s

theorem definitionEnd_leaves {arrow : Bool} {u : Unit}
    (h : (definitionEnd arrow).run s = .ok (u, s')) : Leaves s [] s' := by
  unfold definitionEnd at h
  rw [run_ite] at h
  split at h
  · exact statementEnd_leaves h
  · obtain ⟨rfl, rfl⟩ := run_pure_eq_ok.1 h
    exact Leaves.refl _

theorem definition_reads (hg : g.Sound) {d : Definition} (hs : s.Ended)
    (h : (definition g).run s = .ok (d, s')) :
    Took s d.body.Regular (jumps (d.body.placed .body)) s' := by
  rw [definition_eq, run_expect_bind_eq_ok, run_bind_eq_ok] at h
  obtain ⟨-, name, s₁, hn, h⟩ := h
  obtain ⟨-, rfl⟩ := run_expectName_eq_ok.1 hn
  rw [run_bind_eq_ok] at h
  obtain ⟨t, s₁, ht, h⟩ := h
  obtain ⟨-, rfl, rfl⟩ := run_expect_eq_ok.1 ht
  rw [run_bind_eq_ok] at h
  obtain ⟨names, s₁, hps, h⟩ := h
  have hl := parameters_leaves hs.skip.skip.skip hps
  rw [run_bind_eq_ok] at h
  obtain ⟨t, s₂, ht, h⟩ := h
  obtain ⟨-, rfl, rfl⟩ := run_expect_eq_ok.1 ht
  rw [run_kind_bind, run_bind_eq_ok] at h
  obtain ⟨b, s₂, hb, h⟩ := h
  rw [run_bind_eq_ok] at h
  obtain ⟨u, s₃, hu, h⟩ := h
  rw [run_spanFrom_bind] at h
  obtain ⟨rfl, rfl⟩ := run_pure_eq_ok.1 h
  have hl := hl.trans (Leaves.skip s₁)
  have took := hg.body (hl.ended hs.skip.skip.skip) hb .body
  exact ((took.andThen (definitionEnd_leaves hu)).imp id (List.append_nil _)).after hl
    |>.afterSkip.afterSkip.afterSkip

theorem run_decoratorTurn_eq_ok {done : List Expr} {r : Turn (List Expr)}
    (h : (decoratorTurn g done).run s = .ok (r, s')) :
    (s.current.kind ≠ .sign .atSign ∧ r = .done done ∧ s' = s) ∨
      ∃ e s₁, g.suffixed.run s.skip = .ok (e, s₁) ∧ (s' = s₁ ∨ s' = s₁.skip) ∧
        r = .again (e :: done) := by
  unfold decoratorTurn at h
  rw [run_accept_bind] at h
  split at h
  · rw [if_pos rfl, run_bind_eq_ok] at h
    obtain ⟨e, s₁, he, h⟩ := h
    refine .inr ⟨e, s₁, he, ?_⟩
    rw [run_accept_bind] at h
    split at h <;> obtain ⟨rfl, rfl⟩ := run_pure_eq_ok.1 h
    · exact ⟨.inr rfl, rfl⟩
    · exact ⟨.inl rfl, rfl⟩
  · next hk => exact .inl ⟨hk, run_pure_eq_ok.1 h⟩

theorem decoratorTurn_advances (hg : g.Sound) : Advances (decoratorTurn g) := by
  intro done s r s' hs h
  rcases run_decoratorTurn_eq_ok h with ⟨-, h, -⟩ | ⟨e, s₁, he, hs', -⟩
  · cases h
  · have took := (hg.suffixed hs.skip he).afterSkip
    rcases hs' with rfl | rfl
    · exact ⟨took.ended hs, took.lt⟩
    · exact ⟨took.thenSkip.ended hs, took.thenSkip.lt⟩

/-- The decorators around a definition, the one next to it first, come before it in the
text the other way round. -/
theorem decorate_reads {d : Definition} (hd : d.body.Regular) :
    ∀ (decorators : List Expr) (value : Expr), Expr.RegularAll decorators →
      value.Defines d.name →
      (decorators.foldl (decorate d) value).Defines d.name ∧
        (decorators.foldl (decorate d) value).placed =
          Expr.placedAll decorators.reverse ++ value.placed
  | [], _, _, hv => ⟨hv, rfl⟩
  | decorator :: rest, value, ⟨hdec, hrest⟩, hv => by
    obtain ⟨h₁, h₂⟩ := decorate_reads hd rest (decorate d value decorator) hrest ⟨hdec, hv⟩
    refine ⟨h₁, h₂.trans ?_⟩
    rw [List.reverse_cons, Expr.placedAll_append]
    simp [decorate, Expr.placed, Expr.placedAll]

theorem decorated_defining {d : Definition} {decorators : List Expr} (hne : decorators ≠ [])
    (hr : Expr.RegularAll decorators) (hd : d.body.Regular) (span : Span) :
    Simple.Defining (.expression
      (.assignment span ⟨d.span, d.name⟩ (decorators.foldl (decorate d) d.expr))) := by
  obtain ⟨rest, decorator, rfl⟩ := (List.eq_nil_or_concat decorators).resolve_left hne
  rw [List.concat_eq_append] at hr ⊢
  have hall := Expr.regularAll_iff.1 hr
  have hrest : Expr.RegularAll rest :=
    Expr.regularAll_iff.2 fun e he => hall e (List.mem_append_left _ he)
  rw [List.foldl_append]
  exact ⟨hall _ (by simp), (decorate_reads hd rest d.expr hrest ⟨rfl, hd⟩).1⟩

theorem decorated_reads (hg : g.Sound) {stmt : Stmt} (hs : s.Ended)
    (hk : s.current.kind = .sign .atSign) (h : (decorated g).run s = .ok (stmt, s')) (π : Place) :
    Took s stmt.Regular (jumps (stmt.placed π)) s' := by
  unfold decorated at h
  rw [run_bind_eq_ok] at h
  obtain ⟨decorators, s₁, hd, h⟩ := h
  rw [run_kind_bind, run_ite] at h
  have hP : Expr.RegularAll decorators ∧
      Leaves s (jumps (Expr.placedAll decorators.reverse)) s₁ ∧
      (decorators = [] → s₁.current.kind = .sign .atSign) := by
    refine loop_induction (decoratorTurn_advances hg)
      (P := fun es s₁ => Expr.RegularAll es ∧ Leaves s (jumps (Expr.placedAll es.reverse)) s₁ ∧
        (es = [] → s₁.current.kind = .sign .atSign))
      (Q := fun es s₁ => Expr.RegularAll es ∧ Leaves s (jumps (Expr.placedAll es.reverse)) s₁ ∧
        (es = [] → s₁.current.kind = .sign .atSign)) ?_ ?_ hs ?_ hd
    · intro a s₂ b s₃ hP hs₂ h
      rcases run_decoratorTurn_eq_ok h with ⟨-, hr, rfl⟩ | ⟨e, s₁, -, -, hr⟩ <;> cases hr
      exact hP
    · rintro a s₂ b s₃ ⟨hr, hl, -⟩ hs₂ h
      rcases run_decoratorTurn_eq_ok h with ⟨-, hb, -⟩ | ⟨e, s₁, he, hs₃, hb⟩ <;> cases hb
      have took := (hg.suffixed hs₂.skip he).afterSkip
      have hl₃ : Leaves s₁ [] s₃ := by
        rcases hs₃ with rfl | rfl
        · exact Leaves.refl _
        · exact Leaves.skip _
      refine ⟨⟨took.regular, hr⟩, ?_, nofun⟩
      rw [List.reverse_cons, Expr.placedAll_append, jumps_append]
      simpa [Expr.placedAll] using hl.trans (took.leaves.trans hl₃)
    · exact ⟨trivial, Leaves.refl s, fun _ => hk⟩
  obtain ⟨hr, hl, hne⟩ := hP
  split at h
  · next hdef =>
    have hne : decorators ≠ [] := fun hnil => by
      rw [hne hnil] at hdef
      cases hdef
    rw [run_bind_eq_ok] at h
    obtain ⟨d, s₂, hd, h⟩ := h
    obtain ⟨rfl, rfl⟩ := run_pure_eq_ok.1 h
    have took := definition_reads hg (hl.ended hs) hd
    have hplaced := (decorate_reads took.regular decorators d.expr hr ⟨rfl, took.regular⟩).2
    refine (took.after hl).imp (fun hb => .inr (decorated_defining hne hr hb _)) ?_
    rw [← jumps_append]
    change _ = jumps (decorators.foldl (decorate d) d.expr).placed
    rw [hplaced]
    rfl
  · rw [run_fail] at h
    cases h

theorem otherwise_reads (hg : g.Sound) {o : Otherwise} (hs : s.Ended)
    (h : (otherwise g).run s = .ok (o, s')) (π : Place) :
    o.Regular ∧ Leaves s (jumps (o.placed π)) s' := by
  unfold otherwise at h
  rw [run_accept_bind] at h
  split at h
  · rw [if_pos rfl, run_kind_bind, run_ite] at h
    split at h <;> rw [run_bind_eq_ok] at h <;> obtain ⟨x, s₁, hx, h⟩ := h <;>
      obtain ⟨rfl, rfl⟩ := run_pure_eq_ok.1 h
    · have took := (hg.conditional hs.skip hx π).afterSkip
      exact ⟨took.regular, took.leaves⟩
    · have took := (hg.block hs.skip hx π).afterSkip
      exact ⟨took.regular, took.leaves⟩
  · obtain ⟨rfl, rfl⟩ := run_pure_eq_ok.1 h
    exact ⟨trivial, Leaves.refl _⟩

theorem conditional_reads (hg : g.Sound) :
    (conditional g).Reads Conditional.Regular Conditional.placed := by
  intro s c s' hs h π
  unfold conditional at h
  rw [run_expect_bind_eq_ok, run_bind_eq_ok] at h
  obtain ⟨-, condition, s₁, hc, h⟩ := h
  have took₁ := hg.expression hs.skip hc
  rw [run_bind_eq_ok] at h
  obtain ⟨body, s₂, hb, h⟩ := h
  have took₂ := hg.block (took₁.ended hs.skip) hb π
  rw [run_bind_eq_ok] at h
  obtain ⟨rest, s₃, hr, h⟩ := h
  obtain ⟨hreg, hl⟩ := otherwise_reads hg (took₂.ended (took₁.ended hs.skip)) hr π
  rw [run_spanFrom_bind] at h
  obtain ⟨rfl, rfl⟩ := run_pure_eq_ok.1 h
  refine ((took₁.andThen took₂.leaves).andThen hl).afterSkip.imp
    (fun h => ⟨h, took₂.regular, hreg⟩) ?_
  simp only [Conditional.placed, jumps_append]

theorem whileLoop_reads (hg : g.Sound) {stmt : Stmt} (hs : s.Ended)
    (h : (whileLoop g).run s = .ok (stmt, s')) (π : Place) :
    Took s stmt.Regular (jumps (stmt.placed π)) s' := by
  unfold whileLoop at h
  rw [run_expect_bind_eq_ok, run_bind_eq_ok] at h
  obtain ⟨-, condition, s₁, hc, h⟩ := h
  have took₁ := hg.expression hs.skip hc
  rw [run_bind_eq_ok] at h
  obtain ⟨body, s₂, hb, h⟩ := h
  have took₂ := hg.block (took₁.ended hs.skip) hb π.loop
  rw [run_spanFrom_bind] at h
  obtain ⟨rfl, rfl⟩ := run_pure_eq_ok.1 h
  refine (took₁.andThen took₂.leaves).afterSkip.imp (fun h => ⟨h, took₂.regular⟩) ?_
  rw [← jumps_append]
  rfl

theorem initializer_reads (hg : g.Sound) {i : Option Simple} (hs : s.Ended)
    (h : (initializer g).run s = .ok (i, s')) (π : Place) :
    Simple.RegularOption i ∧ Leaves s (jumps (Simple.placedOption π i)) s' := by
  unfold initializer at h
  rw [run_kind_bind] at h
  split at h
  · rw [run_bind_eq_ok] at h
    obtain ⟨x, s₁, hx, h⟩ := h
    have took := declaration_reads hg hs hx
    dsimp only at h
    rw [run_spanFrom_bind] at h
    obtain ⟨rfl, rfl⟩ := run_pure_eq_ok.1 h
    exact ⟨took.regular, took.leaves⟩
  · obtain ⟨rfl, rfl⟩ := run_pure_eq_ok.1 h
    exact ⟨trivial, Leaves.refl _⟩
  · rw [run_bind_eq_ok] at h
    obtain ⟨e, s₁, he, h⟩ := h
    obtain ⟨rfl, rfl⟩ := run_pure_eq_ok.1 h
    have took := hg.expression hs he
    exact ⟨took.regular, took.leaves⟩

theorem countingHeader_reads (hg : g.Sound)
    {x : Option Simple × Option Expr × Option Expr} (hs : s.Ended)
    (h : (countingHeader g).run s = .ok (x, s')) (π : Place) :
    (Simple.RegularOption x.1 ∧ Expr.RegularOption x.2.1 ∧ Expr.RegularOption x.2.2) ∧
      Leaves s (jumps (Simple.placedOption π x.1 ++ Expr.placedOption x.2.1 ++
        Expr.placedOption x.2.2)) s' := by
  unfold countingHeader at h
  simp only [optionalBefore_eq] at h
  rw [run_bind_eq_ok] at h
  obtain ⟨i, s₁, hi, h⟩ := h
  obtain ⟨hr₁, hl₁⟩ := initializer_reads hg hs hi π
  rw [run_bind_eq_ok] at h
  obtain ⟨t, s₂, ht, h⟩ := h
  obtain ⟨-, rfl, rfl⟩ := run_expect_eq_ok.1 ht
  have hl₁ := hl₁.trans (Leaves.skip s₁)
  rw [bind_assoc, run_kind_bind, run_bind_eq_ok] at h
  obtain ⟨condition, s₂, hc, h⟩ := h
  obtain ⟨hr₂, hl₂⟩ := optional_reads hg (hl₁.ended hs) hc
  rw [run_bind_eq_ok] at h
  obtain ⟨t, s₃, ht, h⟩ := h
  obtain ⟨-, rfl, rfl⟩ := run_expect_eq_ok.1 ht
  have hl₂ := (hl₁.trans hl₂).trans (Leaves.skip s₂)
  rw [bind_assoc, run_kind_bind, run_bind_eq_ok] at h
  obtain ⟨step, s₃, hst, h⟩ := h
  obtain ⟨hr₃, hl₃⟩ := optional_reads hg (hl₂.ended hs) hst
  obtain ⟨rfl, rfl⟩ := run_pure_eq_ok.1 h
  refine ⟨⟨hr₁, hr₂, hr₃⟩, ?_⟩
  simpa [jumps_append] using hl₂.trans hl₃

theorem countingLoop_reads (hg : g.Sound) {start : Token} {stmt : Stmt} (hs : s.Ended)
    (h : (countingLoop g start).run s = .ok (stmt, s')) (π : Place) :
    Took s stmt.Regular (jumps (stmt.placed π)) s' := by
  unfold countingLoop at h
  rw [run_expect_bind_eq_ok, run_bind_eq_ok] at h
  obtain ⟨-, x, s₁, hx, h⟩ := h
  obtain ⟨⟨hr₁, hr₂, hr₃⟩, hl⟩ := inBrackets_leaves hs.skip hx fun hs h =>
    countingHeader_reads hg hs h π
  dsimp only at h
  rw [run_expect_bind_eq_ok, run_bind_eq_ok] at h
  obtain ⟨-, body, s₂, hb, h⟩ := h
  rw [run_spanFrom_bind] at h
  obtain ⟨rfl, rfl⟩ := run_pure_eq_ok.1 h
  have hl := (Leaves.skip s).trans (hl.trans (Leaves.skip s₁))
  have took := hg.block (hl.ended hs) hb π.loop
  refine (took.after hl).imp (fun h => ⟨hr₁, hr₂, hr₃, h⟩) ?_
  rw [List.nil_append, List.append_nil, ← jumps_append]
  rfl

theorem forLoop_reads (hg : g.Sound) {stmt : Stmt} (hs : s.Ended)
    (h : (forLoop g).run s = .ok (stmt, s')) (π : Place) :
    Took s stmt.Regular (jumps (stmt.placed π)) s' := by
  unfold forLoop at h
  rw [run_expect_bind_eq_ok, run_kind_bind, run_ite] at h
  obtain ⟨-, h⟩ := h
  split at h
  · exact (countingLoop_reads hg hs.skip h π).afterSkip
  · rw [run_bind_eq_ok] at h
    obtain ⟨item, s₁, hi, h⟩ := h
    obtain ⟨-, rfl⟩ := run_expectName_eq_ok.1 hi
    rw [run_bind_eq_ok] at h
    obtain ⟨t, s₁, ht, h⟩ := h
    obtain ⟨-, rfl, rfl⟩ := run_expect_eq_ok.1 ht
    rw [run_bind_eq_ok] at h
    obtain ⟨iterable, s₁, hit, h⟩ := h
    have took₁ := hg.expression hs.skip.skip.skip hit
    rw [run_bind_eq_ok] at h
    obtain ⟨body, s₂, hb, h⟩ := h
    have took₂ := hg.block (took₁.ended hs.skip.skip.skip) hb π.loop
    rw [run_spanFrom_bind] at h
    obtain ⟨rfl, rfl⟩ := run_pure_eq_ok.1 h
    refine (took₁.andThen took₂.leaves).afterSkip.afterSkip.afterSkip.imp
      (fun h => ⟨h, took₂.regular⟩) ?_
    rw [← jumps_append]
    rfl

theorem returning_reads (hg : g.Sound) {stmt : Stmt} (hs : s.Ended)
    (h : (returning g).run s = .ok (stmt, s')) (π : Place) :
    Took s stmt.Regular (jumps (stmt.placed π)) s' := by
  rw [returning_eq, run_expect_bind_eq_ok] at h
  obtain ⟨hk, h⟩ := h
  have hne := hs.ahead_ne_nil hk (by simp)
  rw [bind_assoc, run_atStatementEnd_bind, run_bind_eq_ok] at h
  obtain ⟨value, s₁, hv, h⟩ := h
  obtain ⟨hr, hl⟩ := optional_reads hg hs.skip hv
  rw [run_bind_eq_ok] at h
  obtain ⟨u, s₂, hu, h⟩ := h
  rw [run_spanFrom_bind] at h
  obtain ⟨rfl, rfl⟩ := run_pure_eq_ok.1 h
  have hl := hl.trans (statementEnd_leaves hu)
  rw [List.append_nil] at hl
  exact ⟨hr, (Leaves.skip_start hne).trans hl,
    Nat.lt_of_le_of_lt hl.length_le (length_skip_lt hne)⟩

theorem run_assertionMessage_eq_ok {t : Text} (h : assertionMessage.run s = .ok (t, s')) :
    s.current.content = .string t ∧ s' = s.skip := by
  unfold assertionMessage at h
  rw [run_current_bind] at h
  split at h
  · next hc =>
    rw [run_advance_bind] at h
    obtain ⟨rfl, rfl⟩ := run_pure_eq_ok.1 h
    exact ⟨hc, rfl⟩
  · rw [run_fail] at h
    cases h

theorem message_leaves {t : Option Text} (h : message.run s = .ok (t, s')) : Leaves s [] s' := by
  unfold message at h
  rw [run_accept_bind] at h
  split at h
  · rw [if_pos rfl, run_map_eq_ok] at h
    obtain ⟨t, ht, -⟩ := h
    obtain ⟨-, rfl⟩ := run_assertionMessage_eq_ok ht
    exact (Leaves.skip s).trans (Leaves.skip _)
  · obtain ⟨-, rfl⟩ := run_pure_eq_ok.1 h
    exact Leaves.refl _

theorem assertion_reads (hg : g.Sound) {stmt : Stmt} (hs : s.Ended)
    (h : (assertion g).run s = .ok (stmt, s')) (π : Place) :
    Took s stmt.Regular (jumps (stmt.placed π)) s' := by
  rw [assertion_eq, run_expect_bind_eq_ok, run_bind_eq_ok] at h
  obtain ⟨-, condition, s₁, hc, h⟩ := h
  rw [run_bind_eq_ok] at h
  obtain ⟨text, s₂, ht, h⟩ := h
  rw [run_bind_eq_ok] at h
  obtain ⟨u, s₃, hu, h⟩ := h
  rw [run_spanFrom_bind] at h
  obtain ⟨rfl, rfl⟩ := run_pure_eq_ok.1 h
  have took := (hg.expression hs.skip hc).andThen
    ((message_leaves ht).trans (statementEnd_leaves hu))
  exact took.afterSkip.imp id (List.append_nil _)

theorem word_reads (make : Span → Stmt) (hmake : ∀ span, (make span).Regular)
    (hjump : ∀ span π, jumps ((make span).placed π) = [span.start]) {stmt : Stmt} (hs : s.Ended)
    (hk : s.current.kind ≠ .endOfInput) (h : (word make).run s = .ok (stmt, s')) (π : Place) :
    Took s stmt.Regular (jumps (stmt.placed π)) s' := by
  have hne := hs.ahead_ne_nil rfl hk
  unfold word at h
  rw [run_advance_bind, run_bind_eq_ok] at h
  obtain ⟨u, s₁, hu, h⟩ := h
  obtain ⟨rfl, rfl⟩ := run_pure_eq_ok.1 h
  have hl := statementEnd_leaves hu
  rw [hjump]
  exact ⟨hmake _, (Leaves.skip_start hne).trans hl,
    Nat.lt_of_le_of_lt hl.length_le (length_skip_lt hne)⟩

theorem declarationStatement_reads (hg : g.Sound) {stmt : Stmt} (hs : s.Ended)
    (h : (declarationStatement g).run s = .ok (stmt, s')) (π : Place) :
    Took s stmt.Regular (jumps (stmt.placed π)) s' := by
  unfold declarationStatement at h
  rw [run_bind_eq_ok] at h
  obtain ⟨x, s₁, hx, h⟩ := h
  dsimp only at h
  rw [run_bind_eq_ok] at h
  obtain ⟨u, s₂, hu, h⟩ := h
  rw [run_spanFrom_bind] at h
  obtain ⟨rfl, rfl⟩ := run_pure_eq_ok.1 h
  exact ((declaration_reads hg hs hx).andThen (statementEnd_leaves hu)).imp .inl
    (List.append_nil _)

theorem definitionStatement_reads (hg : g.Sound) {stmt : Stmt} (hs : s.Ended)
    (h : (definitionStatement g).run s = .ok (stmt, s')) (π : Place) :
    Took s stmt.Regular (jumps (stmt.placed π)) s' := by
  unfold definitionStatement at h
  rw [run_bind_eq_ok] at h
  obtain ⟨d, s₁, hd, h⟩ := h
  obtain ⟨rfl, rfl⟩ := run_pure_eq_ok.1 h
  exact (definition_reads hg hs hd).imp .inr rfl

theorem statement_reads (hg : g.Sound) : (statement g).Reads Stmt.Regular Stmt.placed := by
  intro s stmt s' hs h π
  unfold statement at h
  rw [run_kind_bind] at h
  split at h
  · exact declarationStatement_reads hg hs h π
  · exact definitionStatement_reads hg hs h π
  · next hk => exact decorated_reads hg hs hk h π
  · rw [run_bind_eq_ok] at h
    obtain ⟨c, s₁, hc, h⟩ := h
    obtain ⟨rfl, rfl⟩ := run_pure_eq_ok.1 h
    exact hg.conditional hs hc π
  · exact whileLoop_reads hg hs h π
  · exact forLoop_reads hg hs h π
  · exact returning_reads hg hs h π
  · next hk =>
    exact word_reads .breaking (fun _ => trivial) (fun _ _ => rfl) hs
      (by rw [hk]; simp) h π
  · next hk =>
    exact word_reads .continuing (fun _ => trivial) (fun _ _ => rfl) hs
      (by rw [hk]; simp) h π
  · exact assertion_reads hg hs h π
  · unfold expressionStatement at h
    rw [run_bind_eq_ok] at h
    obtain ⟨e, s₁, he, h⟩ := h
    rw [run_bind_eq_ok] at h
    obtain ⟨u, s₂, hu, h⟩ := h
    obtain ⟨rfl, rfl⟩ := run_pure_eq_ok.1 h
    exact ((hg.expression hs he).andThen (statementEnd_leaves hu)).imp .inl (List.append_nil _)

end Rule

namespace Grammar

variable {g : Grammar}

theorem Sound.step (hg : g.Sound) : g.step.Sound where
  expression := Rule.expression_reads hg
  binary := Rule.binary_reads hg
  unary := Rule.unary_reads hg
  suffixed := Rule.suffixed_reads hg
  primary := Rule.primary_reads hg
  body := Rule.body_reads hg
  block := Rule.block_reads hg
  conditional := Rule.conditional_reads hg
  statement := Rule.statement_reads hg

theorem sound_bottom : bottom.Sound := by
  constructor <;> intros <;> intro s a s' hs h <;> cases h

theorem sound_ofDepth (n : Nat) : (ofDepth n).Sound := by
  induction n with
  | zero => exact sound_bottom
  | succ n ih => exact ih.step

end Grammar

/-! ### Programs -/

namespace Rule

variable {g : Grammar} {s s' : ParserState}

theorem run_programTurn_eq_ok {done : List Stmt} {r : Turn (List Stmt)}
    (h : (programTurn g done).run s = .ok (r, s')) :
    (s.current.kind = .endOfInput ∧ r = .done done ∧ s' = s) ∨
      (s.current.kind = .sign .semicolon ∧ r = .again done ∧ s' = s.skip) ∨
      ∃ stmt, g.statement.run s = .ok (stmt, s') ∧ r = .again (stmt :: done) := by
  unfold programTurn at h
  rw [run_kind_bind] at h
  split at h
  · next hk => exact .inl ⟨hk, run_pure_eq_ok.1 h⟩
  · next hk =>
    rw [run_advance_bind] at h
    exact .inr (.inl ⟨hk, run_pure_eq_ok.1 h⟩)
  · rw [run_fail] at h
    cases h
  · rw [run_bind_eq_ok] at h
    obtain ⟨stmt, s₁, hst, h⟩ := h
    obtain ⟨rfl, rfl⟩ := run_pure_eq_ok.1 h
    exact .inr (.inr ⟨stmt, hst, rfl⟩)

theorem programTurn_advances (hg : g.Sound) : Advances (programTurn g) := by
  intro done s r s' hs h
  rcases run_programTurn_eq_ok h with ⟨-, h, -⟩ | ⟨hk, -, rfl⟩ | ⟨stmt, h, -⟩
  · cases h
  · exact ⟨hs.skip, length_skip_lt (hs.ahead_ne_nil hk (by simp))⟩
  · have took := hg.statement hs h .outside
    exact ⟨took.ended hs, took.lt⟩

theorem program_reads (hg : g.Sound) {b : Block} (hs : s.Ended)
    (h : (program g).run s = .ok (b, s')) (π : Place) :
    b.Regular ∧ Leaves s (jumps (b.placed π)) s' := by
  unfold program at h
  rw [run_current_bind, run_bind_eq_ok] at h
  obtain ⟨ss, s₁, hss, h⟩ := h
  rw [run_current_bind] at h
  obtain ⟨rfl, rfl⟩ := run_pure_eq_ok.1 h
  obtain ⟨hr, hl⟩ := statements_reads (programTurn_advances hg) (fun {s s' done r} hs h => by
    rcases run_programTurn_eq_ok h with ⟨-, h⟩ | ⟨-, h⟩ | ⟨stmt, h, hr⟩
    · exact .inl h
    · exact .inr (.inl h)
    · exact .inr (.inr ⟨stmt, fun π => hg.statement hs h π, hr⟩)) hs hss
  exact ⟨hr, hl π⟩

end Rule

/-- Tokens of which the last is the end of the input, and no other. -/
def Token.Ended (tokens : List Token) : Prop :=
  ∃ ts finish, tokens = ts ++ [finish] ∧ finish.content = .endOfInput ∧
    ∀ t ∈ ts, t.content ≠ .endOfInput

namespace Program

theorem initialState?_append (ts : List Token) (finish : Token) :
    initialState? (ts ++ [finish]) = some ⟨ts, finish, finish.span.stop, 0⟩ := by
  simp [initialState?]

theorem parseTokensAt_append (depth : Nat) (ts : List Token) (finish : Token) :
    parseTokensAt depth (ts ++ [finish]) =
      ((Rule.program (Grammar.ofDepth depth)).run ⟨ts, finish, finish.span.stop, 0⟩).map
        Prod.fst := by
  rw [parseTokensAt, initialState?_append]

/-- A program is regular, and its jumps begin at tokens of the source, each at another
one. -/
theorem parseTokensAt_reads {depth : Nat} {tokens : List Token} {b : Block}
    (ht : Token.Ended tokens) (h : parseTokensAt depth tokens = .ok b) (π : Place) :
    b.Regular ∧ (jumps (b.placed π)).Sublist (tokens.map fun t => t.span.start) := by
  obtain ⟨ts, finish, rfl, hf, hts⟩ := ht
  rw [parseTokensAt_append] at h
  cases hrun : (Rule.program (Grammar.ofDepth depth)).run ⟨ts, finish, finish.span.stop, 0⟩ with
  | error c => rw [hrun] at h; cases h
  | ok x =>
    obtain ⟨b', s'⟩ := x
    rw [hrun] at h
    cases h
    obtain ⟨hr, hl⟩ := Rule.program_reads (Grammar.sound_ofDepth depth) ⟨hf, hts⟩ hrun π
    refine ⟨hr, ?_⟩
    rw [List.map_append]
    exact ((List.sublist_append_left _ _).trans hl.starts).trans (List.sublist_append_left _ _)

end Program

end ScriptLang
