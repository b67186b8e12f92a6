import ScriptLang.Proofs.Grammar.Yield

/-!
# Reading what is written

A grammar of depth `d` reads the words of every regular tree whose nesting is at most `d`,
and finds the tree without spans. `Grammar.Retells g d` says so for each rule, with one
level of depth more for each rule between an expression and its operands.

Chains of connectives and of suffixes are loops of one rule. What is left of a chain is
read with the operand found so far, so these two rules go by induction on the operand
(`Rule.binary_chain`, `Rule.suffixed_chain`).
-/

namespace ScriptLang

open Token (Content)
open ScriptLang.Parser

@[simp] theorem Expr.bare_span (e : Expr) : e.bare.span = .nowhere := by
  cases e <;> rfl

/-! ### Operands as they are shown -/

/-- An expression as the words `ts`, for `n` rules, where level `level` is wanted and `cs`
stand behind: as it is, in round brackets, or as a function with nothing behind it that its
body may take. -/
inductive Expr.Shown (level : Nat) (cs : List Content) : Expr → List Content → Nat → Prop
  | plain {e : Expr} : level ≤ e.level → Shown level cs e e.written e.nesting
  | group (e : Expr) :
    Shown level cs e (.sign .leftParen :: (e.written ++ [.sign .rightParen])) (e.nesting + 5)
  | function {e : Expr} {span : Span} {parameters : List Text} {body : Block} :
    e = .function span none parameters body → Apart 0 cs → Shown level cs e e.written e.nesting

namespace Expr

variable {level : Nat} {cs ts : List Content} {e : Expr} {n : Nat}

theorem shown_guarded (level : Nat) (e : Expr) (cs : List Content) :
    e.Shown level cs (guarded level e.level e.written)
      (guardedNesting level e.level e.nesting) := by
  unfold guarded guardedNesting
  split
  · exact .group e
  · next h => exact .plain (Nat.le_of_not_lt h)

theorem Shown.five_le (h : e.Shown level cs ts n) : 5 ≤ n := by
  cases h with
  | plain => exact e.five_le_nesting
  | group => omega
  | function => exact e.five_le_nesting

/-- What is called or subscripted begins with no sign. -/
theorem Shown.opensOperand (h : e.Shown 9 cs ts n) (ds : List Content) :
    (headKind (ts ++ ds)).opensOperand = true := by
  cases h with
  | plain hle =>
    have hopens := e.opensOperand_written hle
    rwa [headKind_append (TokenKind.opensStmt_of_expr (TokenKind.opensExpr_of_operand hopens))]
  | group => rfl
  | function he => rw [he, written]; rfl

end Expr

/-- An expression that joins two operands. -/
inductive Connective.Joins : Connective → Expr → Expr → Expr → Prop
  | operator (span : Span) (op : BinaryOperator) (left right : Expr) :
    Joins (.operator op) left right (.binary span op left right)
  | range (span : Span) (start stop : Expr) : Joins .range start stop (.range span start stop)

namespace Connective.Joins

variable {c : Connective} {left right e : Expr}

theorem level_eq (h : c.Joins left right e) : e.level = c.level := by
  cases h <;> rfl

theorem written_eq (h : c.Joins left right e) :
    e.written = guarded c.level left.level left.written ++
      c.content :: guarded (c.level + 1) right.level right.written := by
  cases h <;> rw [Expr.written]

theorem nesting_eq (h : c.Joins left right e) :
    e.nesting = max (guardedNesting c.level left.level left.nesting)
      (guardedNesting (c.level + 1) right.level right.nesting + 1) := by
  cases h <;> rw [Expr.nesting]

theorem bare_eq (h : c.Joins left right e) : e.bare = c.join left.bare right.bare := by
  cases h <;> simp only [Expr.bare, join, Expr.bare_span] <;> rfl

theorem regular (h : c.Joins left right e) (he : e.Regular) : left.Regular ∧ right.Regular := by
  cases h <;> exact he

theorem sizeOf_left_lt (h : c.Joins left right e) : sizeOf left < sizeOf e := by
  cases h <;> simp <;> omega

end Connective.Joins

theorem Connective.one_le_level (c : Connective) : 1 ≤ c.level := by
  rcases c with op | _
  · cases op <;> decide
  · decide

theorem Expr.level_cases (e : Expr) :
    (∃ span target value, e = .assignment span target value) ∨
      (∃ span name parameters body, e = .function span name parameters body) ∨
        (∃ c left right, Connective.Joins c left right e) ∨ 8 ≤ e.level := by
  cases e with
  | assignment => exact .inl ⟨_, _, _, rfl⟩
  | function => exact .inr (.inl ⟨_, _, _, _, rfl⟩)
  | binary span op left right => exact .inr (.inr (.inl ⟨_, _, _, .operator span op left right⟩))
  | range span start stop => exact .inr (.inr (.inl ⟨_, _, _, .range span start stop⟩))
  | increment _ _ side _ => cases side <;> exact .inr (.inr (.inr (by simp [level])))
  | _ => exact .inr (.inr (.inr (by simp [level])))

theorem Expr.sign_cases {e : Expr} (h : 8 ≤ e.level) :
    (∃ span op operand, e = .unary span op operand) ∨
      (∃ span direction target, e = .increment span direction .before target) ∨ 9 ≤ e.level := by
  cases e with
  | unary => exact .inl ⟨_, _, _, rfl⟩
  | increment _ _ side _ =>
    cases side with
    | before => exact .inr (.inl ⟨_, _, _, rfl⟩)
    | after => exact .inr (.inr (Nat.le_refl 9))
  | binary _ op _ _ => exact absurd (Nat.le_trans h (Connective.operator op).level_le) (by decide)
  | range => exact absurd h (by simp [level, Connective.level])
  | assignment => exact absurd h (by simp [level])
  | function => exact absurd h (by simp [level])
  | _ => exact .inr (.inr (by simp [level]))

/-- An expression that is a target with the words of a call or a subscript behind it. -/
inductive Expr.Suffixes : Expr → List Content → Expr → Prop
  | call (span : Span) (callee : Expr) (arguments : List Expr) :
    Suffixes callee (.sign .leftParen :: (Expr.writtenAll arguments ++ [.sign .rightParen]))
      (.call span callee arguments)
  | index (span : Span) (target position : Expr) :
    Suffixes target (.sign .leftBracket :: (position.written ++ [.sign .rightBracket]))
      (.index span target position)
  | slice (span : Span) (target : Expr) (start stop step : Option Expr) :
    Suffixes target
      (.sign .leftBracket :: (Expr.writtenOption start ++
        .sign .colon :: (Expr.writtenOption stop ++
          (Expr.writtenStep step ++ [.sign .rightBracket]))))
      (.slice span target start stop step)

namespace Expr.Suffixes

variable {target e : Expr} {us : List Content}

theorem written_eq (h : Suffixes target us e) :
    e.written = guarded 9 target.level target.written ++ us := by
  cases h <;> rw [Expr.written]

theorem words (h : Suffixes target us e) : Words us := by
  cases h <;> simp [words_writtenAll, words_written, words_writtenOption, words_writtenStep]

theorem nesting_le (h : Suffixes target us e) :
    guardedNesting 9 target.level target.nesting ≤ e.nesting := by
  cases h <;> rw [Expr.nesting] <;> exact Nat.le_max_left _ _

theorem regular (h : Suffixes target us e) (he : e.Regular) : target.Regular := by
  cases h <;> exact he.1

theorem sizeOf_lt (h : Suffixes target us e) : sizeOf target < sizeOf e := by
  cases h <;> simp <;> omega

end Expr.Suffixes

theorem Expr.suffix_cases {e : Expr} (h : 9 ≤ e.level) :
    (∃ target us, Suffixes target us e) ∨
      (∃ span direction target, e = .increment span direction .after target) ∨
        10 ≤ e.level := by
  cases e with
  | call => exact .inl ⟨_, _, .call _ _ _⟩
  | index => exact .inl ⟨_, _, .index _ _ _⟩
  | slice => exact .inl ⟨_, _, .slice _ _ _ _ _⟩
  | increment _ _ side _ =>
    cases side with
    | before => exact absurd h (by simp [level])
    | after => exact .inr (.inl ⟨_, _, _, rfl⟩)
  | binary _ op _ _ => exact absurd (Nat.le_trans h (Connective.operator op).level_le) (by decide)
  | range => exact absurd h (by simp [level, Connective.level])
  | unary => exact absurd h (by simp [level])
  | assignment => exact absurd h (by simp [level])
  | function => exact absurd h (by simp [level])
  | _ => exact .inr (.inr (by simp [level]))

/-! ### The rules of a grammar -/

/-- A grammar reads what is written of regular trees of some depth. A statement may leave
the semicolon behind it. -/
structure Grammar.Retells (g : Grammar) (d : Nat) : Prop where
  expression : ∀ {e : Expr} {cs : List Content}, e.Regular → e.nesting ≤ d → Apart 0 cs →
    g.expression.Yields (e.written ++ cs) e.bare cs
  binary : ∀ {level n : Nat} {e : Expr} {ts cs : List Content}, 1 ≤ level → level ≤ 8 →
    e.Regular → e.Shown level cs ts n → n ≤ d + 1 → Apart level cs →
    (g.binary level).Yields (ts ++ cs) e.bare cs
  unary : ∀ {n : Nat} {e : Expr} {ts cs : List Content}, e.Regular → e.Shown 8 cs ts n →
    n ≤ d + 2 → Apart 9 cs → g.unary.Yields (ts ++ cs) e.bare cs
  suffixed : ∀ {n : Nat} {e : Expr} {ts cs : List Content}, e.Regular → e.Shown 9 cs ts n →
    n ≤ d + 3 → Apart 9 cs → g.suffixed.Yields (ts ++ cs) e.bare cs
  primary : ∀ {n : Nat} {e : Expr} {ts cs : List Content}, e.Regular → e.Shown 10 cs ts n →
    n ≤ d + 4 → Words cs → g.primary.Yields (ts ++ cs) e.bare cs
  body : ∀ {b : Block} {cs : List Content}, b.Regular → b.bodyNesting ≤ d → Apart 0 cs →
    g.body.Yields (b.writtenBody ++ cs) b.bare cs
  block : ∀ {b : Block} {cs : List Content}, b.Regular → b.nesting ≤ d → Words cs →
    g.block.Yields (b.written ++ cs) b.bare cs
  conditional : ∀ {c : Conditional} {cs : List Content}, c.Regular → c.nesting ≤ d → Words cs →
    headKind cs ≠ .keyword .elseWord → g.conditional.Yields (c.written ++ cs) c.bare cs
  statement : ∀ {s : Stmt} {cs : List Content}, s.Regular → s.nesting ≤ d → Words cs →
    ∃ rest, (rest = cs ∨ rest = .sign .semicolon :: cs) ∧
      g.statement.Yields (s.written ++ .sign .semicolon :: cs) s.bare rest

/-- An expression does not begin as what else may stand in its place. -/
theorem Expr.headKind_ne (e : Expr) {k : TokenKind} (hk : k.opensExpr = false)
    (cs : List Content) : headKind (e.written ++ cs) ≠ k := by
  have hopens := e.opensExpr_written
  rw [headKind_append (TokenKind.opensStmt_of_expr hopens)]
  intro h
  rw [h, hk] at hopens
  cases hopens

theorem apart_writtenMore (es : List Expr) {cs : List Content} (hcs : Words cs) :
    Apart 0 (Expr.writtenMore es ++ .sign .rightParen :: cs) := by
  refine .of_none (by simp [Expr.words_writtenMore, hcs]) ?_
  cases es <;> rfl

namespace Rule

variable {g : Grammar} {d n level : Nat} {a r : Expr} {cs ds ts : List Content}

/-! ### Expressions and connectives -/

theorem expression_of_binary (h : (g.binary 1).Yields (ts ++ cs) a cs) (hts : ts ≠ [])
    (hcs : Apart 0 cs) : (expression g).Yields (ts ++ cs) a cs := by
  obtain ⟨c, ts, rfl⟩ := List.exists_cons_of_ne_nil hts
  refine Yields.current_bind (h.bind (Yields.kind_bind (Yields.onSameLine_bind ?_)))
  rw [decide_eq_false hcs.ne_assign]
  exact Yields.ite_neg Bool.false_ne_true (Yields.pure a cs)

theorem expression_retells (hg : g.Retells d) {e : Expr} (he : e.Regular)
    (hn : e.nesting ≤ d + 1) (hcs : Apart 0 cs) :
    (expression g).Yields (e.written ++ cs) e.bare cs := by
  have hoperand (h : e.Shown 1 cs e.written e.nesting) :
      (expression g).Yields (e.written ++ cs) e.bare cs :=
    expression_of_binary (hg.binary (by decide) (by decide) he h hn (hcs.mono (by decide)))
      e.written_ne_nil hcs
  rcases e.level_cases with ⟨span, target, value, rfl⟩ | ⟨span, name, parameters, body, rfl⟩ |
    ⟨c, left, right, h⟩ | h
  · have hvalue : value.nesting ≤ d := by
      rw [Expr.nesting] at hn
      omega
    have hleast := value.five_le_nesting
    have happart : Apart 1 (.sign .assign :: (value.written ++ cs)) :=
      ⟨by simp [value.words_written, hcs.words], fun n hn => by cases hn; decide⟩
    have hname := hg.binary (e := .identifier target) (by decide) (by decide) trivial
      (.plain (by simp [Expr.level])) (by rw [Expr.nesting]; omega) happart
    rw [Expr.written, Expr.bare]
    refine Yields.current_bind (hname.bind (Yields.kind_bind (Yields.onSameLine_bind ?_)))
    refine Yields.advance_bind ((hg.expression (e := value) he hvalue hcs).bind ?_)
    exact Yields.pure_of_eq (by rw [Expr.bare_span]; rfl) cs
  · have hname : name = none := he.1
    exact hoperand (.function (by rw [hname]) hcs)
  · exact hoperand (.plain (h.level_eq ▸ c.one_le_level))
  · exact hoperand (.plain (Nat.le_trans (by decide) h))

/-- Behind its left operand, a connective is read with its right one. -/
theorem binaryTurn_retells (hg : g.Retells d) {c : Connective} (left : Expr) {right : Expr}
    (hlevel : level ≤ c.level) (hright : right.Regular)
    (hn : guardedNesting (c.level + 1) right.level right.nesting ≤ d + 1)
    (hcs : Apart (c.level + 1) cs) :
    (binaryTurn g level left).Yields
      (c.content :: (guarded (c.level + 1) right.level right.written ++ cs))
      (.again (c.join left right.bare)) cs := by
  have hoperand := hg.binary (by omega) (Nat.succ_le_succ c.level_le) hright
    (Expr.shown_guarded (c.level + 1) right cs) hn hcs
  refine Yields.onSameLine_bind (Yields.kind_bind ?_)
  rw [headKind_cons, Connective.ofKind?_content]
  refine Yields.ite_neg (Nat.not_lt.2 hlevel) (Yields.advance_bind (hoperand.bind ?_))
  exact Yields.pure _ cs

theorem binaryTurn_done (hcs : Apart level cs) (left : Expr) :
    (binaryTurn g level left).Yields cs (.done left) cs := by
  refine Yields.onSameLine_bind (Yields.kind_bind ?_)
  cases hc : Connective.ofKind? (headKind cs) with
  | none => exact Yields.pure _ cs
  | some c => exact Yields.ite_pos (hcs.level_lt hc) (Yields.pure _ cs)

/-- An operand of a level that is wanted or above, in front of the rest of a chain. -/
theorem binary_chain (hs : g.Sound) (hg : g.Retells d) {level : Nat} (hone : 1 ≤ level)
    {own n : Nat} (e : Expr) {r : Expr} {ts cs ds : List Content} (hlevel : level ≤ own)
    (hown : own ≤ 8) (he : e.Regular) (h : e.Shown own cs ts n) (hn : n ≤ d + 2)
    (hcs : Apart (own + 1) cs) (hloop : (loop (binaryTurn g level) e.bare).Yields cs r ds) :
    (Rule.binary g level).Yields (ts ++ cs) r ds := by
  have hoperand (h : e.Shown 8 cs ts n) : (Rule.binary g level).Yields (ts ++ cs) r ds :=
    (hg.unary he h hn (hcs.mono (by omega))).bind hloop
  cases h with
  | group => exact hoperand (.group e)
  | function he hcs => exact hoperand (.function he hcs)
  | plain hle =>
    rcases e.level_cases with ⟨span, target, value, rfl⟩ | ⟨span, name, parameters, body, rfl⟩ |
      ⟨c, left, right, h⟩ | h
    · rw [Expr.level] at hle; omega
    · rw [Expr.level] at hle; omega
    · obtain ⟨hl, hr⟩ := h.regular he
      have hsize := h.sizeOf_left_lt
      rw [h.level_eq] at hle
      rw [h.nesting_eq] at hn
      rw [h.bare_eq] at hloop
      rw [h.written_eq, List.append_assoc, List.cons_append]
      have hturn := binaryTurn_retells hg left.bare (Nat.le_trans hlevel hle) hr (by omega)
        (hcs.mono (Nat.succ_le_succ hle))
      have hwords :
          Words (c.content :: (guarded (c.level + 1) right.level right.written ++ cs)) := by
        simp [words_guarded right.words_written, hcs.words]
      refine binary_chain hs hg hone left (Nat.le_trans hlevel hle)
        (Nat.le_trans c.level_le (by decide)) hl (Expr.shown_guarded c.level left _) (by omega)
        (Apart.connective c (words_cons.1 hwords).2 (Nat.lt_succ_self _)) ?_
      exact Yields.loop_again (binaryTurn_advances hs level) hwords hturn hloop
    · exact hoperand (.plain h)
termination_by sizeOf e

theorem binary_retells (hs : g.Sound) (hg : g.Retells d) {e : Expr} (hone : 1 ≤ level)
    (hlevel : level ≤ 8) (he : e.Regular) (h : e.Shown level cs ts n) (hn : n ≤ d + 2)
    (hcs : Apart level cs) : (Rule.binary g level).Yields (ts ++ cs) e.bare cs :=
  binary_chain hs hg hone e (Nat.le_refl level) hlevel he h hn (hcs.mono (Nat.le_succ level))
    (Yields.loop_done (binaryTurn_advances hs level) hcs.words (binaryTurn_done hcs e.bare))

/-! ### Signs in front of an operand -/

theorem unary_of_suffixed (h : (headKind cs).opensOperand = true)
    (h' : g.suffixed.Yields cs a ds) : (unary g).Yields cs a ds := by
  apply Yields.kind_bind
  generalize headKind cs = k at h
  split
  case h_5 => exact h'
  all_goals cases h

theorem unary_retells (hg : g.Retells d) {e : Expr} (he : e.Regular) (h : e.Shown 8 cs ts n)
    (hn : n ≤ d + 3) (hcs : Apart 9 cs) : (unary g).Yields (ts ++ cs) e.bare cs := by
  have hoperand (h : e.Shown 9 cs ts n) : (unary g).Yields (ts ++ cs) e.bare cs :=
    unary_of_suffixed (h.opensOperand cs) (hg.suffixed he h hn hcs)
  cases h with
  | group => exact hoperand (.group e)
  | function he hcs => exact hoperand (.function he hcs)
  | plain hle =>
    rcases e.sign_cases hle with ⟨span, op, operand, rfl⟩ | ⟨span, direction, target, rfl⟩ | h
    · rw [Expr.nesting] at hn
      have hsign := hg.unary (e := operand) he (Expr.shown_guarded 8 operand cs) (by omega) hcs
      rw [Expr.written, Expr.bare, List.cons_append]
      apply Yields.kind_bind
      cases op with
      | not => exact Yields.advance_bind (hsign.bind (Yields.pure_of_eq (by simp; rfl) cs))
      | negate => exact Yields.advance_bind (hsign.bind (Yields.pure_of_eq (by simp; rfl) cs))
    · rw [Expr.nesting] at hn
      have hname := hg.unary (e := .identifier target) (n := 5) trivial
        (.plain (by simp [Expr.level])) (by omega) hcs
      rw [Expr.written, Expr.bare]
      apply Yields.kind_bind
      cases direction with
      | up => exact Yields.advance_bind (hname.bind (Yields.pure _ cs))
      | down => exact Yields.advance_bind (hname.bind (Yields.pure _ cs))
    · exact hoperand (.plain h)

/-! ### Calls and subscripts -/

theorem argumentLoop_retells (hs : g.Sound) (hg : g.Retells d) (hcs : Words cs) {es : List Expr}
    (he : Expr.RegularAll es) (hn : Expr.nestingAll es ≤ d) (done : List Expr) :
    (loop (argumentTurn g) done).Yields (Expr.writtenMore es ++ .sign .rightParen :: cs)
      ((Expr.bareAll es).reverse ++ done) (.sign .rightParen :: cs) := by
  induction es generalizing done with
  | nil =>
    apply Yields.loop_done (argumentTurn_advances hs) (by simp [Expr.writtenMore, hcs])
    exact Yields.accept_of_ne nofun (Yields.pure _ _)
  | cons e es ih =>
    obtain ⟨hfirst, hmore⟩ := he
    rw [Expr.nestingAll] at hn
    have happart := apart_writtenMore es hcs
    rw [Expr.writtenMore, Expr.bareAll, List.cons_append, List.append_assoc, List.reverse_cons,
      List.append_assoc]
    refine Yields.loop_again (argumentTurn_advances hs)
      (by simp [e.words_written, happart.words]) ?_ (ih hmore (by omega) _)
    refine Yields.accept_of_eq rfl (Yields.kind_bind ?_)
    apply Yields.ite_neg (e.headKind_ne (by decide) _)
    exact (hg.expression hfirst (by omega) happart).bind (Yields.pure _ _)

theorem arguments_retells (hs : g.Sound) (hg : g.Retells d) (hcs : Words cs) {es : List Expr}
    (he : Expr.RegularAll es) (hn : Expr.nestingAll es ≤ d) :
    (arguments g).Yields (Expr.writtenAll es ++ .sign .rightParen :: cs) (Expr.bareAll es)
      (.sign .rightParen :: cs) := by
  apply Yields.kind_bind
  cases es with
  | nil => exact Yields.pure _ _
  | cons e es =>
    obtain ⟨hfirst, hmore⟩ := he
    rw [Expr.nestingAll] at hn
    have hloop := argumentLoop_retells hs hg hcs hmore (by omega) [e.bare]
    rw [Expr.writtenAll, Expr.bareAll, List.append_assoc]
    apply Yields.ite_neg (e.headKind_ne (by decide) _)
    refine (hg.expression hfirst (by omega) (apart_writtenMore es hcs)).bind (hloop.bind ?_)
    exact Yields.pure_of_eq (by simp) _

theorem call_retells (hs : g.Sound) (hg : g.Retells d) (hcs : Words cs) (callee : Expr)
    {es : List Expr} (he : Expr.RegularAll es) (hn : Expr.nestingAll es ≤ d) :
    (call g callee.bare).Yields
      (.sign .leftParen :: (Expr.writtenAll es ++ .sign .rightParen :: cs))
      (.call .nowhere callee.bare (Expr.bareAll es)) cs := by
  refine Yields.expect_sign ((arguments_retells hs hg hcs he hn).inBrackets.bind ?_)
  apply Yields.expect_sign
  rw [Expr.bare_span]
  exact Yields.spanFrom_bind (Yields.pure _ cs)

theorem optional_retells (hg : g.Retells d) {o : Option Expr} (ho : Expr.RegularOption o)
    (hn : Expr.nestingOption o ≤ d) (hcs : Apart 0 cs) {leftOut : Bool}
    (hleft : leftOut = o.isNone) :
    (optional g leftOut).Yields (Expr.writtenOption o ++ cs) (Expr.bareOption o) cs := by
  subst hleft
  cases o with
  | none => exact Yields.pure _ cs
  | some e => exact (hg.expression ho hn hcs).map some

theorem stride_retells (hg : g.Retells d) (hcs : Words cs) {o : Option Expr}
    (ho : Expr.RegularOption o) (hn : Expr.nestingOption o ≤ d) :
    (stride g).Yields (Expr.writtenStep o ++ .sign .rightBracket :: cs) (Expr.bareOption o)
      (.sign .rightBracket :: cs) := by
  cases o with
  | none => exact Yields.accept_of_ne nofun (Yields.pure _ _)
  | some e =>
    refine Yields.accept_of_eq rfl (Yields.kind_bind ?_)
    apply optional_retells (o := some e) hg ho hn (.sign rfl hcs)
    exact decide_eq_false (e.headKind_ne (by decide) _)

theorem stretch_retells (hg : g.Retells d) (hcs : Words cs) (start : Option Expr)
    {stop step : Option Expr} (hstop : Expr.RegularOption stop) (hstep : Expr.RegularOption step)
    (hn : Expr.nestingOption stop ≤ d) (hn' : Expr.nestingOption step ≤ d) :
    (stretch g start).Yields
      (Expr.writtenOption stop ++ (Expr.writtenStep step ++ .sign .rightBracket :: cs))
      (.stretch start (Expr.bareOption stop) (Expr.bareOption step))
      (.sign .rightBracket :: cs) := by
  have happart : Apart 0 (Expr.writtenStep step ++ .sign .rightBracket :: cs) := by
    refine .of_none (by simp [Expr.words_writtenStep, hcs]) ?_
    cases step <;> rfl
  rw [stretch_eq]
  refine Yields.kind_bind ((optional_retells hg hstop hn happart ?_).bind
    ((stride_retells hg hcs hstep hn').bind (Yields.pure _ _)))
  cases stop with
  | none => cases step <;> rfl
  | some e =>
    rw [Expr.writtenOption, decide_eq_false (e.headKind_ne (by decide) _),
      decide_eq_false (e.headKind_ne (by decide) _)]
    rfl

theorem index_retells (hg : g.Retells d) (hcs : Words cs) (target : Expr) {position : Expr}
    (hp : position.Regular) (hn : position.nesting ≤ d) :
    (subscripted g target.bare).Yields
      (.sign .leftBracket :: (position.written ++ .sign .rightBracket :: cs))
      (.index .nowhere target.bare position.bare) cs := by
  have hinside : (subscript g).Yields (position.written ++ .sign .rightBracket :: cs)
      (.position position.bare) (.sign .rightBracket :: cs) := by
    apply Yields.accept_of_ne (position.headKind_ne (by decide) _)
    refine (hg.expression hp hn (.sign rfl hcs)).bind ?_
    exact Yields.accept_of_ne nofun (Yields.pure _ _)
  refine Yields.expect_sign (hinside.inBrackets.bind ?_)
  dsimp only
  apply Yields.expect_sign
  rw [Expr.bare_span]
  exact Yields.spanFrom_bind (Yields.pure _ cs)

theorem slice_retells (hg : g.Retells d) (hcs : Words cs) (target : Expr)
    {start stop step : Option Expr} (hstart : Expr.RegularOption start)
    (hstop : Expr.RegularOption stop) (hstep : Expr.RegularOption step)
    (hn : Expr.nestingOption start ≤ d) (hn' : Expr.nestingOption stop ≤ d)
    (hn'' : Expr.nestingOption step ≤ d) :
    (subscripted g target.bare).Yields
      (.sign .leftBracket :: (Expr.writtenOption start ++ .sign .colon ::
        (Expr.writtenOption stop ++ (Expr.writtenStep step ++ .sign .rightBracket :: cs))))
      (.slice .nowhere target.bare (Expr.bareOption start) (Expr.bareOption stop)
        (Expr.bareOption step)) cs := by
  have hstretch (o : Option Expr) := stretch_retells hg hcs o hstop hstep hn' hn''
  have hwords : Words (Expr.writtenOption stop ++
      (Expr.writtenStep step ++ .sign .rightBracket :: cs)) := by
    simp [Expr.words_writtenOption, Expr.words_writtenStep, hcs]
  have hinside : (subscript g).Yields
      (Expr.writtenOption start ++ .sign .colon ::
        (Expr.writtenOption stop ++ (Expr.writtenStep step ++ .sign .rightBracket :: cs)))
      (.stretch (Expr.bareOption start) (Expr.bareOption stop) (Expr.bareOption step))
      (.sign .rightBracket :: cs) := by
    cases start with
    | none => exact Yields.accept_of_eq rfl (hstretch none)
    | some e =>
      apply Yields.accept_of_ne (e.headKind_ne (by decide) _)
      refine (hg.expression hstart hn (.sign rfl hwords)).bind ?_
      exact Yields.accept_of_eq rfl (hstretch (some e.bare))
  refine Yields.expect_sign (hinside.inBrackets.bind ?_)
  dsimp only
  apply Yields.expect_sign
  rw [Expr.bare_span]
  exact Yields.spanFrom_bind (Yields.pure _ cs)

/-! ### Chains of suffixes -/

theorem suffixTurn_done (hcs : Apart 9 cs) (operand : Expr) :
    (suffixTurn g operand).Yields cs (.done operand) cs := by
  have hbinding := hcs.head
  refine Yields.onSameLine_bind (Yields.kind_bind ?_)
  generalize headKind cs = k at hbinding
  split
  case h_5 => exact Yields.pure _ cs
  all_goals exact absurd (hbinding 9 rfl) (by decide)

/-- Behind its target, a call or a subscript is read. -/
theorem suffixTurn_retells (hs : g.Sound) (hg : g.Retells d) {target e : Expr} {us : List Content}
    (h : Expr.Suffixes target us e) (he : e.Regular) (hn : e.nesting ≤ d + 4) (hcs : Words cs) :
    (suffixTurn g target.bare).Yields (us ++ cs) (.again e.bare) cs := by
  cases h with
  | call span _ arguments =>
    rw [Expr.nesting] at hn
    have hcall := call_retells hs hg hcs target he.2 (by omega)
    rw [Expr.bare, List.cons_append, List.append_assoc]
    exact Yields.onSameLine_bind (Yields.kind_bind (hcall.bind (Yields.pure _ cs)))
  | index span _ position =>
    rw [Expr.nesting] at hn
    have hindex := index_retells hg hcs target he.2 (by omega)
    rw [Expr.bare, List.cons_append, List.append_assoc]
    exact Yields.onSameLine_bind (Yields.kind_bind (hindex.bind (Yields.pure _ cs)))
  | slice span _ start stop step =>
    obtain ⟨-, hstart, hstop, hstep⟩ := he
    rw [Expr.nesting] at hn
    have hslice := slice_retells hg hcs target hstart hstop hstep (by omega) (by omega) (by omega)
    simp only [Expr.bare, List.cons_append, List.append_assoc, List.nil_append]
    exact Yields.onSameLine_bind (Yields.kind_bind (hslice.bind (Yields.pure _ cs)))

/-- An operand in front of the rest of a chain of suffixes. -/
theorem suffixed_chain (hs : g.Sound) (hg : g.Retells d) {n : Nat} (e : Expr) {r : Expr}
    {ts cs ds : List Content} (he : e.Regular) (h : e.Shown 9 cs ts n) (hn : n ≤ d + 4)
    (hcs : Words cs) (hloop : (loop (suffixTurn g) e.bare).Yields cs r ds) :
    (suffixed g).Yields (ts ++ cs) r ds := by
  have hoperand (h : e.Shown 10 cs ts n) : (suffixed g).Yields (ts ++ cs) r ds :=
    (hg.primary he h hn hcs).bind hloop
  cases h with
  | group => exact hoperand (.group e)
  | function he hcs => exact hoperand (.function he hcs)
  | plain hle =>
    rcases e.suffix_cases hle with ⟨target, us, h⟩ | ⟨span, direction, target, rfl⟩ | h
    · have hsize := h.sizeOf_lt
      have hturn := suffixTurn_retells hs hg h he hn hcs
      have hwords := words_append.2 ⟨h.words, hcs⟩
      rw [h.written_eq, List.append_assoc]
      exact suffixed_chain hs hg target (h.regular he) (Expr.shown_guarded 9 target _)
        (Nat.le_trans h.nesting_le hn) hwords
        (Yields.loop_again (suffixTurn_advances hs) hwords hturn hloop)
    · rw [Expr.nesting] at hn
      have hwords : Words (direction.content :: cs) := by simp [hcs]
      have hname := hg.primary (e := .identifier target) trivial (.plain (by simp [Expr.level]))
        (by rw [Expr.nesting]; omega) hwords
      rw [Expr.written]
      refine hname.bind (Yields.loop_again (suffixTurn_advances hs) hwords ?_ hloop)
      refine Yields.onSameLine_bind (Yields.kind_bind ?_)
      cases direction <;> exact Yields.advance_bind (Yields.pure _ cs)
    · exact hoperand (.plain h)
termination_by sizeOf e

theorem suffixed_retells (hs : g.Sound) (hg : g.Retells d) {e : Expr} (he : e.Regular)
    (h : e.Shown 9 cs ts n) (hn : n ≤ d + 4) (hcs : Apart 9 cs) :
    (suffixed g).Yields (ts ++ cs) e.bare cs :=
  suffixed_chain hs hg e he h hn hcs.words
    (Yields.loop_done (suffixTurn_advances hs) hcs.words (suffixTurn_done hcs e.bare))

/-! ### Functions and operands -/

theorem parameterLoop_retells {x : Sign} (hx : x ≠ .comma) (hcs : Words cs)
    (names done : List Text) :
    (loop (parameterTurn (.sign x)) done).Yields (writtenNamesMore names ++ .sign x :: cs)
      (names.reverse ++ done) (.sign x :: cs) := by
  induction names generalizing done with
  | nil =>
    apply Yields.loop_done (parameterTurn_advances _) (by simp [writtenNamesMore, hcs])
    exact Yields.accept_of_ne (fun h => hx (TokenKind.sign.inj h)) (Yields.pure _ _)
  | cons name names ih =>
    rw [writtenNamesMore, List.reverse_cons, List.append_assoc]
    refine Yields.loop_again (parameterTurn_advances _)
      (by simp [words_writtenNamesMore, hcs]) ?_ (ih (name :: done))
    refine Yields.accept_of_eq rfl (Yields.kind_bind (Yields.ite_neg (by simp [Content.kind]) ?_))
    exact Yields.expectName_bind .parameterName (Yields.pure _ _)

theorem parameters_retells {x : Sign} (hx : x ≠ .comma) (hcs : Words cs) (names : List Text) :
    (parameters (.sign x)).Yields (writtenNames names ++ .sign x :: cs) names
      (.sign x :: cs) := by
  apply Yields.kind_bind
  cases names with
  | nil => exact Yields.ite_pos rfl (Yields.pure _ _)
  | cons name names =>
    have hloop := parameterLoop_retells hx hcs names [name]
    refine Yields.ite_neg nofun ?_
    exact Yields.expectName_bind .parameterName (hloop.bind (Yields.pure_of_eq (by simp) _))

theorem body_retells (hg : g.Retells d) {b : Block} (hb : b.Regular) (hn : b.bodyNesting ≤ d + 1)
    (hcs : Apart 0 cs) : (body g).Yields (b.writtenBody ++ cs) b.bare cs := by
  obtain ⟨span, statements⟩ := b
  apply Yields.kind_bind
  rcases Block.writtenBody_eq span statements with ⟨place, value, rfl⟩ | ⟨h, hnesting⟩
  · have hvalue : value.Regular := hb.1
    rw [Block.bodyNesting] at hn
    have hread := (hg.expression hvalue (by omega) hcs).outsideBrackets
    rw [Block.writtenBody]
    refine Yields.ite_pos rfl (Yields.advance_bind (hread.bind ?_))
    rw [Expr.bare_span]
    exact Yields.pure _ cs
  · rw [h]
    refine Yields.ite_neg ?_ (hg.block hb (by omega) hcs.words)
    rw [Block.written]
    nofun

theorem lambda_retells (hg : g.Retells d) {b : Block} (hb : b.Regular) (hn : b.bodyNesting ≤ d)
    (hcs : Apart 0 cs) (names : List Text) :
    (lambda g).Yields
      (.sign .pipe :: (writtenNames names ++ .sign .pipe :: (b.writtenBody ++ cs)))
      (.function .nowhere none names b.bare) cs := by
  apply Yields.expect_sign
  refine (parameters_retells (x := .pipe) nofun
    (words_append.2 ⟨b.words_writtenBody, hcs.words⟩) names).bind ?_
  refine Yields.expect_sign ((hg.body hb hn hcs).bind ?_)
  exact Yields.spanFrom_bind (Yields.pure _ cs)

theorem group_retells (hg : g.Retells d) {e : Expr} (he : e.Regular) (hn : e.nesting ≤ d)
    (hcs : Words cs) :
    (group g).Yields (.sign .leftParen :: (e.written ++ .sign .rightParen :: cs)) e.bare cs := by
  have hinside := hg.expression he hn (.sign (x := .rightParen) rfl hcs)
  exact Yields.advance_bind (hinside.inBrackets.bind (Yields.expect_sign (Yields.pure _ cs)))

theorem primary_retells (hg : g.Retells d) {e : Expr} (he : e.Regular) (h : e.Shown 10 cs ts n)
    (hn : n ≤ d + 5) (hcs : Words cs) : (primary g).Yields (ts ++ cs) e.bare cs := by
  cases h with
  | group =>
    rw [List.cons_append, List.append_assoc]
    exact Yields.current_bind (group_retells hg he (by omega) hcs)
  | @function span parameters body heq hcs =>
    subst heq
    rw [Expr.nesting] at hn
    rw [Expr.written, Expr.bare, List.cons_append, List.append_assoc]
    exact Yields.current_bind (lambda_retells hg he.2 (by omega) hcs parameters)
  | plain hle =>
    cases e with
    | literal span value =>
      rw [Expr.written, Expr.bare]
      rcases value with _ | _ | _ | b
      case boolean => cases b <;> exact Yields.current_bind (Yields.advance_seq (Yields.pure _ cs))
      all_goals exact Yields.current_bind (Yields.advance_seq (Yields.pure _ cs))
    | nothing =>
      rw [Expr.written, Expr.bare]
      exact Yields.current_bind (Yields.advance_seq (Yields.pure _ cs))
    | identifier name =>
      rw [Expr.written, Expr.bare]
      exact Yields.current_bind (Yields.advance_seq (Yields.pure _ cs))
    | binary _ op => exact absurd (Nat.le_trans hle (Connective.operator op).level_le) (by decide)
    | increment _ _ side => cases side <;> exact absurd hle (by simp [Expr.level])
    | range => exact absurd hle (by simp [Expr.level, Connective.level])
    | _ => exact absurd hle (by simp [Expr.level])

end Rule

end ScriptLang
