import ScriptLang.Proofs.Grammar.Drawn
import ScriptLang.Proofs.Grammar.Reads
import ScriptLang.Proofs.Tree.Nested

/-!
# Every token stands at one depth

A mark is a depth with the place where a token begins. The parts of a tree leave marks where
they begin, each with its own depth, and a rule of the grammar leaves those of the tree that it
yields at tokens that it reads. So no token is marked with two depths: parts that begin at one
token are as deep as each other (`Program.parseTokensAt_marks`).

`Parser.Marks P l p m` says that `p` turns the marks `l` into marks `m`, when the token ahead
satisfies `P`; the combinators of parsers have one rule each. The marks made before a rule are
kept by it, so what it says of its own marks can be read off the list.
-/

namespace ScriptLang

/-- A depth and the place of a token. -/
abbrev Mark := Nat × Position

/-- Where a part stands. -/
def Part.span : Part → Span
  | .expression e => e.span
  | .statement s => s.span

/-- Where parts begin, with their depths. -/
def marks (l : List (Nat × Part)) : List Mark := l.map fun x => (x.1, x.2.span.start)

@[simp, grind =] theorem marks_nil : marks [] = [] := rfl

@[simp, grind =] theorem marks_cons (x : Nat × Part) (l : List (Nat × Part)) :
    marks (x :: l) = (x.1, x.2.span.start) :: marks l := rfl

@[simp, grind =] theorem marks_append (l m : List (Nat × Part)) :
    marks (l ++ m) = marks l ++ marks m :=
  List.map_append

theorem mem_marks {x : Nat × Part} {l : List (Nat × Part)} (h : x ∈ l) :
    (x.1, x.2.span.start) ∈ marks l :=
  List.mem_map_of_mem h

/-- A part that begins at a token with a mark adds none to those of the parts in it. -/
theorem marks_node {n : Nat} {p : Part} {parts : List (Nat × Part)} {l m : List Mark}
    (start : Position) (hp : p.span.start = start) (hstart : (n, start) ∈ m)
    (hparts : marks parts ++ l ⊆ m) : marks ((n, p) :: parts) ++ l ⊆ m := by
  subst hp
  exact List.cons_subset.2 ⟨hstart, hparts⟩

theorem marks_append_subset {l l' : List (Nat × Part)} {m : List Mark} (h : l ⊆ l') :
    marks l ++ m ⊆ marks l' ++ m :=
  List.append_subset.2
    ⟨List.Subset.trans (List.map_subset _ h) (List.subset_append_left _ _),
      List.subset_append_right _ _⟩

@[simp] theorem Expr.mem_marks_nested (n : Nat) (e : Expr) :
    (n, e.span.start) ∈ marks (e.nested n) :=
  mem_marks (e.mem_nested n)

/-- Marks at tokens that have been read, no token with two depths. -/
structure ParserState.Marked (l : List Mark) (s : ParserState) : Prop where
  ended : s.Ended
  nodup : s.starts.Nodup
  behind : ∀ x ∈ l, x.2 ∉ s.starts
  once : ∀ x ∈ l, ∀ y ∈ l, x.2 = y.2 → x.1 = y.1

namespace ParserState.Marked

variable {l m : List Mark} {s : ParserState}

theorem mono (h : s.Marked l) (hm : m ⊆ l) : s.Marked m :=
  ⟨h.ended, h.nodup, fun x hx => h.behind x (hm hx), fun x hx y hy => h.once x (hm hx) y (hm hy)⟩

theorem withBrackets (h : s.Marked l) (n : Nat) :
    ({ s with brackets := n } : ParserState).Marked l :=
  ⟨h.ended.withBrackets n, h.nodup, h.behind, h.once⟩

theorem skip (h : s.Marked l) : s.skip.Marked l := by
  have hsub : s.skip.starts.Sublist s.starts := (Leaves.skip s).starts
  exact ⟨h.ended.skip, h.nodup.sublist hsub, fun x hx hmem => h.behind x hx (hsub.subset hmem),
    h.once⟩

/-- A token that is read has no mark yet. -/
theorem skip_mark (h : s.Marked l) (hne : s.ahead ≠ []) (n : Nat) :
    s.skip.Marked ((n, s.current.span.start) :: l) := by
  have hskip := h.skip
  have hstarts : s.starts = s.current.span.start :: s.skip.starts := by
    rw [starts, starts, ahead_eq_cons hne]
    rfl
  have hnodup := List.nodup_cons.1 (hstarts ▸ h.nodup)
  have hnew : ∀ x ∈ l, x.2 ≠ s.current.span.start := fun x hx heq =>
    h.behind x hx (hstarts ▸ heq ▸ List.mem_cons_self)
  refine ⟨hskip.ended, hskip.nodup, List.forall_mem_cons.2 ⟨hnodup.1, hskip.behind⟩, ?_⟩
  rintro x hx y hy heq
  rcases List.mem_cons.1 hx with rfl | hx <;> rcases List.mem_cons.1 hy with rfl | hy
  · rfl
  · exact absurd heq.symm (hnew y hy)
  · exact absurd heq (hnew x hx)
  · exact h.once x hx y hy heq

end ParserState.Marked

namespace Parser

/-- A parser turns the marks `l` into the marks of what it yields, when the token ahead
satisfies `P`. -/
def Marks {α : Type} (P : Token → Prop) (l : List Mark) (p : Parser α) (m : α → List Mark) :
    Prop :=
  ∀ ⦃s a s'⦄, P s.current → s.Marked l → p.run s = .ok (a, s') → s'.Marked (m a)

/-- Tokens that satisfy `P` are no end of the input. -/
def Present (P : Token → Prop) : Prop := ∀ t, P t → t.kind ≠ .endOfInput

theorem present_keyword (word : Keyword) : Present fun t => t.kind = .keyword word :=
  fun _ ht heq => nomatch ht.symm.trans heq

theorem present_sign (sign : Sign) : Present fun t => t.kind = .sign sign :=
  fun _ ht heq => nomatch ht.symm.trans heq

namespace Marks

variable {α β : Type} {P : Token → Prop} {l : List Mark} {p q : Parser α} {f : α → Parser β}
  {m : α → List Mark} {k : β → List Mark}

theorem pure {a : α} (h : m a ⊆ l) : Marks P l (pure a) m := by
  intro s b s' _ hs hrun
  obtain ⟨rfl, rfl⟩ := run_pure_eq_ok.1 hrun
  exact hs.mono h

theorem bind (hp : Marks P l p m) (hf : ∀ a, Marks (fun _ => True) (m a) (f a) k) :
    Marks P l (p >>= f) k := by
  intro s b s' hP hs hrun
  obtain ⟨a, s₁, ha, hb⟩ := run_bind_eq_ok.1 hrun
  exact hf a trivial (hp hP hs ha) hb

theorem map {g : α → β} (hp : Marks P l p m) (hg : ∀ a, k (g a) ⊆ m a) :
    Marks P l (g <$> p) k := by
  rw [← bind_pure_comp]
  exact hp.bind fun a => .pure (hg a)

theorem ite {c : Prop} [Decidable c] (hp : c → Marks P l p m) (hq : Marks P l q m) :
    Marks P l (if c then p else q) m := by
  split
  · next hc => exact hp hc
  · exact hq

theorem current_bind {f : Token → Parser β} (h : ∀ t, P t → Marks (fun u => u = t) l (f t) k) :
    Marks P l (Parser.current >>= f) k :=
  fun _ _ _ hP hs hrun => h _ hP rfl hs hrun

theorem kind_bind {f : TokenKind → Parser β} (h : ∀ x, Marks (fun t => t.kind = x) l (f x) k) :
    Marks P l (Parser.kind >>= f) k :=
  fun _ _ _ _ hs hrun => h _ rfl hs hrun

theorem onSameLine_bind {f : Bool → Parser β} (h : ∀ b, Marks P l (f b) k) :
    Marks P l (Parser.onSameLine >>= f) k :=
  fun _ _ _ hP hs hrun => h _ hP hs hrun

theorem spanFrom_bind {start : Span} {f : Span → Parser β}
    (h : ∀ stop, Marks P l (f { start with stop := stop }) k) :
    Marks P l (spanFrom start >>= f) k :=
  fun _ _ _ hP hs hrun => h _ hP hs hrun

/-- A token that is read may be marked with any depth. The end of the input stays ahead, so it
gets no mark. -/
theorem advance (hP : Present P) (n : Nat) :
    Marks P l advance fun t => (n, t.span.start) :: l := by
  intro s a s' hs hm hrun
  cases hrun
  exact hm.skip_mark (fun hnil => hP _ hs (hm.ended.current_kind_iff.2 hnil)) n

theorem skip : Marks P l Parser.advance fun _ => l := by
  intro s a s' _ hs hrun
  cases hrun
  exact hs.skip

theorem fail (e : Expectation) : Marks P l (fail e) m := by
  intro s a s' _ _ hrun
  rw [run_fail] at hrun
  cases hrun

theorem refuseTarget (target : Span) (start : Token) :
    Marks P l (refuseTarget target start) m := by
  intro s a s' _ _ hrun
  cases hrun

theorem tooDeep : Marks P l tooDeep m := by
  intro s a s' _ _ hrun
  cases hrun

theorem expect (x : TokenKind) (e : Expectation) : Marks P l (expect x e) fun _ => l := by
  unfold Parser.expect
  exact kind_bind fun _ => .ite (fun _ => skip) (.fail e)

/-- A token of a kind that is no end of the input may be marked with any depth. -/
theorem expectMarked {x : TokenKind} (e : Expectation) (n : Nat) (hx : x ≠ .endOfInput) :
    Marks P l (Parser.expect x e) fun t => (n, t.span.start) :: l := by
  unfold Parser.expect
  exact kind_bind fun _ => .ite (fun hk => advance (fun _ ht heq => hx (by rw [← hk, ← ht, heq])) n)
    (.fail e)

theorem expectName (e : Expectation) : Marks P l (expectName e) fun _ => l := by
  unfold Parser.expectName
  refine current_bind fun t _ => ?_
  split
  · exact skip.bind fun _ => .pure (List.Subset.refl l)
  · exact .fail e

theorem accept (x : TokenKind) : Marks P l (accept x) fun _ => l := by
  unfold Parser.accept
  exact kind_bind fun _ => .ite (fun _ => skip.bind fun _ => .pure (List.Subset.refl l))
    (.pure (List.Subset.refl l))

theorem atStatementEnd : Marks P l atStatementEnd fun _ => l := by
  intro s a s' _ hs hrun
  rw [run_atStatementEnd] at hrun
  cases hrun
  exact hs

theorem statementEnd : Marks P l statementEnd fun _ => l := by
  unfold Parser.statementEnd
  refine current_bind fun t _ => ?_
  split
  · exact skip.bind fun _ => .pure (List.Subset.refl l)
  · exact .pure (List.Subset.refl l)
  · exact .pure (List.Subset.refl l)
  · exact .ite (fun _ => .pure (List.Subset.refl l)) (.fail _)

theorem inBrackets (hp : Marks P l p m) : Marks P l (inBrackets p) m := by
  intro s a s' hP hs hrun
  obtain ⟨s₁, hinner, rfl⟩ := run_inBrackets_eq_ok.1 hrun
  refine (hp ?_ (hs.withBrackets _) hinner).withBrackets _
  exact hP

theorem outsideBrackets (hp : Marks P l p m) : Marks P l (outsideBrackets p) m := by
  intro s a s' hP hs hrun
  obtain ⟨s₁, hinner, rfl⟩ := run_outsideBrackets_eq_ok.1 hrun
  refine (hp ?_ (hs.withBrackets _) hinner).withBrackets _
  exact hP

/-- What each turn makes of the marks of a loop holds of its end. -/
theorem turns {turn : α → Parser (Turn α)}
    (hturn : ∀ a, Marks (fun _ => True) (m a) (turn a) fun r => m r.value) :
    ∀ (ts : List Token) (a : α), Marks (fun _ => True) (m a) (turns turn ts a) m
  | [], _ => .pure (List.Subset.refl _)
  | _ :: ts, a => (hturn a).bind fun r => by
    cases r with
    | again b => exact turns hturn ts b
    | done b => exact .pure (List.Subset.refl _)

theorem loop {turn : α → Parser (Turn α)} {a : α} (ha : m a ⊆ l)
    (hturn : ∀ a, Marks (fun _ => True) (m a) (turn a) fun r => m r.value) :
    Marks P l (loop turn a) m :=
  fun _ _ _ _ hs hrun => turns hturn _ a trivial (hs.mono ha) hrun

end Marks

end Parser

open ScriptLang.Parser

/-- All rules of a grammar leave the marks of the trees that they yield, however deep these
stand. -/
structure Grammar.Marks (g : Grammar) : Prop where
  expression : ∀ {P l} n, g.expression.Marks P l fun e => marks (e.nested n) ++ l
  binary : ∀ {P l} level n, (g.binary level).Marks P l fun e => marks (e.nested n) ++ l
  unary : ∀ {P l} n, g.unary.Marks P l fun e => marks (e.nested n) ++ l
  suffixed : ∀ {P l} n, g.suffixed.Marks P l fun e => marks (e.nested n) ++ l
  primary : ∀ {P l} n, g.primary.Marks P l fun e => marks (e.nested n) ++ l
  body : ∀ {P l} n, g.body.Marks P l fun b => marks (b.nested n) ++ l
  block : ∀ {P l} n, g.block.Marks P l fun b => marks (b.nested n) ++ l
  conditional : ∀ {P l} n,
    g.conditional.Marks P l fun c => marks (c.nested n) ++ l
  statement : ∀ {P l} n, g.statement.Marks P l fun s => marks (s.nested n) ++ l

namespace Rule

variable {g : Grammar} {P : Token → Prop} {l : List Mark}

/-! ### Expressions -/

theorem expression_marks (hg : g.Marks) (n : Nat) :
    (expression g).Marks P l fun e => marks (e.nested n) ++ l := by
  unfold expression
  refine .current_bind fun _ _ => .bind (hg.binary 1 n) fun e => .kind_bind fun _ =>
    .onSameLine_bind fun _ => .ite (fun _ => ?_) (.pure (List.Subset.refl _))
  split
  · next target =>
    have htarget : (n, target.span.start) ∈ marks ((Expr.identifier target).nested n) :=
      Expr.mem_marks_nested n (.identifier target)
    exact .bind .skip fun _ => .bind (hg.expression n) fun value =>
      .pure (marks_node target.span.start rfl (by simp [htarget]) (by simp))
  · exact .refuseTarget _ _

theorem binaryTurn_marks (hg : g.Marks) (level n : Nat) (left : Expr) :
    (binaryTurn g level left).Marks P (marks (left.nested n) ++ l)
      fun r => marks (r.value.nested n) ++ l := by
  unfold binaryTurn
  refine .onSameLine_bind fun _ => .ite (fun _ => .pure (List.Subset.refl _))
    (.kind_bind fun _ => ?_)
  split
  · exact .pure (List.Subset.refl _)
  · next c _ =>
    refine .ite (fun _ => .pure (List.Subset.refl _)) (.bind .skip fun _ =>
      .bind (hg.binary _ n) fun right => .pure ?_)
    cases c <;> exact marks_node left.span.start rfl (by simp) (by simp)

theorem binary_marks (hg : g.Marks) (level n : Nat) :
    (Rule.binary g level).Marks P l fun e => marks (e.nested n) ++ l := by
  unfold Rule.binary
  exact .bind (hg.unary n) fun _ =>
    .loop (List.Subset.refl _) fun left => binaryTurn_marks hg level n left

theorem increment_before_marks (hg : g.Marks) (hP : Present P) (direction : Direction) (n : Nat) :
    (advance >>= fun sign => g.unary >>= fun target =>
      increment sign target direction .before).Marks P l fun e => marks (e.nested n) ++ l := by
  refine .bind (.advance hP n) fun sign => .bind (hg.unary n) fun target => ?_
  unfold increment
  split
  · exact .pure (marks_node sign.span.start rfl (by simp) (by simp))
  · exact .refuseTarget _ _

theorem increment_after_marks (sign : Token) (target : Expr) (direction : Direction) (n : Nat) :
    (increment sign target direction .after).Marks P (marks (target.nested n) ++ l)
      fun e => marks (e.nested n) ++ l := by
  unfold increment
  split
  · next name =>
    have hname : (n, name.span.start) ∈ marks ((Expr.identifier name).nested n) :=
      Expr.mem_marks_nested n (.identifier name)
    exact .pure (marks_node name.span.start rfl (by simp [hname]) (by simp))
  · exact .refuseTarget _ _

theorem unary_marks (hg : g.Marks) (n : Nat) :
    (unary g).Marks P l fun e => marks (e.nested n) ++ l := by
  unfold unary
  refine .kind_bind fun k => ?_
  split
  · exact .bind (.advance (present_keyword _) n) fun sign => .bind (hg.unary n) fun e =>
      .pure (marks_node sign.span.start rfl (by simp) (by simp))
  · exact .bind (.advance (present_sign _) n) fun sign => .bind (hg.unary n) fun e =>
      .pure (marks_node sign.span.start rfl (by simp) (by simp))
  · exact increment_before_marks hg (present_sign _) _ n
  · exact increment_before_marks hg (present_sign _) _ n
  · exact hg.suffixed n

theorem argumentTurn_marks (hg : g.Marks) (n : Nat) (done : List Expr) :
    (argumentTurn g done).Marks P (marks (Expr.nestedAll n done) ++ l)
      fun r => marks (Expr.nestedAll n r.value) ++ l := by
  unfold argumentTurn
  exact .bind (.accept _) fun _ => .ite
    (fun _ => .kind_bind fun _ => .ite (fun _ => .pure (List.Subset.refl _))
      (.bind (hg.expression n) fun e => .pure (by simp [Turn.value, Expr.nestedAll])))
    (.pure (List.Subset.refl _))

theorem arguments_marks (hg : g.Marks) (n : Nat) :
    (arguments g).Marks P l fun es => marks (Expr.nestedAll n es) ++ l := by
  unfold arguments
  refine .kind_bind fun _ => .ite (fun _ => .pure (by simp [Expr.nestedAll]))
    (.bind (hg.expression n) fun _ => .bind (.loop
      (m := fun es => marks (Expr.nestedAll n es) ++ l) (by simp [Expr.nestedAll])
        fun done => argumentTurn_marks hg n done) fun es => .pure ?_)
  exact marks_append_subset (Expr.nestedAll_reverse_subset n es)

theorem call_marks (hg : g.Marks) (n : Nat) (callee : Expr) :
    (call g callee).Marks P (marks (callee.nested n) ++ l)
      fun e => marks (e.nested n) ++ l := by
  unfold call
  exact .bind (.expect _ _) fun _ => .bind (.inBrackets (arguments_marks hg n)) fun es =>
    .bind (.expect _ _) fun _ => .spanFrom_bind fun _ =>
      .pure (marks_node callee.span.start rfl (by simp) (by simp))

/-- The parts of what stands between square brackets. -/
def Subscript.nested (n : Nat) : Subscript → List (Nat × Part)
  | .position value => value.nested n
  | .stretch start stop step =>
    Expr.nestedOption n start ++ Expr.nestedOption n stop ++ Expr.nestedOption n step

theorem optional_marks (hg : g.Marks) (leftOut : Bool) (n : Nat) :
    (optional g leftOut).Marks P l fun o => marks (Expr.nestedOption n o) ++ l := by
  unfold optional
  exact .ite (fun _ => .pure (List.Subset.refl l))
    (.map (hg.expression n) fun _ => List.Subset.refl _)

theorem stride_marks (hg : g.Marks) (n : Nat) :
    (stride g).Marks P l fun o => marks (Expr.nestedOption n o) ++ l := by
  unfold stride
  exact .bind (.accept _) fun _ => .ite (fun _ => .kind_bind fun _ => optional_marks hg _ n)
    (.pure (List.Subset.refl l))

theorem stretch_marks (hg : g.Marks) (start : Option Expr) (n : Nat) :
    (stretch g start).Marks P (marks (Expr.nestedOption n start) ++ l)
      fun x => marks (x.nested n) ++ l := by
  rw [stretch_eq]
  exact .kind_bind fun _ => .bind (optional_marks hg _ n) fun stop =>
    .bind (stride_marks hg n) fun step => .pure (by grind [Subscript.nested])

theorem subscript_marks (hg : g.Marks) (n : Nat) :
    (subscript g).Marks P l fun x => marks (x.nested n) ++ l := by
  unfold subscript
  exact .bind (.accept _) fun _ => .ite (fun _ => stretch_marks hg none n)
    (.bind (hg.expression n) fun e => .bind (.accept _) fun _ =>
      .ite (fun _ => stretch_marks hg (some e) n) (.pure (List.Subset.refl _)))

theorem subscripted_marks (hg : g.Marks) (n : Nat) (target : Expr) :
    (subscripted g target).Marks P (marks (target.nested n) ++ l)
      fun e => marks (e.nested n) ++ l := by
  unfold subscripted
  refine .bind (.expect _ _) fun _ => .bind (.inBrackets (subscript_marks hg n)) fun x => ?_
  cases x with
  | position value =>
    exact .bind (.expect _ _) fun _ => .spanFrom_bind fun _ =>
      .pure (marks_node target.span.start rfl (by simp) (by grind [Subscript.nested]))
  | stretch start stop step =>
    exact .bind (.expect _ _) fun _ => .spanFrom_bind fun _ =>
      .pure (marks_node target.span.start rfl (by simp) (by grind [Subscript.nested]))

theorem suffixTurn_marks (hg : g.Marks) (n : Nat) (operand : Expr) :
    (suffixTurn g operand).Marks P (marks (operand.nested n) ++ l)
      fun r => marks (r.value.nested n) ++ l := by
  unfold suffixTurn
  refine .onSameLine_bind fun _ => .ite (fun _ => .pure (List.Subset.refl _))
    (.kind_bind fun _ => ?_)
  split
  · exact .bind (call_marks hg n operand) fun _ => .pure (List.Subset.refl _)
  · exact .bind (subscripted_marks hg n operand) fun _ => .pure (List.Subset.refl _)
  · exact .bind .skip fun sign => .bind (increment_after_marks sign operand _ n) fun _ =>
      .pure (List.Subset.refl _)
  · exact .bind .skip fun sign => .bind (increment_after_marks sign operand _ n) fun _ =>
      .pure (List.Subset.refl _)
  · exact .pure (List.Subset.refl _)

theorem suffixed_marks (hg : g.Marks) (n : Nat) :
    (suffixed g).Marks P l fun e => marks (e.nested n) ++ l := by
  unfold suffixed
  exact .bind (hg.primary n) fun _ =>
    .loop (List.Subset.refl _) fun operand => suffixTurn_marks hg n operand

theorem parameterTurn_marks (closing : TokenKind) (done : List Text) :
    (parameterTurn closing done).Marks P l fun _ => l := by
  unfold parameterTurn
  exact .bind (.accept _) fun _ => .ite
    (fun _ => .kind_bind fun _ => .ite (fun _ => .pure (List.Subset.refl l))
      (.bind (.expectName _) fun _ => .pure (List.Subset.refl l))) (.pure (List.Subset.refl l))

theorem parameters_marks (closing : TokenKind) :
    (parameters closing).Marks P l fun _ => l := by
  unfold parameters parameterNames
  exact .kind_bind fun _ => .ite (fun _ => .pure (List.Subset.refl l))
    (.bind (.expectName _) fun _ => .bind (.loop (m := fun _ => l) (List.Subset.refl l)
      fun _ => parameterTurn_marks _ _) fun _ => .pure (List.Subset.refl l))

theorem body_marks (hg : g.Marks) (n : Nat) :
    (body g).Marks P l fun b => marks (b.nested n) ++ l := by
  unfold body
  refine .kind_bind fun _ => .ite (fun hk => ?_) (hg.block n)
  subst hk
  exact .bind (.advance (present_sign _) n) fun arrow =>
    .bind (.outsideBrackets (hg.expression n)) fun value =>
      .pure (marks_node arrow.span.start rfl (by simp)
        (by simp [Expr.nestedOption, Stmt.nestedAll]))

theorem lambda_marks (hg : g.Marks) (n : Nat) :
    (lambda g).Marks P l fun e => marks (e.nested n) ++ l := by
  unfold lambda
  exact .bind (.expectMarked _ n (by simp)) fun start => .bind (parameters_marks _) fun _ =>
    .bind (.expect _ _) fun _ => .bind (hg.body (n + 1)) fun _ => .spanFrom_bind fun _ =>
      .pure (marks_node start.span.start rfl (by simp) (by simp))

theorem group_marks (hg : g.Marks) (n : Nat) :
    (group g).Marks P l fun e => marks (e.nested n) ++ l := by
  unfold group
  exact .bind .skip fun _ => .bind (.inBrackets (hg.expression n)) fun _ =>
    .bind (.expect _ _) fun _ => .pure (List.Subset.refl _)

/-- An expression of one token. -/
theorem leaf_marks {t : Token} (ht : t.content ≠ .endOfInput) {e : Expr} (n : Nat)
    (he : e.nested n = [(n, .expression e)]) (hspan : e.span = t.span) :
    (advance *> pure e : Parser Expr).Marks (fun u => u = t) l
      fun e => marks (e.nested n) ++ l := by
  rintro s a s' rfl hs hrun
  rw [run_advance_seq, run_pure] at hrun
  cases hrun
  refine (hs.skip_mark (fun hnil => ?_) n).mono ?_
  · exact ht (Token.kind_eq_endOfInput.1 (hs.ended.current_kind_iff.2 hnil))
  · simp only [he]
    exact marks_node _ (congrArg Span.start hspan) List.mem_cons_self (List.subset_cons_self _ _)

theorem primary_marks (hg : g.Marks) (n : Nat) :
    (primary g).Marks P l fun e => marks (e.nested n) ++ l := by
  unfold primary
  refine .current_bind fun t _ => ?_
  dsimp only
  split
  · next h => exact leaf_marks (by simp [h]) n rfl rfl
  · next h => exact leaf_marks (by simp [h]) n rfl rfl
  · next h => exact leaf_marks (by simp [h]) n rfl rfl
  · next h => exact leaf_marks (by simp [h]) n rfl rfl
  · next h => exact leaf_marks (by simp [h]) n rfl rfl
  · next h => exact leaf_marks (by simp [h]) n rfl rfl
  · next h => exact leaf_marks (by simp [h]) n rfl rfl
  · exact group_marks hg n
  · exact lambda_marks hg n
  · exact .fail _

/-! ### Statements -/

theorem blockTurn_marks (hg : g.Marks) (n : Nat) (done : List Stmt) :
    (blockTurn g done).Marks P (marks (Stmt.nestedAll n done) ++ l)
      fun r => marks (Stmt.nestedAll n r.value) ++ l := by
  unfold blockTurn
  refine .kind_bind fun _ => ?_
  split
  · exact .pure (List.Subset.refl _)
  · exact .fail _
  · exact .bind .skip fun _ => .pure (List.Subset.refl _)
  · exact .bind (hg.statement n) fun s => .pure (by simp [Turn.value, Stmt.nestedAll])

theorem block_marks (hg : g.Marks) (n : Nat) :
    (block g).Marks P l fun b => marks (b.nested n) ++ l := by
  unfold block
  exact .bind (.expect _ _) fun _ =>
    .bind (.outsideBrackets (.loop (m := fun ss => marks (Stmt.nestedAll n ss) ++ l)
      (List.Subset.refl l) fun done => blockTurn_marks hg n done)) fun ss =>
        .bind (.expect _ _) fun _ => .spanFrom_bind fun _ =>
          .pure (marks_append_subset (Stmt.nestedAll_reverse_subset n ss))

theorem declaration_marks (hg : g.Marks) (n : Nat) :
    (declaration g).Marks P l
      fun x => marks (x.2.2.nested n) ++ (n, x.1.span.start) :: l := by
  unfold declaration
  exact .bind (.expectMarked _ n (by simp)) fun _ => .bind (.expectName _) fun _ =>
    .bind (.expect _ _) fun _ => .bind (hg.expression n) fun _ => .pure (List.Subset.refl _)

theorem declarationStatement_marks (hg : g.Marks) (n : Nat) :
    (declarationStatement g).Marks P l fun s => marks (s.nested n) ++ l := by
  unfold declarationStatement
  exact .bind (declaration_marks hg n) fun ⟨start, _, _⟩ => .bind .statementEnd fun _ =>
    .spanFrom_bind fun _ => .pure (marks_node start.span.start rfl (by simp) (by simp))

theorem definitionEnd_marks (arrow : Bool) : (definitionEnd arrow).Marks P l fun _ => l := by
  unfold definitionEnd
  exact .ite (fun _ => .statementEnd) (.pure (List.Subset.refl l))

theorem definition_marks (hg : g.Marks) (n : Nat) :
    (definition g).Marks P l fun d => marks (d.expr.nested n) ++ l := by
  rw [definition_eq]
  exact .bind (.expectMarked _ n (by simp)) fun start => .bind (.expectName _) fun _ =>
    .bind (.expect _ _) fun _ => .bind (parameters_marks _) fun _ => .bind (.expect _ _) fun _ =>
      .kind_bind fun _ => .bind (hg.body (n + 1)) fun _ => .bind (definitionEnd_marks _) fun _ =>
        .spanFrom_bind fun _ => .pure (marks_node start.span.start rfl (by simp) (by simp))

theorem decoratorTurn_marks (hg : g.Marks) (n : Nat) (done : List Expr) :
    (decoratorTurn g done).Marks P (marks (Expr.nestedAll n done) ++ l)
      fun r => marks (Expr.nestedAll n r.value) ++ l := by
  unfold decoratorTurn
  exact .bind (.accept _) fun _ => .ite
    (fun _ => .bind (hg.suffixed n) fun _ => .bind (.accept _) fun _ =>
      .pure (by simp [Turn.value, Expr.nestedAll])) (.pure (List.Subset.refl _))

/-- The calls of decorators begin where the decorators do. -/
theorem foldl_decorate_marks (d : Definition) (n : Nat) (decorators : List Expr) (value : Expr) :
    marks ((decorators.foldl (decorate d) value).nested n) ⊆
      marks (Expr.nestedAll n decorators) ++ marks (value.nested n) := by
  induction decorators generalizing value with
  | nil => exact List.Subset.refl _
  | cons e es ih =>
    refine List.Subset.trans (ih (decorate d value e)) ?_
    have hcall : marks ((decorate d value e).nested n) =
        (n, e.span.start) :: (marks (e.nested n) ++ marks (value.nested n)) := by
      simp [decorate, Expr.nested, Expr.nestedAll, Part.span, Expr.span]
    rw [hcall]
    simp [Expr.nestedAll]

theorem decorated_marks (hg : g.Marks) (n : Nat) :
    (decorated g).Marks P l fun s => marks (s.nested n) ++ l := by
  unfold decorated
  refine .bind (.loop (m := fun es => marks (Expr.nestedAll n es) ++ l) (List.Subset.refl l)
    fun done => decoratorTurn_marks hg n done) fun es => .kind_bind fun _ => .ite (fun _ => ?_)
      (.fail _)
  refine .bind (definition_marks hg n) fun d => .pure ?_
  -- the assignment begins where its value does: at the outermost decorator
  have hstart := Expr.mem_marks_nested n (es.foldl (decorate d) d.expr)
  have hvalue : marks ((es.foldl (decorate d) d.expr).nested n) ++ l ⊆
      marks (d.expr.nested n) ++ (marks (Expr.nestedAll n es) ++ l) := by
    grind [foldl_decorate_marks d n es d.expr]
  have hmem := hvalue (List.mem_append_left l hstart)
  exact marks_node _ rfl hmem (marks_node _ rfl hmem hvalue)

theorem otherwise_marks (hg : g.Marks) (n : Nat) :
    (otherwise g).Marks P l fun o => marks (o.nested n) ++ l := by
  unfold otherwise
  exact .bind (.accept _) fun _ => .ite (fun _ => .kind_bind fun _ => .ite
    (fun _ => .bind (hg.conditional n) fun _ => .pure (List.Subset.refl _))
    (.bind (hg.block (n + 1)) fun _ => .pure (List.Subset.refl _))) (.pure (List.Subset.refl l))

theorem conditional_marks (hg : g.Marks) (n : Nat) :
    (conditional g).Marks P l fun c => marks (c.nested n) ++ l := by
  unfold conditional
  exact .bind (.expectMarked _ n (by simp)) fun start => .bind (hg.expression n) fun _ =>
    .bind (hg.block (n + 1)) fun _ => .bind (otherwise_marks hg n) fun _ =>
      .spanFrom_bind fun _ => .pure (marks_node start.span.start rfl (by simp) (by grind))

theorem whileLoop_marks (hg : g.Marks) (n : Nat) :
    (whileLoop g).Marks P l fun s => marks (s.nested n) ++ l := by
  unfold whileLoop
  exact .bind (.expectMarked _ n (by simp)) fun start => .bind (hg.expression n) fun _ =>
    .bind (hg.block (n + 1)) fun _ => .spanFrom_bind fun _ =>
      .pure (marks_node start.span.start rfl (by simp) (by grind))

theorem initializer_marks (hg : g.Marks) (n : Nat) :
    (initializer g).Marks P l fun o => marks (Simple.nestedOption n o) ++ l := by
  unfold initializer
  refine .kind_bind fun _ => ?_
  split
  · exact .bind (declaration_marks hg n) fun ⟨start, _, _⟩ =>
      .spanFrom_bind fun _ => .pure (marks_node start.span.start rfl (by simp) (by simp))
  · exact .pure (List.Subset.refl l)
  · exact .bind (hg.expression n) fun e => .pure (marks_node e.span.start rfl (by simp) (by simp))

theorem optionalBefore_marks (hg : g.Marks) (closing : TokenKind) (n : Nat) :
    (optionalBefore g closing).Marks P l fun o => marks (Expr.nestedOption n o) ++ l := by
  rw [optionalBefore_eq]
  exact .kind_bind fun _ => optional_marks hg _ n

theorem countingHeader_marks (hg : g.Marks) (n : Nat) :
    (countingHeader g).Marks P l fun x => marks (Simple.nestedOption n x.1 ++
      Expr.nestedOption n x.2.1 ++ Expr.nestedOption n x.2.2) ++ l := by
  unfold countingHeader
  exact .bind (initializer_marks hg n) fun _ => .bind (.expect _ _) fun _ =>
    .bind (optionalBefore_marks hg _ n) fun _ => .bind (.expect _ _) fun _ =>
      .bind (optionalBefore_marks hg _ n) fun _ => .pure (by grind)

theorem countingLoop_marks (hg : g.Marks) (n : Nat) (start : Token) :
    (countingLoop g start).Marks P ((n, start.span.start) :: l)
      fun s => marks (s.nested n) ++ l := by
  unfold countingLoop
  exact .bind (.expect _ _) fun _ => .bind (.inBrackets (countingHeader_marks hg (n + 1)))
    fun ⟨_, _, _⟩ => .bind (.expect _ _) fun _ => .bind (hg.block (n + 2)) fun _ =>
      .spanFrom_bind fun _ => .pure (marks_node start.span.start rfl (by simp) (by grind))

theorem forLoop_marks (hg : g.Marks) (n : Nat) :
    (forLoop g).Marks P l fun s => marks (s.nested n) ++ l := by
  unfold forLoop
  exact .bind (.expectMarked _ n (by simp)) fun start => .kind_bind fun _ => .ite
    (fun _ => countingLoop_marks hg n start)
    (.bind (.expectName _) fun _ => .bind (.expect _ _) fun _ => .bind (hg.expression n) fun _ =>
      .bind (hg.block (n + 1)) fun _ => .spanFrom_bind fun _ =>
        .pure (marks_node start.span.start rfl (by simp) (by grind)))

theorem returning_marks (hg : g.Marks) (n : Nat) :
    (returning g).Marks P l fun s => marks (s.nested n) ++ l := by
  rw [returning_eq]
  exact .bind (.expectMarked _ n (by simp)) fun start =>
    .bind (.bind .atStatementEnd fun _ => optional_marks hg _ n) fun _ =>
      .bind .statementEnd fun _ => .spanFrom_bind fun _ =>
        .pure (marks_node start.span.start rfl (by simp) (by simp))

theorem message_marks : message.Marks P l fun _ => l := by
  unfold message assertionMessage
  refine .bind (.accept _) fun _ => .ite (fun _ => .map (m := fun _ => l) ?_
    fun _ => List.Subset.refl l) (.pure (List.Subset.refl l))
  refine .current_bind fun t _ => ?_
  split
  · exact .bind .skip fun _ => .pure (List.Subset.refl l)
  · exact .fail _

theorem assertion_marks (hg : g.Marks) (n : Nat) :
    (assertion g).Marks P l fun s => marks (s.nested n) ++ l := by
  rw [assertion_eq]
  exact .bind (.expectMarked _ n (by simp)) fun start => .bind (hg.expression n) fun _ =>
    .bind message_marks fun _ => .bind .statementEnd fun _ => .spanFrom_bind fun _ =>
      .pure (marks_node start.span.start rfl (by simp) (by simp))

theorem word_marks {make : Span → Stmt}
    (hmake : ∀ span n, marks ((make span).nested n) = [(n, span.start)]) (hP : Present P)
    (n : Nat) : (word make).Marks P l fun s => marks (s.nested n) ++ l := by
  unfold word
  refine .bind (.advance hP n) fun t => .bind .statementEnd fun _ => .pure ?_
  rw [hmake]
  exact List.Subset.refl _

theorem expressionStatement_marks (hg : g.Marks) (n : Nat) :
    (expressionStatement g).Marks P l fun s => marks (s.nested n) ++ l := by
  unfold expressionStatement
  exact .bind (hg.expression n) fun e => .bind .statementEnd fun _ =>
    .pure (marks_node e.span.start rfl (by simp) (by simp))

theorem statement_marks (hg : g.Marks) (n : Nat) :
    (statement g).Marks P l fun s => marks (s.nested n) ++ l := by
  unfold statement
  refine .kind_bind fun _ => ?_
  split
  · exact declarationStatement_marks hg n
  · refine .bind (definition_marks hg n) fun d => .pure ?_
    exact marks_node d.expr.span.start rfl (by simp) (by simp)
  · exact decorated_marks hg n
  · exact .bind (hg.conditional n) fun _ => .pure (List.Subset.refl _)
  · exact whileLoop_marks hg n
  · exact forLoop_marks hg n
  · exact returning_marks hg n
  · exact word_marks (fun _ _ => rfl) (present_keyword _) n
  · exact word_marks (fun _ _ => rfl) (present_keyword _) n
  · exact assertion_marks hg n
  · exact expressionStatement_marks hg n

theorem programTurn_marks (hg : g.Marks) (n : Nat) (done : List Stmt) :
    (programTurn g done).Marks P (marks (Stmt.nestedAll n done) ++ l)
      fun r => marks (Stmt.nestedAll n r.value) ++ l := by
  unfold programTurn
  refine .kind_bind fun _ => ?_
  split
  · exact .pure (List.Subset.refl _)
  · exact .bind .skip fun _ => .pure (List.Subset.refl _)
  · exact .fail _
  · exact .bind (hg.statement n) fun s => .pure (by simp [Turn.value, Stmt.nestedAll])

theorem program_marks (hg : g.Marks) (n : Nat) :
    (program g).Marks P l fun b => marks (b.nested n) ++ l := by
  unfold program
  exact .current_bind fun _ _ => .bind (.loop
    (m := fun ss => marks (Stmt.nestedAll n ss) ++ l) (List.Subset.refl l)
      fun done => programTurn_marks hg n done) fun ss => .current_bind fun _ _ =>
        .pure (marks_append_subset (Stmt.nestedAll_reverse_subset n ss))

end Rule

/-! ### Grammars and programs -/

namespace Grammar

open Rule

theorem Marks.step {g : Grammar} (hg : g.Marks) : g.step.Marks where
  expression := expression_marks hg
  binary := binary_marks hg
  unary := unary_marks hg
  suffixed := suffixed_marks hg
  primary := primary_marks hg
  body := body_marks hg
  block := block_marks hg
  conditional := conditional_marks hg
  statement := statement_marks hg

theorem ofDepth_marks : ∀ depth, (ofDepth depth).Marks
  | 0 => ⟨fun _ => .tooDeep, fun _ _ => .tooDeep, fun _ => .tooDeep, fun _ => .tooDeep,
      fun _ => .tooDeep, fun _ => .tooDeep, fun _ => .tooDeep, fun _ => .tooDeep,
      fun _ => .tooDeep⟩
  | depth + 1 => (ofDepth_marks depth).step

end Grammar

namespace Program

/-- Parts of a program that begin at one place stand at one depth. -/
theorem parseTokensAt_marks {depth : Nat} {tokens : List Token} {b : Block}
    (ht : Token.Ended tokens) (hstarts : (tokens.map fun t => t.span.start).Nodup)
    (h : parseTokensAt depth tokens = .ok b) {n : Nat} {x y : Nat × Part}
    (hx : x ∈ b.nested n) (hy : y ∈ b.nested n) (heq : x.2.span.start = y.2.span.start) :
    x.1 = y.1 := by
  obtain ⟨ts, finish, rfl, hfinish, hts⟩ := ht
  rw [parseTokensAt_append] at h
  cases hrun : (Rule.program (Grammar.ofDepth depth)).run ⟨ts, finish, finish.span.stop, 0⟩ with
  | error c => rw [hrun] at h; cases h
  | ok result =>
    rw [hrun] at h
    cases h
    have hnodup : (ts.map fun t => t.span.start).Nodup := by
      rw [List.map_append] at hstarts
      exact hstarts.sublist (List.sublist_append_left _ _)
    have hstart : ParserState.Marked [] ⟨ts, finish, finish.span.stop, 0⟩ :=
      ⟨⟨hfinish, hts⟩, hnodup, nofun, nofun⟩
    have hmarked := Rule.program_marks (P := fun _ => True) (Grammar.ofDepth_marks depth) n
      trivial hstart hrun
    exact hmarked.once _ (List.mem_append_left _ (mem_marks hx)) _
      (List.mem_append_left _ (mem_marks hy)) heq

end Program

end ScriptLang
