import ScriptLang.Proofs.Grammar.Joined
import ScriptLang.Proofs.Grammar.Marked
import ScriptLang.Proofs.Token.Scan
import ScriptLang.Proofs.Tree.Spanned

/-!
# Nodes stand where their tokens do

A rule of the grammar that starts behind the offset `k` and ends behind `k'` yields a node that
lies between the two. So nodes that are read one after the other do not overlap, and the span of
a node, from its first token to its last one, covers those of its parts
(`Program.parseTokensAt_spanned`).

`Parser.Lays T P k p Q` says that `p` leads from `k` to an offset `k'` behind the last token that
it reads, and that what it yields satisfies `Q` there, when the token ahead satisfies `P`. The
combinators of parsers have one rule each.
-/

namespace ScriptLang

theorem ParserState.exists_current_cons (s : ParserState) :
    ∃ ts, s.ahead ++ [s.finish] = s.current :: ts := by
  cases hs : s.ahead with
  | nil => exact ⟨[], by rw [current_of_nil hs]; rfl⟩
  | cons t ts => exact ⟨ts ++ [s.finish], by rw [current_of_cons hs]; rfl⟩

/-- A state behind the offset `k`, where the last token that was read ends; it is zero if none
was. -/
structure ParserState.At (T : List Token) (k : Nat) (s : ParserState) : Prop where
  ended : s.Ended
  mem : ∀ t ∈ s.ahead ++ [s.finish], t ∈ T
  ordered : Token.Ordered k (s.ahead ++ [s.finish])
  last : 0 < k → (∃ t ∈ T, t.span.stop = s.lastStop) ∧ s.lastStop.offset = k

namespace ParserState.At

variable {T : List Token} {k : Nat} {s : ParserState}

theorem withBrackets (h : s.At T k) (n : Nat) :
    ({ s with brackets := n } : ParserState).At T k :=
  ⟨h.ended.withBrackets n, h.mem, h.ordered, h.last⟩

theorem current_mem (h : s.At T k) : s.current ∈ T := by
  obtain ⟨ts, hts⟩ := s.exists_current_cons
  exact h.mem s.current (hts ▸ List.mem_cons_self)

theorem le_current (h : s.At T k) :
    k ≤ s.current.offset ∧ s.current.offset ≤ s.current.span.stop.offset := by
  have hordered := h.ordered
  obtain ⟨ts, hts⟩ := s.exists_current_cons
  rw [hts] at hordered
  exact ⟨hordered.1, hordered.2.1⟩

/-- The token ahead is the first of those that are. -/
theorem current_le (h : s.At T k) {t : Token} (ht : t ∈ s.ahead ++ [s.finish]) :
    s.current.offset ≤ t.offset := by
  have hordered := h.ordered
  obtain ⟨ts, hts⟩ := s.exists_current_cons
  rw [hts] at hordered ht
  exact hordered.head_le ht

/-- A token that is read takes some space. -/
theorem skip (h : s.At T k) (hk : s.current.kind ≠ .endOfInput) :
    s.current.span.Lies T k s.current.span.stop.offset ∧
      s.skip.At T s.current.span.stop.offset := by
  have hskip := h.ended.skip
  have hmem := h.current_mem
  cases hs : s.ahead with
  | nil => exact absurd (h.ended.current_kind_iff.2 hs) hk
  | cons t ts =>
    have hordered := h.ordered
    rw [skip_of_cons hs] at hskip ⊢
    rw [current_of_cons hs] at hk hmem ⊢
    rw [hs] at hordered
    obtain ⟨hle, -, hlt, hrest⟩ := hordered
    have hpresent : t.content ≠ .endOfInput := fun hc => hk (Token.kind_eq_endOfInput.2 hc)
    exact ⟨⟨⟨t, hmem, rfl⟩, ⟨t, hmem, rfl⟩, hle, hlt hpresent, Nat.le_refl _⟩, hskip,
      fun u hu => h.mem u (hs ▸ List.mem_cons_of_mem t hu), hrest, fun _ => ⟨⟨t, hmem, rfl⟩, rfl⟩⟩

end ParserState.At

namespace Parser

/-- A parser leads from the offset `k` to one behind the last token that it reads, where what it
yields satisfies `Q`, when the token ahead satisfies `P`. -/
def Lays {α : Type} (T : List Token) (P : Token → Prop) (k : Nat) (p : Parser α)
    (Q : α → Nat → Prop) : Prop :=
  ∀ ⦃s a s'⦄, P s.current → s.At T k → p.run s = .ok (a, s') →
    ∃ k', k ≤ k' ∧ s'.At T k' ∧ Q a k'

/-- A token that says something is no end of the input. -/
theorem present_of_content {t : Token} (h : t.content ≠ .endOfInput) : Present fun u => u = t := by
  rintro u rfl hu
  exact h (Token.kind_eq_endOfInput.1 hu)

namespace Lays

variable {α β : Type} {T : List Token} {P : Token → Prop} {k : Nat} {p q : Parser α}
  {f : α → Parser β} {Q Q' : α → Nat → Prop} {R : β → Nat → Prop}

theorem pure {a : α} (h : Q a k) : Lays T P k (pure a) Q := by
  intro s b s' _ hs hrun
  obtain ⟨rfl, rfl⟩ := run_pure_eq_ok.1 hrun
  exact ⟨k, Nat.le_refl k, hs, h⟩

theorem bind (hp : Lays T P k p Q)
    (hf : ∀ a l, k ≤ l → Q a l → Lays T (fun _ => True) l (f a) R) :
    Lays T P k (p >>= f) R := by
  intro s b s' hP hs hrun
  obtain ⟨a, s₁, ha, hb⟩ := run_bind_eq_ok.1 hrun
  obtain ⟨l, hl, hs₁, hQ⟩ := hp hP hs ha
  obtain ⟨k', hk', hs', hR⟩ := hf a l hl hQ trivial hs₁ hb
  exact ⟨k', Nat.le_trans hl hk', hs', hR⟩

theorem imp (hp : Lays T P k p Q) (h : ∀ a l, k ≤ l → Q a l → Q' a l) : Lays T P k p Q' := by
  intro s a s' hP hs hrun
  obtain ⟨k', hk', hs', hQ⟩ := hp hP hs hrun
  exact ⟨k', hk', hs', h a k' hk' hQ⟩

theorem map {g : α → β} (hp : Lays T P k p Q) (hg : ∀ a l, k ≤ l → Q a l → R (g a) l) :
    Lays T P k (g <$> p) R := by
  rw [← bind_pure_comp]
  exact hp.bind fun a l hl hQ => .pure (hg a l hl hQ)

theorem ite {c : Prop} [Decidable c] (hp : c → Lays T P k p Q) (hq : Lays T P k q Q) :
    Lays T P k (if c then p else q) Q := by
  split
  · next hc => exact hp hc
  · exact hq

theorem current_bind {f : Token → Parser β}
    (h : ∀ t, P t → Lays T (fun u => u = t) k (f t) R) : Lays T P k (Parser.current >>= f) R :=
  fun _ _ _ hP hs hrun => h _ hP rfl hs hrun

theorem kind_bind {f : TokenKind → Parser β}
    (h : ∀ x, Lays T (fun t => t.kind = x) k (f x) R) : Lays T P k (Parser.kind >>= f) R :=
  fun _ _ _ _ hs hrun => h _ rfl hs hrun

theorem onSameLine_bind {f : Bool → Parser β} (h : ∀ b, Lays T P k (f b) R) :
    Lays T P k (Parser.onSameLine >>= f) R :=
  fun _ _ _ hP hs hrun => h _ hP hs hrun

/-- A span from one that was read extends up to where the parser stands. -/
theorem spanFrom_bind {first : Span} {f : Span → Parser β} {l l' : Nat}
    (hfirst : first.Lies T l l') (hl : l' ≤ k)
    (h : ∀ span : Span, span.Extends T l l' k first → Lays T P k (f span) R) :
    Lays T P k (spanFrom first >>= f) R := by
  intro s b s' hP hs hrun
  have hpos : 0 < k := by
    have hlt := hfirst.lt
    have hle := hfirst.stop_le
    omega
  obtain ⟨hstop, hoffset⟩ := hs.last hpos
  exact h { first with stop := s.lastStop } ⟨hfirst, hl, rfl, hstop, hoffset⟩ hP hs hrun

theorem advance (hP : Present P) :
    Lays T P k advance fun t k' => P t ∧ t.span.Lies T k k' := by
  intro s a s' hs hat hrun
  cases hrun
  obtain ⟨hlies, hskip⟩ := hat.skip (hP _ hs)
  exact ⟨_, Nat.le_of_lt (Nat.lt_of_le_of_lt hlies.le_start hlies.lt), hskip, hs, hlies⟩

theorem fail (e : Expectation) : Lays T P k (fail e) Q := by
  intro s a s' _ _ hrun
  rw [run_fail] at hrun
  cases hrun

theorem refuseTarget (target : Span) (start : Token) :
    Lays T P k (refuseTarget target start) Q := by
  intro s a s' _ _ hrun
  cases hrun

theorem tooDeep : Lays T P k tooDeep Q := by
  intro s a s' _ _ hrun
  cases hrun

theorem expect {x : TokenKind} (hx : Present fun t => t.kind = x) (e : Expectation) :
    Lays T P k (expect x e) fun t k' => t.span.Lies T k k' := by
  unfold Parser.expect
  refine kind_bind fun _ => .ite (fun hk => ?_) (.fail e)
  subst hk
  exact imp (advance hx) fun _ _ _ h => h.2

theorem expectName (e : Expectation) : Lays T P k (expectName e) fun _ _ => True := by
  unfold Parser.expectName
  refine current_bind fun t _ => ?_
  split
  · next name h =>
    exact bind (advance (present_of_content (h ▸ nofun))) fun _ _ _ _ => .pure trivial
  · exact .fail e

theorem accept {x : TokenKind} (hx : Present fun t => t.kind = x) :
    Lays T P k (accept x) fun _ _ => True := by
  unfold Parser.accept
  refine kind_bind fun _ => .ite (fun hk => ?_) (.pure trivial)
  subst hk
  exact bind (advance hx) fun _ _ _ _ => .pure trivial

theorem atStatementEnd : Lays T P k atStatementEnd fun _ _ => True := by
  intro s a s' _ hs hrun
  rw [run_atStatementEnd] at hrun
  cases hrun
  exact ⟨k, Nat.le_refl k, hs, trivial⟩

theorem statementEnd : Lays T P k statementEnd fun _ _ => True := by
  intro s a s' _ hs hrun
  have hs' := run_statementEnd_eq_ok hrun
  subst hs'
  unfold afterStatement
  split
  · next hk =>
    obtain ⟨hlies, hskip⟩ := hs.skip (hk ▸ nofun)
    exact ⟨_, Nat.le_of_lt (Nat.lt_of_le_of_lt hlies.le_start hlies.lt), hskip, trivial⟩
  · exact ⟨k, Nat.le_refl k, hs, trivial⟩

theorem inBrackets (hp : Lays T P k p Q) : Lays T P k (inBrackets p) Q := by
  intro s a s' hP hs hrun
  obtain ⟨s₁, hinner, rfl⟩ := run_inBrackets_eq_ok.1 hrun
  have hP' : P ({ s with brackets := s.brackets + 1 } : ParserState).current := hP
  obtain ⟨k', hk', hs₁, hQ⟩ := hp hP' (hs.withBrackets _) hinner
  exact ⟨k', hk', hs₁.withBrackets _, hQ⟩

theorem outsideBrackets (hp : Lays T P k p Q) : Lays T P k (outsideBrackets p) Q := by
  intro s a s' hP hs hrun
  obtain ⟨s₁, hinner, rfl⟩ := run_outsideBrackets_eq_ok.1 hrun
  have hP' : P ({ s with brackets := 0 } : ParserState).current := hP
  obtain ⟨k', hk', hs₁, hQ⟩ := hp hP' (hs.withBrackets _) hinner
  exact ⟨k', hk', hs₁.withBrackets _, hQ⟩

/-- What each turn keeps holds of the end of a loop. -/
theorem turns {turn : α → Parser (Turn α)}
    (hturn : ∀ a l, k ≤ l → Q a l → Lays T (fun _ => True) l (turn a) fun r => Q r.value) :
    ∀ (ts : List Token) (a : α) (l : Nat), k ≤ l → Q a l →
      Lays T (fun _ => True) l (turns turn ts a) Q
  | [], _, _, _, hQ => .pure hQ
  | _ :: ts, a, l, hl, hQ => (hturn a l hl hQ).bind fun r l' hl' hQ' => by
    cases r with
    | again b => exact turns hturn ts b l' (Nat.le_trans hl hl') hQ'
    | done b => exact .pure hQ'

theorem loop {turn : α → Parser (Turn α)} {a : α} (ha : Q a k)
    (hturn : ∀ a l, k ≤ l → Q a l → Lays T (fun _ => True) l (turn a) fun r => Q r.value) :
    Lays T P k (loop turn a) Q :=
  fun _ _ _ _ hs hrun => turns hturn _ a k (Nat.le_refl k) ha trivial hs hrun

end Lays

end Parser

open ScriptLang.Parser

/-- All rules of a grammar yield nodes between the offsets where they start and end. -/
structure Grammar.Lays (T : List Token) (g : Grammar) : Prop where
  expression : ∀ {P} k, g.expression.Lays T P k fun e k' => e.node.Fits T k k'
  binary : ∀ {P} level k, (g.binary level).Lays T P k fun e k' => e.node.Fits T k k'
  unary : ∀ {P} k, g.unary.Lays T P k fun e k' => e.node.Fits T k k'
  suffixed : ∀ {P} k, g.suffixed.Lays T P k fun e k' => e.node.Fits T k k'
  primary : ∀ {P} k, g.primary.Lays T P k fun e k' => e.node.Fits T k k'
  body : ∀ {P} k, g.body.Lays T P k fun b k' => b.node.Fits T k k'
  block : ∀ {P} k, g.block.Lays T P k fun b k' => b.node.Fits T k k'
  conditional : ∀ {P} k, g.conditional.Lays T P k fun c k' => c.node.Fits T k k'
  statement : ∀ {P} k, g.statement.Lays T P k fun s k' => s.node.Fits T k k'

namespace Rule

variable {g : Grammar} {T : List Token} {P : Token → Prop}

/-! ### Expressions -/

theorem expression_lays (hg : g.Lays T) (k : Nat) :
    (expression g).Lays T P k fun e k' => e.node.Fits T k k' := by
  unfold expression
  refine .current_bind fun _ _ => .bind (hg.binary 1 k) fun e l hl he => .kind_bind fun x =>
    .onSameLine_bind fun _ => .ite (fun h => ?_) (.pure he)
  have hx : x = .sign .assign := of_decide_eq_true (Bool.and_eq_true_iff.1 h).1
  subst hx
  split
  · next target =>
    have htarget : target.node.Fits T k l := he
    exact .bind (.advance (present_sign _)) fun _ l₁ hl₁ _ => .bind (hg.expression l₁)
      fun value k' _ hvalue => .pure (.merge htarget.lies (Expr.lies hvalue) hl₁
        (by simp [Field.nodes, htarget.spanned, hvalue.spanned]) _)
  · exact .refuseTarget _ _

theorem join_fits {k l l' k' : Nat} {left right : Expr} (hleft : left.node.Fits T k l)
    (hright : right.node.Fits T l' k') (hl : l ≤ l') (c : Connective) :
    (c.join left right).node.Fits T k k' := by
  cases c with
  | operator op =>
    exact .merge (Expr.lies hleft) (Expr.lies hright) hl
      (by simp [Field.nodes, hleft.spanned, hright.spanned]) _
  | range =>
    exact .merge (Expr.lies hleft) (Expr.lies hright) hl
      (by simp [Field.nodes, hleft.spanned, hright.spanned]) _

theorem binaryTurn_lays (hg : g.Lays T) (level : Nat) {left : Expr} {k l : Nat}
    (hleft : left.node.Fits T k l) :
    (binaryTurn g level left).Lays T P l fun r k' => r.value.node.Fits T k k' := by
  unfold binaryTurn
  refine .onSameLine_bind fun _ => .ite (fun _ => .pure hleft) (.kind_bind fun x => ?_)
  split
  · exact .pure hleft
  · next c hc =>
    refine .ite (fun _ => .pure hleft) (.bind (.advance ?_) fun _ l₁ hl₁ _ =>
      .bind (hg.binary _ l₁) fun right k' _ hright => .pure (join_fits hleft hright hl₁ c))
    rintro t rfl ht
    rw [ht] at hc
    cases hc

theorem binary_lays (hg : g.Lays T) (level k : Nat) :
    (Rule.binary g level).Lays T P k fun e k' => e.node.Fits T k k' := by
  unfold Rule.binary
  exact .bind (hg.unary k) fun e l _ he =>
    .loop (Q := fun (e : Expr) k' => e.node.Fits T k k') he
      fun _ _ _ hleft => binaryTurn_lays hg level hleft

theorem increment_before_lays (hg : g.Lays T) (hP : Present P) (direction : Direction) (k : Nat) :
    (advance >>= fun sign => g.unary >>= fun target =>
      increment sign target direction .before).Lays T P k fun e k' => e.node.Fits T k k' := by
  refine .bind (.advance hP) fun sign l hl hsign => .bind (hg.unary l) fun target k' _ he => ?_
  unfold increment
  split
  · next name =>
    have hname : name.node.Fits T l k' := he
    exact .pure (.merge hsign.2 hname.lies (Nat.le_refl l) (by simp [Field.nodes, hname.spanned]) _)
  · exact .refuseTarget _ _

theorem increment_after_lays {sign : Token} {target : Expr} {k l k' : Nat}
    (he : target.node.Fits T k l) (hsign : sign.span.Lies T l k') (direction : Direction) :
    (increment sign target direction .after).Lays T P k' fun e k' => e.node.Fits T k k' := by
  unfold increment
  split
  · next name =>
    have hname : name.node.Fits T k l := he
    exact .pure (.merge hname.lies hsign (Nat.le_refl l) (by simp [Field.nodes, hname.spanned]) _)
  · exact .refuseTarget _ _

theorem unary_lays (hg : g.Lays T) (k : Nat) :
    (unary g).Lays T P k fun e k' => e.node.Fits T k k' := by
  unfold unary
  refine .kind_bind fun x => ?_
  split
  · exact .bind (.advance (present_keyword _)) fun sign l hl hsign => .bind (hg.unary l)
      fun e k' _ he => .pure (.merge hsign.2 (Expr.lies he) (Nat.le_refl l)
        (by simp [Field.nodes, he.spanned]) _)
  · exact .bind (.advance (present_sign _)) fun sign l hl hsign => .bind (hg.unary l)
      fun e k' _ he => .pure (.merge hsign.2 (Expr.lies he) (Nat.le_refl l)
        (by simp [Field.nodes, he.spanned]) _)
  · exact increment_before_lays hg (present_sign _) _ k
  · exact increment_before_lays hg (present_sign _) _ k
  · exact hg.suffixed k

theorem argumentTurn_lays (hg : g.Lays T) {done : List Expr} {k l : Nat} (hl : k ≤ l)
    (hdone : Node.FitAll T k l (Expr.nodes done)) :
    (argumentTurn g done).Lays T P l fun r k' => Node.FitAll T k k' (Expr.nodes r.value) := by
  unfold argumentTurn
  refine .bind (.accept (present_sign _)) fun _ l₁ hl₁ _ => ?_
  have hdone₁ := hdone.mono (Nat.le_refl k) hl₁
  exact .ite (fun _ => .kind_bind fun _ => .ite (fun _ => .pure hdone₁)
    (.bind (hg.expression l₁) fun e k' hk' he => .pure
      (.cons (he.mono (Nat.le_trans hl hl₁) (Nat.le_refl k')) (hdone₁.mono (Nat.le_refl k) hk'))))
    (.pure hdone₁)

theorem arguments_lays (hg : g.Lays T) (k : Nat) :
    (arguments g).Lays T P k fun es k' => Node.FitAll T k k' (Expr.nodes es) := by
  unfold arguments
  refine .kind_bind fun _ => .ite (fun _ => .pure .nil) (.bind (hg.expression k) fun e l hl he =>
    .bind (.loop (Q := fun es k' => Node.FitAll T k k' (Expr.nodes es)) (.cons he .nil)
      fun done l' hl' hdone => argumentTurn_lays hg (Nat.le_trans hl hl') hdone)
        fun es k' _ hes => .pure ?_)
  rw [Expr.nodes_reverse]
  exact hes.reverse

theorem call_lays (hg : g.Lays T) {callee : Expr} {k l : Nat} (hcallee : callee.node.Fits T k l) :
    (call g callee).Lays T P l
      fun e k' => e.node.Fits T k k' := by
  unfold call
  exact .bind (.expect (present_sign _) _) fun _ l₁ hl₁ _ =>
    .bind (.inBrackets (arguments_lays hg l₁)) fun es l₂ hl₂ hes =>
      .bind (.expect (present_sign _) _) fun _ k' hk' _ =>
        .spanFrom_bind (Expr.lies hcallee) (by omega) fun span hspan => .pure
          (Expr.extend_fits hcallee hspan (.children (hes.mono hl₁ hk') .nil _) _ _)

/-- The fields that stand between square brackets. -/
def Subscript.fields : Subscript → List Field
  | .position value => [.child "index" value.node]
  | .stretch start stop step => Expr.optionalField "start" start ++
      Expr.optionalField "end" stop ++ Expr.optionalField "step" step

theorem optional_lays (hg : g.Lays T) (leftOut : Bool) (k : Nat) :
    (optional g leftOut).Lays T P k
      fun o k' => ∀ name, Field.Fit T k k' (Expr.optionalField name o) := by
  unfold optional
  exact .ite (fun _ => .pure fun _ => .nil)
    (.map (hg.expression k) fun _ _ _ he name => .child he .nil name)

theorem stride_lays (hg : g.Lays T) (k : Nat) :
    (stride g).Lays T P k fun o k' => ∀ name, Field.Fit T k k' (Expr.optionalField name o) := by
  unfold stride
  refine .bind (.accept (present_sign _)) fun _ l hl _ => .ite (fun _ => .kind_bind fun _ => ?_)
    (.pure fun _ => .nil)
  exact .imp (optional_lays hg _ l) fun _ k' _ ho name => (ho name).mono hl (Nat.le_refl k')

theorem stretch_lays (hg : g.Lays T) {start : Option Expr} {k l : Nat} (hl : k ≤ l)
    (hstart : ∀ name, Field.Fit T k l (Expr.optionalField name start)) :
    (stretch g start).Lays T P l fun x k' => Field.Fit T k k' x.fields := by
  rw [stretch_eq]
  refine .kind_bind fun _ => .bind (optional_lays hg _ l) fun stop l₁ hl₁ hstop =>
    .bind (stride_lays hg l₁) fun step k' hk' hstep => .pure ?_
  exact .append (.append ((hstart _).mono (Nat.le_refl k) (Nat.le_trans hl₁ hk'))
    ((hstop _).mono hl hk')) ((hstep _).mono (Nat.le_trans hl hl₁) (Nat.le_refl k'))

theorem subscript_lays (hg : g.Lays T) (k : Nat) :
    (subscript g).Lays T P k fun x k' => Field.Fit T k k' x.fields := by
  unfold subscript
  refine .bind (.accept (present_sign _)) fun _ l hl _ => .ite
    (fun _ => stretch_lays hg hl fun _ => .nil) (.bind (hg.expression l) fun e l₁ hl₁ he =>
      .bind (.accept (present_sign _)) fun _ l₂ hl₂ _ => ?_)
  have hvalue := he.mono hl hl₂
  exact .ite (fun _ => stretch_lays hg (by omega) fun _ => .child hvalue .nil _)
    (.pure (.child hvalue .nil _))

theorem subscripted_lays (hg : g.Lays T) {target : Expr} {k l : Nat}
    (htarget : target.node.Fits T k l) :
    (subscripted g target).Lays T P l
      fun e k' => e.node.Fits T k k' := by
  unfold subscripted
  refine .bind (.expect (present_sign _) _) fun _ l₁ hl₁ _ =>
    .bind (.inBrackets (subscript_lays hg l₁)) fun found l₂ hl₂ hfound => ?_
  cases found with
  | position value =>
    exact .bind (.expect (present_sign _) _) fun _ k' hk' _ =>
      .spanFrom_bind (Expr.lies htarget) (by omega) fun span hspan => .pure
        (Expr.extend_fits htarget hspan (hfound.mono hl₁ hk') _ _)
  | stretch start stop step =>
    exact .bind (.expect (present_sign _) _) fun _ k' hk' _ =>
      .spanFrom_bind (Expr.lies htarget) (by omega) fun span hspan => .pure
        (Expr.extend_fits htarget hspan (hfound.mono hl₁ hk') _ _)

theorem suffixTurn_lays (hg : g.Lays T) {operand : Expr} {k l : Nat}
    (hoperand : operand.node.Fits T k l) :
    (suffixTurn g operand).Lays T P l fun r k' => r.value.node.Fits T k k' := by
  unfold suffixTurn
  refine .onSameLine_bind fun _ => .ite (fun _ => .pure hoperand) (.kind_bind fun x => ?_)
  split
  · exact .bind (call_lays hg hoperand) fun _ _ _ he => .pure he
  · exact .bind (subscripted_lays hg hoperand) fun _ _ _ he => .pure he
  · exact .bind (.advance (present_sign _)) fun sign k' hk' hsign =>
      .bind (increment_after_lays hoperand hsign.2 _) fun _ _ _ he => .pure he
  · exact .bind (.advance (present_sign _)) fun sign k' hk' hsign =>
      .bind (increment_after_lays hoperand hsign.2 _) fun _ _ _ he => .pure he
  · exact .pure hoperand

theorem suffixed_lays (hg : g.Lays T) (k : Nat) :
    (suffixed g).Lays T P k fun e k' => e.node.Fits T k k' := by
  unfold suffixed
  exact .bind (hg.primary k) fun e l _ he =>
    .loop (Q := fun (e : Expr) k' => e.node.Fits T k k') he fun _ _ _ he => suffixTurn_lays hg he

theorem parameters_lays {closing : TokenKind} (k : Nat) :
    (parameters closing).Lays T P k fun _ _ => True := by
  unfold parameters parameterNames
  refine .kind_bind fun _ => .ite (fun _ => .pure trivial) (.bind (.expectName _) fun _ _ _ _ =>
    .bind (.loop (Q := fun _ _ => True) trivial fun done _ _ _ => ?_) fun _ _ _ _ => .pure trivial)
  unfold parameterTurn
  exact .bind (.accept (present_sign _)) fun _ _ _ _ => .ite (fun _ => .kind_bind fun _ =>
    .ite (fun _ => .pure trivial) (.bind (.expectName _) fun _ _ _ _ => .pure trivial))
      (.pure trivial)

/-- The block and the statement behind an arrow stand at the same place. -/
theorem body_lays (hg : g.Lays T) (k : Nat) :
    (body g).Lays T P k fun b k' => b.node.Fits T k k' := by
  unfold body
  refine .kind_bind fun x => .ite (fun hx => ?_) (hg.block k)
  subst hx
  refine .bind (.advance (present_sign _)) fun arrow l hl harrow =>
    .bind (.outsideBrackets (hg.expression l)) fun value k' hk' hvalue => .pure ?_
  have hspan := harrow.2.merge (Expr.lies hvalue) (Nat.le_refl l)
  have hreturn : (Stmt.returning (arrow.span.merge value.span) (some value)).node.Fits T
      k k' :=
    .merge harrow.2 (Expr.lies hvalue) (Nat.le_refl l) (by
      simp [Expr.optionalField, Field.nodes, hvalue.spanned]) _
  exact .branch hspan (.children (.cons (hreturn.within (Nat.le_refl _) (Nat.le_refl _)) .nil)
    .nil _) _

theorem lambda_lays (hg : g.Lays T) (k : Nat) :
    (lambda g).Lays T P k fun e k' => e.node.Fits T k k' := by
  unfold lambda
  exact .bind (.expect (present_sign _) _) fun start l _ hstart =>
    .bind (parameters_lays l) fun _ l₁ hl₁ _ =>
    .bind (.expect (present_sign _) _) fun _ l₂ hl₂ _ =>
    .bind (hg.body l₂) fun b k' hk' hb =>
    .spanFrom_bind hstart (by omega) fun span hspan =>
    .pure (Expr.function_fits hspan (hb.mono (by omega) (Nat.le_refl k')) _ _)

theorem group_lays (hg : g.Lays T) (hP : Present P) (k : Nat) :
    (group g).Lays T P k fun e k' => e.node.Fits T k k' := by
  unfold group
  exact .bind (.advance hP) fun _ l hl _ => .bind (.inBrackets (hg.expression l))
    fun e l₁ _ he => .bind (.expect (present_sign _) _) fun _ k' hk' _ => .pure (he.mono hl hk')

/-- An expression of one token. -/
theorem token_lays {t : Token} (ht : Present fun u => u = t) {e : Expr} (k : Nat)
    (he : e.node.children = []) (hspan : e.span = t.span) :
    (advance *> pure e : Parser Expr).Lays T (fun u => u = t) k
      fun e k' => e.node.Fits T k k' := by
  intro s a s' hs hat hrun
  rw [run_advance_seq, run_pure] at hrun
  cases hrun
  obtain ⟨hlies, hskip⟩ := hat.skip (ht _ hs)
  rw [hs, ← hspan, ← Expr.span_node] at hlies hskip
  refine ⟨_, Nat.le_of_lt (Nat.lt_of_le_of_lt hlies.le_start hlies.lt), hskip,
    Node.spanned_iff.2 ⟨hlies.drawn, ?_⟩, hlies⟩
  rw [he]
  exact nofun

theorem primary_lays (hg : g.Lays T) (k : Nat) :
    (primary g).Lays T P k fun e k' => e.node.Fits T k k' := by
  unfold primary
  refine .current_bind fun t _ => ?_
  dsimp only
  split
  · next h => exact token_lays (present_of_content (h ▸ nofun)) k rfl rfl
  · next h => exact token_lays (present_of_content (h ▸ nofun)) k rfl rfl
  · next h => exact token_lays (present_of_content (h ▸ nofun)) k rfl rfl
  · next h => exact token_lays (present_of_content (h ▸ nofun)) k rfl rfl
  · next h => exact token_lays (present_of_content (h ▸ nofun)) k rfl rfl
  · next h => exact token_lays (present_of_content (h ▸ nofun)) k rfl rfl
  · next h => exact token_lays (present_of_content (h ▸ nofun)) k rfl rfl
  · next h => exact group_lays hg (present_of_content (h ▸ nofun)) k
  · exact lambda_lays hg k
  · exact .fail _

/-! ### Statements -/

theorem blockTurn_lays (hg : g.Lays T) {done : List Stmt} {k l : Nat} (hl : k ≤ l)
    (hdone : Node.FitAll T k l (Stmt.nodes done)) :
    (blockTurn g done).Lays T P l fun r k' => Node.FitAll T k k' (Stmt.nodes r.value) := by
  unfold blockTurn
  refine .kind_bind fun _ => ?_
  split
  · exact .pure hdone
  · exact .fail _
  · exact .bind (.advance (present_sign _)) fun _ k' hk' _ => .pure (hdone.mono (Nat.le_refl k) hk')
  · exact .bind (hg.statement l) fun s k' hk' hs => .pure
      (.cons (hs.mono hl (Nat.le_refl k')) (hdone.mono (Nat.le_refl k) hk'))

theorem block_lays (hg : g.Lays T) (k : Nat) :
    (block g).Lays T P k fun b k' => b.node.Fits T k k' := by
  unfold block
  refine .bind (.expect (present_sign _) _) fun start l _ hstart => .bind (.outsideBrackets
    (.loop (Q := fun ss k' => Node.FitAll T l k' (Stmt.nodes ss)) .nil
      fun done _ hl hdone => blockTurn_lays hg hl hdone)) fun ss l₁ hl₁ hss =>
        .bind (.expect (present_sign _) _) fun _ k' hk' _ =>
          .spanFrom_bind hstart (Nat.le_trans hl₁ hk') fun span hspan => .pure ?_
  have hnodes := (hss.mono (Nat.le_refl l) hk').reverse
  rw [← Stmt.nodes_reverse] at hnodes
  exact .extend hspan (.children hnodes .nil _) _

theorem declaration_lays (hg : g.Lays T) (k : Nat) :
    (declaration g).Lays T P k fun x k' => ∃ l, l ≤ k' ∧ x.1.span.Lies T k l ∧
      x.2.2.node.Fits T l k' := by
  unfold declaration
  exact .bind (.expect (present_keyword _) _) fun start l _ hstart =>
    .bind (.expectName _) fun _ l₁ hl₁ _ =>
    .bind (.expect (present_sign _) _) fun _ l₂ hl₂ _ =>
    .bind (hg.expression l₂) fun value k' hk' hvalue =>
    .pure ⟨l, by omega, hstart, hvalue.mono (by omega) (Nat.le_refl k')⟩

theorem declarationStatement_lays (hg : g.Lays T) (k : Nat) :
    (declarationStatement g).Lays T P k fun s k' => s.node.Fits T k k' := by
  unfold declarationStatement
  exact .bind (declaration_lays hg k) fun ⟨start, _, value⟩ l₁ _ ⟨l, hl, hstart, hvalue⟩ =>
    .bind .statementEnd fun _ k' hk' _ => .spanFrom_bind hstart (Nat.le_trans hl hk')
      fun span hspan => .pure (.extend hspan
        (.entry (.child (hvalue.mono (Nat.le_refl l) hk') .nil _) _ _) _)

theorem definitionEnd_lays (arrow : Bool) (k : Nat) :
    (definitionEnd arrow).Lays T P k fun _ _ => True := by
  unfold definitionEnd
  exact .ite (fun _ => .statementEnd) (.pure trivial)

theorem definition_lays (hg : g.Lays T) (k : Nat) :
    (definition g).Lays T P k fun d k' => d.expr.node.Fits T k k' := by
  rw [definition_eq]
  exact .bind (.expect (present_keyword _) _) fun start l _ hstart =>
    .bind (.expectName _) fun _ l₁ hl₁ _ =>
    .bind (.expect (present_sign _) _) fun _ l₂ hl₂ _ =>
    .bind (parameters_lays l₂) fun _ l₃ hl₃ _ =>
    .bind (.expect (present_sign _) _) fun _ l₄ hl₄ _ =>
    .kind_bind fun _ =>
    .bind (hg.body l₄) fun b l₅ hl₅ hb =>
    .bind (definitionEnd_lays _ l₅) fun _ k' hk' _ =>
    .spanFrom_bind hstart (by omega) fun span hspan =>
    .pure (Expr.function_fits hspan (hb.mono (by omega) hk') _ _)

/-- Expressions stand between two offsets, the last of a list first. -/
def Chained (T : List Token) (k : Nat) : List Expr → Nat → Prop
  | [], k' => k ≤ k'
  | e :: es, k' => ∃ l, Chained T k es l ∧ e.node.Fits T l k'

theorem Chained.mono {es : List Expr} {k l k' : Nat} (h : Chained T k es l) (hl : l ≤ k') :
    Chained T k es k' := by
  cases es with
  | nil => exact Nat.le_trans h hl
  | cons e es =>
    obtain ⟨l', hes, he⟩ := h
    exact ⟨l', hes, he.mono (Nat.le_refl l') hl⟩

theorem decoratorTurn_lays (hg : g.Lays T) {done : List Expr} {k l : Nat}
    (hdone : Chained T k done l) :
    (decoratorTurn g done).Lays T P l fun r k' => Chained T k r.value k' := by
  unfold decoratorTurn
  exact .bind (.accept (present_sign _)) fun _ l₁ hl₁ _ => .ite
    (fun _ => .bind (hg.suffixed l₁) fun e l₂ _ he => .bind (.accept (present_sign _))
      fun _ k' hk' _ => .pure ⟨l₁, hdone.mono hl₁, he.mono (Nat.le_refl l₁) hk'⟩)
    (.pure (hdone.mono hl₁))

/-- Each call runs from its decorator, which stands before the value, to the end of the definition,
where the value ends, too. -/
theorem foldl_decorate_fits {d : Definition} {es : List Expr} {value : Expr} {k l k' : Nat}
    (hes : Chained T k es l) (hvalue : value.node.Fits T l k')
    (hstop : value.span.stop = d.span.stop) :
    (es.foldl (decorate d) value).node.Fits T k k' ∧
      (es.foldl (decorate d) value).span.stop = d.span.stop ∧
      (es.foldl (decorate d) value).span.start.offset ≤ value.span.start.offset := by
  induction es generalizing value l with
  | nil => exact ⟨hvalue.mono hes (Nat.le_refl k'), hstop, Nat.le_refl _⟩
  | cons e es ih =>
    obtain ⟨l', hes, he⟩ := hes
    -- the value ends where the definition does, so the call runs from the decorator to the value
    have hspan : e.span.merge d.span = e.span.merge value.span := by
      rw [Span.merge, Span.merge, hstop]
    have hcall : (decorate d value e).node.Fits T l' k' := by
      rw [decorate, hspan]
      exact .merge (Expr.lies he) (Expr.lies hvalue) (Nat.le_refl l)
        (by simp [Field.nodes, Expr.nodes, he.spanned, hvalue.spanned]) _
    have hbefore : e.span.start.offset ≤ value.span.start.offset := by
      have hlt := (Expr.lies he).lt
      have hle := (Expr.lies he).stop_le
      have hge := (Expr.lies hvalue).le_start
      omega
    obtain ⟨hfits, hend, hle⟩ := ih hes hcall rfl
    exact ⟨hfits, hend, Nat.le_trans hle hbefore⟩

theorem expressionStatement_fits {e : Expr} {k k' : Nat} (he : e.node.Fits T k k') :
    (Stmt.simple (.expression e)).node.Fits T k k' :=
  .branch (Expr.lies he) (.child (Expr.fits_within he (Nat.le_refl _) (Nat.le_refl _)) .nil _) _

theorem decorated_lays (hg : g.Lays T) (k : Nat) :
    (decorated g).Lays T P k fun s k' => s.node.Fits T k k' := by
  unfold decorated
  refine .bind (.loop (Q := Chained T k) (Nat.le_refl k) fun _ _ _ hdone =>
    decoratorTurn_lays hg hdone) fun es l _ hes => .kind_bind fun _ => .ite (fun _ => ?_) (.fail _)
  refine .bind (definition_lays hg l) fun d k' _ hd => .pure ?_
  obtain ⟨hvalue, hstop, hstart⟩ := foldl_decorate_fits hes hd rfl
  -- the name that is assigned stands where the definition does, and the value reaches around it
  have htarget : (Identifier.node ⟨d.span, d.name⟩).Fits T l k' := .leaf (Expr.lies hd) _ _
  exact expressionStatement_fits (.branch (Expr.lies hvalue)
    (.child (htarget.within hstart (Nat.le_of_eq (congrArg _ hstop.symm)))
      (.child (Expr.fits_within hvalue (Nat.le_refl _) (Nat.le_refl _)) .nil _) _) _)

theorem otherwise_lays (hg : g.Lays T) (k : Nat) :
    (otherwise g).Lays T P k fun o k' => Field.Fit T k k' o.fields := by
  unfold otherwise
  exact .bind (.accept (present_keyword _)) fun _ l hl _ => .ite (fun _ => .kind_bind fun _ => .ite
    (fun _ => .bind (hg.conditional l) fun c k' _ hc => .pure
      (.child (hc.mono hl (Nat.le_refl k')) .nil _))
    (.bind (hg.block l) fun b k' _ hb => .pure (.child (hb.mono hl (Nat.le_refl k')) .nil _)))
      (.pure .nil)

theorem conditional_lays (hg : g.Lays T) (k : Nat) :
    (conditional g).Lays T P k fun c k' => c.node.Fits T k k' := by
  unfold conditional
  exact .bind (.expect (present_keyword _) _) fun start l _ hstart =>
    .bind (hg.expression l) fun e l₁ hl₁ he =>
    .bind (hg.block l₁) fun b l₂ hl₂ hb =>
    .bind (otherwise_lays hg l₂) fun o k' hk' ho =>
    .spanFrom_bind hstart (by omega) fun span hspan =>
    .pure (.extend hspan (.child (he.mono (Nat.le_refl l) (by omega)) (.child (hb.mono hl₁ hk')
      (ho.mono (by omega) (Nat.le_refl k')) _) _) _)

theorem whileLoop_lays (hg : g.Lays T) (k : Nat) :
    (whileLoop g).Lays T P k fun s k' => s.node.Fits T k k' := by
  unfold whileLoop
  exact .bind (.expect (present_keyword _) _) fun start l _ hstart =>
    .bind (hg.expression l) fun e l₁ hl₁ he =>
    .bind (hg.block l₁) fun b k' hk' hb =>
    .spanFrom_bind hstart (by omega) fun span hspan =>
    .pure (.extend hspan (.child (he.mono (Nat.le_refl l) hk')
      (.child (hb.mono hl₁ (Nat.le_refl k')) .nil _) _) _)

theorem initializer_lays (hg : g.Lays T) (k : Nat) :
    (initializer g).Lays T P k
      fun o k' => Field.Fit T k k' (Simple.optionalField "initializer" o) := by
  unfold initializer
  refine .kind_bind fun _ => ?_
  split
  · exact .bind (declaration_lays hg k)
      fun ⟨start, _, value⟩ k' _ ⟨l, hl, hstart, hvalue⟩ => .spanFrom_bind hstart hl
        fun span hspan => .pure (.child
          (.extend hspan (.entry (.child hvalue .nil _) _ _) _) .nil _)
  · exact .pure .nil
  · exact .bind (hg.expression k) fun e k' _ he => .pure
      (.child (expressionStatement_fits he) .nil _)

theorem optionalBefore_lays (hg : g.Lays T) (closing : TokenKind) (k : Nat) :
    (optionalBefore g closing).Lays T P k
      fun o k' => ∀ name, Field.Fit T k k' (Expr.optionalField name o) := by
  rw [optionalBefore_eq]
  exact .kind_bind fun _ => optional_lays hg _ k

theorem countingHeader_lays (hg : g.Lays T) (k : Nat) :
    (countingHeader g).Lays T P k fun x k' => Field.Fit T k k'
      (Simple.optionalField "initializer" x.1 ++ Expr.optionalField "condition" x.2.1 ++
        Expr.optionalField "step" x.2.2) := by
  unfold countingHeader
  exact .bind (initializer_lays hg k) fun o l hl ho => .bind (.expect (present_sign _) _)
    fun _ l₁ hl₁ _ => .bind (optionalBefore_lays hg _ l₁) fun c l₂ hl₂ hc =>
      .bind (.expect (present_sign _) _) fun _ l₃ hl₃ _ => .bind (optionalBefore_lays hg _ l₃)
        fun e k' hk' he => .pure (.append (.append (ho.mono (Nat.le_refl k) (by omega))
          ((hc _).mono (by omega) (by omega))) ((he _).mono (by omega) (Nat.le_refl k')))

theorem countingLoop_lays (hg : g.Lays T) {start : Token} {k l : Nat}
    (hstart : start.span.Lies T k l) :
    (countingLoop g start).Lays T P l fun s k' => s.node.Fits T k k' := by
  unfold countingLoop
  exact .bind (.expect (present_sign _) _) fun _ l₁ hl₁ _ =>
    .bind (.inBrackets (countingHeader_lays hg l₁)) fun ⟨_, _, _⟩ l₂ hl₂ hheader =>
      .bind (.expect (present_sign _) _) fun _ l₃ hl₃ _ => .bind (hg.block l₃)
        fun b k' hk' hb => .spanFrom_bind hstart (by omega) fun span hspan =>
          .pure (.extend hspan (.append (hheader.mono hl₁ (by omega))
            (.child (hb.mono (by omega) (Nat.le_refl k')) .nil _)) _)

theorem forLoop_lays (hg : g.Lays T) (k : Nat) :
    (forLoop g).Lays T P k fun s k' => s.node.Fits T k k' := by
  unfold forLoop
  exact .bind (.expect (present_keyword _) _) fun start l _ hstart => .kind_bind fun _ => .ite
    (fun _ => countingLoop_lays hg hstart)
    (.bind (.expectName _) fun _ l₁ hl₁ _ => .bind (.expect (present_keyword _) _)
      fun _ l₂ hl₂ _ => .bind (hg.expression l₂) fun e l₃ hl₃ he => .bind (hg.block l₃)
        fun b k' hk' hb => .spanFrom_bind hstart (by omega) fun span hspan =>
          .pure (.extend hspan (.entry (.child (he.mono (by omega) hk')
            (.child (hb.mono (by omega) (Nat.le_refl k')) .nil _) _) _ _) _))

theorem returning_lays (hg : g.Lays T) (k : Nat) :
    (returning g).Lays T P k fun s k' => s.node.Fits T k k' := by
  rw [returning_eq]
  exact .bind (.expect (present_keyword _) _) fun start l _ hstart => .bind (.bind (.atStatementEnd)
    fun _ l₁ hl₁ _ => .imp (optional_lays hg _ l₁) fun o l₂ hl₂ ho name =>
      ((ho name).mono hl₁ (Nat.le_refl l₂))) fun o l₂ hl₂ ho => .bind .statementEnd
        fun _ k' hk' _ => .spanFrom_bind hstart (by omega) fun span hspan =>
          .pure (.extend hspan ((ho _).mono (Nat.le_refl l) hk') _)

theorem message_lays (k : Nat) : message.Lays T P k fun _ _ => True := by
  unfold message assertionMessage
  refine .bind (.accept (present_sign _)) fun _ l _ _ => .ite (fun _ => .map (Q := fun _ _ => True)
    (.current_bind fun t _ => ?_) fun _ _ _ _ => trivial) (.pure trivial)
  split
  · next text h =>
    exact .bind (.advance (present_of_content (h ▸ nofun))) fun _ _ _ _ => .pure trivial
  · exact .fail _

theorem assertion_lays (hg : g.Lays T) (k : Nat) :
    (assertion g).Lays T P k fun s k' => s.node.Fits T k k' := by
  rw [assertion_eq]
  refine .bind (.expect (present_keyword _) _) fun start l _ hstart =>
    .bind (hg.expression l) fun e l₁ hl₁ he =>
    .bind (message_lays l₁) fun m l₂ hl₂ _ =>
    .bind .statementEnd fun _ k' hk' _ =>
    .spanFrom_bind hstart (by omega) fun span hspan => .pure ?_
  have hmessage : Field.Fit T l k' (m.map fun m => Field.entry "message" m.quoted).toList := by
    cases m with
    | none => exact .nil
    | some m => exact .entry .nil _ _
  exact .extend hspan (.child (he.mono (Nat.le_refl l) (by omega)) hmessage _) _

theorem word_lays {make : Span → Stmt} {kind : Text}
    (hmake : ∀ span, (make span).node = .branch kind span []) (hP : Present P) (k : Nat) :
    (word make).Lays T P k fun s k' => s.node.Fits T k k' := by
  unfold word
  refine .bind (.advance hP) fun t l _ ht => .bind .statementEnd fun _ k' hk' _ => .pure ?_
  rw [hmake]
  exact .branch (ht.2.mono (Nat.le_refl k) hk') .nil _

theorem expressionStatement_lays (hg : g.Lays T) (k : Nat) :
    (expressionStatement g).Lays T P k fun s k' => s.node.Fits T k k' := by
  unfold expressionStatement
  exact .bind (hg.expression k) fun e l _ he => .bind .statementEnd fun _ k' hk' _ =>
    .pure (expressionStatement_fits (he.mono (Nat.le_refl k) hk'))

theorem statement_lays (hg : g.Lays T) (k : Nat) :
    (statement g).Lays T P k fun s k' => s.node.Fits T k k' := by
  unfold statement
  refine .kind_bind fun _ => ?_
  split
  · exact declarationStatement_lays hg k
  · exact .bind (definition_lays hg k) fun _ _ _ hd =>
      .pure (expressionStatement_fits hd)
  · exact decorated_lays hg k
  · exact .bind (hg.conditional k) fun _ _ _ hc => .pure hc
  · exact whileLoop_lays hg k
  · exact forLoop_lays hg k
  · exact returning_lays hg k
  · exact word_lays (fun _ => rfl) (present_keyword _) k
  · exact word_lays (fun _ => rfl) (present_keyword _) k
  · exact assertion_lays hg k
  · exact expressionStatement_lays hg k

theorem programTurn_lays (hg : g.Lays T) {done : List Stmt} {k l : Nat} (hl : k ≤ l)
    (hdone : Node.FitAll T k l (Stmt.nodes done)) :
    (programTurn g done).Lays T P l fun r k' => Node.FitAll T k k' (Stmt.nodes r.value) := by
  unfold programTurn
  refine .kind_bind fun _ => ?_
  split
  · exact .pure hdone
  · exact .bind (.advance (present_sign _)) fun _ k' hk' _ => .pure (hdone.mono (Nat.le_refl k) hk')
  · exact .fail _
  · exact .bind (hg.statement l) fun s k' hk' hs => .pure
      (.cons (hs.mono hl (Nat.le_refl k')) (hdone.mono (Nat.le_refl k) hk'))

end Rule

/-! ### Grammars and programs -/

namespace Grammar

open Rule

variable {T : List Token}

theorem Lays.step {g : Grammar} (hg : g.Lays T) : g.step.Lays T where
  expression := expression_lays hg
  binary := binary_lays hg
  unary := unary_lays hg
  suffixed := suffixed_lays hg
  primary := primary_lays hg
  body := body_lays hg
  block := block_lays hg
  conditional := conditional_lays hg
  statement := statement_lays hg

theorem ofDepth_lays : ∀ depth, (ofDepth depth).Lays T
  | 0 => ⟨fun _ => .tooDeep, fun _ _ => .tooDeep, fun _ => .tooDeep, fun _ => .tooDeep,
      fun _ => .tooDeep, fun _ => .tooDeep, fun _ => .tooDeep, fun _ => .tooDeep,
      fun _ => .tooDeep⟩
  | depth + 1 => (ofDepth_lays depth).step

end Grammar

namespace Program

/-- All spans of a program begin where a token of the source does, end where one does, not before
they begin, and lie within the one above them in the tree. -/
theorem parseTokensAt_spanned {depth : Nat} {file : Option Text} {source : Text}
    {tokens : List Token} {b : Block} (htokens : Token.tokenize file source = .ok tokens)
    (h : parseTokensAt depth tokens = .ok b) : b.node.Spanned tokens := by
  have hordered := Token.tokenize_ordered htokens
  obtain ⟨ts, finish, rfl, hfinish, hts⟩ := Token.tokenize_ended htokens
  obtain ⟨s', hrun⟩ := parseTokensAt_eq_ok.1 h
  obtain ⟨ss, hloop, rfl⟩ := run_program_eq_ok.1 hrun
  have hstart : (before ts finish).At (ts ++ [finish]) 0 :=
    ⟨⟨hfinish, hts⟩, fun _ ht => ht, hordered, fun hpos => absurd hpos (Nat.lt_irrefl 0)⟩
  obtain ⟨k', -, hstop, hss⟩ := Parser.Lays.loop (P := fun _ => True)
    (Q := fun ss k' => Node.FitAll (ts ++ [finish]) 0 k' (Stmt.nodes ss)) .nil
    (fun _ _ hl hdone => Rule.programTurn_lays (Grammar.ofDepth_lays depth) hl hdone) trivial
    hstart hloop
  obtain ⟨hle, hlast⟩ := hstop.le_current
  refine Node.spanned_iff.2 ⟨⟨⟨_, hstart.current_mem, rfl⟩, ⟨_, hstop.current_mem, rfl⟩, ?_⟩, ?_⟩
  · exact Nat.le_trans (hstart.current_le hstop.current_mem) hlast
  · intro n hn
    have hmem : n ∈ Stmt.nodes ss := by
      simpa [Block.node, Node.children, Field.nodes, Stmt.nodes_reverse] using hn
    obtain ⟨hspanned, ⟨t, ht, hbegin⟩, -, -, -, hend⟩ := hss n hmem
    refine ⟨⟨?_, Nat.le_trans hend (Nat.le_trans hle hlast)⟩, hspanned⟩
    rw [← hbegin]
    exact hstart.current_le ht

/-- A decorated definition reaches behind its semicolon, and with it the call and the assignment
that are made of it; the span of the sum in its body leaves out the brackets. -/
theorem parseTokensAt_spanned_decorated :
    ∃ tokens b, Token.tokenize none "@d def f(x) => (x + 1);" = .ok tokens ∧
      parseTokensAt 20 tokens = .ok b ∧
      b.node.spans.map (fun x => (x.2.start.offset, x.2.stop.offset)) =
        [(0, 23), (1, 23), (1, 23), (3, 23), (1, 23), (1, 2), (3, 23), (12, 21), (12, 21),
          (16, 21), (16, 17), (20, 21)] ∧
      b.node.Spanned tokens := by
  have hcheck : ((Token.tokenize none "@d def f(x) => (x + 1);").toOption.any fun tokens =>
      (parseTokensAt 20 tokens).toOption.any fun b =>
        b.node.spans.map (fun x => (x.2.start.offset, x.2.stop.offset)) =
          [(0, 23), (1, 23), (1, 23), (3, 23), (1, 23), (1, 2), (3, 23), (12, 21), (12, 21),
            (16, 21), (16, 17), (20, 21)]) = true := by
    decide +kernel
  obtain ⟨tokens, htokens, hcheck⟩ := exists_ok_of_any hcheck
  obtain ⟨b, hb, hcheck⟩ := exists_ok_of_any hcheck
  exact ⟨tokens, b, htokens, hb, of_decide_eq_true hcheck, parseTokensAt_spanned htokens hb⟩

end Program

end ScriptLang
