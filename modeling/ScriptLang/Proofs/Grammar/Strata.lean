import ScriptLang.Proofs.Grammar.Ample
import ScriptLang.Proofs.Grammar.Written

/-!
# Precedence by levels

`Rule.binary` reads the connectives of one level and of all tighter ones in a single loop,
and only the operands on the right by a rule of a tighter level. Here is the other reading of
precedence, `Rule.stratified`: seven levels inside one another, each of which reads operands of
the next tighter level, joined by connectives of its own. `strata` lists the tokens of each level
and the nodes they make, and nothing of the loop is used to read by it.

Both yield the same trees, complaints and tokens left ahead. The loop over a level and all
tighter ones is the loop over the tighter ones and then a loop over the level itself
(`Rule.loop_binaryTurn`), since a tighter operand ends where no tighter connective goes on. So
each level of one reading is that of the other (`Rule.run_layered`). What remains is that a
grammar of bounded depth may complain of nesting before it gets so far, and does not if it is
deep enough (`Grammar.binary_eq_stratified`).
-/

namespace ScriptLang

open ParserState ScriptLang.Parser

/-- One level of connectives: the tokens that join its operands, with the node that each of them
makes of two operands. -/
abbrev Stratum := List (TokenKind × (Span → Expr → Expr → Expr))

/-- The seven levels, the loosest one first. -/
def strata : List Stratum :=
  [[(.keyword .orWord, (.binary · .or))],
    [(.keyword .andWord, (.binary · .and))],
    [(.sign .equal, (.binary · .equal)), (.sign .notEqual, (.binary · .notEqual))],
    [(.sign .less, (.binary · .less)), (.sign .lessEqual, (.binary · .lessEqual)),
      (.sign .greater, (.binary · .greater)), (.sign .greaterEqual, (.binary · .greaterEqual))],
    [(.sign .range, .range)],
    [(.sign .plus, (.binary · .add)), (.sign .minus, (.binary · .subtract))],
    [(.sign .star, (.binary · .multiply)), (.sign .slash, (.binary · .divide))]]

namespace Rule

/-- A node over the text from its left operand to its right one. -/
def across (node : Span → Expr → Expr → Expr) (left right : Expr) : Expr :=
  node ⟨left.span.file, left.span.start, right.span.stop⟩ left right

/-- One connective of a level, on the line of its left operand unless a bracket is open, and a
right operand of the next tighter level. -/
def stratumTurn (own : Stratum) (tighter : Parser Expr) (left : Expr) : Parser (Turn Expr) := do
  let s ← get
  if s.brackets = 0 && s.current.afterBreak then pure (.done left)
  else
    match own.lookup s.current.kind with
    | none => pure (.done left)
    | some node =>
      let _ ← advance
      let right ← tighter
      pure (.again (across node left right))

/-- Operands of the next tighter level, joined by connectives of a level. -/
def stratum (own : Stratum) (tighter : Parser Expr) : Parser Expr := do
  let left ← tighter
  loop (stratumTurn own tighter) left

/-- Levels inside one another, above the operands that `prefixed` reads. -/
def stratified (prefixed : Parser Expr) : List Stratum → Parser Expr
  | [] => prefixed
  | own :: tighter => stratum own (stratified prefixed tighter)

/-- The levels from one on, the loosest of which is the first. -/
def layer (prefixed : Parser Expr) (level : Nat) : Parser Expr :=
  stratified prefixed (strata.drop (level - 1))

end Rule

/-! ### The table of levels -/

/-- The node that a connective makes of two operands. -/
def Connective.node : Connective → Span → Expr → Expr → Expr
  | .operator op => (.binary · op)
  | .range => .range

theorem Connective.join_eq (c : Connective) : c.join = Rule.across c.node := by
  cases c <;> rfl

/-- The tokens of a stratum are the connectives of a level, and make the same nodes. -/
def Stratum.IsLevel (own : Stratum) (level : Nat) : Prop :=
  ∀ k, own.lookup k = ((Connective.ofKind? k).filter (·.level = level)).map Connective.node

theorem strata_drop {level : Nat} (h : 1 ≤ level) (h' : level ≤ 7) :
    ∃ own, strata.drop (level - 1) = own :: strata.drop level ∧ own.IsLevel level := by
  obtain rfl | rfl | rfl | rfl | rfl | rfl | rfl : level = 1 ∨ level = 2 ∨ level = 3 ∨
      level = 4 ∨ level = 5 ∨ level = 6 ∨ level = 7 := by omega
  all_goals
    refine ⟨_, rfl, fun k => ?_⟩
    cases k with
    | keyword word => cases word <;> rfl
    | sign sign => cases sign <;> rfl
    | _ => rfl

namespace ParserState

variable {s : ParserState} {own : Stratum} {level : Nat} {c : Connective}

/-- The connective that may go on with the line, if there is one. -/
def connective? (s : ParserState) : Option Connective :=
  if s.onSameLine then Connective.ofKind? s.current.kind else none

/-- What a connective of a stratum that goes on with the line makes, if there is one. -/
def node? (s : ParserState) (own : Stratum) : Option (Span → Expr → Expr → Expr) :=
  if s.brackets = 0 && s.current.afterBreak then none else own.lookup s.current.kind

theorem node?_eq (h : own.IsLevel level) (s : ParserState) :
    s.node? own = (s.connective?.filter (·.level = level)).map Connective.node := by
  have hline : s.onSameLine = !(s.brackets = 0 && s.current.afterBreak) := by
    unfold onSameLine
    cases s.brackets <;> simp
  unfold node? connective?
  rw [hline, h]
  cases (s.brackets = 0 && s.current.afterBreak : Bool) <;> rfl

theorem node?_eq_none (h : own.IsLevel level) (hc : ∀ c, s.connective? = some c → c.level ≠ level) :
    s.node? own = none := by
  rw [node?_eq h, Option.map_eq_none_iff, Option.filter_eq_none_iff]
  exact fun c hmem hlevel => hc c hmem (of_decide_eq_true hlevel)

theorem node?_eq_some (h : own.IsLevel level) (hc : s.connective? = some c)
    (hlevel : c.level = level) : s.node? own = some c.node := by
  rw [node?_eq h, hc, Option.filter_some, if_pos (decide_eq_true hlevel), Option.map_some]

/-- No connective of a level or of a tighter one goes on with the line. -/
def StopsAt (s : ParserState) (level : Nat) : Prop :=
  ∀ c, s.connective? = some c → c.level < level

theorem exists_connective (h : ¬ s.StopsAt level) :
    ∃ c, s.connective? = some c ∧ level ≤ c.level := by
  obtain ⟨c, hc⟩ := Classical.not_forall.1 h
  obtain ⟨hc, hlevel⟩ := Classical.not_imp.1 hc
  exact ⟨c, hc, Nat.not_lt.1 hlevel⟩

end ParserState

/-- A parser reads a token if it succeeds, and leaves the end of the input behind those ahead. -/
def Parser.Shortens {α : Type} (p : Parser α) : Prop :=
  ∀ ⦃s a s'⦄, s.Closed → p.run s = .ok (a, s') →
    s'.Closed ∧ s'.ahead.length < s.ahead.length

/-- A loop as its first turn, and the loop again if this one goes on. -/
theorem Parser.run_loop_turn {α : Type} {turn : α → Parser (Turn α)} {I : ParserState → Prop}
    {s : ParserState} (ht : AdvancesOn I turn) (hs : I s) (a : α) :
    (loop turn a).run s =
      match (turn a).run s with
      | .ok (.again b, s') => (loop turn b).run s'
      | .ok (.done b, s') => .ok (b, s')
      | .error c => .error c := by
  rw [run_loop_on ht hs, unfoldLoop, run_bind]
  split
  · next r s₁ hr => rw [hr]; cases r <;> rfl
  · next c hr => rw [hr]

namespace Rule

variable {g : Grammar} {s : ParserState} {level : Nat} {own : Stratum}
  {prefixed tighter : Parser Expr}

/-! ### Turns -/

/-- A connective and its right operand, behind the left one. -/
def joined (join : Expr → Expr → Expr) (left : Expr) (operand : Parser Expr) :
    Parser (Turn Expr) := do
  let _ ← advance
  let right ← operand
  pure (.again (join left right))

theorem run_loop_of_stops {turn : Expr → Parser (Turn Expr)} (ht : AdvancesOn Closed turn)
    (hs : s.Closed) {left : Expr} (h : (turn left).run s = .ok (.done left, s)) :
    (loop turn left).run s = .ok (left, s) := by
  rw [run_loop_turn ht hs, h]

theorem run_loop_of_joins {turn : Expr → Parser (Turn Expr)} (ht : AdvancesOn Closed turn)
    (hs : s.Closed) {join : Expr → Expr → Expr} {left : Expr} {operand : Parser Expr}
    (h : (turn left).run s = (joined join left operand).run s) :
    (loop turn left).run s = (operand >>= fun right => loop turn (join left right)).run s.skip := by
  rw [run_loop_turn ht hs, h, joined, run_advance_bind, run_bind, run_bind]
  cases operand.run s.skip <;> rfl

theorem run_binaryTurn_elim (left : Expr) :
    (binaryTurn g level left).run s = (s.connective?.elim (pure (.done left)) fun c =>
      if c.level < level then pure (.done left)
      else joined c.join left (g.binary (c.level + 1))).run s := by
  unfold binaryTurn connective?
  rw [run_onSameLine_bind]
  cases s.onSameLine with
  | false => rfl
  | true =>
    rw [if_neg (by simp), if_pos rfl, run_kind_bind]
    cases Connective.ofKind? s.current.kind <;> rfl

theorem run_stratumTurn_elim (left : Expr) :
    (stratumTurn own tighter left).run s = ((s.node? own).elim (pure (.done left)) fun node =>
      joined (across node) left tighter).run s := by
  change (if _ then _ else _ : Parser (Turn Expr)).run s = _
  unfold node?
  split
  · rfl
  · cases own.lookup s.current.kind <;> rfl

theorem run_binaryTurn_of_stops (h : s.StopsAt level) (left : Expr) :
    (binaryTurn g level left).run s = .ok (.done left, s) := by
  rw [run_binaryTurn_elim]
  cases hc : s.connective? with
  | none => rfl
  | some c =>
    rw [Option.elim_some, if_pos (h c hc)]
    rfl

theorem run_binaryTurn_of_joins {c : Connective} (hc : s.connective? = some c)
    (hlevel : level ≤ c.level) (left : Expr) :
    (binaryTurn g level left).run s = (joined c.join left (g.binary (c.level + 1))).run s := by
  rw [run_binaryTurn_elim, hc, Option.elim_some, if_neg (Nat.not_lt.2 hlevel)]

theorem run_stratumTurn_of_stops (h : s.node? own = none) (left : Expr) :
    (stratumTurn own tighter left).run s = .ok (.done left, s) := by
  rw [run_stratumTurn_elim, h]
  rfl

theorem run_stratumTurn_of_joins {node : Span → Expr → Expr → Expr} (h : s.node? own = some node)
    (left : Expr) :
    (stratumTurn own tighter left).run s = (joined (across node) left tighter).run s := by
  rw [run_stratumTurn_elim, h, Option.elim_some]

/-! ### What is read -/

theorem skip_shortens {operand : Parser Expr} (h : operand.Shortens) {e : Expr}
    {s' : ParserState} (hs : s.Closed) (hr : operand.run s.skip = .ok (e, s')) :
    s'.Closed ∧ s'.ahead.length < s.ahead.length := by
  obtain ⟨hs', hlt⟩ := h (s := s.skip) (by rwa [Closed, skip_finish]) hr
  exact ⟨hs', Nat.lt_of_lt_of_le hlt (length_skip_le s)⟩

theorem joined_shortens {operand : Parser Expr} (h : operand.Shortens)
    (join : Expr → Expr → Expr) (left : Expr) : (joined join left operand).Shortens := by
  intro s r s' hs hr
  unfold joined at hr
  rw [run_advance_bind, run_bind_eq_ok] at hr
  obtain ⟨right, s₁, hright, hr⟩ := hr
  obtain ⟨-, rfl⟩ := run_pure_eq_ok.1 hr
  exact skip_shortens h hs hright

theorem binaryTurn_advancesOn (hg : ∀ level, (g.binary level).Shortens) (level : Nat) :
    AdvancesOn Closed (binaryTurn g level) := by
  intro left s b s' hs hr
  by_cases hstop : s.StopsAt level
  · rw [run_binaryTurn_of_stops hstop] at hr
    cases hr
  · obtain ⟨c, hc, hlevel⟩ := exists_connective hstop
    rw [run_binaryTurn_of_joins hc hlevel] at hr
    exact joined_shortens (hg _) c.join left hs hr

theorem stratumTurn_advancesOn (h : tighter.Shortens) (own : Stratum) :
    AdvancesOn Closed (stratumTurn own tighter) := by
  intro left s b s' hs hr
  cases hnode : s.node? own with
  | none =>
    rw [run_stratumTurn_of_stops hnode] at hr
    cases hr
  | some node =>
    rw [run_stratumTurn_of_joins hnode] at hr
    exact joined_shortens h (across node) left hs hr

/-- The connectives of a level and their right operands leave no more tokens ahead than there
were. -/
theorem loop_stratumTurn_closed (h : tighter.Shortens) {left e : Expr} {s s' : ParserState}
    (hs : s.Closed) (hr : (loop (stratumTurn own tighter) left).run s = .ok (e, s')) :
    s'.Closed ∧ s'.ahead.length ≤ s.ahead.length := by
  have ht := stratumTurn_advancesOn h own
  cases hnode : s.node? own with
  | none =>
    rw [run_loop_of_stops ht hs (run_stratumTurn_of_stops hnode left)] at hr
    cases hr
    exact ⟨hs, Nat.le_refl _⟩
  | some node =>
    rw [run_loop_of_joins ht hs (run_stratumTurn_of_joins hnode left)] at hr
    obtain ⟨right, s₁, hright, hr⟩ := run_bind_eq_ok.1 hr
    obtain ⟨hs₁, hlt⟩ := skip_shortens h hs hright
    obtain ⟨hs', hle⟩ := loop_stratumTurn_closed h hs₁ hr
    exact ⟨hs', by omega⟩
termination_by s.ahead.length

theorem stratum_shortens (h : tighter.Shortens) (own : Stratum) :
    (stratum own tighter).Shortens := by
  intro s e s' hs hr
  obtain ⟨left, s₁, hleft, hr⟩ := run_bind_eq_ok.1 hr
  obtain ⟨hs₁, hlt⟩ := h hs hleft
  obtain ⟨hs', hle⟩ := loop_stratumTurn_closed h hs₁ hr
  exact ⟨hs', by omega⟩

theorem stratified_shortens (h : prefixed.Shortens) :
    ∀ levels, (stratified prefixed levels).Shortens
  | [] => h
  | own :: levels => stratum_shortens (stratified_shortens h levels) own

/-! ### One loop and seven -/

/-- Where a loop over the connectives from a level on has come to its end, none of them goes
on. -/
theorem stopsAt_of_loop (hg : ∀ level, (g.binary level).Shortens) {left e : Expr}
    {s s' : ParserState} (hs : s.Closed)
    (h : (loop (binaryTurn g level) left).run s = .ok (e, s')) : s'.StopsAt level := by
  have ht := binaryTurn_advancesOn hg level
  by_cases hstop : s.StopsAt level
  · rw [run_loop_of_stops ht hs (run_binaryTurn_of_stops hstop left)] at h
    cases h
    exact hstop
  · obtain ⟨c, hc, hlevel⟩ := exists_connective hstop
    rw [run_loop_of_joins ht hs (run_binaryTurn_of_joins hc hlevel left)] at h
    obtain ⟨right, s₁, hright, h⟩ := run_bind_eq_ok.1 h
    obtain ⟨hs₁, hlt⟩ := skip_shortens (hg _) hs hright
    exact stopsAt_of_loop hg hs₁ h
termination_by s.ahead.length

/-- The loop over a level and all tighter ones is the loop over the tighter ones and then the
one over the level itself, if operands of the next tighter level end where no connective of
that level goes on. -/
theorem loop_binaryTurn (hg : ∀ level, (g.binary level).Shortens)
    (hown : own.IsLevel level)
    (hstops : ∀ ⦃s e s'⦄, s.Closed → (g.binary (level + 1)).run s = .ok (e, s') →
      s'.StopsAt (level + 1)) {s : ParserState} (hs : s.Closed) (left : Expr) :
    (loop (binaryTurn g level) left).run s =
      (loop (binaryTurn g (level + 1)) left >>=
        loop (stratumTurn own (g.binary (level + 1)))).run s := by
  have ht := binaryTurn_advancesOn hg level
  have ht' := binaryTurn_advancesOn hg (level + 1)
  have hown' := stratumTurn_advancesOn (hg (level + 1)) own
  have hskip : s.skip.Closed := by rwa [Closed, skip_finish]
  by_cases hstop : s.StopsAt level
  · have hnext : s.StopsAt (level + 1) := fun c hc => Nat.lt_succ_of_lt (hstop c hc)
    have hnone : s.node? own = none := node?_eq_none hown fun c hc => Nat.ne_of_lt (hstop c hc)
    rw [run_loop_of_stops ht hs (run_binaryTurn_of_stops hstop left),
      run_bind_of_ok (run_loop_of_stops ht' hs (run_binaryTurn_of_stops hnext left)),
      run_loop_of_stops hown' hs (run_stratumTurn_of_stops hnone left)]
  · obtain ⟨c, hc, hlevel⟩ := exists_connective hstop
    rw [run_loop_of_joins ht hs (run_binaryTurn_of_joins hc hlevel left)]
    rcases Nat.eq_or_lt_of_le hlevel with heq | hlt
    · -- a connective of the level itself: the tighter loop is over, and so it is behind the
      -- right operand
      have hnext : s.StopsAt (level + 1) := by
        intro d hd
        cases hc.symm.trans hd
        exact Nat.lt_succ_of_le (Nat.le_of_eq heq.symm)
      have hnode : s.node? own = some c.node := node?_eq_some hown hc heq.symm
      rw [run_bind_of_ok (run_loop_of_stops ht' hs (run_binaryTurn_of_stops hnext left)),
        run_loop_of_joins hown' hs (run_stratumTurn_of_joins hnode left), ← c.join_eq, ← heq]
      refine run_bind_congr fun right s₁ hright => ?_
      obtain ⟨hs₁, hlt⟩ := skip_shortens (hg _) hs hright
      rw [loop_binaryTurn hg hown hstops hs₁, run_bind_of_ok (run_loop_of_stops ht' hs₁
        (run_binaryTurn_of_stops (hstops hskip hright) _))]
    · -- a tighter connective: both loops go on with it
      have htighter := run_loop_of_joins ht' hs (run_binaryTurn_of_joins hc hlt left)
      rw [run_bind (loop (binaryTurn g (level + 1)) left), htighter, ← run_bind, bind_assoc]
      refine run_bind_congr fun right s₁ hright => ?_
      obtain ⟨hs₁, hlt⟩ := skip_shortens (hg _) hs hright
      exact loop_binaryTurn hg hown hstops hs₁ _
termination_by s.ahead.length

/-- A grammar with the levels above the operands that `prefixed` reads. -/
def layered (prefixed : Parser Expr) : Grammar :=
  { Grammar.bottom with unary := prefixed, binary := layer prefixed }

theorem layer_shortens (h : prefixed.Shortens) (level : Nat) : (layer prefixed level).Shortens :=
  stratified_shortens h _

/-- Each level reads what a single loop over it and all tighter levels reads. -/
theorem run_layered (h : prefixed.Shortens) {level : Nat} (h₁ : 1 ≤ level) (h₈ : level ≤ 8)
    {s : ParserState} (hs : s.Closed) :
    (layer prefixed level).run s = (Rule.binary (layered prefixed) level).run s := by
  have hlayers : ∀ level, ((layered prefixed).binary level).Shortens := layer_shortens h
  rcases Nat.eq_or_lt_of_le h₈ with rfl | h₇
  · -- above the tightest level there is nothing to join
    change prefixed.run s = (prefixed >>= loop (binaryTurn (layered prefixed) 8)).run s
    rw [run_bind]
    cases hr : prefixed.run s with
    | error c => rfl
    | ok x =>
      obtain ⟨left, s₁⟩ := x
      have hstop : s₁.StopsAt 8 := fun c _ => Nat.lt_succ_of_le c.level_le
      dsimp only
      rw [run_loop_of_stops (binaryTurn_advancesOn hlayers 8) (h hs hr).1
        (run_binaryTurn_of_stops hstop left)]
  · obtain ⟨own, hdrop, hown⟩ := strata_drop h₁ (Nat.le_of_lt_succ h₇)
    have htighter : ∀ {s : ParserState}, s.Closed → (layer prefixed (level + 1)).run s =
        (Rule.binary (layered prefixed) (level + 1)).run s :=
      fun hs => run_layered h (by omega) (by omega) hs
    have hstops : ∀ ⦃s e s'⦄, s.Closed → ((layered prefixed).binary (level + 1)).run s =
        .ok (e, s') → s'.StopsAt (level + 1) := by
      intro s e s' hs hr
      obtain ⟨left, s₁, hleft, hr⟩ := run_bind_eq_ok.1 ((htighter hs).symm.trans hr)
      exact stopsAt_of_loop hlayers (h hs hleft).1 hr
    have hlayer : layer prefixed level =
        (layer prefixed (level + 1) >>= loop (stratumTurn own (layer prefixed (level + 1)))) := by
      unfold layer
      rw [hdrop]
      rfl
    rw [hlayer, run_bind, htighter hs, ← run_bind]
    change ((prefixed >>= loop (binaryTurn (layered prefixed) (level + 1))) >>= _).run s =
      (prefixed >>= loop (binaryTurn (layered prefixed) level)).run s
    rw [bind_assoc]
    refine run_bind_congr fun left s₁ hleft => ?_
    exact (loop_binaryTurn hlayers hown hstops (h hs hleft).1 left).symm
termination_by 8 - level

theorem joined_approximatesAt {p q : Parser Expr} {s : ParserState}
    (h : p.ApproximatesAt q s.skip) (join : Expr → Expr → Expr) (left : Expr) :
    (joined join left p).ApproximatesAt (joined join left q) s := by
  unfold joined ApproximatesAt
  rw [run_advance_bind, run_advance_bind]
  exact h.bind fun _ _ _ => .inr rfl

/-- A loop over turns that complain of nesting or do what others do. -/
theorem loop_approximatesAt {α : Type} {turn turn' : α → Parser (Turn α)}
    (ht : AdvancesOn Closed turn) (ht' : AdvancesOn Closed turn')
    (h : ∀ ⦃a s⦄, s.Closed → (turn a).ApproximatesAt (turn' a) s) {a : α} {s : ParserState}
    (hs : s.Closed) : (loop turn a).ApproximatesAt (loop turn' a) s := by
  unfold ApproximatesAt
  rw [run_loop_turn ht hs, run_loop_turn ht' hs]
  rcases h (a := a) hs with ⟨c, hc, hcause⟩ | heq
  · rw [hc]
    exact .inl ⟨c, rfl, hcause⟩
  · rw [← heq]
    split
    · next b s₁ hr =>
      obtain ⟨hs₁, hlt⟩ := ht hs hr
      exact loop_approximatesAt ht ht' h hs₁
    · exact .inr rfl
    · exact .inr rfl
termination_by s.ahead.length

end Rule

namespace Grammar

open Rule

/-- A parser that reads tokens when it is deep enough reads them at any depth. -/
theorem shortens_of_fits {p : Nat → Parser Expr}
    (hdeeper : ∀ {m n}, n ≤ m → (p n).Approximates (p m))
    (hfits : ∀ {d n}, 6 * n + 3 < d → (p d).Fits (fun _ => True) n 1) (n : Nat) :
    (p n).Shortens := by
  intro s e s' hs hr
  obtain ⟨m, hnm, hm⟩ : ∃ m, n ≤ m ∧ 6 * s.ahead.length + 3 < m :=
    ⟨n + (6 * s.ahead.length + 4), by omega, by omega⟩
  rcases hdeeper hnm s with ⟨c, hc, -⟩ | heq
  · rw [hr] at hc
    cases hc
  · obtain ⟨hfinish, hlength⟩ := (hfits hm hs trivial (Nat.le_refl _)).2 (heq.symm.trans hr)
    exact ⟨by rw [Closed, hfinish]; exact hs, by omega⟩

theorem unary_shortens (n : Nat) : (ofDepth n).unary.Shortens :=
  shortens_of_fits (p := fun n => (ofDepth n).unary) (fun h => (ofDepth_approximates h).unary)
    (fun h => (ample_ofDepth _).unary (by omega)) n

theorem binary_shortens (n level : Nat) : ((ofDepth n).binary level).Shortens :=
  shortens_of_fits (p := fun n => (ofDepth n).binary level)
    (fun h => (ofDepth_approximates h).binary level)
    (fun h => (ample_ofDepth _).binary level h) n

/-- A grammar complains of nesting or reads what the levels above the operands of a deeper one
read. -/
theorem binary_approximatesAt {m n level : Nat} (hn : n ≤ m) (h₁ : 1 ≤ level) (h₈ : level ≤ 8)
    {s : ParserState} (hs : s.Closed) :
    ((ofDepth n).binary level).ApproximatesAt (layer (ofDepth m).unary level) s := by
  induction n generalizing level s with
  | zero => exact Approximates.of_tooDeep _ s
  | succ n ih =>
    have hlayers := layer_shortens (unary_shortens m)
    unfold ApproximatesAt
    rw [run_layered (unary_shortens m) h₁ h₈ hs]
    change (Rule.binary (ofDepth n) level).ApproximatesAt _ s
    refine ((ofDepth_approximates (by omega)).unary s).bind fun left s₁ hleft => ?_
    refine loop_approximatesAt (binaryTurn_advancesOn (binary_shortens n) level)
      (binaryTurn_advancesOn hlayers level) (fun left s hs => ?_) (unary_shortens n hs hleft).1
    unfold ApproximatesAt
    by_cases hstop : s.StopsAt level
    · rw [run_binaryTurn_of_stops hstop, run_binaryTurn_of_stops hstop]
      exact .inr rfl
    · obtain ⟨c, hc, hlevel⟩ := exists_connective hstop
      rw [run_binaryTurn_of_joins hc hlevel, run_binaryTurn_of_joins hc hlevel]
      have hright : ((ofDepth n).binary (c.level + 1)).ApproximatesAt
          (layer (ofDepth m).unary (c.level + 1)) s.skip :=
        ih (by omega) (by omega) (Nat.succ_le_succ c.level_le) (by rwa [Closed, skip_finish])
      exact joined_approximatesAt hright c.join left

/-- The single loop reads what seven levels inside one another read: the same tree or complaint,
and the same tokens are left ahead, wherever a reading begins and however many brackets are
open. Only a grammar of too little depth may complain of nesting instead. -/
theorem binary_eq_stratified {s : ParserState} (hs : s.finish.content = .endOfInput) {m : Nat}
    (hm : 6 * s.ahead.length + 3 < m) :
    ¬ Outgrown ((Rule.stratified (ofDepth m).unary strata).run s) ∧
      ∀ n, ((ofDepth n).binary 1).run s = (Rule.stratified (ofDepth m).unary strata).run s ∨
        n ≤ 6 * s.ahead.length + 3 ∧ Outgrown (((ofDepth n).binary 1).run s) := by
  have hample : ∀ {n}, 6 * s.ahead.length + 3 < n → ¬ Outgrown (((ofDepth n).binary 1).run s) :=
    fun hn => ((ample_ofDepth _).binary (P := fun _ => True) 1 hn hs trivial (Nat.le_refl _)).1
  have hlayer : ∀ {n}, n ≤ m → ((ofDepth n).binary 1).ApproximatesAt
      (Rule.stratified (ofDepth m).unary strata) s :=
    fun hn => binary_approximatesAt hn (Nat.le_refl 1) (by decide) hs
  have heq : ((ofDepth m).binary 1).run s = (Rule.stratified (ofDepth m).unary strata).run s :=
    (hlayer (Nat.le_refl m)).resolve_left (hample hm)
  refine ⟨heq ▸ hample hm, fun n => ?_⟩
  by_cases hn : 6 * s.ahead.length + 3 < n
  · rcases Nat.le_total n m with hnm | hmn
    · exact .inl ((hlayer hnm).resolve_left (hample hn))
    · have hdeeper := ((ofDepth_approximates hmn).binary 1 s).resolve_left (hample hm)
      exact .inl (hdeeper.symm.trans heq)
  · exact (hlayer (by omega)).symm.imp_right fun h => ⟨by omega, h⟩

/-- The first line from one offset to another. -/
def columns (i j : Nat) : Span := ⟨none, ⟨1, i + 1, i⟩, ⟨1, j + 1, j⟩⟩

/-- Tokens on the first line and the end of the input behind them. -/
def onFirstLine (contents : List Token.Content) : ParserState :=
  let tokens := contents.zipIdx.map fun (content, i) => ⟨content, [], columns i (i + 1), false⟩
  let stop := columns contents.length contents.length
  ⟨tokens, ⟨.endOfInput, [], stop, false⟩, stop.stop, 0⟩

/-- A chain of connectives of five levels. -/
theorem binary_eq_stratified_mixed :
    let s := onFirstLine [.identifier "a", .keyword .orWord, .integer 1, .sign .range, .integer 2,
      .sign .plus, .integer 3, .sign .star, .integer 4, .sign .equal, .identifier "b"]
    let sum : Expr := .binary (columns 4 9) .add (.literal (columns 4 5) (.integer 2))
      (.binary (columns 6 9) .multiply (.literal (columns 6 7) (.integer 3))
        (.literal (columns 8 9) (.integer 4)))
    let tree : Expr := .binary (columns 0 11) .or (.identifier ⟨columns 0 1, "a"⟩)
      (.binary (columns 2 11) .equal
        (.range (columns 2 9) (.literal (columns 2 3) (.integer 1)) sum)
        (.identifier ⟨columns 10 11, "b"⟩))
    s.finish.content = .endOfInput ∧ 6 * s.ahead.length + 3 < 70 ∧
      (Rule.stratified (ofDepth 70).unary strata).run s = .ok (tree, { s with ahead := [] }) ∧
      ((ofDepth 70).binary 1).run s = .ok (tree, { s with ahead := [] }) := by
  intro s sum tree
  have hfinish : s.finish.content = .endOfInput := rfl
  have hm : 6 * s.ahead.length + 3 < 70 := by decide
  have hread : (Rule.stratified (ofDepth 70).unary strata).run s =
      .ok (tree, { s with ahead := [] }) := rfl
  refine ⟨hfinish, hm, hread, ?_⟩
  exact (((binary_eq_stratified hfinish hm).2 70).resolve_right fun h => by omega).trans hread

end Grammar

end ScriptLang
