import ScriptLang.Proofs.Grammar.Ample
import ScriptLang.Proofs.Grammar.Steady
import ScriptLang.Proofs.Grammar.Takes
import ScriptLang.Proofs.Token.Scan

/-!
# Reading makes progress

`ParserState.StandsAt tokens i n` says that a parser stands before the token at the position `i`
with `n` brackets counted. A rule that returns has moved on, not beyond the end of the input, and
counts as many brackets as before (`Rule.IsRule.length_lt`, `Rule.IsRule.steady`); so has a turn
of a loop after which the loop goes on (`Rule.Repeated.advances`). Only a program may be read
without moving on, as there may be nothing in it, and a turn that ends a loop.

So no loop goes on forever, and with rules as deep as there are tokens a program is read or refused
for another reason than its nesting (`Program.parseTokensAt_settles`).
-/

namespace ScriptLang

open ScriptLang.Parser ParserState

namespace ParserState

/-- A parser stands before the token at the position `i`, with `n` brackets counted. -/
structure StandsAt (tokens : List Token) (i n : Nat) (s : ParserState) : Prop where
  ahead : s.ahead ++ [s.finish] = tokens.drop i
  brackets : s.brackets = n

namespace StandsAt

variable {tokens : List Token} {i n : Nat} {s s' : ParserState} {ps : List Position}

theorem length_eq (h : s.StandsAt tokens i n) : i + s.ahead.length + 1 = tokens.length := by
  have := congrArg List.length h.ahead
  rw [List.length_append, List.length_drop] at this
  simp only [List.length_cons, List.length_nil] at this
  omega

theorem unique {j m : Nat} (h : s.StandsAt tokens i n) (h' : s.StandsAt tokens j m) : i = j := by
  have := h.length_eq
  have := h'.length_eq
  omega

theorem ended (h : s.StandsAt tokens i n) (ht : Token.Ended tokens) : s.Ended := by
  obtain ⟨ts, finish, rfl, hfinish, hts⟩ := ht
  have hlength := h.length_eq
  rw [List.length_append, List.length_singleton] at hlength
  have hahead := h.ahead
  rw [List.drop_append_of_le_length (by omega)] at hahead
  obtain ⟨hinit, hlast⟩ := List.append_inj' hahead rfl
  cases hlast
  exact ⟨hfinish, fun t hmem => hts t (List.mem_of_mem_drop (hinit ▸ hmem))⟩

/-- What moves on in the tokens ahead moves on in all of them. -/
theorem leaves (h : s.StandsAt tokens i n) (hl : Leaves s ps s') :
    s'.StandsAt tokens (i + (s.ahead.length - s'.ahead.length)) n := by
  obtain ⟨xs, hxs⟩ := hl.ahead
  have hlength : s.ahead.length - s'.ahead.length = xs.length := by
    rw [← hxs, List.length_append]
    omega
  refine ⟨?_, hl.brackets.trans h.brackets⟩
  rw [hlength, ← List.drop_drop, ← h.ahead, ← hxs, hl.finish, List.append_assoc,
    List.drop_left]

theorem passes (h : s.StandsAt tokens i n) (hl : Leaves s ps s')
    (hlt : s'.ahead.length < s.ahead.length) :
    ∃ j, i < j ∧ j < tokens.length ∧ s'.StandsAt tokens j n := by
  have := h.length_eq
  exact ⟨_, by omega, by omega, h.leaves hl⟩

end StandsAt

end ParserState

namespace Rule

variable {g : Grammar} {s s' : ParserState}

/-! ### Rules that no other lemma follows to their end -/

theorem parameterNames_lt {closing : TokenKind} (hs : s.Ended) {names : List Text}
    (h : (parameterNames closing).run s = .ok (names, s')) :
    s'.ahead.length < s.ahead.length := by
  unfold parameterNames at h
  rw [run_bind_eq_ok] at h
  obtain ⟨first, s₁, hf, h⟩ := h
  obtain ⟨hname, rfl⟩ := run_expectName_eq_ok.1 hf
  have hne : s.ahead ≠ [] := hs.ahead_ne_nil (k := .identifier) (by simp [Token.kind, hname]; rfl)
    (by simp)
  have hl : Leaves s.skip [] s' :=
    Steady.bind (.loop (parameterTurn_steady closing) [first]) (fun _ => .pure _) h
  exact Nat.lt_of_le_of_lt hl.length_le (length_skip_lt hne)

/-- The loop over the decorators that were read reads nothing: behind it a parser stands where it
stood behind the definition. -/
theorem run_decorated_eq_ok {stmt : Stmt} (h : (decorated g).run s = .ok (stmt, s')) :
    ∃ decorators s₁ d, (loop (decoratorTurn g) []).run s = .ok (decorators, s₁) ∧
      (definition g).run s₁ = .ok (d, s') := by
  unfold decorated at h
  rw [run_bind_eq_ok] at h
  obtain ⟨decorators, s₁, hd, h⟩ := h
  rw [run_kind_bind, run_ite] at h
  split at h
  · obtain ⟨d, s₂, hdef, h⟩ := run_bind_eq_ok.1 h
    obtain ⟨rfl, rfl⟩ := run_pure_eq_ok.1 h
    exact ⟨decorators, s₁, d, hd, hdef⟩
  · rw [run_fail] at h
    cases h

/-- Each decorator is read from a token of its own. -/
theorem decorators_length_le (hg : g.Sound) (hs : s.Ended) {decorators : List Expr}
    (h : (loop (decoratorTurn g) []).run s = .ok (decorators, s')) :
    decorators.length + s'.ahead.length ≤ s.ahead.length := by
  refine loop_induction (decoratorTurn_advances hg)
    (P := fun es s₁ => es.length + s₁.ahead.length ≤ s.ahead.length)
    (Q := fun es s₁ => es.length + s₁.ahead.length ≤ s.ahead.length) ?_ ?_ hs (by simp) h
  · intro es s₁ ds s₂ hP hs₁ h
    rcases run_decoratorTurn_eq_ok h with ⟨-, hr, rfl⟩ | ⟨e, s₃, -, -, hr⟩ <;> cases hr
    exact hP
  · intro es s₁ ds s₂ hP hs₁ h
    have hlt := (decoratorTurn_advances hg hs₁ h).2
    rcases run_decoratorTurn_eq_ok h with ⟨-, hr, -⟩ | ⟨e, s₃, -, -, hr⟩ <;> cases hr
    rw [List.length_cons]
    omega

theorem decorated_lt (hg : g.Sound) (hsteady : g.Steady) (hs : s.Ended) {stmt : Stmt}
    (h : (decorated g).run s = .ok (stmt, s')) : s'.ahead.length < s.ahead.length := by
  obtain ⟨decorators, s₁, d, hd, hdef⟩ := run_decorated_eq_ok h
  have hl := Steady.loop (decoratorTurn_steady hsteady) [] hd
  exact Nat.lt_of_lt_of_le (definition_reads hg (hl.ended hs) hdef).lt hl.length_le

theorem program_steady (hg : g.Steady) : (program g).Steady :=
  .current_bind fun _ => .bind (.loop (programTurn_steady hg) []) fun _ =>
    .current_bind fun _ => .pure _

theorem program_ends (hg : g.Sound) (hs : s.Ended) {b : Block}
    (h : (program g).run s = .ok (b, s')) : s'.ahead = [] := by
  unfold program at h
  rw [run_current_bind, run_bind_eq_ok] at h
  obtain ⟨ss, s₁, hss, h⟩ := h
  rw [run_current_bind] at h
  obtain ⟨rfl, rfl⟩ := run_pure_eq_ok.1 h
  refine loop_induction (programTurn_advances hg) (P := fun _ _ => True)
    (Q := fun _ s₁ => s₁.ahead = []) ?_ (fun _ _ _ _ _ _ _ => trivial) hs trivial hss
  intro a s₂ b s₃ _ hs₂ h
  rcases run_programTurn_eq_ok h with ⟨hk, -, rfl⟩ | ⟨-, hr, -⟩ | ⟨stmt, -, hr⟩
  · exact hs₂.current_kind_iff.1 hk
  · cases hr
  · cases hr

theorem run_program_of_nil (hg : g.Sound) (hs : s.Ended) (h : s.ahead = []) :
    ∃ b, (program g).run s = .ok (b, s) := by
  have hturn : (programTurn g []).run s = .ok (.done [], s) := by
    unfold programTurn
    rw [run_kind_bind, hs.current_kind_iff.2 h]
    rfl
  have hloop := run_loop_of_done (programTurn_advances hg) hs hturn
  unfold program
  rw [run_current_bind, run_bind_of_ok hloop, run_current_bind]
  exact ⟨_, rfl⟩

theorem run_binaryTurn_of_nil (hs : s.Ended) (h : s.ahead = []) (level : Nat) (left : Expr) :
    (binaryTurn g level left).run s = .ok (.done left, s) := by
  unfold binaryTurn
  rw [run_onSameLine_bind, run_ite, run_kind_bind, hs.current_kind_iff.2 h]
  split <;> rfl

/-! ### Rules and the loops in them -/

/-- The rules over a grammar. -/
inductive IsRule (g : Grammar) : {α : Type} → Parser α → Prop
  | expression : IsRule g (expression g)
  | binary (level : Nat) : IsRule g (Rule.binary g level)
  | unary : IsRule g (unary g)
  | suffixed : IsRule g (suffixed g)
  | call (callee : Expr) : IsRule g (call g callee)
  | subscripted (target : Expr) : IsRule g (subscripted g target)
  | primary : IsRule g (primary g)
  | lambda : IsRule g (lambda g)
  | parameterNames (closing : TokenKind) : IsRule g (parameterNames closing)
  | body : IsRule g (body g)
  | block : IsRule g (block g)
  | statement : IsRule g (statement g)
  | declaration : IsRule g (declaration g)
  | declarationStatement : IsRule g (declarationStatement g)
  | definition : IsRule g (definition g)
  | definitionStatement : IsRule g (definitionStatement g)
  | decorated : IsRule g (decorated g)
  | conditional : IsRule g (conditional g)
  | whileLoop : IsRule g (whileLoop g)
  | forLoop : IsRule g (forLoop g)
  | countingLoop (start : Token) : IsRule g (countingLoop g start)
  | returning : IsRule g (returning g)
  | assertion : IsRule g (assertion g)

/-- The turns of the loops in the rules over a grammar. -/
inductive Repeated (g : Grammar) : {α : Type} → (α → Parser (Turn α)) → Prop
  | binary (level : Nat) : Repeated g (binaryTurn g level)
  | suffix : Repeated g (suffixTurn g)
  | argument : Repeated g (argumentTurn g)
  | parameter (closing : TokenKind) : Repeated g (parameterTurn closing)
  | block : Repeated g (blockTurn g)
  | decorator : Repeated g (decoratorTurn g)
  | program : Repeated g (programTurn g)

section

variable {α : Type} {p : Parser α} {turn : α → Parser (Turn α)} {a : α}

theorem IsRule.steady (h : IsRule g p) (hg : g.Steady) : p.Steady := by
  cases h with
  | expression => exact expression_steady hg
  | binary level => exact binary_steady hg level
  | unary => exact unary_steady hg
  | suffixed => exact suffixed_steady hg
  | call callee => exact call_steady hg callee
  | subscripted target => exact subscripted_steady hg target
  | primary => exact primary_steady hg
  | lambda => exact lambda_steady hg
  | parameterNames closing => exact parameterNames_steady closing
  | body => exact body_steady hg
  | block => exact block_steady hg
  | statement => exact statement_steady hg
  | declaration => exact declaration_steady hg
  | declarationStatement => exact declarationStatement_steady hg
  | definition => exact definition_steady hg
  | definitionStatement => exact definitionStatement_steady hg
  | decorated => exact decorated_steady hg
  | conditional => exact conditional_steady hg
  | whileLoop => exact whileLoop_steady hg
  | forLoop => exact forLoop_steady hg
  | countingLoop start => exact countingLoop_steady hg start
  | returning => exact returning_steady hg
  | assertion => exact assertion_steady hg

theorem IsRule.length_lt (h : IsRule g p) (hg : g.Sound) (hsteady : g.Steady)
    (hs : s.Ended) (hr : p.run s = .ok (a, s')) : s'.ahead.length < s.ahead.length := by
  cases h with
  | expression => exact (expression_reads hg hs hr).lt
  | binary level => exact (binary_reads hg level hs hr).lt
  | unary => exact (unary_reads hg hs hr).lt
  | suffixed => exact (suffixed_reads hg hs hr).lt
  | call callee =>
    obtain ⟨arguments, -, -, hl⟩ := call_reads hg hs hr
    have hk := (run_expect_bind_eq_ok.1 hr).1
    exact Nat.lt_of_le_of_lt hl.length_le (length_skip_lt (hs.ahead_ne_nil hk (by simp)))
  | subscripted target =>
    obtain ⟨later, -, -, hl⟩ := subscripted_reads hg hs hr
    have hk := (run_expect_bind_eq_ok.1 hr).1
    exact Nat.lt_of_le_of_lt hl.length_le (length_skip_lt (hs.ahead_ne_nil hk (by simp)))
  | primary => exact (primary_reads hg hs hr).lt
  | lambda => exact (lambda_reads hg hs hr).lt
  | parameterNames closing => exact parameterNames_lt hs hr
  | body => exact (body_reads hg hs hr .body).lt
  | block => exact (block_reads hg hs hr .outside).lt
  | statement => exact (statement_reads hg hs hr .outside).lt
  | declaration => exact (declaration_reads hg hs hr).lt
  | declarationStatement => exact (declarationStatement_reads hg hs hr .outside).lt
  | definition => exact (definition_reads hg hs hr).lt
  | definitionStatement => exact (definitionStatement_reads hg hs hr .outside).lt
  | decorated => exact decorated_lt hg hsteady hs hr
  | conditional => exact (conditional_reads hg hs hr .outside).lt
  | whileLoop => exact (whileLoop_reads hg hs hr .outside).lt
  | forLoop => exact (forLoop_reads hg hs hr .outside).lt
  | countingLoop start => exact (countingLoop_reads hg hs hr .outside).lt
  | returning => exact (returning_reads hg hs hr .outside).lt
  | assertion => exact (assertion_reads hg hs hr .outside).lt

theorem Repeated.steady (h : Repeated g turn) (hg : g.Steady) (a : α) : (turn a).Steady := by
  cases h with
  | binary level => exact binaryTurn_steady hg level a
  | suffix => exact suffixTurn_steady hg a
  | argument => exact argumentTurn_steady hg a
  | parameter closing => exact parameterTurn_steady closing a
  | block => exact blockTurn_steady hg a
  | decorator => exact decoratorTurn_steady hg a
  | program => exact programTurn_steady hg a

theorem Repeated.advances (h : Repeated g turn) (hg : g.Sound) : Advances turn := by
  cases h with
  | binary level => exact binaryTurn_advances hg level
  | suffix => exact suffixTurn_advances hg
  | argument => exact argumentTurn_advances hg
  | parameter closing => exact parameterTurn_advances closing
  | block => exact blockTurn_advances hg
  | decorator => exact decoratorTurn_advances hg
  | program => exact programTurn_advances hg

end

end Rule

namespace Program

open Rule Grammar

variable {tokens : List Token}

theorem initialState?_standsAt {s : ParserState} (h : initialState? tokens = some s) :
    s.StandsAt tokens 0 0 := by
  obtain ⟨finish, hfinish, rfl⟩ := Option.map_eq_some_iff.1 h
  obtain ⟨ts, rfl⟩ := List.getLast?_eq_some_iff.1 hfinish
  exact ⟨by simp, rfl⟩

theorem exists_standsAt_end (ht : Token.Ended tokens) :
    ∃ s : ParserState, s.StandsAt tokens (tokens.length - 1) 0 ∧ s.ahead = [] := by
  obtain ⟨ts, finish, rfl, -⟩ := ht
  exact ⟨⟨[], finish, finish.span.stop, 0⟩, ⟨by simp, rfl⟩, rfl⟩

/-- With rules as deep as there are tokens, and deeper, a program is read or refused, and not for
its nesting. -/
theorem parseTokensAt_settles (ht : Token.Ended tokens) :
    ∃ r, ¬ Outgrown r ∧ ∀ depth, 6 * tokens.length ≤ depth → parseTokensAt depth tokens = r := by
  have hfits : ¬ Outgrown (parseTokensAt (6 * tokens.length) tokens) := by
    obtain ⟨ts, finish, rfl, hfinish, hts⟩ := ht
    rw [parseTokensAt_append, List.length_append, List.length_singleton]
    have hprogram := (program_fits (P := fun _ => True) (n := ts.length)
      (ample_ofDepth (6 * (ts.length + 1))) (by omega) (s := ⟨ts, finish, finish.span.stop, 0⟩)
      hfinish trivial (Nat.le_refl _)).1
    intro ⟨c, hc, hcause⟩
    refine hprogram ⟨c, ?_, hcause⟩
    cases hrun : (Rule.program (ofDepth (6 * (ts.length + 1)))).run
        ⟨ts, finish, finish.span.stop, 0⟩ with
    | error c' => rw [hrun] at hc; cases hc; rfl
    | ok x => rw [hrun] at hc; cases hc
  exact ⟨_, hfits, fun depth hdepth =>
    ((parseTokensAt_approximates hdepth tokens).resolve_left hfits).symm⟩

/-- A rule that returns has moved on and counts as many brackets as before, and so has a turn after
which a loop goes on; a program is read to its end. Statements start with no bracket counted. So no
loop goes on forever, and tokens are read as a program or refused when rules may be as deep as they
need to be. -/
theorem parsing_progresses (ht : Token.Ended tokens) :
    (∀ depth {α : Type} {p : Parser α}, IsRule (ofDepth depth) p →
      ∀ {i n s a s'}, s.StandsAt tokens i n → p.run s = .ok (a, s') →
        ∃ j, i < j ∧ j < tokens.length ∧ s'.StandsAt tokens j n) ∧
    (∀ depth {i n s b s'}, s.StandsAt tokens i n →
      (Rule.program (ofDepth depth)).run s = .ok (b, s') →
        s'.StandsAt tokens (tokens.length - 1) n) ∧
    (∀ q depth, divertedOfDepth q depth = (ofDepth depth).divert q ∧
      ∀ s : ParserState, s.brackets = 0 →
        (Rule.program (divertedOfDepth q depth)).run s = (Rule.program (ofDepth depth)).run s) ∧
    (∀ depth {α : Type} {turn : α → Parser (Turn α)}, Repeated (ofDepth depth) turn →
      ∀ {i n s}, s.StandsAt tokens i n → ∀ a,
        (∀ b s', (turn a).run s = .ok (.again b, s') →
          ∃ j, i < j ∧ j < tokens.length ∧ s'.StandsAt tokens j n) ∧
        (loop turn a).run s = (unfoldLoop turn a).run s) ∧
    (∀ depth {i n s stmt s'}, s.StandsAt tokens i n →
      (Rule.decorated (ofDepth depth)).run s = .ok (stmt, s') →
        ∃ decorators j s₁ d,
          (loop (decoratorTurn (ofDepth depth)) []).run s = .ok (decorators, s₁) ∧
          s₁.StandsAt tokens j n ∧ i + decorators.length ≤ j ∧
          (Rule.definition (ofDepth depth)).run s₁ = .ok (d, s')) ∧
    ∃ r, ¬ Outgrown r ∧ ∀ depth, 6 * tokens.length ≤ depth → parseTokensAt depth tokens = r := by
  refine ⟨fun depth {α p} hp {i n s a s'} hs hr => ?_,
    fun depth {i n s b s'} hs hr => ?_,
    fun q depth => ⟨divertedOfDepth_eq q depth, fun s => program_divertedOfDepth q depth⟩,
    fun depth {α turn} hturn {i n s} hs a => ⟨fun b s' hr => ?_, ?_⟩,
    fun depth {i n s stmt s'} hs hr => ?_, parseTokensAt_settles ht⟩
  · exact hs.passes (hp.steady (steady_ofDepth depth) hr)
      (hp.length_lt (sound_ofDepth depth) (steady_ofDepth depth) (hs.ended ht) hr)
  · have hend := hs.leaves (program_steady (steady_ofDepth depth) hr)
    have hlength := hs.length_eq
    rw [program_ends (sound_ofDepth depth) (hs.ended ht) hr, List.length_nil] at hend
    rwa [show tokens.length - 1 = i + (s.ahead.length - 0) by omega]
  · exact hs.passes (hturn.steady (steady_ofDepth depth) a hr)
      (hturn.advances (sound_ofDepth depth) (hs.ended ht) hr).2
  · exact run_loop (hturn.advances (sound_ofDepth depth)) (hs.ended ht) a
  · obtain ⟨decorators, s₁, d, hloop, hd⟩ := run_decorated_eq_ok hr
    have hl := Steady.loop (decoratorTurn_steady (steady_ofDepth depth)) [] hloop
    have hlength := decorators_length_le (sound_ofDepth depth) (hs.ended ht) hloop
    exact ⟨decorators, _, s₁, d, hloop, hs.leaves hl, by omega, hd⟩

/-- A declaration, read from its start. -/
theorem parsing_progresses_declaration :
    ∃ tokens s stmt s' j, Token.tokenize none "let a = |b| { b[1] }\n" = .ok tokens ∧
      Token.Ended tokens ∧ s.StandsAt tokens 0 0 ∧
      (Rule.statement (ofDepth 20)).run s = .ok (stmt, s') ∧
      0 < j ∧ j < tokens.length ∧ s'.StandsAt tokens j 0 := by
  have hcheck : ((Token.tokenize none "let a = |b| { b[1] }\n").toOption.any fun tokens =>
      (initialState? tokens).any fun s =>
        ((Rule.statement (ofDepth 20)).run s).toOption.isSome) = true := by
    decide +kernel
  obtain ⟨tokens, htokens, hcheck⟩ := exists_ok_of_any hcheck
  obtain ⟨s, hs, hcheck⟩ := (Option.any_eq_true _ _).1 hcheck
  have hended := Token.tokenize_ended htokens
  have hstands := initialState?_standsAt hs
  cases hr : (Rule.statement (ofDepth 20)).run s with
  | error c => rw [hr] at hcheck; cases hcheck
  | ok x =>
    obtain ⟨j, hj⟩ := (parsing_progresses hended).1 20 .statement hstands hr
    exact ⟨tokens, s, x.1, x.2, j, htokens, hended, hstands, hr, hj⟩

/-- A program without tokens is read where it stands, and the turn that ends a loop behind a name
reads nothing. -/
theorem parsing_may_stay :
    (∃ tokens s b, Token.tokenize none "" = .ok tokens ∧ Token.Ended tokens ∧
      s.StandsAt tokens 0 0 ∧ (Rule.program (ofDepth maxDepth)).run s = .ok (b, s) ∧
      ¬ ∃ j, 0 < j ∧ s.StandsAt tokens j 0) ∧
    ∃ tokens s, Token.tokenize none "a" = .ok tokens ∧ Token.Ended tokens ∧
      s.StandsAt tokens 1 0 ∧
      (∀ left, (binaryTurn (ofDepth maxDepth) 1 left).run s = .ok (.done left, s)) ∧
      ¬ ∃ j, 1 < j ∧ s.StandsAt tokens j 0 := by
  have hend : ∀ (source : Text) (n : Nat),
      ((Token.tokenize none source).toOption.any fun tokens => tokens.length = n + 1) = true →
      ∃ tokens, ∃ s : ParserState, Token.tokenize none source = .ok tokens ∧ Token.Ended tokens ∧
        s.StandsAt tokens n 0 ∧ s.ahead = [] := by
    intro source n hcheck
    obtain ⟨tokens, htokens, hcheck⟩ := exists_ok_of_any hcheck
    have hlength : tokens.length = n + 1 := of_decide_eq_true hcheck
    have hended := Token.tokenize_ended htokens
    obtain ⟨s, hs, hahead⟩ := exists_standsAt_end hended
    rw [hlength, Nat.add_sub_cancel] at hs
    exact ⟨tokens, s, htokens, hended, hs, hahead⟩
  refine ⟨?_, ?_⟩
  · obtain ⟨tokens, s, htokens, hended, hs, hahead⟩ := hend "" 0 (by decide +kernel)
    obtain ⟨b, hb⟩ := run_program_of_nil (sound_ofDepth maxDepth) (hs.ended hended) hahead
    exact ⟨tokens, s, b, htokens, hended, hs, hb,
      fun ⟨j, hlt, hj⟩ => Nat.ne_of_lt hlt (hs.unique hj)⟩
  · obtain ⟨tokens, s, htokens, hended, hs, hahead⟩ := hend "a" 1 (by decide +kernel)
    exact ⟨tokens, s, htokens, hended, hs, run_binaryTurn_of_nil (hs.ended hended) hahead 1,
      fun ⟨j, hlt, hj⟩ => Nat.ne_of_lt hlt (hs.unique hj)⟩

end Program

end ScriptLang
