import ScriptLang.Proofs.Grammar.Mend

/-!
# Rules at the end of the input

Every rule of a grammar is mended by itself in a grammar five levels deeper
(`Grammar.mends_ofDepth`): where an expression, a block, a name or a sign is wanted, the words
that are enough for it are taken, and then those that the rules around it want. So a program
whose input ends too early has a completion (`Program.exists_completion`).
-/

namespace ScriptLang

open ParserState ScriptLang.Parser Token.Content TokenKind

/-- The rules of a grammar are mended by those of another one, in which few words are enough
for them. -/
structure Grammar.Mends (g g' : Grammar) : Prop where
  sound : g.Sound
  sound' : g'.Sound
  fresh : g'.Fresh
  expression : ScriptLang.Mends EndsExpr g.expression g'.expression
  binary : ∀ level, ScriptLang.Mends EndsExpr (g.binary level) (g'.binary level)
  unary : ScriptLang.Mends EndsExpr g.unary g'.unary
  suffixed : ScriptLang.Mends EndsExpr g.suffixed g'.suffixed
  primary : ScriptLang.Mends EndsExpr g.primary g'.primary
  body : ScriptLang.Mends EndsExpr g.body g'.body
  block : ScriptLang.Mends Any g.block g'.block
  conditional : ScriptLang.Mends EndsExpr g.conditional g'.conditional
  statement : ScriptLang.Mends EndsBlock g.statement g'.statement

namespace Rule

variable {g g' : Grammar}

section

variable (hg : g.Mends g')
include hg

/-! ### Parts that are asked for -/

theorem expression_completes : Completes EndsExpr [zero] g.expression g'.expression :=
  .of_hungry hg.expression (hungry_of_readsExpr hg.sound.expression) hg.fresh.expression

theorem binary_completes (level : Nat) :
    Completes EndsExpr [zero] (g.binary level) (g'.binary level) :=
  .of_hungry (hg.binary level) (hungry_of_readsExpr (hg.sound.binary level))
    (hg.fresh.binary level)

theorem unary_completes : Completes EndsExpr [zero] g.unary g'.unary :=
  .of_hungry hg.unary (hungry_of_readsExpr hg.sound.unary) hg.fresh.unary

theorem suffixed_completes : Completes EndsExpr [zero] g.suffixed g'.suffixed :=
  .of_hungry hg.suffixed (hungry_of_readsExpr hg.sound.suffixed) hg.fresh.suffixed

theorem primary_completes : Completes EndsExpr [zero] g.primary g'.primary :=
  .of_hungry hg.primary (hungry_of_readsExpr hg.sound.primary) hg.fresh.primary

theorem body_completes : Completes EndsExpr braces g.body g'.body :=
  .of_hungry hg.body (hungry_of_reads hg.sound.body) hg.fresh.body

theorem block_completes : Completes Any braces g.block g'.block :=
  .of_hungry hg.block (hungry_of_reads hg.sound.block) hg.fresh.block

/-! ### Operators and operands -/

theorem assigned_completes (start : Token) (e : Expr) :
    Completes EndsExpr [] (following >>= assigned g start e)
      (following >>= assigned g' start e) := by
  refine .following_bind e (fun k s hs hne _ => ?_) rfl rfl fun k hk => assigned_of_ne ?_ start e
  · by_cases hk : k = .sign .assign
    · subst hk
      cases e with
      | identifier target =>
        exact .advance_bind hne (((expression_completes hg).mends hs.skip).andPure hs.skip _)
      | _ => exact .refuseTarget _ start
    · rw [assigned_of_ne (by simpa using hk), assigned_of_ne (by simpa using hk)]
      exact .pure e
  · exact fun h => hk.ne (by decide) (Option.some.inj h)

theorem expression_mends : Mends EndsExpr (expression g) (expression g') := fun s hs hne =>
  (((binary_completes hg 1).mends hs).bind_nil hs (assigned_completes hg s.current)
    fun _ hk => hk).of_run_eq (run_expression g s) fun q => by
      rw [run_expression, extend_current hne]

theorem operated_completes (level : Nat) (left : Expr) :
    Completes EndsExpr [] (following >>= operated g level left)
      (following >>= operated g' level left) := by
  refine .following_bind (.done left) (fun k s hs hne _ => ?_) rfl rfl fun k hk => ?_
  · unfold operated
    cases (some k).bind Connective.ofKind? with
    | none => exact .pure _
    | some c =>
      dsimp only
      split
      · exact .pure _
      · exact .advance_bind hne (((binary_completes hg _).mends hs.skip).andPure hs.skip _)
  · unfold operated
    rw [Option.bind_some, hk.1]

theorem binary_mends (level : Nat) :
    Mends EndsExpr (Rule.binary g level) (Rule.binary g' level) := by
  intro s hs _
  refine ((unary_completes hg).mends hs).bind_nil hs (fun left => ?_) fun _ hk => hk
  refine .loop (binaryTurn_advances hg.sound level) (binaryTurn_advances hg.sound' level)
    (fun left s hs => ?_) (fun left s _ hk => binaryTurn_stops level left hk) left
  exact ((operated_completes hg level left).mends hs).of_run_eq (run_binaryTurn g level left s)
    fun q => run_binaryTurn g' level left _

theorem unary_mends : Mends EndsExpr (unary g) (unary g') := by
  intro s hs hne
  refine .kind_bind hne ?_
  split
  · exact .advance_bind hne (((unary_completes hg).mends hs.skip).andPure hs.skip _)
  · exact .advance_bind hne (((unary_completes hg).mends hs.skip).andPure hs.skip _)
  · next hk => exact absurd (.inl hk) (hs.current hne)
  · next hk => exact absurd (.inr hk) (hs.current hne)
  · exact (suffixed_completes hg).mends hs

/-! ### Behind an operand -/

omit hg in
theorem argumentTurn_stops {s : ParserState} (done : List Expr) (h : s.current.kind.EndsExpr) :
    ∃ es, (argumentTurn g done).run s = .ok (.done es, s) := by
  refine ⟨done, ?_⟩
  unfold argumentTurn
  rw [run_accept_bind, if_neg (h.ne (by decide))]
  rfl

theorem argumentTurn_completes (done : List Expr) :
    Completes EndsExpr [] (argumentTurn g done) (argumentTurn g' done) := by
  refine .accept_idle (by simp) (fun _ h => h.ne (by decide)) (fun s hs => ?_) rfl rfl
  exact (Completes.kind_ite (by simp) (fun _ _ _ => .pure _) ((expression_completes hg).andPure _)
    ((hungry_of_readsExpr hg.sound.expression).bind _) (by decide)).mends hs

theorem arguments_completes : Completes EndsExpr [zero] (arguments g) (arguments g') := by
  have hloop : ∀ es, Completes EndsExpr [] (loop (argumentTurn g) es) (loop (argumentTurn g') es) :=
    .loop (argumentTurn_advances hg.sound) (argumentTurn_advances hg.sound')
      (fun es _ hs => (argumentTurn_completes hg es).mends hs) fun es _ _ hk =>
        argumentTurn_stops es hk
  exact .kind_ite (by simp) (fun _ _ _ => .pure _)
    ((expression_completes hg).bind_nil (fun e => (hloop [e]).andPure _) fun _ hk => hk)
    ((hungry_of_readsExpr hg.sound.expression).bind _) (by decide)

theorem call_mends (callee : Expr) : Mends EndsExpr (call g callee) (call g' callee) :=
  fun _ hs _ => ((Completes.sign .leftParen _).andThen fun _ =>
    (arguments_completes hg).inBrackets.bind (fun es =>
      (Completes.sign .rightParen _).andThen fun _ => (Completes.spanFrom _).andPure _)
      (.cons (by decide)) fun _ hk => hk).mends hs

theorem optional_completes :
    Completes EndsExpr [zero] (optional g false) (optional g' false) := by
  unfold optional
  rw [if_neg (by simp), if_neg (by simp), ← bind_pure_comp, ← bind_pure_comp]
  exact (expression_completes hg).andPure some

theorem optional_mends (leftOut : Bool) {s : ParserState} (hs : s.Plain) :
    MendsAt EndsExpr (optional g leftOut) (optional g' leftOut) s := by
  cases leftOut with
  | true => exact .pure none
  | false => exact (optional_completes hg).mends hs

omit hg in
theorem hungry_optional (h : g.Sound) : (optional g false).Hungry := by
  unfold optional
  rw [if_neg (by simp), ← bind_pure_comp]
  exact (hungry_of_readsExpr h.expression).bind _

theorem stride_completes : Completes EndsExpr [] (stride g) (stride g') := by
  refine .accept_idle (by simp) (fun _ h => h.ne (by decide)) (fun s hs => ?_) rfl rfl
  have hpart : Completes EndsExpr [zero]
      (kind >>= fun next => optional g (next = .sign .rightBracket))
      (kind >>= fun next => optional g' (next = .sign .rightBracket)) :=
    .kind_bind (fun _ hs _ => optional_mends hg _ hs) (hungry_optional hg.sound)
      (optional_completes hg).takes
  exact hpart.mends hs

theorem stretch_completes (start : Option Expr) :
    Completes EndsExpr [zero] (stretch g start) (stretch g' start) := by
  have hrest : ∀ stop, Completes EndsExpr []
      (stride g >>= fun step => Pure.pure (Subscript.stretch start stop step))
      (stride g' >>= fun step => Pure.pure (Subscript.stretch start stop step)) := fun stop =>
    (stride_completes hg).andPure _
  rw [stretch_eq, stretch_eq]
  exact .kind_bind
    (fun s hs _ => (optional_mends hg _ hs).bind_nil hs hrest fun _ hk => hk)
    ((hungry_optional hg.sound).bind _)
    ((optional_completes hg).takes.bind_nil (fun stop => (hrest stop).takes) fun _ hk => hk)

theorem subscript_completes : Completes EndsExpr [zero] (subscript g) (subscript g') := by
  have hcolon : ∀ k : TokenKind, k.EndsExpr → k ≠ .sign .colon := fun _ hk => hk.ne (by decide)
  refine .accept_hungry (by simp) (fun s hs => (stretch_completes hg none).mends hs)
    ((expression_completes hg).bind_nil (fun value => ?_) fun _ hk => hk)
    ((hungry_of_readsExpr hg.sound.expression).bind _) (by decide)
  exact .accept_idle (by simp) hcolon (fun s hs => (stretch_completes hg (some value)).mends hs)
    rfl rfl

omit hg in
theorem taken_completes (target : Expr) (u : Subscript) :
    Completes EndsExpr [.sign .rightBracket] (taken target u) (taken target u) := by
  cases u <;>
    exact (Completes.sign .rightBracket _).andThen fun _ => (Completes.spanFrom _).andPure _

theorem subscripted_mends (target : Expr) :
    Mends EndsExpr (subscripted g target) (subscripted g' target) :=
  fun _ hs _ => ((Completes.sign .leftBracket _).andThen fun _ =>
    (subscript_completes hg).inBrackets.bind (taken_completes target) (.cons (by decide))
      fun _ hk => hk).mends hs

theorem suffixes_completes (operand : Expr) :
    Completes EndsExpr [] (following >>= suffixes g operand)
      (following >>= suffixes g' operand) := by
  refine .following_bind (.done operand) (fun k s hs hne hk => ?_) rfl rfl fun k hk => ?_
  · obtain ⟨-, rfl, -⟩ := following_eq_some hk
    unfold suffixes
    split
    · exact (call_mends hg operand hs hne).andPure hs _
    · exact (subscripted_mends hg operand hs hne).andPure hs _
    · next hk => exact absurd (.inl (Option.some.inj hk)) (hs.current hne)
    · next hk => exact absurd (.inr (Option.some.inj hk)) (hs.current hne)
    · exact .pure _
  · unfold suffixes
    split
    · next hk' => exact absurd (Option.some.inj hk') (hk.ne (by decide))
    · next hk' => exact absurd (Option.some.inj hk') (hk.ne (by decide))
    · next hk' => exact absurd (Option.some.inj hk') (hk.ne (by decide))
    · next hk' => exact absurd (Option.some.inj hk') (hk.ne (by decide))
    · rfl

theorem suffixed_mends : Mends EndsExpr (suffixed g) (suffixed g') := by
  intro s hs _
  refine ((primary_completes hg).mends hs).bind_nil hs (fun operand => ?_) fun _ hk => hk
  refine .loop (suffixTurn_advances hg.sound) (suffixTurn_advances hg.sound')
    (fun operand s hs => ?_) (fun operand s _ hk => suffixTurn_stops operand hk) operand
  exact ((suffixes_completes hg operand).mends hs).of_run_eq (run_suffixTurn g operand s)
    fun q => run_suffixTurn g' operand _

/-! ### Functions and operands -/

omit hg in
theorem parameterTurn_stops {s : ParserState} {closing : TokenKind} (done : List Text)
    (h : s.current.kind.EndsExpr) :
    ∃ names, (parameterTurn closing done).run s = .ok (.done names, s) := by
  refine ⟨done, ?_⟩
  unfold parameterTurn
  rw [run_accept_bind, if_neg (h.ne (by decide))]
  rfl

omit hg in
theorem parameterTurn_completes {closing : TokenKind} (hend : closing ≠ .endOfInput)
    (hname : .identifier ≠ closing) (done : List Text) :
    Completes EndsExpr [] (parameterTurn closing done) (parameterTurn closing done) := by
  refine .accept_idle (by simp) (fun _ h => h.ne (by decide)) (fun s hs => ?_) rfl rfl
  exact (Completes.kind_ite hend (fun _ _ _ => .pure _) ((Completes.expectName _).andPure _)
    ((hungry_expectName _).bind _) hname).mends hs

omit hg in
theorem parameters_completes {closing : TokenKind} (hend : closing ≠ .endOfInput)
    (hname : .identifier ≠ closing) :
    Completes EndsExpr [someName] (parameters closing) (parameters closing) := by
  have hloop : ∀ names, Completes EndsExpr [] (loop (parameterTurn closing) names)
      (loop (parameterTurn closing) names) :=
    .loop (parameterTurn_advances closing) (parameterTurn_advances closing)
      (fun names _ hs => (parameterTurn_completes hend hname names).mends hs) fun names _ _ hk =>
        parameterTurn_stops names hk
  exact .kind_ite hend (fun _ _ _ => .pure _)
    ((Completes.expectName _).bind_nil (fun name => (hloop [name]).andPure _) fun _ hk => hk)
    ((hungry_expectName _).bind _) hname

theorem body_mends : Mends EndsExpr (body g) (body g') := by
  intro s hs hne
  refine .kind_bind hne ?_
  split
  · exact .advance_bind hne
      (((expression_completes hg).outsideBrackets.mends hs.skip).andPure hs.skip _)
  · exact ((block_completes hg).mends hs).mono fun k _ => k.any

theorem lambda_mends : Mends EndsExpr (lambda g) (lambda g') := by
  have hbody : ∀ (start : Token) (names : List Text), Completes EndsExpr braces
      (do let block ← g.body; return Expr.function (← spanFrom start.span) none names block)
      (do let block ← g'.body; return Expr.function (← spanFrom start.span) none names block) :=
    fun start names =>
      (body_completes hg).bind_nil (fun block => (Completes.spanFrom _).andPure _) fun _ hk => hk
  exact fun _ hs _ => ((Completes.sign .pipe _).andThen fun start =>
    (parameters_completes (by simp) (by simp)).bind (fun names =>
      (Completes.sign .pipe _).andThen fun _ => hbody start names) (.cons (by decide))
      fun _ hk => hk).mends hs

theorem group_mends : Mends EndsExpr (group g) (group g') := by
  intro s hs hne
  exact .advance_bind hne (((expression_completes hg).inBrackets.mends hs.skip).bind hs.skip
    (fun e => (Completes.sign .rightParen _).andPure _) (.cons (by decide)) (.inl fun _ hk => hk))

theorem primary_mends : Mends EndsExpr (primary g) (primary g') := by
  intro s hs hne
  have hword : ∀ e : Expr, MendsAt EndsExpr (advance *> pure e) (advance *> pure e) s := fun e =>
    (MendsAt.advance_bind (f := fun _ => pure e) hne (.pure e)).of_run_eq rfl fun _ => rfl
  refine .current_bind hne ?_
  dsimp only
  split
  case h_8 => exact group_mends hg hs hne
  case h_9 => exact lambda_mends hg hs hne
  case h_10 => exact .fail hs.toEnded hne _
  all_goals exact hword _

/-! ### Blocks and definitions -/

theorem blockTurn_completes (done : List Stmt) :
    Completes (· = .sign .rightBrace) [] (blockTurn g done) (blockTurn g' done) := by
  refine .of_hungry (fun s hs hne => .kind_bind hne ?_) (hungry_kind_bind_end (hungry_fail _))
    (.of_idle fun s _ hk => (blockTurn_stops done hk).elim fun _ h => ⟨_, h⟩)
  split
  · exact .pure _
  · exact .fail hs.toEnded hne _
  · exact .advance_bind hne (.pure _)
  · exact ((hg.statement hs hne).andPure hs _).mono fun k hk => .inl hk

theorem block_mends : Mends Any (block g) (block g') := by
  intro s hs _
  have hloop : Completes (· = .sign .rightBrace) [] (loop (blockTurn g) [])
      (loop (blockTurn g') []) :=
    .loop (blockTurn_advances hg.sound) (blockTurn_advances hg.sound')
      (fun done _ hs => (blockTurn_completes hg done).mends hs)
      (fun done _ _ hk => blockTurn_stops done hk) []
  exact ((Completes.sign .leftBrace _).andThen fun start => hloop.outsideBrackets.bind_hungry
    (fun ss => (Completes.sign .rightBrace _).andThen fun _ => (Completes.spanFrom _).andPure _)
    (.cons rfl) fun _ => (hungry_expect (by simp) _).bind _).mends hs

theorem declaration_mends : Mends EndsExpr (declaration g) (declaration g') :=
  fun _ hs _ => ((Completes.keyword .letWord _).andThen fun _ =>
    (Completes.expectName _).andThen fun _ => (Completes.sign .assign _).andThen fun _ =>
      (expression_completes hg).andPure _).mends hs

theorem declarationStatement_mends :
    Mends EndsBlock (declarationStatement g) (declarationStatement g') := by
  intro s hs hne
  exact (declaration_mends hg hs hne).bind_nil hs (fun x => Completes.statementEnd.bind_nil
    (fun _ => (Completes.spanFrom _).andPure _) fun _ hk => hk) fun _ hk => hk.endsExpr

omit hg in
theorem definitionEnd_completes (arrow : Bool) :
    Completes EndsBlock [] (definitionEnd arrow) (definitionEnd arrow) := by
  cases arrow with
  | true => exact .statementEnd
  | false => exact .pure ()

/-- A name, a pair of brackets with another one, and a pair of braces. -/
def signature : List Token.Content :=
  [someName, .sign .leftParen, someName, .sign .rightParen, .sign .leftBrace, .sign .rightBrace]

/-- What stands behind the first word of a definition. -/
def defined (g : Grammar) (start : Token) : Parser Definition := do
  let name ← expectName .functionName
  let _ ← expect (.sign .leftParen) .parametersStart
  let names ← parameters (.sign .rightParen)
  let _ ← expect (.sign .rightParen) .argumentEnd
  let next ← kind
  let block ← g.body
  definitionEnd (next = .sign .doubleArrow)
  return ⟨← spanFrom start.span, name, names, block⟩

theorem defined_completes (start : Token) :
    Completes EndsBlock signature (defined g start) (defined g' start) := by
  have hend : ∀ (name : Text) (names : List Text) (block : Block) (arrow : Bool),
      Completes EndsBlock []
        (do definitionEnd arrow; return Definition.mk (← spanFrom start.span) name names block)
        (do definitionEnd arrow; return Definition.mk (← spanFrom start.span) name names block) :=
    fun name names block arrow => (definitionEnd_completes arrow).bind_nil
      (fun _ => (Completes.spanFrom _).andPure _) fun _ hk => hk
  have hbody : ∀ (name : Text) (names : List Text), Completes EndsBlock braces
      (do let next ← kind; let block ← g.body; definitionEnd (next = .sign .doubleArrow)
          return Definition.mk (← spanFrom start.span) name names block)
      (do let next ← kind; let block ← g'.body; definitionEnd (next = .sign .doubleArrow)
          return Definition.mk (← spanFrom start.span) name names block) := fun name names =>
    .kind_bind (fun s hs _ => ((body_completes hg).mends hs).bind_nil hs
        (fun block => hend name names block _) fun _ hk => hk.endsExpr)
      ((hungry_of_reads hg.sound.body).bind _)
      ((body_completes hg).takes.bind_nil (fun block => (hend name names block _).takes)
        fun _ hk => hk.endsExpr)
  exact (Completes.expectName _).andThen fun name => (Completes.sign .leftParen _).andThen fun _ =>
    (parameters_completes (by simp) (by simp)).bind (fun names =>
      (Completes.sign .rightParen _).andThen fun _ => hbody name names) (.cons (by decide))
      fun _ hk => hk.endsExpr

omit hg in
theorem definition_eq_defined : definition g =
    expect (.keyword .defWord) (.token (.keyword .defWord)) >>= defined g := definition_eq

theorem definition_completes :
    Completes EndsBlock (.keyword .defWord :: signature) (definition g) (definition g') := by
  have hspelled : Token.Spelled signature := by
    unfold signature
    infer_instance
  rw [definition_eq_defined, definition_eq_defined]
  exact (Completes.keyword .defWord _).andThen (defined_completes hg)

/-! ### Decorators -/

omit hg in
theorem decoratorTurn_stops {s : ParserState} (done : List Expr)
    (h : s.current.kind = .keyword .defWord) :
    ∃ es, (decoratorTurn g done).run s = .ok (.done es, s) := by
  refine ⟨done, ?_⟩
  unfold decoratorTurn
  rw [run_accept_bind, if_neg (by simp [h])]
  rfl

theorem decoratorTurn_completes (done : List Expr) :
    Completes (· = .keyword .defWord) [] (decoratorTurn g done) (decoratorTurn g' done) := by
  have hsemicolon : ∀ e : Expr, Completes (· = .keyword .defWord) []
      (do let _ ← accept (.sign .semicolon); pure (Turn.again (e :: done)))
      (do let _ ← accept (.sign .semicolon); pure (Turn.again (e :: done))) := fun e =>
    .accept_idle (by simp) (by simp) (fun _ _ => .pure _) rfl rfl
  refine .accept_idle (by simp) (by simp) (fun s hs => ?_) rfl rfl
  refine ((suffixed_completes hg).mends hs).bind_nil hs hsemicolon ?_
  rintro k rfl
  decide

theorem decorated_mends : Mends EndsBlock (decorated g) (decorated g') := by
  intro s hs _
  have hloop : Completes (· = .keyword .defWord) [] (loop (decoratorTurn g) [])
      (loop (decoratorTurn g') []) :=
    .loop (decoratorTurn_advances hg.sound) (decoratorTurn_advances hg.sound')
      (fun done _ hs => (decoratorTurn_completes hg done).mends hs)
      (fun done _ _ hk => decoratorTurn_stops done hk) []
  have hspelled : Token.Spelled signature := by
    unfold signature
    infer_instance
  have hdefines : ∀ f : Definition → Stmt,
      Completes EndsBlock (.keyword .defWord :: signature)
        (kind >>= fun k => if k = .keyword .defWord then definition g >>= fun d =>
          pure (f d) else fail .decoratedFunction)
        (kind >>= fun k => if k = .keyword .defWord then definition g' >>= fun d =>
          pure (f d) else fail .decoratedFunction) := by
    intro f
    refine .kind_bind (fun s hs hne => ?_) (hungry_defining _ _)
      (.ite_pos rfl ((definition_completes hg).takes.bind_nil (fun _ => .pure _) fun _ hk => hk))
    split
    · exact ((definition_completes hg).mends hs).andPure hs _
    · exact .fail hs.toEnded hne _
  exact (hloop.mends hs).bind hs (fun decorators => hdefines _) (.cons rfl)
    (.inr fun _ => hungry_kind_bind fun k => hungry_defining k _)

/-! ### Choices and loops -/

theorem otherwise_completes : Completes EndsExpr [] (otherwise g) (otherwise g') := by
  refine .accept_idle (by simp) (fun _ h => h.ne (by decide)) (fun s hs => ?_) rfl rfl
  have hchain : Completes EndsExpr [.sign .leftBrace, .sign .rightBrace]
      (do if (← kind) = .keyword .ifWord then return Otherwise.chain (← g.conditional)
          else return .block (← g.block))
      (do if (← kind) = .keyword .ifWord then return Otherwise.chain (← g'.conditional)
          else return .block (← g'.block)) :=
    .kind_ite (by simp) (fun s hs hne => (hg.conditional hs hne).andPure hs _)
      (((block_completes hg).mono fun k _ => k.any).andPure _)
      ((hungry_of_reads hg.sound.block).bind _) (by decide)
  exact hchain.mends hs

theorem conditional_mends : Mends EndsExpr (conditional g) (conditional g') := by
  have hrest : ∀ (start : Token) (condition : Expr), Completes EndsExpr braces
      (do let body ← g.block; let rest ← otherwise g
          return Conditional.mk (← spanFrom start.span) condition body rest)
      (do let body ← g'.block; let rest ← otherwise g'
          return Conditional.mk (← spanFrom start.span) condition body rest) :=
    fun start condition => (block_completes hg).bind_nil (fun body =>
      (otherwise_completes hg).bind_nil (fun rest => (Completes.spanFrom _).andPure _)
        fun _ hk => hk) fun k _ => k.any
  exact fun _ hs _ => ((Completes.keyword .ifWord _).andThen fun start =>
    (expression_completes hg).bind (hrest start) (.cons (by decide)) fun _ hk => hk).mends hs

theorem whileLoop_mends : Mends EndsExpr (whileLoop g) (whileLoop g') := by
  have hrest : ∀ (start : Token) (condition : Expr), Completes EndsExpr braces
      (do let body ← g.block; return Stmt.whileLoop (← spanFrom start.span) condition body)
      (do let body ← g'.block; return Stmt.whileLoop (← spanFrom start.span) condition body) :=
    fun start condition => (block_completes hg).bind_nil
      (fun body => (Completes.spanFrom _).andPure _) fun k _ => k.any
  exact fun _ hs _ => ((Completes.keyword .whileWord _).andThen fun start =>
    (expression_completes hg).bind (hrest start) (.cons (by decide)) fun _ hk => hk).mends hs

theorem initializer_completes : Completes EndsExpr [zero] (initializer g) (initializer g') := by
  refine .kind_bind (fun s hs hne => ?_) ((hungry_of_readsExpr hg.sound.expression).bind _)
    ((expression_completes hg).andPure _).takes
  split
  · exact (declaration_mends hg hs hne).bind_nil hs (fun x => (Completes.spanFrom _).andPure _)
      fun _ hk => hk
  · exact .pure _
  · exact ((expression_completes hg).mends hs).andPure hs _

theorem optionalBefore_completes {closing : TokenKind} (hend : .endOfInput ≠ closing)
    (hzero : zero.kind ≠ closing) :
    Completes EndsExpr [zero] (optionalBefore g closing) (optionalBefore g' closing) := by
  rw [optionalBefore_eq, optionalBefore_eq]
  refine .kind_bind (fun s hs _ => optional_mends hg _ hs) ?_ ?_
  · rw [decide_eq_false hend]
    exact hungry_optional hg.sound
  · rw [decide_eq_false hzero]
    exact (optional_completes hg).takes

theorem countingHeader_completes :
    Completes EndsExpr [zero, .sign .semicolon, zero, .sign .semicolon, zero]
      (countingHeader g) (countingHeader g') := by
  have hsemicolon : ∀ {ws : List Token.Content} (K : TokenKind → Prop),
      Admits EndsExpr K ([.sign .semicolon] ++ ws) := fun _ => .cons (by decide)
  exact (initializer_completes hg).bind (fun start => (Completes.sign .semicolon _).andThen fun _ =>
    (optionalBefore_completes hg (by simp) (by decide)).bind (fun condition =>
      (Completes.sign .semicolon _).andThen fun _ =>
        (optionalBefore_completes hg (by simp) (by decide)).andPure _)
      (hsemicolon _) fun _ hk => hk) (hsemicolon _) fun _ hk => hk

theorem countingLoop_completes (start : Token) :
    Completes EndsExpr ([.sign .leftParen] ++
      ([zero, .sign .semicolon, zero, .sign .semicolon, zero] ++ ([.sign .rightParen] ++ braces)))
      (countingLoop g start) (countingLoop g' start) :=
  (Completes.sign .leftParen _).andThen fun _ => (countingHeader_completes hg).inBrackets.bind
    (fun _ => (Completes.sign .rightParen _).andThen fun _ => (block_completes hg).bind_nil
      (fun _ => (Completes.spanFrom _).andPure _) fun k _ => k.any) (.cons (by decide))
      fun _ hk => hk

theorem forEach_completes (start : Token) :
    Completes EndsExpr [someName, .keyword .inWord, zero, .sign .leftBrace, .sign .rightBrace]
      (do let item ← expectName .loopVariable
          let _ ← expect (.keyword .inWord) .inWord
          let iterable ← g.expression
          let body ← g.block
          return Stmt.forEach (← spanFrom start.span) item iterable body)
      (do let item ← expectName .loopVariable
          let _ ← expect (.keyword .inWord) .inWord
          let iterable ← g'.expression
          let body ← g'.block
          return Stmt.forEach (← spanFrom start.span) item iterable body) :=
  (Completes.expectName _).andThen fun _ => (Completes.keyword .inWord _).andThen fun _ =>
    (expression_completes hg).bind (fun _ => (block_completes hg).bind_nil
      (fun _ => (Completes.spanFrom _).andPure _) fun k _ => k.any) (.cons (by decide))
      fun _ hk => hk

theorem forLoop_mends : Mends EndsExpr (forLoop g) (forLoop g') :=
  fun _ hs _ => ((Completes.keyword .forWord _).andThen fun start => .kind_ite (by simp)
    (fun _ hs _ => (countingLoop_completes hg start).mends hs) (forEach_completes hg start)
    ((hungry_expectName _).bind _) (by decide)).mends hs

/-! ### Simple statements -/

theorem returned_completes :
    Completes EndsBlock [] (atStatementEnd >>= optional g) (atStatementEnd >>= optional g') := by
  have hidle : ∀ (g : Grammar) {s : ParserState}, s.current.kind.EndsBlock →
      (atStatementEnd >>= optional g).run s = .ok (none, s) := by
    intro g s hk
    have hends : endsStatement s = true := by
      rcases hk with hk | hk <;> simp [endsStatement, hk]
    rw [run_atStatementEnd_bind, hends]
    rfl
  refine .of_idle none (fun s hs hne => ?_) (fun _ hk => hidle g (.inr hk)) fun _ => hidle g'
  refine ((optional_mends hg (endsStatement s) hs).mono fun _ hk => hk.endsExpr).of_run_eq
    (run_atStatementEnd_bind _) fun q => ?_
  rw [run_atStatementEnd_bind, endsStatement, extend_current hne]
  rfl

theorem returning_mends : Mends EndsBlock (returning g) (returning g') := by
  rw [returning_eq, returning_eq]
  exact fun _ hs _ => ((Completes.keyword .returnWord _).andThen fun start =>
    (returned_completes hg).bind_nil (fun value => Completes.statementEnd.bind_nil
      (fun _ => (Completes.spanFrom _).andPure _) fun _ hk => hk) fun _ hk => hk).mends hs

omit hg in
theorem assertionMessage_completes {K : TokenKind → Prop} :
    Completes K [noText] assertionMessage assertionMessage := by
  refine .of_hungry (fun s hs hne => .current_bind hne ?_) (fun s t s' hs hnil hr => ?_)
    (.current_bind fun t ht => ?_)
  · split
    · exact .advance_bind hne (.pure _)
    · exact .fail hs.toEnded hne _
  · unfold assertionMessage at hr
    rw [run_current_bind, current_of_nil hnil, hs.finish] at hr
    exact hungry_fail _ hs hnil hr
  · rw [ht]
    exact .advance_bind fun _ _ => .pure _

omit hg in
theorem message_completes : Completes EndsExpr [] message message := by
  refine .accept_idle (by simp) (fun _ h => h.ne (by decide)) (fun s hs => ?_) rfl rfl
  rw [if_pos rfl, ← bind_pure_comp]
  exact (assertionMessage_completes.mends hs).andPure hs _

theorem assertion_mends : Mends EndsBlock (assertion g) (assertion g') := by
  have hend : ∀ (start : Token) (condition : Expr) (text : Option Text), Completes EndsBlock []
      (do statementEnd; return Stmt.assertion (← spanFrom start.span) condition text)
      (do statementEnd; return Stmt.assertion (← spanFrom start.span) condition text) :=
    fun start condition text => Completes.statementEnd.bind_nil
      (fun _ => (Completes.spanFrom _).andPure _) fun _ hk => hk
  rw [assertion_eq, assertion_eq]
  exact fun _ hs _ => ((Completes.keyword .assertWord _).andThen fun start =>
    (expression_completes hg).bind_nil (fun condition => message_completes.bind_nil
      (hend start condition) fun _ hk => hk.endsExpr) fun _ hk => hk.endsExpr).mends hs

omit hg in
theorem word_mends (make : Span → Stmt) : Mends EndsBlock (word make) (word make) :=
  fun _ hs hne => .advance_bind hne ((Completes.statementEnd.mends hs.skip).andPure hs.skip _)

theorem expressionStatement_mends :
    Mends EndsBlock (expressionStatement g) (expressionStatement g') := fun _ hs _ =>
  ((expression_completes hg).mends hs).bind_nil hs (fun _ => Completes.statementEnd.andPure _)
    fun _ hk => hk.endsExpr

theorem statement_mends : Mends EndsBlock (statement g) (statement g') := by
  intro s hs hne
  refine .kind_bind hne ?_
  split
  · exact declarationStatement_mends hg hs hne
  · exact ((definition_completes hg).mends hs).andPure hs _
  · exact decorated_mends hg hs hne
  · exact ((hg.conditional hs hne).andPure hs _).mono fun _ hk => hk.endsExpr
  · exact (whileLoop_mends hg hs hne).mono fun _ hk => hk.endsExpr
  · exact (forLoop_mends hg hs hne).mono fun _ hk => hk.endsExpr
  · exact returning_mends hg hs hne
  · exact word_mends _ hs hne
  · exact word_mends _ hs hne
  · exact assertion_mends hg hs hne
  · exact expressionStatement_mends hg hs hne

end

end Rule

/-! ### All rules -/

namespace Grammar

open Rule

variable {g g' : Grammar}

theorem Mends.step (hg : g.Mends g') : g.step.Mends g'.step where
  sound := hg.sound.step
  sound' := hg.sound'.step
  fresh := hg.fresh.step
  expression := expression_mends hg
  binary := binary_mends hg
  unary := unary_mends hg
  suffixed := suffixed_mends hg
  primary := primary_mends hg
  body := body_mends hg
  block := block_mends hg
  conditional := conditional_mends hg
  statement := statement_mends hg

/-- Nothing has to be mended where no rule is followed. -/
theorem tooDeep_mends {α : Type} (K : TokenKind → Prop) (p : Parser α) :
    ScriptLang.Mends K tooDeep p := fun _ _ _ => .of_refused run_tooDeep nofun

theorem mends_bottom (hg : g.Sound) (hfresh : g.Fresh) : bottom.Mends g where
  sound := sound_bottom
  sound' := hg
  fresh := hfresh
  expression := tooDeep_mends _ _
  binary _ := tooDeep_mends _ _
  unary := tooDeep_mends _ _
  suffixed := tooDeep_mends _ _
  primary := tooDeep_mends _ _
  body := tooDeep_mends _ _
  block := tooDeep_mends _ _
  conditional := tooDeep_mends _ _
  statement := tooDeep_mends _ _

/-- Five levels more are enough to mend all rules. -/
theorem mends_ofDepth (n : Nat) : (ofDepth n).Mends (ofDepth (n + 5)) := by
  induction n with
  | zero => exact mends_bottom (sound_ofDepth _) (fresh_ofDepth 0)
  | succ n ih => exact ih.step

end Grammar

/-! ### Programs -/

namespace Rule

variable {g g' : Grammar}

theorem programTurn_completes (hg : g.Mends g') (done : List Stmt) :
    Completes (· = .endOfInput) [] (programTurn g done) (programTurn g' done) := by
  refine .of_idle _ (fun s hs hne => .kind_bind hne ?_)
    (fun _ hk => run_programTurn_of_end hk done) fun _ hk => run_programTurn_of_end hk done
  split
  · exact .pure _
  · exact .advance_bind hne (.pure _)
  · exact .fail hs.toEnded hne _
  · exact ((hg.statement hs hne).andPure hs _).mono fun k hk => .inr hk

theorem programLoop_completes (hg : g.Mends g') :
    Completes (· = .endOfInput) [] (loop (programTurn g) []) (loop (programTurn g') []) :=
  .loop (programTurn_advances hg.sound) (programTurn_advances hg.sound')
    (fun done _ hs => (programTurn_completes hg done).mends hs)
    (fun done _ _ hk => ⟨_, run_programTurn_of_end hk done⟩) []

end Rule

namespace Program

variable {depth : Nat} {ts : List Token} {finish : Token} {c : Complaint}

/-- If the input of a program ends too early, there are words behind it that make it a
program, with five levels of rules more. Where they stand, and what stands between them, does
not matter. -/
theorem exists_completion (h : Complete ts finish) (hcounts : ∀ t ∈ ts, ¬ t.kind.Counts)
    (hc : parseTokensAt depth (ts ++ [finish]) = .error c) (hearly : c.Early) :
    ∃ ws, Token.Spelled ws ∧ ∀ (us : List Token), us.map Token.content = ws →
      (∀ t ∈ us, t.content ≠ .endOfInput) → ∀ {ts' : List Token} {finish' : Token},
        Complete ts' finish' → ts'.map Token.bare = (ts ++ us).map Token.bare →
          ∀ {deeper : Nat}, depth + 5 ≤ deeper →
            ∃ b, parseTokensAt deeper (ts' ++ [finish']) = .ok b := by
  have hs : (before ts finish).Plain := ⟨h.ended, hcounts⟩
  have hloop : (loop (Rule.programTurn (Grammar.ofDepth depth)) []).run (before ts finish) =
      .error c := by
    have hrun := parseTokensAt_eq_error.1 hc
    unfold Rule.program at hrun
    rw [run_current_bind] at hrun
    exact (run_bind_eq_error.1 hrun).resolve_right nofun
  have hg := Grammar.mends_ofDepth depth
  obtain ⟨ws, hws, hreads⟩ := ((Rule.programLoop_completes hg).mends hs).mends hloop hearly
  refine ⟨ws, hws, fun us hus hends ts' finish' h' hbare deeper hdeeper => ?_⟩
  let q : Sequel := ⟨us, finish', h'.finish, hends⟩
  have hbegins : Token.Begins q.rest ws [] := ⟨us, hus, (List.append_nil us).symm⟩
  obtain ⟨ss, s', hss, -⟩ := hreads q [] hbegins (Token.kind_eq_endOfInput.2 h'.finish)
  have hprogram := run_program_eq_ok.2 ⟨ss, hss, rfl⟩
  -- spans and a greater depth change nothing
  let empty : Sequel := ⟨[], finish', h'.finish, nofun⟩
  have hpar : Parallel empty ((before ts finish).extend q) (before ts' finish') :=
    ⟨extend_ended hs.toEnded q, h'.ended, rfl, by rw [List.append_nil]; exact hbare⟩
  have hfollows := Rule.program_follows (Grammar.continues_ofDepth empty hdeeper) hpar
  obtain ⟨b, t', hb, -⟩ := hfollows.ok hprogram (.inl (.inr rfl))
  exact ⟨b, parseTokensAt_eq_ok.2 ⟨t', hb⟩⟩

end Program

end ScriptLang
