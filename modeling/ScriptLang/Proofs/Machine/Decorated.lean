import ScriptLang.Proofs.Machine.Beside
import ScriptLang.Proofs.Session.Course

/-!
# Definitions under decorators

A definition under decorators is an assignment in which the definition itself stands as the
innermost argument (`Definition.decorated`). It should be the same as the definition with
the assignment behind it that reads the name instead (`Definition.redefined`). But the
decorators are evaluated first, so they do not find the name bound yet.

As long as they do not look for it, the two go on alike (`Decoration.Beside`): the second is
ahead by the binding of the name, and both meet where the first comes to the definition.
-/

namespace ScriptLang

open Machine

namespace Rule

namespace Definition

variable (d : Definition) (decorators : List Expr)

/-- Calls of decorators, the first of them outermost, around a value. -/
def wrapped (value : Expr) : Expr :=
  decorators.foldr (fun decorator inner => decorate d inner decorator) value

/-- The assignment of a value under decorators to the name of a definition. -/
def assigned (value : Expr) : Stmt :=
  .simple (.expression (.assignment (d.wrapped decorators value).span ⟨d.span, d.name⟩
    (d.wrapped decorators value)))

/-- A definition under decorators. -/
def decorated : Stmt := d.assigned decorators d.expr

/-- The name of a definition, read. -/
def reading : Expr := .identifier ⟨d.span, d.name⟩

/-- What is assigned once a definition has been made. -/
def redefined : Stmt := d.assigned decorators d.reading

/-- The function that a definition makes in a scope. -/
def made (scope : ScopeId) : Value := .function ⟨some d.name, d.parameters, d.body, scope, d.span⟩

/-- A definition that binds no reserved name. -/
def Free : Prop := ∀ name ∈ d.name :: d.parameters, Builtin.isReserved name = false

variable {d}

/-- Definitions under decorators are read as such assignments. -/
theorem exists_of_decorated {g : Grammar} {s s' : ParserState} {st : Stmt}
    (h : (Rule.decorated g).run s = .ok (st, s')) :
    ∃ (d : Definition) (decorators : List Expr), st = d.decorated decorators := by
  unfold Rule.decorated at h
  obtain ⟨nearest, s₁, -, h⟩ := Parser.run_bind_eq_ok.1 h
  obtain ⟨k, s₂, -, h⟩ := Parser.run_bind_eq_ok.1 h
  split at h
  · obtain ⟨d, s₃, -, h⟩ := Parser.run_bind_eq_ok.1 h
    obtain ⟨rfl, -⟩ := Parser.run_pure_eq_ok.1 h
    refine ⟨d, nearest.reverse, ?_⟩
    rw [decorated, assigned, wrapped, List.foldr_reverse]
  · rw [Parser.run_fail] at h
    cases h

theorem wrapped_reading_span :
    (d.wrapped decorators d.reading).span = (d.wrapped decorators d.expr).span := by
  cases decorators <;> rfl

/-- A definition binds its name and yields the function. -/
theorem step_expr {limits : Limits} (h : d.Free) (scope : ScopeId) (stack : Stack) (w : World)
    (calls : Nat) :
    step limits ⟨.expression d.expr scope, stack, w, calls⟩ =
      yieldValue (d.made scope) stack (bindIn scope d.name (d.made scope) w) calls := by
  have hfind : (d.name :: d.parameters).find? Builtin.isReserved = none :=
    List.find?_eq_none.2 fun name hname => by simp [h name hname]
  unfold step evaluate Definition.expr define
  dsimp only [Option.toList_some, List.singleton_append]
  rw [hfind]
  rfl

/-- Its name, once it is bound, yields the function as well. -/
theorem step_reading {limits : Limits} (h : d.Free) {scope : ScopeId} {w : World}
    (hscope : scope.index < w.store.scopes.size) (stack : Stack) (calls : Nat) :
    step limits ⟨.expression d.reading scope, stack, bindIn scope d.name (d.made scope) w,
        calls⟩ =
      yieldValue (d.made scope) stack (bindIn scope d.name (d.made scope) w) calls := by
  have hlookup : lookup d.name scope (bindIn scope d.name (d.made scope) w) =
      .ok (d.made scope) := by
    unfold lookup bindIn
    rw [if_neg (by simp [h d.name List.mem_cons_self])]
    dsimp only
    rw [Store.get?_declare_self hscope]
  unfold step evaluate reading
  dsimp only
  rw [hlookup]
  rfl

end Definition

/-- A definition under decorators where it is executed. -/
structure Decoration where
  definition : Definition
  /-- The decorators, as they are written. -/
  decorators : List Expr
  scope : ScopeId
  /-- The statements that follow. -/
  rest : List Stmt
  /-- What waits for the statements. -/
  below : Stack

namespace Decoration

variable (D : Decoration)

/-- The world with the name bound to the function. -/
def bound (w : World) : World :=
  bindIn D.scope D.definition.name (D.definition.made D.scope) w

/-- What waits for the value that is to be assigned. -/
def assigning : Stack :=
  (D.below.push (.sequence D.rest D.scope)).push
    (.operands (.assign ⟨D.definition.span, D.definition.name⟩)
      (D.definition.wrapped D.decorators D.definition.expr).span [] [] D.scope)

/-- What waits for a decorator, which is to be called with the value of an expression. -/
def calling (decorator value : Expr) : Frame :=
  .operands .call (decorator.span.merge D.definition.span) [] [value] D.scope

/-- What waits for the value that a decorator is called with. -/
def applying (found : Expr × Value) : Frame :=
  .operands .call (found.1.span.merge D.definition.span) [found.2] [] D.scope

/-- What waits for what is decorated, once some decorators have come to values. -/
def awaiting (found : List (Expr × Value)) : Stack :=
  found.foldl (fun stack p => stack.push (D.applying p)) D.assigning

/-- The configuration before the definition under decorators. -/
def before (w : World) (calls : Nat) : Config :=
  ⟨.statements (D.definition.decorated D.decorators :: D.rest) D.scope, D.below, w, calls⟩

/-- The configuration before the plain definition with the assignment behind it. -/
def beforePlain (w : World) (calls : Nat) : Config :=
  ⟨.statements (.simple (.expression D.definition.expr) ::
    D.definition.redefined D.decorators :: D.rest) D.scope, D.below, w, calls⟩

/-- The configuration in which decorators have come to values and the definition is next. -/
def atDefinition (found : List (Expr × Value)) (w : World) (calls : Nat) : Config :=
  ⟨.expression D.definition.expr D.scope, D.awaiting found, w, calls⟩

/-- The next move does not touch the name. -/
def Spares (c : Config) : Prop := c.Spares D.scope D.definition.name

variable {D} {limits : Limits} {found : List (Expr × Value)} {w w' w₁ : World}
  {calls calls₁ : Nat} {c c' : Config}

theorem awaiting_concat (found : List (Expr × Value)) (p : Expr × Value) :
    D.awaiting (found ++ [p]) = (D.awaiting found).push (D.applying p) := by
  simp [awaiting]

theorem awaiting_frames (found : List (Expr × Value)) :
    (D.awaiting found).frames = (found.map D.applying).reverse ++ D.assigning.frames := by
  unfold awaiting
  generalize D.assigning = stack
  induction found generalizing stack with
  | nil => rfl
  | cons p found ih =>
    rw [List.foldl_cons, ih]
    simp

/-! ### Stacks that differ below -/

/-- The same frames above one base and above another. -/
inductive Over (base base' : Stack) : Stack → Stack → Prop
  | base : Over base base' base base'
  | push {stack stack' : Stack} (f : Frame) :
      Over base base' stack stack' → Over base base' (stack.push f) (stack'.push f)

theorem Over.rising {base base' : Stack} (hbase : base.height = base'.height) :
    Rising (Over base base') where
  height h := by
    induction h with
    | base => exact hbase
    | push f _ ih => exact congrArg (· + 1) ih
  push h f := h.push f

theorem Over.frames {base base' stack stack' : Stack} (h : Over base base' stack stack') :
    base.frames <:+ stack.frames := by
  induction h with
  | base => exact List.suffix_rfl
  | push f _ ih => exact ih.trans (List.suffix_cons f _)

/-! ### Ahead by a binding -/

variable (D) in
/-- What waits for a decorator, when the next ones are to be called with a value. -/
def pending (found : List (Expr × Value)) (decorator : Expr) (todo : List Expr) (value : Expr) :
    Stack :=
  (D.awaiting found).push (D.calling decorator (D.definition.wrapped todo value))

/-- What there is to do before a definition under decorators is made, and the same for the
assignment that reads its name instead. -/
inductive Ahead (D : Decoration) : Control → Stack → Control → Stack → Prop
  | statements : D.Ahead
      (.statements (D.definition.decorated D.decorators :: D.rest) D.scope) D.below
      (.statements (D.definition.redefined D.decorators :: D.rest) D.scope) D.below
  | statement : D.Ahead
      (.statement (D.definition.decorated D.decorators) D.scope)
      (D.below.push (.sequence D.rest D.scope))
      (.statement (D.definition.redefined D.decorators) D.scope)
      (D.below.push (.sequence D.rest D.scope))
  | assignment {span span' : Span} : span' = span →
      span = (D.definition.wrapped D.decorators D.definition.expr).span → D.Ahead
      (.expression (.assignment span ⟨D.definition.span, D.definition.name⟩
        (D.definition.wrapped D.decorators D.definition.expr)) D.scope)
      (D.below.push (.sequence D.rest D.scope))
      (.expression (.assignment span' ⟨D.definition.span, D.definition.name⟩
        (D.definition.wrapped D.decorators D.definition.reading)) D.scope)
      (D.below.push (.sequence D.rest D.scope))
  /-- Some decorators have come to values. -/
  | wrapped (found : List (Expr × Value)) (todo : List Expr) : D.Ahead
      (.expression (D.definition.wrapped todo D.definition.expr) D.scope) (D.awaiting found)
      (.expression (D.definition.wrapped todo D.definition.reading) D.scope) (D.awaiting found)
  /-- A decorator is on its way to a value. -/
  | decorator (found : List (Expr × Value)) (decorator : Expr) (todo : List Expr)
      {control : Control} {stack stack' : Stack} :
      Over (D.pending found decorator todo D.definition.expr)
        (D.pending found decorator todo D.definition.reading) stack stack' →
      D.Ahead control stack control stack'

/-- A configuration before the definition is made, and one that is ahead of it by the binding
of the name. -/
structure Beside (D : Decoration) (c c' : Config) : Prop where
  ahead : D.Ahead c.control c.stack c'.control c'.stack
  lt : D.scope.index < c.world.store.scopes.size
  world : c'.world = D.bound c.world
  calls : c'.calls = c.calls

/-- Moves to configurations beside each other, or to the same end but for the binding. -/
inductive Alike (D : Decoration) : Next → Next → Prop
  | go {c c' : Config} : D.Beside c c' → D.Alike (.go c) (.go c')
  | halt (outcome : Outcome) (w : World) : D.Alike (.halt outcome w) (.halt outcome (D.bound w))

theorem Alike.of_beside {R : Stack → Stack → Prop} {n n' : Next}
    (h : Machine.Beside R D.scope D.definition.name (D.definition.made D.scope) n n')
    (hR : ∀ control stack stack', R stack stack' → D.Ahead control stack control stack') :
    D.Alike n n' := by
  cases h with
  | go h hlt => exact .go ⟨hR _ _ _ h, hlt, rfl, rfl⟩
  | halt => exact .halt _ _

theorem descend_alike {f f' : Frame} {control control' : Control} {stack : Stack}
    (hlt : D.scope.index < w.store.scopes.size)
    (h : D.Ahead control (stack.push f) control' (stack.push f')) :
    D.Alike (descend limits f control stack w calls)
      (descend limits f' control' stack (D.bound w) calls) := by
  unfold descend
  split
  · exact .go ⟨h, hlt, rfl, rfl⟩
  · exact .halt _ _

/-- The value of a decorator is handed to the call that waits for it. -/
theorem resume_calling_alike (hlt : D.scope.index < w.store.scopes.size)
    (found : List (Expr × Value)) (decorator : Expr) (todo : List Expr) (c : Completion) :
    D.Alike
      (resume limits (D.calling decorator (D.definition.wrapped todo D.definition.expr)) c
        (D.awaiting found) w calls)
      (resume limits (D.calling decorator (D.definition.wrapped todo D.definition.reading)) c
        (D.awaiting found) (D.bound w) calls) := by
  cases c with
  | normal v =>
    have h : D.Ahead _ _ _ _ := .wrapped (found ++ [(decorator, v)]) todo
    rw [awaiting_concat] at h
    exact descend_alike hlt h
  | _ => exact .halt _ _

theorem step_alike (h : D.Beside c c') (hspares : D.Spares c) :
    D.Alike (step limits c) (step limits c') := by
  obtain ⟨control, stack, w, calls⟩ := c
  obtain ⟨control', stack', w', calls'⟩ := c'
  obtain ⟨ahead, hlt, hworld, hcalls⟩ := h
  dsimp only at ahead hlt hworld hcalls
  subst hworld hcalls
  cases ahead with
  | statements => exact descend_alike hlt .statement
  | statement =>
    exact .go ⟨.assignment (Definition.wrapped_reading_span D.decorators) rfl, hlt, rfl, rfl⟩
  | assignment hspan' hspan =>
    subst hspan' hspan
    exact descend_alike hlt (.wrapped [] D.decorators)
  | wrapped found todo =>
    cases todo with
    -- no decorator is left, so this move makes the definition, which is one in the scope
    | nil => exact absurd rfl hspares
    | cons decorator todo => exact descend_alike hlt (.decorator found decorator todo .base)
  | decorator found decorator todo hover =>
    have hR : Rising (Over (D.pending found decorator todo D.definition.expr)
        (D.pending found decorator todo D.definition.reading)) := Over.rising rfl
    have hahead : ∀ control stack stack', Over _ _ stack stack' →
        D.Ahead control stack control stack' := fun _ _ _ => .decorator found decorator todo
    cases control with
    | deliver c =>
      cases hover with
      | base => exact resume_calling_alike hlt found decorator todo c
      | push f hover => exact .of_beside (resume_beside hR hover hlt f c hspares) hahead
    | _ => exact .of_beside (step_beside hR hover hlt _ nofun hspares) hahead

/-- What is reached without touching the name is reached ahead by the binding as well. -/
theorem exists_beside {c₀ c₀' : Config} (hb : D.Beside c₀ c₀')
    (h : ReachesVia limits D.Spares c₀ c) : ∃ c', Reaches limits c₀' c' ∧ D.Beside c c' := by
  induction h with
  | refl => exact ⟨c₀', .refl, hb⟩
  | @step e e' _ hspares hstep ih =>
    obtain ⟨c', hreach, hb'⟩ := ih
    have halike : D.Alike (step limits e) (step limits c') := step_alike hb' hspares
    rw [hstep] at halike
    cases hc' : step limits c' with
    | halt outcome w => rw [hc'] at halike; cases halike
    | go c'' =>
      rw [hc'] at halike
      cases halike with
      | go hb'' => exact ⟨c'', hreach.step hc', hb''⟩

/-- Beside the definition under decorators stands its name, read. -/
theorem Beside.reading (h : D.Beside (D.atDefinition found w calls) c') :
    c' = ⟨.expression D.definition.reading D.scope, D.awaiting found, D.bound w, calls⟩ := by
  obtain ⟨control', stack', w', calls'⟩ := c'
  obtain ⟨ahead, hlt, hworld, hcalls⟩ := h
  dsimp only [atDefinition] at ahead hlt hworld hcalls
  subst hworld hcalls
  generalize hcontrol : Control.expression D.definition.expr D.scope = control at ahead
  generalize hstack : D.awaiting found = stack at ahead
  cases ahead with
  | statements => cases hcontrol
  | statement => cases hcontrol
  | assignment => cases hcontrol
  | wrapped found todo =>
    cases todo with
    | nil => rfl
    | cons decorator todo => cases hcontrol
  | decorator found' decorator todo hover =>
    -- a decorator that is not done has a frame without values among those of the stack
    obtain ⟨above, habove⟩ := hover.frames
    rw [← hstack, awaiting_frames, pending, Stack.push_frames, awaiting_frames,
      ← List.cons_append, ← List.append_assoc] at habove
    have hmem : D.calling decorator (D.definition.wrapped todo D.definition.expr) ∈
        (found.map D.applying).reverse := by
      rw [← List.append_cancel_right habove]
      simp
    rw [List.mem_reverse, List.mem_map] at hmem
    obtain ⟨p, -, hp⟩ := hmem
    simp [applying, calling] at hp

/-! ### The two runs -/

theorem beforePlain_reaches (hfree : D.definition.Free)
    (hroom : limits.allow D.below.height = true) :
    Reaches limits (D.beforePlain w calls)
      ⟨.statements (D.definition.redefined D.decorators :: D.rest) D.scope, D.below, D.bound w,
        calls⟩ := by
  let inner := D.below.push (.sequence (D.definition.redefined D.decorators :: D.rest) D.scope)
  have hdescend : step limits (D.beforePlain w calls) =
      .go ⟨.statement (.simple (.expression D.definition.expr)) D.scope, inner, w, calls⟩ := by
    simp [beforePlain, step, descend, hroom, inner]
  have hstatement : step limits
      ⟨.statement (.simple (.expression D.definition.expr)) D.scope, inner, w, calls⟩ =
      .go ⟨.expression D.definition.expr D.scope, inner, w, calls⟩ := rfl
  have hdefine : step limits ⟨.expression D.definition.expr D.scope, inner, w, calls⟩ =
      .go ⟨.deliver (.normal (D.definition.made D.scope)), inner, D.bound w, calls⟩ :=
    Definition.step_expr hfree D.scope inner w calls
  exact (((Reaches.refl.step hdescend).step hstatement).step hdefine).step rfl

theorem exists_beside_before (hfree : D.definition.Free)
    (hscope : D.scope.index < w.store.scopes.size) (hroom : limits.allow D.below.height = true)
    (h : ReachesVia limits D.Spares (D.before w calls) c) :
    ∃ c', Reaches limits (D.beforePlain w calls) c' ∧ D.Beside c c' := by
  have hstart : D.Beside (D.before w calls)
      ⟨.statements (D.definition.redefined D.decorators :: D.rest) D.scope, D.below, D.bound w,
        calls⟩ := ⟨.statements, hscope, rfl, rfl⟩
  obtain ⟨c', hreach, hb⟩ := exists_beside hstart h
  exact ⟨c', (beforePlain_reaches hfree hroom).trans hreach, hb⟩

/-- Where no frame more is allowed, neither of the two runs makes a move. -/
theorem step_before (hroom : limits.allow D.below.height = false) :
    step limits (D.before w calls) = .halt .tooDeep w ∧
      step limits (D.beforePlain w calls) = .halt .tooDeep w := by
  simp [before, beforePlain, step, descend, hroom]

theorem eq_before (hroom : limits.allow D.below.height = false)
    (h : Reaches limits (D.before w calls) c) : c = D.before w calls := by
  rcases h.head_cases with heq | ⟨c', hc', -⟩
  · exact heq
  · rw [(step_before hroom).1] at hc'
    cases hc'

theorem bound_bound (w : World) : D.bound (D.bound w) = D.bound w := by
  simp only [bound, bindIn, Store.declare_declare]

/-- A run under decorators that ends before the name is touched ends as the plain definition
with the assignment behind it, but for the binding of the name. -/
theorem ends_of_spared (hfree : D.definition.Free) (hscope : D.scope.index < w.store.scopes.size)
    (h : ReachesVia limits D.Spares (D.before w calls) c) (hspares : D.Spares c)
    {outcome : Outcome} (hend : step limits c = .halt outcome w₁) :
    ∃ w₂, Ends limits (D.beforePlain w calls) outcome w₂ ∧ D.bound w₂ = D.bound w₁ := by
  cases hroom : limits.allow D.below.height with
  | true =>
    obtain ⟨c', hreach, hb⟩ := exists_beside_before hfree hscope hroom h
    have halike : D.Alike (step limits c) (step limits c') := step_alike hb hspares
    rw [hend] at halike
    cases hc' : step limits c' with
    | go c'' => rw [hc'] at halike; cases halike
    | halt outcome' w₂ =>
      rw [hc'] at halike
      cases halike
      exact ⟨D.bound w₁, ⟨c', hreach, hc'⟩, bound_bound w₁⟩
  | false =>
    rw [eq_before hroom h.reaches, (step_before hroom).1] at hend
    cases hend
    exact ⟨w, ⟨_, .refl, (step_before hroom).2⟩, rfl⟩

/-- If decorators come to values before the name is touched, the two runs meet, and end
alike. -/
theorem ends_iff_of_spared (hfree : D.definition.Free)
    (hscope : D.scope.index < w.store.scopes.size)
    (h : ReachesVia limits D.Spares (D.before w calls) (D.atDefinition found w₁ calls₁))
    (outcome : Outcome) (w' : World) :
    Ends limits (D.before w calls) outcome w' ↔
      Ends limits (D.beforePlain w calls) outcome w' := by
  cases hroom : limits.allow D.below.height with
  | true =>
    obtain ⟨c', hreach, hb⟩ := exists_beside_before hfree hscope hroom h
    obtain rfl := hb.reading
    let met : Config :=
      ⟨.deliver (.normal (D.definition.made D.scope)), D.awaiting found, D.bound w₁, calls₁⟩
    have hmade : step limits (D.atDefinition found w₁ calls₁) = .go met :=
      Definition.step_expr hfree _ _ _ _
    have hread : step limits ⟨.expression D.definition.reading D.scope, D.awaiting found,
        D.bound w₁, calls₁⟩ = .go met := Definition.step_reading hfree hb.lt _ _
    rw [Ends.of_reaches h.reaches, Ends.of_reaches hreach, Ends.of_step hmade, Ends.of_step hread]
  | false => cases eq_before hroom h.reaches

/-! ### Names as decorators -/

theorem descend_go (hframes : limits.frames = none) {stack : Stack} (f : Frame)
    (control : Control) :
    descend limits f control stack w calls = .go ⟨control, stack.push f, w, calls⟩ := by
  rw [descend, Limits.allow, hframes]
  rfl

/-- A name as decorator comes to its value. -/
theorem reachesVia_name (hframes : limits.frames = none) {i : Identifier} {v : Value}
    (hne : i.name ≠ D.definition.name) (hlookup : lookup i.name D.scope w = .ok v)
    (found : List (Expr × Value)) (todo : List Expr) :
    ReachesVia limits D.Spares
      ⟨.expression (D.definition.wrapped (.identifier i :: todo) D.definition.expr) D.scope,
        D.awaiting found, w, calls⟩
      ⟨.expression (D.definition.wrapped todo D.definition.expr) D.scope,
        D.awaiting (found ++ [(.identifier i, v)]), w, calls⟩ := by
  let inner := D.definition.wrapped todo D.definition.expr
  let waiting := D.pending found (.identifier i) todo D.definition.expr
  have hcall : step limits ⟨.expression (decorate D.definition inner (.identifier i)) D.scope,
      D.awaiting found, w, calls⟩ = .go ⟨.expression (.identifier i) D.scope, waiting, w,
        calls⟩ := descend_go hframes _ _
  have hname : step limits ⟨.expression (.identifier i) D.scope, waiting, w, calls⟩ =
      .go ⟨.deliver (.normal v), waiting, w, calls⟩ := by
    unfold step evaluate
    dsimp only
    rw [hlookup]
    rfl
  have hvalue : step limits ⟨.deliver (.normal v), waiting, w, calls⟩ =
      .go ⟨.expression inner D.scope, D.awaiting (found ++ [(.identifier i, v)]), w, calls⟩ := by
    rw [awaiting_concat]
    exact descend_go hframes _ _
  have hspares : D.Spares ⟨.expression (.identifier i) D.scope, waiting, w, calls⟩ :=
    fun heq => absurd heq hne
  exact .step (.step (.step .refl trivial hcall) hspares hname) trivial hvalue

theorem reachesVia_names (hframes : limits.frames = none) (names : List (Identifier × Value))
    (hnames : ∀ p ∈ names, p.1.name ≠ D.definition.name ∧ lookup p.1.name D.scope w = .ok p.2)
    (found : List (Expr × Value)) :
    ReachesVia limits D.Spares
      ⟨.expression (D.definition.wrapped (names.map fun p => .identifier p.1) D.definition.expr)
        D.scope, D.awaiting found, w, calls⟩
      (D.atDefinition (found ++ names.map fun p => (.identifier p.1, p.2)) w calls) := by
  induction names generalizing found with
  | nil =>
    simp only [List.map_nil, List.append_nil]
    exact .refl
  | cons p names ih =>
    rw [List.forall_mem_cons] at hnames
    have hrest := ih hnames.2 (found ++ [(.identifier p.1, p.2)])
    rw [List.append_assoc] at hrest
    exact (reachesVia_name hframes hnames.1.1 hnames.1.2 found _).trans hrest

theorem reachesVia_atDefinition (hframes : limits.frames = none)
    {names : List (Identifier × Value)} (hD : D.decorators = names.map fun p => .identifier p.1)
    (hnames : ∀ p ∈ names, p.1.name ≠ D.definition.name ∧ lookup p.1.name D.scope w = .ok p.2) :
    ReachesVia limits D.Spares (D.before w calls)
      (D.atDefinition (names.map fun p => (.identifier p.1, p.2)) w calls) := by
  have hstatements : step limits (D.before w calls) = _ := descend_go hframes _ _
  have hwrapped : ReachesVia limits D.Spares _ (D.atDefinition _ w calls) :=
    reachesVia_names hframes names hnames []
  rw [← hD] at hwrapped
  exact .trans (.step (.step (.step .refl trivial hstatements) trivial rfl) trivial
    (descend_go hframes _ _)) hwrapped

/-- With names of other things for decorators, all of which are found, a definition does as
the plain one with the assignment behind it. -/
theorem ends_iff_of_names (hfree : D.definition.Free)
    (hscope : D.scope.index < w.store.scopes.size) (hframes : limits.frames = none)
    {names : List (Identifier × Value)} (hD : D.decorators = names.map fun p => .identifier p.1)
    (hnames : ∀ p ∈ names, p.1.name ≠ D.definition.name ∧ lookup p.1.name D.scope w = .ok p.2)
    (outcome : Outcome) (w' : World) :
    Ends limits (D.before w calls) outcome w' ↔ Ends limits (D.beforePlain w calls) outcome w' :=
  ends_iff_of_spared hfree hscope (reachesVia_atDefinition hframes hD hnames) outcome w'

/-! ### Decorators in general -/

/-- How a definition under decorators compares with the plain one that has the assignment
behind it. As long as no move asks the scope for the name or declares anything there, a run
under decorators ends as the other does, but for the binding of the name; and once all
decorators have come to values in this way, the two runs end alike, in the same world. -/
theorem ends_as_plain (hfree : D.definition.Free) (hscope : D.scope.index < w.store.scopes.size)
    (h : ReachesVia limits D.Spares (D.before w calls) c) :
    (∀ outcome w₁, D.Spares c → step limits c = .halt outcome w₁ →
      ∃ w₂, Ends limits (D.beforePlain w calls) outcome w₂ ∧ D.bound w₂ = D.bound w₁) ∧
    (∀ found w₁ calls₁, c = D.atDefinition found w₁ calls₁ → ∀ outcome w',
      Ends limits (D.before w calls) outcome w' ↔
        Ends limits (D.beforePlain w calls) outcome w') := by
  refine ⟨fun outcome w₁ hspares hend => ends_of_spared hfree hscope h hspares hend, ?_⟩
  rintro found w₁ calls₁ rfl
  exact ends_iff_of_spared hfree hscope h

/-- The decorator `print` is a name of something else. -/
theorem ends_as_plain_print :
    ∃ (D : Decoration) (w : World) (c : Config) (v : Value) (w' : World),
      D.definition.name = "f" ∧
      D.decorators = [.identifier ⟨D.definition.span, "print"⟩] ∧
      ReachesVia ⟨10, none⟩ D.Spares (D.before w 0) c ∧
      Ends ⟨10, none⟩ (D.before w 0) (.finished v) w' ∧
      Ends ⟨10, none⟩ (D.beforePlain w 0) (.finished v) w' := by
  let place : Span := ⟨none, .start, .start⟩
  let print : Identifier := ⟨place, "print"⟩
  let D : Decoration :=
    ⟨⟨place, "f", ["x"], .mk place []⟩, [.identifier print], ⟨0⟩, [], Stack.empty⟩
  let w := (World.ofInput []).newRoot.2
  have hcheck : (run ⟨10, none⟩ 20 (D.before w 0)).1.value?.isSome = true := by decide +kernel
  obtain ⟨v, hv⟩ := Option.isSome_iff_exists.1 hcheck
  have hends : Ends ⟨10, none⟩ (D.before w 0) (.finished v)
      (run ⟨10, none⟩ 20 (D.before w 0)).2 :=
    ends_of_run (Prod.ext (Outcome.value?_eq_some.1 hv) rfl) nofun
  have hnames : ∀ p ∈ [(print, Value.builtin "print")],
      p.1.name ≠ D.definition.name ∧ lookup p.1.name D.scope w = .ok p.2 := by
    intro p hp
    rw [List.mem_singleton] at hp
    subst hp
    exact ⟨by decide, rfl⟩
  have hreach : ReachesVia ⟨10, none⟩ D.Spares (D.before w 0) _ :=
    reachesVia_atDefinition rfl rfl hnames
  have hfree : D.definition.Free := by unfold Definition.Free; decide
  exact ⟨D, w, _, v, _, rfl, rfl, hreach, hends,
    ((ends_as_plain hfree (by decide) hreach).2 _ _ _ rfl _ _).1 hends⟩

/-- A decorator that reads the name finds what it was bound to before. -/
theorem not_ends_as_plain :
    ∃ e e' : Entry,
      e.source = "let f = |g| => 7\n@f def f(g) \x7b return 8 \x7d\nf" ∧
      e'.source = "let f = |g| => 7\ndef f(g) \x7b return 8 \x7d\nf = f(f)\nf" ∧
      (Program.execute ⟨10, none⟩ e.block [] (World.ofInput []).newRoot.1
        (World.ofInput []).newRoot.2).outcome.value?.map Value.render = some "7" ∧
      (Program.execute ⟨10, none⟩ e'.block [] (World.ofInput []).newRoot.1
        (World.ofInput []).newRoot.2).outcome.value?.map Value.render = some "8" := by
  have hcheck : ((Entry.read? none "let f = |g| => 7\n@f def f(g) \x7b return 8 \x7d\nf").any
      fun e => (Entry.read? none
        "let f = |g| => 7\ndef f(g) \x7b return 8 \x7d\nf = f(f)\nf").any fun e' =>
        (Program.execute ⟨10, none⟩ e.block [] (World.ofInput []).newRoot.1
          (World.ofInput []).newRoot.2).outcome.value?.map Value.render =
            some (Text.ofString "7") &&
        (Program.execute ⟨10, none⟩ e'.block [] (World.ofInput []).newRoot.1
          (World.ofInput []).newRoot.2).outcome.value?.map Value.render =
            some (Text.ofString "8")) = true := by
    decide +kernel
  obtain ⟨e, he, hcheck⟩ := (Option.any_eq_true _ _).1 hcheck
  obtain ⟨e', he', hcheck⟩ := (Option.any_eq_true _ _).1 hcheck
  obtain ⟨hseven, height⟩ := Bool.and_eq_true_iff.1 hcheck
  exact ⟨e, e', Entry.source_of_read? he, Entry.source_of_read? he', of_decide_eq_true hseven,
    of_decide_eq_true height⟩

end Decoration

end Rule

end ScriptLang
