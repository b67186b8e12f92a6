import ScriptLang.Proofs.Store.Bind
import ScriptLang.Proofs.Machine.Placement

/-!
# Two runs, one with a binding more

Two configurations go on alike although a name is bound in one scope for the second only,
and although the frames at the bottom of their stacks differ: each move of the first is the
move of the second, but for that binding (`Machine.step_beside`). That is so as long as the
move neither asks the scope for the name nor declares anything there
(`Config.Spares`).
-/

namespace ScriptLang

/-- The next move neither asks the scope `s` for the name `x` nor declares anything there. -/
def Config.Spares (s : ScopeId) (x : Text) : Config → Prop
  | ⟨.expression (.identifier i) scope, _, w, _⟩ => w.store.Spares scope i.name s x
  | ⟨.expression (.increment _ _ _ target) scope, _, w, _⟩ =>
    w.store.Spares scope target.name s x
  | ⟨.expression (.function _ (some _) _ _) scope, _, _, _⟩ => scope ≠ s
  | ⟨.deliver _, ⟨.operands (.assign target) _ _ [] scope :: _, _, _⟩, w, _⟩ =>
    w.store.Spares scope target.name s x
  | ⟨.deliver _, ⟨.declare _ scope :: _, _, _⟩, _, _⟩ => scope ≠ s
  | _ => True

/-- An answer with its world changed. -/
def Reply.inWorld (g : World → World) : Reply → Reply
  | .value v w => .value v (g w)
  | .refused cause w => .refused cause (g w)
  | .exit code w => .exit code (g w)
  | .interrupted w => .interrupted (g w)

namespace Machine

/-- A relation of stacks of one height that is kept when a frame is put on both. -/
structure Rising (R : Stack → Stack → Prop) : Prop where
  height {stack stack' : Stack} : R stack stack' → stack.height = stack'.height
  push {stack stack' : Stack} : R stack stack' → ∀ f, R (stack.push f) (stack'.push f)

/-- Moves to the same end or with the same to do, on related stacks, where a name is bound
in a scope for the second one. -/
inductive Beside (R : Stack → Stack → Prop) (s : ScopeId) (x : Text) (u : Value) :
    Next → Next → Prop
  | go {control : Control} {stack stack' : Stack} {w : World} {calls : Nat} :
      R stack stack' → s.index < w.store.scopes.size →
      Beside R s x u (.go ⟨control, stack, w, calls⟩)
        (.go ⟨control, stack', bindIn s x u w, calls⟩)
  | halt {outcome : Outcome} {w : World} :
      Beside R s x u (.halt outcome w) (.halt outcome (bindIn s x u w))

variable {R : Stack → Stack → Prop} {s : ScopeId} {x : Text} {u : Value} {limits : Limits}
  {stack stack' : Stack} {w : World} {calls : Nat} {scope : ScopeId} {span : Span}

/-! ### What is found -/

theorem lookup_bindIn {name : Text} (h : w.store.Spares scope name s x) :
    lookup name scope (bindIn s x u w) = lookup name scope w := by
  unfold lookup bindIn
  dsimp only
  rw [Store.get?_declare h]

theorem owner_bindIn {name : Text} (h : w.store.Spares scope name s x) :
    owner name scope (bindIn s x u w) = owner name scope w := by
  unfold owner bindIn
  dsimp only
  rw [Store.owner?_declare h]

theorem inFunction_bindIn : (bindIn s x u w).store.inFunction scope = w.store.inFunction scope :=
  Store.inFunction_declare _ _ _ _ _

theorem inLoop_bindIn : (bindIn s x u w).store.inLoop scope = w.store.inLoop scope :=
  Store.inLoop_declare _ _ _ _ _

theorem owner?_of_owner {name : Text} {o : ScopeId} (h : owner name scope w = .ok o) :
    w.store.owner? scope name = some o := by
  unfold owner at h
  split at h
  · cases h
  · split at h
    · next howner =>
      cases h
      exact howner
    · cases h

/-- What is bound again where a look-up found it may be bound before. -/
theorem bindIn_comm {name : Text} {o : ScopeId} (h : w.store.Spares scope name s x)
    (ho : owner name scope w = .ok o) (v : Value) :
    bindIn o name v (bindIn s x u w) = bindIn s x u (bindIn o name v w) := by
  have howner := owner?_of_owner ho
  have hne := Store.ne_of_owner? h howner
  unfold bindIn
  dsimp only
  rw [Store.declare_comm fun hos => ?_]
  refine ⟨hne.resolve_right fun hos' => hos' hos, ?_⟩
  rw [← hos]
  exact Store.owns_of_owner? howner

/-- Names may be bound in another scope before or after. -/
theorem bindIn_comm_of_ne {o : ScopeId} (h : o ≠ s) (name : Text) (v : Value) :
    bindIn o name v (bindIn s x u w) = bindIn s x u (bindIn o name v w) := by
  unfold bindIn
  dsimp only
  rw [Store.declare_comm fun hos => absurd hos h]

/-! ### Built-in functions -/

theorem readWith_bindIn (shown : Text) :
    Builtin.readWith shown (bindIn s x u w) =
      (Builtin.readWith shown w).inWorld (bindIn s x u) := by
  unfold Builtin.readWith
  dsimp only [bindIn]
  split <;> rfl

theorem builtin_call_bindIn (b : Builtin) (arguments : List Value) :
    b.call arguments (bindIn s x u w) = (b.call arguments w).inWorld (bindIn s x u) := by
  cases b with
  | print => rfl
  | input =>
    unfold Builtin.call Builtin.callInput
    dsimp only
    split
    · exact readWith_bindIn []
    · exact readWith_bindIn _
    · rfl
  | len =>
    unfold Builtin.call Builtin.callLen
    dsimp only
    split <;> rfl
  | iter =>
    unfold Builtin.call Builtin.callIter
    dsimp only [bindIn]
    split
    · split
      · rw [Store.iterator_declare]
        rfl
      · rfl
    · rfl
  | next =>
    unfold Builtin.call Builtin.callNext
    dsimp only [bindIn]
    split
    · rw [Store.next_declare]
      rfl
    · rfl
    · rfl
  | exit =>
    unfold Builtin.call Builtin.callExit
    dsimp only
    split <;> rfl

/-! ### Moves -/

section Moves

variable (hR : Rising R) (h : R stack stack') (hs : s.index < w.store.scopes.size)
include hR h hs

theorem descend_beside (f : Frame) (control : Control) :
    Beside R s x u (descend limits f control stack w calls)
      (descend limits f control stack' (bindIn s x u w) calls) := by
  unfold descend
  rw [hR.height h]
  split
  · exact .go (hR.push h f) hs
  · exact .halt

omit hR in
theorem settle_beside (result : Except RuntimeCause Value) :
    Beside R s x u (settle result span stack w calls)
      (settle result span stack' (bindIn s x u w) calls) := by
  cases result with
  | ok v => exact .go h hs
  | error cause => exact .halt

theorem enter_beside (f : Closure) (arguments : List Value) :
    Beside R s x u (enter limits f arguments span stack w calls)
      (enter limits f arguments span stack' (bindIn s x u w) calls) := by
  unfold enter
  split
  · exact .halt
  · split
    · exact .halt
    · dsimp only [bindIn]
      rw [Store.newChild_declare hs]
      dsimp only
      rw [Store.declareAll_declare (Store.newChild_ne hs _ _ _ _)]
      refine descend_beside hR h ?_ _ _
      rw [Store.size_declareAll]
      exact Store.lt_size_newChild hs _ _ _ _

theorem call_beside (callee : Value) (arguments : List Value) :
    Beside R s x u (call limits callee arguments span stack w calls)
      (call limits callee arguments span stack' (bindIn s x u w) calls) := by
  unfold call
  split
  · exact enter_beside hR h hs _ _
  · split
    · next b _ =>
      rw [builtin_call_bindIn]
      cases hreply : b.call arguments w with
      | value v w' =>
        obtain ⟨-, hscopes⟩ := Builtin.call_value hreply
        exact .go h (by rwa [hscopes])
      | _ => exact .halt
    · exact .halt
  · exact .halt

theorem perform_beside (operation : Operation) (vs : List Value)
    (hspares : ∀ target, operation = .assign target →
      w.store.Spares scope target.name s x) :
    Beside R s x u (perform limits operation span vs scope stack w calls)
      (perform limits operation span vs scope stack' (bindIn s x u w) calls) := by
  unfold perform
  split
  · exact settle_beside h hs _
  · exact settle_beside h hs _
  · next target v =>
    have hspares := hspares target rfl
    rw [owner_bindIn hspares]
    cases ho : owner target.name scope w with
    | error cause => exact .halt
    | ok o =>
      dsimp only
      rw [bindIn_comm hspares ho]
      exact .go h (by rwa [bindIn, Store.size_declare])
  · exact call_beside hR h hs _ _
  · exact settle_beside h hs _
  · exact settle_beside h hs _
  · exact settle_beside h hs _
  · exact .halt

omit hR in
theorem count_beside (direction : Direction) (side : Side) (target : Identifier)
    (hspares : w.store.Spares scope target.name s x) :
    Beside R s x u (count span direction side target scope stack w calls)
      (count span direction side target scope stack' (bindIn s x u w) calls) := by
  unfold count
  rw [lookup_bindIn hspares, owner_bindIn hspares]
  cases lookup target.name scope w with
  | error cause => exact .halt
  | ok old =>
    dsimp only
    split
    · exact .halt
    · cases ho : owner target.name scope w with
      | error cause => exact .halt
      | ok o =>
        dsimp only
        rw [bindIn_comm hspares ho]
        exact .go h (by rwa [bindIn, Store.size_declare])

omit hR in
theorem define_beside (name : Option Text) (parameters : List Text) (body : Block)
    (hscope : name.isSome → scope ≠ s) :
    Beside R s x u (define span name parameters body scope stack w calls)
      (define span name parameters body scope stack' (bindIn s x u w) calls) := by
  unfold define
  split
  · exact .halt
  · cases name with
    | none => exact .go h hs
    | some n =>
      dsimp only
      rw [bindIn_comm_of_ne (hscope rfl)]
      exact .go h (by rwa [bindIn, Store.size_declare])

theorem evaluate_beside (e : Expr)
    (hspares : Config.Spares s x ⟨.expression e scope, stack, w, calls⟩) :
    Beside R s x u (evaluate limits e scope stack w calls)
      (evaluate limits e scope stack' (bindIn s x u w) calls) := by
  unfold evaluate
  split
  · exact .go h hs
  · exact .go h hs
  · rw [lookup_bindIn hspares]
    exact settle_beside h hs _
  · exact count_beside h hs _ _ _ hspares
  · next name _ _ =>
    refine define_beside h hs _ _ _ fun hname => ?_
    cases name with
    | none => cases hname
    | some n => exact hspares
  · split
    · exact descend_beside hR h hs _ _
    · exact .halt

omit hR in
theorem enterBlock_beside (body : Block) :
    Beside R s x u (enterBlock body scope stack w calls)
      (enterBlock body scope stack' (bindIn s x u w) calls) := by
  unfold enterBlock
  dsimp only [bindIn]
  rw [Store.newChild_declare hs]
  exact .go h (Store.lt_size_newChild hs _ _ _ _)

theorem turnElement_beside (loop : ElementLoop) (iterator : IteratorId) :
    Beside R s x u (turnElement limits loop iterator stack w calls)
      (turnElement limits loop iterator stack' (bindIn s x u w) calls) := by
  unfold turnElement
  dsimp only [bindIn]
  rw [Store.next_declare]
  have hs' : s.index < (w.store.next iterator).2.scopes.size := by rwa [Store.next_scopes]
  cases (w.store.next iterator).1 with
  | none => exact .go h hs'
  | some v =>
    dsimp only
    rw [Store.newChild_declare hs']
    dsimp only
    rw [Store.declare_comm fun hos => absurd hos (Store.newChild_ne hs' _ _ _ _)]
    refine descend_beside hR h ?_ _ _
    rw [Store.size_declare]
    exact Store.lt_size_newChild hs' _ _ _ _

theorem turnCounting_beside (loop : CountingLoop) :
    Beside R s x u (turnCounting limits loop stack w calls)
      (turnCounting limits loop stack' (bindIn s x u w) calls) := by
  unfold turnCounting
  dsimp only [bindIn]
  rw [Store.newChild_declare hs]
  exact descend_beside hR h (Store.lt_size_newChild hs _ _ _ _) _ _

theorem testCounting_beside (loop : CountingLoop) :
    Beside R s x u (testCounting limits loop stack w calls)
      (testCounting limits loop stack' (bindIn s x u w) calls) := by
  unfold testCounting
  split
  · exact turnCounting_beside hR h hs _
  · exact descend_beside hR h hs _ _

theorem execute_beside (st : Stmt) :
    Beside R s x u (execute limits st scope stack w calls)
      (execute limits st scope stack' (bindIn s x u w) calls) := by
  unfold execute
  split
  · exact .go h hs
  · split
    · exact .halt
    · exact descend_beside hR h hs _ _
  · exact descend_beside hR h hs _ _
  · exact descend_beside hR h hs _ _
  · split
    · exact .halt
    · exact descend_beside hR h hs _ _
  · dsimp only [bindIn]
    rw [Store.newChild_declare hs]
    have hs' := Store.lt_size_newChild hs scope "for" none none
    split
    · exact testCounting_beside hR h hs' _
    · exact descend_beside hR h hs' _ _
  · rw [inFunction_bindIn]
    split
    · split
      · exact .go h hs
      · exact descend_beside hR h hs _ _
    · exact .halt
  · rw [inLoop_bindIn]
    split
    · exact .go h hs
    · exact .halt
  · rw [inLoop_bindIn]
    split
    · exact .go h hs
    · exact .halt
  · exact descend_beside hR h hs _ _

theorem stepCounting_beside (loop : CountingLoop) :
    Beside R s x u (stepCounting limits loop stack w calls)
      (stepCounting limits loop stack' (bindIn s x u w) calls) := by
  unfold stepCounting
  split
  · exact testCounting_beside hR h hs _
  · exact descend_beside hR h hs _ _

theorem resumeValue_beside (f : Frame) (v : Value)
    (hspares : Config.Spares s x ⟨.deliver (.normal v), stack.push f, w, calls⟩) :
    Beside R s x u (resumeValue limits f v stack w calls)
      (resumeValue limits f v stack' (bindIn s x u w) calls) := by
  unfold resumeValue
  split
  · next operation _ _ _ =>
    refine perform_beside hR h hs _ _ fun target hop => ?_
    subst hop
    exact hspares
  · exact descend_beside hR h hs _ _
  · rw [bindIn_comm_of_ne hspares]
    exact .go h (by rwa [bindIn, Store.size_declare])
  · exact .go h hs
  · split
    · exact .halt
    · exact .go h hs
    · exact .halt
  · split
    · exact .halt
    · exact enterBlock_beside h hs _
    · exact .go h hs
    · exact enterBlock_beside h hs _
    · exact .go h hs
  · split
    · exact .halt
    · exact .go h hs
    · dsimp only [bindIn]
      rw [Store.newChild_declare hs]
      exact descend_beside hR h (Store.lt_size_newChild hs _ _ _ _) _ _
  · split
    · exact .halt
    · dsimp only [bindIn]
      rw [Store.iterator_declare]
      exact turnElement_beside hR h (by rwa [Store.iterator_scopes]) _ _
  · split
    · exact .halt
    · exact .go h hs
    · exact turnCounting_beside hR h hs _
  · exact testCounting_beside hR h hs _
  · exact .halt

theorem resume_beside (f : Frame) (c : Completion)
    (hspares : Config.Spares s x ⟨.deliver c, stack.push f, w, calls⟩) :
    Beside R s x u (resume limits f c stack w calls)
      (resume limits f c stack' (bindIn s x u w) calls) := by
  unfold resume
  split
  · split
    · exact .go h hs
    · exact .go h hs
  · split
    · exact .go h hs
    · exact .go h hs
    · exact descend_beside hR h hs _ _
  · split
    · exact .go h hs
    · exact .go h hs
    · exact turnElement_beside hR h hs _ _
  · exact testCounting_beside hR h hs _
  · split
    · exact .go h hs
    · exact .go h hs
    · exact stepCounting_beside hR h hs _
  · split
    · exact .go h hs
    · exact .go h hs
  · split
    · exact resumeValue_beside hR h hs _ _ hspares
    · exact .halt

end Moves

/-- Configurations with the same to do move alike, unless a completion is handed to a frame
in which their stacks may differ. -/
theorem step_beside (hR : Rising R) (h : R stack stack') (hs : s.index < w.store.scopes.size)
    (control : Control) (hcontrol : ∀ c, control ≠ .deliver c)
    (hspares : Config.Spares s x ⟨control, stack, w, calls⟩) :
    Beside R s x u (step limits ⟨control, stack, w, calls⟩)
      (step limits ⟨control, stack', bindIn s x u w, calls⟩) := by
  cases control with
  | expression e scope => exact evaluate_beside hR h hs e hspares
  | statement st scope => exact execute_beside hR h hs st
  | statements ss scope =>
    cases ss with
    | nil => exact .go h hs
    | cons st rest => exact descend_beside hR h hs _ _
  | deliver c => exact absurd rfl (hcontrol c)

end Machine

end ScriptLang
