import ScriptLang.Proofs.Machine.Reach
import ScriptLang.Proofs.Store.Builtin

/-!
# Running code stands where its scope says

A configuration is covered by `U` if all code in it is: what is being done and what
waits, at the places of the scopes it runs in, and the functions that values and the
store hold. `step_covered` shows that each move keeps this, so whatever runs a
statement runs it in a scope that stands where the statement stands in the text.
-/

namespace ScriptLang

variable {U : Place × Stmt → Prop}

/-! ### Covered configurations -/

/-- The statements of a loop that stands at a place. -/
def WhileLoop.placed (π : Place) (loop : WhileLoop) : List (Place × Stmt) :=
  loop.condition.placed ++ loop.body.placed π.loop

/-- The statements of a loop that stands at a place. -/
def ElementLoop.placed (π : Place) (loop : ElementLoop) : List (Place × Stmt) :=
  loop.body.placed π.loop

/-- The statements of a loop that stands at a place. -/
def CountingLoop.placed (π : Place) (loop : CountingLoop) : List (Place × Stmt) :=
  Expr.placedOption loop.condition ++ Expr.placedOption loop.step ++ loop.body.placed π.loop

/-- What waits is covered. -/
def Frame.Covered (U : Place × Stmt → Prop) (σ : Store) : Frame → Prop
  | .operands _ _ found rest _ =>
    (∀ v ∈ found, Covers U v.placed) ∧ ∀ e ∈ rest, Covers U e.placed
  | .declare _ _ => True
  | .giveBack => True
  | .assertion _ _ _ => True
  | .branch _ body otherwise scope =>
    σ.CoversAt U scope fun π => body.placed π ++ otherwise.placed π
  | .whileTest loop => σ.CoversAt U loop.scope fun π => loop.placed π
  | .whileBody loop => σ.CoversAt U loop.scope fun π => loop.placed π
  | .elements loop _ => σ.CoversAt U loop.scope fun π => loop.placed π
  | .elementBody loop _ => σ.CoversAt U loop.scope fun π => loop.placed π
  | .countingStart loop => σ.CoversAt U loop.scope fun π => loop.placed π
  | .countingTest loop _ => σ.CoversAt U loop.scope fun π => loop.placed π
  | .countingBody loop => σ.CoversAt U loop.scope fun π => loop.placed π
  | .countingStep loop => σ.CoversAt U loop.scope fun π => loop.placed π
  | .sequence rest scope => σ.CoversAt U scope fun π => Stmt.placedAll π rest
  | .call => True

theorem Frame.Covered.mono {σ σ' : Store} {f : Frame} (h : f.Covered U σ)
    (hσ : σ.Extends σ') : f.Covered U σ' := by
  cases f with
  | operands operation span found rest scope => exact h
  | declare name scope => trivial
  | giveBack => trivial
  | assertion condition message span => trivial
  | call => trivial
  | branch condition body otherwise scope => exact Store.CoversAt.mono h hσ
  | whileTest loop => exact Store.CoversAt.mono h hσ
  | whileBody loop => exact Store.CoversAt.mono h hσ
  | elements loop iterable => exact Store.CoversAt.mono h hσ
  | elementBody loop iterator => exact Store.CoversAt.mono h hσ
  | countingStart loop => exact Store.CoversAt.mono h hσ
  | countingTest loop condition => exact Store.CoversAt.mono h hσ
  | countingBody loop => exact Store.CoversAt.mono h hσ
  | countingStep loop => exact Store.CoversAt.mono h hσ
  | sequence rest scope => exact Store.CoversAt.mono h hσ

/-- What is being done is covered. -/
def Control.Covered (U : Place × Stmt → Prop) (σ : Store) : Control → Prop
  | .expression e _ => Covers U e.placed
  | .statement s scope => σ.CoversAt U scope fun π => s.placed π
  | .statements ss scope => σ.CoversAt U scope fun π => Stmt.placedAll π ss
  | .deliver c => Covers U c.value.placed

/-- All that waits and all that a world holds is covered. -/
structure Waiting (U : Place × Stmt → Prop) (stack : Stack) (w : World) : Prop where
  frames : ∀ f ∈ stack.frames, f.Covered U w.store
  store : w.store.Covered U

theorem Waiting.mono {stack : Stack} {w : World} {σ : Store} (h : Waiting U stack w)
    (hσ : w.store.Extends σ) (hc : σ.Covered U) : Waiting U stack { w with store := σ } :=
  ⟨fun f hf => (h.frames f hf).mono hσ, hc⟩

/-- All code of a configuration is covered. -/
structure Config.Covered (U : Place × Stmt → Prop) (c : Config) : Prop where
  control : c.control.Covered U c.world.store
  waiting : Waiting U c.stack c.world

/-- What a move leads to is covered, if it leads on. -/
def Next.Covered (U : Place × Stmt → Prop) : Next → Prop
  | .go c => c.Covered U
  | .halt _ _ => True

namespace Machine

variable {limits : Limits} {stack : Stack} {w : World} {calls : Nat} {scope : ScopeId}
  {span : Span}

theorem deliver_covered (h : Waiting U stack w) {c : Completion}
    (hc : Covers U c.value.placed) : (deliver c stack w calls).Covered U :=
  ⟨hc, h⟩

theorem yieldValue_covered (h : Waiting U stack w) {v : Value} (hv : Covers U v.placed) :
    (yieldValue v stack w calls).Covered U :=
  deliver_covered h hv

theorem descend_covered (h : Waiting U stack w) {f : Frame} (hf : f.Covered U w.store)
    {control : Control} (hc : control.Covered U w.store) :
    (descend limits f control stack w calls).Covered U := by
  unfold descend
  split
  · refine ⟨hc, ⟨fun g hg => ?_, h.store⟩⟩
    rcases List.mem_cons.1 hg with rfl | hg
    · exact hf
    · exact h.frames g hg
  · trivial

theorem settle_covered (h : Waiting U stack w) {result : Except RuntimeCause Value}
    (hr : ∀ v, result = .ok v → Covers U v.placed) :
    (settle result span stack w calls).Covered U := by
  unfold settle
  split
  · next v => exact yieldValue_covered h (hr v rfl)
  · trivial

theorem lookup_covered (h : w.store.Covered U) {name : Text} {v : Value}
    (hv : lookup name scope w = .ok v) : Covers U v.placed := by
  unfold lookup at hv
  split at hv
  · cases hv
    exact covers_nil
  · split at hv <;> cases hv
    next hget => exact h _ (Store.holds_of_get? hget)

theorem bindIn_waiting (h : Waiting U stack w) {v : Value} (hv : Covers U v.placed)
    (owner : ScopeId) (name : Text) : Waiting U stack (bindIn owner name v w) :=
  h.mono (Store.extends_declare _ _ _ _) (h.store.declare hv owner name)

/-! ### Calls and operations -/

theorem enter_covered (h : Waiting U stack w) {f : Closure} (hf : Covers U (f.body.placed .body))
    {arguments : List Value} (ha : ∀ v ∈ arguments, Covers U v.placed) :
    (enter limits f arguments span stack w calls).Covered U := by
  unfold enter
  split
  · trivial
  · split
    · trivial
    · -- a call stands in a function and in no loop, wherever the function was defined
      have hplace := Store.place?_newChild_given w.store f.scope ("call " ++ f.displayName)
        true false
      have hext := Store.extends_newChild w.store f.scope ("call " ++ f.displayName)
        (some true) (some false)
      have hstore := h.store.newChild f.scope ("call " ++ f.displayName) (some true) (some false)
      dsimp only
      generalize w.store.newChild f.scope ("call " ++ f.displayName) (some true) (some false) = x
        at hplace hext hstore ⊢
      have hext' := Store.extends_declareAll x.1 (f.parameters.zip arguments) x.2
      refine descend_covered (h.mono (hext.trans hext') ?_) ?_ ?_
      · exact hstore.declareAll x.1 fun b hb => ha b.2 (List.of_mem_zip hb).2
      · trivial
      · refine ⟨.body, hext' _ _ hplace, ?_⟩
        cases hb : f.body with
        | mk span statements => rwa [hb] at hf

theorem call_covered (h : Waiting U stack w) {callee : Value} (hc : Covers U callee.placed)
    {arguments : List Value} (ha : ∀ v ∈ arguments, Covers U v.placed) :
    (call limits callee arguments span stack w calls).Covered U := by
  unfold call
  split
  · exact enter_covered h hc ha
  · split
    · next b hb =>
      unfold accept
      split
      · next v w' hreply =>
        obtain ⟨hv, hw⟩ := Builtin.call_value hreply
        refine yieldValue_covered ⟨fun f hf => ?_, h.store.of_scopes_eq hw⟩ (by simp [hv.placed])
        exact (h.frames f hf).mono (Store.Extends.of_scopes_eq hw)
      all_goals trivial
    · trivial
  · trivial

theorem perform_covered (h : Waiting U stack w) {operation : Operation} {vs : List Value}
    (hvs : ∀ v ∈ vs, Covers U v.placed) :
    (perform limits operation span vs scope stack w calls).Covered U := by
  unfold perform
  split
  · exact settle_covered h fun v hv => by simp [(BinaryOperator.apply_plain hv).data.placed]
  · exact settle_covered h fun v hv => by simp [(UnaryOperator.apply_plain hv).data.placed]
  · split
    · exact yieldValue_covered (bindIn_waiting h (hvs _ (by simp)) _ _) (hvs _ (by simp))
    · trivial
  · exact call_covered h (hvs _ (by simp)) fun v hv => hvs v (List.mem_cons_of_mem _ hv)
  · exact settle_covered h fun v hv => by simp [(Value.index_plain hv).data.placed]
  · exact settle_covered h fun v hv => by simp [(Value.slice_plain hv).data.placed]
  · exact settle_covered h fun v hv => by simp [(Value.makeRange_data hv).placed]
  · trivial

/-! ### Taking expressions and statements apart -/

theorem count_covered (h : Waiting U stack w) {direction : Direction} {side : Side}
    {target : Identifier} :
    (count span direction side target scope stack w calls).Covered U := by
  unfold count
  split
  · trivial
  · next old hold =>
    dsimp only
    split
    · trivial
    · next new hnew =>
      have hplaced : new.placed = [] := by
        cases direction with
        | up => exact (Value.add_plain hnew).data.placed
        | down => exact (Value.subtract_plain hnew).data.placed
      split
      · trivial
      · apply yieldValue_covered (bindIn_waiting h (by simp [hplaced]) _ _)
        cases side with
        | before => simp [hplaced]
        | after => exact lookup_covered h.store hold

theorem define_covered (h : Waiting U stack w) {name : Option Text} {parameters : List Text}
    {body : Block} (hb : Covers U (body.placed .body)) :
    (define span name parameters body scope stack w calls).Covered U := by
  unfold define
  split
  · trivial
  · dsimp only
    split
    · exact yieldValue_covered h hb
    · refine yieldValue_covered (bindIn_waiting h ?_ _ _) hb
      exact hb

theorem parts?_covered {e first : Expr} {operation : Operation} {rest : List Expr}
    (h : parts? e = some (operation, first, rest)) (he : Covers U e.placed) :
    Covers U first.placed ∧ ∀ x ∈ rest, Covers U x.placed := by
  rw [← covers_placedAll, ← covers_append]
  have hoption : ∀ o : Option Expr, Expr.placedAll o.toList = Expr.placedOption o := by
    intro o
    cases o <;> simp [Expr.placedAll, Expr.placedOption]
  cases e <;> cases h <;>
    simpa [Expr.placed, Expr.placedAll, Expr.placedAll_append, hoption] using he

theorem evaluate_covered (h : Waiting U stack w) {e : Expr} (he : Covers U e.placed) :
    (evaluate limits e scope stack w calls).Covered U := by
  unfold evaluate
  split
  · refine yieldValue_covered h ?_
    next value => cases value <;> simp [Value.ofLiteral, Value.placed]
  · exact yieldValue_covered h covers_nil
  · exact settle_covered h fun v hv => lookup_covered h.store hv
  · exact count_covered h
  · exact define_covered h he
  · split
    · next hparts =>
      obtain ⟨hfirst, hrest⟩ := parts?_covered hparts he
      refine descend_covered h ?_ hfirst
      exact ⟨by simp, hrest⟩
    · trivial

theorem enterBlock_covered (h : Waiting U stack w) {body : Block}
    (hb : w.store.CoversAt U scope fun π => body.placed π) :
    (enterBlock body scope stack w calls).Covered U := by
  cases body with
  | mk span statements =>
    refine ⟨hb.newChild _ none none fun π hπ => hπ, ?_⟩
    exact h.mono (Store.extends_newChild _ _ _ _ _) (h.store.newChild _ _ _ _)

theorem testWhile_covered (h : Waiting U stack w) {loop : WhileLoop}
    (hl : w.store.CoversAt U loop.scope fun π => loop.placed π) :
    (testWhile limits loop stack w calls).Covered U := by
  refine descend_covered h ?_ ?_
  · exact hl
  · obtain ⟨π, -, hπ⟩ := hl
    exact (covers_append.1 hπ).1

theorem turnElement_covered (h : Waiting U stack w) {loop : ElementLoop} {iterator : IteratorId}
    (hl : w.store.CoversAt U loop.scope fun π => loop.placed π) :
    (turnElement limits loop iterator stack w calls).Covered U := by
  have hscopes := Store.next_scopes w.store iterator
  have hext := Store.Extends.of_scopes_eq hscopes
  have hstore := h.store.of_scopes_eq hscopes
  unfold turnElement
  dsimp only
  split
  · exact yieldValue_covered (h.mono hext hstore) covers_nil
  · next v hv =>
    have hv : Covers U v.placed := by simp [(Store.next_data hv).placed]
    have hinner : ((w.store.next iterator).2.newChild loop.scope "for" none (some true)).2.CoversAt
        U ((w.store.next iterator).2.newChild loop.scope "for" none (some true)).1
        fun π => Stmt.placedAll π loop.body.statements := by
      refine (hl.mono hext).newChild "for" none (some true) fun π hπ => ?_
      cases hb : loop.body with
      | mk span statements =>
        rw [ElementLoop.placed, hb] at hπ
        exact hπ
    have hext := hext.trans
      (Store.extends_newChild (w.store.next iterator).2 loop.scope "for" none (some true))
    have hstore := hstore.newChild loop.scope "for" none (some true)
    generalize (w.store.next iterator).2.newChild loop.scope "for" none (some true) = x
      at hinner hext hstore ⊢
    have hext' := Store.extends_declare x.2 x.1 loop.item v
    refine descend_covered (h.mono (hext.trans hext') (hstore.declare hv _ _)) ?_ ?_
    · exact hl.mono (hext.trans hext')
    · exact hinner.mono hext'

theorem turnCounting_covered (h : Waiting U stack w) {loop : CountingLoop}
    (hl : w.store.CoversAt U loop.scope fun π => loop.placed π) :
    (turnCounting limits loop stack w calls).Covered U := by
  have hext := Store.extends_newChild w.store loop.scope "loop" none (some true)
  refine descend_covered (h.mono hext (h.store.newChild _ _ _ _)) ?_ ?_
  · exact hl.mono hext
  · refine hl.newChild "loop" none (some true) fun π hπ => ?_
    cases hb : loop.body with
    | mk span statements =>
      rw [CountingLoop.placed, hb, covers_append] at hπ
      exact hπ.2

theorem testCounting_covered (h : Waiting U stack w) {loop : CountingLoop}
    (hl : w.store.CoversAt U loop.scope fun π => loop.placed π) :
    (testCounting limits loop stack w calls).Covered U := by
  unfold testCounting
  split
  · exact turnCounting_covered h hl
  · next e he =>
    refine descend_covered h ?_ ?_
    · exact hl
    · obtain ⟨π, -, hπ⟩ := hl
      simp only [CountingLoop.placed, he, covers_append] at hπ
      exact hπ.1.1

theorem execute_covered (h : Waiting U stack w) {s : Stmt}
    (hs : w.store.CoversAt U scope fun π => s.placed π) :
    (execute limits s scope stack w calls).Covered U := by
  obtain ⟨π, hπ, hcode⟩ := hs
  obtain ⟨-, hin⟩ := covers_cons.1 hcode
  unfold execute
  split
  · next e => exact ⟨hin, h⟩
  · next span name value =>
    split
    · trivial
    · refine descend_covered h ?_ hin
      trivial
  · next span condition body otherwise =>
    rw [Stmt.inside, Conditional.placed, covers_append, covers_append] at hin
    refine descend_covered h ?_ hin.1.1
    exact ⟨π, hπ, covers_append.2 ⟨hin.1.2, hin.2⟩⟩
  · next span condition body => exact testWhile_covered h ⟨π, hπ, hin⟩
  · next span item iterable body =>
    rw [Stmt.inside, covers_append] at hin
    split
    · trivial
    · refine descend_covered h ?_ hin.1
      exact ⟨π, hπ, hin.2⟩
  · next span initializer condition step body =>
    rw [Stmt.inside, List.append_assoc, List.append_assoc, covers_append,
      ← List.append_assoc] at hin
    have hloop : (w.store.newChild scope "for" none none).2.CoversAt U
        (w.store.newChild scope "for" none none).1
        fun π => Simple.placedOption π initializer ++ CountingLoop.placed π
          ⟨condition, step, body, (w.store.newChild scope "for" none none).1⟩ :=
      ⟨π, Store.place?_newChild hπ "for" none none, covers_append.2 hin⟩
    have h := h.mono (Store.extends_newChild w.store scope "for" none none)
      (h.store.newChild scope "for" none none)
    dsimp only
    generalize w.store.newChild scope "for" none none = x at hloop h ⊢
    split
    · exact testCounting_covered h (hloop.imp fun π hπ => (covers_append.1 hπ).2)
    · next first =>
      refine descend_covered h ?_ ?_
      · exact hloop.imp fun π hπ => (covers_append.1 hπ).2
      · exact hloop.imp fun π hπ => (covers_append.1 hπ).1
  · next span value =>
    split
    · split
      · exact deliver_covered h covers_nil
      · refine descend_covered h ?_ hin
        trivial
    · trivial
  · split
    · exact deliver_covered h covers_nil
    · trivial
  · split
    · exact deliver_covered h covers_nil
    · trivial
  · next span condition message =>
    refine descend_covered h ?_ hin
    trivial

/-! ### Handing completions on -/

theorem resumeValue_covered (h : Waiting U stack w) {f : Frame} (hf : f.Covered U w.store)
    {v : Value} (hv : Covers U v.placed) :
    (resumeValue limits f v stack w calls).Covered U := by
  unfold resumeValue
  split
  · next operation span found scope =>
    refine perform_covered h fun u hu => ?_
    rcases List.mem_cons.1 (List.mem_reverse.1 hu) with rfl | hu
    · exact hv
    · exact hf.1 u hu
  · next operation span found e rest scope =>
    obtain ⟨hfound, hrest⟩ := hf
    rw [List.forall_mem_cons] at hrest
    refine descend_covered h ?_ hrest.1
    exact ⟨List.forall_mem_cons.2 ⟨hv, hfound⟩, hrest.2⟩
  · exact yieldValue_covered (bindIn_waiting h hv _ _) hv
  · exact deliver_covered h hv
  · split
    · trivial
    · exact yieldValue_covered h covers_nil
    · trivial
  · next condition body otherwise scope =>
    have hbody := Store.CoversAt.imp hf fun π hπ => (covers_append.1 hπ).1
    have hother := Store.CoversAt.imp hf fun π hπ => (covers_append.1 hπ).2
    split
    · trivial
    · exact enterBlock_covered h hbody
    · exact yieldValue_covered h covers_nil
    · exact enterBlock_covered h hother
    · exact ⟨hother, h⟩
  · next loop =>
    split
    · trivial
    · exact yieldValue_covered h covers_nil
    · have hext := Store.extends_newChild w.store loop.scope "loop" none (some true)
      refine descend_covered (h.mono hext (h.store.newChild _ _ _ _)) ?_ ?_
      · exact Store.CoversAt.mono hf hext
      · refine Store.CoversAt.newChild hf "loop" none (some true) fun π hπ => ?_
        cases hb : loop.body with
        | mk span statements =>
          simp only [WhileLoop.placed, hb, covers_append] at hπ
          exact hπ.2
  · next loop iterable =>
    split
    · trivial
    · next elements _ =>
      have hscopes := Store.iterator_scopes w.store elements
      have hext := Store.Extends.of_scopes_eq hscopes
      exact turnElement_covered (h.mono hext (h.store.of_scopes_eq hscopes))
        (Store.CoversAt.mono hf hext)
  · split
    · trivial
    · exact yieldValue_covered h covers_nil
    · exact turnCounting_covered h hf
  · exact testCounting_covered h hf
  · trivial

theorem stepCounting_covered (h : Waiting U stack w) {loop : CountingLoop}
    (hl : w.store.CoversAt U loop.scope fun π => loop.placed π) :
    (stepCounting limits loop stack w calls).Covered U := by
  unfold stepCounting
  split
  · exact testCounting_covered h hl
  · next e he =>
    refine descend_covered h ?_ ?_
    · exact hl
    · obtain ⟨π, -, hπ⟩ := hl
      simp only [CountingLoop.placed, he, covers_append] at hπ
      exact hπ.1.2

theorem resume_covered (h : Waiting U stack w) {f : Frame} (hf : f.Covered U w.store)
    {c : Completion} (hc : Covers U c.value.placed) :
    (resume limits f c stack w calls).Covered U := by
  unfold resume
  split
  · split
    · exact ⟨hf, h⟩
    · exact deliver_covered h hc
  · split
    · exact yieldValue_covered h covers_nil
    · exact deliver_covered h hc
    · exact testWhile_covered h hf
  · split
    · exact yieldValue_covered h covers_nil
    · exact deliver_covered h hc
    · exact turnElement_covered h hf
  · exact testCounting_covered h hf
  · split
    · exact yieldValue_covered h covers_nil
    · exact deliver_covered h hc
    · exact stepCounting_covered h hf
  · split
    · exact yieldValue_covered h hc
    · exact yieldValue_covered h covers_nil
  · split
    · exact resumeValue_covered h hf hc
    · trivial

/-- Each move of the machine keeps code at its place. -/
theorem step_covered {c : Config} (h : c.Covered U) : (step limits c).Covered U := by
  obtain ⟨control, stack, w, calls⟩ := c
  obtain ⟨hc, h⟩ := h
  cases control with
  | expression e scope => exact evaluate_covered h hc
  | statement s scope => exact execute_covered h hc
  | statements ss scope =>
    cases ss with
    | nil => exact yieldValue_covered h covers_nil
    | cons s rest =>
      have hcode : w.store.CoversAt U scope fun π => s.placed π ++ Stmt.placedAll π rest :=
        Store.CoversAt.imp hc fun π hπ => Stmt.placedAll_cons π s rest ▸ hπ
      refine descend_covered h ?_ ?_
      · exact hcode.imp fun π hπ => (covers_append.1 hπ).2
      · exact hcode.imp fun π hπ => (covers_append.1 hπ).1
  | deliver c =>
    obtain ⟨frames, height, heq⟩ := stack
    cases frames with
    | nil => trivial
    | cons f rest =>
      exact resume_covered ⟨fun g hg => h.frames g (List.mem_cons_of_mem f hg), h.store⟩
        (h.frames f List.mem_cons_self) hc

/-- All code that runs comes from the program or from a function that the store held
before, and stands where its scope does. -/
theorem Reaches.covered {program : Block} {root : ScopeId} {c : Config}
    (hroot : w.store.CoversAt U root fun π => program.placed π) (hstore : w.store.Covered U)
    (h : Reaches limits (load program root w) c) : c.Covered U := by
  refine h.keeps (fun d d' hd hstep => ?_) ⟨?_, by simp [load, Stack.empty], hstore⟩
  · have hnext : (Machine.step limits d).Covered U := step_covered hd
    rwa [hstep] at hnext
  · cases program with
    | mk span statements => exact hroot

end Machine

end ScriptLang
