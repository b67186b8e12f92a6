import ScriptLang.Proofs.Machine.Reach
import ScriptLang.Proofs.Store.Matter

/-!
# What a run is made of

A configuration is made of parts and integers if all in it is: the code that runs and
that waits, the values found so far, and the store. `step_madeOf` shows that each move
keeps this, and that a move which ends the run blames a place of an admitted part. The
one integer that no law of the matter accounts for is the length of a text
(`Config.measured?`).
-/

namespace ScriptLang

variable {M : Matter}

/-! ### Configurations -/

/-- The parts of a loop. -/
def WhileLoop.parts (loop : WhileLoop) : List Part := loop.condition.parts ++ loop.body.parts

/-- The parts of a loop's turns. -/
def ElementLoop.parts (loop : ElementLoop) : List Part := loop.body.parts

/-- The parts of a loop's tests, steps and turns. -/
def CountingLoop.parts (loop : CountingLoop) : List Part :=
  Expr.partsOption loop.condition ++ Expr.partsOption loop.step ++ loop.body.parts

/-- The name that an operation binds again stands in an admitted part. -/
def Operation.MadeOf (M : Matter) : Operation → Prop
  | .assign target => Blamed M.code target.span
  | _ => True

/-- What waits is made of admitted parts and integers. -/
def Frame.MadeOf (M : Matter) : Frame → Prop
  | .operands operation span found rest _ =>
    operation.MadeOf M ∧ Blamed M.code span ∧ (∀ v ∈ found, v.MadeOf M) ∧
      ∀ e ∈ rest, Within M.code e.parts
  | .declare _ _ => True
  | .giveBack => True
  | .assertion condition _ span => Blamed M.code condition ∧ Blamed M.code span
  | .branch condition body otherwise _ =>
    Blamed M.code condition ∧ Within M.code (body.parts ++ otherwise.parts)
  | .whileTest loop => Within M.code loop.parts
  | .whileBody loop => Within M.code loop.parts
  | .elements loop iterable => Blamed M.code iterable ∧ Within M.code loop.parts
  | .elementBody loop _ => Within M.code loop.parts
  | .countingStart loop => Within M.code loop.parts
  | .countingTest loop condition => Blamed M.code condition ∧ Within M.code loop.parts
  | .countingBody loop => Within M.code loop.parts
  | .countingStep loop => Within M.code loop.parts
  | .sequence rest _ => Within M.code (Stmt.partsAll rest)
  | .call => True

/-- What is being done is made of admitted parts and integers. -/
def Control.MadeOf (M : Matter) : Control → Prop
  | .expression e _ => Within M.code e.parts
  | .statement s _ => Within M.code s.parts
  | .statements ss _ => Within M.code (Stmt.partsAll ss)
  | .deliver c => c.value.MadeOf M

/-- All that waits and all that a world holds is made of admitted parts and integers. -/
structure Ground (M : Matter) (stack : Stack) (w : World) : Prop where
  frames : ∀ f ∈ stack.frames, f.MadeOf M
  store : w.store.MadeOf M

/-- A configuration is made of admitted parts and integers. -/
structure Config.MadeOf (M : Matter) (c : Config) : Prop where
  control : c.control.MadeOf M
  ground : Ground M c.stack c.world

/-- An error blames an admitted part and quotes no line yet, and a result is made of
admitted parts and integers. -/
def Outcome.MadeOf (M : Matter) : Outcome → Prop
  | .finished v => v.MadeOf M
  | .failed fault => Blamed M.code fault.span ∧ fault.quoted = none
  | _ => True

/-- What a move leads to is made of admitted parts and integers. -/
def Next.MadeOf (M : Matter) : Next → Prop
  | .go c => c.MadeOf M
  | .halt outcome w => outcome.MadeOf M ∧ w.store.MadeOf M

/-- What a built-in function answers is made of admitted parts and integers. -/
def Reply.MadeOf (M : Matter) : Reply → Prop
  | .value v w => v.MadeOf M ∧ w.store.MadeOf M
  | .refused _ w => w.store.MadeOf M
  | .exit _ w => w.store.MadeOf M
  | .interrupted w => w.store.MadeOf M

/-- The text whose length a call is about to yield. -/
def measured? (callee : Value) (arguments : List Value) : Option Text :=
  match callee, arguments with
  | .builtin name, [.string t] => if Builtin.ofName? name = some .len then some t else none
  | _, _ => none

/-- The text whose length the next move yields. -/
def Config.measured? (c : Config) : Option Text :=
  match c.control, c.stack.frames with
  | .deliver (.normal v), .operands .call _ [callee] [] _ :: _ =>
    ScriptLang.measured? callee [v]
  | _, _ => none

theorem Ground.store_changed {stack : Stack} {w : World} {σ : Store} (h : Ground M stack w)
    (hσ : σ.MadeOf M) : Ground M stack { w with store := σ } :=
  ⟨h.frames, hσ⟩

namespace Machine

variable {limits : Limits} {stack : Stack} {w : World} {calls : Nat} {scope : ScopeId}
  {span : Span}

/-! ### Moves that all others are made of -/

theorem failAt_madeOf (h : Ground M stack w) (hspan : Blamed M.code span) (cause : RuntimeCause) :
    (failAt cause span w).MadeOf M :=
  ⟨⟨hspan, rfl⟩, h.store⟩

theorem deliver_madeOf (h : Ground M stack w) {c : Completion} (hc : c.value.MadeOf M) :
    (deliver c stack w calls).MadeOf M :=
  ⟨hc, h⟩

theorem yieldValue_madeOf (h : Ground M stack w) {v : Value} (hv : v.MadeOf M) :
    (yieldValue v stack w calls).MadeOf M :=
  deliver_madeOf h hv

theorem descend_madeOf (h : Ground M stack w) {f : Frame} (hf : f.MadeOf M) {control : Control}
    (hc : control.MadeOf M) : (descend limits f control stack w calls).MadeOf M := by
  unfold descend
  split
  · exact ⟨hc, List.forall_mem_cons.2 ⟨hf, h.frames⟩, h.store⟩
  · exact ⟨trivial, h.store⟩

theorem settle_madeOf (h : Ground M stack w) (hspan : Blamed M.code span)
    {result : Except RuntimeCause Value} (hr : ∀ v, result = .ok v → v.MadeOf M) :
    (settle result span stack w calls).MadeOf M := by
  unfold settle
  split
  · next v => exact yieldValue_madeOf h (hr v rfl)
  · exact failAt_madeOf h hspan _

theorem lookup_madeOf (h : w.store.MadeOf M) {name : Text} {v : Value}
    (hv : lookup name scope w = .ok v) : v.MadeOf M := by
  unfold lookup at hv
  split at hv
  · cases hv
    trivial
  · split at hv <;> cases hv
    next hget => exact h.get? hget

theorem bindIn_ground (h : Ground M stack w) {v : Value} (hv : v.MadeOf M) (owner : ScopeId)
    (name : Text) : Ground M stack (bindIn owner name v w) :=
  h.store_changed (h.store.declare hv owner name)

/-! ### Calls and operations -/

theorem enter_madeOf (h : Ground M stack w) (hspan : Blamed M.code span) {f : Closure}
    (hf : Within M.code f.body.parts) {arguments : List Value}
    (ha : ∀ v ∈ arguments, v.MadeOf M) :
    (enter limits f arguments span stack w calls).MadeOf M := by
  unfold enter
  split
  · exact failAt_madeOf h hspan _
  · split
    · exact failAt_madeOf h hspan _
    · have hstore := h.store.newChild f.scope ("call " ++ f.displayName) (some true) (some false)
      refine descend_madeOf (h.store_changed (hstore.declareAll _ fun b hb => ?_)) ?_ ?_
      · exact ha b.2 (List.of_mem_zip hb).2
      · trivial
      · cases hb : f.body with
        | mk span statements => rwa [hb] at hf

theorem readWith_madeOf (h : w.store.MadeOf M) (shown : Text) :
    (Builtin.readWith shown w).MadeOf M := by
  unfold Builtin.readWith
  dsimp only
  split
  · exact ⟨trivial, h⟩
  · exact ⟨trivial, h⟩
  · exact h

theorem builtin_call_madeOf (hM : M.Closed) (h : w.store.MadeOf M) {b : Builtin}
    {arguments : List Value} (ha : ∀ v ∈ arguments, v.MadeOf M)
    (hlen : ∀ t, b = .len → arguments = [.string t] → M.number t.length) :
    (b.call arguments w).MadeOf M := by
  cases b with
  | print => exact ⟨trivial, h⟩
  | input =>
    unfold Builtin.call Builtin.callInput
    dsimp only
    split
    · exact readWith_madeOf h _
    · exact readWith_madeOf h _
    · exact h
  | len =>
    unfold Builtin.call Builtin.callLen
    dsimp only
    split
    · next t => exact ⟨hlen t rfl rfl, h⟩
    · exact h
    · exact h
  | iter =>
    unfold Builtin.call Builtin.callIter
    dsimp only
    split
    · split
      · next he => exact ⟨trivial, h.iterator (ha _ List.mem_cons_self) he⟩
      · exact h
    · exact h
  | next =>
    unfold Builtin.call Builtin.callNext
    dsimp only
    split
    · next id =>
      obtain ⟨hv, hstore⟩ := h.next hM id
      refine ⟨?_, hstore⟩
      cases hn : (w.store.next id).1 with
      | none => trivial
      | some v => exact hv v hn
    · exact h
    · exact h
  | exit =>
    unfold Builtin.call Builtin.callExit
    dsimp only
    split <;> exact h

theorem call_madeOf (hM : M.Closed) (h : Ground M stack w) (hspan : Blamed M.code span)
    {callee : Value} (hc : callee.MadeOf M) {arguments : List Value}
    (ha : ∀ v ∈ arguments, v.MadeOf M)
    (hlen : ∀ t, measured? callee arguments = some t → M.number t.length) :
    (call limits callee arguments span stack w calls).MadeOf M := by
  unfold call
  split
  · exact enter_madeOf h hspan hc ha
  · next name =>
    split
    · next b hb =>
      have hreply := builtin_call_madeOf hM h.store (b := b) ha fun t hb' ht =>
        hlen t (by rw [ht, measured?, if_pos (hb' ▸ hb)])
      unfold accept
      split
      · next v w' hr =>
        rw [hr] at hreply
        exact yieldValue_madeOf ⟨h.frames, hreply.2⟩ hreply.1
      · next hr =>
        rw [hr] at hreply
        exact ⟨⟨hspan, rfl⟩, hreply⟩
      · next hr =>
        rw [hr] at hreply
        exact ⟨trivial, hreply⟩
      · next hr =>
        rw [hr] at hreply
        exact ⟨trivial, hreply⟩
    · exact ⟨trivial, h.store⟩
  · exact failAt_madeOf h hspan _

theorem perform_madeOf (hM : M.Closed) (h : Ground M stack w) {operation : Operation}
    (hoperation : operation.MadeOf M) (hspan : Blamed M.code span) {vs : List Value}
    (hvs : ∀ v ∈ vs, v.MadeOf M)
    (hlen : ∀ t callee arguments, operation = .call → vs = callee :: arguments →
      measured? callee arguments = some t → M.number t.length) :
    (perform limits operation span vs scope stack w calls).MadeOf M := by
  unfold perform
  split
  · exact settle_madeOf h hspan fun v hv => (BinaryOperator.apply_plain hv).madeOf hM
  · exact settle_madeOf h hspan fun v hv => (UnaryOperator.apply_plain hv).madeOf hM
  · split
    · exact yieldValue_madeOf (bindIn_ground h (hvs _ (by simp)) _ _) (hvs _ (by simp))
    · exact failAt_madeOf h hoperation _
  · exact call_madeOf hM h hspan (hvs _ (by simp)) (fun v hv => hvs v (List.mem_cons_of_mem _ hv))
      fun t => hlen t _ _ rfl rfl
  · exact settle_madeOf h hspan fun v hv => (Value.index_plain hv).madeOf hM
  · exact settle_madeOf h hspan fun v hv => (Value.slice_plain hv).madeOf hM
  · refine settle_madeOf h hspan fun v hv => ?_
    obtain ⟨a, b, rfl, rfl, rfl⟩ := Value.makeRange_eq_ok.1 hv
    exact ⟨hvs (.integer a) (by simp), hvs (.integer b) (by simp)⟩
  · exact ⟨trivial, h.store⟩

/-! ### Taking expressions and statements apart -/

theorem count_madeOf (hM : M.Closed) (h : Ground M stack w) {direction : Direction} {side : Side}
    {target : Identifier} (hspan : Blamed M.code span) (htarget : Blamed M.code target.span) :
    (count span direction side target scope stack w calls).MadeOf M := by
  unfold count
  split
  · exact failAt_madeOf h htarget _
  · next old hold =>
    dsimp only
    split
    · exact failAt_madeOf h hspan _
    · next new hnew =>
      have hnew : new.MadeOf M := by
        cases direction with
        | up => exact (Value.add_plain hnew).madeOf hM
        | down => exact (Value.subtract_plain hnew).madeOf hM
      split
      · exact failAt_madeOf h htarget _
      · refine yieldValue_madeOf (bindIn_ground h hnew _ _) ?_
        cases side with
        | before => exact hnew
        | after => exact lookup_madeOf h.store hold

theorem define_madeOf (h : Ground M stack w) (hspan : Blamed M.code span) {name : Option Text}
    {parameters : List Text} {body : Block} (hb : Within M.code body.parts) :
    (define span name parameters body scope stack w calls).MadeOf M := by
  unfold define
  split
  · exact failAt_madeOf h hspan _
  · have hv : (Value.function ⟨name, parameters, body, scope, span⟩).MadeOf M := hb
    dsimp only
    split
    · exact yieldValue_madeOf h hv
    · exact yieldValue_madeOf (bindIn_ground h hv _ _) hv

theorem parts?_within {U : Part → Prop} {e first : Expr} {operation : Operation}
    {rest : List Expr} (h : parts? e = some (operation, first, rest)) (he : Within U e.parts) :
    Within U first.parts ∧ ∀ x ∈ rest, Within U x.parts := by
  rw [← within_partsAll]
  have hoption : ∀ o : Option Expr, Expr.partsAll o.toList = Expr.partsOption o := by
    intro o
    cases o <;> simp [Expr.partsAll, Expr.partsOption]
  cases e <;> cases h <;>
    simpa [Expr.parts, Expr.partsAll, Expr.partsAll_append, hoption, and_assoc] using
      (within_cons.1 he).2

theorem parts?_madeOf {e first : Expr} {operation : Operation} {rest : List Expr}
    (h : parts? e = some (operation, first, rest)) (he : Within M.code e.parts) :
    operation.MadeOf M := by
  cases e with
  | assignment span target value =>
    cases h
    exact ⟨_, he _ (Expr.mem_parts _), by simp [Part.blames]⟩
  | _ => cases h <;> trivial

theorem evaluate_madeOf (hM : M.Closed) (h : Ground M stack w) {e : Expr}
    (he : Within M.code e.parts) : (evaluate limits e scope stack w calls).MadeOf M := by
  have hspan := blamed_of_expr he
  unfold evaluate
  split
  · next value =>
    refine yieldValue_madeOf h ?_
    cases value with
    | integer n => exact hM.literal _ n (he _ (Expr.mem_parts _))
    | _ => trivial
  · exact yieldValue_madeOf h trivial
  · exact settle_madeOf h hspan fun v hv => lookup_madeOf h.store hv
  · exact count_madeOf hM h hspan ⟨_, he _ (Expr.mem_parts _), by simp [Part.blames]⟩
  · exact define_madeOf h hspan (within_cons.1 he).2
  · split
    · next hparts =>
      obtain ⟨hfirst, hrest⟩ := parts?_within hparts he
      refine descend_madeOf h ?_ hfirst
      exact ⟨parts?_madeOf hparts he, hspan, List.forall_mem_nil _, hrest⟩
    · exact ⟨trivial, h.store⟩

theorem enterBlock_madeOf (h : Ground M stack w) {body : Block} (hb : Within M.code body.parts) :
    (enterBlock body scope stack w calls).MadeOf M := by
  cases body with
  | mk span statements => exact ⟨hb, h.store_changed (h.store.newChild _ _ _ _)⟩

theorem testWhile_madeOf (h : Ground M stack w) {loop : WhileLoop}
    (hl : Within M.code loop.parts) : (testWhile limits loop stack w calls).MadeOf M := by
  refine descend_madeOf h ?_ ?_
  · exact hl
  · exact (within_append.1 hl).1

theorem turnElement_madeOf (hM : M.Closed) (h : Ground M stack w) {loop : ElementLoop}
    {iterator : IteratorId} (hl : Within M.code loop.parts) :
    (turnElement limits loop iterator stack w calls).MadeOf M := by
  obtain ⟨helement, hstore⟩ := h.store.next hM iterator
  unfold turnElement
  dsimp only
  split
  · exact yieldValue_madeOf (h.store_changed hstore) trivial
  · next v hv =>
    have hstore := (hstore.newChild loop.scope "for" none (some true)).declare (helement v hv)
      ((w.store.next iterator).2.newChild loop.scope "for" none (some true)).1 loop.item
    refine descend_madeOf (h.store_changed hstore) ?_ ?_
    · exact hl
    · cases hb : loop.body with
      | mk span statements => rwa [ElementLoop.parts, hb] at hl

theorem turnCounting_madeOf (h : Ground M stack w) {loop : CountingLoop}
    (hl : Within M.code loop.parts) : (turnCounting limits loop stack w calls).MadeOf M := by
  refine descend_madeOf (h.store_changed (h.store.newChild _ _ _ _)) ?_ ?_
  · exact hl
  · have hbody := (within_append.1 hl).2
    cases hb : loop.body with
    | mk span statements => rwa [hb] at hbody

theorem testCounting_madeOf (h : Ground M stack w) {loop : CountingLoop}
    (hl : Within M.code loop.parts) : (testCounting limits loop stack w calls).MadeOf M := by
  unfold testCounting
  split
  · exact turnCounting_madeOf h hl
  · next e he =>
    have hcondition : Within M.code e.parts := by
      simp only [CountingLoop.parts, he, within_append] at hl
      exact hl.1.1
    refine descend_madeOf h ?_ hcondition
    exact ⟨blamed_of_expr hcondition, hl⟩

theorem execute_madeOf (h : Ground M stack w) {s : Stmt} (hs : Within M.code s.parts) :
    (execute limits s scope stack w calls).MadeOf M := by
  have hspan := blamed_of_stmt hs
  unfold execute
  split
  · exact ⟨(within_cons.1 hs).2, h⟩
  · split
    · exact failAt_madeOf h hspan _
    · refine descend_madeOf h ?_ (within_cons.1 hs).2
      trivial
  · next span condition body otherwise =>
    simp only [Stmt.parts, Conditional.parts, within_cons, within_append] at hs
    refine descend_madeOf h ?_ hs.2.1.1
    exact ⟨blamed_of_expr hs.2.1.1, within_append.2 ⟨hs.2.1.2, hs.2.2⟩⟩
  · exact testWhile_madeOf h (within_cons.1 hs).2
  · next span item iterable body =>
    simp only [Stmt.parts, within_cons, within_append] at hs
    split
    · exact failAt_madeOf h hspan _
    · refine descend_madeOf h ?_ hs.2.1
      exact ⟨blamed_of_expr hs.2.1, hs.2.2⟩
  · next span initializer condition step body =>
    simp only [Stmt.parts, within_cons, within_append] at hs
    have hloop : ∀ inner, Within M.code (CountingLoop.parts ⟨condition, step, body, inner⟩) :=
      fun inner => within_append.2 ⟨within_append.2 ⟨hs.2.1.1.2, hs.2.1.2⟩, hs.2.2⟩
    have h := h.store_changed (h.store.newChild scope "for" none none)
    dsimp only
    split
    · exact testCounting_madeOf h (hloop _)
    · refine descend_madeOf h ?_ hs.2.1.1.1
      exact hloop _
  · next span value =>
    split
    · split
      · exact deliver_madeOf h trivial
      · refine descend_madeOf h ?_ (within_cons.1 hs).2
        trivial
    · exact failAt_madeOf h hspan _
  · split
    · exact deliver_madeOf h trivial
    · exact failAt_madeOf h hspan _
  · split
    · exact deliver_madeOf h trivial
    · exact failAt_madeOf h hspan _
  · have hcondition := (within_cons.1 hs).2
    refine descend_madeOf h ?_ hcondition
    exact ⟨blamed_of_expr hcondition, hspan⟩

/-! ### Handing completions on -/

theorem resumeValue_madeOf (hM : M.Closed) (h : Ground M stack w) {f : Frame} (hf : f.MadeOf M)
    {v : Value} (hv : v.MadeOf M)
    (hlen : ∀ t span callee scope, f = .operands .call span [callee] [] scope →
      measured? callee [v] = some t → M.number t.length) :
    (resumeValue limits f v stack w calls).MadeOf M := by
  unfold resumeValue
  split
  · next operation span found scope =>
    obtain ⟨hoperation, hspan, hfound, -⟩ := hf
    refine perform_madeOf hM h hoperation hspan (fun u hu => ?_) ?_
    · rcases List.mem_cons.1 (List.mem_reverse.1 hu) with rfl | hu
      · exact hv
      · exact hfound u hu
    · rintro t callee arguments rfl hvs ht
      have harguments : ∃ u, arguments = [u] := by
        unfold measured? at ht
        split at ht
        · exact ⟨_, rfl⟩
        · cases ht
      obtain ⟨u, rfl⟩ := harguments
      have hfound : v :: found = [u, callee] := by
        rw [← List.reverse_reverse (v :: found), hvs]
        rfl
      cases hfound
      exact hlen t span callee scope rfl ht
  · obtain ⟨hoperation, hspan, hfound, hrest⟩ := hf
    rw [List.forall_mem_cons] at hrest
    refine descend_madeOf h ?_ hrest.1
    exact ⟨hoperation, hspan, List.forall_mem_cons.2 ⟨hv, hfound⟩, hrest.2⟩
  · exact yieldValue_madeOf (bindIn_ground h hv _ _) hv
  · exact deliver_madeOf h hv
  · split
    · exact failAt_madeOf h hf.1 _
    · exact yieldValue_madeOf h trivial
    · exact failAt_madeOf h hf.2 _
  · obtain ⟨hcondition, hcode⟩ := hf
    rw [within_append] at hcode
    split
    · exact failAt_madeOf h hcondition _
    · exact enterBlock_madeOf h hcode.1
    · exact yieldValue_madeOf h trivial
    · exact enterBlock_madeOf h hcode.2
    · exact ⟨hcode.2, h⟩
  · next loop =>
    have hcode := within_append.1 hf
    split
    · exact failAt_madeOf h (blamed_of_expr hcode.1) _
    · exact yieldValue_madeOf h trivial
    · refine descend_madeOf (h.store_changed (h.store.newChild _ _ _ _)) ?_ ?_
      · exact hf
      · have hbody := hcode.2
        cases hb : loop.body with
        | mk span statements => rwa [hb] at hbody
  · split
    · exact failAt_madeOf h hf.1 _
    · next elements he =>
      exact turnElement_madeOf hM (h.store_changed (h.store.iterator hv he)) hf.2
  · split
    · exact failAt_madeOf h hf.1 _
    · exact yieldValue_madeOf h trivial
    · exact turnCounting_madeOf h hf.2
  · exact testCounting_madeOf h hf
  · exact ⟨trivial, h.store⟩

theorem stepCounting_madeOf (h : Ground M stack w) {loop : CountingLoop}
    (hl : Within M.code loop.parts) : (stepCounting limits loop stack w calls).MadeOf M := by
  unfold stepCounting
  split
  · exact testCounting_madeOf h hl
  · next e he =>
    refine descend_madeOf h ?_ ?_
    · exact hl
    · simp only [CountingLoop.parts, he, within_append] at hl
      exact hl.1.2

theorem resume_madeOf (hM : M.Closed) (h : Ground M stack w) {f : Frame} (hf : f.MadeOf M)
    {c : Completion} (hc : c.value.MadeOf M)
    (hlen : ∀ t v span callee scope, c = .normal v → f = .operands .call span [callee] [] scope →
      measured? callee [v] = some t → M.number t.length) :
    (resume limits f c stack w calls).MadeOf M := by
  unfold resume
  split
  · split
    · exact ⟨hf, h⟩
    · exact deliver_madeOf h hc
  · split
    · exact yieldValue_madeOf h trivial
    · exact deliver_madeOf h hc
    · exact testWhile_madeOf h hf
  · split
    · exact yieldValue_madeOf h trivial
    · exact deliver_madeOf h hc
    · exact turnElement_madeOf hM h hf
  · exact testCounting_madeOf h hf
  · split
    · exact yieldValue_madeOf h trivial
    · exact deliver_madeOf h hc
    · exact stepCounting_madeOf h hf
  · split
    · exact yieldValue_madeOf h hc
    · exact yieldValue_madeOf h trivial
  · split
    · exact resumeValue_madeOf hM h hf hc fun t span callee scope => hlen t _ span callee scope rfl
    · exact ⟨trivial, h.store⟩

/-- Each move keeps a configuration made of admitted parts and integers, if the length it
measures is admitted. -/
theorem step_madeOf (hM : M.Closed) {c : Config} (h : c.MadeOf M)
    (hlen : ∀ t, c.measured? = some t → M.number t.length) : (step limits c).MadeOf M := by
  obtain ⟨control, ⟨frames, height, heq⟩, w, calls⟩ := c
  obtain ⟨hc, h⟩ := h
  cases control with
  | expression e scope => exact evaluate_madeOf hM h hc
  | statement s scope => exact execute_madeOf h hc
  | statements ss scope =>
    cases ss with
    | nil => exact yieldValue_madeOf h trivial
    | cons s rest =>
      obtain ⟨hs, hrest⟩ := within_append.1 hc
      refine descend_madeOf h ?_ ?_
      · exact hrest
      · exact hs
  | deliver c =>
    cases frames with
    | nil => exact ⟨hc, h.store⟩
    | cons f rest =>
      refine resume_madeOf hM ⟨fun g hg => h.frames g (List.mem_cons_of_mem f hg), h.store⟩
        (h.frames f List.mem_cons_self) hc ?_
      rintro t v span callee scope rfl rfl ht
      exact hlen t ht

/-! ### Runs -/

theorem load_madeOf {program : Block} {root : ScopeId} (hprogram : Within M.code program.parts)
    (hw : w.store.MadeOf M) : (load program root w).MadeOf M := by
  cases program with
  | mk span statements => exact ⟨hprogram, nofun, hw⟩

/-- What is reached is made of admitted parts and integers, if all lengths measured on the
way are admitted. -/
theorem Reaches.madeOf (hM : M.Closed) {c d : Config} (hc : c.MadeOf M)
    (hlen : ∀ e t, Reaches limits c e → e.measured? = some t → M.number t.length)
    (h : Reaches limits c d) : d.MadeOf M := by
  induction h with
  | refl => exact hc
  | step hreach hstep ih =>
    have hnext : (Machine.step limits _).MadeOf M :=
      step_madeOf hM ih fun t => hlen _ t hreach
    rwa [hstep] at hnext

theorem Ends.madeOf (hM : M.Closed) {c : Config} {outcome : Outcome} (hc : c.MadeOf M)
    (hlen : ∀ e t, Reaches limits c e → e.measured? = some t → M.number t.length)
    (h : Ends limits c outcome w) : outcome.MadeOf M ∧ w.store.MadeOf M := by
  obtain ⟨d, hreach, hstep⟩ := h
  have hnext : (Machine.step limits d).MadeOf M :=
    step_madeOf hM (hreach.madeOf hM hc hlen) fun t => hlen d t hreach
  rwa [hstep] at hnext

end Machine

end ScriptLang
