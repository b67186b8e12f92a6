import ScriptLang.Proofs.Machine.Reach
import ScriptLang.Proofs.Store.Sound

/-!
# Runs do not get stuck

Every move of the machine leads on or to an end that a program can have (`step_sound`). For
this the frames have to fit on each other: what waits for a value is handed one, so a frame
that executes statements lies where any completion is taken (`Open`); an operation is
performed on as many values as it takes (`Operation.Takes`); and a called built-in function
is one that there is, which the soundness of the store says (`Store.Sound`).

Names are checked at different times: those of declarations, loops and functions when the
statement is taken apart, those that are bound again when the value is there. What was
checked before is kept in the frame that waits (`Frame.Fits`) or in the function
(`Value.Sound`).
-/

namespace ScriptLang

/-- How many values an operation takes. -/
def Operation.Takes : Operation → Nat → Prop
  | .binary _, n => n = 2
  | .unary _, n => n = 1
  | .assign _, n => n = 1
  | .call, n => 1 ≤ n
  | .index, n => n = 2
  | .slice _ _ _, n => 1 ≤ n
  | .range, n => n = 2

/-- A frame that takes any completion, not only one with a value. -/
def Frame.TakesAny : Frame → Prop
  | .whileBody _ => True
  | .elementBody _ _ => True
  | .countingStart _ => True
  | .countingBody _ => True
  | .sequence _ _ => True
  | .call => True
  | _ => False

/-- Nothing waits, or the topmost frame takes any completion. -/
def Open (frames : List Frame) : Prop := ∀ f ∈ frames.head?, f.TakesAny

/-- A frame can wait above others. -/
def Frame.Fits (below : List Frame) : Frame → Prop
  | .operands operation _ found rest _ =>
    operation.Takes (found.length + 1 + rest.length) ∧ ∀ v ∈ found, v.Sound
  | .declare name _ => Builtin.isReserved name = false
  | .giveBack => Open below
  | .assertion _ _ _ => True
  | .branch _ _ _ _ => Open below
  | .whileTest _ => Open below
  | .whileBody _ => Open below
  | .elements loop _ => Open below ∧ Builtin.isReserved loop.item = false
  | .elementBody loop _ => Open below ∧ Builtin.isReserved loop.item = false
  | .countingStart _ => Open below
  | .countingTest _ _ => Open below
  | .countingBody _ => Open below
  | .countingStep _ => Open below
  | .sequence _ _ => Open below
  | .call => True

/-- Each frame can wait above those below it. -/
def Fitting : List Frame → Prop
  | [] => True
  | f :: below => f.Fits below ∧ Fitting below

/-- What is being done can be done above the frames. -/
def Control.Fits (frames : List Frame) : Control → Prop
  | .expression _ _ => True
  | .statement _ _ => Open frames
  | .statements _ _ => Open frames
  | .deliver c => c.value.Sound ∧ ((∃ v, c = .normal v) ∨ Open frames)

/-- Frames that can wait, in a world with a sound store. -/
structure Footing (stack : Stack) (w : World) : Prop where
  frames : Fitting stack.frames
  store : w.store.Sound

/-- A configuration that a program leads to. -/
structure Config.Sound (c : Config) : Prop where
  control : c.control.Fits c.stack.frames
  footing : Footing c.stack c.world

/-- An end that a program can come to. -/
def Outcome.Sound : Outcome → Prop
  | .finished v => v.Sound
  | .stuck => False
  | _ => True

/-- A move that a program can make. -/
def Next.Sound : Next → Prop
  | .go c => c.Sound
  | .halt outcome w => outcome.Sound ∧ w.store.Sound

theorem open_nil : Open [] := nofun

theorem open_cons {f : Frame} {below : List Frame} : Open (f :: below) ↔ f.TakesAny := by
  simp [Open]

theorem Footing.store_changed {stack : Stack} {w : World} {σ : Store} (h : Footing stack w)
    (hσ : σ.Sound) : Footing stack { w with store := σ } :=
  ⟨h.frames, hσ⟩

namespace Machine

variable {limits : Limits} {stack : Stack} {w : World} {calls : Nat} {scope : ScopeId}
  {span : Span}

/-! ### Moves that all others are made of -/

theorem failAt_sound (h : Footing stack w) (cause : RuntimeCause) (span : Span) :
    (failAt cause span w).Sound :=
  ⟨trivial, h.store⟩

theorem yieldValue_sound (h : Footing stack w) {v : Value} (hv : v.Sound) :
    (yieldValue v stack w calls).Sound :=
  ⟨⟨hv, .inl ⟨v, rfl⟩⟩, h⟩

theorem deliver_sound (h : Footing stack w) (hopen : Open stack.frames) {c : Completion}
    (hc : c.value.Sound) : (deliver c stack w calls).Sound :=
  ⟨⟨hc, .inr hopen⟩, h⟩

theorem descend_sound (h : Footing stack w) {f : Frame} (hf : f.Fits stack.frames)
    {control : Control} (hc : control.Fits (f :: stack.frames)) :
    (descend limits f control stack w calls).Sound := by
  unfold descend
  split
  · exact ⟨hc, ⟨hf, h.frames⟩, h.store⟩
  · exact ⟨trivial, h.store⟩

theorem settle_sound (h : Footing stack w) {result : Except RuntimeCause Value}
    (hr : ∀ v, result = .ok v → v.Sound) : (settle result span stack w calls).Sound := by
  unfold settle
  split
  · next v => exact yieldValue_sound h (hr v rfl)
  · exact failAt_sound h _ _

/-! ### Names -/

theorem lookup_sound (h : w.store.Sound) {name : Text} {v : Value}
    (hv : lookup name scope w = .ok v) : v.Sound := by
  unfold lookup at hv
  split at hv
  · next hreserved =>
    cases hv
    exact hreserved
  · split at hv <;> cases hv
    next hget => exact (h.get? hget).2

/-- A variable is found under its name, although built-in functions are found first. -/
theorem lookup_of_get? (h : w.store.Sound) {name : Text} {v : Value}
    (hv : w.store.get? scope name = some v) : lookup name scope w = .ok v := by
  rw [lookup, (h.get? hv).1, hv]
  rfl

theorem not_isReserved_of_owner {name : Text} {id : ScopeId} (h : owner name scope w = .ok id) :
    Builtin.isReserved name = false := by
  unfold owner at h
  split at h
  · cases h
  · next hname => exact Bool.not_eq_true _ ▸ hname

theorem bindIn_footing (h : Footing stack w) {name : Text}
    (hname : Builtin.isReserved name = false) {v : Value} (hv : v.Sound) (owner : ScopeId) :
    Footing stack (bindIn owner name v w) :=
  h.store_changed (h.store.declare hname hv owner)

/-! ### Calls and operations -/

theorem enter_sound (h : Footing stack w) {f : Closure}
    (hf : ∀ p ∈ f.parameters, Builtin.isReserved p = false) {arguments : List Value}
    (ha : ∀ v ∈ arguments, v.Sound) : (enter limits f arguments span stack w calls).Sound := by
  unfold enter
  split
  · exact failAt_sound h _ _
  · split
    · exact failAt_sound h _ _
    · have hstore := h.store.newChild f.scope ("call " ++ f.displayName) (some true) (some false)
      refine descend_sound (h.store_changed (hstore.declareAll (fun b hb => ?_) _)) ?_ ?_
      · obtain ⟨hp, hv⟩ := List.of_mem_zip hb
        exact ⟨hf b.1 hp, ha b.2 hv⟩
      · trivial
      · exact open_cons.2 trivial

theorem accept_sound (h : Footing stack w) {reply : Reply} (hstore : reply.world.store.Sound)
    (hvalue : ∀ v w', reply = .value v w' → v.Sound) :
    (accept reply span stack calls).Sound := by
  cases reply with
  | value v w' => exact yieldValue_sound ⟨h.frames, hstore⟩ (hvalue v w' rfl)
  | _ => exact ⟨trivial, hstore⟩

theorem call_sound (h : Footing stack w) {callee : Value} (hc : callee.Sound)
    {arguments : List Value} (ha : ∀ v ∈ arguments, v.Sound) :
    (call limits callee arguments span stack w calls).Sound := by
  unfold call
  split
  · exact enter_sound h hc ha
  · next name =>
    -- the name of a built-in function finds it
    obtain ⟨b, hb⟩ := Option.isSome_iff_exists.1 hc
    rw [hb]
    exact accept_sound h (h.store.of_scopes_eq (Builtin.call_scopes b arguments w))
      fun v w' hv => (Builtin.call_data hv).sound
  · exact failAt_sound h _ _

theorem perform_sound (h : Footing stack w) {operation : Operation} {vs : List Value}
    (hvs : ∀ v ∈ vs, v.Sound) (htakes : operation.Takes vs.length) :
    (perform limits operation span vs scope stack w calls).Sound := by
  cases operation with
  | binary op =>
    match vs, htakes with
    | [left, right], _ =>
      exact settle_sound h fun v hv => (BinaryOperator.apply_plain hv).data.sound
  | unary op =>
    match vs, htakes with
    | [operand], _ => exact settle_sound h fun v hv => (UnaryOperator.apply_plain hv).data.sound
  | assign target =>
    match vs, htakes with
    | [v], _ =>
      rw [List.forall_mem_singleton] at hvs
      unfold perform
      dsimp only
      split
      · next howner =>
        exact yieldValue_sound (bindIn_footing h (not_isReserved_of_owner howner) hvs _) hvs
      · exact failAt_sound h _ _
  | call =>
    match vs, htakes with
    | callee :: arguments, _ =>
      rw [List.forall_mem_cons] at hvs
      exact call_sound h hvs.1 hvs.2
  | index =>
    match vs, htakes with
    | [target, position], _ => exact settle_sound h fun v hv => (Value.index_plain hv).data.sound
  | slice start stop step =>
    match vs, htakes with
    | target :: rest, _ => exact settle_sound h fun v hv => (Value.slice_plain hv).data.sound
  | range =>
    match vs, htakes with
    | [start, stop], _ => exact settle_sound h fun v hv => (Value.makeRange_data hv).sound

/-! ### Taking expressions and statements apart -/

theorem count_sound (h : Footing stack w) {direction : Direction} {side : Side}
    {target : Identifier} :
    (count span direction side target scope stack w calls).Sound := by
  unfold count
  split
  · exact failAt_sound h _ _
  · next old hold =>
    dsimp only
    split
    · exact failAt_sound h _ _
    · next new hnew =>
      have hnew : new.Sound := by
        cases direction with
        | up => exact (Value.add_plain hnew).data.sound
        | down => exact (Value.subtract_plain hnew).data.sound
      split
      · exact failAt_sound h _ _
      · next howner =>
        refine yieldValue_sound (bindIn_footing h (not_isReserved_of_owner howner) hnew _) ?_
        cases side with
        | before => exact hnew
        | after => exact lookup_sound h.store hold

theorem define_sound (h : Footing stack w) {name : Option Text} {parameters : List Text}
    {body : Block} : (define span name parameters body scope stack w calls).Sound := by
  unfold define
  split
  · exact failAt_sound h _ _
  · next hnone =>
    have hnames : ∀ n ∈ name.toList ++ parameters, Builtin.isReserved n = false := fun n hn =>
      Bool.not_eq_true _ ▸ List.find?_eq_none.1 hnone n hn
    have hv : (Value.function ⟨name, parameters, body, scope, span⟩).Sound :=
      fun p hp => hnames p (List.mem_append_right _ hp)
    dsimp only
    split
    · exact yieldValue_sound h hv
    · next n =>
      have hn := hnames n (List.mem_append_left _ (by simp))
      exact yieldValue_sound (bindIn_footing h hn hv _) hv

/-- An operation has as many parts as it takes values. -/
theorem takes_of_parts? {e first : Expr} {operation : Operation} {rest : List Expr}
    (h : parts? e = some (operation, first, rest)) : operation.Takes (1 + rest.length) := by
  cases e <;> cases h <;> simp [Operation.Takes]

theorem evaluate_of_parts? {e first : Expr} {operation : Operation} {rest : List Expr}
    (h : parts? e = some (operation, first, rest)) :
    evaluate limits e scope stack w calls =
      descend limits (.operands operation e.span [] rest scope) (.expression first scope) stack w
        calls := by
  cases e <;> cases h <;> rfl

theorem evaluate_sound (h : Footing stack w) (e : Expr) :
    (evaluate limits e scope stack w calls).Sound := by
  cases hparts : parts? e with
  | some x =>
    obtain ⟨operation, first, rest⟩ := x
    rw [evaluate_of_parts? hparts]
    refine descend_sound h ?_ ?_
    · exact ⟨takes_of_parts? hparts, List.forall_mem_nil _⟩
    · trivial
  | none =>
    cases e with
    | literal span value => exact yieldValue_sound h (Value.data_ofLiteral value).sound
    | nothing span => exact yieldValue_sound h trivial
    | identifier i => exact settle_sound h fun v hv => lookup_sound h.store hv
    | increment span direction side target => exact count_sound h
    | function span name parameters body => exact define_sound h
    | _ => cases hparts

theorem enterBlock_sound (h : Footing stack w) (hopen : Open stack.frames) (body : Block) :
    (enterBlock body scope stack w calls).Sound :=
  ⟨hopen, h.store_changed (h.store.newChild _ _ _ _)⟩

theorem testWhile_sound (h : Footing stack w) (hopen : Open stack.frames) (loop : WhileLoop) :
    (testWhile limits loop stack w calls).Sound := by
  refine descend_sound h ?_ ?_
  · exact hopen
  · trivial

theorem turnElement_sound (h : Footing stack w) (hopen : Open stack.frames) {loop : ElementLoop}
    (hitem : Builtin.isReserved loop.item = false) (iterator : IteratorId) :
    (turnElement limits loop iterator stack w calls).Sound := by
  have hstore := h.store.next iterator
  unfold turnElement
  dsimp only
  split
  · exact yieldValue_sound (h.store_changed hstore) trivial
  · next v hv =>
    have hinner := hstore.newChild loop.scope "for" none (some true)
    refine descend_sound (h.store_changed
      (hinner.declare hitem ((Store.next_data hv).sound) _)) ?_ ?_
    · exact ⟨hopen, hitem⟩
    · exact open_cons.2 trivial

theorem turnCounting_sound (h : Footing stack w) (hopen : Open stack.frames)
    (loop : CountingLoop) : (turnCounting limits loop stack w calls).Sound := by
  refine descend_sound (h.store_changed (h.store.newChild _ _ _ _)) ?_ ?_
  · exact hopen
  · exact open_cons.2 trivial

theorem testCounting_sound (h : Footing stack w) (hopen : Open stack.frames)
    (loop : CountingLoop) : (testCounting limits loop stack w calls).Sound := by
  unfold testCounting
  split
  · exact turnCounting_sound h hopen loop
  · refine descend_sound h ?_ ?_
    · exact hopen
    · trivial

theorem execute_sound (h : Footing stack w) (hopen : Open stack.frames) (s : Stmt) :
    (execute limits s scope stack w calls).Sound := by
  unfold execute
  split
  · exact ⟨trivial, h⟩
  · split
    · exact failAt_sound h _ _
    · next hname =>
      refine descend_sound h ?_ ?_
      · exact Bool.eq_false_iff.2 hname
      · trivial
  · refine descend_sound h ?_ ?_
    · exact hopen
    · trivial
  · exact testWhile_sound h hopen _
  · split
    · exact failAt_sound h _ _
    · next hitem =>
      refine descend_sound h ?_ ?_
      · exact ⟨hopen, Bool.eq_false_iff.2 hitem⟩
      · trivial
  · have hinner := h.store_changed (h.store.newChild scope "for" none none)
    dsimp only
    split
    · exact testCounting_sound hinner hopen _
    · refine descend_sound hinner ?_ ?_
      · exact hopen
      · exact open_cons.2 trivial
  · split
    · split
      · exact deliver_sound h hopen trivial
      · refine descend_sound h ?_ ?_
        · exact hopen
        · trivial
    · exact failAt_sound h _ _
  · split
    · exact deliver_sound h hopen trivial
    · exact failAt_sound h _ _
  · split
    · exact deliver_sound h hopen trivial
    · exact failAt_sound h _ _
  · refine descend_sound h ?_ ?_
    · trivial
    · trivial

/-! ### Handing completions on -/

theorem resumeValue_sound (h : Footing stack w) {f : Frame} (hf : f.Fits stack.frames)
    (hvalue : ¬ f.TakesAny) {v : Value} (hv : v.Sound) :
    (resumeValue limits f v stack w calls).Sound := by
  cases f with
  | operands operation span found rest scope =>
    obtain ⟨htakes, hfound⟩ := hf
    have hfound' := List.forall_mem_cons.2 ⟨hv, hfound⟩
    cases rest with
    | nil =>
      refine perform_sound h (fun u hu => hfound' u (List.mem_reverse.1 hu)) ?_
      rwa [List.length_reverse, List.length_cons]
    | cons e rest =>
      refine descend_sound h ?_ ?_
      · refine ⟨?_, hfound'⟩
        rwa [List.length_cons, Nat.add_assoc, Nat.add_comm 1]
      · trivial
  | declare name scope => exact yieldValue_sound (bindIn_footing h hf hv _) hv
  | giveBack => exact deliver_sound h hf hv
  | assertion condition message span =>
    unfold resumeValue
    dsimp only
    split
    · exact failAt_sound h _ _
    · exact yieldValue_sound h trivial
    · exact failAt_sound h _ _
  | branch condition body otherwise scope =>
    unfold resumeValue
    dsimp only
    split
    · exact failAt_sound h _ _
    · exact enterBlock_sound h hf _
    · exact yieldValue_sound h trivial
    · exact enterBlock_sound h hf _
    · exact ⟨hf, h⟩
  | whileTest loop =>
    unfold resumeValue
    dsimp only
    split
    · exact failAt_sound h _ _
    · exact yieldValue_sound h trivial
    · refine descend_sound (h.store_changed (h.store.newChild _ _ _ _)) ?_ ?_
      · exact hf
      · exact open_cons.2 trivial
  | elements loop iterable =>
    unfold resumeValue
    dsimp only
    split
    · exact failAt_sound h _ _
    · exact turnElement_sound (h.store_changed (h.store.iterator _)) hf.1 hf.2 _
  | countingTest loop condition =>
    unfold resumeValue
    dsimp only
    split
    · exact failAt_sound h _ _
    · exact yieldValue_sound h trivial
    · exact turnCounting_sound h hf loop
  | countingStep loop => exact testCounting_sound h hf loop
  | _ => exact absurd trivial hvalue

theorem stepCounting_sound (h : Footing stack w) (hopen : Open stack.frames)
    (loop : CountingLoop) : (stepCounting limits loop stack w calls).Sound := by
  unfold stepCounting
  split
  · exact testCounting_sound h hopen loop
  · refine descend_sound h ?_ ?_
    · exact hopen
    · trivial

/-- A frame that does not take any completion takes a value. -/
theorem resume_normal {f : Frame} (hvalue : ¬ f.TakesAny) (v : Value) :
    resume limits f (.normal v) stack w calls = resumeValue limits f v stack w calls := by
  cases f <;> first | rfl | exact absurd trivial hvalue

theorem resume_sound (h : Footing stack w) {f : Frame} (hf : f.Fits stack.frames)
    {c : Completion} (hc : c.value.Sound) (htakes : (∃ v, c = .normal v) ∨ f.TakesAny) :
    (resume limits f c stack w calls).Sound := by
  by_cases hany : f.TakesAny
  · cases f with
    | sequence rest scope =>
      unfold resume
      dsimp only
      split
      · exact ⟨hf, h⟩
      · exact deliver_sound h hf hc
    | whileBody loop =>
      cases c with
      | broke => exact yieldValue_sound h trivial
      | returned v => exact deliver_sound h hf hc
      | _ => exact testWhile_sound h hf loop
    | elementBody loop iterator =>
      cases c with
      | broke => exact yieldValue_sound h trivial
      | returned v => exact deliver_sound h hf.1 hc
      | _ => exact turnElement_sound h hf.1 hf.2 iterator
    | countingStart loop => exact testCounting_sound h hf loop
    | countingBody loop =>
      cases c with
      | broke => exact yieldValue_sound h trivial
      | returned v => exact deliver_sound h hf hc
      | _ => exact stepCounting_sound h hf loop
    | call =>
      cases c with
      | returned v => exact yieldValue_sound h hc
      | _ => exact yieldValue_sound h trivial
    | _ => exact hany.elim
  · obtain ⟨v, rfl⟩ := htakes.resolve_right hany
    rw [resume_normal hany]
    exact resumeValue_sound h hf hany hc

/-- A move from a configuration that a program leads to is one that a program can make. -/
theorem step_sound {c : Config} (h : c.Sound) : (step limits c).Sound := by
  obtain ⟨control, ⟨frames, height, heq⟩, w, calls⟩ := c
  obtain ⟨hc, h⟩ := h
  cases control with
  | expression e scope => exact evaluate_sound h e
  | statement s scope => exact execute_sound h hc s
  | statements ss scope =>
    cases ss with
    | nil => exact yieldValue_sound h trivial
    | cons s rest =>
      refine descend_sound h ?_ ?_
      · exact hc
      · exact open_cons.2 trivial
  | deliver c =>
    obtain ⟨hv, htakes⟩ := hc
    cases frames with
    | nil => exact ⟨hv, h.store⟩
    | cons f below =>
      obtain ⟨hf, hbelow⟩ := h.frames
      exact resume_sound ⟨hbelow, h.store⟩ hf hv (htakes.imp_right open_cons.1)

/-! ### Runs -/

theorem load_sound (h : w.store.Sound) (program : Block) (root : ScopeId) :
    (load program root w).Sound :=
  ⟨open_nil, trivial, h⟩

theorem Reaches.sound {c d : Config} (hc : c.Sound) (h : Reaches limits c d) : d.Sound := by
  refine h.keeps (fun c d hc hstep => ?_) hc
  have hnext : (Machine.step limits c).Sound := step_sound hc
  rwa [hstep] at hnext

theorem Ends.sound {c : Config} {outcome : Outcome} (hc : c.Sound)
    (h : Ends limits c outcome w) : outcome.Sound ∧ w.store.Sound := by
  obtain ⟨d, hreach, hstep⟩ := h
  have hnext : (Machine.step limits d).Sound := step_sound (hreach.sound hc)
  rwa [hstep] at hnext

end Machine

end ScriptLang
