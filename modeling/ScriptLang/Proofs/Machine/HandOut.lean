import ScriptLang.Proofs.Machine.Move
import ScriptLang.Proofs.Store.Iterator

/-!
# Making iterators and taking from them

An iterator is made by a call of `iter` and by a loop over a string or a range
(`Stage.makes?`). An element is taken from one by a call of `next`, when a loop over elements
begins and after each turn of it (`Stage.asks?`), and what the machine does with it then is to
yield it or to bind it for a turn (`HandsOver`). No other move touches an iterator:
`step_iterators` says what each move leaves of all of them.
-/

namespace ScriptLang

/-- The iterator that the elements of a value are taken from. -/
def Value.source? (v : Value) (σ : Store) : Option IteratorId :=
  match v.elements with
  | .ok (.fresh _) => some σ.newIterator
  | .ok (.shared id) => some id
  | .error _ => none

theorem Value.source?_of_elements {v : Value} {elements : Elements} (h : v.elements = .ok elements)
    (σ : Store) : v.source? σ = some (σ.iterator elements).1 := by
  rw [source?, h]
  cases elements <;> rfl

namespace Stage

/-- The built-in function that the next move calls, with the arguments. -/
def builtin? (s : Stage) : Option (Builtin × List Value) :=
  match s.control, s.frames with
  | .deliver (.normal v), .operands .call _ found [] _ :: _ =>
    match (v :: found).reverse with
    | .builtin name :: arguments => (Builtin.ofName? name).map fun b => (b, arguments)
    | _ => none
  | _, _ => none

/-- The iterator that the next move makes. -/
def makes? (s : Stage) : Option Iterator :=
  match s.control, s.frames with
  | .deliver (.normal v), .elements _ _ :: _ => v.ownIterator?
  | _, _ =>
    match s.builtin? with
    | some (.iter, [v]) => v.ownIterator?
    | _ => none

/-- The iterator that the next move takes an element from. -/
def asks? (s : Stage) : Option IteratorId :=
  match s.control, s.frames with
  | .deliver (.normal v), .elements _ _ :: _ => v.source? s.world.store
  | .deliver k, .elementBody _ id :: _ => if k.leaving?.isNone then some id else none
  | _, _ =>
    match s.builtin? with
    | some (.next, [.iterator id]) => some id
    | _ => none

/-- The store with the iterator that the next move makes. -/
def supplied (s : Stage) : Store :=
  match s.makes? with
  | some i => (s.world.store.addIterator i).2
  | none => s.world.store

/-- The store without the element that the next move takes. -/
def leftover (s : Stage) : Store :=
  match s.asks? with
  | some id => (s.supplied.next id).2
  | none => s.supplied

theorem builtin?_eq_some {s : Stage} {b : Builtin} {arguments : List Value}
    (h : s.builtin? = some (b, arguments)) :
    ∃ v span found scope base name, s.control = .deliver (.normal v) ∧
      s.frames = .operands .call span found [] scope :: base ∧
      (v :: found).reverse = .builtin name :: arguments ∧ Builtin.ofName? name = some b := by
  unfold builtin? at h
  split at h
  · next v span found scope base hcontrol hframes =>
    split at h
    · next name rest hvs =>
      obtain ⟨b', hb, heq⟩ := Option.map_eq_some_iff.1 h
      cases heq
      exact ⟨v, span, found, scope, base, name, hcontrol, hframes, hvs, hb⟩
    · cases h
  · cases h

end Stage

/-- The world that a move leads to, whether the run ends there or not. -/
def Next.world : Next → World
  | .go d => d.world
  | .halt _ w => w

/-- The loop that waits for its elements. -/
def Frame.elementLoop? : Frame → Option ElementLoop
  | .elements loop _ => some loop
  | .elementBody loop _ => some loop
  | _ => none

namespace Machine

variable {limits : Limits} {c : Config} {w : World} {n : Nat} {e : Stage} {id : IteratorId}

/-- What becomes of an element that is taken, or of the lack of one: a call yields it or
`nothing`; a loop binds it in a scope of its own, in which its body runs next, or ends. -/
inductive HandsOver (limits : Limits) (c : Config) (id : IteratorId) :
    Option Value → Next → Prop
  | value {r : Option Value} {f : Frame} {below : Stack} {w : World}
      (hpop : c.stack.pop? = some (f, below)) (hf : f.elementLoop? = none) :
      HandsOver limits c id r (yieldValue (r.getD .nothing) below w c.calls)
  | last {f : Frame} {loop : ElementLoop} {below : Stack} {w : World}
      (hpop : c.stack.pop? = some (f, below)) (hf : f.elementLoop? = some loop) :
      HandsOver limits c id none (yieldValue .nothing below w c.calls)
  | turn {f : Frame} {loop : ElementLoop} {below : Stack} {w : World} {inner : ScopeId}
      {v : Value} (hpop : c.stack.pop? = some (f, below)) (hf : f.elementLoop? = some loop)
      (hbound : w.store.bindings inner = [(loop.item, v)]) :
      HandsOver limits c id (some v)
        (descend limits (.elementBody loop id) (.statements loop.body.statements inner) below w
          c.calls)

/-! ### Moves that leave iterators alone -/

theorem Tested.iterators {loop : CountingLoop} (h : Tested loop w n e) :
    e.world.store.iterators = w.store.iterators := by
  cases h with
  | turn => rfl
  | test => rfl

theorem Begins.iterators {control : Control} (h : Begins w n control e) :
    e.world.store.iterators = w.store.iterators := by
  cases h with
  | counting h => exact h.iterators
  | _ => rfl

theorem Resumes.iterators {f : Frame} {k : Completion} {base : List Frame}
    (h : Resumes limits w n f k e)
    (hmakes : Stage.makes? ⟨.deliver k, f :: base, w, n⟩ = none)
    (hasks : Stage.asks? ⟨.deliver k, f :: base, w, n⟩ = none) :
    e.world.store.iterators = w.store.iterators := by
  cases h with
  | @builtin span found arguments scope u v name b w' hb hvs hreply =>
    simp only [Stage.makes?, Stage.asks?, Stage.builtin?, hvs, hb, Option.map_some] at hmakes hasks
    have hiterators : (b.call arguments w).world.store.iterators = w.store.iterators := by
      refine Builtin.call_iterators (fun v hb ha => ?_) fun id hb ha => ?_
      · subst hb ha
        exact hmakes
      · subst hb ha
        cases hasks
    rwa [hreply] at hiterators
  | entered _ _ _ _ hw =>
    subst hw
    exact Store.iterators_declareAll _ _ _
  | elements he =>
    have hsource : Value.source? _ w.store = none := hasks
    rw [Value.source?_of_elements he] at hsource
    cases hsource
  | elementAgain hk =>
    simp [Stage.asks?, hk] at hasks
  | countingStepped h | countingStarted h | countingAgain _ _ h => exact h.iterators
  | _ => rfl

theorem Move.iterators {s e : Stage} (h : Move limits s e) (hmakes : s.makes? = none)
    (hasks : s.asks? = none) : e.world.store.iterators = s.world.store.iterators := by
  cases h with
  | begins h => exact h.iterators
  | resumes h => exact h.iterators hmakes hasks

/-! ### Moves that make and take -/

theorem descend_world (f : Frame) (control : Control) (stack : Stack) :
    (descend limits f control stack w n).world = w := by
  unfold descend
  split <;> rfl

/-- A loop over elements takes one and binds it. -/
theorem turnElement_spec {f : Frame} {below : Stack} {loop : ElementLoop}
    (hpop : c.stack.pop? = some (f, below)) (hf : f.elementLoop? = some loop) (id : IteratorId)
    (w : World) :
    HandsOver limits c id (w.store.next id).1 (turnElement limits loop id below w c.calls) ∧
      (turnElement limits loop id below w c.calls).world.store.iterators =
        (w.store.next id).2.iterators := by
  unfold turnElement
  dsimp only
  split
  · next hlast =>
    rw [hlast]
    exact ⟨.last hpop hf, rfl⟩
  · next v hv =>
    rw [hv, descend_world]
    exact ⟨.turn hpop hf (Store.bindings_newChild_declare _ _ _ _ _ _ _), rfl⟩

theorem step_deliver (limits : Limits) {k : Completion} {f : Frame} {fs : List Frame}
    (hcontrol : c.control = .deliver k) (hframes : c.stack.frames = f :: fs) :
    ∃ below, c.stack.pop? = some (f, below) ∧
      step limits c = resume limits f k below c.world c.calls := by
  obtain ⟨control, ⟨frames, height, heq⟩, w, n⟩ := c
  dsimp only at hcontrol hframes
  subst hcontrol hframes
  exact ⟨_, rfl, rfl⟩

/-- What a call of a built-in function does. -/
theorem step_builtin (limits : Limits) {b : Builtin} {arguments : List Value}
    (h : c.stage.builtin? = some (b, arguments)) :
    ∃ f below span, c.stack.pop? = some (f, below) ∧ f.elementLoop? = none ∧
      step limits c = accept (b.call arguments c.world) span below c.calls := by
  obtain ⟨v, span, found, scope, base, name, hcontrol, hframes, hvs, hb⟩ :=
    Stage.builtin?_eq_some h
  obtain ⟨below, hpop, hstep⟩ := step_deliver limits hcontrol hframes
  refine ⟨_, below, span, hpop, rfl, ?_⟩
  rw [hstep]
  change perform limits .call span (v :: found).reverse scope below c.world c.calls = _
  rw [hvs]
  change call limits (.builtin name) arguments span below c.world c.calls = _
  unfold call
  dsimp only
  rw [hb]

theorem supplied_elements {s : Stage} {v : Value} {loop : ElementLoop} {span : Span}
    {fs : List Frame} {elements : Elements} (hcontrol : s.control = .deliver (.normal v))
    (hframes : s.frames = .elements loop span :: fs) (he : v.elements = .ok elements) :
    s.supplied = (s.world.store.iterator elements).2 := by
  obtain ⟨control, frames, w, n⟩ := s
  dsimp only at hcontrol hframes
  subst hcontrol hframes
  cases elements <;> simp [Stage.supplied, Stage.makes?, Value.ownIterator?, he, Store.iterator]

theorem supplied_of_none {s : Stage} (h : s.makes? = none) : s.supplied = s.world.store := by
  rw [Stage.supplied, h]

/-- A move that takes an element hands it over, and leaves the others. -/
theorem step_asks (hasks : c.stage.asks? = some id) :
    HandsOver limits c id (c.stage.supplied.next id).1 (step limits c) ∧
      (step limits c).world.store.iterators = (c.stage.supplied.next id).2.iterators := by
  have hsource := hasks
  unfold Stage.asks? at hsource
  split at hsource
  · next v loop span fs hcontrol hframes =>
    obtain ⟨elements, he⟩ : ∃ elements, v.elements = .ok elements := by
      unfold Value.source? at hsource
      split at hsource
      · exact ⟨_, ‹_›⟩
      · exact ⟨_, ‹_›⟩
      · cases hsource
    rw [Value.source?_of_elements he] at hsource
    cases hsource
    obtain ⟨below, hpop, hstep⟩ := step_deliver limits hcontrol hframes
    have hturn : step limits c = turnElement limits loop (c.world.store.iterator elements).1 below
        { c.world with store := (c.world.store.iterator elements).2 } c.calls := by
      rw [hstep]
      unfold resume resumeValue
      dsimp only
      rw [he]
    rw [hturn, supplied_elements hcontrol hframes he]
    exact turnElement_spec hpop rfl _ { c.world with store := _ }
  · next k loop i fs hcontrol hframes =>
    split at hsource
    · next hleaving =>
      cases hsource
      obtain ⟨below, hpop, hstep⟩ := step_deliver limits hcontrol hframes
      have hturn : step limits c = turnElement limits loop id below c.world c.calls := by
        rw [hstep]
        cases k <;> first | rfl | cases hleaving
      have hmakes : c.stage.makes? = none := by
        simp [Stage.makes?, Stage.builtin?, hcontrol, hframes]
      rw [hturn, supplied_of_none hmakes]
      exact turnElement_spec hpop rfl id c.world
    · cases hsource
  · next hnot hnot' =>
    split at hsource
    · next i hbuiltin =>
      cases hsource
      obtain ⟨f, below, span, hpop, hf, hstep⟩ := step_builtin limits hbuiltin
      have hmakes : c.stage.makes? = none := by
        unfold Stage.makes?
        split
        · next hcontrol hframes => exact absurd hframes (hnot _ _ _ _ hcontrol)
        · rw [hbuiltin]
      rw [hstep, supplied_of_none hmakes]
      exact ⟨.value hpop hf, rfl⟩
    · cases hsource

/-- A call that makes an iterator yields it. -/
theorem step_makes (limits : Limits) {i : Iterator} (hmakes : c.stage.makes? = some i)
    (hasks : c.stage.asks? = none) :
    ∃ below, step limits c = yieldValue (.iterator c.world.store.newIterator) below
      { c.world with store := c.stage.supplied } c.calls := by
  have hmade := hmakes
  unfold Stage.makes? at hmade
  split at hmade
  · next v loop span fs hcontrol hframes =>
    simp [Stage.asks?, hcontrol, hframes,
      Value.source?_of_elements (Value.elements_of_ownIterator? hmade)] at hasks
  · split at hmade
    · next v hbuiltin =>
      obtain ⟨f, below, span, hpop, hf, hstep⟩ := step_builtin limits hbuiltin
      refine ⟨below, ?_⟩
      rw [hstep, Stage.supplied, hmakes]
      unfold Builtin.call Builtin.callIter
      dsimp only
      rw [Value.elements_of_ownIterator? hmade]
      rfl
    · cases hmade

/-- What a move leaves of the iterators: one more if it makes one, and one element less if it
takes one. -/
theorem step_iterators (limits : Limits) (c : Config) :
    (step limits c).world.store.iterators = c.stage.leftover.iterators := by
  cases hasks : c.stage.asks? with
  | some id =>
    rw [Stage.leftover, hasks]
    exact (step_asks hasks).2
  | none =>
    rw [Stage.leftover, hasks]
    cases hmakes : c.stage.makes? with
    | some i =>
      obtain ⟨below, hstep⟩ := step_makes limits hmakes hasks
      rw [hstep]
      rfl
    | none =>
      rw [supplied_of_none hmakes]
      have hmoved := step_moved limits c
      cases hstep : step limits c with
      | go d =>
        rw [hstep] at hmoved
        exact hmoved.iterators hmakes hasks
      | halt outcome w =>
        rw [hstep] at hmoved
        rcases hmoved with hstore | ⟨e, he, rfl⟩
        · exact congrArg Store.iterators hstore
        · exact he.iterators hmakes hasks

end Machine

end ScriptLang
