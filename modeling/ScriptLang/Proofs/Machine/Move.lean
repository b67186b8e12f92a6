import Mathlib.Data.List.Basic
import ScriptLang.Proofs.Machine.Reach
import ScriptLang.Proofs.Store.Builtin

/-!
# What a move can be

The moves of the machine as a relation, one case for each. `Begins w n control e` takes apart
what is being done in the world `w`, and `Resumes limits w n f k e` hands the completion `k` to
the frame `f`; either way `e` is what is done next, with the frame that waits for it, if one
does. What waits below plays no part, so a move is one of the two above any frames (`Move`).

Every move that leads on is a `Move` (`step_move`), and a move that ends the run leaves the
store as it was or as a move would that leads on (`step_end`): it ends for lack of room for one
frame more. What every `Move` keeps holds of all that is reached (`Reaches.kept`).
-/

namespace ScriptLang

/-- How a loop ends when a turn of its body ends, if it ends then. -/
def Completion.leaving? : Completion → Option Completion
  | .normal _ => none
  | .broke => some (.normal .nothing)
  | .continued => none
  | .returned v => some (.returned v)

theorem Completion.leaving?_eq_none {k : Completion} (hbroke : k ≠ .broke)
    (hreturned : ∀ v, k ≠ .returned v) : k.leaving? = none := by
  cases k with
  | normal v => rfl
  | broke => exact absurd rfl hbroke
  | continued => rfl
  | returned v => exact absurd rfl (hreturned v)

/-- What a call yields when the body of the function ends. -/
def Completion.answer : Completion → Value
  | .returned v => v
  | _ => .nothing

namespace World

/-- The number of the next scope inside of another. -/
def innerId (w : World) (parent : ScopeId) (name : Text) (f l : Option Bool) : ScopeId :=
  (w.store.newChild parent name f l).1

/-- The world with one scope more inside of another. -/
def inner (w : World) (parent : ScopeId) (name : Text) (f l : Option Bool) : World :=
  { w with store := (w.store.newChild parent name f l).2 }

end World

/-- A configuration without the height of its stack: what is being done, above which frames,
in which world and within how many calls. -/
structure Stage where
  control : Control
  /-- What waits for it, the topmost frame first. -/
  frames : List Frame
  world : World
  /-- The number of functions of the program whose bodies are running. -/
  calls : Nat

/-- A configuration without the height of its stack. -/
def Config.stage (c : Config) : Stage := ⟨c.control, c.stack.frames, c.world, c.calls⟩

namespace Stage

/-- Going on above no frame. -/
def go (control : Control) (w : World) (n : Nat) : Stage := ⟨control, [], w, n⟩

/-- Handing a completion on. -/
def hand (k : Completion) (w : World) (n : Nat) : Stage := go (.deliver k) w n

/-- Handing a value on. -/
def yield (v : Value) (w : World) (n : Nat) : Stage := hand (.normal v) w n

/-- Going on with a part, for which a frame waits. -/
def push (f : Frame) (control : Control) (w : World) (n : Nat) : Stage := ⟨control, [f], w, n⟩

/-- The same above more frames. -/
def above (s : Stage) (base : List Frame) : Stage := { s with frames := s.frames ++ base }

theorem above_above (s : Stage) (upper lower : List Frame) :
    (s.above upper).above lower = s.above (upper ++ lower) := by
  simp [above]

end Stage

namespace Machine

/-! ### The moves -/

/-- A turn of a loop over elements, if an element is left. -/
inductive Turned (loop : ElementLoop) (i : IteratorId) (w : World) (n : Nat) : Stage → Prop
  | last (h : (w.store.next i).1 = none) :
    Turned loop i w n (.yield .nothing { w with store := (w.store.next i).2 } n)
  | turn {v : Value} {w₁ w₂ : World} {inner : ScopeId} (h : (w.store.next i).1 = some v)
      (h₁ : w₁ = { w with store := (w.store.next i).2 })
      (hi : inner = w₁.innerId loop.scope "for" none (some true))
      (h₂ : w₂ = bindIn inner loop.item v (w₁.inner loop.scope "for" none (some true))) :
    Turned loop i w n (.push (.elementBody loop i) (.statements loop.body.statements inner) w₂ n)

/-- A turn of a counting loop. -/
def counted (loop : CountingLoop) (w : World) (n : Nat) : Stage :=
  .push (.countingBody loop)
    (.statements loop.body.statements (w.innerId loop.scope "loop" none (some true)))
    (w.inner loop.scope "loop" none (some true)) n

/-- The test of a counting loop; without one, a turn. -/
inductive Tested (loop : CountingLoop) (w : World) (n : Nat) : Stage → Prop
  | turn (h : loop.condition = none) : Tested loop w n (counted loop w n)
  | test {e : Expr} (h : loop.condition = some e) :
    Tested loop w n (.push (.countingTest loop e.span) (.expression e loop.scope) w n)

/-- What taking an expression or a statement apart leads to. -/
inductive Begins (w : World) (n : Nat) : Control → Stage → Prop
  | literal {span : Span} {l : Literal} {s : ScopeId} :
    Begins w n (.expression (.literal span l) s) (.yield (.ofLiteral l) w n)
  | nothing {span : Span} {s : ScopeId} :
    Begins w n (.expression (.nothing span) s) (.yield .nothing w n)
  | name {i : Identifier} {s : ScopeId} {v : Value} (h : lookup i.name s w = .ok v) :
    Begins w n (.expression (.identifier i) s) (.yield v w n)
  | increment {span : Span} {direction : Direction} {side : Side} {target : Identifier}
      {s o : ScopeId} {old new v : Value} (hold : lookup target.name s w = .ok old)
      (hnew : new.Plain) (howner : owner target.name s w = .ok o) (hv : v = new ∨ v = old) :
    Begins w n (.expression (.increment span direction side target) s)
      (.yield v (bindIn o target.name new w) n)
  | lambda {span : Span} {parameters : List Text} {body : Block} {s : ScopeId} :
    Begins w n (.expression (.function span none parameters body) s)
      (.yield (.function ⟨none, parameters, body, s, span⟩) w n)
  | definition {span : Span} {name : Text} {parameters : List Text} {body : Block} {s : ScopeId}
      {f : Closure} (hf : f = ⟨some name, parameters, body, s, span⟩) :
    Begins w n (.expression (.function span (some name) parameters body) s)
      (.yield (.function f) (bindIn s name (.function f) w) n)
  | parts {e first : Expr} {operation : Operation} {rest : List Expr} {s : ScopeId}
      (h : parts? e = some (operation, first, rest)) :
    Begins w n (.expression e s)
      (.push (.operands operation e.span [] rest s) (.expression first s) w n)
  | value {e : Expr} {s : ScopeId} :
    Begins w n (.statement (.simple (.expression e)) s) (.go (.expression e s) w n)
  | declaration {span : Span} {name : Text} {e : Expr} {s : ScopeId} :
    Begins w n (.statement (.simple (.declaration span name e)) s)
      (.push (.declare name s) (.expression e s) w n)
  | conditional {span : Span} {condition : Expr} {body : Block} {otherwise : Otherwise}
      {s : ScopeId} :
    Begins w n (.statement (.conditional (.mk span condition body otherwise)) s)
      (.push (.branch condition.span body otherwise s) (.expression condition s) w n)
  | whileLoop {span : Span} {condition : Expr} {body : Block} {s : ScopeId} :
    Begins w n (.statement (.whileLoop span condition body) s)
      (.push (.whileTest ⟨condition, body, s⟩) (.expression condition s) w n)
  | forEach {span : Span} {item : Text} {iterable : Expr} {body : Block} {s : ScopeId} :
    Begins w n (.statement (.forEach span item iterable body) s)
      (.push (.elements ⟨item, body, s⟩ iterable.span) (.expression iterable s) w n)
  | counting {span : Span} {condition step : Option Expr} {body : Block} {s : ScopeId}
      {e : Stage} (h : Tested ⟨condition, step, body, w.innerId s "for" none none⟩
        (w.inner s "for" none none) n e) :
    Begins w n (.statement (.counting span none condition step body) s) e
  | countingFrom {span : Span} {first : Simple} {condition step : Option Expr} {body : Block}
      {s inner : ScopeId} (hi : inner = w.innerId s "for" none none) :
    Begins w n (.statement (.counting span (some first) condition step body) s)
      (.push (.countingStart ⟨condition, step, body, inner⟩) (.statement (.simple first) inner)
        (w.inner s "for" none none) n)
  | returning {span : Span} {s : ScopeId} (h : w.store.inFunction s = true) :
    Begins w n (.statement (.returning span none) s) (.hand (.returned .nothing) w n)
  | returningValue {span : Span} {e : Expr} {s : ScopeId} (h : w.store.inFunction s = true) :
    Begins w n (.statement (.returning span (some e)) s) (.push .giveBack (.expression e s) w n)
  | breaking {span : Span} {s : ScopeId} (h : w.store.inLoop s = true) :
    Begins w n (.statement (.breaking span) s) (.hand .broke w n)
  | continuing {span : Span} {s : ScopeId} (h : w.store.inLoop s = true) :
    Begins w n (.statement (.continuing span) s) (.hand .continued w n)
  | assertion {span : Span} {condition : Expr} {message : Option Text} {s : ScopeId} :
    Begins w n (.statement (.assertion span condition message) s)
      (.push (.assertion condition.span message span) (.expression condition s) w n)
  | finished {s : ScopeId} : Begins w n (.statements [] s) (.yield .nothing w n)
  | sequence {x : Stmt} {xs : List Stmt} {s : ScopeId} :
    Begins w n (.statements (x :: xs) s) (.push (.sequence xs s) (.statement x s) w n)

/-- What handing a completion to the frame on top leads to. -/
inductive Resumes (limits : Limits) (w : World) (n : Nat) :
    Frame → Completion → Stage → Prop
  | operand {operation : Operation} {span : Span} {found : List Value} {e : Expr}
      {rest : List Expr} {s : ScopeId} {v : Value} :
    Resumes limits w n (.operands operation span found (e :: rest) s) (.normal v)
      (.push (.operands operation span (v :: found) rest s) (.expression e s) w n)
  | operator {operation : Operation} {span : Span} {found : List Value} {s : ScopeId}
      {u v : Value} (hv : v.Data) :
    Resumes limits w n (.operands operation span found [] s) (.normal u) (.yield v w n)
  | assigned {target : Identifier} {span : Span} {s o : ScopeId} {v : Value}
      (h : owner target.name s w = .ok o) :
    Resumes limits w n (.operands (.assign target) span [] [] s) (.normal v)
      (.yield v (bindIn o target.name v w) n)
  | builtin {span : Span} {found arguments : List Value} {s : ScopeId} {u v : Value}
      {name : Text} {b : Builtin} {w' : World} (hb : Builtin.ofName? name = some b)
      (hvs : (u :: found).reverse = .builtin name :: arguments)
      (hreply : b.call arguments w = .value v w') :
    Resumes limits w n (.operands .call span found [] s) (.normal u) (.yield v w' n)
  | entered {span : Span} {found arguments : List Value} {s inner : ScopeId} {u : Value}
      {f : Closure} {w' : World} (hvs : (u :: found).reverse = .function f :: arguments)
      (hlength : arguments.length = f.parameters.length) (hcalls : n < limits.calls)
      (hi : inner = w.innerId f.scope ("call " ++ f.displayName) (some true) (some false))
      (hw : w' = { w with
        store := (w.inner f.scope ("call " ++ f.displayName) (some true)
          (some false)).store.declareAll inner (f.parameters.zip arguments) }) :
    Resumes limits w n (.operands .call span found [] s) (.normal u)
      (.push .call (.statements f.body.statements inner) w' (n + 1))
  | declare {name : Text} {s : ScopeId} {v : Value} :
    Resumes limits w n (.declare name s) (.normal v) (.yield v (bindIn s name v w) n)
  | giveBack {v : Value} : Resumes limits w n .giveBack (.normal v) (.hand (.returned v) w n)
  | assertion {condition span : Span} {message : Option Text} {v : Value} :
    Resumes limits w n (.assertion condition message span) (.normal v) (.yield .nothing w n)
  | branch {condition : Span} {body : Block} {otherwise : Otherwise} {s : ScopeId} {v : Value} :
    Resumes limits w n (.branch condition body otherwise s) (.normal v)
      (.go (.statements body.statements (w.innerId s "block" none none))
        (w.inner s "block" none none) n)
  | branchSkip {condition : Span} {body : Block} {s : ScopeId} {v : Value} :
    Resumes limits w n (.branch condition body .skip s) (.normal v) (.yield .nothing w n)
  | branchBlock {condition : Span} {body other : Block} {s : ScopeId} {v : Value} :
    Resumes limits w n (.branch condition body (.block other) s) (.normal v)
      (.go (.statements other.statements (w.innerId s "block" none none))
        (w.inner s "block" none none) n)
  | branchChain {condition : Span} {body : Block} {next : Conditional} {s : ScopeId}
      {v : Value} :
    Resumes limits w n (.branch condition body (.chain next) s) (.normal v)
      (.go (.statement (.conditional next) s) w n)
  | whileDone {loop : WhileLoop} {v : Value} :
    Resumes limits w n (.whileTest loop) (.normal v) (.yield .nothing w n)
  | whileTurn {loop : WhileLoop} {v : Value} :
    Resumes limits w n (.whileTest loop) (.normal v)
      (.push (.whileBody loop)
        (.statements loop.body.statements (w.innerId loop.scope "loop" none (some true)))
        (w.inner loop.scope "loop" none (some true)) n)
  | elements {loop : ElementLoop} {iterable : Span} {v : Value} {elements : Elements}
      {w' : World} {e : Stage} (he : v.elements = .ok elements)
      (hw : w' = { w with store := (w.store.iterator elements).2 })
      (h : Turned loop (w.store.iterator elements).1 w' n e) :
    Resumes limits w n (.elements loop iterable) (.normal v) e
  | countingDone {loop : CountingLoop} {condition : Span} {v : Value} :
    Resumes limits w n (.countingTest loop condition) (.normal v) (.yield .nothing w n)
  | countingTurn {loop : CountingLoop} {condition : Span} {v : Value} :
    Resumes limits w n (.countingTest loop condition) (.normal v) (counted loop w n)
  | countingStepped {loop : CountingLoop} {v : Value} {e : Stage} (h : Tested loop w n e) :
    Resumes limits w n (.countingStep loop) (.normal v) e
  | countingStarted {loop : CountingLoop} {k : Completion} {e : Stage} (h : Tested loop w n e) :
    Resumes limits w n (.countingStart loop) k e
  | sequence {x : Stmt} {xs : List Stmt} {s : ScopeId} {v : Value} :
    Resumes limits w n (.sequence (x :: xs) s) (.normal v) (.go (.statements (x :: xs) s) w n)
  | sequenceLeft {rest : List Stmt} {s : ScopeId} {k : Completion} :
    Resumes limits w n (.sequence rest s) k (.hand k w n)
  | whileLeft {loop : WhileLoop} {k k' : Completion} (h : k.leaving? = some k') :
    Resumes limits w n (.whileBody loop) k (.hand k' w n)
  | whileAgain {loop : WhileLoop} {k : Completion} (h : k.leaving? = none) :
    Resumes limits w n (.whileBody loop) k
      (.push (.whileTest loop) (.expression loop.condition loop.scope) w n)
  | elementLeft {loop : ElementLoop} {i : IteratorId} {k k' : Completion}
      (h : k.leaving? = some k') :
    Resumes limits w n (.elementBody loop i) k (.hand k' w n)
  | elementAgain {loop : ElementLoop} {i : IteratorId} {k : Completion} {e : Stage}
      (hk : k.leaving? = none) (h : Turned loop i w n e) :
    Resumes limits w n (.elementBody loop i) k e
  | countingLeft {loop : CountingLoop} {k k' : Completion} (h : k.leaving? = some k') :
    Resumes limits w n (.countingBody loop) k (.hand k' w n)
  | countingAgain {loop : CountingLoop} {k : Completion} {e : Stage} (hk : k.leaving? = none)
      (hs : loop.step = none) (h : Tested loop w n e) :
    Resumes limits w n (.countingBody loop) k e
  | countingStep {loop : CountingLoop} {k : Completion} {e : Expr} (hk : k.leaving? = none)
      (hs : loop.step = some e) :
    Resumes limits w n (.countingBody loop) k
      (.push (.countingStep loop) (.expression e loop.scope) w n)
  | answered {k : Completion} : Resumes limits w n .call k (.yield k.answer w (n - 1))

/-- What a move can lead to, above any frames. -/
inductive Move (limits : Limits) : Stage → Stage → Prop
  | begins {control : Control} {base : List Frame} {w : World} {n : Nat} {e : Stage}
      (h : Begins w n control e) : Move limits ⟨control, base, w, n⟩ (e.above base)
  | resumes {f : Frame} {k : Completion} {base : List Frame} {w : World} {n : Nat} {e : Stage}
      (h : Resumes limits w n f k e) : Move limits ⟨.deliver k, f :: base, w, n⟩ (e.above base)

/-! ### Moves of the machine -/

/-- The next of what `P` allows above the frames of a stack, in a world: it leads there, or it
ends the run in the world as it was or as it would be there. -/
def Leads (P : Stage → Prop) (stack : Stack) (w : World) : Next → Prop
  | .go d => ∃ e, P e ∧ d.stage = e.above stack.frames
  | .halt _ w' => w'.store = w.store ∨ ∃ e, P e ∧ e.world = w'

section Leads

variable {P Q : Stage → Prop} {limits : Limits} {stack : Stack} {w w' : World} {n m : Nat}
  {s : ScopeId} {span : Span}

theorem Leads.imp {next : Next} (h : Leads P stack w next) (hQ : ∀ e, P e → Q e) :
    Leads Q stack w next := by
  cases next with
  | go d =>
    obtain ⟨e, he, hd⟩ := h
    exact ⟨e, hQ e he, hd⟩
  | halt outcome w' => exact h.imp_right fun ⟨e, he, hw⟩ => ⟨e, hQ e he, hw⟩

theorem go_leads {control : Control} (h : P (.go control w' m)) :
    Leads P stack w (.go ⟨control, stack, w', m⟩) :=
  ⟨_, h, rfl⟩

theorem deliver_leads {k : Completion} (h : P (.hand k w' m)) :
    Leads P stack w (deliver k stack w' m) :=
  ⟨_, h, rfl⟩

theorem yieldValue_leads {v : Value} (h : P (.yield v w' m)) :
    Leads P stack w (yieldValue v stack w' m) :=
  ⟨_, h, rfl⟩

theorem failAt_leads (cause : RuntimeCause) (span : Span) :
    Leads P stack w (failAt cause span w) :=
  .inl rfl

theorem descend_leads {f : Frame} {control : Control} (h : P (.push f control w' m)) :
    Leads P stack w (descend limits f control stack w' m) := by
  unfold descend
  split
  · exact ⟨_, h, rfl⟩
  · exact .inr ⟨_, h, rfl⟩

theorem settle_leads {result : Except RuntimeCause Value}
    (h : ∀ v, result = .ok v → P (.yield v w n)) :
    Leads P stack w (settle result span stack w n) := by
  unfold settle
  split
  · next v => exact yieldValue_leads (h v rfl)
  · exact failAt_leads _ _

/-! ### Operations -/

theorem enter_leads {found arguments : List Value} {u : Value} {f : Closure} {here : Span}
    (hvs : (u :: found).reverse = .function f :: arguments) :
    Leads (Resumes limits w n (.operands .call here found [] s) (.normal u)) stack w
      (enter limits f arguments span stack w n) := by
  unfold enter
  split
  · exact failAt_leads _ _
  · next hlength =>
    split
    · exact failAt_leads _ _
    · next hcalls =>
      exact descend_leads (.entered hvs (not_not.1 hlength) (Nat.lt_of_not_le hcalls) rfl rfl)

theorem call_leads {found arguments : List Value} {u callee : Value} {here : Span}
    (hvs : (u :: found).reverse = callee :: arguments) :
    Leads (Resumes limits w n (.operands .call here found [] s) (.normal u)) stack w
      (call limits callee arguments span stack w n) := by
  unfold call
  split
  · exact enter_leads hvs
  · split
    · next b hb =>
      cases hreply : b.call arguments w with
      | value v w' => exact yieldValue_leads (.builtin hb hvs hreply)
      | _ =>
        have hstore : (b.call arguments w).world.store = w.store :=
          Builtin.call_store (by rw [hreply]; nofun)
        rw [hreply] at hstore
        exact .inl hstore
    · exact .inl rfl
  · exact failAt_leads _ _

theorem perform_leads {operation : Operation} {found : List Value} {u : Value} :
    Leads (Resumes limits w n (.operands operation span found [] s) (.normal u)) stack w
      (perform limits operation span (u :: found).reverse s stack w n) := by
  generalize hvs : (u :: found).reverse = vs
  unfold perform
  split
  · exact settle_leads fun v hv => .operator (BinaryOperator.apply_plain hv).data
  · exact settle_leads fun v hv => .operator (UnaryOperator.apply_plain hv).data
  · next target v =>
    cases List.reverse_eq_iff.1 hvs
    split
    · next howner => exact yieldValue_leads (.assigned howner)
    · exact failAt_leads _ _
  · exact call_leads hvs
  · exact settle_leads fun v hv => .operator (Value.index_plain hv).data
  · exact settle_leads fun v hv => .operator (Value.slice_plain hv).data
  · exact settle_leads fun v hv => .operator (Value.makeRange_data hv)
  · exact .inl rfl

/-! ### Expressions and statements -/

theorem count_leads {direction : Direction} {side : Side} {target : Identifier} :
    Leads (Begins w n (.expression (.increment span direction side target) s)) stack w
      (count span direction side target s stack w n) := by
  unfold count
  split
  · exact failAt_leads _ _
  · next old hold =>
    dsimp only
    split
    · exact failAt_leads _ _
    · next new hnew =>
      have hplain : new.Plain := by
        cases direction with
        | up => exact Value.add_plain hnew
        | down => exact Value.subtract_plain hnew
      split
      · exact failAt_leads _ _
      · next howner =>
        refine yieldValue_leads (.increment hold hplain howner ?_)
        cases side with
        | before => exact .inl rfl
        | after => exact .inr rfl

theorem define_leads {name : Option Text} {parameters : List Text} {body : Block} :
    Leads (Begins w n (.expression (.function span name parameters body) s)) stack w
      (define span name parameters body s stack w n) := by
  unfold define
  split
  · exact failAt_leads _ _
  · cases name with
    | none => exact yieldValue_leads .lambda
    | some n => exact yieldValue_leads (.definition rfl)

theorem evaluate_leads (e : Expr) :
    Leads (Begins w n (.expression e s)) stack w (evaluate limits e s stack w n) := by
  unfold evaluate
  split
  · exact yieldValue_leads .literal
  · exact yieldValue_leads .nothing
  · exact settle_leads fun v hv => .name hv
  · exact count_leads
  · exact define_leads
  · split
    · next hparts => exact descend_leads (.parts hparts)
    · exact .inl rfl

theorem turnElement_leads {loop : ElementLoop} {i : IteratorId} :
    Leads (Turned loop i w' n) stack w (turnElement limits loop i stack w' n) := by
  unfold turnElement
  dsimp only
  split
  · next hlast => exact yieldValue_leads (.last hlast)
  · next v hv => exact descend_leads (.turn hv rfl rfl rfl)

theorem testCounting_leads (loop : CountingLoop) :
    Leads (Tested loop w' n) stack w (testCounting limits loop stack w' n) := by
  unfold testCounting
  split
  · next hnone => exact descend_leads (.turn hnone)
  · next e he => exact descend_leads (.test he)

theorem execute_leads (x : Stmt) :
    Leads (Begins w n (.statement x s)) stack w (execute limits x s stack w n) := by
  unfold execute
  split
  · exact go_leads .value
  · split
    · exact failAt_leads _ _
    · exact descend_leads .declaration
  · exact descend_leads .conditional
  · exact descend_leads .whileLoop
  · split
    · exact failAt_leads _ _
    · exact descend_leads .forEach
  · dsimp only
    split
    · exact (testCounting_leads _).imp fun e he => .counting he
    · exact descend_leads (.countingFrom rfl)
  · split
    · next hfunction =>
      split
      · exact deliver_leads (.returning hfunction)
      · exact descend_leads (.returningValue hfunction)
    · exact failAt_leads _ _
  · split
    · next hloop => exact deliver_leads (.breaking hloop)
    · exact failAt_leads _ _
  · split
    · next hloop => exact deliver_leads (.continuing hloop)
    · exact failAt_leads _ _
  · exact descend_leads .assertion

/-! ### Completions -/

theorem resumeValue_leads (f : Frame) (v : Value) :
    Leads (Resumes limits w n f (.normal v)) stack w (resumeValue limits f v stack w n) := by
  unfold resumeValue
  split
  · exact perform_leads
  · exact descend_leads .operand
  · exact yieldValue_leads .declare
  · exact deliver_leads .giveBack
  · split
    · exact failAt_leads _ _
    · exact yieldValue_leads .assertion
    · exact failAt_leads _ _
  · split
    · exact failAt_leads _ _
    · exact go_leads .branch
    · exact yieldValue_leads .branchSkip
    · exact go_leads .branchBlock
    · exact go_leads .branchChain
  · split
    · exact failAt_leads _ _
    · exact yieldValue_leads .whileDone
    · exact descend_leads .whileTurn
  · split
    · exact failAt_leads _ _
    · next elements he => exact turnElement_leads.imp fun e h => .elements he rfl h
  · split
    · exact failAt_leads _ _
    · exact yieldValue_leads .countingDone
    · exact descend_leads .countingTurn
  · exact (testCounting_leads _).imp fun e h => .countingStepped h
  · exact .inl rfl

theorem resume_leads (f : Frame) (k : Completion) :
    Leads (Resumes limits w n f k) stack w (resume limits f k stack w n) := by
  unfold resume
  split
  · split
    · exact go_leads .sequence
    · exact deliver_leads .sequenceLeft
  · split
    · exact yieldValue_leads (.whileLeft rfl)
    · exact deliver_leads (.whileLeft rfl)
    · next hbroke hreturned =>
      exact descend_leads (.whileAgain (Completion.leaving?_eq_none hbroke hreturned))
  · split
    · exact yieldValue_leads (.elementLeft rfl)
    · exact deliver_leads (.elementLeft rfl)
    · next hbroke hreturned =>
      exact turnElement_leads.imp fun e h =>
        .elementAgain (Completion.leaving?_eq_none hbroke hreturned) h
  · exact (testCounting_leads _).imp fun e h => .countingStarted h
  · split
    · exact yieldValue_leads (.countingLeft rfl)
    · exact deliver_leads (.countingLeft rfl)
    · next hbroke hreturned =>
      have hk := Completion.leaving?_eq_none (k := k) hbroke hreturned
      unfold stepCounting
      split
      · next hs => exact (testCounting_leads _).imp fun e h => .countingAgain hk hs h
      · next e hs => exact descend_leads (.countingStep hk hs)
  · split
    · exact yieldValue_leads .answered
    · next hreturned =>
      have hk : k.answer = .nothing := by
        cases k with
        | returned v => exact absurd rfl (hreturned v)
        | _ => rfl
      exact hk ▸ yieldValue_leads .answered
  · split
    · exact resumeValue_leads _ _
    · exact .inl rfl

end Leads

/-! ### Moves and runs -/

/-- What a move of the machine leads on to, or the world it ends in. -/
def Moved (limits : Limits) (c : Config) : Next → Prop
  | .go d => Move limits c.stage d.stage
  | .halt _ w => w.store = c.world.store ∨ ∃ e, Move limits c.stage e ∧ e.world = w

theorem Leads.moved {P : Stage → Prop} {limits : Limits} {c : Config} {stack : Stack} {next : Next}
    (h : Leads P stack c.world next)
    (hmove : ∀ e, P e → Move limits c.stage (e.above stack.frames)) : Moved limits c next := by
  cases next with
  | go d =>
    obtain ⟨e, he, hd⟩ := h
    change Move limits c.stage d.stage
    exact hd ▸ hmove e he
  | halt outcome w => exact h.imp_right fun ⟨e, he, hw⟩ => ⟨_, hmove e he, hw⟩

theorem step_moved (limits : Limits) (c : Config) : Moved limits c (step limits c) := by
  obtain ⟨control, stack, w, n⟩ := c
  cases control with
  | expression e s => exact (evaluate_leads e).moved fun _ he => .begins he
  | statement x s => exact (execute_leads x).moved fun _ he => .begins he
  | statements xs s =>
    cases xs with
    | nil => exact .begins .finished
    | cons x xs =>
      have hleads : Leads (Begins w n (.statements (x :: xs) s)) stack w
          (descend limits (.sequence xs s) (.statement x s) stack w n) := descend_leads .sequence
      exact hleads.moved fun _ he => .begins he
  | deliver k =>
    obtain ⟨frames, height, heq⟩ := stack
    cases frames with
    | nil => exact .inl rfl
    | cons f frames => exact (resume_leads f k).moved fun _ he => .resumes he

/-- A move of the machine that leads on is one of the moves that there are. -/
theorem step_move {limits : Limits} {c d : Config} (h : step limits c = .go d) :
    Move limits c.stage d.stage := by
  have hmoved := step_moved limits c
  rwa [h] at hmoved

/-- What every move keeps holds of all that is reached. -/
theorem Reaches.kept {limits : Limits} {P : Stage → Prop}
    (hP : ∀ s e, P s → Move limits s e → P e) {c d : Config} (h : Reaches limits c d)
    (hc : P c.stage) : P d.stage :=
  h.keeps (P := fun c => P c.stage) (fun _ _ hd hstep => hP _ _ hd (step_move hstep)) hc

/-- A run that ends leaves a store that it could have gone on with. -/
theorem Ends.kept {limits : Limits} {P : Stage → Prop}
    (hP : ∀ s e, P s → Move limits s e → P e) {c : Config} {outcome : Outcome} {w : World}
    (h : Ends limits c outcome w) (hc : P c.stage) : ∃ s, P s ∧ s.world.store = w.store := by
  obtain ⟨d, hrun, hend⟩ := h
  have hd := hrun.kept hP hc
  have hmoved := step_moved limits d
  rw [hend] at hmoved
  rcases hmoved with hstore | ⟨e, hmove, hworld⟩
  · exact ⟨d.stage, hd, hstore.symm⟩
  · exact ⟨e, hP _ _ hd hmove, congrArg World.store hworld⟩

end Machine

end ScriptLang
