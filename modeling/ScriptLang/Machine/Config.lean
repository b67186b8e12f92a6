import ScriptLang.Store.World
import ScriptLang.Diagnostic.Fault

/-!
# Configurations of the evaluator

Evaluation is a machine that moves in small steps. A configuration holds what is
being done (`Control`), what waits for its result (a stack of frames), the world,
and the number of functions of the program whose bodies are running.

Statements and expressions end alike, with a completion: an expression with a
normal one that carries its value, a statement also by leaving a loop or a
function. A frame says what happens with the completion of the part it waits for.
An outcome that is no completion leaves the frames one after the other, and none
of them goes on (`Departure.leave?`).
-/

namespace ScriptLang

inductive Completion where
  | normal (value : Value)
  | broke
  | continued
  | returned (value : Value)

def Completion.value : Completion → Value
  | .normal v => v
  | .returned v => v
  | .broke => .nothing
  | .continued => .nothing

inductive Operation where
  | binary (op : BinaryOperator)
  | unary (op : UnaryOperator)
  | assign (target : Identifier)
  | call
  | index
  /-- A stretch of a string, with the parts that are written. -/
  | slice (start stop step : Bool)
  | range

structure WhileLoop where
  condition : Expr
  body : Block
  scope : ScopeId

structure ElementLoop where
  item : Text
  body : Block
  scope : ScopeId

structure CountingLoop where
  /-- The condition, true when left out. -/
  condition : Option Expr
  step : Option Expr
  body : Block
  /-- The scope of the loop's own names. -/
  scope : ScopeId

/-- What waits for a completion. -/
inductive Frame where
  /-- An expression for its parts: the values found, latest first, and those to
  come. -/
  | operands (operation : Operation) (span : Span) (found : List Value) (rest : List Expr)
      (scope : ScopeId)
  | declare (name : Text) (scope : ScopeId)
  | giveBack
  | assertion (condition : Span) (message : Option Text) (span : Span)
  | branch (condition : Span) (body : Block) (otherwise : Otherwise) (scope : ScopeId)
  | whileTest (loop : WhileLoop)
  | whileBody (loop : WhileLoop)
  | elements (loop : ElementLoop) (iterable : Span)
  | elementBody (loop : ElementLoop) (iterator : IteratorId)
  | countingStart (loop : CountingLoop)
  | countingTest (loop : CountingLoop) (condition : Span)
  | countingBody (loop : CountingLoop)
  | countingStep (loop : CountingLoop)
  | sequence (rest : List Stmt) (scope : ScopeId)
  /-- A call for the body of the function. -/
  | call

inductive Control where
  | expression (e : Expr) (scope : ScopeId)
  | statement (s : Stmt) (scope : ScopeId)
  | statements (ss : List Stmt) (scope : ScopeId)
  | deliver (c : Completion)

/-- Frames, the topmost first, and how many there are. -/
structure Stack where
  frames : List Frame
  height : Nat
  height_eq : height = frames.length

namespace Stack

def empty : Stack := ⟨[], 0, rfl⟩

def push (s : Stack) (f : Frame) : Stack :=
  ⟨f :: s.frames, s.height + 1, by simp [s.height_eq]⟩

def pop? : Stack → Option (Frame × Stack)
  | ⟨[], _, _⟩ => none
  | ⟨f :: fs, n, h⟩ => some (f, ⟨fs, n - 1, by simp [h]⟩)

@[simp] theorem push_frames (s : Stack) (f : Frame) : (s.push f).frames = f :: s.frames := rfl

@[simp] theorem pop?_empty : empty.pop? = none := rfl

end Stack

structure Config where
  control : Control
  stack : Stack
  world : World
  /-- The number of functions of the program whose bodies are running. -/
  calls : Nat

inductive Outcome where
  | finished (value : Value)
  | failed (fault : Fault)
  /-- The program itself asks for the end, with a code, at a place. -/
  | exited (code : Int) (span : Span)
  | interrupted
  | tooDeep
  /-- No program leads here. -/
  | stuck
  | unfinished

/-- An end that makes its way out of the frames that still wait. -/
structure Departure where
  outcome : Outcome
  stack : Stack
  world : World
  calls : Nat

namespace Departure

/-- Leave the frame on top. A body that is left runs no longer, whatever the end is. -/
def leave? (d : Departure) : Option Departure :=
  d.stack.pop?.map fun (f, below) =>
    let calls := match f with
      | .call => d.calls - 1
      | _ => d.calls
    { d with stack := below, calls := calls }

def leaveUpTo : Nat → Departure → Departure
  | 0, d => d
  | n + 1, d =>
    match d.leave? with
    | none => d
    | some d' => leaveUpTo n d'

def leaveAll (d : Departure) : Departure := leaveUpTo d.stack.height d

theorem leave?_ending {d d' : Departure} (h : d.leave? = some d') :
    d'.outcome = d.outcome ∧ d'.world = d.world := by
  obtain ⟨x, -, rfl⟩ := Option.map_eq_some_iff.1 h
  exact ⟨rfl, rfl⟩

theorem leaveUpTo_ending (n : Nat) (d : Departure) :
    (leaveUpTo n d).outcome = d.outcome ∧ (leaveUpTo n d).world = d.world := by
  induction n generalizing d with
  | zero => exact ⟨rfl, rfl⟩
  | succ n ih =>
    rw [leaveUpTo]
    split
    · exact ⟨rfl, rfl⟩
    · next d' h =>
      obtain ⟨houtcome, hworld⟩ := leave?_ending h
      exact ⟨(ih d').1.trans houtcome, (ih d').2.trans hworld⟩

end Departure

def Config.depart (c : Config) (outcome : Outcome) (w : World) : Departure :=
  ⟨outcome, c.stack, w, c.calls⟩

inductive Next where
  | go (c : Config)
  | halt (outcome : Outcome) (world : World)

structure Limits where
  calls : Nat
  frames : Option Nat

namespace Limits

/-- The limits for a number of calls. There is room for forty frames a call, and
never for fewer than a thousand. -/
def ofCalls (calls : Nat) : Limits := ⟨calls, some (max 1000 (40 * calls + 500))⟩

def allow (l : Limits) (height : Nat) : Bool :=
  match l.frames with
  | none => true
  | some most => height < most

end Limits

end ScriptLang
