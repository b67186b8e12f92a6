import ScriptLang.Machine.Config
import ScriptLang.Builtin.Basic
import ScriptLang.Value.Arithmetic
import ScriptLang.Value.Sequence

/-!
# Steps of the evaluator

`Machine.step` is one move of the machine. Three kinds of move make up a run.
`evaluate` and `execute` take an expression or a statement apart: what has parts
leaves a frame and goes on with the first part, what has none delivers a
completion at once. `resume` hands a completion to the frame on top. Where a move
leads to no other configuration, the run ends, and leaves the frames that wait.

The parts of an expression are evaluated from left to right, all of them, before
the operation takes place. Names of built-in functions are found before
variables. A function body runs in a scope inside the one it was defined in, and a
block, a turn of a loop and a call each have a scope of their own.
-/

namespace ScriptLang

namespace Machine

def failAt (cause : RuntimeCause) (span : Span) (w : World) : Next :=
  .halt (.failed (Fault.ofRuntime cause span)) w

def deliver (c : Completion) (stack : Stack) (w : World) (calls : Nat) : Next :=
  .go ⟨.deliver c, stack, w, calls⟩

def yieldValue (v : Value) (stack : Stack) (w : World) (calls : Nat) : Next :=
  deliver (.normal v) stack w calls

/-- Go on with a part, for which a frame waits. -/
def descend (limits : Limits) (f : Frame) (control : Control) (stack : Stack) (w : World)
    (calls : Nat) : Next :=
  if limits.allow stack.height then .go ⟨control, stack.push f, w, calls⟩
  else .halt .tooDeep w

def lookup (name : Text) (scope : ScopeId) (w : World) : Except RuntimeCause Value :=
  if Builtin.isReserved name then .ok (.builtin name)
  else
    match w.store.get? scope name with
    | some v => .ok v
    | none => .error (.undefinedVariable name)

def owner (name : Text) (scope : ScopeId) (w : World) : Except RuntimeCause ScopeId :=
  if Builtin.isReserved name then .error (.reservedName name)
  else
    match w.store.owner? scope name with
    | some owner => .ok owner
    | none => .error (.undeclaredVariable name)

def bindIn (owner : ScopeId) (name : Text) (v : Value) (w : World) : World :=
  { w with store := w.store.declare owner name v }

def parts? : Expr → Option (Operation × Expr × List Expr)
  | .binary _ op left right => some (.binary op, left, [right])
  | .unary _ op operand => some (.unary op, operand, [])
  | .assignment _ target value => some (.assign target, value, [])
  | .call _ callee arguments => some (.call, callee, arguments)
  | .index _ target position => some (.index, target, [position])
  | .slice _ target start stop step =>
    some (.slice start.isSome stop.isSome step.isSome, target,
      start.toList ++ stop.toList ++ step.toList)
  | .range _ start stop => some (.range, start, [stop])
  | _ => none

/-- The values of the parts of a slice, given those of the parts that are
written. -/
def slicePart (written : Bool) (vs : List Value) : Option Value × List Value :=
  match written, vs with
  | true, v :: rest => (some v, rest)
  | _, rest => (none, rest)

def enter (limits : Limits) (f : Closure) (arguments : List Value) (span : Span) (stack : Stack)
    (w : World) (calls : Nat) : Next :=
  if arguments.length ≠ f.parameters.length then
    let expected := Numeral.ofNat f.parameters.length
    failAt (.argumentCount f.displayName expected arguments.length) span w
  else if limits.calls ≤ calls then failAt (.callDepthExceeded limits.calls) span w
  else
    let (inner, store) :=
      w.store.newChild f.scope ("call " ++ f.displayName) (some true) (some false)
    let store := store.declareAll inner (f.parameters.zip arguments)
    descend limits .call (.statements f.body.statements inner) stack { w with store := store }
      (calls + 1)

def accept (reply : Reply) (span : Span) (stack : Stack) (calls : Nat) : Next :=
  match reply with
  | .value v w => yieldValue v stack w calls
  | .refused cause w => failAt cause span w
  | .exit code w => .halt (.exited code span) w
  | .interrupted w => .halt .interrupted w

def call (limits : Limits) (callee : Value) (arguments : List Value) (span : Span) (stack : Stack)
    (w : World) (calls : Nat) : Next :=
  match callee with
  | .function f => enter limits f arguments span stack w calls
  | .builtin name =>
    match Builtin.ofName? name with
    | some b => accept (b.call arguments w) span stack calls
    | none => .halt .stuck w
  | v => failAt (.notCallable v.kind) span w

def settle (result : Except RuntimeCause Value) (span : Span) (stack : Stack) (w : World)
    (calls : Nat) : Next :=
  match result with
  | .ok v => yieldValue v stack w calls
  | .error cause => failAt cause span w

def perform (limits : Limits) (operation : Operation) (span : Span) (vs : List Value)
    (scope : ScopeId) (stack : Stack) (w : World) (calls : Nat) : Next :=
  match operation, vs with
  | .binary op, [left, right] => settle (op.apply left right) span stack w calls
  | .unary op, [operand] => settle (op.apply operand) span stack w calls
  | .assign target, [v] =>
    match owner target.name scope w with
    | .ok owner => yieldValue v stack (bindIn owner target.name v w) calls
    | .error cause => failAt cause target.span w
  | .call, callee :: arguments => call limits callee arguments span stack w calls
  | .index, [target, position] => settle (target.index position) span stack w calls
  | .slice start stop step, target :: rest =>
    let (first, rest) := slicePart start rest
    let (limit, rest) := slicePart stop rest
    let (stride, _) := slicePart step rest
    settle (target.slice first limit stride) span stack w calls
  | .range, [start, stop] => settle (start.makeRange stop) span stack w calls
  | _, _ => .halt .stuck w

def count (span : Span) (direction : Direction) (side : Side) (target : Identifier)
    (scope : ScopeId) (stack : Stack) (w : World) (calls : Nat) : Next :=
  match lookup target.name scope w with
  | .error cause => failAt cause target.span w
  | .ok old =>
    let result := match direction with
      | .up => old.add (.integer 1)
      | .down => old.subtract (.integer 1)
    match result with
    | .error cause => failAt cause span w
    | .ok new =>
      match owner target.name scope w with
      | .error cause => failAt cause target.span w
      | .ok owner =>
        let v := match side with
          | .before => new
          | .after => old
        yieldValue v stack (bindIn owner target.name new w) calls

def define (span : Span) (name : Option Text) (parameters : List Text) (body : Block)
    (scope : ScopeId) (stack : Stack) (w : World) (calls : Nat) : Next :=
  match (name.toList ++ parameters).find? Builtin.isReserved with
  | some reserved => failAt (.reservedName reserved) span w
  | none =>
    let v := Value.function ⟨name, parameters, body, scope, span⟩
    match name with
    | none => yieldValue v stack w calls
    | some n => yieldValue v stack (bindIn scope n v w) calls

def evaluate (limits : Limits) (e : Expr) (scope : ScopeId) (stack : Stack) (w : World)
    (calls : Nat) : Next :=
  match e with
  | .literal _ value => yieldValue (Value.ofLiteral value) stack w calls
  | .nothing _ => yieldValue .nothing stack w calls
  | .identifier i => settle (lookup i.name scope w) i.span stack w calls
  | .increment span direction side target =>
    count span direction side target scope stack w calls
  | .function span name parameters body => define span name parameters body scope stack w calls
  | _ =>
    match parts? e with
    | some (operation, first, rest) =>
      descend limits (.operands operation e.span [] rest scope) (.expression first scope) stack w
        calls
    | none => .halt .stuck w

def enterBlock (body : Block) (scope : ScopeId) (stack : Stack) (w : World) (calls : Nat) :
    Next :=
  let (inner, store) := w.store.newChild scope "block" none none
  .go ⟨.statements body.statements inner, stack, { w with store := store }, calls⟩

def testWhile (limits : Limits) (loop : WhileLoop) (stack : Stack) (w : World) (calls : Nat) :
    Next :=
  descend limits (.whileTest loop) (.expression loop.condition loop.scope) stack w calls

/-- Run a turn of a loop over elements, if an element is left. -/
def turnElement (limits : Limits) (loop : ElementLoop) (iterator : IteratorId) (stack : Stack)
    (w : World) (calls : Nat) : Next :=
  let (element, store) := w.store.next iterator
  match element with
  | none => yieldValue .nothing stack { w with store := store } calls
  | some v =>
    let (inner, store) := store.newChild loop.scope "for" none (some true)
    let store := store.declare inner loop.item v
    descend limits (.elementBody loop iterator) (.statements loop.body.statements inner) stack
      { w with store := store } calls

def turnCounting (limits : Limits) (loop : CountingLoop) (stack : Stack) (w : World)
    (calls : Nat) : Next :=
  let (inner, store) := w.store.newChild loop.scope "loop" none (some true)
  descend limits (.countingBody loop) (.statements loop.body.statements inner) stack
    { w with store := store } calls

/-- Test the condition of a counting loop; without one, run a turn. -/
def testCounting (limits : Limits) (loop : CountingLoop) (stack : Stack) (w : World)
    (calls : Nat) : Next :=
  match loop.condition with
  | none => turnCounting limits loop stack w calls
  | some e =>
    descend limits (.countingTest loop e.span) (.expression e loop.scope) stack w calls

def execute (limits : Limits) (s : Stmt) (scope : ScopeId) (stack : Stack) (w : World)
    (calls : Nat) : Next :=
  match s with
  | .simple (.expression e) => .go ⟨.expression e scope, stack, w, calls⟩
  | .simple (.declaration span name value) =>
    if Builtin.isReserved name then failAt (.reservedName name) span w
    else descend limits (.declare name scope) (.expression value scope) stack w calls
  | .conditional (.mk _ condition body otherwise) =>
    descend limits (.branch condition.span body otherwise scope) (.expression condition scope)
      stack w calls
  | .whileLoop _ condition body => testWhile limits ⟨condition, body, scope⟩ stack w calls
  | .forEach span item iterable body =>
    if Builtin.isReserved item then failAt (.reservedName item) span w
    else
      descend limits (.elements ⟨item, body, scope⟩ iterable.span) (.expression iterable scope)
        stack w calls
  | .counting _ initializer condition step body =>
    let (inner, store) := w.store.newChild scope "for" none none
    let loop : CountingLoop := ⟨condition, step, body, inner⟩
    match initializer with
    | none => testCounting limits loop stack { w with store := store } calls
    | some first =>
      descend limits (.countingStart loop) (.statement (.simple first) inner) stack
        { w with store := store } calls
  | .returning span value =>
    if w.store.inFunction scope then
      match value with
      | none => deliver (.returned .nothing) stack w calls
      | some e => descend limits .giveBack (.expression e scope) stack w calls
    else failAt .returnOutsideFunction span w
  | .breaking span =>
    if w.store.inLoop scope then deliver .broke stack w calls
    else failAt (.controlOutsideLoop "break") span w
  | .continuing span =>
    if w.store.inLoop scope then deliver .continued stack w calls
    else failAt (.controlOutsideLoop "continue") span w
  | .assertion span condition message =>
    descend limits (.assertion condition.span message span) (.expression condition scope) stack w
      calls

def truth (context : Text) (v : Value) : Except RuntimeCause Bool :=
  match v with
  | .boolean b => .ok b
  | v => .error (.mismatch context "a boolean" v.kind.text)

def resumeValue (limits : Limits) (f : Frame) (v : Value) (stack : Stack) (w : World)
    (calls : Nat) : Next :=
  match f with
  | .operands operation span found [] scope =>
    perform limits operation span (v :: found).reverse scope stack w calls
  | .operands operation span found (e :: rest) scope =>
    descend limits (.operands operation span (v :: found) rest scope) (.expression e scope) stack
      w calls
  | .declare name scope => yieldValue v stack (bindIn scope name v w) calls
  | .giveBack => deliver (.returned v) stack w calls
  | .assertion condition message span =>
    match truth "assertion condition" v with
    | .error cause => failAt cause condition w
    | .ok true => yieldValue .nothing stack w calls
    | .ok false => failAt (.assertionFailed message) span w
  | .branch condition body otherwise scope =>
    match truth "if condition" v, otherwise with
    | .error cause, _ => failAt cause condition w
    | .ok true, _ => enterBlock body scope stack w calls
    | .ok false, .skip => yieldValue .nothing stack w calls
    | .ok false, .block other => enterBlock other scope stack w calls
    | .ok false, .chain next => .go ⟨.statement (.conditional next) scope, stack, w, calls⟩
  | .whileTest loop =>
    match truth "while condition" v with
    | .error cause => failAt cause loop.condition.span w
    | .ok false => yieldValue .nothing stack w calls
    | .ok true =>
      let (inner, store) := w.store.newChild loop.scope "loop" none (some true)
      descend limits (.whileBody loop) (.statements loop.body.statements inner) stack
        { w with store := store } calls
  | .elements loop iterable =>
    match v.elements with
    | .error cause => failAt cause iterable w
    | .ok elements =>
      let (iterator, store) := w.store.iterator elements
      turnElement limits loop iterator stack { w with store := store } calls
  | .countingTest loop condition =>
    match truth "for condition" v with
    | .error cause => failAt cause condition w
    | .ok false => yieldValue .nothing stack w calls
    | .ok true => turnCounting limits loop stack w calls
  | .countingStep loop => testCounting limits loop stack w calls
  | _ => .halt .stuck w

def stepCounting (limits : Limits) (loop : CountingLoop) (stack : Stack) (w : World)
    (calls : Nat) : Next :=
  match loop.step with
  | none => testCounting limits loop stack w calls
  | some e => descend limits (.countingStep loop) (.expression e loop.scope) stack w calls

def resume (limits : Limits) (f : Frame) (c : Completion) (stack : Stack) (w : World)
    (calls : Nat) : Next :=
  match f with
  | .sequence rest scope =>
    match c, rest with
    | .normal _, s :: ss => .go ⟨.statements (s :: ss) scope, stack, w, calls⟩
    | c, _ => deliver c stack w calls
  | .whileBody loop =>
    match c with
    | .broke => yieldValue .nothing stack w calls
    | .returned v => deliver (.returned v) stack w calls
    | _ => testWhile limits loop stack w calls
  | .elementBody loop iterator =>
    match c with
    | .broke => yieldValue .nothing stack w calls
    | .returned v => deliver (.returned v) stack w calls
    | _ => turnElement limits loop iterator stack w calls
  | .countingStart loop => testCounting limits loop stack w calls
  | .countingBody loop =>
    match c with
    | .broke => yieldValue .nothing stack w calls
    | .returned v => deliver (.returned v) stack w calls
    | _ => stepCounting limits loop stack w calls
  | .call =>
    match c with
    | .returned v => yieldValue v stack w (calls - 1)
    | _ => yieldValue .nothing stack w (calls - 1)
  | f =>
    match c with
    | .normal v => resumeValue limits f v stack w calls
    | _ => .halt .stuck w

def step (limits : Limits) : Config → Next
  | ⟨.expression e scope, stack, w, calls⟩ => evaluate limits e scope stack w calls
  | ⟨.statement s scope, stack, w, calls⟩ => execute limits s scope stack w calls
  | ⟨.statements [] _, stack, w, calls⟩ => yieldValue .nothing stack w calls
  | ⟨.statements (s :: rest) scope, stack, w, calls⟩ =>
    descend limits (.sequence rest scope) (.statement s scope) stack w calls
  | ⟨.deliver c, stack, w, calls⟩ =>
    match stack.pop? with
    | some (f, below) => resume limits f c below w calls
    | none => .halt (.finished c.value) w

/-- At most `fuel` moves of the machine. -/
def run (limits : Limits) : Nat → Config → Outcome × World
  | 0, c => (.unfinished, c.world)
  | fuel + 1, c =>
    match step limits c with
    | .go c' => run limits fuel c'
    | .halt outcome w =>
      let left := (c.depart outcome w).leaveAll
      (left.outcome, left.world)

/-- What a run comes to does not depend on the frames that it leaves. -/
theorem run_succ (limits : Limits) (fuel : Nat) (c : Config) :
    run limits (fuel + 1) c =
      match step limits c with
      | .go c' => run limits fuel c'
      | .halt outcome w => (outcome, w) := by
  rw [run]
  split
  · rfl
  · obtain ⟨houtcome, hworld⟩ := Departure.leaveUpTo_ending _ (c.depart _ _)
    exact Prod.ext houtcome hworld

def load (program : Block) (scope : ScopeId) (w : World) : Config :=
  ⟨.statements program.statements scope, Stack.empty, w, 0⟩

/-- Fuel for every run that comes to an end in a lifetime. -/
def ample : Nat := 1000000000000000000

end Machine

end ScriptLang
