import ScriptLang.Value.Basic
import ScriptLang.Diagnostic.Cause

/-!
# Positions, stretches and ranges

`Value.index` takes one code point of a string and `Value.slice` every `step`-th
one from a start up to an end. Every position has to lie in the string; a position
is never counted from the end. A stretch that is empty is empty whatever its step,
unless the step is zero.
-/

namespace ScriptLang

namespace Value

def index (target position : Value) : Except RuntimeCause Value :=
  match target, position with
  | .string t, .integer i =>
    match if i < 0 then none else t[i.toNat]? with
    | some c => .ok (.string [c])
    | none => .error (.indexOutOfBounds i t.length)
  | .string _, v => .error (.mismatch "string index" "an integer" v.kind.text)
  | v, _ => .error (.mismatch "indexed value" "a string" v.kind.text)

/-- The integer of a part of a slice, or what it is when it is left out. -/
def sliceBound (context : Text) (default : Int) : Option Value → Except RuntimeCause Int
  | none => .ok default
  | some (.integer n) => .ok n
  | some v => .error (.mismatch context "an integer" v.kind.text)

/-- Every code point whose place is a multiple of `gap + 1`, after `wait` places
more. -/
def everyNth (gap : Nat) : Nat → Text → Text
  | _, [] => []
  | 0, c :: t => c :: everyNth gap gap t
  | wait + 1, _ :: t => everyNth gap wait t

/-- The code points of `t` at `first`, `first + step` and so on before `stop`. The
last position visited is known in advance; if it lies behind the end of `t`, the
first one to do so is reported. -/
def sliceText (t : Text) (first stop step : Int) : Except RuntimeCause Text :=
  if step = 0 then .error .zeroStep
  else if stop ≤ first then .ok []
  else if step < 0 then .error (.unreachableStop step stop first)
  else
    let size : Int := t.length
    let last := first + (stop - 1 - first) / step * step
    if first < 0 then .error (.indexOutOfBounds first t.length)
    else if size ≤ last then
      let bad := if size ≤ first then first else first + (size - first + step - 1) / step * step
      .error (.indexOutOfBounds bad t.length)
    else
      let reach := (t.drop first.toNat).take (last - first + 1).toNat
      .ok (everyNth (step.toNat - 1) 0 reach)

def slice (target : Value) (start stop step : Option Value) : Except RuntimeCause Value := do
  match target with
  | .string t =>
    let first ← sliceBound "slice start" 0 start
    let limit ← sliceBound "slice end" t.length stop
    let stride ← sliceBound "slice step" 1 step
    let taken ← sliceText t first limit stride
    pure (.string taken)
  | v => throw (.mismatch "sliced value" "a string" v.kind.text)

def makeRange (start stop : Value) : Except RuntimeCause Value :=
  match start, stop with
  | .integer a, .integer b => .ok (.range a b)
  | a, b => .error (.invalidOperands ".." a.kind b.kind)

end Value

end ScriptLang
