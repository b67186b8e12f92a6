import ScriptLang.Tree.Basic
import ScriptLang.Value.Kind

/-!
# Values

What expressions yield. A value is data; the two with a state behind them,
iterators and the scopes that functions close over, refer to it by a number in a
store. A built-in function is known by its name.
-/

namespace ScriptLang

structure ScopeId where
  index : Nat
deriving DecidableEq

structure IteratorId where
  index : Nat
deriving DecidableEq

structure Closure where
  name : Option Text
  parameters : List Text
  body : Block
  /-- The scope of the definition. -/
  scope : ScopeId
  span : Span

def Closure.displayName (f : Closure) : Text := f.name.getD "<lambda>"

inductive Value where
  | integer (value : Int)
  | float (value : Float)
  | string (value : Text)
  | boolean (value : Bool)
  /-- The integers from a start up to an end, which is not among them. -/
  | range (start stop : Int)
  | iterator (id : IteratorId)
  | function (closure : Closure)
  | builtin (name : Text)
  | nothing

namespace Value

def kind : Value → ValueKind
  | .integer _ => .integer
  | .float _ => .float
  | .string _ => .string
  | .boolean _ => .boolean
  | .range _ _ => .range
  | .iterator _ => .iterator
  | .function _ => .function
  | .builtin _ => .builtin
  | .nothing => .nothing

def isNumber : Value → Bool
  | .integer _ => true
  | .float _ => true
  | _ => false

def ofLiteral : Literal → Value
  | .integer n => .integer n
  | .float x => .float x
  | .string t => .string t
  | .boolean b => .boolean b

end Value

end ScriptLang
