import ScriptLang.Value.Basic
import ScriptLang.Decimal.Binary
import ScriptLang.Diagnostic.Cause

/-!
# Operators between values

Each operator is a rule on the kinds of its operands. Two integers give an
integer, which has to fit in 64 bits; an integer beside a float becomes one; two
strings are joined, and a string is repeated by an integer. Equality holds between
any two values, and between values of unlike kinds never, numbers apart. Order is
for two numbers and for two strings, the logic of `and`, `or` and `not` for
booleans alone. All else is refused by naming the operator and the kinds.
-/

namespace ScriptLang

/-- Two to the power 63, the least natural number that is no integer value. -/
def integerBound : Int := 0x8000000000000000

def fitsInteger (n : Int) : Bool := -integerBound ≤ n && n < integerBound

namespace Value

def checked (operator : Text) (n : Int) : Except RuntimeCause Value :=
  if fitsInteger n then .ok (.integer n) else .error (.integerOverflow operator)

def refuse {α : Type} (operator : Text) (left right : Value) : Except RuntimeCause α :=
  .error (.invalidOperands operator left.kind right.kind)

inductive Pair where
  | integers (left right : Int)
  | floats (left right : Float)
  | strings (left right : Text)
  | booleans (left right : Bool)
  | unlike

/-- What two operands have in common; an integer beside a float counts as a
float. -/
def pair : Value → Value → Pair
  | .integer a, .integer b => .integers a b
  | .integer a, .float b => .floats (Binary.ofInt a) b
  | .float a, .integer b => .floats a (Binary.ofInt b)
  | .float a, .float b => .floats a b
  | .string a, .string b => .strings a b
  | .boolean a, .boolean b => .booleans a b
  | _, _ => .unlike

def add (left right : Value) : Except RuntimeCause Value :=
  match pair left right with
  | .integers a b => checked "+" (a + b)
  | .floats a b => .ok (.float (a + b))
  | .strings a b => .ok (.string (a ++ b))
  | _ => refuse "+" left right

def subtract (left right : Value) : Except RuntimeCause Value :=
  match pair left right with
  | .integers a b => checked "-" (a - b)
  | .floats a b => .ok (.float (a - b))
  | _ => refuse "-" left right

/-- A text a number of times over. The empty text is not counted out. -/
def repeatText (n : Nat) (t : Text) : Text :=
  if t.isEmpty then [] else (List.replicate n t).flatten

theorem repeatText_eq (n : Nat) (t : Text) : repeatText n t = (List.replicate n t).flatten := by
  cases t with
  | nil => simp [repeatText]
  | cons c t => simp [repeatText]

def multiply (left right : Value) : Except RuntimeCause Value :=
  match left, right with
  | .string t, .integer n =>
    if n < 0 then
      .error (.mismatch "string repetition count" "a non-negative integer" (Numeral.ofInt n))
    else .ok (.string (repeatText n.toNat t))
  | _, _ =>
    match pair left right with
    | .integers a b => checked "*" (a * b)
    | .floats a b => .ok (.float (a * b))
    | _ => refuse "*" left right

/-- The quotient of two integers, rounded toward zero, from the quotient of their
magnitudes. -/
def truncatingQuotient (a b : Int) : Int :=
  let quotient : Int := (a.natAbs / b.natAbs : Nat)
  if decide (a < 0) = decide (b < 0) then quotient else -quotient

/-- Quotient. A float divided by zero is infinite or undefined. -/
def divide (left right : Value) : Except RuntimeCause Value :=
  match pair left right with
  | .integers a b =>
    if b = 0 then .error .divisionByZero else checked "/" (truncatingQuotient a b)
  | .floats a b => .ok (.float (a / b))
  | _ => refuse "/" left right

def negate : Value → Except RuntimeCause Value
  | .integer n => checked "-" (-n)
  | .float x => .ok (.float (-x))
  | v => .error (.invalidOperand "-" v.kind)

def equal (left right : Value) : Bool :=
  match pair left right with
  | .integers a b => a = b
  | .floats a b => a == b
  | .strings a b => a = b
  | .booleans a b => a = b
  | .unlike => false

def textLess : Text → Text → Bool
  | _, [] => false
  | [], _ :: _ => true
  | a :: s, b :: t => if a = b then textLess s t else a < b

def less (left right : Value) : Except RuntimeCause Value :=
  match pair left right with
  | .integers a b => .ok (.boolean (a < b))
  | .floats a b => .ok (.boolean (a < b))
  | .strings a b => .ok (.boolean (textLess a b))
  | _ => refuse "<" left right

def lessEqual (left right : Value) : Except RuntimeCause Value :=
  match pair left right with
  | .integers a b => .ok (.boolean (a ≤ b))
  | .floats a b => .ok (.boolean (a ≤ b))
  | .strings a b => .ok (.boolean (!textLess b a))
  | _ => refuse "<=" left right

def conjunction (left right : Value) : Except RuntimeCause Value :=
  match pair left right with
  | .booleans a b => .ok (.boolean (a && b))
  | _ => refuse "and" left right

def disjunction (left right : Value) : Except RuntimeCause Value :=
  match pair left right with
  | .booleans a b => .ok (.boolean (a || b))
  | _ => refuse "or" left right

def complement : Value → Except RuntimeCause Value
  | .boolean b => .ok (.boolean (!b))
  | v => .error (.invalidOperand "not" v.kind)

end Value

/-- An operator between two values. The comparisons with the greater one in front
are those of the other direction with the operands exchanged, and are refused
under its name. -/
def BinaryOperator.apply (operator : BinaryOperator) (left right : Value) :
    Except RuntimeCause Value :=
  match operator with
  | .or => left.disjunction right
  | .and => left.conjunction right
  | .equal => .ok (.boolean (left.equal right))
  | .notEqual => .ok (.boolean (!left.equal right))
  | .less => left.less right
  | .greater => right.less left
  | .lessEqual => left.lessEqual right
  | .greaterEqual => right.lessEqual left
  | .add => left.add right
  | .subtract => left.subtract right
  | .multiply => left.multiply right
  | .divide => left.divide right

def UnaryOperator.apply (operator : UnaryOperator) (operand : Value) :
    Except RuntimeCause Value :=
  match operator with
  | .not => operand.complement
  | .negate => operand.negate

end ScriptLang
