import ScriptLang.Store.World
import ScriptLang.Value.Text

/-!
# Built-in functions

The functions every program can call. A built-in function takes its arguments and
the world and answers with a value, a refusal, the end of the program or an
interruption. The names are reserved: no program binds one.
-/

namespace ScriptLang

inductive Builtin where
  | print
  | input
  | len
  | iter
  | next
  | exit
deriving DecidableEq

inductive Reply where
  | value (v : Value) (w : World)
  | refused (cause : RuntimeCause) (w : World)
  | exit (code : Int) (w : World)
  | interrupted (w : World)

namespace Builtin

/-- All built-in functions, in the order of their names. -/
def all : List Builtin := [.exit, .input, .iter, .len, .next, .print]

def name : Builtin → Text
  | .print => "print"
  | .input => "input"
  | .len => "len"
  | .iter => "iter"
  | .next => "next"
  | .exit => "exit"

def doc : Builtin → Text
  | .print => "Print the arguments separated by spaces, followed by a newline."
  | .input => "Read one line from standard input; nothing at end of input."
  | .len => "Number of characters in a string."
  | .iter => "Iterator over a string, a range or an iterator."
  | .next => "Next element of an iterator, or nothing when exhausted."
  | .exit => "Terminate the process with the given exit code (default 0)."

def ofName? (t : Text) : Option Builtin := all.find? fun b => b.name = t

def isReserved (t : Text) : Bool := (ofName? t).isSome

theorem mem_all (b : Builtin) : b ∈ all := by cases b <;> decide

theorem ofName?_name (b : Builtin) : ofName? b.name = some b := by cases b <;> rfl

def describe? (t : Text) : Option Text := (ofName? t).map doc

theorem describe?_isSome (t : Text) : (describe? t).isSome = isReserved t := Option.isSome_map

/-- Writes the arguments on a line of output, a space between neighbours. -/
def callPrint (arguments : List Value) (w : World) : Reply :=
  let line := Text.joinWith " " (arguments.map Value.render) ++ [CodePoint.lineFeed]
  .value .nothing { w with console := w.console.write line }

def readWith (shown : Text) (w : World) : Reply :=
  let (read, console) := (w.console.write shown).readLine
  let w := { w with console := console }
  match read with
  | .line t => .value (.string t) w
  | .endOfInput => .value .nothing w
  | .interrupted => .interrupted w

def callInput (arguments : List Value) (w : World) : Reply :=
  match arguments with
  | [] => readWith [] w
  | [v] => readWith v.render w
  | _ => .refused (.argumentCount "input" "0 or 1" arguments.length) w

def callLen (arguments : List Value) (w : World) : Reply :=
  match arguments with
  | [.string t] => .value (.integer t.length) w
  | [v] => .refused (.mismatch "len() argument" "a string" v.kind.text) w
  | _ => .refused (.argumentCount "len" "exactly 1" arguments.length) w

def callIter (arguments : List Value) (w : World) : Reply :=
  match arguments with
  | [v] =>
    match v.elements with
    | .ok elements =>
      let (id, store) := w.store.iterator elements
      .value (.iterator id) { w with store := store }
    | .error cause => .refused cause w
  | _ => .refused (.argumentCount "iter" "exactly 1" arguments.length) w

def callNext (arguments : List Value) (w : World) : Reply :=
  match arguments with
  | [.iterator id] =>
    let (element, store) := w.store.next id
    .value (element.getD .nothing) { w with store := store }
  | [v] => .refused (.mismatch "next() argument" "an iterator" v.kind.text) w
  | _ => .refused (.argumentCount "next" "exactly 1" arguments.length) w

/-- The code a program ends with: the given one if it fits in 32 bits, one of them
for the sign, else one. -/
def exitCode (n : Int) : Int := if -0x80000000 ≤ n ∧ n < 0x80000000 then n else 1

def callExit (arguments : List Value) (w : World) : Reply :=
  match arguments with
  | [] => .exit 0 w
  | [.integer n] => .exit (exitCode n) w
  | [v] => .refused (.mismatch "exit() argument" "an integer" v.kind.text) w
  | _ => .refused (.argumentCount "exit" "0 or 1" arguments.length) w

def call (b : Builtin) (arguments : List Value) (w : World) : Reply :=
  match b with
  | .print => callPrint arguments w
  | .input => callInput arguments w
  | .len => callLen arguments w
  | .iter => callIter arguments w
  | .next => callNext arguments w
  | .exit => callExit arguments w

end Builtin

end ScriptLang
