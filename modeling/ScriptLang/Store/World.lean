import ScriptLang.Store.Basic
import ScriptLang.Text.Lines

/-!
# The world of a program

What a program can change besides its own course: the store, the text waiting on
standard input and the text written to standard output. Input is read a line at a
time; a line that holds U+0003 alone is an interruption.
-/

namespace ScriptLang

structure Console where
  pending : Text
  /-- The pieces of output, latest first. -/
  written : List Text

inductive LineRead where
  /-- A line, without its line feed. -/
  | line (t : Text)
  | endOfInput
  | interrupted

namespace Console

def ofInput (input : Text) : Console := ⟨input, []⟩

def write (c : Console) (t : Text) : Console := { c with written := t :: c.written }

def output (c : Console) : Text := c.written.reverse.flatten

def clear (c : Console) : Console := { c with written := [] }

/-- The line that an interruption looks like. -/
def interruption : Text := [CodePoint.ofNat 3]

def readLine (c : Console) : LineRead × Console :=
  match c.pending with
  | [] => (.endOfInput, c)
  | d :: t =>
    let line := (d :: t).takeWhile (· ≠ CodePoint.lineFeed)
    let rest := ((d :: t).dropWhile (· ≠ CodePoint.lineFeed)).drop 1
    (if line = interruption then .interrupted else .line line, { c with pending := rest })

@[simp] theorem output_ofInput (input : Text) : (ofInput input).output = [] := rfl

theorem output_write (c : Console) (t : Text) : (c.write t).output = c.output ++ t := by
  simp [output, write]

end Console

structure World where
  store : Store
  console : Console

namespace World

def ofInput (input : Text) : World := ⟨Store.empty, Console.ofInput input⟩

def newRoot (w : World) : ScopeId × World :=
  let (id, store) := w.store.newRoot "global" false false
  (id, { w with store := store })

end World

end ScriptLang
