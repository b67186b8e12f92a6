import ScriptLang.Grammar.Program
import ScriptLang.Machine.Step
import ScriptLang.Session.Journal

/-!
# Running programs

`Program.execute` runs a tree in a scope of a world, and `Program.run` a source:
it is cut into tokens, read as a tree and run. An error quotes a line of the
source at hand if it quotes none yet, so an error in a function that another
source defined may quote a line of the wrong one.

Several runs may share a world and a scope; what one declares the next one finds.
-/

namespace ScriptLang

structure Ending where
  outcome : Outcome
  world : World
  /-- What was noted on the way, oldest first. -/
  notes : List Note

namespace Program

/-- The tree of a source, or the fault that it has, with what there is to note. -/
def read (file : Option Text) (source : Text) : List Note × Except Fault Block :=
  match Token.tokenize file source with
  | .error fault => ([], .error fault)
  | .ok tokens =>
    let noted := Note.tokenized file tokens.length
    match parseTokens tokens with
    | .error complaint => ([noted], .error (complaint.fault source.lines))
    | .ok block => ([noted, .parsed file block.statements.length], .ok block)

/-- How a run of a tree ends, once evaluation has. For lack of room on the stack
the whole program is to blame. -/
def settle (program : Block) (lines : List Text) : Outcome → Outcome
  | .failed fault => .failed (fault.quoteFrom lines)
  | .tooDeep => .failed ((Fault.ofRuntime .evaluationTooDeep program.span).quoteFrom lines)
  | outcome => outcome

def endNotes : Outcome → List Note
  | .exited code span => [.exiting code span]
  | _ => []

/-- Run a tree in a scope; errors quote from `lines`. -/
def execute (limits : Limits) (program : Block) (lines : List Text) (scope : ScopeId)
    (w : World) : Ending :=
  let (outcome, w) := Machine.run limits Machine.ample (Machine.load program scope w)
  let started := Note.executing program.statements.length
  ⟨settle program lines outcome, w, started :: endNotes outcome⟩

def failureNotes (file : Option Text) : Outcome → List Note
  | .failed fault => [.failed file fault.cause.code]
  | _ => []

def run (limits : Limits) (file : Option Text) (source : Text) (scope : ScopeId) (w : World) :
    Ending :=
  let lines := source.lines
  let (notes, read) := read file source
  let ending : Ending := match read with
    | .error fault => ⟨.failed (fault.quoteFrom lines), w, []⟩
    | .ok block => execute limits block lines scope w
  { ending with notes := notes ++ ending.notes ++ failureNotes file ending.outcome }

end Program

end ScriptLang
