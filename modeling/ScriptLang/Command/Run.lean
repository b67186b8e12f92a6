import ScriptLang.Command.Arguments
import ScriptLang.Report.Diagnostic
import ScriptLang.Session.Prompt
import ScriptLang.Settings.Resolve
import ScriptLang.Settings.Written
import ScriptLang.Tree.Node

/-!
# Commands

A command is carried out on a file system, an environment and a standard input. It
writes to standard output and to the error output, where the notes go if they are
shown, and ends with a code. A command whose settings are refused ends with 2, one
whose file is missing or has a fault with 1, and a program that ends itself with a
code of its own.
-/

namespace ScriptLang

inductive CommandEnd where
  | refused (reason : Refusal)
  | returned (code : Nat)
  | exited (code : Int)
deriving DecidableEq

structure CommandResult where
  ending : CommandEnd
  output : Text := []
  errors : Text := []
deriving DecidableEq

namespace Command

/-- What an action leaves behind: its end, its output, what there is to note, and what
it complains of. -/
structure Deed where
  ending : CommandEnd
  output : Text := []
  notes : List Note := []
  complaint : Text := []

def source? (files : Files) (file : Text) : Option Text :=
  match files.find (Path.ofText file) with
  | .file content => some content.unifyBreaks
  | _ => none

/-- The end of an action whose file is missing. -/
def missing (file : Text) : Deed where
  ending := .returned 1
  complaint := "Error: File not found: " ++ (Path.ofText file).text ++ "\n"

def run (settings : Settings) (input file source : Text) : Deed :=
  let (scope, w) := (World.ofInput input).newRoot
  let e := Program.run settings.limits (some file) source scope w
  let output := e.world.console.output
  match e.outcome with
  | .failed fault => ⟨.returned 1, output, e.notes, fault.report ++ "\n"⟩
  | .exited code _ => ⟨.exited code, output, e.notes, []⟩
  | _ => ⟨.returned 0, output, e.notes, []⟩

def praise (file : Text) (block : Block) : Text :=
  file ++ ": OK (" ++ Numeral.ofNat block.statements.length ++ " top-level statements)\n"

def check (inJson : Bool) (file source : Text) : Deed :=
  let report := fun diagnostics => (Diagnostic.fileReport file diagnostics).written ++ "\n"
  match Program.read (some file) source with
  | (notes, .ok block) => ⟨.returned 0, if inJson then report [] else praise file block, notes, []⟩
  | (notes, .error fault) =>
    if inJson then ⟨.returned 1, report [fault.diagnostic], notes, []⟩
    else ⟨.returned 1, [], notes, (fault.quoteFrom source.lines).report ++ "\n"⟩

def ast (file source : Text) : Deed :=
  match Program.read (some file) source with
  | (notes, .ok block) => ⟨.returned 0, block.node.outline ++ "\n", notes, []⟩
  | (notes, .error fault) =>
    ⟨.returned 1, [], notes, (fault.quoteFrom source.lines).report ++ "\n"⟩

def repl (settings : Settings) (input : Text) : Deed :=
  let (w, ending, notes) := (Prompt.start settings (World.ofInput input)).converseOnConsole
  match ending with
  | .returned => ⟨.returned 0, w.console.output, notes, []⟩
  | .exited code => ⟨.exited code, w.console.output, notes, []⟩

def perform (files : Files) (input : Text) (settings : Settings) : Action → Deed
  | .run file => ((source? files file).map (run settings input file)).getD (missing file)
  | .check file inJson => ((source? files file).map (check inJson file)).getD (missing file)
  | .ast file => ((source? files file).map (ast file)).getD (missing file)
  | .repl => repl settings input
  | .config => ⟨.returned 0, settings.written, [], []⟩

def noteLines (isShown : Bool) (notes : List Note) : Text :=
  if isShown then notes.flatMap Note.line else []

def showsNotes (settings : Settings) : Bool := capitalize settings.logLevel = Text.ofString "DEBUG"

def fulfil (files : Files) (env : Environment) (input : Text) (r : Request) : CommandResult :=
  let (notes, settings) := Settings.resolve files env r.config
  let early := noteLines r.isVerbose notes
  match settings with
  | .error e => ⟨.returned 2, [], early ++ "Error: " ++ e.text ++ "\n"⟩
  | .ok settings =>
    let d := perform files input settings r.action
    let late := noteLines (r.isVerbose || showsNotes settings) d.notes
    ⟨d.ending, d.output, early ++ late ++ d.complaint⟩

/-- The paths that a command line may look at. -/
def paths (env : Environment) (arguments : List Text) : List Path :=
  match Request.ofArguments arguments with
  | .error _ => []
  | .ok r =>
    let ofAction := match r.action with
      | .run file => [file]
      | .check file _ => [file]
      | .ast file => [file]
      | .repl => []
      | .config => []
    let ofSettings := (r.config <|> env Settings.fileVariable).toList ++ [Settings.usualFile]
    (ofSettings ++ ofAction).map Path.ofText

def execute (files : Files) (env : Environment) (input : Text) (arguments : List Text) :
    CommandResult :=
  match Request.ofArguments arguments with
  | .ok r => fulfil files env input r
  | .error reason => { ending := .refused reason }

end Command

end ScriptLang
