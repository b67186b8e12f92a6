import ScriptLang.Command.Run

/-!
# The command line

The program reads its arguments, the variables and files that they call for and the
whole of its standard input, carries out the command, writes what there is to write,
and ends with the code of the command.
-/

namespace ScriptLang

namespace Main

def look (path : Path) : IO Found := do
  try
    pure (.file (Text.ofString (← IO.FS.readFile path.text.toString)))
  catch
    | .inappropriateType _ 20 _ => pure .blocked
    | .inappropriateType _ _ _ => pure .directory
    | _ => pure .missing

def variableValue (name : Text) : IO (Option (Text × Text)) := do
  pure ((← IO.getEnv name.toString).map fun value => (name, Text.ofString value))

/-- What is written where the command line is no request. -/
def usage : Text :=
  "usage: sable [--config PATH] [-v] " ++
    "[FILE | run FILE | check FILE [--json] | ast FILE | repl | config]\n"

def exitCode : CommandEnd → UInt32
  | .refused .help => 0
  | .refused .misuse => 2
  | .returned code => UInt32.ofNat (code % 256)
  | .exited code => UInt32.ofNat (code % 256).toNat

def carryOut (arguments : List Text) : IO UInt32 := do
  let names := Settings.fileVariable :: Settings.colorlessVariables
  let env := Environment.ofList (← names.filterMapM variableValue)
  let found ← (Command.paths env arguments).mapM fun path => do pure (path, ← look path)
  let files : Files := ⟨fun path => (found.lookup path).getD .missing⟩
  let input ← (← IO.getStdin).readToEnd
  let r := Command.execute files env (Text.ofString input) arguments
  IO.print r.output.toString
  IO.eprint r.errors.toString
  match r.ending with
  | .refused .help => IO.print usage.toString
  | .refused .misuse => IO.eprint usage.toString
  | _ => pure ()
  pure (exitCode r.ending)

end Main

end ScriptLang

def main (arguments : List String) : IO UInt32 :=
  ScriptLang.Main.carryOut (arguments.map ScriptLang.Text.ofString)
