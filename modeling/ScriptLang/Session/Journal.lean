import ScriptLang.Source.Span

/-!
# The journal of a run

What a run notes on the way, for whoever wants to watch it: how many tokens and
statements there were, that evaluation began, that the program ended itself or
failed. Each note belongs to a part of the program, and a note on a line shows the
part before the text.
-/

namespace ScriptLang

inductive Note where
  | settingsLoaded (path : Text)
  | tokenized (file : Option Text) (count : Nat)
  | parsed (file : Option Text) (count : Nat)
  | executing (count : Nat)
  | exiting (code : Int) (span : Span)
  | failed (file : Option Text) (code : Text)
  | prompting

namespace Note

def sourceName : Option Text → Text
  | some (c :: name) => c :: name
  | _ => "<input>"

/-- The part of the program that a note belongs to. -/
def part : Note → Text
  | .settingsLoaded _ => "sable.config"
  | .tokenized _ _ => "sable.lexer"
  | .parsed _ _ => "sable.parser"
  | .executing _ => "sable.runtime.interpreter"
  | .exiting _ _ => "sable.runtime.builtins"
  | .failed _ _ => "sable.runtime.interpreter"
  | .prompting => "sable.repl"

def text : Note → Text
  | .settingsLoaded path => "loaded configuration from " ++ path
  | .tokenized file count =>
    "tokenized " ++ sourceName file ++ " into " ++ Numeral.ofNat count ++ " tokens"
  | .parsed file count =>
    "parsed " ++ Numeral.ofNat count ++ " top-level statements from " ++ sourceName file
  | .executing count => "executing " ++ Numeral.ofNat count ++ " top-level statements"
  | .exiting code span => "exit(" ++ Numeral.ofInt code ++ ") called at " ++ span.text
  | .failed file code => "run of " ++ sourceName file ++ " failed with " ++ code
  | .prompting => "starting REPL"

def line (n : Note) : Text := "DEBUG " ++ n.part ++ ": " ++ n.text ++ "\n"

end Note

end ScriptLang
