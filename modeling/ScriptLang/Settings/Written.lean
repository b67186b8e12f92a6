import ScriptLang.Markup.Written
import ScriptLang.Settings.Basic

/-!
# Writing settings

The document of settings: one setting a line, in their order, each with its value.
-/

namespace ScriptLang

namespace Settings

def writtenValue (s : Settings) (column : Nat) : Setting → Text
  | .maxCallDepth => Numeral.ofInt s.maxCallDepth
  | .prompt => Scalar.written column s.prompt
  | .continuationPrompt => Scalar.written column s.continuationPrompt
  | .color => if s.color then "true" else "false"
  | .logLevel => Scalar.written column s.logLevel

def writtenLine (s : Settings) (setting : Setting) : Text :=
  setting.name ++ ": " ++ s.writtenValue (setting.name.length + 2) setting ++ "\n"

def written (s : Settings) : Text := Setting.all.flatMap s.writtenLine

end Settings

end ScriptLang
