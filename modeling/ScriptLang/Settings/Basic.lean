import ScriptLang.Markup.Document
import ScriptLang.Machine.Config

/-!
# Settings

The settings of a session: how many calls may be running at once, what a prompt
asks with, whether it colours errors, and how much is noted. `Settings.ofDocument`
reads them from a mapping. A key has to be the name of a setting and its value of
the setting's kind, a truth value being no integer; the first pair in order that
is not so is refused. What is not given stays as it is by default. Then the number
of calls has to be positive, and the level of notes one of five words in capital
or small letters.
-/

namespace ScriptLang

structure Settings where
  maxCallDepth : Int := 1000
  prompt : Text := ">>> "
  continuationPrompt : Text := "... "
  color : Bool := true
  /-- The least level of what is noted. -/
  logLevel : Text := "WARNING"
deriving DecidableEq

inductive Setting where
  | maxCallDepth
  | prompt
  | continuationPrompt
  | color
  | logLevel
deriving DecidableEq

namespace Setting

def all : List Setting := [.maxCallDepth, .prompt, .continuationPrompt, .color, .logLevel]

def name : Setting → Text
  | .maxCallDepth => "max_call_depth"
  | .prompt => "prompt"
  | .continuationPrompt => "continuation_prompt"
  | .color => "color"
  | .logLevel => "log_level"

def ofName? (t : Text) : Option Setting := all.find? fun s => s.name = t

def ofKey? : Document → Option Setting
  | .text t => ofName? t
  | _ => none

def kindName : Setting → Text
  | .maxCallDepth => "int"
  | .prompt => "str"
  | .continuationPrompt => "str"
  | .color => "bool"
  | .logLevel => "str"

theorem ofName?_name (s : Setting) : ofName? s.name = some s := by cases s <;> rfl

end Setting

inductive SettingsError where
  | notMapping (source kind : Text)
  | unknownSetting (source key : Text)
  | wrongKind (source : Text) (setting : Setting) (kind : Text)
  | callDepthTooSmall (value : Int)
  | unknownLevel (value : Text)
  | unreadable (path reason : Text)
  | malformed (path : Text)

/-- The levels of notes, least first. -/
def logLevels : List Text := ["DEBUG", "INFO", "WARNING", "ERROR", "CRITICAL"]

def SettingsError.text : SettingsError → Text
  | .notMapping source kind => source ++ ": expected a mapping of settings, got " ++ kind
  | .unknownSetting source key => source ++ ": unknown setting '" ++ key ++ "'"
  | .wrongKind source setting kind =>
    source ++ ": setting '" ++ setting.name ++ "' must be " ++ setting.kindName ++ ", got " ++ kind
  | .callDepthTooSmall value => "max_call_depth must be at least 1, got " ++ Numeral.ofInt value
  | .unknownLevel value =>
    "log_level must be one of " ++ Text.joinWith ", " logLevels ++ ", got '" ++ value ++ "'"
  | .unreadable path reason => "cannot read config file " ++ path ++ ": " ++ reason
  | .malformed path => "invalid YAML in " ++ path

/-- The capital letter of a code point, for the letters whose capitals are in
ASCII and in the name of a level. -/
def capital (c : CodePoint) : CodePoint :=
  if 0x61 ≤ c.val && c.val ≤ 0x7A then .ofNat (c.val - 0x20)
  else if c.val = 0x131 then 'I'
  else c

def capitalize (t : Text) : Text := t.map capital

namespace Settings

/-- The settings with one of them replaced, if the value is of its kind. -/
def set? (s : Settings) (setting : Setting) (value : Document) : Option Settings :=
  match setting, value with
  | .maxCallDepth, .integer n => some { s with maxCallDepth := n }
  | .prompt, .text t => some { s with prompt := t }
  | .continuationPrompt, .text t => some { s with continuationPrompt := t }
  | .color, .boolean b => some { s with color := b }
  | .logLevel, .text t => some { s with logLevel := t }
  | _, _ => none

def replace (source : Text) (s : Settings) :
    List (Document × Document) → Except SettingsError Settings
  | [] => .ok s
  | (key, value) :: rest =>
    match Setting.ofKey? key with
    | none => .error (.unknownSetting source key.shown)
    | some setting =>
      match s.set? setting value with
      | none => .error (.wrongKind source setting value.kindName)
      | some s' => replace source s' rest

def validate (s : Settings) : Except SettingsError Settings :=
  if s.maxCallDepth < 1 then .error (.callDepthTooSmall s.maxCallDepth)
  else if capitalize s.logLevel ∈ logLevels then .ok s
  else .error (.unknownLevel s.logLevel)

def ofEntries (source : Text) (entries : List (Document × Document)) :
    Except SettingsError Settings := do
  validate (← replace source {} entries)

def ofDocument (source : Text) : Document → Except SettingsError Settings
  | .mapping entries => ofEntries source entries
  | d => .error (.notMapping source d.kindName)

def limits (s : Settings) : Limits := Limits.ofCalls s.maxCallDepth.toNat

end Settings

end ScriptLang
