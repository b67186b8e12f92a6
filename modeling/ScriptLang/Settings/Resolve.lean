import ScriptLang.Files.Basic
import ScriptLang.Markup.Block
import ScriptLang.Session.Journal
import ScriptLang.Settings.Basic

/-!
# Finding the settings

The settings of a session come from one source and no other: the file named on the
command line; else the file named in the environment, unless its name is empty; else
the usual file, if there is one; else nowhere, and all settings are as by default. A
file whose document says nothing gives no settings. Whatever the source, the
environment can take the colours away.
-/

namespace ScriptLang

abbrev Environment := Text → Option Text

/-- The environment with the given variables, where the last value of a name counts. -/
def Environment.ofList (entries : List (Text × Text)) : Environment :=
  fun name => entries.reverse.lookup name

def Environment.isSet (env : Environment) (name : Text) : Bool :=
  (env name).any fun value => !value.isEmpty

namespace Settings

def fileVariable : Text := "SABLE_CONFIG"

def colorlessVariables : List Text := ["NO_COLOR", "SABLE_NO_COLOR"]

def usualFile : Text := "sable.yaml"

/-- The file that the settings come from, if they come from one. -/
def file? (files : Files) (env : Environment) (explicit : Option Text) : Option Path :=
  match explicit, (env fileVariable).filter (!·.isEmpty) with
  | some path, _ => some (Path.ofText path)
  | none, some path => some (Path.ofText path)
  | none, none =>
    let usual := Path.ofText usualFile
    if (files.find usual).isFile then some usual else none

def ofFileDocument (path : Path) (d : Document) : Except SettingsError Settings :=
  if d.isVoid then ofEntries path.text [] else ofDocument path.text d

/-- The settings in what a path leads to, with what there is to note. The text of a file is read
by `read`, which yields the document that it holds, if it holds one. -/
def ofFound (read : Text → Option Document) (path : Path) (found : Found) :
    List Note × Except SettingsError Settings :=
  match found.content with
  | .error reason => ([], .error (.unreadable path.text reason))
  | .ok content =>
    match read content with
    | none => ([], .error (.malformed path.text))
    | some d => ([.settingsLoaded path.text], ofFileDocument path d)

def colored (env : Environment) (s : Settings) : Settings :=
  if colorlessVariables.any env.isSet then { s with color := false } else s

def resolveBy (read : Text → Option Document) (files : Files) (env : Environment)
    (explicit : Option Text) : List Note × Except SettingsError Settings :=
  let (notes, settings) := match file? files env explicit with
    | some path => ofFound read path (files.find path)
    | none => ([], .ok {})
  (notes, settings.map (colored env))

def resolve (files : Files) (env : Environment) (explicit : Option Text) :
    List Note × Except SettingsError Settings :=
  resolveBy Document.read? files env explicit

end Settings

end ScriptLang
