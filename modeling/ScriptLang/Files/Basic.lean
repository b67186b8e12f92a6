import ScriptLang.Files.Path

/-!
# Files

What a program can see of a file system: what each path leads to. `Files.ofList`
is the file system that holds the given files and their directories, seen from the
directory that all of them are in. A name after that of a file leads nowhere, and
so does one above the given directory, of which nothing but the directories above
it is known.
-/

namespace ScriptLang

inductive Found where
  | file (content : Text)
  | directory
  | missing
  /-- Nothing, for a file stands where a directory is needed. -/
  | blocked
deriving DecidableEq

namespace Found

def isFile : Found → Bool
  | .file _ => true
  | _ => false

def content : Found → Except Text Text
  | .file content => .ok content
  | .directory => .error "Is a directory"
  | .missing => .error "No such file or directory"
  | .blocked => .error "Not a directory"

end Found

structure Files where
  find : Path → Found

namespace Files

/-- A place reached on a path: so many directories up, or under these names. -/
inductive Place where
  | above (levels : Nat)
  | under (names : List Text)

/-- What is under a list of names among files. -/
def at? (files : List (Path × Text)) (names : List Text) : Found :=
  match files.find? fun f => f.1.names = names with
  | some f => .file f.2
  | none =>
    if names.isEmpty || files.any (fun f => names.isPrefixOf f.1.names) then .directory
    else .missing

def isUp (name : Text) : Bool := name = Text.ofString ".."

def up (names : List Text) : Place :=
  if names.isEmpty then .above 1 else .under names.dropLast

def walk (files : List (Path × Text)) : Place → List Text → Found
  | .above _, [] => .directory
  | .under names, [] => at? files names
  | .above n, name :: rest => if isUp name then walk files (.above (n + 1)) rest else .missing
  | .under names, name :: rest =>
    match at? files names with
    | .directory => walk files (if isUp name then up names else .under (names ++ [name])) rest
    | .missing => .missing
    | _ => .blocked

def ofList (files : List (Path × Text)) : Files where
  find p :=
    match p.start with
    | .here => walk files (.under []) p.names
    | _ => if p.names.isEmpty then .directory else .missing

end Files

end ScriptLang
