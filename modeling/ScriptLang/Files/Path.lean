import ScriptLang.Text.Lines

/-!
# Paths

A path is a list of names under a root, or under the place where the program runs.
`Path.ofText` reads a text in which slashes part the names; empty names and single
dots are dropped, and two slashes in front, no less and no more, make a root of their
own. `Path.text` writes a path with no superfluous sign, so many texts of one path
have one such text.
-/

namespace ScriptLang

inductive Path.Start where
  | here
  | root
  /-- The root that is written as two slashes. -/
  | doubleRoot
deriving DecidableEq

structure Path where
  start : Path.Start
  names : List Text
deriving DecidableEq

namespace Path

def Start.text : Start → Text
  | .here => []
  | .root => "/"
  | .doubleRoot => "//"

def Start.ofSlashes : Nat → Start
  | 0 => .here
  | 2 => .doubleRoot
  | _ => .root

def isSlash (c : CodePoint) : Bool := c = CodePoint.ofChar '/'

def namesOf (t : Text) : List Text :=
  (Text.splitAt '/' t).filter fun name => !name.isEmpty && name ≠ Text.ofString "."

def ofText (t : Text) : Path := ⟨.ofSlashes (t.takeWhile isSlash).length, namesOf t⟩

/-- A path as text; a single dot where it has no sign at all. -/
def text (p : Path) : Text :=
  match p.start, p.names with
  | .here, [] => "."
  | start, names => start.text ++ Text.joinWith "/" names

end Path

end ScriptLang
