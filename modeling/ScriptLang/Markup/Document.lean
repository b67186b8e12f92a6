import ScriptLang.Text.Numeral
import ScriptLang.Decimal.Layout

/-!
# Documents of settings

A document is what a settings file says: nothing, truth values, numbers, texts,
dates, lists and mappings. `Document.isVoid` holds of documents that say nothing,
which are the empty and zero ones of each kind. A key of a mapping may be any
scalar and is shown by `Document.shown`.
-/

namespace ScriptLang

inductive Document where
  | null
  | boolean (value : Bool)
  | integer (value : Int)
  | float (value : Float)
  | text (value : Text)
  | date (shown : Text)
  | moment (shown : Text)
  | list (items : List Document)
  /-- Documents under keys, in the order of the keys' first appearance. -/
  | mapping (entries : List (Document × Document))

instance : Inhabited Document := ⟨.null⟩

namespace Document

def kindName : Document → Text
  | .null => "NoneType"
  | .boolean _ => "bool"
  | .integer _ => "int"
  | .float _ => "float"
  | .text _ => "str"
  | .date _ => "date"
  | .moment _ => "datetime"
  | .list _ => "list"
  | .mapping _ => "dict"

def shown : Document → Text
  | .null => "None"
  | .boolean true => "True"
  | .boolean false => "False"
  | .integer n => Numeral.ofInt n
  | .float x => (Magnitude.ofFloat x).text
  | .text t => t
  | .date t => t
  | .moment t => t
  | .list _ => []
  | .mapping _ => []

def isVoid : Document → Bool
  | .null => true
  | .boolean b => !b
  | .integer n => n = 0
  | .float x => x == 0
  | .text t => t.isEmpty
  | .list items => items.isEmpty
  | .mapping entries => entries.isEmpty
  | _ => false

def isKey : Document → Bool
  | .list _ => false
  | .mapping _ => false
  | _ => true

/-- Entries with one more after them; a text that is a key already gets a new value
in its place. -/
def withEntry (entries : List (Document × Document)) (key value : Document) :
    List (Document × Document) :=
  let isSame := fun (d : Document) => match key, d with
    | .text s, .text t => s = t
    | _, _ => false
  if entries.any fun e => isSame e.1 then
    entries.map fun e => if isSame e.1 then (e.1, value) else e
  else entries ++ [(key, value)]

end Document

end ScriptLang
