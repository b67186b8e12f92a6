import ScriptLang.Text.CodePoint

/-!
# Kinds of value

The closed set of kinds a value can have, with the name that messages use for
each and the label that an inspection shows.
-/

namespace ScriptLang

inductive ValueKind where
  | integer
  | float
  | string
  | boolean
  | range
  | iterator
  | function
  | builtin
  | nothing
deriving DecidableEq

namespace ValueKind

def text : ValueKind → Text
  | .integer => "integer"
  | .float => "float"
  | .string => "string"
  | .boolean => "boolean"
  | .range => "range"
  | .iterator => "iterator"
  | .function => "function"
  | .builtin => "built-in function"
  | .nothing => "nothing"

def label : ValueKind → Text
  | .integer => "INTEGER"
  | .float => "FLOAT"
  | .string => "STRING"
  | .boolean => "BOOLEAN"
  | .range => "RANGE"
  | .iterator => "ITERATOR"
  | .function => "FUNCTION"
  | .builtin => "BUILTIN"
  | .nothing => "NOTHING"

end ValueKind

end ScriptLang
