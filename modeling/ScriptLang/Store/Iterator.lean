import ScriptLang.Value.Basic
import ScriptLang.Diagnostic.Cause

/-!
# Iterators

An iterator is what is left of a string or of a range. `Iterator.next?` takes the
first element away. The elements left are a list only for strings; those of a
range are never listed, however many there are.
-/

namespace ScriptLang

inductive Iterator where
  /-- The code points of a string, each a string of its own. -/
  | characters (rest : Text)
  /-- The integers from `start` up to `stop`, which is not among them. -/
  | integers (start stop : Int)

namespace Iterator

def next? : Iterator → Option (Value × Iterator)
  | .characters [] => none
  | .characters (c :: rest) => some (.string [c], .characters rest)
  | .integers start stop =>
    if start < stop then some (.integer start, .integers (start + 1) stop) else none

@[simp] theorem next?_characters_nil : next? (.characters []) = none := rfl

@[simp] theorem next?_characters_cons (c : CodePoint) (rest : Text) :
    next? (.characters (c :: rest)) = some (.string [c], .characters rest) := rfl

end Iterator

inductive Elements where
  | fresh (i : Iterator)
  /-- From an iterator that others may share. -/
  | shared (id : IteratorId)

/-- The elements of a value: those of a string, those of a range, or what is left of an
iterator. Other values have none. -/
def Value.elements : Value → Except RuntimeCause Elements
  | .string t => .ok (.fresh (.characters t))
  | .range start stop => .ok (.fresh (.integers start stop))
  | .iterator id => .ok (.shared id)
  | v => .error (.notIterable v.kind)

end ScriptLang
