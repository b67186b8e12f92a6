import ScriptLang.Diagnostic.Fault

/-!
# Misreadings

A scanner reads the front of a text. When it cannot, it says why and which
stretch of the text it blames: `size` code points after the first `skip` of them.
-/

namespace ScriptLang

structure Misread where
  cause : LexicalCause
  skip : Nat
  size : Nat

namespace Misread

/-- The same stretch, seen from `n` code points earlier. -/
def after (n : Nat) (m : Misread) : Misread := { m with skip := n + m.skip }

def fault (m : Misread) (file : Option Text) (p : Position) (t : Text) : Fault :=
  let start := p.advance (t.take m.skip)
  let stop := start.advance ((t.drop m.skip).take m.size)
  ⟨.lexical m.cause, ⟨file, start, stop⟩, none⟩

end Misread

end ScriptLang
