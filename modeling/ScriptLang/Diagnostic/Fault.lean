import ScriptLang.Diagnostic.Basic
import ScriptLang.Diagnostic.Cause

/-!
# Faults

A fault is a cause at a stretch of source, with the line that it quotes once one
is known. The first line quoted stays: `Fault.quoteFrom` fills an empty place
only.
-/

namespace ScriptLang

structure Fault where
  cause : Cause
  span : Span
  quoted : Option Text

namespace Fault

/-- The fault of an evaluation, which knows no text to quote. -/
def ofRuntime (cause : RuntimeCause) (span : Span) : Fault := ⟨.runtime cause, span, none⟩

/-- The fault with a line quoted, unless it quotes one already or the number of
its first line is not among those of `lines`. -/
def quoteFrom (f : Fault) (lines : List Text) : Fault :=
  { f with quoted := f.quoted <|> Text.line? lines f.span.start.line }

theorem quoteFrom_of_quoted {f : Fault} {line : Text} (h : f.quoted = some line)
    (lines : List Text) : f.quoteFrom lines = f := by
  cases f; simp_all [quoteFrom]

def diagnostic (f : Fault) : Diagnostic where
  code := f.cause.code
  message := f.cause.message
  severity := .error
  span := f.span
  quoted := f.quoted
  hints := f.cause.hints

def text (f : Fault) : Text := f.diagnostic.text true

/-- A fault as text, after the word for its stage. -/
def report (f : Fault) : Text := f.cause.label ++ ": " ++ f.text

end Fault

end ScriptLang
