import ScriptLang.Source.Span

/-!
# Diagnostics

A diagnostic is a message about a stretch of source: a code, a wording, a
severity, possibly the line it quotes, and hints. Shown in full it is one line
with the position, the quoted line under a ruler with a caret below every column
of the stretch, and one line for each hint. A stretch over several lines is
underlined to the end of the quoted line, and every stretch by at least one
caret.
-/

namespace ScriptLang

inductive Severity where
  | error
  | warning
deriving DecidableEq

def Severity.text : Severity → Text
  | .error => "error"
  | .warning => "warning"

structure Diagnostic where
  /-- The code of the message, such as `E101`. -/
  code : Text
  message : Text
  severity : Severity
  span : Span
  quoted : Option Text
  hints : List Text

namespace Diagnostic

/-- A number in at least three columns. -/
def lineNumber (n : Nat) : Text :=
  let shown := Numeral.ofNat n
  List.replicate (3 - shown.length) (CodePoint.ofChar ' ') ++ shown

def caretCount (span : Span) (line : Text) : Nat :=
  let stop := if span.start.line = span.stop.line then span.stop.column else line.length + 1
  max 1 (stop - span.start.column)

def quotation (span : Span) (line : Text) : List Text :=
  ["  |",
    lineNumber span.start.line ++ " | " ++ line,
    "    | " ++ List.replicate (span.start.column - 1) (CodePoint.ofChar ' ') ++
      List.replicate (caretCount span line) (CodePoint.ofChar '^')]

def headline (d : Diagnostic) : Text :=
  d.span.text ++ ": " ++ d.severity.text ++ "[" ++ d.code ++ "]: " ++ d.message

def hintLine (hint : Text) : Text := "    = hint: " ++ hint

/-- The lines of a diagnostic, with the quoted line only if `showSource`. -/
def layout (d : Diagnostic) (showSource : Bool) : List Text :=
  d.headline ::
    ((match d.quoted, showSource with
      | some line, true => quotation d.span line
      | _, _ => []) ++
      d.hints.map hintLine)

def text (d : Diagnostic) (showSource : Bool) : Text :=
  Text.joinWith [CodePoint.lineFeed] (d.layout showSource)

/-- The diagnostic with a line of `lines` quoted, unless it quotes one already or
its first line is not among them. -/
def quoteFrom (d : Diagnostic) (lines : List Text) : Diagnostic :=
  { d with quoted := d.quoted <|> Text.line? lines d.span.start.line }

end Diagnostic

end ScriptLang
