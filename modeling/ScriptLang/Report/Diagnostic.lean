import ScriptLang.Diagnostic.Basic
import ScriptLang.Report.Basic

/-!
# Diagnostics in reports

A diagnostic as a value of a report: what it says, where, and its advice, but not the
line that it quotes.
-/

namespace ScriptLang

def Position.report (p : Position) : Report :=
  .object [("line", .number p.line), ("column", .number p.column), ("offset", .number p.offset)]

def Span.report (s : Span) : Report :=
  .object [("start", s.start.report), ("end", s.stop.report)]

namespace Diagnostic

def report (d : Diagnostic) : Report :=
  .object [("code", .text d.code), ("message", .text d.message),
    ("severity", .text d.severity.text), ("range", d.span.report),
    ("hints", .list (d.hints.map .text))]

def fileReport (file : Text) (diagnostics : List Diagnostic) : Report :=
  .object [("file", .text file), ("diagnostics", .list (diagnostics.map report))]

end Diagnostic

end ScriptLang
