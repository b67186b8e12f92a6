import ScriptLang.Text.Lines
import ScriptLang.Text.Numeral

/-!
# Positions and spans

A position in a source counts lines and columns from one and code points from
zero; a line feed ends a line. `Position.advance` moves a position past a text,
so the position of any place is the start advanced past what stands before it.

A span runs from one position to another in one source, whose name, if it has
one, is shown in front of the start.
-/

namespace ScriptLang

structure Position where
  /-- The line, counted from one. -/
  line : Nat
  /-- The column, counted from one. -/
  column : Nat
  /-- The number of code points before the place. -/
  offset : Nat
deriving DecidableEq

namespace Position

def start : Position := ⟨1, 1, 0⟩

def next (p : Position) (c : CodePoint) : Position :=
  if c = CodePoint.lineFeed then ⟨p.line + 1, 1, p.offset + 1⟩
  else ⟨p.line, p.column + 1, p.offset + 1⟩

def advance (p : Position) (t : Text) : Position := t.foldl next p

@[simp] theorem advance_nil (p : Position) : p.advance [] = p := rfl

@[simp] theorem advance_cons (p : Position) (c : CodePoint) (t : Text) :
    p.advance (c :: t) = (p.next c).advance t := rfl

theorem advance_append (p : Position) (t u : Text) :
    p.advance (t ++ u) = (p.advance t).advance u := by
  simp [advance]

@[simp] theorem next_offset (p : Position) (c : CodePoint) : (p.next c).offset = p.offset + 1 := by
  unfold next; split <;> rfl

theorem advance_offset (p : Position) (t : Text) :
    (p.advance t).offset = p.offset + t.length := by
  induction t generalizing p with
  | nil => rfl
  | cons c t ih => rw [advance_cons, ih, next_offset, List.length_cons]; omega

end Position

structure Span where
  file : Option Text
  start : Position
  stop : Position
deriving DecidableEq

namespace Span

def merge (s t : Span) : Span := { s with stop := t.stop }

@[simp] theorem merge_start (s t : Span) : (s.merge t).start = s.start := rfl

@[simp] theorem merge_stop (s t : Span) : (s.merge t).stop = t.stop := rfl

/-- The start of a span as it is shown: the source's name, unless it is empty,
the line and the column. -/
def text (s : Span) : Text :=
  let place := Numeral.ofNat s.start.line ++ ":" ++ Numeral.ofNat s.start.column
  match s.file with
  | some (c :: name) => (c :: name) ++ ":" ++ place
  | _ => place

end Span

end ScriptLang
