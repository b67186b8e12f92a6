import ScriptLang.Token.Trivia
import ScriptLang.Token.Number
import ScriptLang.Token.StringLiteral

/-!
# From text to tokens

`Token.scan` reads one token at the front of a text, and `Token.scanAll` the
whole text: the tokens up to its end, or up to the first place that cannot be
read. Every token takes at least one code point, so the text ahead shrinks.

The lexeme of a token is the stretch of text it takes, and the positions are
those of the text before it, so the lexemes with the blanks and comments between
them make up the text again.
-/

namespace ScriptLang

namespace Token

/-- The name or keyword at the front of a text that starts with `c`, with the
number of code points after `c`. -/
def scanWord (c : CodePoint) (t : Text) : Content × Nat :=
  let rest := t.takeWhile fun d => d.isAlphanumeric || d = Number.underscore
  match Keyword.ofText? (c :: rest) with
  | some word => (.keyword word, rest.length)
  | none => (.identifier (c :: rest), rest.length)

/-- The sign at the front of a text that starts with `c`, the longer of two, with
the number of code points after `c`. -/
def scanSign? (c : CodePoint) (t : Text) : Option (Content × Nat) :=
  let pair := t.head?.bind fun d => Sign.ofText? [c, d]
  match pair with
  | some s => some (.sign s, 1)
  | none => (Sign.ofText? [c]).map fun s => (.sign s, 0)

def scan (c : CodePoint) (t : Text) : Except Misread (Content × Nat) :=
  if c = CodePoint.ofChar '"' || c = CodePoint.ofChar '\'' then StringLiteral.scan c t
  else if c.isDigit then (Number.scan (c :: t)).map fun (content, size) => (content, size - 1)
  else if c.isAlphabetic || c = Number.underscore then .ok (scanWord c t)
  else
    match scanSign? c t with
    | some found => .ok found
    | none => .error ⟨.unexpectedCharacter c, 0, 1⟩

/-- The tokens of a text that starts at a position, and the fault that stops them
if one does. -/
def scanFrom (file : Option Text) (p : Position) (t : Text) : List Token × Option Fault :=
  match Trivia.size t with
  | .error m => ([], some (m.fault file p t))
  | .ok blank =>
    let start := p.advance (t.take blank)
    match _h : t.drop blank with
    | [] => ([⟨.endOfInput, [], ⟨file, start, start⟩, p.line < start.line⟩], none)
    | c :: rest =>
      match scan c rest with
      | .error m => ([], some (m.fault file start (c :: rest)))
      | .ok (content, further) =>
        let lexeme := c :: rest.take further
        let stop := start.advance lexeme
        let (tokens, fault) := scanFrom file stop (rest.drop further)
        (⟨content, lexeme, ⟨file, start, stop⟩, p.line < stop.line⟩ :: tokens, fault)
termination_by t.length
decreasing_by
  have := congrArg List.length _h
  simp only [List.length_drop, List.length_cons] at this ⊢
  omega

def scanAll (file : Option Text) (source : Text) : List Token × Option Fault :=
  let (tokens, fault) := scanFrom file Position.start source
  (tokens, fault.map fun f => f.quoteFrom source.lines)

def tokenize (file : Option Text) (source : Text) : Except Fault (List Token) :=
  match scanAll file source with
  | (tokens, none) => .ok tokens
  | (_, some fault) => .error fault

end Token

end ScriptLang
