import ScriptLang.Source.Span
import ScriptLang.Text.Quoted
import ScriptLang.Decimal.Layout

/-!
# Tokens

The words of a program. A token holds what it says (`Token.Content`: a literal
with its value, a name, a keyword, a sign or the end of the input), the text it
was written as, where it stands, and whether a line feed lies between the token
before it and its own end. `TokenKind` is the content without values.

Keywords and signs have one spelling each, and the spelling decides which of
them a text is (`Keyword.ofText?`, `Sign.ofText?`).
-/

namespace ScriptLang

inductive Keyword where
  | letWord | defWord | ifWord | elseWord | whileWord | forWord | inWord | returnWord
  | breakWord | continueWord | assertWord | trueWord | falseWord | nothingWord
  | andWord | orWord | notWord
deriving DecidableEq

namespace Keyword

def all : List Keyword :=
  [.letWord, .defWord, .ifWord, .elseWord, .whileWord, .forWord, .inWord, .returnWord,
    .breakWord, .continueWord, .assertWord, .trueWord, .falseWord, .nothingWord,
    .andWord, .orWord, .notWord]

def spelling : Keyword → Text
  | .letWord => "let"
  | .defWord => "def"
  | .ifWord => "if"
  | .elseWord => "else"
  | .whileWord => "while"
  | .forWord => "for"
  | .inWord => "in"
  | .returnWord => "return"
  | .breakWord => "break"
  | .continueWord => "continue"
  | .assertWord => "assert"
  | .trueWord => "true"
  | .falseWord => "false"
  | .nothingWord => "nothing"
  | .andWord => "and"
  | .orWord => "or"
  | .notWord => "not"

def ofText? (t : Text) : Option Keyword := all.find? fun k => k.spelling = t

theorem mem_all (k : Keyword) : k ∈ all := by cases k <;> decide

theorem ofText?_spelling (k : Keyword) : ofText? k.spelling = some k := by
  cases k <;> rfl

theorem spelling_of_ofText? {t : Text} {k : Keyword} (h : ofText? t = some k) :
    k.spelling = t := by
  simpa using List.find?_some h

def kindName : Keyword → Text
  | .letWord => "LET"
  | .defWord => "DEF"
  | .ifWord => "IF"
  | .elseWord => "ELSE"
  | .whileWord => "WHILE"
  | .forWord => "FOR"
  | .inWord => "IN"
  | .returnWord => "RETURN"
  | .breakWord => "BREAK"
  | .continueWord => "CONTINUE"
  | .assertWord => "ASSERT"
  | .trueWord => "TRUE"
  | .falseWord => "FALSE"
  | .nothingWord => "NOTHING"
  | .andWord => "AND"
  | .orWord => "OR"
  | .notWord => "NOT"

end Keyword

inductive Sign where
  | plus | minus | star | slash | plusPlus | minusMinus
  | less | greater | lessEqual | greaterEqual | equal | notEqual | assign
  | leftBrace | rightBrace | leftParen | rightParen | leftBracket | rightBracket
  | colon | semicolon | comma | doubleArrow | range | pipe | atSign
deriving DecidableEq

namespace Sign

def all : List Sign :=
  [.plus, .minus, .star, .slash, .plusPlus, .minusMinus,
    .less, .greater, .lessEqual, .greaterEqual, .equal, .notEqual, .assign,
    .leftBrace, .rightBrace, .leftParen, .rightParen, .leftBracket, .rightBracket,
    .colon, .semicolon, .comma, .doubleArrow, .range, .pipe, .atSign]

def spelling : Sign → Text
  | .plus => "+"
  | .minus => "-"
  | .star => "*"
  | .slash => "/"
  | .plusPlus => "++"
  | .minusMinus => "--"
  | .less => "<"
  | .greater => ">"
  | .lessEqual => "<="
  | .greaterEqual => ">="
  | .equal => "=="
  | .notEqual => "!="
  | .assign => "="
  | .leftBrace => "\x7b"
  | .rightBrace => "\x7d"
  | .leftParen => "("
  | .rightParen => ")"
  | .leftBracket => "["
  | .rightBracket => "]"
  | .colon => ":"
  | .semicolon => ";"
  | .comma => ","
  | .doubleArrow => "=>"
  | .range => ".."
  | .pipe => "|"
  | .atSign => "@"

def ofText? (t : Text) : Option Sign := all.find? fun s => s.spelling = t

theorem mem_all (s : Sign) : s ∈ all := by cases s <;> decide

theorem ofText?_spelling (s : Sign) : ofText? s.spelling = some s := by
  cases s <;> rfl

theorem spelling_of_ofText? {t : Text} {s : Sign} (h : ofText? t = some s) :
    s.spelling = t := by
  simpa using List.find?_some h

def kindName : Sign → Text
  | .plus => "PLUS"
  | .minus => "MINUS"
  | .star => "STAR"
  | .slash => "SLASH"
  | .plusPlus => "PLUS_PLUS"
  | .minusMinus => "MINUS_MINUS"
  | .less => "LT"
  | .greater => "GT"
  | .lessEqual => "LE"
  | .greaterEqual => "GE"
  | .equal => "EQ"
  | .notEqual => "NE"
  | .assign => "ASSIGN"
  | .leftBrace => "LBRACE"
  | .rightBrace => "RBRACE"
  | .leftParen => "LPAREN"
  | .rightParen => "RPAREN"
  | .leftBracket => "LBRACKET"
  | .rightBracket => "RBRACKET"
  | .colon => "COLON"
  | .semicolon => "SEMICOLON"
  | .comma => "COMMA"
  | .doubleArrow => "DOUBLE_ARROW"
  | .range => "RANGE"
  | .pipe => "PIPE"
  | .atSign => "AT"

end Sign

inductive TokenKind where
  | integer
  | float
  | string
  | identifier
  | keyword (word : Keyword)
  | sign (sign : Sign)
  | endOfInput
deriving DecidableEq

namespace TokenKind

def all : List TokenKind :=
  [.integer, .float, .string, .identifier] ++ Keyword.all.map .keyword ++
    Sign.all.map .sign ++ [.endOfInput]

def name : TokenKind → Text
  | .integer => "INT_LITERAL"
  | .float => "FLOAT_LITERAL"
  | .string => "STRING_LITERAL"
  | .identifier => "IDENTIFIER"
  | .keyword word => word.kindName
  | .sign s => s.kindName
  | .endOfInput => "EOF"

def ofName? (t : Text) : Option TokenKind := all.find? fun k => k.name = t

def description : TokenKind → Text
  | .integer => "int literal"
  | .float => "float literal"
  | .string => "string literal"
  | .identifier => "identifier"
  | .keyword word => "'" ++ word.spelling ++ "'"
  | .sign s => "'" ++ s.spelling ++ "'"
  | .endOfInput => "end of input"

end TokenKind

inductive Token.Content where
  | integer (value : Nat)
  | float (value : Float)
  /-- A string literal, its escapes resolved. -/
  | string (value : Text)
  | identifier (name : Text)
  | keyword (word : Keyword)
  | sign (sign : Sign)
  | endOfInput

structure Token where
  content : Token.Content
  lexeme : Text
  span : Span
  /-- Whether a line feed lies between the token before and the end of this one. -/
  afterBreak : Bool

namespace Token

def Content.kind : Content → TokenKind
  | .integer _ => .integer
  | .float _ => .float
  | .string _ => .string
  | .identifier _ => .identifier
  | .keyword word => .keyword word
  | .sign s => .sign s
  | .endOfInput => .endOfInput

def kind (t : Token) : TokenKind := t.content.kind

/-- A token on one line: the name of its kind, with the value of a literal or
name in parentheses. -/
def text (t : Token) : Text :=
  let value : Option Text := match t.content with
    | .integer n => some (Numeral.ofNat n)
    | .float x => some (Magnitude.ofFloat x).text
    | .string s => some s.quoted
    | .identifier s => some s.quoted
    | _ => none
  match value with
  | some v => t.kind.name ++ "(" ++ v ++ ")"
  | none => t.kind.name

def description (t : Token) : Text :=
  match t.content with
  | .identifier _ | .integer _ | .float _ => "'" ++ t.lexeme ++ "'"
  | _ => t.kind.description

end Token

end ScriptLang
