import ScriptLang.Token.Basic
import ScriptLang.Value.Kind

/-!
# What can go wrong

The causes of every error a source can meet, in the three stages in which it is
read: words (`LexicalCause`), structure (`SyntaxCause`) and evaluation
(`RuntimeCause`). A cause says what happened; its code, wording and hints are
functions of it.
-/

namespace ScriptLang

/-- What is wrong with a number literal, where there is more to say than that it
is one. -/
inductive NumberFlaw where
  | missingExponent
  | trailingSeparator
  | missingDigits
  | foreignDigit (base : Nat)
  | tooLarge

def NumberFlaw.text : NumberFlaw → Text
  | .missingExponent => "missing exponent digits"
  | .trailingSeparator => "trailing '_'"
  | .missingDigits => "missing digits after prefix"
  | .foreignDigit base => "invalid digit for base " ++ Numeral.ofNat base
  | .tooLarge => "does not fit in a 64-bit signed integer"

inductive LexicalCause where
  | unexpectedCharacter (c : CodePoint)
  /-- A string literal that does not end on its line. -/
  | unterminatedString
  | invalidEscape (sequence : Text)
  | unterminatedComment
  | invalidNumber (lexeme : Text) (flaw : Option NumberFlaw)

namespace LexicalCause

def code : LexicalCause → Text
  | .unexpectedCharacter _ => "E001"
  | .unterminatedString => "E002"
  | .invalidEscape _ => "E003"
  | .unterminatedComment => "E004"
  | .invalidNumber _ _ => "E005"

def message : LexicalCause → Text
  | .unexpectedCharacter c => "unexpected character '" ++ [c] ++ "'"
  | .unterminatedString => "unterminated string literal"
  | .invalidEscape sequence => "invalid escape sequence '\\" ++ sequence ++ "'"
  | .unterminatedComment => "unterminated block comment (expected closing */)"
  | .invalidNumber lexeme none => "invalid number literal '" ++ lexeme ++ "'"
  | .invalidNumber lexeme (some flaw) =>
    "invalid number literal '" ++ lexeme ++ "': " ++ flaw.text

def hints : LexicalCause → List Text
  | .unterminatedString =>
    ["string literals must be closed with matching quotes on the same line"]
  | .invalidEscape _ =>
    ["valid escape sequences: \\n, \\t, \\r, \\\", \\', \\\\, \\0, \\x##, \\u####"]
  | _ => []

end LexicalCause

inductive Expectation where
  /-- One kind of token, by its own name. -/
  | token (kind : TokenKind)
  | expression
  | statement
  | statementEnd
  | block
  | blockEnd
  | groupEnd
  | argumentEnd
  | indexEnd
  | sliceEnd
  | parameterName
  | lambdaParametersEnd
  | variableName
  | assignSign
  | functionName
  | parametersStart
  | decoratedFunction
  | loopVariable
  | inWord
  | semicolon
  | assertionMessage
deriving DecidableEq

def Expectation.text : Expectation → Text
  | .token kind => kind.description
  | .expression => "expression"
  | .statement => "statement"
  | .statementEnd => "end of statement"
  | .block => "'\x7b'"
  | .blockEnd => "'\x7d'"
  | .groupEnd => "')'"
  | .argumentEnd => "',' or ')'"
  | .indexEnd => "':' or ']'"
  | .sliceEnd => "']'"
  | .parameterName => "parameter name"
  | .lambdaParametersEnd => "',' or '|'"
  | .variableName => "variable name"
  | .assignSign => "'='"
  | .functionName => "function name"
  | .parametersStart => "'('"
  | .decoratedFunction => "'def' after decorator"
  | .loopVariable => "loop variable or '('"
  | .inWord => "'in'"
  | .semicolon => "';'"
  | .assertionMessage => "assertion message string"

inductive SyntaxCause where
  | unexpectedToken (expected : Expectation) (found : Text)
  | unexpectedEnd (expected : Expectation)
  | nestedTooDeeply
  | invalidTarget

namespace SyntaxCause

def code : SyntaxCause → Text
  | .unexpectedToken _ _ => "E101"
  | .unexpectedEnd _ => "E102"
  | .nestedTooDeeply => "E103"
  | .invalidTarget => "E104"

def message : SyntaxCause → Text
  | .unexpectedToken expected found => "expected " ++ expected.text ++ ", found " ++ found
  | .unexpectedEnd expected => "unexpected end of input, expected " ++ expected.text
  | .nestedTooDeeply => "expression nested too deeply"
  | .invalidTarget => "invalid assignment target"

def hints : SyntaxCause → List Text
  | .nestedTooDeeply => ["split the expression into smaller parts with intermediate variables"]
  | .invalidTarget => ["only plain variable names can be assigned to"]
  | _ => []

end SyntaxCause

inductive RuntimeCause where
  | invalidOperands (operator : Text) (left right : ValueKind)
  | invalidOperand (operator : Text) (kind : ValueKind)
  | mismatch (context expected found : Text)
  | undefinedVariable (name : Text)
  | undeclaredVariable (name : Text)
  | reservedName (name : Text)
  | notCallable (kind : ValueKind)
  | argumentCount (function expected : Text) (found : Nat)
  | indexOutOfBounds (index : Int) (length : Nat)
  | zeroStep
  | unreachableStop (step stop start : Int)
  | assertionFailed (message : Option Text)
  | returnOutsideFunction
  | controlOutsideLoop (keyword : Text)
  | integerOverflow (operator : Text)
  | divisionByZero
  | callDepthExceeded (limit : Nat)
  | notIterable (kind : ValueKind)
  | evaluationTooDeep

namespace RuntimeCause

def code : RuntimeCause → Text
  | .invalidOperands _ _ _ => "E401"
  | .invalidOperand _ _ => "E401"
  | .mismatch _ _ _ => "E401"
  | .undefinedVariable _ => "E402"
  | .undeclaredVariable _ => "E402"
  | .reservedName _ => "E403"
  | .notCallable _ => "E404"
  | .argumentCount _ _ _ => "E405"
  | .indexOutOfBounds _ _ => "E406"
  | .zeroStep => "E406"
  | .unreachableStop _ _ _ => "E406"
  | .assertionFailed _ => "E407"
  | .returnOutsideFunction => "E408"
  | .controlOutsideLoop _ => "E409"
  | .integerOverflow _ => "E410"
  | .divisionByZero => "E410"
  | .callDepthExceeded _ => "E411"
  | .notIterable _ => "E412"
  | .evaluationTooDeep => "E413"

def message : RuntimeCause → Text
  | .invalidOperands operator left right =>
    "unsupported operand types for '" ++ operator ++ "': " ++ left.text ++ " and " ++ right.text
  | .invalidOperand operator kind =>
    "unsupported operand type for '" ++ operator ++ "': " ++ kind.text
  | .mismatch context expected found =>
    context ++ " must be " ++ expected ++ ", found " ++ found
  | .undefinedVariable name => "variable '" ++ name ++ "' is not defined"
  | .undeclaredVariable name => "cannot assign to undeclared variable '" ++ name ++ "'"
  | .reservedName name =>
    "'" ++ name ++ "' is a built-in function and can't be used as a variable"
  | .notCallable kind => kind.text ++ " value is not callable"
  | .argumentCount function expected found =>
    function ++ "() expected " ++ expected ++ " argument(s), got " ++ Numeral.ofNat found
  | .indexOutOfBounds index length =>
    "index " ++ Numeral.ofInt index ++ " out of bounds for length " ++ Numeral.ofNat length
  | .zeroStep => "slice step cannot be 0"
  | .unreachableStop step stop start =>
    "slice step " ++ Numeral.ofInt step ++ " never reaches end " ++ Numeral.ofInt stop ++
      " from start " ++ Numeral.ofInt start
  | .assertionFailed (some (c :: message)) => "assertion failed: " ++ (c :: message)
  | .assertionFailed _ => "assertion failed"
  | .returnOutsideFunction => "'return' outside of function"
  | .controlOutsideLoop keyword => "'" ++ keyword ++ "' outside of loop"
  | .integerOverflow operator => "integer overflow in '" ++ operator ++ "'"
  | .divisionByZero => "integer division by zero"
  | .callDepthExceeded limit =>
    "maximum call depth of " ++ Numeral.ofNat limit ++ " exceeded"
  | .notIterable kind => kind.text ++ " value is not iterable"
  | .evaluationTooDeep => "expression nested too deeply to evaluate"

def hints : RuntimeCause → List Text
  | .undeclaredVariable name => ["declare it first with 'let " ++ name ++ " = ...'"]
  | .integerOverflow _ => ["integers are 64-bit signed; use a float for larger magnitudes"]
  | .callDepthExceeded _ => ["raise max_call_depth in the configuration for deeper recursion"]
  | .evaluationTooDeep => ["split the expression into smaller parts with intermediate variables"]
  | _ => []

end RuntimeCause

inductive Cause where
  | lexical (cause : LexicalCause)
  | syntactic (cause : SyntaxCause)
  | runtime (cause : RuntimeCause)

namespace Cause

def code : Cause → Text
  | .lexical c => c.code
  | .syntactic c => c.code
  | .runtime c => c.code

def message : Cause → Text
  | .lexical c => c.message
  | .syntactic c => c.message
  | .runtime c => c.message

def hints : Cause → List Text
  | .lexical c => c.hints
  | .syntactic c => c.hints
  | .runtime c => c.hints

/-- The word in front of a report: an error of the text or of its evaluation. -/
def label : Cause → Text
  | .lexical _ => "SyntaxError"
  | .syntactic _ => "SyntaxError"
  | .runtime _ => "RuntimeError"

end Cause

end ScriptLang
