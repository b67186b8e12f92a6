import ScriptLang.Text.Lines
import ScriptLang.Text.Numeric

/-!
# The arguments of a command

A command line asks for one action and says where the settings come from and whether
the notes are shown. The action is named by a verb; where the first argument that is
no option names none, `withVerb` puts the verb `run` in front of it.

Options may stand before the verb or after it, each kind in its place. A long option
may be cut short as long as only one option begins so, and its value may follow after
an equals sign; short options may share one dash. After two dashes nothing is an
option. An argument that looks like a negative number or holds a space is no option
either.

`Request.ofArguments` reads a command line. It is refused when an option asks for
help, which counts as soon as it is read, or when it is no such command line.
-/

namespace ScriptLang

/-! ### Verbs -/

inductive Verb where
  | run
  | check
  | ast
  | repl
  | config
deriving DecidableEq

namespace Verb

def all : List Verb := [.run, .check, .ast, .repl, .config]

def name : Verb → Text
  | .run => "run"
  | .check => "check"
  | .ast => "ast"
  | .repl => "repl"
  | .config => "config"

def ofName? (t : Text) : Option Verb := all.find? fun v => v.name = t

def takesFile : Verb → Bool
  | .run => true
  | .check => true
  | .ast => true
  | .repl => false
  | .config => false

theorem ofName?_name (v : Verb) : ofName? v.name = some v := by cases v <;> rfl

end Verb

/-- The option whose value is the argument after it. -/
def configOption : Text := "--config"

def hasDash (t : Text) : Bool := t.head? = some (CodePoint.ofChar '-')

/-- The arguments with a verb in them: the first one that is neither an option nor the
value of `--config` is a verb, or gets `run` in front of it. -/
def withVerb : List Text → List Text
  | [] => []
  | t :: rest =>
    if t = configOption then
      match rest with
      | [] => [t]
      | value :: rest => t :: value :: withVerb rest
    else if hasDash t then t :: withVerb rest
    else if (Verb.ofName? t).isSome then t :: rest
    else Verb.run.name :: t :: rest

/-! ### Options -/

inductive Switch where
  | help
  | config
  | verbose
  | json
deriving DecidableEq

namespace Switch

def names : Switch → List Text
  | .help => ["-h", "--help"]
  | .config => [configOption]
  | .verbose => ["-v", "--verbose"]
  | .json => ["--json"]

def takesValue : Switch → Bool
  | .config => true
  | _ => false

def global : List Switch := [.help, .config, .verbose]

def ofVerb : Verb → List Switch
  | .check => [.help, .json]
  | _ => [.help]

end Switch

def spellings (switches : List Switch) : List (Switch × Text) :=
  switches.flatMap fun s => s.names.map fun name => (s, name)

def spelled? (switches : List Switch) (t : Text) : Option Switch :=
  ((spellings switches).find? fun e => e.2 = t).map (·.1)

/-! ### Words -/

inductive Word where
  | item
  | separator
  /-- An option in some spelling, with what is joined to it: the value after an equals
  sign, or all that stands after the letter of a short one. -/
  | option (switch : Switch) (name : Text) (joined : Option Text)
  | unknown

/-- What stands before the first equals sign, and what stands after it. -/
def splitValue (t : Text) : Text × Option Text :=
  let isEquals := fun c => c = CodePoint.ofChar '='
  let name := t.takeWhile (!isEquals ·)
  (name, if name.length < t.length then some (t.drop (name.length + 1)) else none)

def isShort (name : Text) : Bool := !Text.startsWith name "--"

/-- The options that an argument may be short for. -/
def candidates (switches : List Switch) (t : Text) : List Word :=
  if Text.startsWith t "--" then
    let (start, value) := splitValue t
    (spellings switches).filterMap fun (s, name) =>
      if name.startsWith start then some (.option s name value) else none
  else
    (spellings switches).filterMap fun (s, name) =>
      if name = t.take 2 then some (.option s name (some (t.drop 2)))
      else if name.startsWith t then some (.option s name none)
      else none

/-- Whether a text after a dash is a number, with at most one point and a digit at its
end. -/
def isNumber (t : Text) : Bool :=
  let isDecimal := fun (c : CodePoint) => c.decimalValue?.isSome
  match Text.splitAt '.' t with
  | [whole] => !whole.isEmpty && whole.all isDecimal
  | [whole, fraction] => whole.all isDecimal && !fraction.isEmpty && fraction.all isDecimal
  | _ => false

/-- What an argument is before two dashes; nothing where several options begin so. -/
def Word.of? (switches : List Switch) (t : Text) : Option Word :=
  if !hasDash t then some .item
  else
    let (name, value) := splitValue t
    match spelled? switches t, value.bind fun _ => spelled? switches name with
    | some s, _ => some (.option s t none)
    | none, some s => some (.option s name (if isShort name then some (t.drop 2) else value))
    | none, none =>
      match candidates switches t with
      | [] =>
        let isItem := t.length = 1 || isNumber (t.drop 1) || t.contains (CodePoint.ofChar ' ')
        some (if isItem then .item else .unknown)
      | [word] => if t.length = 1 then some .item else some word
      | _ => if t.length = 1 then some .item else none

def wordsOf? (switches : List Switch) : List Text → Option (List (Text × Word))
  | [] => some []
  | t :: rest =>
    if t = Text.ofString "--" then some ((t, .separator) :: rest.map fun u => (u, .item))
    else (Word.of? switches t).bind fun word =>
      (wordsOf? switches rest).map fun words => (t, word) :: words

/-! ### Requests -/

inductive Refusal where
  | help
  | misuse
deriving DecidableEq

inductive Action where
  | run (file : Text)
  | check (file : Text) (inJson : Bool)
  | ast (file : Text)
  | repl
  | config
deriving DecidableEq

structure Request where
  config : Option Text
  isVerbose : Bool
  action : Action
deriving DecidableEq

/-- The options after one dash: the first one, and those of the letters after it, up to
one that there is not. -/
structure Bundle where
  switches : List Switch
  hasUnknown : Bool

/-- The options after one dash, where neither a dash nor an equals sign may follow. -/
def bundle? (switches : List Switch) : Switch → Text → Option Bundle
  | s, [] => some ⟨[s], false⟩
  | s, c :: letters =>
    if c = CodePoint.ofChar '-' || c = CodePoint.ofChar '=' then none
    else
      match spelled? switches [CodePoint.ofChar '-', c] with
      | none => some ⟨[s], true⟩
      | some next =>
        (bundle? switches next letters).map fun b => { b with switches := s :: b.switches }

/-- The options that one argument names, none of which has a value. -/
def flags? (switches : List Switch) (s : Switch) (name : Text) : Option Text → Option Bundle
  | none => some ⟨[s], false⟩
  | some letters =>
    if isShort name && !letters.isEmpty then bundle? switches s letters else none

structure Reading where
  config : Option Text := none
  isVerbose : Bool := false
  inJson : Bool := false
  file : Option Text := none
  /-- Whether something was read that has no place. -/
  hasSurplus : Bool := false

namespace Reading

def flag (r : Reading) : Switch → Except Refusal Reading
  | .help => .error .help
  | .verbose => .ok { r with isVerbose := true }
  | .json => .ok { r with inJson := true }
  | .config => .ok r

def flags (r : Reading) : Option Bundle → Except Refusal Reading
  | none => .error .misuse
  | some b => b.switches.foldlM flag { r with hasSurplus := r.hasSurplus || b.hasUnknown }

def globals (r : Reading) : List (Text × Word) → Except Refusal (Reading × List Text)
  | [] => .ok (r, [])
  | (t, .item) :: rest => .ok (r, t :: rest.map (·.1))
  | (_, .separator) :: _ => .error .misuse
  | (_, .unknown) :: rest => globals { r with hasSurplus := true } rest
  | (_, .option s name (some value)) :: rest => do
    if s.takesValue then globals { r with config := some value } rest
    else globals (← r.flags (flags? Switch.global s name (some value))) rest
  | (_, .option s name none) :: rest => do
    if s.takesValue then
      match rest with
      | (t, .item) :: rest => globals { r with config := some t } rest
      | _ => throw Refusal.misuse
    else globals (← r.flags (flags? Switch.global s name none)) rest

/-- Read the arguments after a verb. Two dashes may stand before the file or, as
`isAfterFile` says, right after it. -/
def locals (verb : Verb) (isAfterFile : Bool) (r : Reading) :
    List (Text × Word) → Except Refusal Reading
  | [] => .ok r
  | (t, .item) :: rest =>
    if verb.takesFile && r.file.isNone then locals verb true { r with file := some t } rest
    else locals verb false { r with hasSurplus := true } rest
  | (_, .separator) :: rest =>
    let isBeforeFile := verb.takesFile && r.file.isNone && !rest.isEmpty
    locals verb false { r with hasSurplus := r.hasSurplus || !(isBeforeFile || isAfterFile) } rest
  | (_, .unknown) :: rest => locals verb false { r with hasSurplus := true } rest
  | (_, .option s name value) :: rest => do
    locals verb false (← r.flags (flags? (Switch.ofVerb verb) s name value)) rest

def action? (r : Reading) : Verb → Option Action
  | .run => r.file.map .run
  | .check => r.file.map (.check · r.inJson)
  | .ast => r.file.map .ast
  | .repl => some .repl
  | .config => some .config

end Reading

namespace Request

def words (switches : List Switch) (ts : List Text) : Except Refusal (List (Text × Word)) :=
  match wordsOf? switches ts with
  | some words => .ok words
  | none => .error .misuse

/-- What a command line with a verb in it asks for. Without a verb it is a prompt. -/
def ofWords (ts : List Text) : Except Refusal Request := do
  let (r, rest) ← Reading.globals {} (← words Switch.global ts)
  let (r, action) ← match rest with
    | [] => pure (r, some Action.repl)
    | name :: rest =>
      match Verb.ofName? name with
      | none => throw Refusal.misuse
      | some verb => do
        let r ← Reading.locals verb false r (← words (Switch.ofVerb verb) rest)
        pure (r, r.action? verb)
  match action with
  | some action =>
    if r.hasSurplus then throw Refusal.misuse else pure ⟨r.config, r.isVerbose, action⟩
  | none => throw Refusal.misuse

def ofArguments (ts : List Text) : Except Refusal Request := ofWords (withVerb ts)

end Request

end ScriptLang
