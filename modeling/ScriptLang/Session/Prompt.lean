import ScriptLang.Session.Program
import ScriptLang.Settings.Basic
import ScriptLang.Value.Text

/-!
# The prompt

A prompt asks for lines and runs the entries they make up, all in one scope. An
entry that ends too early, in the middle of a construct or of a block comment, is
kept, and the next line is asked for with another question; a blank line ends it
by force. An interruption drops what is kept.

`Prompt.evaluate` answers one entry, `Prompt.turn` one line, and `Prompt.converse`
a whole list of lines, after which the input has come to its end.
`Prompt.converseOnConsole` takes the lines from the same input that programs read.
-/

namespace ScriptLang

inductive EntryEnd where
  | done
  | more
  | exited (code : Int)
  | interrupted
deriving DecidableEq

structure Answer where
  result : EntryEnd
  reply : Text
  world : World
  notes : List Note

structure Prompt where
  settings : Settings
  scope : ScopeId
  world : World
  /-- The lines of the unfinished entry, latest first. -/
  pending : List Text

inductive SessionEnd where
  | returned
  | exited (code : Int)

inductive Shown where
  | question (t : Text)
  | reply (t : Text)
  | output (t : Text)

namespace Prompt

def sourceName : Text := "<stdin>"

/-- The codes of faults that more input may mend. -/
def unfinishedCodes : List Text := ["E102", "E004"]

def start (settings : Settings) (w : World) : Prompt :=
  let (scope, w) := w.newRoot
  ⟨settings, scope, w, []⟩

def report (settings : Settings) (f : Fault) : Text :=
  if settings.color then "\x1b[31m" ++ f.report ++ "\x1b[0m\n" else f.report ++ "\n"

def echo : Value → Text
  | .nothing => []
  | v => v.represent ++ "\n"

def interruptionReply : Text := "\nKeyboardInterrupt\n"

def conclude (settings : Settings) : Outcome → EntryEnd × Text
  | .finished v => (.done, echo v)
  | .failed f => (.done, report settings f)
  | .exited code _ => (.exited code, [])
  | .interrupted => (.interrupted, [])
  | _ => (.done, [])

/-- Answer an entry; by force, even if it is unfinished. -/
def evaluate (settings : Settings) (scope : ScopeId) (w : World) (entry : Text) (force : Bool) :
    Answer :=
  match Program.read (some sourceName) entry with
  | (notes, .error fault) =>
    if fault.cause.code ∈ unfinishedCodes && !force then ⟨.more, [], w, notes⟩
    else ⟨.done, report settings (fault.quoteFrom entry.lines), w, notes⟩
  | (notes, .ok block) =>
    let ending := Program.execute settings.limits block entry.lines scope w
    let (result, reply) := conclude settings ending.outcome
    ⟨result, reply, ending.world, notes ++ ending.notes⟩

def question (p : Prompt) : Text :=
  if p.pending.isEmpty then p.settings.prompt else p.settings.continuationPrompt

structure Turn where
  reply : Text
  prompt : Prompt
  ending : Option SessionEnd
  notes : List Note

/-- Run the entry that a line completes, or keep it. -/
def take (p : Prompt) (line : Text) : Turn :=
  let pending := line :: p.pending
  let entry := Text.joinWith [CodePoint.lineFeed] pending.reverse
  let force := !p.pending.isEmpty && line.isBlank
  let a := evaluate p.settings p.scope p.world entry force
  match a.result with
  | .done => ⟨a.reply, { p with world := a.world, pending := [] }, none, a.notes⟩
  | .more => ⟨a.reply, { p with world := a.world, pending := pending }, none, a.notes⟩
  | .exited code =>
    ⟨a.reply, { p with world := a.world, pending := [] }, some (.exited code), a.notes⟩
  | .interrupted =>
    ⟨interruptionReply, { p with world := a.world, pending := [] }, none, a.notes⟩

def turn (p : Prompt) (read : LineRead) : Turn :=
  match read with
  | .endOfInput => ⟨"\n", p, some .returned, []⟩
  | .interrupted => ⟨interruptionReply, { p with pending := [] }, none, []⟩
  | .line t => if p.pending.isEmpty && t.isBlank then ⟨[], p, none, []⟩ else p.take t

/-- What programs have written, which is taken from the console. -/
def drain (p : Prompt) : Text × Prompt :=
  (p.world.console.output,
    { p with world := { p.world with console := p.world.console.clear } })

def converse (p : Prompt) : List LineRead → List Shown × SessionEnd
  | [] => ([.question p.question, .reply (p.turn .endOfInput).reply], .returned)
  | read :: rest =>
    let t := p.turn read
    let (output, next) := t.prompt.drain
    let shown := [.question p.question, .output output, .reply t.reply]
    match t.ending with
    | some ending => (shown, ending)
    | none =>
      let (more, ending) := next.converse rest
      (shown ++ more, ending)

def write (p : Prompt) (t : Text) : Prompt :=
  { p with world := { p.world with console := p.world.console.write t } }

def turnsOnConsole : Nat → Prompt → List Note → World × SessionEnd × List Note
  | 0, p, notes => (p.world, .returned, notes)
  | n + 1, p, notes =>
    let (read, console) := (p.world.console.write p.question).readLine
    let t := turn { p with world := { p.world with console := console } } read
    let p := t.prompt.write t.reply
    let notes := notes ++ t.notes
    match t.ending with
    | some ending => (p.world, ending, notes)
    | none => turnsOnConsole n p notes

/-- A session whose lines come from standard input. Each turn reads a line, so
there are no more turns than code points of input, and one more. -/
def converseOnConsole (p : Prompt) : World × SessionEnd × List Note :=
  turnsOnConsole (p.world.console.pending.length + 1) p [.prompting]

end Prompt

end ScriptLang
