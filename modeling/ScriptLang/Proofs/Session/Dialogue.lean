import ScriptLang.Proofs.Session.Entry

/-!
# What a prompt does with its lines

A dialogue is planned from its text alone: what is asked for each line, which lines make up
an entry, and which entries are run (`Dialogue.plan`). Carrying a plan out runs the entries
one after the other as sources of their own, in one scope (`Dialogue.carryOut`), and nothing
else touches the world. A prompt does just that (`Prompt.converse_eq`).

So the course of a session at a prompt has two parts that do not depend on each other. No
value and no output decides where an entry ends, and no line that is still pending has been
run in part.
-/

namespace ScriptLang

open CodePoint

/-- A fault that further lines may mend: the end of the text inside of a construct, or of a
block comment. -/
def Fault.Mendable (f : Fault) : Prop := f.cause.code = "E102" ∨ f.cause.code = "E004"

instance (f : Fault) : Decidable f.Mendable :=
  inferInstanceAs (Decidable (f.cause.code = "E102" ∨ f.cause.code = "E004"))

namespace Dialogue

/-- What is done with a line, or with what comes instead of one. -/
inductive Move where
  | pass
  /-- The line is kept behind those that are pending. -/
  | keep
  /-- What is pending is dropped. -/
  | drop
  | run (entry : Text)
  /-- The dialogue ends, and what is pending is not run. -/
  | leave
deriving DecidableEq

/-- Whether an entry may be the beginning of a program: its fault is that it ends inside of a
construct or of a block comment. -/
def unfinished (entry : Text) : Bool :=
  (Program.fault? (some Prompt.sourceName) entry).any fun fault => fault.Mendable

/-- The entry that pending lines and one more make up. -/
def entry (pending : List Text) (line : Text) : Text :=
  Text.joinWith [lineFeed] (pending ++ [line])

/-- What is done with a line while others are pending, the earliest first. A blank line runs
what is pending, finished or not. -/
def move (pending : List Text) : LineRead → Move
  | .endOfInput => .leave
  | .interrupted => .drop
  | .line t =>
    if t.isBlank then if pending = [] then .pass else .run (entry pending t)
    else if unfinished (entry pending t) then .keep
    else .run (entry pending t)

/-- The lines that are pending after one more. -/
def pendingAfter (pending : List Text) : LineRead → List Text
  | .line t => if move pending (.line t) = .keep then pending ++ [t] else []
  | _ => []

/-- A line of a plan. -/
structure Cue where
  /-- Whether lines are pending when it is asked for. -/
  continued : Bool
  /-- What is done with it. -/
  move : Move

/-- What is asked and what is done while lines are read. -/
def plan (pending : List Text) : List LineRead → List Cue
  | [] => []
  | read :: rest => ⟨!pending.isEmpty, move pending read⟩ :: plan (pendingAfter pending read) rest

theorem move_eq_run {pending : List Text} {read : LineRead} {e : Text}
    (h : move pending read = .run e) : ∃ t, read = .line t ∧ e = entry pending t := by
  cases read with
  | endOfInput => cases h
  | interrupted => cases h
  | line t =>
    dsimp only [move] at h
    split at h <;> split at h <;> cases h <;> exact ⟨t, rfl, rfl⟩

theorem pendingAfter_cases (pending : List Text) (read : LineRead) :
    pendingAfter pending read = [] ∨
      ∃ t, read = .line t ∧ pendingAfter pending read = pending ++ [t] := by
  cases read with
  | endOfInput => exact .inl rfl
  | interrupted => exact .inl rfl
  | line t =>
    unfold pendingAfter
    dsimp only
    split
    · exact .inr ⟨t, rfl, rfl⟩
    · exact .inl rfl

/-- An entry is made up of lines that were read one after the other, with nothing else between
them. Those that are pending were read `before` the rest. -/
theorem consecutive_of_run (before : List LineRead) (pending : List Text) (reads : List LineRead)
    {cue : Cue} {e : Text} (hcue : cue ∈ plan pending reads) (h : cue.move = .run e) :
    ∃ earlier lines later,
      before ++ pending.map .line ++ reads = earlier ++ lines.map .line ++ later ∧
        e = Text.joinWith [lineFeed] lines := by
  induction reads generalizing before pending with
  | nil => cases hcue
  | cons read rest ih =>
    rcases List.mem_cons.1 hcue with rfl | hcue
    · obtain ⟨t, rfl, rfl⟩ := move_eq_run h
      exact ⟨before, pending ++ [t], rest, by simp, rfl⟩
    · rcases pendingAfter_cases pending read with hpending | ⟨t, rfl, hpending⟩
      · rw [hpending] at hcue
        rw [List.append_cons]
        simpa only [List.map_nil, List.append_nil] using
          ih (before ++ pending.map .line ++ [read]) [] hcue
      · rw [hpending] at hcue
        rw [List.append_cons, List.append_assoc before, ← List.map_singleton, ← List.map_append]
        exact ih before (pending ++ [t]) hcue

/-- The second line ends an entry, and the interruption drops the third. -/
example : (plan [] [.line "f(", .line "1)", .line "f(", .interrupted, .line ""]).map Cue.move =
    [.keep, .run "f(\n1)", .keep, .drop, .pass] := by
  decide +kernel

/-- What a prompt says when a run has ended. An error message is red unless the colours are off. -/
def reply (settings : Settings) : Outcome → Text
  | .finished .nothing => []
  | .finished v => v.represent ++ "\n"
  | .failed fault =>
    let message := fault.cause.label ++ ": " ++ fault.text
    if settings.color then "\x1b[31m" ++ message ++ "\x1b[0m\n" else message ++ "\n"
  | .interrupted => "\nKeyboardInterrupt\n"
  | _ => []

/-- The end of the dialogue that the end of a run brings. -/
def ending? : Outcome → Option SessionEnd
  | .exited code _ => some (.exited code)
  | _ => none

/-- What a move comes to. -/
structure Effect where
  output : Text
  /-- What the prompt itself has written. -/
  reply : Text
  /-- The world after the move. -/
  world : World
  /-- How the dialogue ends, if it does. -/
  ending : Option SessionEnd

/-- Make a move. Only an entry that is run changes the world, as a source of its own does. -/
def perform (settings : Settings) (scope : ScopeId) (w : World) : Move → Effect
  | .pass => ⟨[], [], w, none⟩
  | .keep => ⟨[], [], w, none⟩
  | .drop => ⟨[], "\nKeyboardInterrupt\n", w, none⟩
  | .leave => ⟨[], "\n", w, some .returned⟩
  | .run entry =>
    let run := Program.run settings.limits (some Prompt.sourceName) entry scope w
    ⟨run.world.console.output, reply settings run.outcome,
      { run.world with console := run.world.console.clear }, ending? run.outcome⟩

/-- What a dialogue has come to. -/
structure Course where
  shown : List Shown
  world : World
  /-- How the dialogue has ended, if it has. -/
  ending : Option SessionEnd

/-- Carry out a plan, as far as the dialogue does not end before. -/
def carryOut (settings : Settings) (scope : ScopeId) (w : World) : List Cue → Course
  | [] => ⟨[], w, none⟩
  | cue :: rest =>
    let question := if cue.continued then settings.continuationPrompt else settings.prompt
    let e := perform settings scope w cue.move
    let shown := [.question question, .output e.output, .reply e.reply]
    match e.ending with
    | some ending => ⟨shown, e.world, some ending⟩
    | none =>
      let course := carryOut settings scope e.world rest
      { course with shown := shown ++ course.shown }

/-- What is shown and how it ends when a dialogue goes on, if it does. -/
def Course.followedBy (course : Course) (rest : List Shown × SessionEnd) :
    List Shown × SessionEnd :=
  match course.ending with
  | some ending => (course.shown, ending)
  | none => (course.shown ++ rest.1, rest.2)

theorem Course.followedBy_behind (shown : List Shown) (course : Course)
    (rest : List Shown × SessionEnd) :
    Course.followedBy { course with shown := shown ++ course.shown } rest =
      (shown ++ (course.followedBy rest).1, (course.followedBy rest).2) := by
  unfold followedBy
  cases course.ending <;> simp

theorem perform_run {settings : Settings} {scope : ScopeId} {w w' : World} {entry : Text}
    {outcome : Outcome} {notes : List Note}
    (h : Program.run settings.limits (some Prompt.sourceName) entry scope w =
      ⟨outcome, w', notes⟩) :
    perform settings scope w (.run entry) =
      ⟨w'.console.output, reply settings outcome, { w' with console := w'.console.clear },
        ending? outcome⟩ := by
  dsimp only [perform]
  rw [h]

end Dialogue

namespace Prompt

open Dialogue

/-- A prompt at which lines are pending, the earliest first. -/
def holding (settings : Settings) (scope : ScopeId) (w : World) (pending : List Text) : Prompt :=
  ⟨settings, scope, w, pending.reverse⟩

variable {source : Text}

/-! ### Entries -/

theorem unfinished_of_read {notes : List Note} {fault : Fault}
    (h : Program.read (some sourceName) source = (notes, .error fault)) :
    unfinished source = true ↔ fault.cause.code ∈ unfinishedCodes := by
  have hfault : Program.fault? (some sourceName) source = some fault := by
    rw [Program.fault?_eq_some, h]
  rw [unfinished, hfault, Option.any_some, decide_eq_true_eq, Fault.Mendable]
  simp [unfinishedCodes]

/-- An unfinished entry is not run, unless it is forced. -/
theorem evaluate_of_unfinished (settings : Settings) (scope : ScopeId) (w : World)
    (h : unfinished source = true) :
    ∃ notes, evaluate settings scope w source false = ⟨.more, [], w, notes⟩ := by
  cases hread : Program.read (some sourceName) source with
  | mk notes result =>
    cases result with
    | error fault =>
      have hcode := (unfinished_of_read hread).1 h
      exact ⟨notes, by simp [evaluate, hread, hcode]⟩
    | ok block =>
      rw [unfinished, Program.fault?, hread] at h
      cases h

/-- Any other entry is run as a source of its own. -/
theorem evaluate_eq_run (settings : Settings) (scope : ScopeId) (w : World) {force : Bool}
    (h : force = true ∨ unfinished source = false) :
    ∃ outcome w' runNotes notes,
      Program.run settings.limits (some sourceName) source scope w = ⟨outcome, w', runNotes⟩ ∧
      evaluate settings scope w source force =
        ⟨(conclude settings outcome).1, (conclude settings outcome).2, w', notes⟩ := by
  cases hread : Program.read (some sourceName) source with
  | mk notes result =>
    cases result with
    | error fault =>
      have hcode : fault.cause.code ∈ unfinishedCodes → force = true := by
        rw [← unfinished_of_read hread]
        intro hunfinished
        rcases h with h | h
        · exact h
        · rw [h] at hunfinished
          cases hunfinished
      refine ⟨_, _, _, notes, by rw [Program.run, hread], ?_⟩
      simpa [evaluate, hread, conclude] using hcode
    | ok block =>
      let ending := Program.execute settings.limits block source.lines scope w
      refine ⟨ending.outcome, ending.world, _, notes ++ ending.notes,
        by rw [Program.run, hread], ?_⟩
      rw [evaluate, hread]

/-! ### Lines -/

/-- A turn of a prompt comes to what a move comes to, and leaves lines pending, the earliest
first. -/
structure Answers (p : Prompt) (t : Turn) (e : Effect) (pending : List Text) : Prop where
  reply : t.reply = e.reply
  ending : t.ending = e.ending
  output : t.prompt.drain.1 = e.output
  prompt : e.ending = none → t.prompt.drain.2 = holding p.settings p.scope e.world pending

variable {p : Prompt}

theorem drain_of_silent (h : p.world.console.written = []) : p.drain = ([], p) := by
  obtain ⟨settings, scope, ⟨store, ⟨input, written⟩⟩, pending⟩ := p
  cases h
  rfl

/-- If no program has written anything, then the world is not touched. -/
theorem Answers.silent {t : Turn} {e : Effect} {pending : List Text}
    (hw : t.prompt.world.console.written = []) (hreply : t.reply = e.reply)
    (hending : t.ending = e.ending) (houtput : e.output = [])
    (hprompt : e.ending = none → t.prompt = holding p.settings p.scope e.world pending) :
    Answers p t e pending where
  reply := hreply
  ending := hending
  output := by rw [drain_of_silent hw, houtput]
  prompt h := by rw [drain_of_silent hw, hprompt h]

/-- What the prompt does once the entry that a line completes has been looked at. -/
theorem take_eq (p : Prompt) (line : Text) {a : Answer}
    (ha : evaluate p.settings p.scope p.world (entry p.pending.reverse line)
      (!p.pending.isEmpty && line.isBlank) = a) :
    p.take line = match a.result with
      | .done => ⟨a.reply, { p with world := a.world, pending := [] }, none, a.notes⟩
      | .more => ⟨a.reply, { p with world := a.world, pending := line :: p.pending }, none, a.notes⟩
      | .exited code =>
        ⟨a.reply, { p with world := a.world, pending := [] }, some (.exited code), a.notes⟩
      | .interrupted =>
        ⟨interruptionReply, { p with world := a.world, pending := [] }, none, a.notes⟩ := by
  rw [entry] at ha
  obtain ⟨result, reply, w, notes⟩ := a
  cases result <;> simp only [take, List.reverse_cons, ha]

theorem take_answers_keep {line : Text} (hw : p.world.console.written = [])
    (hforce : (!p.pending.isEmpty && line.isBlank) = false)
    (h : unfinished (entry p.pending.reverse line) = true) :
    Answers p (p.take line) (perform p.settings p.scope p.world .keep)
      (p.pending.reverse ++ [line]) := by
  obtain ⟨notes, heval⟩ := evaluate_of_unfinished p.settings p.scope p.world h
  rw [← hforce] at heval
  rw [take_eq p line heval]
  exact .silent hw rfl rfl rfl fun _ => by simp [perform, holding]

theorem take_answers_run {line : Text}
    (h : (!p.pending.isEmpty && line.isBlank) = true ∨
      unfinished (entry p.pending.reverse line) = false) :
    Answers p (p.take line)
      (perform p.settings p.scope p.world (.run (entry p.pending.reverse line))) [] := by
  obtain ⟨outcome, w, runNotes, notes, hrun, heval⟩ := evaluate_eq_run p.settings p.scope p.world h
  rw [take_eq p line heval, perform_run hrun]
  cases outcome with
  | finished v => cases v <;> exact ⟨rfl, rfl, rfl, fun _ => rfl⟩
  | exited code span => exact ⟨rfl, rfl, rfl, nofun⟩
  | _ => exact ⟨rfl, rfl, rfl, fun _ => rfl⟩

theorem turn_answers (hw : p.world.console.written = []) (read : LineRead) :
    Answers p (p.turn read) (perform p.settings p.scope p.world (move p.pending.reverse read))
      (pendingAfter p.pending.reverse read) := by
  cases read with
  | endOfInput =>
    refine .silent hw rfl rfl rfl fun h => ?_
    cases h
  | interrupted => exact .silent hw rfl rfl rfl fun _ => rfl
  | line t =>
    by_cases hpass : (p.pending.isEmpty && t.isBlank) = true
    · -- a blank line, and nothing to run
      obtain ⟨settings, scope, w, pending⟩ := p
      obtain ⟨hempty, hblank⟩ := Bool.and_eq_true_iff.1 hpass
      cases List.isEmpty_iff.1 hempty
      simp only [turn, move, pendingAfter, hblank]
      exact .silent hw rfl rfl rfl fun _ => rfl
    · have hturn : p.turn (.line t) = p.take t := if_neg hpass
      rw [hturn]
      cases hforce : !p.pending.isEmpty && t.isBlank with
      | true =>
        have hmove : move p.pending.reverse (.line t) = .run (entry p.pending.reverse t) := by
          simp_all [move]
        rw [pendingAfter, hmove, if_neg (by simp)]
        exact take_answers_run (.inl hforce)
      | false =>
        have hblank : t.isBlank = false := by
          cases hempty : p.pending.isEmpty <;> simp_all
        cases hunfinished : unfinished (entry p.pending.reverse t) with
        | true =>
          have hmove : move p.pending.reverse (.line t) = .keep := by
            simp [move, hblank, hunfinished]
          rw [pendingAfter, hmove, if_pos rfl]
          exact take_answers_keep hw hforce hunfinished
        | false =>
          have hmove : move p.pending.reverse (.line t) = .run (entry p.pending.reverse t) := by
            simp [move, hblank, hunfinished]
          rw [pendingAfter, hmove, if_neg (by simp)]
          exact take_answers_run (.inr hunfinished)

/-! ### Sessions -/

/-- The course of a dialogue in which a line comes first. -/
theorem converse_cons (p : Prompt) (read : LineRead) (rest : List LineRead) :
    p.converse (read :: rest) =
      match (p.turn read).ending with
      | some ending =>
        ([.question p.question, .output (p.turn read).prompt.drain.1, .reply (p.turn read).reply],
          ending)
      | none =>
        ([.question p.question, .output (p.turn read).prompt.drain.1,
            .reply (p.turn read).reply] ++ ((p.turn read).prompt.drain.2.converse rest).1,
          ((p.turn read).prompt.drain.2.converse rest).2) :=
  rfl

variable {settings : Settings} {scope : ScopeId} {w : World} {pending : List Text}

theorem pending_holding : (holding settings scope w pending).pending.reverse = pending :=
  List.reverse_reverse pending

theorem question_holding :
    (holding settings scope w pending).question =
      if !pending.isEmpty then settings.continuationPrompt else settings.prompt := by
  rw [question, ← List.isEmpty_reverse, pending_holding]
  cases pending.isEmpty <;> rfl

/-- A prompt carries out the plan of its lines, and goes on with those behind them. -/
theorem converse_holding (hw : w.console.written = []) (pending : List Text)
    (reads more : List LineRead) :
    (holding settings scope w pending).converse (reads ++ more) =
      (carryOut settings scope w (plan pending reads)).followedBy
        ((holding settings scope (carryOut settings scope w (plan pending reads)).world
          (reads.foldl pendingAfter pending)).converse more) := by
  induction reads generalizing w pending with
  | nil => rfl
  | cons read rest ih =>
    have ha := turn_answers (p := holding settings scope w pending) hw read
    rw [pending_holding] at ha
    have hsettings : (holding settings scope w pending).settings = settings := rfl
    have hscope : (holding settings scope w pending).scope = scope := rfl
    have hworld : (holding settings scope w pending).world = w := rfl
    rw [hsettings, hscope, hworld] at ha
    rw [List.cons_append, converse_cons, question_holding, ha.ending, ha.output, ha.reply, plan,
      List.foldl_cons, carryOut]
    generalize perform settings scope w (move pending read) = e at ha
    cases hending : e.ending with
    | some ending => rfl
    | none =>
      have hsilent : e.world.console.written = [] := congrArg (·.world.console.written)
        (ha.prompt hending).symm
      rw [ha.prompt hending, hsettings, hscope]
      dsimp only
      rw [ih hsilent, Course.followedBy_behind]

/-- What a prompt does with its lines is planned from them alone, and the entries of the plan
are run one after the other, each as a source of its own. This holds up to any line, so after
it the world and the pending lines are those that the plan has come to. An entry is made up of
consecutive lines. When the input ends, whatever is pending is not run. -/
theorem converse_eq (settings : Settings) (input : Text) (reads : List LineRead) :
    let p := start settings (World.ofInput input)
    let course := carryOut settings p.scope p.world (plan [] reads)
    let pending := reads.foldl pendingAfter []
    (∀ more, p.converse (reads ++ more) =
        course.followedBy ((holding settings p.scope course.world pending).converse more)) ∧
      p.converse reads = course.followedBy
        ([.question (if !pending.isEmpty then settings.continuationPrompt else settings.prompt),
          .reply "\n"], .returned) ∧
      ∀ cue ∈ plan [] reads, ∀ e, cue.move = .run e →
        ∃ earlier lines later, reads = earlier ++ lines.map .line ++ later ∧
          e = Text.joinWith [lineFeed] lines := by
  intro p course pending
  have hmore : ∀ more, p.converse (reads ++ more) =
      course.followedBy ((holding settings p.scope course.world pending).converse more) :=
    converse_holding rfl [] reads
  refine ⟨hmore, ?_, fun cue hcue e h => ?_⟩
  · have hend := hmore []
    rwa [List.append_nil, converse, question_holding] at hend
  · exact consecutive_of_run [] [] reads hcue h

end Prompt

end ScriptLang
