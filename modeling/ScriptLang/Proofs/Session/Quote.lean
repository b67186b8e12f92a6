import ScriptLang.Proofs.Session.Course

/-!
# The line beside an error

An error blames a place of a part that runs, and quotes a line of the entry that is being
run. The part may stand in a function of an earlier entry: `Session.blames` says in which
entries it can stand, and `Session.shows_iff` when the line quoted is one of that entry.

Positions count line feeds, while quoted lines are cut at other breaks as well. For a
source that breaks at line feeds alone the two agree (`Entry.line?_of_quoted`).
-/

namespace ScriptLang

/-! ### Two readings of a line -/

/-- All breaks of a text are line feeds. -/
def Text.BreaksAtLineFeeds (t : Text) : Prop := ∀ c ∈ t, c.isBreak → c = CodePoint.lineFeed

namespace Text

theorem linesFrom_getElem? {t : Text} (h : t.BreaksAtLineFeeds) {line l : Text} {n : Nat}
    (hl : (linesFrom false line t)[n]? = some l) :
    ∃ p ps, splitAt CodePoint.lineFeed t = p :: ps ∧
      ((line.reverse ++ p) :: ps)[n]? = some l := by
  induction t generalizing line n with
  | nil =>
    refine ⟨[], [], rfl, ?_⟩
    rw [linesFrom] at hl
    split at hl
    · cases hl
    · rwa [List.append_nil]
  | cons c t ih =>
    have ht : BreaksAtLineFeeds t := fun d hd => h d (List.mem_cons_of_mem c hd)
    rw [linesFrom, if_neg (by simp)] at hl
    rw [splitAt]
    split at hl
    · next hbreak =>
      have hc := h c List.mem_cons_self hbreak
      rw [if_pos hc]
      cases n with
      | zero => exact ⟨[], _, rfl, by simpa using hl⟩
      | succ n =>
        rw [hc, show decide (CodePoint.lineFeed = CodePoint.carriageReturn) = false by decide,
          List.getElem?_cons_succ] at hl
        obtain ⟨p, ps, hsplit, hp⟩ := ih ht hl
        exact ⟨[], _, rfl, by rw [hsplit]; exact hp⟩
    · next hbreak =>
      rw [if_neg fun hc => hbreak (by rw [hc]; decide)]
      obtain ⟨p, ps, hsplit, hp⟩ := ih ht hl
      refine ⟨c :: p, ps, by rw [hsplit], ?_⟩
      rwa [List.reverse_cons, List.append_assoc] at hp

/-- The line of a text that positions in it count, from one. -/
def numbered? (t : Text) (number : Nat) : Option Text := line? (splitAt CodePoint.lineFeed t) number

/-- A line that a text with no other breaks than line feeds has to quote is the one that
positions count. -/
theorem numbered?_of_quoted {t : Text} (h : t.BreaksAtLineFeeds) {n : Nat} {line : Text}
    (hline : line? t.lines n = some line) : t.numbered? n = some line := by
  cases n with
  | zero => cases hline
  | succ n =>
    obtain ⟨p, ps, hsplit, hp⟩ := linesFrom_getElem? h hline
    rw [numbered?, line?_succ, hsplit]
    exact hp

end Text

/-- The line of an entry that positions in it count, from one. -/
def Entry.line? (e : Entry) (number : Nat) : Option Text :=
  Text.line? (Text.splitAt CodePoint.lineFeed e.source) number

theorem Entry.line?_of_quoted {e : Entry} (h : e.source.BreaksAtLineFeeds) {n : Nat}
    {line : Text} (hline : Text.line? e.source.lines n = some line) : e.line? n = some line :=
  Text.numbered?_of_quoted h hline

/-- A fault that quotes a line quotes the one of an entry in which it begins. -/
def Entry.Shows (e : Entry) (fault : Fault) : Prop :=
  ∀ line, fault.quoted = some line → e.line? fault.span.start.line = some line

/-! ### Where errors stand -/

/-- Parts, and any integers. -/
def Matter.ofParts (U : Part → Prop) : Matter := ⟨U, fun _ => True⟩

theorem Matter.ofParts_closed (U : Part → Prop) : (Matter.ofParts U).Closed :=
  ⟨fun _ _ _ => trivial, fun _ _ => trivial, fun _ _ _ _ => trivial⟩

theorem Store.madeOf_ofParts {U : Part → Prop} {σ : Store}
    (h : ∀ v, σ.Holds v → Within U v.parts) : σ.MadeOf (.ofParts U) :=
  ⟨fun v hv => Value.madeOf_of_parts (h v hv) fun _ => trivial,
    fun i _ => i.madeOf_of_number fun _ => trivial⟩

open Machine

/-- The fault of a program that is run and fails: an error of the machine or a lack of room
on the stack, with a line quoted. -/
theorem Program.execute_failed {limits : Limits} {program : Block} {lines : List Text}
    {root : ScopeId} {w : World} {fault : Fault}
    (h : (execute limits program lines root w).outcome = .failed fault) :
    ∃ f : Fault, fault = f.quoteFrom lines ∧
      ((∃ w', Ends limits (Machine.load program root w) (.failed f) w') ∨
        f = Fault.ofRuntime .evaluationTooDeep program.span) := by
  cases hrun : Machine.run limits ample (Machine.load program root w) with
  | mk outcome w' =>
    have hsettle : settle program lines outcome = .failed fault := by
      rw [execute, hrun] at h
      exact h
    cases outcome with
    | failed f =>
      cases hsettle
      exact ⟨f, rfl, .inl ⟨w', ends_of_run hrun (by simp)⟩⟩
    | tooDeep =>
      cases hsettle
      exact ⟨_, rfl, .inr rfl⟩
    | _ => cases hsettle

theorem Fault.quoteFrom_of_unquoted {f : Fault} (h : f.quoted = none) (lines : List Text) :
    (f.quoteFrom lines).quoted = Text.line? lines f.span.start.line := by
  rw [quoteFrom, h]
  rfl

/-- A part that runs when an entry is run: one of its own, or one of a function that the
scope holds and an earlier entry brought. -/
def Entry.Runs (e : Entry) (es : List Entry) (w : World) (p : Part) : Prop :=
  p ∈ e.block.parts ∨
    ∃ d ∈ es, p ∈ d.block.parts ∧ ∃ v, w.store.Holds v ∧ p ∈ v.parts

namespace Session

variable {P : Config → Prop} {root : ScopeId} {w₀ w : World} {es : List Entry} {e : Entry}
  {limits : Limits} {fault : Fault}

/-- A session that starts without functions holds those of its entries only. -/
theorem holds_parts (hstart : ∀ v, w₀.store.Holds v → v.parts = [])
    (hsession : Session P root w₀ es w) {v : Value} (hv : w.store.Holds v) :
    Within (fun p => ∃ d ∈ es, p ∈ d.block.parts) v.parts := by
  have hw₀ : w₀.store.MadeOf (.ofParts fun p => ∃ d ∈ es, p ∈ d.block.parts) :=
    Store.madeOf_ofParts fun v hv => by rw [hstart v hv]; exact within_nil
  have hes : ∀ d ∈ es, Within (fun p => ∃ d ∈ es, p ∈ d.block.parts) d.block.parts :=
    fun d hd p hp => ⟨d, hd, hp⟩
  have hw := hsession.madeOf (Matter.ofParts_closed _) (fun _ _ _ _ => trivial) hes hw₀
  exact (hw.values v hv).parts

/-- An error of an entry quotes a line of this entry, and blames a part that runs, or the
whole entry for lack of room on the stack. -/
theorem blames (hstart : ∀ v, w₀.store.Holds v → v.parts = [])
    (hsession : Session P root w₀ es w)
    (hfails : (Program.execute limits e.block e.source.lines root w).outcome = .failed fault) :
    fault.quoted = Text.line? e.source.lines fault.span.start.line ∧
      (Blamed (e.Runs es w) fault.span ∨
        fault.cause.code = "E413" ∧ fault.span = e.block.span) := by
  obtain ⟨f, rfl, ⟨w', hends⟩ | rfl⟩ := Program.execute_failed hfails
  · have hload : (e.load root w).MadeOf (.ofParts (e.Runs es w)) := by
      refine load_madeOf (fun p hp => .inl hp) (Store.madeOf_ofParts fun v hv p hp => ?_)
      obtain ⟨d, hd, hp'⟩ := holds_parts hstart hsession hv p hp
      exact .inr ⟨d, hd, hp', v, hv, hp⟩
    have hf := (hends.madeOf (Matter.ofParts_closed _) hload fun _ _ _ _ => trivial).1
    exact ⟨Fault.quoteFrom_of_unquoted hf.2 _, .inl hf.1⟩
  · exact ⟨Fault.quoteFrom_of_unquoted rfl _, .inr ⟨rfl, rfl⟩⟩

/-- When the line beside an error is one of the entry in which the error stands. The error
blames a part that runs, or the whole entry. In whatever entry the part stands, the line is
one of it exactly when the entry that is run has the same line at that number, or none. So it
is for a part of the entry that is run, if this one breaks at line feeds alone. -/
theorem shows_iff (hstart : ∀ v, w₀.store.Holds v → v.parts = [])
    (hsession : Session P root w₀ es w)
    (hfails : (Program.execute limits e.block e.source.lines root w).outcome = .failed fault) :
    (Blamed (e.Runs es w) fault.span ∨
        fault.cause.code = "E413" ∧ fault.span = e.block.span) ∧
      (∀ d : Entry, d.Shows fault ↔
        ∀ line, Text.line? e.source.lines fault.span.start.line = some line →
          d.line? fault.span.start.line = some line) ∧
      (e.source.BreaksAtLineFeeds → e.Shows fault) := by
  obtain ⟨hquoted, hblamed⟩ := blames hstart hsession hfails
  have hshows : ∀ d : Entry, d.Shows fault ↔
      ∀ line, Text.line? e.source.lines fault.span.start.line = some line →
        d.line? fault.span.start.line = some line := by
    intro d
    rw [Entry.Shows, hquoted]
  exact ⟨hblamed, hshows, fun h => (hshows e).2 fun line => Entry.line?_of_quoted h⟩

/-- The first entry of a session shows its own line. -/
theorem shows_iff_first :
    ∃ (e : Entry) (fault : Fault), e.source = "1 + true" ∧
      (Program.execute ⟨10, none⟩ e.block e.source.lines (World.ofInput []).newRoot.1
        (World.ofInput []).newRoot.2).outcome = .failed fault ∧
      fault.quoted = some "1 + true" ∧ e.Shows fault := by
  have hcheck : ((Entry.read? none "1 + true").any fun e =>
      (Program.execute ⟨10, none⟩ e.block e.source.lines (World.ofInput []).newRoot.1
        (World.ofInput []).newRoot.2).outcome.fault?.any fun fault =>
          fault.quoted = some (Text.ofString "1 + true")) = true := by
    decide +kernel
  obtain ⟨e, he, hcheck⟩ := (Option.any_eq_true _ _).1 hcheck
  obtain ⟨fault, hfault, hquoted⟩ := (Option.any_eq_true _ _).1 hcheck
  have hfails := Outcome.fault?_eq_some.1 hfault
  have hsource := Entry.source_of_read? he
  have hbreaks : e.source.BreaksAtLineFeeds := by
    rw [hsource]
    unfold Text.BreaksAtLineFeeds
    decide
  have hstart : ∀ v, (World.ofInput []).newRoot.2.store.Holds v → v.parts = [] :=
    fun v hv => absurd hv (Store.not_holds_newRoot [] v)
  exact ⟨e, fault, hsource, hfails, of_decide_eq_true hquoted,
    (shows_iff hstart (.start (P := fun _ => True)) hfails).2.2 hbreaks⟩

/-- An error in a function of an earlier entry shows a line of the entry that called it. -/
theorem not_shows_earlier :
    ∃ (d e : Entry) (w : World) (fault : Fault),
      d.source = "def f(x) \x7b return x + 1 \x7d" ∧ e.source = "f(true)" ∧
      Session (fun _ => True) (World.ofInput []).newRoot.1 (World.ofInput []).newRoot.2 [d] w ∧
      (Program.execute ⟨10, none⟩ e.block e.source.lines (World.ofInput []).newRoot.1
        w).outcome = .failed fault ∧
      Blamed (· ∈ d.block.parts) fault.span ∧ ¬ Blamed (· ∈ e.block.parts) fault.span ∧
      fault.quoted = some "f(true)" ∧ ¬ d.Shows fault := by
  have hcheck : ((Entry.read? none "def f(x) \x7b return x + 1 \x7d").any fun d =>
      (Entry.read? none "f(true)").any fun e =>
        let first := Program.execute ⟨10, none⟩ d.block [] (World.ofInput []).newRoot.1
          (World.ofInput []).newRoot.2
        first.outcome.value?.isSome &&
          (Program.execute ⟨10, none⟩ e.block e.source.lines (World.ofInput []).newRoot.1
            first.world).outcome.fault?.any fun fault =>
              d.block.parts.any (fun p => fault.span ∈ p.blames) &&
                (e.block.parts.all (fun p => fault.span ∉ p.blames) &&
                  (fault.quoted = some (Text.ofString "f(true)") &&
                    d.line? fault.span.start.line = some d.source))) = true := by
    decide +kernel
  obtain ⟨d, hd, hcheck⟩ := (Option.any_eq_true _ _).1 hcheck
  obtain ⟨e, he, hcheck⟩ := (Option.any_eq_true _ _).1 hcheck
  obtain ⟨hfirst, hcheck⟩ := Bool.and_eq_true_iff.1 hcheck
  obtain ⟨fault, hfault, hcheck⟩ := (Option.any_eq_true _ _).1 hcheck
  obtain ⟨hblamed, hcheck⟩ := Bool.and_eq_true_iff.1 hcheck
  obtain ⟨hunblamed, hcheck⟩ := Bool.and_eq_true_iff.1 hcheck
  obtain ⟨hquoted, hline⟩ := Bool.and_eq_true_iff.1 hcheck
  have hquoted := of_decide_eq_true hquoted
  have hline := of_decide_eq_true hline
  obtain ⟨p, hp, hspan⟩ := List.any_eq_true.1 hblamed
  have hsource := Entry.source_of_read? hd
  refine ⟨d, e, _, fault, hsource, Entry.source_of_read? he,
    Session.execute .start (fun _ _ => trivial) ?_, Outcome.fault?_eq_some.1 hfault,
    ⟨p, hp, of_decide_eq_true hspan⟩, ?_, hquoted, ?_⟩
  · intro hout
    rw [hout] at hfirst
    cases hfirst
  · rintro ⟨q, hq, hblames⟩
    exact of_decide_eq_true (List.all_eq_true.1 hunblamed q hq) hblames
  · intro hshows
    have := hshows _ hquoted
    rw [hline, hsource] at this
    exact absurd this (by decide)

end Session

end ScriptLang
