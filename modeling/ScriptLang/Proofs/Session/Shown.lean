import ScriptLang.Proofs.Grammar.Aim
import ScriptLang.Proofs.Session.Quote

/-!
# The line beside the error of a source

A source that is run in a new scope and fails quotes a line of its own. `Program.run_shows`
says which: the one in which the error begins, unless an assignment or an increment is refused
its target. Then it is the line of a token beside the target, the bracket or sign with which
the reading began, and the target may stand on another line
(`Program.not_shows_bracketed`).
-/

namespace ScriptLang

open CodePoint

/-- A fault that quotes a line quotes the one of the source in which it begins. -/
def Fault.Shows (f : Fault) (source : Text) : Prop :=
  ∀ line, f.quoted = some line → source.numbered? f.span.start.line = some line

namespace Program

variable {limits : Limits} {file : Option Text} {source input : Text} {fault f : Fault}

/-- A source that is no program fails with what keeps it from being one. -/
theorem run_of_unread (h : (read file source).2 = .error f) (scope : ScopeId) (w : World) :
    (run limits file source scope w).outcome = .failed (f.quoteFrom source.lines) := by
  unfold run
  cases hread : read file source with
  | mk notes result =>
    rw [hread] at h
    cases h
    rfl

theorem quoteFrom_shows (hbreaks : source.BreaksAtLineFeeds) (h : f.quoted = none) :
    (f.quoteFrom source.lines).Shows source := by
  intro line hline
  rw [Fault.quoteFrom_of_unquoted h] at hline
  exact Text.numbered?_of_quoted hbreaks hline

/-- A text that cannot be cut into words quotes the line in which the error begins. -/
theorem shows_of_unscanned (hbreaks : source.BreaksAtLineFeeds)
    (h : Token.tokenize file source = .error f) : (f.quoteFrom source.lines).Shows source := by
  obtain ⟨g, hg, rfl⟩ := Token.tokenize_eq_error.1 h
  obtain ⟨m, p, t, rfl⟩ := Token.scanFrom_misread hg
  have htwice : ∀ g : Fault, (g.quoteFrom source.lines).quoteFrom source.lines =
      g.quoteFrom source.lines := by
    intro g
    cases hq : (g.quoteFrom source.lines).quoted with
    | none =>
      have hnone : g.quoted = none := by
        cases hg : g.quoted with
        | none => rfl
        | some line => rw [Fault.quoteFrom_of_quoted hg, hg] at hq; cases hq
      rw [Fault.quoteFrom_of_unquoted hnone] at hq
      simp [Fault.quoteFrom, hnone, hq]
    | some line => exact Fault.quoteFrom_of_quoted hq _
  rw [htwice]
  exact quoteFrom_shows hbreaks rfl

/-- A text whose words are no program quotes the line in which the error begins. If a target
is refused, it may be the line of a token beside the target instead. -/
theorem shows_of_unparsed {tokens : List Token} {c : Complaint}
    (hbreaks : source.BreaksAtLineFeeds) (htokens : Token.tokenize file source = .ok tokens)
    (h : parseTokens tokens = .error c) :
    ((c.fault source.lines).quoteFrom source.lines).Shows source ∨
      c.cause = .invalidTarget ∧ ∃ start, Beside tokens start c.span.start ∧
        ((c.fault source.lines).quoteFrom source.lines).quoted =
          source.numbered? start.span.start.line := by
  cases hquoted : (c.fault source.lines).quoted with
  | none => exact .inl (quoteFrom_shows hbreaks hquoted)
  | some line =>
    rw [Fault.quoteFrom_of_quoted hquoted]
    obtain ⟨n, hn, hline⟩ := Option.bind_eq_some_iff.1 hquoted
    have hline := Text.numbered?_of_quoted hbreaks hline
    rcases parseTokensAt_aimed (Token.tokenize_ended htokens) h with hown | ⟨hcause, start, hbeside,
      hstart⟩
    · refine .inl fun line' hline' => ?_
      cases hquoted.symm.trans hline'
      rwa [hown n hn] at hline
    · cases hn.symm.trans hstart
      exact .inr ⟨hcause, start, hbeside, hquoted.trans hline.symm⟩

/-- A source that breaks at line feeds alone, is run in a new scope and fails quotes the line
in which the error begins, or none. If the error is a refused target, it may quote the line of
a token beside the target instead: the one with which the reading of the target began. -/
theorem run_shows (hbreaks : source.BreaksAtLineFeeds)
    (hfails : (run limits file source (World.ofInput input).newRoot.1
      (World.ofInput input).newRoot.2).outcome = .failed fault) :
    fault.Shows source ∨ fault.cause = .syntactic .invalidTarget ∧
      ∃ tokens start, Token.tokenize file source = .ok tokens ∧
        Beside tokens start fault.span.start ∧
        fault.quoted = source.numbered? start.span.start.line := by
  cases hread : (read file source).2 with
  | error f =>
    cases (run_of_unread hread _ _).symm.trans hfails
    rcases read_eq_error.1 hread with hscan | ⟨tokens, c, htokens, hparse, rfl⟩
    · exact .inl (shows_of_unscanned hbreaks hscan)
    · refine (shows_of_unparsed hbreaks htokens hparse).imp_right ?_
      rintro ⟨hcause, start, hbeside, hquoted⟩
      exact ⟨congrArg Cause.syntactic hcause, tokens, start, htokens, hbeside, hquoted⟩
  | ok block =>
    have hstart : ∀ v, (World.ofInput input).newRoot.2.store.Holds v → v.parts = [] :=
      fun v hv => absurd hv (Store.not_holds_newRoot input v)
    rw [(run_of_read hread _ _).1] at hfails
    exact .inl ((Session.shows_iff (e := ⟨file, source, block, hread⟩) hstart
      (.start (P := fun _ => True)) hfails).2.2 hbreaks)

/-- A run that fails in its second line quotes this line. -/
theorem run_shows_second :
    ∃ fault, (run ⟨10, none⟩ none "let a = 1\na + true" (World.ofInput []).newRoot.1
        (World.ofInput []).newRoot.2).outcome = .failed fault ∧
      fault.quoted = some "a + true" ∧
      (fault.Shows "let a = 1\na + true" ∨ fault.cause = .syntactic .invalidTarget ∧
        ∃ tokens start, Token.tokenize none "let a = 1\na + true" = .ok tokens ∧
          Beside tokens start fault.span.start ∧
          fault.quoted =
            (Text.ofString "let a = 1\na + true").numbered? start.span.start.line) := by
  have hcheck : ((run ⟨10, none⟩ none "let a = 1\na + true" (World.ofInput []).newRoot.1
      (World.ofInput []).newRoot.2).outcome.fault?.any fun fault =>
        fault.quoted = some (Text.ofString "a + true")) = true := by
    decide +kernel
  obtain ⟨fault, hfault, hquoted⟩ := (Option.any_eq_true _ _).1 hcheck
  have hfails := Outcome.fault?_eq_some.1 hfault
  have hbreaks : Text.BreaksAtLineFeeds "let a = 1\na + true" := by
    unfold Text.BreaksAtLineFeeds
    decide
  exact ⟨fault, hfails, of_decide_eq_true hquoted, run_shows hbreaks hfails⟩

/-- An assignment to a target in brackets quotes the line of the bracket. -/
theorem not_shows_bracketed :
    Text.BreaksAtLineFeeds "(\n1) = 2" ∧
      ∃ fault, (run ⟨10, none⟩ none "(\n1) = 2" (World.ofInput []).newRoot.1
          (World.ofInput []).newRoot.2).outcome = .failed fault ∧
        fault.quoted = some "(" ∧ fault.span.start.line = 2 ∧ ¬ fault.Shows "(\n1) = 2" := by
  have hcheck : ((run ⟨10, none⟩ none "(\n1) = 2" (World.ofInput []).newRoot.1
      (World.ofInput []).newRoot.2).outcome.fault?.any fun fault =>
        fault.quoted = some (Text.ofString "(") && fault.span.start.line = 2) = true := by
    decide +kernel
  obtain ⟨fault, hfault, hcheck⟩ := (Option.any_eq_true _ _).1 hcheck
  obtain ⟨hquoted, hline⟩ := Bool.and_eq_true_iff.1 hcheck
  have hquoted := of_decide_eq_true hquoted
  have hline := of_decide_eq_true hline
  refine ⟨?_, fault, Outcome.fault?_eq_some.1 hfault, hquoted, hline, fun hshows => ?_⟩
  · unfold Text.BreaksAtLineFeeds
    decide
  · have := hshows _ hquoted
    rw [hline] at this
    exact absurd this (by decide)

end Program

end ScriptLang
