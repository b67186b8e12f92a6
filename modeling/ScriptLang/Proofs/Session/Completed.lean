import ScriptLang.Proofs.Grammar.Depth
import ScriptLang.Proofs.Grammar.Mended
import ScriptLang.Proofs.Session.Dialogue

/-!
# Entries that a line completes

A prompt that asks for another line does not ask in vain: an entry that ends too early is made
a program by one line more (`Program.completed_by_line`). Only the limit on the nesting can be
in the way, and then the entry has come close to this limit itself: behind `def f` at the last
level there is no level left for a body.
-/

namespace ScriptLang

open CodePoint

namespace Program

variable {file : Option Text} {source : Text} {tokens : List Token} {c : Complaint}

/-- Behind tokens that end too early for the rules of some depth, one line is enough for the
rules of a depth five levels greater. -/
theorem exists_completing_line {depth : Nat} (htokens : Token.tokenize file source = .ok tokens)
    (hcounts : ∀ t ∈ tokens, ¬ t.kind.Counts) (hc : parseTokensAt depth tokens = .error c)
    (hearly : c.Early) :
    ∃ line, lineFeed ∉ line ∧ ∀ file', ∃ tokens',
      Token.tokenize file' (source ++ lineFeed :: line) = .ok tokens' ∧
        ∀ {deeper : Nat}, depth + 5 ≤ deeper → ∃ b, parseTokensAt deeper tokens' = .ok b := by
  obtain ⟨ts, finish, rfl, hcomplete⟩ := Token.exists_complete htokens
  have hplain : ∀ t ∈ ts, ¬ t.kind.Counts := fun t ht => hcounts t (List.mem_append_left _ ht)
  obtain ⟨ws, hws, hall⟩ := exists_completion hcomplete hplain hc hearly
  obtain ⟨s, line, -, hline, hscan⟩ := Token.exists_line hws
  refine ⟨s :: line, hline, fun file' => ?_⟩
  obtain ⟨us, last, hus, hcontent⟩ := hscan file' Position.start
  have hus := Token.tokenize_eq_ok.2 hus
  obtain ⟨ts', finish', hts', hbare⟩ := Token.tokenize_joined htokens hus file'
  have hbehind : (Token.brokenAll us).map Token.content = ws := by
    rw [Token.brokenAll_content, hcontent]
  have hends := (Token.complete_of_tokenize hus).ended.broken.ahead
  exact ⟨_, hts', hall _ hbehind hends (Token.complete_of_tokenize hts') hbare⟩

/-- The prompt keeps an entry whose tokens end too early. -/
theorem evaluate_of_early (htokens : Token.tokenize (some Prompt.sourceName) source = .ok tokens)
    (hparse : parseTokens tokens = .error c) (hcode : c.cause.code = "E102")
    (settings : Settings) (scope : ScopeId) (w : World) :
    (Prompt.evaluate settings scope w source false).result = .more := by
  have hread : (read (some Prompt.sourceName) source).2 = .error (c.fault source.lines) :=
    read_eq_error.2 (.inr ⟨tokens, c, htokens, hparse, rfl⟩)
  have hunfinished : Dialogue.unfinished source = true :=
    (Prompt.unfinished_of_read (Prod.ext rfl hread)).2 (by
      change c.cause.code ∈ _
      rw [hcode]
      decide)
  obtain ⟨notes, heval⟩ := Prompt.evaluate_of_unfinished settings scope w hunfinished
  rw [heval]

/-- An entry whose tokens end too early, with no sign of an increment among them, is kept by
the prompt, and with one line behind it it is a program. The line may nest too deeply, but only
if there are no five levels left behind those of the entry. -/
theorem completed_by_line (htokens : Token.tokenize file source = .ok tokens)
    (hcounts : ∀ t ∈ tokens, t.kind ≠ .sign .plusPlus ∧ t.kind ≠ .sign .minusMinus)
    (hparse : parseTokens tokens = .error c) (hcode : c.cause.code = "E102") :
    (file = some Prompt.sourceName → ∀ settings scope w,
      (Prompt.evaluate settings scope w source false).result = .more) ∧
    ∃ line, lineFeed ∉ line ∧ ∀ file',
      (∃ b, (read file' (source ++ lineFeed :: line)).2 = .ok b) ∨
      Outgrown (parseTokensAt (Grammar.maxDepth - 5) tokens) ∧
        ∃ fault, (read file' (source ++ lineFeed :: line)).2 = .error fault ∧
          fault.cause = .syntactic .nestedTooDeeply := by
  have hplain : ∀ t ∈ tokens, ¬ t.kind.Counts := fun t ht hk =>
    hk.elim (hcounts t ht).1 (hcounts t ht).2
  refine ⟨?_, ?_⟩
  · rintro rfl
    exact evaluate_of_early htokens hparse hcode
  by_cases hdeep : Outgrown (parseTokensAt (Grammar.maxDepth - 5) tokens)
  · obtain ⟨line, hline, hreads⟩ := exists_completing_line htokens hplain hparse hcode
    refine ⟨line, hline, fun file' => ?_⟩
    obtain ⟨tokens', htokens', hall⟩ := hreads file'
    obtain ⟨b, hb⟩ := hall (Nat.le_refl _)
    rcases parseTokensAt_approximates (Nat.le_add_right Grammar.maxDepth 5) tokens' with
      ⟨c', hc', hcause⟩ | heq
    · refine .inr ⟨hdeep, _, read_eq_error.2 (.inr ⟨_, _, htokens', hc', rfl⟩), ?_⟩
      exact congrArg Cause.syntactic hcause
    · exact .inl ⟨b, read_eq_ok.2 ⟨_, htokens', heq.trans hb⟩⟩
  · have hshallow : parseTokensAt (Grammar.maxDepth - 5) tokens = .error c :=
      ((parseTokensAt_approximates (Nat.sub_le _ _) _).resolve_left hdeep).trans hparse
    obtain ⟨line, hline, hreads⟩ := exists_completing_line htokens hplain hshallow hcode
    refine ⟨line, hline, fun file' => ?_⟩
    obtain ⟨tokens', htokens', hall⟩ := hreads file'
    have hdeeper : Grammar.maxDepth - 5 + 5 ≤ Grammar.maxDepth := by decide
    obtain ⟨b, hb⟩ := hall hdeeper
    exact .inl ⟨b, read_eq_ok.2 ⟨_, htokens', hb⟩⟩

/-- An entry that ends in a declaration, in the body of a function, in an argument, in a
condition. -/
theorem completed_by_line_nested :
    ∃ tokens c,
      Token.tokenize (some Prompt.sourceName) "if f(|x| \x7b let y" = .ok tokens ∧
      (∀ t ∈ tokens, t.kind ≠ .sign .plusPlus ∧ t.kind ≠ .sign .minusMinus) ∧
      parseTokens tokens = .error c ∧ c.cause.code = "E102" ∧
      (some Prompt.sourceName = some Prompt.sourceName → ∀ settings scope w,
        (Prompt.evaluate settings scope w "if f(|x| \x7b let y" false).result = .more) ∧
      ∃ line, lineFeed ∉ line ∧ ∀ file',
        (∃ b, (read file' ("if f(|x| \x7b let y" ++ lineFeed :: line)).2 = .ok b) ∨
        Outgrown (parseTokensAt (Grammar.maxDepth - 5) tokens) ∧
          ∃ fault, (read file' ("if f(|x| \x7b let y" ++ lineFeed :: line)).2 = .error fault ∧
            fault.cause = .syntactic .nestedTooDeeply := by
  have hcheck : ((Token.tokenize (some Prompt.sourceName) "if f(|x| \x7b let y").toOption.any
      fun tokens =>
        tokens.all (fun t => t.kind ≠ .sign .plusPlus ∧ t.kind ≠ .sign .minusMinus) &&
        match parseTokens tokens with
        | .ok _ => false
        | .error c => c.cause.code = "E102") = true := by
    decide +kernel
  obtain ⟨tokens, htokens, hcheck⟩ := exists_ok_of_any hcheck
  obtain ⟨hcounts, hcheck⟩ := Bool.and_eq_true_iff.1 hcheck
  have hcounts : ∀ t ∈ tokens, t.kind ≠ .sign .plusPlus ∧ t.kind ≠ .sign .minusMinus :=
    fun t ht => of_decide_eq_true (List.all_eq_true.1 hcounts t ht)
  cases hparse : parseTokens tokens with
  | ok b => rw [hparse] at hcheck; cases hcheck
  | error c =>
    rw [hparse] at hcheck
    have hcode : c.cause.code = "E102" := of_decide_eq_true hcheck
    exact ⟨tokens, c, htokens, hcounts, hparse, hcode,
      completed_by_line htokens hcounts hparse hcode⟩

end Program

end ScriptLang
