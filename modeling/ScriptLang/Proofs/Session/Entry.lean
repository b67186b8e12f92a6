import ScriptLang.Session.Prompt
import ScriptLang.Proofs.Token.Joined

/-!
# Entries and the lines behind them

What the prompt makes of an entry, whose lines come one by one. An entry that is refused
at once is refused whatever lines follow (`Program.refused_for_good`), and lines behind a
complete entry are read as they are alone (`Program.read_joined`).
-/

namespace ScriptLang

open CodePoint

/-- A fault that no further lines mend: a token that the grammar does not allow, or an
assignment to what is no name. -/
def Fault.Final (f : Fault) : Prop := f.cause.code = "E101" ∨ f.cause.code = "E104"

instance (f : Fault) : Decidable f.Final :=
  inferInstanceAs (Decidable (f.cause.code = "E101" ∨ f.cause.code = "E104"))

theorem Fault.Final.not_lexical {f : Fault} (h : f.Final) (cause : LexicalCause) :
    f.cause ≠ .lexical cause := by
  intro hcause
  have hcode : cause.code ≠ "E101" ∧ cause.code ≠ "E104" := by
    cases cause <;> rw [LexicalCause.code] <;> decide
  unfold Fault.Final at h
  rw [hcause] at h
  exact h.elim hcode.1 hcode.2

theorem Fault.Final.not_unfinished {f : Fault} (h : f.Final) :
    f.cause.code ∉ Prompt.unfinishedCodes := by
  rcases h with h | h <;> rw [h] <;> decide

namespace Program

variable {file : Option Text} {source : Text}

theorem read_eq_ok {b : Block} :
    (read file source).2 = .ok b ↔
      ∃ tokens, Token.tokenize file source = .ok tokens ∧ parseTokens tokens = .ok b := by
  unfold read
  cases Token.tokenize file source with
  | error f => simp
  | ok tokens => cases hparse : parseTokens tokens <;> simp [hparse]

theorem read_eq_error {f : Fault} :
    (read file source).2 = .error f ↔
      Token.tokenize file source = .error f ∨
        ∃ tokens c, Token.tokenize file source = .ok tokens ∧ parseTokens tokens = .error c ∧
          f = c.fault source.lines := by
  unfold read
  cases Token.tokenize file source with
  | error f => simp
  | ok tokens => cases hparse : parseTokens tokens <;> simp [hparse, eq_comm]

/-- The fault of a source, if it has one. -/
def fault? (file : Option Text) (source : Text) : Option Fault :=
  match (read file source).2 with
  | .error fault => some fault
  | .ok _ => none

theorem fault?_eq_some {f : Fault} :
    fault? file source = some f ↔ (read file source).2 = .error f := by
  unfold fault?
  split <;> simp_all

/-- Whatever keeps a text from being a program stands in its tokens or in their grammar. -/
theorem read_fault {f : Fault} (h : (read file source).2 = .error f) :
    (∃ cause, f.cause = .lexical cause) ∨ ∃ cause, f.cause = .syntactic cause := by
  rcases read_eq_error.1 h with h | ⟨tokens, c, -, -, rfl⟩
  · exact .inl (Token.tokenize_lexical h)
  · exact .inr ⟨c.cause, rfl⟩

/-! ### Entries that are refused -/

/-- An entry with a final fault is reported at once by the prompt, and no text on the lines
behind it makes it a program. -/
theorem refused_for_good {fault : Fault} (h : (read file source).2 = .error fault)
    (hfinal : fault.Final) :
    (file = some Prompt.sourceName → ∀ settings scope w force,
      (Prompt.evaluate settings scope w source force).result = .done) ∧
    ∀ (file' : Option Text) (t : Text), ∃ fault',
      (read file' (source ++ lineFeed :: t)).2 = .error fault' ∧
        ((∃ cause, fault'.cause = .lexical cause) ∨ ∃ cause, fault'.cause = .syntactic cause) := by
  constructor
  · rintro rfl settings scope w force
    unfold Prompt.evaluate
    split
    · next notes f hread =>
      rw [hread] at h
      cases h
      rw [if_neg (by simp [hfinal.not_unfinished])]
    · next hread =>
      rw [hread] at h
      cases h
  · intro file' t
    have hrefused : ∃ fault', (read file' (source ++ lineFeed :: t)).2 = .error fault' := by
      rcases read_eq_error.1 h with h | ⟨tokens, c, htokens, hc, rfl⟩
      · obtain ⟨cause, hcause⟩ := Token.tokenize_lexical h
        exact absurd hcause (hfinal.not_lexical cause)
      · obtain ⟨ts, finish, rfl, hcomplete⟩ := Token.exists_complete htokens
        cases hjoined : Token.tokenize file' (source ++ lineFeed :: t) with
        | error f => exact ⟨f, read_eq_error.2 (.inl hjoined)⟩
        | ok tokens' =>
          obtain ⟨us, last, hus⟩ := Token.tokenize_of_joined htokens hjoined
          obtain ⟨ts', finish', hts', hbare⟩ := Token.tokenize_joined htokens hus file'
          have hlong := Token.complete_of_tokenize hts'
          have hus' := (Token.complete_of_tokenize hus).ended.broken
          obtain ⟨c', hc'⟩ := parseTokensAt_refuses hcomplete hlong hbare hus'.ahead hc hfinal
          exact ⟨_, read_eq_error.2 (.inr ⟨_, c', hts', hc', rfl⟩)⟩
    obtain ⟨fault', hfault'⟩ := hrefused
    exact ⟨fault', hfault', read_fault hfault'⟩

/-- A declaration without a name is refused, also with a name on the next line. -/
theorem refused_for_good_without_name :
    ∃ fault, (read none "let = 1").2 = .error fault ∧ fault.Final ∧
      ∃ fault', (read none ("let = 1" ++ lineFeed :: "a = 2")).2 = .error fault' := by
  have hrefused : (fault? none "let = 1").any (fun fault => fault.Final) = true := by
    decide +kernel
  obtain ⟨fault, hfault, hfinal⟩ := (Option.any_eq_true _ _).1 hrefused
  have hread := fault?_eq_some.1 hfault
  have hfinal := of_decide_eq_true hfinal
  obtain ⟨fault', hfault', -⟩ := (refused_for_good hread hfinal).2 none "a = 2"
  exact ⟨fault, hread, hfinal, fault', hfault'⟩

/-! ### Lines behind a program -/

/-- A line break between two programs merges, splits and moves nothing: the statements of
both are read one after the other. -/
theorem read_joined {file₁ file₂ : Option Text} {s₁ s₂ : Text} {b₁ b₂ : Block}
    (h₁ : (read file₁ s₁).2 = .ok b₁) (h₂ : (read file₂ s₂).2 = .ok b₂)
    (file : Option Text) :
    ∃ b, (read file (s₁ ++ lineFeed :: s₂)).2 = .ok b ∧
      b.bare.statements = b₁.bare.statements ++ b₂.bare.statements := by
  obtain ⟨tokens₁, htokens₁, hparse₁⟩ := read_eq_ok.1 h₁
  obtain ⟨tokens₂, htokens₂, hparse₂⟩ := read_eq_ok.1 h₂
  obtain ⟨ts, finish, rfl, hts⟩ := Token.exists_complete htokens₁
  obtain ⟨us, last, rfl, hus⟩ := Token.exists_complete htokens₂
  obtain ⟨ts', finish', hts', hbare⟩ := Token.tokenize_joined htokens₁ htokens₂ file
  obtain ⟨b, hb, hstatements⟩ := parseTokensAt_joined hts hus (Token.complete_of_tokenize hts')
    hbare hparse₁ hparse₂
  exact ⟨b, read_eq_ok.2 ⟨_, hts', hb⟩, hstatements⟩

/-- A round bracket on the next line calls nothing, and a sign there is no operator. -/
theorem read_joined_by_sign :
    ∃ b₁ b₂ b, (read none "a = f").2 = .ok b₁ ∧ (read none "(b)\n-c").2 = .ok b₂ ∧
      b₁.statements.length = 1 ∧ b₂.statements.length = 2 ∧
      (read none ("a = f" ++ lineFeed :: "(b)\n-c")).2 = .ok b ∧
      b.bare.statements = b₁.bare.statements ++ b₂.bare.statements := by
  have hfirst : ((read none "a = f").2.toOption.map fun b => b.statements.length) = some 1 := by
    decide +kernel
  have hsecond : ((read none "(b)\n-c").2.toOption.map fun b => b.statements.length) =
      some 2 := by
    decide +kernel
  cases h₁ : (read none "a = f").2 with
  | error fault => rw [h₁] at hfirst; cases hfirst
  | ok b₁ =>
    cases h₂ : (read none "(b)\n-c").2 with
    | error fault => rw [h₂] at hsecond; cases hsecond
    | ok b₂ =>
      rw [h₁] at hfirst
      rw [h₂] at hsecond
      obtain ⟨b, hb, hstatements⟩ := read_joined h₁ h₂ none
      exact ⟨b₁, b₂, b, rfl, rfl, Option.some.inj hfirst, Option.some.inj hsecond, hb,
        hstatements⟩

end Program

end ScriptLang
