import ScriptLang.Proofs.Token.Joined

/-!
# Texts that are one word

What begins like a word has no blanks in front of it (`Trivia.size_of_word`). If the scanner
takes all of a text for one word, the source has that word and the end of the input for tokens
(`Token.tokenize_alone`); if it refuses the word, the source has the same fault
(`Token.tokenize_refused`).
-/

namespace ScriptLang

open CodePoint

/-- Only these code points begin a blank or a comment. -/
theorem Trivia.size_of_word {c : CodePoint} (hc : c ∉ Text.ofString " \t\r\n#/") (t : Text) :
    size (c :: t) = .ok 0 := by
  have hspace : ¬ isSpace c = true := fun hspace =>
    hc (List.mem_append_left (Text.ofString "#/") (isSpace_iff.1 hspace))
  have hhash : c ≠ ofChar '#' := fun h => hc (h ▸ by decide)
  have hslash : c ≠ ofChar '/' := fun h => hc (h ▸ by decide)
  rw [size, sizeFrom_outside_cons, if_neg hspace, if_neg hhash, if_neg hslash]

namespace Token

variable {c : CodePoint} {t : Text} {content : Content} {further : Nat} {m : Misread}

theorem scanFrom_word (hc : c ∉ Text.ofString " \t\r\n#/")
    (h : scan c t = .ok (content, further)) (file : Option Text) (p : Position) :
    scanFrom file p (c :: t) =
      (after file p [] (c :: t.take further) content ::
          (scanFrom file (p.advance (c :: t.take further)) (t.drop further)).1,
        (scanFrom file (p.advance (c :: t.take further)) (t.drop further)).2) :=
  scanFrom_of_token (Trivia.size_of_word hc t) rfl h

/-- The tokens of a text that is one word. -/
def alone (file : Option Text) (word : Text) (content : Content) : List Token :=
  [after file Position.start [] word content, endAfter file (Position.start.advance word) []]

theorem tokenize_alone (hc : c ∉ Text.ofString " \t\r\n#/")
    (h : scan c t = .ok (content, t.length)) (file : Option Text) :
    tokenize file (c :: t) = .ok (alone file (c :: t) content) := by
  rw [tokenize_eq_ok, scanFrom_word hc h, List.take_length, List.drop_length,
    scanFrom_of_end Trivia.size_nil rfl]
  rfl

theorem scanFrom_refused (hc : c ∉ Text.ofString " \t\r\n#/") (h : scan c t = .error m)
    (file : Option Text) (p : Position) :
    scanFrom file p (c :: t) = ([], some (m.fault file p (c :: t))) :=
  scanFrom_of_misread (Trivia.size_of_word hc t) rfl h

/-- A source is refused for what stands behind any of its tokens. -/
theorem tokenize_of_scanFrom {file : Option Text} {source : Text} {tokens : List Token}
    {fault : Fault} (h : scanFrom file Position.start source = (tokens, some fault)) :
    ∃ fault', tokenize file source = .error fault' ∧ fault'.cause = fault.cause ∧
      fault'.span = fault.span :=
  ⟨_, tokenize_eq_error.2 ⟨fault, by rw [h], rfl⟩, rfl, rfl⟩

theorem tokenize_refused (hc : c ∉ Text.ofString " \t\r\n#/") (h : scan c t = .error m)
    (file : Option Text) :
    ∃ fault, tokenize file (c :: t) = .error fault ∧ fault.cause = .lexical m.cause := by
  obtain ⟨fault, hfault, hcause, -⟩ := tokenize_of_scanFrom (scanFrom_refused hc h file _)
  exact ⟨fault, hfault, hcause⟩

end Token

end ScriptLang
