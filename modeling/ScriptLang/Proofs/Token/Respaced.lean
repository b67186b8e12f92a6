import ScriptLang.Proofs.Token.Lexeme
import ScriptLang.Proofs.Token.Joined

/-!
# Writing the tokens out again

The lexemes of a source, each behind one space or one line feed, are a source with the same
tokens at other places (`Token.tokenize_respaced`). So blanks and comments matter to a program
only through the line breaks that the tokens tell of.

A lexeme is read back in front of any separator (`Token.scan_lexeme`). Here it remains that
no lexeme is taken for a blank or for the beginning of a comment (`Token.sizeFrom_lexeme`).
-/

namespace ScriptLang

open CodePoint

namespace Token

variable {c s : CodePoint} {t : Text} {content : Content} {size : Nat}

/-! ### Where a token begins -/

/-- A sign is read from its spelling. -/
theorem spelling_of_scanSign? (h : scanSign? c t = some (content, size)) :
    ∃ k : Sign, k.spelling = c :: t.take size ∧ k.spelling.length = size + 1 := by
  unfold scanSign? at h
  dsimp only at h
  split at h
  · next k hpair =>
    cases h
    obtain ⟨d, hd, hk⟩ := Option.bind_eq_some_iff.1 hpair
    obtain ⟨t, rfl⟩ := List.head?_eq_some_iff.1 hd
    exact ⟨k, Sign.spelling_of_ofText? hk, by rw [Sign.spelling_of_ofText? hk]; rfl⟩
  · obtain ⟨k, hk, hcontent⟩ := Option.map_eq_some_iff.1 h
    cases hcontent
    exact ⟨k, Sign.spelling_of_ofText? hk, by rw [Sign.spelling_of_ofText? hk]; rfl⟩

theorem scan_of_blank (hc : c ∈ Text.ofString " \t\r\n#/") (t : Text) :
    scan c t = match scanSign? c t with
      | some found => .ok found
      | none => .error ⟨.unexpectedCharacter c, 0, 1⟩ := by
  have hplain : ∀ c ∈ Text.ofString " \t\r\n#/", (c = ofChar '"' || c = ofChar '\'') = false ∧
      c.isDigit = false ∧ (c.isAlphabetic || c = Number.underscore) = false := by decide
  obtain ⟨hquote, hdigit, hletter⟩ := hplain c hc
  rw [scan, hquote, hdigit, hletter]
  rfl

/-- Of all that begins a blank or a comment, only the slash begins a token, and then it is
all of the token. -/
theorem scan_of_mem_blank (h : scan c t = .ok (content, size))
    (hc : c ∈ Text.ofString " \t\r\n#/") : c = '/' ∧ size = 0 := by
  rw [scan_of_blank hc] at h
  split at h <;> cases h
  next hsign =>
    obtain ⟨k, hk, hlength⟩ := spelling_of_scanSign? hsign
    have hsigns : ∀ k ∈ Sign.all, ∀ c ∈ Text.ofString " \t\r\n#/", k.spelling.head? = some c →
        c = '/' ∧ k.spelling.length = 1 := by decide
    obtain ⟨hslash, hone⟩ := hsigns k (Sign.mem_all k) c hc (by rw [hk]; rfl)
    exact ⟨hslash, by omega⟩

/-- No blanks stand before a lexeme with a separator behind it. -/
theorem sizeFrom_lexeme (h : scan c t = .ok (content, size)) (hs : Trivia.isSpace s = true)
    (u : Text) (read : Nat) :
    Trivia.sizeFrom .outside read (c :: (t.take size ++ s :: u)) = .ok read := by
  rw [Trivia.sizeFrom_outside_cons]
  by_cases hc : c ∈ Text.ofString " \t\r\n#/"
  · obtain ⟨rfl, rfl⟩ := scan_of_mem_blank h hc
    have hslash : s ≠ '/' := by
      simpa using Trivia.of_isSpace hs (p := fun s => s ≠ ofChar '/') (by decide)
    have hstar : s ≠ '*' := by
      simpa using Trivia.of_isSpace hs (p := fun s => s ≠ ofChar '*') (by decide)
    rw [if_neg (by decide), if_neg (by decide), if_pos rfl]
    exact (if_neg hslash).trans (if_neg hstar)
  · have hspace : ¬ Trivia.isSpace c = true := fun hspace =>
      hc (List.mem_append_left (Text.ofString "#/") (Trivia.isSpace_iff.1 hspace))
    have hhash : c ≠ ofChar '#' := fun h => hc (h ▸ by decide)
    have hslash : c ≠ ofChar '/' := fun h => hc (h ▸ by decide)
    rw [if_neg hspace, if_neg hhash, if_neg hslash]

theorem scanFrom_lexeme {s' : CodePoint} (h : scan c t = .ok (content, size))
    (hs : Trivia.isSpace s = true) (hs' : Trivia.isSpace s' = true) (file : Option Text)
    (p : Position) (u : Text) :
    scanFrom file p (s :: (c :: t.take size ++ s' :: u)) =
      (after file p [s] (c :: t.take size) content ::
          (scanFrom file (p.advance ([s] ++ c :: t.take size)) (s' :: u)).1,
        (scanFrom file (p.advance ([s] ++ c :: t.take size)) (s' :: u)).2) := by
  have hsize : Trivia.size (s :: (c :: t.take size ++ s' :: u)) = .ok 1 := by
    rw [Trivia.size, Trivia.sizeFrom_outside_cons, if_pos hs, List.cons_append]
    exact sizeFrom_lexeme h hs' u 1
  have hlength : (t.take size).length = size :=
    List.length_take_of_le (scan_append h hs u).1
  have hdrop : (s :: (c :: t.take size ++ s' :: u)).drop 1 = c :: (t.take size ++ s' :: u) := rfl
  rw [scanFrom_of_token hsize hdrop (scan_lexeme h hs' u), List.take_left' hlength,
    List.drop_left' hlength]
  rfl

/-! ### Sources -/

/-- What stands before a token when the tokens are written out. -/
def separator (k : Token) : CodePoint := if k.afterBreak then lineFeed else ' '

/-- The tokens written out, each behind a line feed or a space. -/
def respaced (tokens : List Token) : Text := tokens.flatMap fun k => k.separator :: k.lexeme

/-- A token without its place. -/
def unplaced (k : Token) : Token := { k with span := .nowhere }

theorem isSpace_separator (k : Token) : Trivia.isSpace k.separator = true := by
  unfold separator
  split <;> rfl

theorem exists_respaced {ks : List Token} (h : ks ≠ []) :
    ∃ s u, Trivia.isSpace s = true ∧ respaced ks = s :: u := by
  obtain ⟨k, ks, rfl⟩ := List.exists_cons_of_ne_nil h
  exact ⟨k.separator, _, k.isSpace_separator, rfl⟩

theorem respaced_cons (k : Token) (ks : List Token) :
    respaced (k :: ks) = k.separator :: (k.lexeme ++ respaced ks) := by
  simp [respaced]

theorem after_unplaced (file : Option Text) (p : Position) (blanks lexeme : Text)
    (content : Content) : (after file p blanks lexeme content).unplaced =
      ⟨content, lexeme, .nowhere, decide (lineFeed ∈ blanks ++ lexeme)⟩ := by
  rw [unplaced, after_afterBreak]
  rfl

/-- Behind its separator a token tells of a line break as it did behind its blanks. A line
break may also stand in its lexeme. -/
theorem after_separator (file file' : Option Text) (p p' : Position) (blanks lexeme : Text)
    (content : Content) :
    (after file' p' [(after file p blanks lexeme content).separator] lexeme content).unplaced =
      (after file p blanks lexeme content).unplaced := by
  rw [after_unplaced, after_unplaced, separator, after_afterBreak]
  have hspace : lineFeed ≠ ofChar ' ' := by decide
  by_cases h : lineFeed ∈ blanks ++ lexeme
  · simp [h]
  · have hlexeme : lineFeed ∉ lexeme := fun hmem => h (List.mem_append_right blanks hmem)
    simp [h, hlexeme, hspace]

theorem scanFrom_respaced (file file' : Option Text) (p p' : Position) (t : Text)
    (h : (scanFrom file p t).2 = none) :
    ∃ tokens, scanFrom file' p' (respaced (scanFrom file p t).1) = (tokens, none) ∧
      tokens.map unplaced = (scanFrom file p t).1.map unplaced := by
  rcases scanFrom_cases t with hf | ⟨blank, hb, hd⟩ |
    ⟨blank, c, rest, content, further, hb, hd, hc⟩
  · obtain ⟨m, q, u, hf⟩ := hf file p
    rw [hf] at h
    cases h
  · rw [scanFrom_of_end hb hd]
    have hsize : Trivia.size [(endAfter file p (t.take blank)).separator] = .ok 1 := by
      rw [Trivia.size, Trivia.sizeFrom_outside_cons, if_pos (isSpace_separator _)]
      rfl
    refine ⟨_, scanFrom_of_end hsize rfl, ?_⟩
    exact congrArg ([·]) (after_separator file file' p p' (t.take blank) [] .endOfInput)
  · rw [scanFrom_of_token hb hd hc] at h ⊢
    have hhead := after_separator file file' p p' (t.take blank) (c :: rest.take further) content
    generalize hk : after file p (t.take blank) (c :: rest.take further) content = k at hhead ⊢
    have hlexeme : k.lexeme = c :: rest.take further := congrArg lexeme hk.symm
    obtain ⟨ks, hks, hunplaced⟩ := scanFrom_respaced file file'
      (p.advance (t.take blank ++ c :: rest.take further))
      (p'.advance ([k.separator] ++ c :: rest.take further)) (rest.drop further) h
    -- the lexeme stands before the separator of the next token
    obtain ⟨ts, finish, hts, -⟩ := scanFrom_complete h
    obtain ⟨s, u, hs, hrespaced⟩ := exists_respaced (hts ▸ List.concat_ne_nil finish ts)
    rw [hrespaced] at hks
    rw [respaced_cons, hlexeme, hrespaced, scanFrom_lexeme hc k.isSpace_separator hs, hks]
    exact ⟨_, rfl, by rw [List.map_cons, List.map_cons, hhead, hunplaced]⟩
termination_by t.length
decreasing_by exact length_rest_lt hd

/-- The tokens of a source written out are the same tokens again, at other places. -/
theorem tokenize_respaced {file : Option Text} {source : Text} {tokens : List Token}
    (h : tokenize file source = .ok tokens) (file' : Option Text) :
    ∃ tokens', tokenize file' (respaced tokens) = .ok tokens' ∧
      tokens'.map unplaced = tokens.map unplaced := by
  have hscan := tokenize_eq_ok.1 h
  obtain ⟨tokens', hscan', htokens⟩ :=
    scanFrom_respaced file file' Position.start Position.start source (by rw [hscan])
  rw [hscan] at hscan' htokens
  exact ⟨tokens', tokenize_eq_ok.2 hscan', htokens⟩

/-- A comment goes, and the line break before it is written before the token behind it. -/
theorem tokenize_respaced_commented :
    ∃ tokens, tokenize none "f[1..0x2]\n /* all */ or'a\\'b'" = .ok tokens ∧
      respaced tokens = Text.ofString " f [ 1 .. 0x2 ]\nor 'a\\'b' " ∧
      ∃ tokens', tokenize none (respaced tokens) = .ok tokens' ∧
        tokens'.map unplaced = tokens.map unplaced := by
  have hrespaced : ((tokenize none "f[1..0x2]\n /* all */ or'a\\'b'").toOption.map respaced) =
      some (Text.ofString " f [ 1 .. 0x2 ]\nor 'a\\'b' ") := by
    decide +kernel
  cases h : tokenize none "f[1..0x2]\n /* all */ or'a\\'b'" with
  | error fault => rw [h] at hrespaced; cases hrespaced
  | ok tokens =>
    rw [h] at hrespaced
    exact ⟨tokens, rfl, Option.some.inj hrespaced, tokenize_respaced h none⟩

end Token

end ScriptLang
