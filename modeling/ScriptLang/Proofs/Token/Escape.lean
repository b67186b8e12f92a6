import ScriptLang.Proofs.Text.Lenient
import ScriptLang.Proofs.Token.Alone
import ScriptLang.Proofs.Token.Partition

/-!
# Numbered escapes

A numbered escape stands where the scanner comes to its backslash in a string literal
(`Token.Escape`). It takes the code points ahead whatever they are. It is refused there unless
all of them are there and are a numeral in the lenient reading; so it is not only hexadecimal
digits that are let through, and a blank among them may be a line feed
(`Token.tokenize_escape`).
-/

namespace ScriptLang

open CodePoint

/-! ### Where the scanner comes to -/

namespace Token

/-- Between two tokens of a text the scanner comes to the place behind `done`. -/
inductive Comes : Text → Text → Text → Prop
  | here {t : Text} : Comes t [] t
  | behind {t rest done ahead : Text} {c : CodePoint} {content : Content} {blank further : Nat}
      (hblank : Trivia.size t = .ok blank) (hdrop : t.drop blank = c :: rest)
      (hscan : scan c rest = .ok (content, further)) (h : Comes (rest.drop further) done ahead) :
      Comes t (t.take blank ++ c :: rest.take further ++ done) ahead

/-- The scanner meets the text `ahead`, no blanks at its front, behind `before`. -/
inductive Meets (t : Text) : Text → Text → Prop
  | intro {done behind ahead : Text} {blank : Nat} (h : Comes t done behind)
      (hblank : Trivia.size behind = .ok blank) (hdrop : behind.drop blank = ahead) :
      Meets t (done ++ behind.take blank) ahead

/-- A string literal opens with a quote behind `before`. -/
inductive Opens (t : Text) : Text → CodePoint → Text → Prop
  | intro {done ahead inner : Text} {quote : CodePoint} {blank : Nat} (h : Comes t done ahead)
      (hblank : Trivia.size ahead = .ok blank) (hdrop : ahead.drop blank = quote :: inner)
      (hquote : quote ∈ Text.ofString "\"'") :
      Opens t (done ++ ahead.take blank) quote inner

end Token

namespace StringLiteral

/-- Behind an opening quote the scanner comes to the place behind `read`. -/
inductive Comes (quote : CodePoint) : Text → Text → Text → Prop
  | here {t : Text} : Comes quote t [] t
  | plain {t read ahead : Text} {c : CodePoint} (hquote : c ≠ quote) (hbreak : c ≠ lineFeed)
      (hslash : c ≠ ofChar '\\') (h : Comes quote t read ahead) :
      Comes quote (c :: t) (c :: read) ahead
  | escaped {t read ahead : Text} {value : CodePoint} {size : Nat} (hquote : ofChar '\\' ≠ quote)
      (hescape : escape t = .ok (value, size)) (h : Comes quote (t.drop size) read ahead) :
      Comes quote (ofChar '\\' :: t) (ofChar '\\' :: (t.take size ++ read)) ahead

end StringLiteral

namespace Token

/-- A numbered escape of a source, at a place in a string literal that the scanner comes to. -/
structure Escape (source : Text) where
  /-- The text in front of the literal. -/
  opening : Text
  /-- The quote of the literal. -/
  quote : CodePoint
  /-- The text behind the quote. -/
  inner : Text
  /-- The part of the literal in front of the backslash. -/
  read : Text
  /-- The letter behind the backslash. -/
  letter : CodePoint
  /-- The text behind the letter. -/
  ahead : Text
  /-- How many code points the escape takes behind its letter. -/
  width : Nat
  opens : Opens source opening quote inner
  comes : StringLiteral.Comes quote inner read (ofChar '\\' :: letter :: ahead)
  width_eq : StringLiteral.width? letter = some width

namespace Escape

variable {source : Text}

/-- The text in front of the letter. -/
def before (e : Escape source) : Text := e.opening ++ e.quote :: e.read ++ [ofChar '\\']

/-- The code points that the escape takes behind its letter; fewer at the end of the source. -/
def taken (e : Escape source) : Text := e.ahead.take e.width

/-- The source is refused for the escape, at its place. -/
def Refused (e : Escape source) (file : Option Text) : Prop :=
  ∃ fault, tokenize file source = .error fault ∧ fault.cause.code = "E003" ∧
    fault.span.start = Position.start.advance e.before

end Escape

end Token

/-! ### What an escape takes -/

namespace StringLiteral

variable {quote c value : CodePoint} {t : Text} {size width : Nat}

theorem letterEscape?_of_width? (h : width? c = some width) : letterEscape? c = none := by
  unfold width? at h
  split at h
  · next hc => rw [hc]; rfl
  · split at h
    · next hc => rw [hc]; rfl
    · cases h

/-- What a numbered escape reads: the code points it takes, and U+0000 for those past the end. -/
def shown (t : Text) (width : Nat) : Text :=
  t.take width ++ List.replicate (width - (t.take width).length) (CodePoint.ofNat 0)

theorem escape_numbered (hwidth : width? c = some width) (t : Text) :
    escape (c :: t) =
      match Numeral.lenientHex? (shown t width) with
      | some (.ofNat n) => .ok (CodePoint.ofNat n, 1 + (t.take width).length)
      | _ => .error ⟨c :: shown t width, 1 + (t.take width).length⟩ := by
  rw [escape, letterEscape?_of_width? hwidth, hwidth]
  rfl

/-- An escape is a letter, or a letter with the code points that are left of its width. -/
theorem escape_cases (h : escape t = .ok (value, size)) : ∃ letter ahead, t = letter :: ahead ∧
    (letterEscape? letter = some value ∧ size = 1 ∨
      ∃ width, width? letter = some width ∧ size = 1 + (ahead.take width).length) := by
  cases t with
  | nil => cases h
  | cons letter ahead =>
    refine ⟨letter, ahead, rfl, ?_⟩
    cases hwidth : width? letter with
    | some width =>
      rw [escape_numbered hwidth] at h
      split at h <;> cases h
      exact .inr ⟨width, rfl, rfl⟩
    | none =>
      cases hletter : letterEscape? letter with
      | some d =>
        rw [escape, hletter] at h
        cases h
        exact .inl ⟨rfl, rfl⟩
      | none =>
        rw [escape, hletter, hwidth] at h
        cases h

theorem escape_size_le (h : escape t = .ok (value, size)) : size ≤ t.length := by
  obtain ⟨letter, ahead, rfl, ⟨-, rfl⟩ | ⟨width, -, rfl⟩⟩ := escape_cases h
  · simp
  · rw [List.length_cons, List.length_take]
    omega

/-! ### Refused escapes -/

theorem Comes.append {read ahead : Text} (h : Comes quote t read ahead) : t = read ++ ahead := by
  induction h with
  | here => rfl
  | plain _ _ _ _ ih => rw [ih, List.cons_append]
  | @escaped t read ahead _ size _ _ _ ih =>
    rw [List.cons_append, List.append_assoc, ← ih, List.take_append_drop]

/-- An escape that is refused stops the literal where the scanner comes to it. -/
theorem body_of_comes {read ahead : Text} {bad : BadEscape} {skip : Nat}
    (h : Comes quote t read ahead) (hbad : body quote ahead = .badEscape skip bad) :
    body quote t = .badEscape (read.length + skip) bad := by
  induction h with
  | here => simpa using hbad
  | plain hquote hbreak hslash _ ih =>
    rw [body, if_neg hquote, if_neg hbreak, if_neg hslash, ih hbad, Reading.after, List.length_cons,
      Nat.add_right_comm, Nat.add_comm]
  | escaped hquote hescape h ih =>
    have hle := escape_size_le hescape
    rw [body, if_neg hquote, if_neg (by decide), if_pos rfl, hescape]
    dsimp only
    rw [ih hbad, Reading.after, List.length_cons, List.length_append, List.length_take_of_le hle]
    congr 1
    omega

theorem body_slash {bad : BadEscape} (hquote : ofChar '\\' ≠ quote) (h : escape t = .error bad) :
    body quote (ofChar '\\' :: t) = .badEscape 1 bad := by
  rw [body, if_neg hquote, if_neg (by decide), if_pos rfl, h]

theorem after_badEscape {r : Reading} {skip : Nat} {bad : BadEscape}
    (h : r.after size value = .badEscape skip bad) :
    ∃ skip', r = .badEscape skip' bad ∧ skip = size + skip' := by
  cases r <;> cases h
  exact ⟨_, rfl, rfl⟩

/-- What stands behind the backslash of an escape that is refused. -/
theorem body_badEscape {skip : Nat} {bad : BadEscape} (h : body quote t = .badEscape skip bad) :
    escape (t.drop skip) = .error bad := by
  fun_induction body quote t generalizing skip with
  | case1 => cases h
  | case2 => cases h
  | case3 => cases h
  | case4 rest value size hescape hquote hbreak ih =>
    obtain ⟨skip', hbad, rfl⟩ := after_badEscape h
    rw [Nat.add_assoc, Nat.add_comm 1, List.drop_succ_cons, ← List.drop_drop]
    exact ih hbad
  | case5 rest e hescape hquote hbreak =>
    cases h
    exact hescape
  | case6 c rest hquote hbreak hslash ih =>
    obtain ⟨skip', hbad, rfl⟩ := after_badEscape h
    rw [Nat.add_comm 1, List.drop_succ_cons]
    exact ih hbad

end StringLiteral

/-! ### Other refusals -/

theorem LexicalCause.of_code {cause : LexicalCause} (h : cause.code = "E003") :
    ∃ sequence, cause = .invalidEscape sequence := by
  cases cause with
  | invalidEscape sequence => exact ⟨sequence, rfl⟩
  | unexpectedCharacter c => exact absurd (show Text.ofString "E001" = "E003" from h) (by decide)
  | unterminatedString => exact absurd h (by decide)
  | unterminatedComment => exact absurd h (by decide)
  | invalidNumber lexeme flaw =>
    exact absurd (show Text.ofString "E005" = "E003" from h) (by decide)

theorem Trivia.sizeFrom_cause {place : Place} {read : Nat} {t : Text} {m : Misread}
    (h : sizeFrom place read t = .error m) : m.cause = .unterminatedComment := by
  fun_induction sizeFrom place read t with
  | case12 | case17 => cases h; rfl
  | case1 | case6 | case7 | case8 | case9 => cases h
  | _ => rename_i ih; exact ih h

namespace Number

variable {t : Text} {size value base : Nat} {m : Misread}

/-- A misreading of a number. -/
def Refuses (m : Misread) : Prop := ∃ lexeme flaw, m.cause = .invalidNumber lexeme flaw

theorem refuses_refuse (t : Text) (size : Nat) (flaw : Option NumberFlaw) :
    Refuses (refuse t size flaw) := ⟨_, _, rfl⟩

theorem integer_refuses (h : integer t size value = .error m) : Refuses m := by
  unfold integer at h
  split at h <;> cases h
  exact refuses_refuse _ _ _

theorem scanMarked_refuses (h : scanMarked base t = .error m) : Refuses m := by
  unfold scanMarked at h
  dsimp only at h
  split at h
  · cases h
    exact refuses_refuse _ _ _
  · split at h
    · cases h
      exact refuses_refuse _ _ _
    · exact integer_refuses h

theorem scanDecimal_refuses (h : scanDecimal t = .error m) : Refuses m := by
  unfold scanDecimal at h
  dsimp only at h
  split at h
  · cases h
    exact refuses_refuse _ _ _
  · split at h
    · cases h
      exact refuses_refuse _ _ _
    · split at h
      · split at h
        · exact integer_refuses h
        · cases h
          exact refuses_refuse _ _ _
      · split at h <;> cases h
        exact refuses_refuse _ _ _

theorem scan_refuses (h : scan t = .error m) : Refuses m := by
  unfold scan at h
  split at h
  · split at h
    · exact scanMarked_refuses h
    · exact scanDecimal_refuses h
  · exact scanDecimal_refuses h

end Number

namespace Token

variable {file : Option Text} {t done ahead before inner source : Text} {quote : CodePoint}
  {m : Misread}

theorem Comes.append (h : Comes t done ahead) : t = done ++ ahead := by
  induction h with
  | here => rfl
  | @behind t rest done ahead c content blank further hblank hdrop hscan h ih =>
    rw [List.append_assoc, ← ih, List.append_assoc, List.cons_append, List.take_append_drop,
      ← hdrop, List.take_append_drop]

theorem Meets.append (h : Meets t before ahead) : t = before ++ ahead := by
  obtain ⟨h, hblank, rfl⟩ := h
  rw [List.append_assoc, List.take_append_drop]
  exact h.append

theorem Opens.meets (h : Opens t before quote inner) : Meets t before (quote :: inner) := by
  obtain ⟨h, hblank, hdrop, hquote⟩ := h
  exact .intro h hblank hdrop

theorem Opens.append (h : Opens t before quote inner) : t = before ++ quote :: inner :=
  h.meets.append

theorem Opens.quote_mem (h : Opens t before quote inner) : quote ∈ Text.ofString "\"'" := by
  obtain ⟨h, hblank, hdrop, hquote⟩ := h
  exact hquote

/-- A quote is neither a backslash nor a line feed. -/
theorem Opens.quotes_apart (h : Opens t before quote inner) :
    ofChar '\\' ≠ quote ∧ lineFeed ≠ quote := by
  have hall : ∀ quote ∈ Text.ofString "\"'", ofChar '\\' ≠ quote ∧ lineFeed ≠ quote := by decide
  exact hall quote h.quote_mem

/-- The tokens in front of a place have no part in what stops the scanner behind it. -/
theorem scanFrom_of_comes (h : Comes t done ahead) (p : Position) :
    (scanFrom file p t).2 = (scanFrom file (p.advance done) ahead).2 := by
  induction h generalizing p with
  | here => rfl
  | behind hblank hdrop hscan h ih =>
    rw [scanFrom_of_token hblank hdrop hscan]
    dsimp only
    rw [ih, ← Position.advance_append]

/-- What cannot be read where the scanner meets it stops the scanner. -/
theorem scanFrom_of_meets {c : CodePoint} {rest : Text} (h : Meets t before (c :: rest))
    (hscan : scan c rest = .error m) (file : Option Text) (p : Position) :
    (scanFrom file p t).2 = some (m.fault file (p.advance before) (c :: rest)) := by
  obtain ⟨h, hblank, hdrop⟩ := h
  rw [scanFrom_of_comes h, scanFrom_of_misread hblank hdrop hscan, ← Position.advance_append]

theorem scan_quote (hquote : quote ∈ Text.ofString "\"'") (t : Text) :
    scan quote t = StringLiteral.scan quote t := by
  have hall : ∀ quote ∈ Text.ofString "\"'", quote = ofChar '"' ∨ quote = ofChar '\'' := by decide
  exact if_pos (by simpa using hall quote hquote)

namespace Escape

theorem source_eq (e : Escape source) : source = e.before ++ e.letter :: e.ahead := by
  have hinner : e.inner = e.read ++ ofChar '\\' :: e.letter :: e.ahead := e.comes.append
  calc source = e.opening ++ e.quote :: e.inner := e.opens.append
    _ = e.before ++ e.letter :: e.ahead := by simp [hinner, before]

/-- What the scanner makes of the escape. -/
def outcome (e : Escape source) : Except StringLiteral.BadEscape (CodePoint × Nat) :=
  StringLiteral.escape (e.letter :: e.ahead)

theorem refused_of_outcome (e : Escape source) {bad : StringLiteral.BadEscape}
    (h : e.outcome = .error bad) (file : Option Text) : e.Refused file := by
  have hbody : StringLiteral.body e.quote e.inner = .badEscape (e.read.length + 1) bad :=
    StringLiteral.body_of_comes e.comes (StringLiteral.body_slash e.opens.quotes_apart.1 h)
  have hscan : scan e.quote e.inner =
      .error ⟨.invalidEscape bad.shown, 1 + (e.read.length + 1), bad.size⟩ := by
    rw [scan_quote e.opens.quote_mem, StringLiteral.scan, hbody]
  have hfault := scanFrom_of_meets e.opens.meets hscan file Position.start
  obtain ⟨fault, htokenize, hcause, hspan⟩ := tokenize_of_scanFrom (Prod.ext rfl hfault)
  refine ⟨fault, htokenize, by rw [hcause]; rfl, ?_⟩
  have htake : (e.quote :: e.inner).take (1 + (e.read.length + 1)) =
      e.quote :: e.read ++ [ofChar '\\'] := by
    rw [e.comes.append, Nat.add_comm, List.take_succ_cons, List.take_length_add_append]
    rfl
  rw [hspan, before, List.append_assoc, Position.advance_append, ← htake]
  rfl

end Escape

/-- Only a string literal is refused for an escape, at an escape of it. -/
theorem scan_invalidEscape {c : CodePoint} {rest sequence : Text} (h : scan c rest = .error m)
    (hm : m.cause = .invalidEscape sequence) :
    ∃ bad, StringLiteral.escape ((c :: rest).drop m.skip) = .error bad := by
  unfold scan at h
  split at h
  · unfold StringLiteral.scan at h
    split at h
    · cases h
    · cases h
      cases hm
    · next skip bad hbody =>
      cases h
      refine ⟨bad, ?_⟩
      dsimp only
      rw [Nat.add_comm 1, List.drop_succ_cons]
      exact StringLiteral.body_badEscape hbody
  · split at h
    · cases hn : Number.scan (c :: rest) with
      | ok x => rw [hn] at h; cases h
      | error m' =>
        rw [hn] at h
        cases h
        obtain ⟨lexeme, flaw, hcause⟩ := Number.scan_refuses hn
        rw [hcause] at hm
        cases hm
    · split at h
      · cases h
      · split at h <;> cases h
        cases hm

/-- The scanner is stopped by an escape only in front of one that stands for nothing. -/
theorem scanFrom_invalidEscape {p : Position} {t : Text} {fault : Fault}
    (h : (scanFrom file p t).2 = some fault) (hcode : fault.cause.code = "E003") :
    ∃ before ahead bad, t = before ++ ahead ∧ fault.span.start = p.advance before ∧
      StringLiteral.escape ahead = .error bad := by
  cases hs : Trivia.size t with
  | error m =>
    rw [scanFrom_of_unread hs] at h
    cases h
    obtain ⟨sequence, hm⟩ := LexicalCause.of_code hcode
    rw [Trivia.sizeFrom_cause hs] at hm
    cases hm
  | ok blank =>
    cases hd : t.drop blank with
    | nil =>
      rw [scanFrom_of_end hs hd] at h
      cases h
    | cons c rest =>
      cases hc : scan c rest with
      | error m =>
        rw [scanFrom_of_misread hs hd hc] at h
        cases h
        obtain ⟨sequence, hm⟩ := LexicalCause.of_code hcode
        obtain ⟨bad, hbad⟩ := scan_invalidEscape hc hm
        refine ⟨t.take blank ++ (c :: rest).take m.skip, _, bad, ?_, ?_, hbad⟩
        · rw [List.append_assoc, List.take_append_drop, ← hd, List.take_append_drop]
        · rw [Position.advance_append]
          rfl
      | ok x =>
        rw [scanFrom_of_token hs hd hc] at h
        obtain ⟨before, ahead, bad, hrest, hstart, hbad⟩ := scanFrom_invalidEscape h hcode
        refine ⟨t.take blank ++ c :: rest.take x.2 ++ before, ahead, bad, ?_, ?_, hbad⟩
        · rw [List.append_assoc, ← hrest, List.append_assoc, List.cons_append,
            List.take_append_drop, ← hd, List.take_append_drop]
        · rw [hstart, ← Position.advance_append]
termination_by t.length
decreasing_by exact length_rest_lt hd

namespace Escape

theorem refused_iff (e : Escape source) (file : Option Text) :
    e.Refused file ↔ ∃ bad, e.outcome = .error bad := by
  refine ⟨fun ⟨fault, htokenize, hcode, hstart⟩ => ?_, fun ⟨bad, h⟩ => e.refused_of_outcome h file⟩
  obtain ⟨fault', hfault, rfl⟩ := tokenize_eq_error.1 htokenize
  obtain ⟨before, ahead, bad, hsource, hstart', hbad⟩ := scanFrom_invalidEscape hfault hcode
  -- both places stand at one offset of the source, so the text behind them is the same
  have hlength : e.before.length = before.length := by
    rw [← Position.offset_start_advance, ← Position.offset_start_advance, ← hstart, ← hstart']
    rfl
  have hboth : e.before ++ e.letter :: e.ahead = before ++ ahead := e.source_eq.symm.trans hsource
  rw [← (List.append_inj hboth hlength).2] at hbad
  exact ⟨bad, hbad⟩

end Escape

end Token

/-! ### Line feeds in a literal -/

namespace StringLiteral

variable {quote c value : CodePoint} {t : Text} {size : Nat}

end StringLiteral

/-! ### String tokens -/

namespace Token

variable {file : Option Text} {t inner source : Text} {quote : CodePoint}

theorem Meets.behind {rest before ahead : Text} {c : CodePoint} {content : Content}
    {blank further : Nat} (hblank : Trivia.size t = .ok blank) (hdrop : t.drop blank = c :: rest)
    (hscan : scan c rest = .ok (content, further)) (h : Meets (rest.drop further) before ahead) :
    Meets t (t.take blank ++ c :: rest.take further ++ before) ahead := by
  obtain ⟨hcomes, hsize, hd⟩ := h
  rw [← List.append_assoc]
  exact .intro (.behind hblank hdrop hscan hcomes) hsize hd

/-- A token is read where the scanner meets its first code point. -/
theorem meets_of_mem {p : Position} {t : Text} {k : Token} (hk : k ∈ (scanFrom file p t).1)
    (hne : k.content ≠ .endOfInput) :
    ∃ before c rest further, Meets t before (c :: rest) ∧ scan c rest = .ok (k.content, further) ∧
      k.lexeme = c :: rest.take further ∧ k.span.start = p.advance before ∧
      k.span.stop = k.span.start.advance k.lexeme := by
  rcases scanFrom_cases t with hf | ⟨blank, hb, hd⟩ |
    ⟨blank, c, rest, content, further, hb, hd, hc⟩
  · obtain ⟨m, q, u, hf⟩ := hf file p
    rw [hf] at hk
    cases hk
  · rw [scanFrom_of_end hb hd, List.mem_singleton] at hk
    rw [hk] at hne
    exact absurd rfl hne
  · rw [scanFrom_of_token hb hd hc] at hk
    rcases List.mem_cons.1 hk with rfl | hk
    · exact ⟨t.take blank, c, rest, further, .intro .here hb hd, hc, rfl, rfl, rfl⟩
    · obtain ⟨before, d, u, n, hmeets, hscan, hlexeme, hstart, hstop⟩ := meets_of_mem hk hne
      refine ⟨_, d, u, n, hmeets.behind hb hd hc, hscan, hlexeme, ?_, hstop⟩
      rw [hstart, ← Position.advance_append]
termination_by t.length
decreasing_by exact length_rest_lt hd

end Token

end ScriptLang
