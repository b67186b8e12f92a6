import ScriptLang.Proofs.Token.Scan
import ScriptLang.Proofs.Token.Separator
import ScriptLang.Proofs.Grammar.Joined

/-!
# Texts behind one another

If a text can be cut into tokens, then a line feed and another text behind it add the
tokens of that text and change none before them (`Token.scanFrom_append`). The tokens of
the second text are those it has alone, at other places and with a line feed before the
first one. `Token.tokenize_joined` says so of whole sources.
-/

namespace ScriptLang

open CodePoint

namespace Position

theorem line_advance (p : Position) (t : Text) :
    (p.advance t).line = p.line + t.count lineFeed := by
  induction t generalizing p with
  | nil => rfl
  | cons c t ih =>
    rw [advance_cons, ih, List.count_cons]
    unfold next
    split
    · next hc => simp [hc]; omega
    · next hc => simp [hc]

theorem line_lt_advance {p : Position} {t : Text} :
    p.line < (p.advance t).line ↔ lineFeed ∈ t := by
  rw [line_advance, ← List.count_pos_iff]
  omega

end Position

theorem Misread.fault_after (m : Misread) (file : Option Text) (p : Position) (v u : Text) :
    (m.after v.length).fault file p (v ++ u) = m.fault file (p.advance v) u := by
  unfold Misread.fault Misread.after
  dsimp only
  rw [List.take_length_add_append, List.drop_length_add_append, Position.advance_append]

namespace Token

variable {file file' : Option Text} {p p' : Position}

/-! ### Tokens at other places -/

theorem after_afterBreak (file : Option Text) (p : Position) (blanks lexeme : Text)
    (content : Content) : (after file p blanks lexeme content).afterBreak =
      decide (lineFeed ∈ blanks ++ lexeme) := by
  rw [after]
  dsimp only
  rw [← Position.advance_append]
  simp only [Position.line_lt_advance]

theorem after_bare (file : Option Text) (p : Position) (blanks lexeme : Text)
    (content : Content) : (after file p blanks lexeme content).bare =
      ⟨content, [], .nowhere, decide (lineFeed ∈ blanks ++ lexeme)⟩ := by
  rw [bare, after_afterBreak]
  rfl

theorem endAfter_bare (file : Option Text) (p : Position) (blanks : Text) :
    (endAfter file p blanks).bare = ⟨.endOfInput, [], .nowhere, decide (lineFeed ∈ blanks)⟩ := by
  rw [bare, endAfter]
  simp only [Position.line_lt_advance]

/-- The place of a text does not matter to its tokens. -/
theorem scanFrom_bare (file file' : Option Text) (p p' : Position) (t : Text) :
    (scanFrom file p t).1.map bare = (scanFrom file' p' t).1.map bare ∧
      ((scanFrom file p t).2 = none ↔ (scanFrom file' p' t).2 = none) := by
  rcases scanFrom_cases t with hf | ⟨blank, hb, hd⟩ |
    ⟨blank, c, rest, content, further, hb, hd, hc⟩
  · obtain ⟨m, q, u, hf₁⟩ := hf file p
    obtain ⟨m', q', u', hf₂⟩ := hf file' p'
    rw [hf₁, hf₂]
    exact ⟨rfl, nofun, nofun⟩
  · rw [scanFrom_of_end hb hd, scanFrom_of_end hb hd]
    simp [endAfter_bare]
  · rw [scanFrom_of_token hb hd hc, scanFrom_of_token hb hd hc]
    obtain ⟨htokens, hnone⟩ := scanFrom_bare file file'
      (p.advance (t.take blank ++ c :: rest.take further))
      (p'.advance (t.take blank ++ c :: rest.take further)) (rest.drop further)
    exact ⟨by simp only [List.map_cons, after_bare, htokens], hnone⟩
termination_by t.length
decreasing_by exact length_rest_lt hd

theorem scanFrom_misread {p : Position} {t : Text} {f : Fault}
    (h : (scanFrom file p t).2 = some f) : ∃ (m : Misread) (q : Position) (u : Text),
      f = m.fault file q u := by
  rcases scanFrom_cases t with hf | ⟨blank, hb, hd⟩ |
    ⟨blank, c, rest, content, further, hb, hd, hc⟩
  · obtain ⟨m, q, u, hf⟩ := hf file p
    rw [hf] at h
    cases h
    exact ⟨m, q, u, rfl⟩
  · rw [scanFrom_of_end hb hd] at h
    cases h
  · rw [scanFrom_of_token hb hd hc] at h
    exact scanFrom_misread h
termination_by t.length
decreasing_by exact length_rest_lt hd

theorem scanFrom_lexical {p : Position} {t : Text} {f : Fault}
    (h : (scanFrom file p t).2 = some f) : ∃ cause, f.cause = .lexical cause := by
  obtain ⟨m, q, u, rfl⟩ := scanFrom_misread h
  exact ⟨m.cause, rfl⟩

/-! ### A text behind another -/

/-- Behind blanks with a line feed a text has the tokens that it has alone. -/
theorem scanFrom_behind {v u : Text} (hsize : Trivia.size (v ++ u) =
      Trivia.shifted v.length (Trivia.size u)) (hbreak : lineFeed ∈ v) :
    scanFrom file p (v ++ u) =
      (brokenAll (scanFrom file (p.advance v) u).1, (scanFrom file (p.advance v) u).2) := by
  have hline : ∀ t : Text, p.line < (p.advance (v ++ t)).line := fun t =>
    Position.line_lt_advance.2 (List.mem_append_left t hbreak)
  cases hu : Trivia.size u with
  | error m =>
    rw [hu] at hsize
    rw [scanFrom_of_unread hsize, scanFrom_of_unread hu, Misread.fault_after]
    rfl
  | ok blank =>
    rw [hu] at hsize
    have hdrop : (v ++ u).drop (v.length + blank) = u.drop blank :=
      List.drop_length_add_append _
    have htake : (v ++ u).take (v.length + blank) = v ++ u.take blank :=
      List.take_length_add_append _
    cases hd : u.drop blank with
    | nil =>
      rw [scanFrom_of_end hsize (hdrop.trans hd), scanFrom_of_end hu hd, htake]
      apply congrArg (fun k => ([k], none))
      rw [endAfter, endAfter, broken, ← Position.advance_append]
      simp only [hline, decide_true]
    | cons c rest =>
      cases hc : scan c rest with
      | error m =>
        rw [scanFrom_of_misread hsize (hdrop.trans hd) hc, scanFrom_of_misread hu hd hc, htake,
          Position.advance_append]
        rfl
      | ok x =>
        obtain ⟨content, further⟩ := x
        rw [scanFrom_of_token hsize (hdrop.trans hd) hc, scanFrom_of_token hu hd hc, htake,
          List.append_assoc, Position.advance_append p v]
        refine congrArg (fun k => (k :: _, _)) ?_
        rw [after, after, broken]
        simp only [← Position.advance_append, List.append_assoc, hline, decide_true]

theorem scanFrom_append {p : Position} {t : Text} (h : (scanFrom file p t).2 = none) (u : Text) :
    ∃ ts finish, (scanFrom file p t).1 = ts ++ [finish] ∧
      scanFrom file p (t ++ lineFeed :: u) =
        (ts ++ brokenAll (scanFrom file (p.advance (t ++ [lineFeed])) u).1,
          (scanFrom file (p.advance (t ++ [lineFeed])) u).2) := by
  rcases scanFrom_cases t with hf | ⟨blank, hb, hd⟩ |
    ⟨blank, c, rest, content, further, hb, hd, hc⟩
  · obtain ⟨m, q, v, hf⟩ := hf file p
    rw [hf] at h
    cases h
  · -- the blanks at the end of the text go on behind the line feed
    refine ⟨[], _, by rw [scanFrom_of_end hb hd]; rfl, ?_⟩
    have hle := List.drop_eq_nil_iff.1 hd
    have hsize : Trivia.size (t ++ lineFeed :: u) =
        Trivia.shifted (t ++ [lineFeed]).length (Trivia.size u) := by
      rcases Trivia.sizeFrom_append hb u with ⟨hlt, -⟩ | ⟨hblank, hrest⟩
      · omega
      · rw [Nat.zero_add] at hblank
        rw [Trivia.size, hrest, hblank, List.length_append]
        exact Trivia.sizeFrom_after (t.length + 1) .outside 0 u
    have happend : t ++ lineFeed :: u = t ++ [lineFeed] ++ u := List.append_cons t lineFeed u
    rw [happend] at hsize ⊢
    exact scanFrom_behind hsize (List.mem_append_right t List.mem_cons_self)
  · rw [scanFrom_of_token hb hd hc] at h ⊢
    obtain ⟨ts, finish, hts, hrest⟩ := scanFrom_append h u
    refine ⟨_ :: ts, finish, congrArg (_ :: ·) hts, ?_⟩
    obtain ⟨hfurther, hscan⟩ := scan_append hc Trivia.isSpace_lineFeed u
    have hlt : blank < t.length := by
      refine Nat.lt_of_not_le fun hle => ?_
      rw [List.drop_of_length_le hle] at hd
      cases hd
    have hsize : Trivia.size (t ++ lineFeed :: u) = .ok blank := by
      rcases Trivia.sizeFrom_append hb u with ⟨-, hsize⟩ | ⟨hblank, -⟩
      · exact hsize
      · omega
    have hdrop : (t ++ lineFeed :: u).drop blank = c :: (rest ++ lineFeed :: u) := by
      rw [List.drop_append_of_le_length (Nat.le_of_lt hlt), hd, List.cons_append]
    have hparts : t.take blank ++ c :: rest.take further ++ rest.drop further = t := by
      rw [List.append_assoc, List.cons_append, List.take_append_drop, ← hd, List.take_append_drop]
    rw [scanFrom_of_token hsize hdrop hscan, List.take_append_of_le_length (Nat.le_of_lt hlt),
      List.take_append_of_le_length hfurther, List.drop_append_of_le_length hfurther, hrest,
      ← Position.advance_append, ← List.append_assoc, hparts]
    rfl
termination_by t.length
decreasing_by exact length_rest_lt hd

/-! ### Sources -/

/-- The tokens of a text are tokens and an end of the input behind them. -/
theorem scanFrom_complete {t : Text} (h : (scanFrom file p t).2 = none) :
    ∃ ts finish, (scanFrom file p t).1 = ts ++ [finish] ∧ Program.Complete ts finish := by
  obtain ⟨ts, finish, hts, hfinish, htokens⟩ := scanFrom_ended file p t h
  exact ⟨ts, finish, hts, hfinish, htokens⟩

theorem brokenAll_append (ts : List Token) (finish : Token) :
    ∃ finish', brokenAll (ts ++ [finish]) = brokenAll ts ++ [finish'] ∧
      finish'.content = finish.content := by
  cases ts with
  | nil => exact ⟨finish.broken, rfl, rfl⟩
  | cons t ts => exact ⟨finish, rfl, rfl⟩

@[simp] theorem brokenAll_content (ts : List Token) :
    (brokenAll ts).map content = ts.map content := by
  cases ts <;> rfl

theorem brokenAll_bare {ts us : List Token} (h : ts.map bare = us.map bare) :
    (brokenAll ts).map bare = (brokenAll us).map bare := by
  cases ts with
  | nil =>
    rw [List.map_eq_nil_iff.1 h.symm]
  | cons t ts =>
    obtain ⟨u, us', rfl, hu, hus⟩ := List.map_eq_cons_iff.1 h.symm
    rw [brokenAll, brokenAll, List.map_cons, List.map_cons, hus]
    apply congrArg (· :: _)
    rw [bare, bare, broken, broken]
    exact congrArg (fun content => (⟨content, [], .nowhere, true⟩ : Token))
      (content_eq_of_bare hu).symm

theorem tokenize_eq_error {source : Text} {f : Fault} :
    tokenize file source = .error f ↔
      ∃ g, (scanFrom file Position.start source).2 = some g ∧ f = g.quoteFrom source.lines := by
  unfold tokenize scanAll
  rcases scanFrom file Position.start source with ⟨ts, g⟩
  cases g with
  | none => simp
  | some g => simpa using eq_comm

theorem tokenize_lexical {source : Text} {f : Fault} (h : tokenize file source = .error f) :
    ∃ cause, f.cause = .lexical cause := by
  obtain ⟨g, hg, rfl⟩ := tokenize_eq_error.1 h
  exact (scanFrom_lexical hg : ∃ cause, g.cause = .lexical cause)

theorem complete_of_tokenize {source : Text} {ts : List Token} {finish : Token}
    (h : tokenize file source = .ok (ts ++ [finish])) : Program.Complete ts finish := by
  obtain ⟨us, last, hus, hlast, htokens⟩ := tokenize_ended h
  obtain ⟨rfl, hfinish⟩ := List.append_inj' hus rfl
  cases hfinish
  exact ⟨hlast, htokens⟩

theorem exists_complete {source : Text} {tokens : List Token}
    (h : tokenize file source = .ok tokens) :
    ∃ ts finish, tokens = ts ++ [finish] ∧ Program.Complete ts finish := by
  obtain ⟨ts, finish, rfl, hfinish, htokens⟩ := tokenize_ended h
  exact ⟨ts, finish, rfl, hfinish, htokens⟩

/-- Wherever a text can be cut into tokens, they are the same up to their places. -/
theorem scanFrom_of_tokenize {t : Text} {ts : List Token} {finish : Token}
    (h : tokenize file t = .ok (ts ++ [finish])) (file' : Option Text) (p : Position) :
    ∃ ts' finish', scanFrom file' p t = (ts' ++ [finish'], none) ∧
      ts'.map bare = ts.map bare := by
  have hscan := tokenize_eq_ok.1 h
  obtain ⟨htokens, hnone⟩ := scanFrom_bare file file' Position.start p t
  have hnone' := hnone.1 (by rw [hscan])
  obtain ⟨ts', finish', hts', -⟩ := scanFrom_complete hnone'
  refine ⟨ts', finish', Prod.ext hts' hnone', ?_⟩
  rw [hscan, hts', List.map_append, List.map_append] at htokens
  exact (List.append_inj' htokens rfl).1.symm

variable {file₁ file₂ : Option Text} {t u : Text}

theorem tokenize_joined {ts us : List Token} {finish last : Token}
    (h₁ : tokenize file₁ t = .ok (ts ++ [finish])) (h₂ : tokenize file₂ u = .ok (us ++ [last]))
    (file : Option Text) :
    ∃ ts' finish', tokenize file (t ++ lineFeed :: u) = .ok (ts' ++ [finish']) ∧
      ts'.map bare = (ts ++ brokenAll us).map bare := by
  obtain ⟨ts₁, finish₁, hscan₁, hts₁⟩ := scanFrom_of_tokenize h₁ file Position.start
  obtain ⟨ts₀, finish₀, hts₀, hjoined⟩ := scanFrom_append (by rw [hscan₁]) u
  obtain ⟨us₂, last₂, hscan₂, hus₂⟩ := scanFrom_of_tokenize h₂ file
    (Position.start.advance (t ++ [lineFeed]))
  obtain ⟨last', hlast, -⟩ := brokenAll_append us₂ last₂
  rw [hscan₁] at hts₀
  obtain ⟨rfl, -⟩ := List.append_inj' hts₀ rfl
  refine ⟨ts₁ ++ brokenAll us₂, last', ?_, ?_⟩
  · rw [tokenize_eq_ok, hjoined, hscan₂, hlast, List.append_assoc]
  · rw [List.map_append, List.map_append, hts₁, brokenAll_bare hus₂]

theorem tokenize_of_joined {file : Option Text} {ts tokens : List Token} {finish : Token}
    (h₁ : tokenize file₁ t = .ok (ts ++ [finish]))
    (h : tokenize file (t ++ lineFeed :: u) = .ok tokens) :
    ∃ us last, tokenize file u = .ok (us ++ [last]) := by
  obtain ⟨ts₁, finish₁, hscan₁, -⟩ := scanFrom_of_tokenize h₁ file Position.start
  obtain ⟨ts₀, finish₀, -, hjoined⟩ := scanFrom_append (by rw [hscan₁]) u
  rw [tokenize_eq_ok, hjoined] at h
  have hnone := (scanFrom_bare file file _ Position.start u).2.1 (Prod.mk.inj h).2
  obtain ⟨us, last, hus, -⟩ := scanFrom_complete hnone
  exact ⟨us, last, tokenize_eq_ok.2 (Prod.ext hus hnone)⟩

end Token

end ScriptLang
