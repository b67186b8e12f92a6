import ScriptLang.Proofs.Grammar.Reads

/-!
# Scanning step by step

`Token.scanFrom` as equations: nothing but blanks left, a token and the tokens behind
it, or a stop. From them follows that integers are not too large (`tokenize_integer`), what
names are made of (`tokenize_identifier`), that the end of the input is the last of the tokens and
no other (`tokenize_ended`), and that tokens stand one behind the other (`tokenize_ordered`), so no
two begin at one place (`tokenize_starts`).
-/

namespace ScriptLang

namespace Token

variable {file : Option Text} {p : Position} {t rest : Text} {c : CodePoint}
  {blank further : Nat} {content : Content} {m : Misread}

/-- The end of the input behind blanks. -/
def endAfter (file : Option Text) (p : Position) (blanks : Text) : Token :=
  ⟨.endOfInput, [], ⟨file, p.advance blanks, p.advance blanks⟩,
    p.line < (p.advance blanks).line⟩

/-- A token behind blanks. -/
def after (file : Option Text) (p : Position) (blanks lexeme : Text) (content : Content) : Token :=
  let start := p.advance blanks
  let stop := start.advance lexeme
  ⟨content, lexeme, ⟨file, start, stop⟩, p.line < stop.line⟩

theorem scanFrom_of_unread (h : Trivia.size t = .error m) :
    scanFrom file p t = ([], some (m.fault file p t)) := by
  rw [scanFrom, h]

theorem scanFrom_of_end (h : Trivia.size t = .ok blank) (hd : t.drop blank = []) :
    scanFrom file p t = ([endAfter file p (t.take blank)], none) := by
  rw [scanFrom, h]
  dsimp only
  split
  · rfl
  · next hd' => rw [hd] at hd'; cases hd'

theorem scanFrom_of_misread (h : Trivia.size t = .ok blank) (hd : t.drop blank = c :: rest)
    (hc : scan c rest = .error m) :
    scanFrom file p t =
      ([], some (m.fault file (p.advance (t.take blank)) (c :: rest))) := by
  rw [scanFrom, h]
  dsimp only
  split
  · next hd' => rw [hd] at hd'; cases hd'
  · next hd' =>
    rw [hd] at hd'
    cases hd'
    rw [hc]

theorem scanFrom_of_token (h : Trivia.size t = .ok blank) (hd : t.drop blank = c :: rest)
    (hc : scan c rest = .ok (content, further)) :
    scanFrom file p t =
      (after file p (t.take blank) (c :: rest.take further) content ::
          (scanFrom file (p.advance (t.take blank ++ c :: rest.take further))
            (rest.drop further)).1,
        (scanFrom file (p.advance (t.take blank ++ c :: rest.take further))
          (rest.drop further)).2) := by
  rw [scanFrom, h]
  dsimp only
  split
  · next hd' => rw [hd] at hd'; cases hd'
  · next hd' =>
    rw [hd] at hd'
    cases hd'
    rw [hc, Position.advance_append]
    rfl

/-- A text is read up to its end, up to a fault, or begins with a token. -/
theorem scanFrom_cases (t : Text) :
    (∀ file p, ∃ m q u, scanFrom file p t = ([], some (Misread.fault m file q u))) ∨
      (∃ blank, Trivia.size t = .ok blank ∧ t.drop blank = []) ∨
      ∃ blank c rest content further, Trivia.size t = .ok blank ∧ t.drop blank = c :: rest ∧
        scan c rest = .ok (content, further) := by
  cases hs : Trivia.size t with
  | error m => exact .inl fun _ _ => ⟨_, _, _, scanFrom_of_unread hs⟩
  | ok blank =>
    cases hd : t.drop blank with
    | nil => exact .inr (.inl ⟨blank, rfl, hd⟩)
    | cons c rest =>
      cases hc : scan c rest with
      | error m => exact .inl fun _ _ => ⟨_, _, _, scanFrom_of_misread hs hd hc⟩
      | ok x => exact .inr (.inr ⟨blank, c, rest, x.1, x.2, rfl, hd, hc⟩)

theorem length_rest_lt (h : t.drop blank = c :: rest) :
    (rest.drop further).length < t.length := by
  have := congrArg List.length h
  simp only [List.length_drop, List.length_cons] at this ⊢
  omega

/-! ### What tokens say -/

/-- A number is a float, or an integer that is not too large. -/
theorem number_content {size : Nat} (h : Number.scan t = .ok (content, size)) :
    (∃ n ≤ Number.maxInteger, content = .integer n) ∨ ∃ x, content = .float x := by
  have hinteger : ∀ {n value}, Number.integer t n value = .ok (content, size) →
      ∃ n ≤ Number.maxInteger, content = .integer n := by
    intro n value h
    unfold Number.integer at h
    split at h <;> cases h
    next hle => exact ⟨value, Nat.le_of_not_lt hle, rfl⟩
  have hmarked : ∀ {base}, Number.scanMarked base t = .ok (content, size) →
      ∃ n ≤ Number.maxInteger, content = .integer n := by
    intro base h
    unfold Number.scanMarked at h
    dsimp only at h
    split at h
    · cases h
    · split at h
      · cases h
      · exact hinteger h
  have hdecimal : Number.scanDecimal t = .ok (content, size) →
      (∃ n ≤ Number.maxInteger, content = .integer n) ∨ ∃ x, content = .float x := by
    intro h
    unfold Number.scanDecimal at h
    dsimp only at h
    split at h
    · cases h
    · split at h
      · cases h
      · split at h
        · split at h
          · exact .inl (hinteger h)
          · cases h
        · split at h <;> cases h
          exact .inr ⟨_, rfl⟩
  unfold Number.scan at h
  split at h
  · split at h
    · exact .inl (hmarked h)
    · exact hdecimal h
  · exact hdecimal h

/-- A word is a keyword, or a name of letters, numbers and underscores. -/
theorem scanWord_content (hc : (c.isAlphabetic || c = Number.underscore) = true)
    (h : scanWord c t = (content, further)) :
    (∃ word, content = .keyword word) ∨ ∃ name, content = .identifier name ∧
      ∀ d ∈ name, (d.isAlphanumeric || d = Number.underscore) = true := by
  unfold scanWord at h
  dsimp only at h
  split at h <;> cases h
  · exact .inl ⟨_, rfl⟩
  · refine .inr ⟨_, rfl, List.forall_mem_cons.2 ⟨?_, List.all_eq_true.1 List.all_takeWhile⟩⟩
    rw [Bool.or_eq_true] at hc ⊢
    exact hc.imp_left CodePoint.isAlphanumeric_of_isAlphabetic

/-- A token is a number, a string between quotes, or says something else, a name perhaps. -/
theorem scan_content (h : scan c t = .ok (content, further)) :
    (∃ size, Number.scan (c :: t) = .ok (content, size)) ∨
      (∃ s, content = .string s ∧ c ∈ Text.ofString "\"'" ∧
        StringLiteral.body c t = .closed s further) ∨
      (∀ n, content ≠ .integer n) ∧ (∀ s, content ≠ .string s) ∧ content ≠ .endOfInput ∧
        ∀ name, content = .identifier name →
          ∀ d ∈ name, (d.isAlphanumeric || d = Number.underscore) = true := by
  unfold scan at h
  split at h
  · next hquote =>
    unfold StringLiteral.scan at h
    split at h <;> cases h
    exact .inr (.inl ⟨_, rfl, by simpa [Text.ofString] using hquote, by assumption⟩)
  · split at h
    · cases hn : Number.scan (c :: t) with
      | error m => rw [hn] at h; cases h
      | ok x =>
        rw [hn] at h
        cases h
        exact .inl ⟨_, rfl⟩
    · right
      right
      split at h
      · next hc =>
        rcases scanWord_content hc (Except.ok.inj h) with ⟨word, rfl⟩ | ⟨name, rfl, hname⟩
        · exact ⟨nofun, nofun, nofun, nofun⟩
        · refine ⟨nofun, nofun, nofun, fun name' h => ?_⟩
          cases h
          exact hname
      · split at h <;> cases h
        next hsign =>
          unfold scanSign? at hsign
          dsimp only at hsign
          split at hsign
          · cases hsign
            exact ⟨nofun, nofun, nofun, nofun⟩
          · obtain ⟨s, -, hs⟩ := Option.map_eq_some_iff.1 hsign
            cases hs
            exact ⟨nofun, nofun, nofun, nofun⟩

/-- No token is the end of the input. -/
theorem scan_ne_endOfInput (h : scan c t = .ok (content, further)) :
    content ≠ .endOfInput := by
  rcases scan_content h with ⟨size, h⟩ | ⟨s, rfl, -⟩ | ⟨-, -, h, -⟩
  · rcases number_content h with ⟨n, -, rfl⟩ | ⟨x, rfl⟩ <;> nofun
  · nofun
  · exact h

theorem scan_integer {n : Nat} (h : scan c t = .ok (.integer n, further)) :
    n ≤ Number.maxInteger := by
  rcases scan_content h with ⟨size, h⟩ | ⟨s, heq, -⟩ | ⟨h, -⟩
  · rcases number_content h with ⟨m, hm, heq⟩ | ⟨x, heq⟩ <;> cases heq
    exact hm
  · cases heq
  · exact absurd rfl (h n)

theorem scan_identifier {name : Text} (h : scan c t = .ok (.identifier name, further)) :
    ∀ d ∈ name, (d.isAlphanumeric || d = Number.underscore) = true := by
  rcases scan_content h with ⟨size, h⟩ | ⟨s, heq, -⟩ | ⟨-, -, -, h⟩
  · rcases number_content h with ⟨n, -, heq⟩ | ⟨x, heq⟩ <;> cases heq
  · cases heq
  · exact h name rfl

/-- Every token but the end of the input is scanned somewhere. -/
theorem scanFrom_scanned (file : Option Text) (p : Position) (t : Text) :
    ∀ k ∈ (scanFrom file p t).1, k.content ≠ .endOfInput →
      ∃ c rest further, scan c rest = .ok (k.content, further) := by
  rcases scanFrom_cases t with hf | ⟨blank, hb, hd⟩ |
    ⟨blank, c, rest, content, further, hb, hd, hc⟩
  · obtain ⟨m, q, u, hf⟩ := hf file p
    rw [hf]
    nofun
  · rw [scanFrom_of_end hb hd]
    exact List.forall_mem_singleton.2 fun hne => absurd rfl hne
  · rw [scanFrom_of_token hb hd hc]
    exact List.forall_mem_cons.2 ⟨fun _ => ⟨c, rest, further, hc⟩, scanFrom_scanned file _ _⟩
termination_by t.length
decreasing_by exact length_rest_lt hd

/-! ### The order of tokens -/

/-- Where a token begins, counted in code points. -/
def offset (t : Token) : Nat := t.span.start.offset

theorem after_offset (file : Option Text) (p : Position) (blanks lexeme : Text)
    (content : Content) : (after file p blanks lexeme content).offset = p.offset + blanks.length :=
  Position.advance_offset p blanks

theorem stop_after (file : Option Text) (p : Position) (blanks lexeme : Text)
    (content : Content) :
    (after file p blanks lexeme content).span.stop = p.advance (blanks ++ lexeme) :=
  (Position.advance_append p blanks lexeme).symm

theorem scanFrom_offsets (file : Option Text) (p : Position) (t : Text) :
    (∀ k ∈ (scanFrom file p t).1, p.offset ≤ k.offset) ∧
      (scanFrom file p t).1.Pairwise fun k l => k.offset < l.offset := by
  rcases scanFrom_cases t with hf | ⟨blank, hb, hd⟩ |
    ⟨blank, c, rest, content, further, hb, hd, hc⟩
  · obtain ⟨m, q, u, hf⟩ := hf file p
    rw [hf]
    simp
  · rw [scanFrom_of_end hb hd]
    simp [endAfter, offset, Position.advance_offset]
  · rw [scanFrom_of_token hb hd hc]
    obtain ⟨hle, hpair⟩ := scanFrom_offsets file
      (p.advance (t.take blank ++ c :: rest.take further)) (rest.drop further)
    have hlt : ∀ k ∈ (scanFrom file (p.advance (t.take blank ++ c :: rest.take further))
        (rest.drop further)).1, p.offset + (t.take blank).length < k.offset := by
      intro k hk
      have := hle k hk
      rw [Position.advance_offset, List.length_append, List.length_cons] at this
      omega
    constructor
    · intro k hk
      rcases List.mem_cons.1 hk with rfl | hk
      · rw [after_offset]
        omega
      · exact Nat.le_of_lt (Nat.lt_of_le_of_lt (Nat.le_add_right _ _) (hlt k hk))
    · refine List.pairwise_cons.2 ⟨fun k hk => ?_, hpair⟩
      rw [after_offset]
      exact hlt k hk
termination_by t.length
decreasing_by exact length_rest_lt hd

theorem scanFrom_ended (file : Option Text) (p : Position) (t : Text)
    (hnone : (scanFrom file p t).2 = none) :
    Ended (scanFrom file p t).1 := by
  rcases scanFrom_cases t with hf | ⟨blank, hb, hd⟩ |
    ⟨blank, c, rest, content, further, hb, hd, hc⟩
  · obtain ⟨m, q, u, hf⟩ := hf file p
    rw [hf] at hnone
    cases hnone
  · rw [scanFrom_of_end hb hd]
    exact ⟨[], _, rfl, rfl, nofun⟩
  · rw [scanFrom_of_token hb hd hc] at hnone ⊢
    obtain ⟨ts, finish, hts, hf, hne⟩ := scanFrom_ended _ _ _ hnone
    refine ⟨_ :: ts, finish, congrArg _ hts, hf, List.forall_mem_cons.2 ⟨?_, hne⟩⟩
    exact scan_ne_endOfInput hc
termination_by t.length
decreasing_by exact length_rest_lt hd

theorem tokenize_eq_ok {source : Text} {tokens : List Token} :
    tokenize file source = .ok tokens ↔
      scanFrom file Position.start source = (tokens, none) := by
  unfold tokenize scanAll
  rcases scanFrom file Position.start source with ⟨ts, f⟩
  cases f <;> simp

theorem tokenize_scanned {source : Text} {tokens : List Token}
    (h : tokenize file source = .ok tokens) {k : Token} (hk : k ∈ tokens)
    (hne : k.content ≠ .endOfInput) : ∃ c rest further, scan c rest = .ok (k.content, further) := by
  have hscan := scanFrom_scanned file Position.start source
  rw [tokenize_eq_ok.1 h] at hscan
  exact hscan k hk hne

/-- Integers of a source are not too large. -/
theorem tokenize_integer {source : Text} {tokens : List Token}
    (h : tokenize file source = .ok tokens) {k : Token} (hk : k ∈ tokens) {n : Nat}
    (hn : k.content = .integer n) : n ≤ Number.maxInteger := by
  obtain ⟨c, rest, further, hc⟩ := tokenize_scanned h hk (by rw [hn]; nofun)
  rw [hn] at hc
  exact scan_integer hc

/-- Names of a source consist of letters, numbers and underscores. -/
theorem tokenize_identifier {source : Text} {tokens : List Token}
    (h : tokenize file source = .ok tokens) {k : Token} (hk : k ∈ tokens) {name : Text}
    (hname : k.content = .identifier name) :
    ∀ d ∈ name, (d.isAlphanumeric || d = Number.underscore) = true := by
  obtain ⟨c, rest, further, hc⟩ := tokenize_scanned h hk (by rw [hname]; nofun)
  rw [hname] at hc
  exact scan_identifier hc

theorem tokenize_ended {source : Text} {tokens : List Token}
    (h : tokenize file source = .ok tokens) : Ended tokens := by
  have hscan := tokenize_eq_ok.1 h
  have := scanFrom_ended file Position.start source (by rw [hscan])
  rwa [hscan] at this

/-- No two tokens of a source begin at one place. -/
theorem tokenize_starts {source : Text} {tokens : List Token}
    (h : tokenize file source = .ok tokens) : (tokens.map fun k => k.span.start).Nodup := by
  have hscan := tokenize_eq_ok.1 h
  have hpair := (scanFrom_offsets file Position.start source).2
  rw [hscan] at hpair
  refine List.pairwise_map.2 (hpair.imp fun {k l} hlt heq => ?_)
  rw [offset, offset, heq] at hlt
  exact Nat.lt_irrefl _ hlt

/-- Tokens stand one behind the other, the first of them not before the offset `k`. All but the
end of the input take some space. -/
def Ordered : Nat → List Token → Prop
  | _, [] => True
  | k, t :: ts => k ≤ t.offset ∧ t.offset ≤ t.span.stop.offset ∧
      (t.content ≠ .endOfInput → t.offset < t.span.stop.offset) ∧ Ordered t.span.stop.offset ts

theorem Ordered.le_offset : ∀ {k : Nat} {ts : List Token}, Ordered k ts → ∀ t ∈ ts, k ≤ t.offset
  | _, [], _ => nofun
  | _, _ :: _, ⟨hk, hstop, _, hts⟩ => List.forall_mem_cons.2
    ⟨hk, fun t ht => Nat.le_trans hk (Nat.le_trans hstop (hts.le_offset t ht))⟩

/-- No token begins before the first one. -/
theorem Ordered.head_le {k : Nat} {t u : Token} {ts : List Token} (h : Ordered k (u :: ts))
    (ht : t ∈ u :: ts) : u.offset ≤ t.offset := by
  have hhead : Ordered u.offset (u :: ts) := ⟨Nat.le_refl u.offset, h.2⟩
  exact hhead.le_offset t ht

theorem scanFrom_ordered (file : Option Text) (p : Position) (t : Text) :
    Ordered p.offset (scanFrom file p t).1 := by
  rcases scanFrom_cases t with hf | ⟨blank, hb, hd⟩ |
    ⟨blank, c, rest, content, further, hb, hd, hc⟩
  · obtain ⟨m, q, u, hf⟩ := hf file p
    rw [hf]
    trivial
  · rw [scanFrom_of_end hb hd]
    simp [Ordered, endAfter, offset, Position.advance_offset]
  · have hlt : p.offset + (t.take blank).length <
        (p.advance (t.take blank ++ c :: rest.take further)).offset := by
      rw [Position.advance_offset, List.length_append, List.length_cons]
      omega
    rw [scanFrom_of_token hb hd hc]
    simp only [Ordered, after_offset, stop_after]
    exact ⟨Nat.le_add_right _ _, Nat.le_of_lt hlt, fun _ => hlt, scanFrom_ordered file _ _⟩
termination_by t.length
decreasing_by exact length_rest_lt hd

theorem tokenize_ordered {source : Text} {tokens : List Token}
    (h : tokenize file source = .ok tokens) : Ordered 0 tokens := by
  have hscan := scanFrom_ordered file Position.start source
  rwa [tokenize_eq_ok.1 h] at hscan

end Token

end ScriptLang
