import ScriptLang.Proofs.Token.Gap
import ScriptLang.Proofs.Token.Joined

/-!
# Where the tokens stand

The tokens of a source and the gaps between them make up the source
(`Token.tokenize_partition`): every token stands at its place in the text and has the stretch
of text there as its lexeme (`Token.Stands`), and its lines and columns are those that
counting line feeds in the source gives (`Position.Counts`).

The scanner never sees the text behind it. So a run over the rest of a source is looked at
together with what was read before (`Token.tiled_scanFrom`).
-/

namespace ScriptLang

open CodePoint

/-- The stretch of a text from one offset to another. -/
def Text.between (t : Text) (start stop : Nat) : Text := (t.take stop).drop start

/-- The line of an offset starts at `start`: behind the last line feed before the offset, or
with the text. -/
structure Text.LineStarts (source : Text) (offset start : Nat) : Prop where
  le : start ≤ offset
  behind : start = 0 ∨ source[start - 1]? = some lineFeed
  last : lineFeed ∉ source.between start offset

namespace Position

/-- A position has the line and the column of its offset in a source. -/
structure Counts (source : Text) (p : Position) : Prop where
  line_eq : p.line = 1 + (source.take p.offset).count lineFeed
  column_eq : ∃ start, source.LineStarts p.offset start ∧ p.column = 1 + (p.offset - start)

theorem column_advance (p : Position) (t : Text) :
    lineFeed ∉ t ∧ (p.advance t).column = p.column + t.length ∨
      ∃ u v, t = u ++ lineFeed :: v ∧ lineFeed ∉ v ∧ (p.advance t).column = 1 + v.length := by
  induction t generalizing p with
  | nil => simp
  | cons c t ih =>
    rw [advance_cons]
    rcases ih (p.next c) with ⟨ht, hcolumn⟩ | ⟨u, v, rfl, hv, hcolumn⟩
    · by_cases hc : c = lineFeed
      · rw [hcolumn, next, if_pos hc]
        exact .inr ⟨[], t, by rw [hc, List.nil_append], ht, rfl⟩
      · rw [hcolumn, next, if_neg hc, List.length_cons]
        exact .inl ⟨by simp [Ne.symm hc, ht], by simp +arith⟩
    · exact .inr ⟨c :: u, v, rfl, hv, hcolumn⟩

theorem offset_start_advance (t : Text) : (start.advance t).offset = t.length := by
  rw [advance_offset, start, Nat.zero_add]

theorem counts_advance (t u : Text) : (start.advance t).Counts (t ++ u) := by
  refine ⟨by rw [offset_start_advance, List.take_left, line_advance]; rfl, ?_⟩
  rw [offset_start_advance]
  rcases column_advance start t with ⟨ht, hcolumn⟩ | ⟨v, w, rfl, hw, hcolumn⟩
  · refine ⟨0, ⟨Nat.zero_le _, .inl rfl, ?_⟩, hcolumn⟩
    rwa [Text.between, List.take_left, List.drop_zero]
  · refine ⟨v.length + 1, ⟨by simp, .inr (by simp), ?_⟩, by rw [hcolumn]; simp +arith⟩
    rwa [Text.between, List.take_left, List.append_cons, List.drop_left' (by simp)]

end Position

namespace Token

/-- A token stands in a source, and nothing but a gap stands between the first `read` code
points and the token. -/
structure Stands (source : Text) (read : Nat) (k : Token) : Prop where
  read_le : read ≤ k.span.start.offset
  start_le : k.span.start.offset ≤ k.span.stop.offset
  stop_le : k.span.stop.offset ≤ source.length
  lexeme_eq : k.lexeme = source.between k.span.start.offset k.span.stop.offset
  gap : Trivia.Gap (source.drop k.span.start.offset) (source.between read k.span.start.offset)
  start_counts : k.span.start.Counts source
  stop_counts : k.span.stop.Counts source
  afterBreak_iff : k.afterBreak = true ↔ lineFeed ∈ source.between read k.span.stop.offset

/-- Tokens stand in a source one behind the other, the first of them behind the first `read`
code points. -/
def Tiled (source : Text) : Nat → List Token → Prop
  | _, [] => True
  | read, k :: ks => k.Stands source read ∧ Tiled source k.span.stop.offset ks

theorem after_start (file : Option Text) (done blanks lexeme : Text) (content : Content) :
    (after file (Position.start.advance done) blanks lexeme content).span.start =
      Position.start.advance (done ++ blanks) :=
  (Position.advance_append _ _ _).symm

theorem after_stop (file : Option Text) (done blanks lexeme : Text) (content : Content) :
    (after file (Position.start.advance done) blanks lexeme content).span.stop =
      Position.start.advance (done ++ blanks ++ lexeme) := by
  rw [Position.advance_append, Position.advance_append]
  rfl

theorem after_stands (file : Option Text) (done blanks lexeme rest : Text) (content : Content)
    (hgap : Trivia.Gap (lexeme ++ rest) blanks) :
    (after file (Position.start.advance done) blanks lexeme content).Stands
      (done ++ blanks ++ lexeme ++ rest) done.length := by
  have hbefore : done ++ blanks ++ lexeme ++ rest = done ++ blanks ++ (lexeme ++ rest) :=
    List.append_assoc _ _ _
  constructor <;> simp only [after_start, after_stop, Position.offset_start_advance]
  case read_le => simp
  case start_le => simp
  case stop_le => simp
  case lexeme_eq =>
    rw [Text.between, List.take_left, List.drop_left]
    rfl
  case gap =>
    rw [hbefore, Text.between, List.take_left, List.drop_left, List.drop_left]
    exact hgap
  case start_counts =>
    rw [hbefore]
    exact Position.counts_advance _ _
  case stop_counts => exact Position.counts_advance _ _
  case afterBreak_iff =>
    rw [Text.between, List.take_left, List.append_assoc done, List.drop_left, after_afterBreak,
      decide_eq_true_eq]

/-- What is read of a text is a tiling of it, seen together with what was read before. -/
theorem tiled_scanFrom (file : Option Text) (done t : Text) :
    Tiled (done ++ t) done.length (scanFrom file (Position.start.advance done) t).1 := by
  rcases scanFrom_cases t with hf | ⟨blank, hb, hd⟩ |
    ⟨blank, c, rest, content, further, hb, hd, hc⟩
  · obtain ⟨m, q, u, hf⟩ := hf file (Position.start.advance done)
    rw [hf]
    trivial
  · have hgap := Trivia.gap_of_size hb
    rw [hd] at hgap
    have hstands := after_stands file done (t.take blank) [] [] .endOfInput hgap
    have htext : t.take blank = t := List.take_of_length_le (List.drop_eq_nil_iff.1 hd)
    rw [List.append_nil, List.append_nil, htext] at hstands
    rw [scanFrom_of_end hb hd, htext]
    exact ⟨hstands, trivial⟩
  · have hlexeme : c :: rest.take further ++ rest.drop further = t.drop blank := by
      rw [hd, List.cons_append, List.take_append_drop]
    have hstands := after_stands file done (t.take blank) (c :: rest.take further)
      (rest.drop further) content (hlexeme ▸ Trivia.gap_of_size hb)
    have hrest := tiled_scanFrom file (done ++ t.take blank ++ c :: rest.take further)
      (rest.drop further)
    have hsource : done ++ t.take blank ++ c :: rest.take further ++ rest.drop further =
        done ++ t := by
      rw [List.append_assoc, hlexeme, List.append_assoc, List.take_append_drop]
    rw [hsource] at hstands hrest
    rw [scanFrom_of_token hb hd hc]
    refine ⟨hstands, ?_⟩
    rwa [after_stop, Position.offset_start_advance, ← Position.advance_append, ← List.append_assoc]
termination_by t.length
decreasing_by exact length_rest_lt hd

/-- The end of the input is empty and stands behind the text. -/
theorem scanFrom_endOfInput (file : Option Text) (p : Position) (t : Text) :
    ∀ k ∈ (scanFrom file p t).1, k.content = .endOfInput →
      k.lexeme = [] ∧ k.span.start = k.span.stop ∧ k.span.stop.offset = p.offset + t.length := by
  rcases scanFrom_cases t with hf | ⟨blank, hb, hd⟩ |
    ⟨blank, c, rest, content, further, hb, hd, hc⟩
  · obtain ⟨m, q, u, hf⟩ := hf file p
    rw [hf]
    simp
  · rw [scanFrom_of_end hb hd, List.take_of_length_le (List.drop_eq_nil_iff.1 hd)]
    simp [endAfter, Position.advance_offset]
  · have hlength : (t.take blank ++ c :: rest.take further).length +
        (rest.drop further).length = t.length := by
      rw [← List.length_append, List.append_assoc, List.cons_append, List.take_append_drop, ← hd,
        List.take_append_drop]
    have hrest := scanFrom_endOfInput file
      (p.advance (t.take blank ++ c :: rest.take further)) (rest.drop further)
    rw [Position.advance_offset, Nat.add_assoc, hlength] at hrest
    rw [scanFrom_of_token hb hd hc]
    exact List.forall_mem_cons.2 ⟨fun h => absurd h (scan_ne_endOfInput hc), hrest⟩
termination_by t.length
decreasing_by exact length_rest_lt hd

/-- The tokens of a source stand in it one behind the other, with nothing but spaces, line
comments and closed block comments between them. The last of them is the end of the input, an
empty one at the end of the source. -/
theorem tokenize_partition {source : Text} {tokens : List Token}
    (h : tokenize file source = .ok tokens) :
    Tiled source 0 tokens ∧
      ∃ ts finish, tokens = ts ++ [finish] ∧ (∀ k ∈ ts, k.content ≠ .endOfInput) ∧
        finish.content = .endOfInput ∧ finish.lexeme = [] ∧
        finish.span.start.offset = source.length ∧ finish.span.stop.offset = source.length := by
  have hscan := tokenize_eq_ok.1 h
  have htiled := tiled_scanFrom file [] source
  have hlast := scanFrom_endOfInput file Position.start source
  rw [Position.advance_nil, hscan] at htiled
  rw [hscan] at hlast
  refine ⟨htiled, ?_⟩
  obtain ⟨ts, finish, rfl, hfinish, htokens⟩ := tokenize_ended h
  obtain ⟨hlexeme, hplace, hstop⟩ := hlast finish (by simp) hfinish
  rw [Position.start, Nat.zero_add] at hstop
  exact ⟨ts, finish, rfl, htokens, hfinish, hlexeme, by rw [hplace, hstop], hstop⟩

/-- A text with a comment in a comment, a line break in it, and a comment at the end. -/
theorem tokenize_partition_commented :
    ∃ tokens, tokenize none "a /* b /* */\n */ + 'c' // d" = .ok tokens ∧
      tokens.map lexeme = [Text.ofString "a", Text.ofString "+", Text.ofString "'c'", []] ∧
      tokens.map afterBreak = [false, true, false, false] ∧
      Tiled "a /* b /* */\n */ + 'c' // d" 0 tokens ∧
      ∃ ts finish, tokens = ts ++ [finish] ∧ finish.span.stop.offset = 27 := by
  have hlexemes : ((tokenize none "a /* b /* */\n */ + 'c' // d").toOption.map fun tokens =>
      (tokens.map lexeme, tokens.map afterBreak)) =
      some ([Text.ofString "a", Text.ofString "+", Text.ofString "'c'", []],
        [false, true, false, false]) := by
    decide +kernel
  cases h : tokenize none "a /* b /* */\n */ + 'c' // d" with
  | error fault => rw [h] at hlexemes; cases hlexemes
  | ok tokens =>
    rw [h] at hlexemes
    obtain ⟨hlexeme, hbreak⟩ := Prod.mk.inj (Option.some.inj hlexemes)
    obtain ⟨htiled, ts, finish, htokens, -, -, -, -, hstop⟩ := tokenize_partition h
    exact ⟨tokens, rfl, hlexeme, hbreak, htiled, ts, finish, htokens, hstop⟩

end Token

end ScriptLang
