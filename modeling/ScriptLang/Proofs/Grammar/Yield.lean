import ScriptLang.Proofs.Grammar.Joined
import ScriptLang.Proofs.Grammar.Written

/-!
# Parsers on words

`ParserState.atWords` is a state in which nothing but the contents of the tokens ahead is
left of them: they stand nowhere, and all on one line. What is read from it has no spans
either.

`Parser.Yields p cs a ds` says that `p` reads the words `cs` up to `ds` and finds `a`; the
combinators of parsers have one rule each.

`Apart level cs` says that no word in front of `cs` takes what stands before it as an
operand of level `level` or above.
-/

namespace ScriptLang

open Token (Content)

/-- A token that says `c`, at no place. -/
def Token.plain (c : Content) : Token := ⟨c, [], .nowhere, false⟩

namespace ParserState

/-- The state before words, with a number of brackets open. -/
def atWords (cs : List Content) (n : Nat) : ParserState :=
  ⟨cs.map Token.plain, Token.plain .endOfInput, Position.start, n⟩

variable {cs : List Content} {n : Nat}

theorem skip_atWords_cons (c : Content) : (atWords (c :: cs) n).skip = atWords cs n := rfl

theorem kind_atWords : (atWords cs n).current.kind = headKind cs := by
  cases cs <;> rfl

theorem onSameLine_atWords : (atWords cs n).onSameLine = true := by
  cases cs <;> simp [onSameLine, current, atWords, Token.plain]

theorem ended_atWords (h : Words cs) : (atWords cs n).Ended := by
  refine ⟨rfl, fun t ht => ?_⟩
  obtain ⟨c, hc, rfl⟩ := List.mem_map.1 ht
  exact h c hc

end ParserState

open ParserState

namespace Parser

variable {α β : Type} {p : Parser α} {f : α → Parser β} {a : α} {b : β} {c : Content}
  {cs ds es : List Content} {k : TokenKind}

/-- A parser reads the words `cs` up to `ds` and finds `a`, whatever brackets are open. -/
def Yields (p : Parser α) (cs : List Content) (a : α) (ds : List Content) : Prop :=
  ∀ n, p.run (atWords cs n) = .ok (a, atWords ds n)

namespace Yields

theorem pure (a : α) (cs : List Content) : Yields (pure a) cs a cs :=
  fun _ => rfl

theorem pure_of_eq {a' : α} (h : a' = a) (cs : List Content) :
    Yields (Pure.pure a') cs a cs :=
  h ▸ pure a' cs

theorem bind (h : Yields p cs a ds) (h' : Yields (f a) ds b es) : Yields (p >>= f) cs b es :=
  fun n => by rw [run_bind_of_ok (h n), h' n]

theorem map (h : Yields p cs a ds) (g : α → β) : Yields (g <$> p) cs (g a) ds :=
  fun n => run_map_eq_ok.2 ⟨a, h n, rfl⟩

theorem ite_pos {P : Prop} [Decidable P] {q : Parser α} (hP : P) (h : Yields p cs a ds) :
    Yields (if P then p else q) cs a ds := by
  rwa [if_pos hP]

theorem ite_neg {P : Prop} [Decidable P] {q : Parser α} (hP : ¬ P) (h : Yields q cs a ds) :
    Yields (if P then p else q) cs a ds := by
  rwa [if_neg hP]

theorem kind_bind {f : TokenKind → Parser β} (h : Yields (f (headKind cs)) cs b ds) :
    Yields (kind >>= f) cs b ds :=
  fun n => by rw [run_kind_bind, kind_atWords, h n]

theorem onSameLine_bind {f : Bool → Parser β} (h : Yields (f true) cs b ds) :
    Yields (onSameLine >>= f) cs b ds :=
  fun n => by rw [run_onSameLine_bind, onSameLine_atWords, h n]

theorem current_bind {f : Token → Parser β} (h : Yields (f (Token.plain c)) (c :: cs) b ds) :
    Yields (current >>= f) (c :: cs) b ds :=
  h

theorem advance_bind {f : Token → Parser β} (h : Yields (f (Token.plain c)) cs b ds) :
    Yields (advance >>= f) (c :: cs) b ds :=
  h

theorem advance_seq (h : Yields p cs a ds) : Yields (advance *> p) (c :: cs) a ds :=
  h

theorem spanFrom_bind {f : Span → Parser β} (h : Yields (f .nowhere) cs b ds) :
    Yields (spanFrom .nowhere >>= f) cs b ds :=
  h

theorem expect_bind {f : Token → Parser β} (e : Expectation) (h : c.kind = k)
    (h' : Yields (f (Token.plain c)) cs b ds) : Yields (expect k e >>= f) (c :: cs) b ds :=
  fun n => by rw [run_bind_of_ok (run_expect_of_eq (s := atWords (c :: cs) n) h e)]; exact h' n

theorem expect_sign {f : Token → Parser β} {x : Sign} {e : Expectation}
    (h : Yields (f (Token.plain (.sign x))) cs b ds) :
    Yields (expect (.sign x) e >>= f) (.sign x :: cs) b ds :=
  expect_bind e rfl h

theorem expect_keyword {f : Token → Parser β} {word : Keyword} {e : Expectation}
    (h : Yields (f (Token.plain (.keyword word))) cs b ds) :
    Yields (expect (.keyword word) e >>= f) (.keyword word :: cs) b ds :=
  expect_bind e rfl h

theorem expectName_bind {f : Text → Parser β} {name : Text} (e : Expectation)
    (h : Yields (f name) cs b ds) :
    Yields (expectName e >>= f) (.identifier name :: cs) b ds :=
  h

theorem accept_of_eq {f : Bool → Parser β} (h : c.kind = k) (h' : Yields (f true) cs b ds) :
    Yields (accept k >>= f) (c :: cs) b ds :=
  fun n => by rw [run_accept_bind, kind_atWords, headKind_cons, if_pos h, skip_atWords_cons, h' n]

theorem accept_of_ne {f : Bool → Parser β} (h : headKind cs ≠ k)
    (h' : Yields (f false) cs b ds) : Yields (accept k >>= f) cs b ds :=
  fun n => by rw [run_accept_bind, kind_atWords, if_neg h, h' n]

theorem inBrackets (h : Yields p cs a ds) : Yields (inBrackets p) cs a ds :=
  fun n => run_inBrackets_eq_ok.2 ⟨_, h (n + 1), rfl⟩

theorem outsideBrackets (h : Yields p cs a ds) : Yields (outsideBrackets p) cs a ds :=
  fun _ => run_outsideBrackets_eq_ok.2 ⟨_, h 0, rfl⟩

theorem statementEnd : Yields statementEnd (.sign .semicolon :: cs) () cs :=
  fun _ => rfl

theorem atStatementEnd_bind {f : Bool → Parser β} {closed : Bool}
    (hclosed : closed = (headKind cs = .sign .semicolon || headKind cs = .sign .rightBrace ||
      headKind cs = .endOfInput)) (h : Yields (f closed) cs b ds) :
    Yields (atStatementEnd >>= f) cs b ds := by
  intro n
  have hbreak : (atWords cs n).current.afterBreak = false := by cases cs <;> rfl
  rw [run_atStatementEnd_bind, endsStatement, kind_atWords, hbreak, Bool.or_false, ← hclosed, h n]

theorem loop_done {turn : α → Parser (Turn α)} {x y : α} (ht : Advances turn) (hcs : Words cs)
    (h : Yields (turn x) cs (.done y) ds) : Yields (loop turn x) cs y ds :=
  fun n => run_loop_of_done ht (ended_atWords hcs) (h n)

theorem loop_again {turn : α → Parser (Turn α)} {x y z : α} (ht : Advances turn)
    (hcs : Words cs) (h : Yields (turn x) cs (.again y) ds) (h' : Yields (loop turn y) ds z es) :
    Yields (loop turn x) cs z es :=
  fun n => by rw [run_loop_of_again ht (ended_atWords hcs) (h n), h' n]

end Yields

end Parser

/-! ### What stands behind an operand -/

/-- The level from which on a word takes the operand before it. -/
def TokenKind.binding? : TokenKind → Option Nat
  | .sign .assign => some 0
  | .sign .leftParen => some 9
  | .sign .leftBracket => some 9
  | .sign .plusPlus => some 9
  | .sign .minusMinus => some 9
  | k => (Connective.ofKind? k).map Connective.level

/-- The words behind an operand of some level do not go on with it. -/
structure Apart (level : Nat) (cs : List Content) : Prop where
  words : Words cs
  head : ∀ n ∈ (headKind cs).binding?, n < level

namespace Apart

variable {level : Nat} {cs : List Content}

theorem mono {level' : Nat} (h : Apart level cs) (hle : level ≤ level') : Apart level' cs :=
  ⟨h.words, fun n hn => Nat.lt_of_lt_of_le (h.head n hn) hle⟩

theorem of_none (hw : Words cs) (h : (headKind cs).binding? = none) : Apart level cs :=
  ⟨hw, fun n hn => by rw [h] at hn; cases hn⟩

theorem sign {x : Sign} (hx : (TokenKind.sign x).binding? = none) (hw : Words cs) :
    Apart level (.sign x :: cs) :=
  of_none (words_cons.2 ⟨nofun, hw⟩) hx

theorem connective (c : Connective) (hw : Words cs) (hlt : c.level < level) :
    Apart level (c.content :: cs) := by
  refine ⟨words_cons.2 ⟨c.content_ne_endOfInput, hw⟩, fun n hn => ?_⟩
  have hb : c.content.kind.binding? = some c.level := by
    rcases c with op | _
    · cases op <;> rfl
    · rfl
  rw [headKind_cons, hb] at hn
  cases hn
  exact hlt

theorem ne_assign (h : Apart 0 cs) : headKind cs ≠ .sign .assign :=
  fun hk => absurd (h.head 0 (by rw [hk]; rfl)) (by decide)

theorem level_lt (h : Apart level cs) {c : Connective}
    (hc : Connective.ofKind? (headKind cs) = some c) : c.level < level := by
  apply h.head c.level
  unfold TokenKind.binding?
  split
  case h_6 => rw [hc]; rfl
  all_goals next hk => rw [hk] at hc; cases hc

end Apart

end ScriptLang
