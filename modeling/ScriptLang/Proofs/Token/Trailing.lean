import ScriptLang.Proofs.Token.Escape
import ScriptLang.Proofs.Token.Lexeme
import ScriptLang.Proofs.Token.Numeral

/-!
# Separators at the end of numbers

A number with no mark of a base is refused if it ends with a separator, whether the separator
stands behind its whole part or behind its fraction (`Number.scan_trailing`). So a lexeme of a
number that ends with a separator begins with a mark (`Number.scan_last`).

Behind a mark the separators at the end are let through (`Number.scan_based`), and a separator
behind an exponent is no part of the number but begins a name (`Number.scan_scientific`).
`Token.tokenize_trailing` says this of sources.
-/

namespace ScriptLang

open CodePoint

namespace Number

variable {t m tail rest : Text} {c d : CodePoint} {content : Token.Content} {n base : Nat}

/-! ### Shapes of numbers -/

/-- A digit, and behind it digits and separators. -/
structure Digits (t : Text) : Prop where
  head : t.head?.any isDigit = true
  mem : ∀ c ∈ t, isDigitPart c = true

/-- A whole part, and perhaps a fraction, in front of a text that does not go on with them. -/
inductive Front : Text → Text → Prop
  | whole {whole tail : Text} (hwhole : Digits whole)
      (htail : ∀ c ∈ tail.head?, isDigitPart c = false)
      (hpoint : ∀ d u, tail = ofChar '.' :: d :: u → d.isDigit = false) : Front whole tail
  | fraction {whole fraction tail : Text} (hwhole : Digits whole) (hfraction : Digits fraction)
      (htail : ∀ c ∈ tail.head?, isDigitPart c = false) :
      Front (whole ++ ofChar '.' :: fraction) tail

/-- An exponent: its mark, perhaps a sign, and digits. -/
inductive Exponent : Text → Prop
  | plain {mark : CodePoint} {digits : Text} (hmark : isExponentMark mark = true)
      (hne : digits ≠ []) (hdigits : ∀ c ∈ digits, c.isDigit = true) : Exponent (mark :: digits)
  | signed {mark sign : CodePoint} {digits : Text} (hmark : isExponentMark mark = true)
      (hsign : isExponentSign sign = true) (hne : digits ≠ [])
      (hdigits : ∀ c ∈ digits, c.isDigit = true) : Exponent (mark :: sign :: digits)

/-- A text writes `n` behind the mark of a base. -/
inductive Based : Nat → Text → Prop
  | intro {base : Nat} {mark digits : Text} {ds : List Nat} (hbase : base ≠ 10)
      (hmark : mark ∈ Numeral.baseMarks base) (hdigits : Numeral.Writes ds digits)
      (hlt : ∀ d ∈ ds, d < base) : Based (Numeral.ofDigits base ds) (mark ++ digits)

/-- A text begins with the mark of a base. -/
def Marked (t : Text) : Prop :=
  ∃ base mark u, base ≠ 10 ∧ mark ∈ Numeral.baseMarks base ∧ t = mark ++ u

/-- The mark of a base is a zero and one of six letters. -/
theorem mem_letters_of_base? (h : base? c d ≠ none) :
    c = ofChar '0' ∧ d ∈ Text.ofString "xXoObB" := by
  by_contra hnot
  exact h (by simp_all [Text.ofString, base?])

theorem mem_baseMarks_of_base? (h : base? c d = some base) :
    base ≠ 10 ∧ [c, d] ∈ Numeral.baseMarks base := by
  have hall : ∀ e ∈ Text.ofString "xXoObB", ∀ b ∈ base? '0' e,
      b ≠ 10 ∧ [ofChar '0', e] ∈ Numeral.baseMarks b := by decide
  obtain ⟨rfl, hd⟩ := mem_letters_of_base? (by rw [h]; nofun)
  exact hall d hd base h

/-- What belongs to a decimal number marks no base. -/
theorem base?_eq_none (h : isDigitPart d = true ∨ d = ofChar '.' ∨ isExponentMark d = true) :
    base? c d = none := by
  have hletters : ∀ e ∈ Text.ofString "xXoObB",
      ¬(isDigitPart e = true ∨ e = ofChar '.' ∨ isExponentMark e = true) := by decide
  by_contra hne
  exact hletters d (mem_letters_of_base? hne).2 h

theorem scan_eq_scanDecimal (h : ∀ c d u, t = c :: d :: u → base? c d = none) :
    scan t = scanDecimal t := by
  match t with
  | [] => rfl
  | [c] => rfl
  | c :: d :: u =>
    rw [scan_cons_cons, h c d u rfl]
    rfl

theorem fractionSize_eq_zero (h : ∀ d u, t = ofChar '.' :: d :: u → d.isDigit = false) :
    fractionSize t = 0 := by
  unfold fractionSize
  split
  · next point d rest =>
    refine if_neg fun hpoint => ?_
    obtain ⟨hpoint, hd⟩ := Bool.and_eq_true_iff.1 hpoint
    rw [h d rest (by rw [of_decide_eq_true hpoint])] at hd
    cases hd
  · rfl

theorem Digits.cons (h : Digits t) : ∃ c u, t = c :: u ∧ c.isDigit = true := by
  cases t with
  | nil => exact absurd h.head (by simp)
  | cons c u => exact ⟨c, u, rfl, by simpa using h.head⟩

namespace Front

theorem cons (h : Front m tail) : ∃ c u, m = c :: u ∧ c.isDigit = true := by
  cases h with
  | whole hwhole => exact hwhole.cons
  | @fraction _ fraction _ hwhole =>
    obtain ⟨c, u, rfl, hc⟩ := hwhole.cons
    exact ⟨c, u ++ ofChar '.' :: fraction, rfl, hc⟩

/-- How the parts of a number are measured. -/
theorem sizes (h : Front m tail) :
    ∃ whole fraction, ((m ++ tail).takeWhile isDigitPart).length = whole ∧
      fractionSize ((m ++ tail).drop whole) = fraction ∧ whole + fraction = m.length := by
  cases h with
  | whole hwhole htail hpoint =>
    rw [takeWhile_append_of_head hwhole.mem htail]
    refine ⟨_, _, rfl, rfl, ?_⟩
    rw [List.drop_left, fractionSize_eq_zero hpoint, Nat.add_zero]
  | @fraction whole fraction tail hwhole hfraction htail =>
    have hrun : (whole ++ ofChar '.' :: fraction ++ tail).takeWhile isDigitPart = whole := by
      rw [List.append_assoc]
      exact takeWhile_append_of_head hwhole.mem (by rintro c ⟨⟩; decide)
    refine ⟨_, _, rfl, rfl, ?_⟩
    obtain ⟨d, u, rfl, hd⟩ := hfraction.cons
    have hfront := takeWhile_append_of_head hfraction.mem htail
    rw [hrun, List.append_assoc, List.drop_left, List.cons_append, List.cons_append, fractionSize,
      if_pos (by simp [hd]), ← List.cons_append, hfront]
    simp
    omega

/-- A whole part with or without a fraction begins with no mark of a base. -/
theorem scan_eq (h : Front m tail) (hnext : ∀ c, m = [c] → ∀ d ∈ tail.head?, base? c d = none) :
    scan (m ++ tail) = scanDecimal (m ++ tail) := by
  refine scan_eq_scanDecimal fun c d u hcons => ?_
  cases h with
  | whole hwhole =>
    obtain ⟨e, v, rfl, -⟩ := hwhole.cons
    cases v with
    | nil =>
      cases hcons
      exact hnext _ rfl _ rfl
    | cons f v =>
      cases hcons
      exact base?_eq_none (.inl (hwhole.mem _ (by simp)))
  | fraction hwhole =>
    obtain ⟨e, v, rfl, -⟩ := hwhole.cons
    cases v with
    | nil =>
      cases hcons
      exact base?_eq_none (.inr (.inl rfl))
    | cons f v =>
      cases hcons
      exact base?_eq_none (.inl (hwhole.mem _ (by simp)))

end Front

/-! ### Separators behind a whole part or a fraction -/

/-- A number without mark and exponent is refused if it ends with a separator. -/
theorem scan_trailing (h : Front m tail) (hmark : ∀ c ∈ tail.head?, isExponentMark c = false)
    (hlast : m.getLast? = some underscore) :
    scan (m ++ tail) = .error (refuse (m ++ tail) m.length (some .trailingSeparator)) := by
  have hdecimal : scan (m ++ tail) = scanDecimal (m ++ tail) := by
    refine h.scan_eq fun c hc => ?_
    obtain ⟨e, u, rfl, hdigit⟩ := h.cons
    -- a separator does not begin a number
    cases hc
    cases hlast
    exact absurd hdigit (by decide)
  obtain ⟨whole, fraction, hwhole, hfraction, hsize⟩ := h.sizes
  have hexponent : exponentSize tail = (0, 0) := by
    cases tail with
    | nil => rfl
    | cons c u => simp [exponentSize, hmark c rfl]
  rw [hdecimal, scanDecimal]
  dsimp only
  rw [hwhole, hfraction, hsize, List.drop_left, hexponent]
  simp only [Nat.add_zero, List.take_left, hlast]
  rfl

theorem scanDecimal_last (h : scanDecimal t = .ok (content, n)) :
    (t.take n).getLast? ≠ some underscore := by
  unfold scanDecimal at h
  dsimp only at h
  split at h
  · cases h
  · split at h
    · cases h
    · next hlast =>
      split at h
      · split at h
        · unfold integer at h
          split at h <;> cases h
          exact hlast
        · cases h
      · split at h <;> cases h
        exact hlast

/-- Only a number behind the mark of a base ends with a separator. -/
theorem scan_last (h : scan t = .ok (content, n))
    (hlast : (t.take n).getLast? = some underscore) : Marked (t.take n) := by
  by_cases hmarked : ∃ c d u base, t = c :: d :: u ∧ base? c d = some base
  · obtain ⟨c, d, u, base, rfl, hbase⟩ := hmarked
    rw [scan_cons_cons, hbase] at h
    obtain ⟨k, rfl⟩ := Nat.exists_eq_add_of_le' (scanMarked_take h).1
    obtain ⟨hne, hmark⟩ := mem_baseMarks_of_base? hbase
    exact ⟨base, [c, d], u.take k, hne, hmark, rfl⟩
  · rw [scan_eq_scanDecimal] at h
    · exact absurd hlast (scanDecimal_last h)
    · intro c d u hcons
      exact Option.eq_none_iff_forall_not_mem.2 fun base hbase =>
        hmarked ⟨c, d, u, base, hcons, hbase⟩

/-! ### Separators behind a mark or an exponent -/

theorem Based.cons (h : Based n t) : ∃ c u, t = c :: u ∧ c.isDigit = true := by
  obtain ⟨hbase, hmark, hdigits, hlt⟩ := h
  rcases mark_cases hmark with ⟨-, rfl⟩ | ⟨c, rfl, -, -⟩
  · exact absurd rfl hbase
  · exact ⟨_, _, rfl, by decide⟩

/-- Behind a number with a mark all separators are let through. -/
theorem scan_based {separators : Text} (h : Based n t)
    (hseparators : ∀ c ∈ separators, c = underscore)
    (hrest : ∀ c ∈ rest.head?, c.isAlphanumeric = false ∧ c ≠ underscore) :
    Counts (t ++ separators ++ rest) (t ++ separators).length n
      (scan (t ++ separators ++ rest)) := by
  obtain ⟨hbase, hmark, hdigits, hlt⟩ := h
  rcases mark_cases hmark with ⟨-, rfl⟩ | ⟨c, rfl, hsome, hle⟩
  · exact absurd rfl hbase
  · have hlength : [ofChar '0', c].length = 2 := rfl
    have hscan := scanMarked_separated hlength hle hdigits hlt hseparators hrest
    rw [← List.append_assoc] at hscan
    simp only [List.cons_append] at hscan ⊢
    rwa [scan_cons_cons, hsome]

theorem not_isExponentSign_of_isDigit (h : c.isDigit = true) : isExponentSign c = false := by
  have hsigns : ∀ e ∈ Text.ofString "+-", e.isDigit = false := by decide
  by_contra hc
  have hmem : c ∈ Text.ofString "+-" := by
    simpa [isExponentSign, Text.ofString, or_iff_not_imp_left] using hc
  rw [hsigns c hmem] at h
  cases h

/-- An exponent ends where its digits do. -/
theorem Exponent.measure (h : Exponent t) (hrest : ∀ c ∈ rest.head?, c.isDigit = false) :
    ∃ mark power, exponentSize (t ++ rest) = (mark, power) ∧ mark ≠ 0 ∧ power ≠ 0 ∧
      mark + power = t.length := by
  cases h with
  | @plain mark digits hmark hne hdigits =>
    obtain ⟨d, u, rfl⟩ := List.exists_cons_of_ne_nil hne
    have hsign := not_isExponentSign_of_isDigit (hdigits d (by simp))
    have hrun := takeWhile_append_of_head hdigits hrest
    refine ⟨1, (d :: u).length, ?_, by simp, by simp, by simp [Nat.add_comm]⟩
    rw [List.cons_append, exponentSize, if_pos hmark]
    dsimp only
    rw [List.cons_append, List.head?_cons, Option.any_some, hsign, if_neg (by simp), List.drop_zero,
      ← List.cons_append, hrun]
  | @signed mark sign digits hmark hsign hne hdigits =>
    have hrun := takeWhile_append_of_head hdigits hrest
    refine ⟨2, digits.length, ?_, by simp, by simpa using hne, by simp; omega⟩
    rw [List.cons_append, exponentSize, if_pos hmark]
    dsimp only
    rw [List.cons_append, List.head?_cons, Option.any_some, hsign, if_pos rfl, List.drop_succ_cons,
      List.drop_zero, hrun]

theorem Exponent.head (h : Exponent t) : ∀ c ∈ (t ++ rest).head?, isExponentMark c = true := by
  cases h with
  | plain hmark => rintro _ ⟨⟩; exact hmark
  | signed hmark => rintro _ ⟨⟩; exact hmark

theorem Exponent.last (h : Exponent t) (m : Text) : (m ++ t).getLast? ≠ some underscore := by
  have hdigits : ∃ u digits, t = u ++ digits ∧ digits ≠ [] ∧ ∀ c ∈ digits, c.isDigit = true := by
    cases h with
    | plain _ hne hdigits => exact ⟨[_], _, rfl, hne, hdigits⟩
    | signed _ _ hne hdigits => exact ⟨[_, _], _, rfl, hne, hdigits⟩
  obtain ⟨u, digits, rfl, hne, hdigits⟩ := hdigits
  intro hlast
  rw [← List.append_assoc, List.getLast?_append, List.getLast?_eq_some_getLast hne] at hlast
  have hdigit := hdigits _ (List.getLast_mem hne)
  rw [Option.some.inj hlast] at hdigit
  cases hdigit

/-- A number with an exponent is a float that ends with the digits of the exponent, or it is
refused. -/
theorem scan_scientific {power : Text} (h : Front m (power ++ rest)) (hpower : Exponent power)
    (hrest : ∀ c ∈ rest.head?, c.isDigit = false) :
    (∃ x, scan (m ++ (power ++ rest)) = .ok (.float x, (m ++ power).length)) ∨
      ∃ flaw, scan (m ++ (power ++ rest)) =
        .error (refuse (m ++ (power ++ rest)) (m ++ power).length flaw) := by
  have hdecimal : scan (m ++ (power ++ rest)) = scanDecimal (m ++ (power ++ rest)) :=
    h.scan_eq fun c _ d hd => base?_eq_none (.inr (.inr (hpower.head d hd)))
  obtain ⟨whole, fraction, hwhole, hfraction, hsize⟩ := h.sizes
  obtain ⟨mark, digits, hexponent, hmark, hdigits, hlength⟩ := hpower.measure hrest
  have htotal : m.length + mark + digits = (m ++ power).length := by
    rw [List.length_append, ← hlength, Nat.add_assoc]
  have hfront : (m ++ (power ++ rest)).take (m ++ power).length = m ++ power := by
    rw [← List.append_assoc, List.take_left]
  rw [hdecimal, scanDecimal]
  dsimp only
  rw [hwhole, hfraction, hsize, List.drop_left, hexponent]
  dsimp only
  rw [htotal, if_neg (by simp [hdigits]), hfront, if_neg (hpower.last m), if_neg (by simp [hmark])]
  split
  · exact .inl ⟨_, rfl⟩
  · exact .inr ⟨_, rfl⟩

end Number

/-! ### Numbers of a source -/

namespace Token

variable {file : Option Text} {source t done done' ahead ahead' before rest : Text}
  {c : CodePoint} {content : Content} {further : Nat}

/-- A token is read from the lexeme behind `before`. -/
def Finds (file : Option Text) (source before lexeme : Text) (content : Content) : Prop :=
  ∃ k ∈ (scanAll file source).1, k.content = content ∧ k.lexeme = lexeme ∧
    k.span = ⟨file, Position.start.advance before, Position.start.advance (before ++ lexeme)⟩

/-- The source is refused for the lexeme behind `before`, which is no number. -/
def RefusesNumber (file : Option Text) (source before lexeme : Text) : Prop :=
  ∃ fault, tokenize file source = .error fault ∧ fault.cause.code = "E005" ∧
    fault.span = ⟨file, Position.start.advance before, Position.start.advance (before ++ lexeme)⟩

theorem Comes.trans (h : Comes t done ahead) (h' : Comes ahead done' ahead') :
    Comes t (done ++ done') ahead' := by
  induction h with
  | here => exact h'
  | behind hblank hdrop hscan _ ih =>
    rw [List.append_assoc]
    exact .behind hblank hdrop hscan (ih h')

/-- The tokens behind a place that the scanner comes to are among all. -/
theorem mem_of_comes (h : Comes t done ahead) {p : Position} {k : Token}
    (hk : k ∈ (scanFrom file (p.advance done) ahead).1) : k ∈ (scanFrom file p t).1 := by
  induction h generalizing p with
  | here => exact hk
  | behind hblank hdrop hscan _ ih =>
    rw [scanFrom_of_token hblank hdrop hscan]
    rw [Position.advance_append] at hk
    exact List.mem_cons_of_mem _ (ih hk)

/-- What the scanner reads where it meets it is a token, and behind it the scanner goes on. -/
theorem finds_of_meets (file : Option Text) (h : Meets source before (c :: rest))
    (hscan : scan c rest = .ok (content, further)) :
    Finds file source before (c :: rest.take further) content ∧
      Comes source (before ++ c :: rest.take further) (rest.drop further) := by
  obtain @⟨done, behind, _, blank, hcomes, hblank, hdrop⟩ := h
  have hbehind : Comes behind _ _ := .behind hblank hdrop hscan .here
  rw [List.append_nil] at hbehind
  refine ⟨?_, by rw [List.append_assoc]; exact hcomes.trans hbehind⟩
  refine ⟨after file (Position.start.advance done) (behind.take blank) (c :: rest.take further)
    content, mem_of_comes hcomes ?_, rfl, rfl, ?_⟩
  · rw [scanFrom_of_token hblank hdrop hscan]
    exact List.mem_cons_self
  · simp only [Position.advance_append]
    rfl

/-- A number that the scanner meets is a token, and behind it the scanner goes on. -/
theorem finds_of_scan {number : Text} (file : Option Text)
    (h : Meets source before (number ++ rest))
    (hdigit : ∃ c u, number = c :: u ∧ c.isDigit = true)
    (hscan : Number.scan (number ++ rest) = .ok (content, number.length)) :
    Finds file source before number content ∧ Comes source (before ++ number) rest := by
  obtain ⟨c, u, rfl, hc⟩ := hdigit
  have hword : scan c (u ++ rest) = .ok (content, u.length) := by
    rw [scan_of_isDigit hc, ← List.cons_append, hscan]
    rfl
  have hfinds := finds_of_meets file h hword
  have htake : (u ++ rest).take u.length = u := List.take_left
  have hdrop : (u ++ rest).drop u.length = rest := List.drop_left
  rwa [List.append_eq, htake, hdrop] at hfinds

theorem span_refuse (number rest : Text) (flaw : Option NumberFlaw) (file : Option Text)
    (p : Position) :
    ((Number.refuse (number ++ rest) number.length flaw).fault file p (number ++ rest)).span =
      ⟨file, p, p.advance number⟩ := by
  simp [Misread.fault, Number.refuse]

/-- A number that is refused where the scanner meets it stops the scanner there. -/
theorem refusesNumber_of_scan {number : Text} {flaw : Option NumberFlaw} (file : Option Text)
    (h : Meets source before (number ++ rest))
    (hdigit : ∃ c u, number = c :: u ∧ c.isDigit = true)
    (hscan : Number.scan (number ++ rest) =
      .error (Number.refuse (number ++ rest) number.length flaw)) :
    RefusesNumber file source before number := by
  obtain ⟨c, u, rfl, hc⟩ := hdigit
  have hword : scan c (u ++ rest) =
      .error (Number.refuse (c :: u ++ rest) (c :: u).length flaw) := by
    rw [scan_of_isDigit hc, ← List.cons_append, hscan]
    rfl
  have hfault := scanFrom_of_meets h hword file Position.start
  obtain ⟨fault, htokenize, hcause, hspan⟩ := tokenize_of_scanFrom (Prod.ext rfl hfault)
  refine ⟨fault, htokenize, by rw [hcause]; rfl, ?_⟩
  rw [hspan, Position.advance_append]
  exact span_refuse (c :: u) rest flaw file _

/-- A separator that does not stand in a number begins a name. -/
theorem scan_underscore (t : Text) :
    ∃ name, scan Number.underscore t =
      .ok (.identifier (Number.underscore :: t.take name), name) := by
  have hwords : ∀ k ∈ Keyword.all, k.spelling.head? ≠ some Number.underscore := by decide
  have hname : ∀ u, Keyword.ofText? (Number.underscore :: u) = none := by
    refine fun u => Option.eq_none_iff_forall_ne_some.2 fun k hk => ?_
    refine hwords k k.mem_all ?_
    rw [Keyword.spelling_of_ofText? hk]
    rfl
  generalize hrun : t.takeWhile (fun d => d.isAlphanumeric || d = Number.underscore) = run
  have htake : t.take run.length = run := by
    rw [← hrun]
    exact (List.prefix_iff_eq_take.1 (List.takeWhile_prefix _)).symm
  refine ⟨run.length, ?_⟩
  rw [scan, if_neg (by decide), if_neg (by decide), if_pos (by decide)]
  simp only [scanWord, hrun, hname, htake]

theorem scanWord_kind (c : CodePoint) (t : Text) :
    (scanWord c t).1.kind ≠ .integer ∧ (scanWord c t).1.kind ≠ .float := by
  unfold scanWord
  dsimp only
  split <;> exact ⟨nofun, nofun⟩

theorem scanSign?_kind (h : scanSign? c t = some (content, further)) :
    content.kind ≠ .integer ∧ content.kind ≠ .float := by
  unfold scanSign? at h
  dsimp only at h
  split at h
  · cases h
    exact ⟨nofun, nofun⟩
  · obtain ⟨s, -, hs⟩ := Option.map_eq_some_iff.1 h
    cases hs
    exact ⟨nofun, nofun⟩

/-- A token of a number is read as a number. -/
theorem number_of_scan (h : scan c t = .ok (content, further))
    (hkind : content.kind = .integer ∨ content.kind = .float) :
    Number.scan (c :: t) = .ok (content, further + 1) := by
  by_cases hdigit : c.isDigit = true
  · rw [scan_of_isDigit hdigit] at h
    cases hn : Number.scan (c :: t) with
    | error m => rw [hn] at h; cases h
    | ok x =>
      obtain ⟨content', size⟩ := x
      rw [hn] at h
      cases h
      cases size with
      | zero =>
        have hnil := Number.scan_take hn
        rw [List.take_zero, Number.scan_nil] at hnil
        cases hnil
      | succ n => rfl
  · exfalso
    unfold scan at h
    rw [if_neg hdigit] at h
    split at h
    · unfold StringLiteral.scan at h
      split at h <;> cases h
      exact hkind.elim nofun nofun
    · split at h
      · have hword := scanWord_kind c t
        rw [Except.ok.inj h] at hword
        exact hkind.elim hword.1 hword.2
      · split at h <;> cases h
        next hsign => exact hkind.elim (scanSign?_kind hsign).1 (scanSign?_kind hsign).2

/-- A token of a number that ends with a separator begins with the mark of a base. -/
theorem marked_of_mem {k : Token} (hk : k ∈ (scanAll file source).1)
    (hkind : k.kind = .integer ∨ k.kind = .float)
    (hlast : k.lexeme.getLast? = some Number.underscore) : Number.Marked k.lexeme := by
  have hne : k.content ≠ .endOfInput := by
    intro hend
    rw [kind, hend] at hkind
    rcases hkind with h | h <;> cases h
  obtain ⟨before, c, rest, further, -, hscan, hlexeme, -⟩ := meets_of_mem hk hne
  rw [hlexeme, ← List.take_succ_cons] at hlast ⊢
  exact Number.scan_last (number_of_scan hscan hkind) hlast

/-- A number without mark and exponent stops the scanner if it ends with a separator. -/
theorem refusesNumber_of_front (file : Option Text) {number : Text}
    (h : Meets source before (number ++ rest)) (hfront : Number.Front number rest)
    (hmark : ∀ c ∈ rest.head?, Number.isExponentMark c = false)
    (hlast : number.getLast? = some Number.underscore) : RefusesNumber file source before number :=
  refusesNumber_of_scan file h hfront.cons (Number.scan_trailing hfront hmark hlast)

/-- A number with a mark is a token together with all separators behind it. -/
theorem finds_of_based (file : Option Text) {n : Nat} {number separators : Text}
    (h : Meets source before (number ++ separators ++ rest)) (hbased : Number.Based n number)
    (hseparators : ∀ c ∈ separators, c = Number.underscore)
    (hrest : ∀ c ∈ rest.head?, c.isAlphanumeric = false ∧ c ≠ Number.underscore) :
    if n ≤ Number.maxInteger then Finds file source before (number ++ separators) (.integer n)
    else RefusesNumber file source before (number ++ separators) := by
  have hdigit : ∃ c u, number ++ separators = c :: u ∧ c.isDigit = true := by
    obtain ⟨c, u, rfl, hc⟩ := hbased.cons
    exact ⟨c, u ++ separators, rfl, hc⟩
  have hcounts := Number.scan_based hbased hseparators hrest
  unfold Number.Counts at hcounts
  split <;> rename_i hle
  · rw [if_pos hle] at hcounts
    exact (finds_of_scan file h hdigit hcounts).1
  · rw [if_neg hle] at hcounts
    obtain ⟨flaw, hrefuse⟩ := hcounts
    exact refusesNumber_of_scan file h hdigit hrefuse

/-- A number with an exponent is a token, if it is not refused, and the separator behind it begins
the next one. -/
theorem finds_of_exponent (file : Option Text) {front power : Text}
    (h : Meets source before (front ++ (power ++ Number.underscore :: rest)))
    (hfront : Number.Front front (power ++ Number.underscore :: rest))
    (hpower : Number.Exponent power) :
    RefusesNumber file source before (front ++ power) ∨
      (∃ x, Finds file source before (front ++ power) (.float x)) ∧
      ∃ name, Finds file source (before ++ (front ++ power)) (Number.underscore :: name)
        (.identifier (Number.underscore :: name)) := by
  have hdigit : ∃ c u, front ++ power = c :: u ∧ c.isDigit = true := by
    obtain ⟨c, u, rfl, hc⟩ := hfront.cons
    exact ⟨c, u ++ power, rfl, hc⟩
  have hscan := Number.scan_scientific hfront hpower (by rintro c ⟨⟩; decide)
  rw [← List.append_assoc] at h hscan
  rcases hscan with ⟨x, hscan⟩ | ⟨flaw, hscan⟩
  · obtain ⟨hfinds, hcomes⟩ := finds_of_scan file h hdigit hscan
    obtain ⟨size, hname⟩ := scan_underscore rest
    have hnext : Meets source (before ++ (front ++ power)) (Number.underscore :: rest) := by
      have hblank := Trivia.size_of_word (c := Number.underscore) (by decide) rest
      simpa using Meets.intro hcomes hblank rfl
    exact .inr ⟨⟨x, hfinds⟩, _, (finds_of_meets file hnext hname).1⟩
  · exact .inl (refusesNumber_of_scan file h hdigit hscan)

/-- A number with a separator at its end is refused where the scanner meets it, unless it has the
mark of a base or an exponent. Behind a mark the separators belong to the token. An exponent ends
the number, and the separator behind it begins a name. -/
theorem tokenize_trailing (file : Option Text) (source : Text) :
    (∀ k ∈ (scanAll file source).1, k.kind = .integer ∨ k.kind = .float →
      k.lexeme.getLast? = some Number.underscore → Number.Marked k.lexeme) ∧
    ∀ before,
      (∀ number rest, Meets source before (number ++ rest) → Number.Front number rest →
        (∀ c ∈ rest.head?, Number.isExponentMark c = false) →
        number.getLast? = some Number.underscore → RefusesNumber file source before number) ∧
      (∀ n number separators rest, Meets source before (number ++ separators ++ rest) →
        Number.Based n number → (∀ c ∈ separators, c = Number.underscore) →
        (∀ c ∈ rest.head?, c.isAlphanumeric = false ∧ c ≠ Number.underscore) →
        if n ≤ Number.maxInteger then Finds file source before (number ++ separators) (.integer n)
        else RefusesNumber file source before (number ++ separators)) ∧
      ∀ front power rest, Meets source before (front ++ (power ++ Number.underscore :: rest)) →
        Number.Front front (power ++ Number.underscore :: rest) → Number.Exponent power →
        RefusesNumber file source before (front ++ power) ∨
          (∃ x, Finds file source before (front ++ power) (.float x)) ∧
          ∃ name, Finds file source (before ++ (front ++ power)) (Number.underscore :: name)
            (.identifier (Number.underscore :: name)) :=
  ⟨fun _ hk hkind hlast => marked_of_mem hk hkind hlast, fun _ =>
    ⟨fun _ _ h hfront hmark hlast => refusesNumber_of_front file h hfront hmark hlast,
      fun _ _ _ _ h hbased hseparators hrest => finds_of_based file h hbased hseparators hrest,
      fun _ _ _ h hfront hpower => finds_of_exponent file h hfront hpower⟩⟩

/-- A separator behind a fraction, separators behind binary digits, and one behind an exponent. -/
theorem tokenize_trailing_each :
    RefusesNumber none "1_0.5_" [] "1_0.5_" ∧
      (∃ k ∈ (scanAll none "0b1__").1, k.lexeme = "0b1__" ∧ Number.Marked k.lexeme) ∧
      (∃ x, Finds none "1e5_" [] "1e5" (.float x)) ∧
      ∃ name, Finds none "1e5_" "1e5" (Number.underscore :: name)
        (.identifier (Number.underscore :: name)) := by
  have hmeets : ∀ t : Text, (∀ c ∈ t.head?, c ∉ Text.ofString " \t\r\n#/") → Meets t [] t := by
    intro t hhead
    cases t with
    | nil => exact .intro .here Trivia.size_nil rfl
    | cons c u => exact .intro .here (Trivia.size_of_word (hhead c rfl) u) rfl
  have hdigits : Number.Digits "1_0" ∧ Number.Digits "5_" ∧ Number.Digits "1" :=
    ⟨⟨by decide, by decide⟩, ⟨by decide, by decide⟩, ⟨by decide, by decide⟩⟩
  have hfraction : Number.Front "1_0.5_" [] := .fraction hdigits.1 hdigits.2.1 nofun
  have hbinary : Number.Based 1 "0b1" := by
    have hmark : Text.ofString "0b" ∈ Numeral.baseMarks 2 := by decide
    have hone : Numeral.Writes [1] "1" := .last (by decide)
    exact .intro (by decide) hmark hone (by decide)
  have hwhole : Number.Front "1" "e5_" :=
    .whole hdigits.2.2 (by decide) fun d u h => absurd (List.cons.inj h).1 (by decide)
  have hexponent : Number.Exponent "e5" := .plain (by decide) (by decide) (by decide)
  refine ⟨?_, ?_, ?_⟩
  · exact ((tokenize_trailing none "1_0.5_").2 []).1 "1_0.5_" [] (hmeets _ (by decide)) hfraction
      nofun rfl
  · obtain ⟨hmarked, hnumbers⟩ := tokenize_trailing none "0b1__"
    obtain ⟨k, hk, hcontent, hlexeme, -⟩ := (hnumbers []).2.1 1 "0b1" "__" [] (hmeets _ (by decide))
      hbinary (by decide) nofun
    refine ⟨k, hk, hlexeme, hmarked k hk (.inl (by rw [kind, hcontent]; rfl)) ?_⟩
    rw [hlexeme]
    rfl
  · refine (((tokenize_trailing none "1e5_").2 []).2.2 "1" "e5" [] (hmeets _ (by decide)) hwhole
      hexponent).resolve_left ?_
    have hok : (tokenize none "1e5_").isOk = true := by decide +kernel
    rintro ⟨fault, htokenize, -⟩
    rw [htokenize] at hok
    cases hok

/-- A number behind a mark keeps the separator at its end. -/
theorem not_tokenize_trailing :
    ¬∀ (source : Text) (tokens : List Token), tokenize none source = .ok tokens →
      ∀ k ∈ tokens, k.kind = .integer ∨ k.kind = .float →
        k.lexeme.getLast? ≠ some Number.underscore := by
  intro hclaim
  have hlasts : ((tokenize none "0x1_").toOption.map fun tokens =>
      tokens.map fun k => (k.kind, k.lexeme.getLast?)) =
      some [(.integer, some Number.underscore), (.endOfInput, none)] := by
    decide +kernel
  cases h : tokenize none "0x1_" with
  | error fault => rw [h] at hlasts; cases hlasts
  | ok tokens =>
    rw [h] at hlasts
    have hpairs : (tokens.map fun k => (k.kind, k.lexeme.getLast?)) =
        [(.integer, some Number.underscore), (.endOfInput, none)] := Option.some.inj hlasts
    obtain ⟨k, hk, hpair⟩ := List.mem_map.1 (hpairs ▸ List.mem_cons_self)
    obtain ⟨hkind, hlast⟩ := Prod.mk.inj hpair
    exact hclaim _ tokens h k hk (.inl hkind) hlast

end Token

end ScriptLang
