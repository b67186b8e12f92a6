import Mathlib.Algebra.Group.Nat.Defs
import Mathlib.Data.List.Forall2
import Mathlib.Data.List.TakeWhile
import ScriptLang.Proofs.Token.Alone

/-!
# Spelled integers

A natural number is spelled by the mark of a base and its digits in that base, with any number
of separators between two of them (`Numeral.Spells`). The scanner takes the whole spelling for
one integer of that value, or refuses it because the value is too large
(`Token.tokenize_numeral`).

What may stand behind a decimal integer is a matter of its own (`Number.Stops`): a point that
no digit follows does not belong to it.
-/

namespace ScriptLang

open CodePoint

/-! ### Spellings -/

namespace Numeral

/-- The signs that write a digit, letters in either case. -/
def digitSigns (d : Nat) : List CodePoint :=
  if d < 10 then [.ofNat (0x30 + d)] else [.ofNat (0x61 + (d - 10)), .ofNat (0x41 + (d - 10))]

/-- A text writes digits, with any number of separators between two of them. -/
inductive Writes : List Nat → Text → Prop
  | last {d : Nat} {c : CodePoint} (hc : c ∈ digitSigns d) : Writes [d] [c]
  | cons {d : Nat} {c : CodePoint} {ds : List Nat} {t : Text} (hc : c ∈ digitSigns d)
      (separators : Nat) (ht : Writes ds t) :
      Writes (d :: ds) (c :: (List.replicate separators Number.underscore ++ t))

/-- How the base of a numeral is marked. -/
def baseMarks : Nat → List Text
  | 2 => ["0b", "0B"]
  | 8 => ["0o", "0O"]
  | 10 => [[]]
  | 16 => ["0x", "0X"]
  | _ => []

/-- Digits with no zero in front but a zero alone. -/
def Leads (ds : List Nat) : Prop := ds.head? = some 0 → ds = [0]

/-- A text spells `n` in a base. -/
inductive Spells (base n : Nat) : Text → Prop
  | intro {mark digits : Text} {ds : List Nat} (hmark : mark ∈ baseMarks base)
      (hdigits : Writes ds digits) (hlt : ∀ d ∈ ds, d < base) (hlead : Leads ds)
      (hvalue : ofDigits base ds = n) : Spells base n (mark ++ digits)

theorem asciiDigitValue?_of_mem {d : Nat} (hd : d < 16) {c : CodePoint} (hc : c ∈ digitSigns d) :
    c.asciiDigitValue? = some d := by
  have hall : ∀ d < 16, ∀ c ∈ digitSigns d, c.asciiDigitValue? = some d := by decide
  exact hall d hd c hc

theorem decimalValue?_of_mem {d : Nat} (hd : d < 10) {c : CodePoint} (hc : c ∈ digitSigns d) :
    c.decimalValue? = some d := by
  have hall : ∀ d < 10, ∀ c ∈ digitSigns d, c.decimalValue? = some d := by decide
  exact hall d hd c hc

theorem isDigit_of_mem {d : Nat} (hd : d < 10) {c : CodePoint} (hc : c ∈ digitSigns d) :
    c.isDigit = true := by
  rw [isDigit, decimalValue?_of_mem hd hc, Option.isSome_some, Bool.true_or]

/-- A digit neither is a separator nor begins a blank. -/
theorem plain_of_mem {d : Nat} (hd : d < 16) {c : CodePoint} (hc : c ∈ digitSigns d) :
    c ≠ Number.underscore ∧ c ∉ Text.ofString " \t\r\n#/" := by
  have hall : ∀ d < 16, ∀ c ∈ digitSigns d,
      c ≠ Number.underscore ∧ c ∉ Text.ofString " \t\r\n#/" := by decide
  exact hall d hd c hc

theorem digitSign_mem {d : Nat} : digitSign d ∈ digitSigns d := by
  unfold digitSign digitSigns
  split <;> simp

namespace Writes

variable {ds : List Nat} {t : Text}

theorem ne_nil (h : Writes ds t) : ds ≠ [] ∧ t ≠ [] := by
  cases h <;> simp

/-- A number is written by digits and separators. -/
theorem mem (h : Writes ds t) : ∀ c ∈ t, c = Number.underscore ∨ ∃ d ∈ ds, c ∈ digitSigns d := by
  induction h with
  | last hc => simpa using .inr hc
  | @cons d _ ds t hc separators ht ih =>
    intro e he
    rw [List.mem_cons, List.mem_append] at he
    rcases he with rfl | he | he
    · exact .inr ⟨d, by simp, hc⟩
    · exact .inl (List.eq_of_mem_replicate he)
    · exact (ih e he).imp_right fun ⟨d', hd', he'⟩ => ⟨d', List.mem_cons_of_mem _ hd', he'⟩

theorem head (h : Writes ds t) : ∃ d ds' c t', ds = d :: ds' ∧ t = c :: t' ∧ c ∈ digitSigns d := by
  cases h with
  | last hc => exact ⟨_, _, _, _, rfl, rfl, hc⟩
  | cons hc separators ht => exact ⟨_, _, _, _, rfl, rfl, hc⟩

theorem getLast (h : Writes ds t) : ∃ d ∈ ds, ∃ c ∈ digitSigns d, t.getLast? = some c := by
  induction h with
  | last hc => exact ⟨_, by simp, _, hc, rfl⟩
  | cons hc separators ht ih =>
    obtain ⟨d, hd, c, hc, hlast⟩ := ih
    refine ⟨d, List.mem_cons_of_mem _ hd, c, hc, ?_⟩
    rw [← List.cons_append, List.getLast?_append, hlast]
    rfl

/-- Without the separators, sign stands by sign for the digits. -/
theorem bare (h : Writes ds t) (hlt : ∀ d ∈ ds, d < 16) :
    List.Forall₂ (fun d c => c ∈ digitSigns d) ds (Number.bare t) := by
  induction h with
  | last hc =>
    have hplain := (plain_of_mem (hlt _ (by simp)) hc).1
    simpa [Number.bare, hplain] using hc
  | cons hc separators ht ih =>
    have hplain := (plain_of_mem (hlt _ (by simp)) hc).1
    have hseparators :
        (List.replicate separators Number.underscore).filter (· ≠ Number.underscore) = [] := by
      simp
    rw [Number.bare, List.filter_cons_of_pos (by simpa using hplain), List.filter_append,
      hseparators, List.nil_append]
    exact .cons hc (ih fun d hd => hlt d (List.mem_cons_of_mem _ hd))

end Writes

theorem writes_map_digitSign : ∀ {ds : List Nat}, ds ≠ [] → Writes ds (ds.map digitSign)
  | [_], _ => .last digitSign_mem
  | _ :: e :: ds, _ => .cons digitSign_mem 0 (writes_map_digitSign (List.cons_ne_nil e ds))

theorem map_asciiDigitValue? {ds : List Nat} {t : Text} (hlt : ∀ d ∈ ds, d < 16)
    (h : List.Forall₂ (fun d c => c ∈ digitSigns d) ds t) :
    (t.map fun c => c.asciiDigitValue?.getD 0) = ds := by
  induction h with
  | nil => rfl
  | cons hc ht ih =>
    obtain ⟨hd, hds⟩ := List.forall_mem_cons.1 hlt
    rw [List.map_cons, asciiDigitValue?_of_mem hd hc, ih hds]
    rfl

theorem mapM_decimalValue? {ds : List Nat} {t : Text} (hlt : ∀ d ∈ ds, d < 10)
    (h : List.Forall₂ (fun d c => c ∈ digitSigns d) ds t) :
    t.mapM CodePoint.decimalValue? = some ds := by
  induction h with
  | nil => rfl
  | cons hc ht ih =>
    obtain ⟨hd, hds⟩ := List.forall_mem_cons.1 hlt
    rw [List.mapM_cons, decimalValue?_of_mem hd hc, ih hds]
    rfl

/-! ### The digits of a number spell it -/

theorem digitsOnto_lt {b : Nat} (hb : 2 ≤ b) {n : Nat} {low : List Nat} (hlow : ∀ d ∈ low, d < b) :
    ∀ d ∈ digitsOnto b n low, d < b := by
  fun_induction digitsOnto b n low with
  | case1 n low h => exact List.forall_mem_cons.2 ⟨by omega, hlow⟩
  | case2 n low h ih => exact ih (List.forall_mem_cons.2 ⟨Nat.mod_lt _ (by omega), hlow⟩)

/-- The greatest place of a number other than zero is not zero. -/
theorem digitsOnto_head {b : Nat} (hb : 2 ≤ b) {n : Nat} (hn : n ≠ 0) (low : List Nat) :
    ∃ d ds, digitsOnto b n low = d :: ds ∧ d ≠ 0 := by
  fun_induction digitsOnto b n low with
  | case1 n low h => exact ⟨n, low, rfl, hn⟩
  | case2 n low h ih =>
    exact ih (Nat.ne_of_gt (Nat.div_pos (Nat.le_of_not_lt fun hlt => h (.inl hlt)) (by omega)))

theorem digits_zero {b : Nat} (hb : 2 ≤ b) : digits b 0 = [0] := by
  rw [digits, digitsOnto, if_pos (.inl (by omega))]

/-- The digits of a number, each by its own sign, write it. -/
theorem writes_digits {b : Nat} (hb : 2 ≤ b) (n : Nat) :
    Writes (digits b n) ((digits b n).map digitSign) ∧ (∀ d ∈ digits b n, d < b) ∧
      Leads (digits b n) := by
  have hhead : digits b n ≠ [] ∧ Leads (digits b n) := by
    by_cases hn : n = 0
    · rw [hn, digits_zero hb]
      exact ⟨by simp, fun _ => rfl⟩
    · obtain ⟨d, ds, hds, hd⟩ := digitsOnto_head hb hn []
      rw [digits, hds]
      exact ⟨by simp, fun hzero => absurd (Option.some.inj hzero) hd⟩
  exact ⟨writes_map_digitSign hhead.1, digitsOnto_lt hb (List.forall_mem_nil _), hhead.2⟩

/-- Every number is spelled by its digits behind a mark of the base. -/
theorem spells_digits {b : Nat} {mark : Text} (hmark : mark ∈ baseMarks b) (n : Nat) :
    Spells b n (mark ++ (digits b n).map digitSign) := by
  have hb : 2 ≤ b := by
    unfold baseMarks at hmark
    split at hmark <;> simp at hmark ⊢
  obtain ⟨hwrites, hlt, hlead⟩ := writes_digits hb n
  exact .intro hmark hwrites hlt hlead (ofDigits_digits b n)

/-- A number with many digits is large. -/
theorem pow_le_ofDigits {b d : Nat} (hd : d ≠ 0) (ds : List Nat) :
    b ^ ds.length ≤ ofDigits b (d :: ds) := by
  rw [ofDigits_cons]
  exact Nat.le_trans (Nat.le_mul_of_pos_left _ (by omega)) (Nat.le_add_right _ _)

end Numeral

/-! ### Reading the digits -/

/-- A text of which a test holds ends where the text behind it begins with something else. -/
theorem takeWhile_append_of_head {α : Type} {p : α → Bool} {t u : List α}
    (ht : ∀ a ∈ t, p a = true) (hu : ∀ a ∈ u.head?, p a = false) : (t ++ u).takeWhile p = t := by
  have hstop : u.takeWhile p = [] := by
    cases u with
    | nil => rfl
    | cons a u => rw [List.takeWhile_cons_of_neg (by simp [hu a rfl])]
  rw [List.takeWhile_append_of_pos ht, hstop, List.append_nil]

namespace Number

open Numeral

variable {t rest : Text} {ds : List Nat}

theorem isAlphanumeric_of_isDigitOf {base : Nat} {c : CodePoint} (h : isDigitOf base c = true) :
    c.isAlphanumeric = true := by
  obtain ⟨d, hd, -⟩ := (Option.any_eq_true _ _).1 h
  unfold asciiDigitValue? at hd
  split at hd
  · next hdigit => exact isAlphanumeric_of_isDigit (isDigit_of_isAsciiDigit hdigit)
  · have hletter : c.isAsciiLetter = true := by
      unfold isAsciiLetter
      split at hd
      · next hsmall => rw [hsmall, Bool.true_or]
      · split at hd
        · next hcapital => rw [hcapital, Bool.or_true]
        · cases hd
    refine isAlphanumeric_of_isAlphabetic ?_
    rw [isAlphabetic, if_pos, hletter]
    simp only [isAsciiLetter, Bool.or_eq_true, Bool.and_eq_true, decide_eq_true_eq] at hletter
    omega

/-- The front of a text of a given size is read as the integer `n`, or refused if `n` is too
large. -/
def Counts (t : Text) (size n : Nat) (r : Except Misread (Token.Content × Nat)) : Prop :=
  if n ≤ maxInteger then r = .ok (.integer n, size) else ∃ flaw, r = .error (refuse t size flaw)

theorem integer_counts (t : Text) (size n : Nat) : Counts t size n (integer t size n) := by
  unfold Counts integer
  split
  · next hle => rw [if_neg (Nat.not_lt.2 hle)]
  · next hle => exact ⟨_, by rw [if_pos (Nat.lt_of_not_le hle)]⟩

/-- Digits behind a mark are read with all separators behind them, up to what may not stand in a
name. -/
theorem scanMarked_separated {base : Nat} {mark separators : Text} (hmark : mark.length = 2)
    (hbase : base ≤ 16) (h : Writes ds t) (hlt : ∀ d ∈ ds, d < base)
    (hseparators : ∀ c ∈ separators, c = underscore)
    (hrest : ∀ c ∈ rest.head?, c.isAlphanumeric = false ∧ c ≠ underscore) :
    Counts (mark ++ (t ++ separators) ++ rest) (mark ++ (t ++ separators)).length (ofDigits base ds)
      (scanMarked base (mark ++ (t ++ separators) ++ rest)) := by
  have hdigit : ∀ {d c}, d ∈ ds → c ∈ digitSigns d → isDigitOf base c = true := by
    intro d c hd hc
    have := hlt d hd
    rw [isDigitOf, asciiDigitValue?_of_mem (by omega) hc]
    simpa using this
  have hbody : (mark ++ (t ++ separators) ++ rest).drop 2 = t ++ separators ++ rest := by
    rw [List.append_assoc, ← hmark, List.drop_left]
  have hhead : (t ++ separators ++ rest).head?.any (isDigitOf base) = true := by
    obtain ⟨d, ds', c, t', rfl, rfl, hc⟩ := h.head
    exact hdigit (by simp) hc
  have hrun : (t ++ separators ++ rest).takeWhile
      (fun c => isDigitOf base c || c = underscore) = t ++ separators := by
    refine takeWhile_append_of_head (fun c hc => ?_) fun c hc => ?_
    · rcases List.mem_append.1 hc with hc | hc
      · rcases h.mem c hc with rfl | ⟨d, hd, hc⟩
        · simp
        · rw [hdigit hd hc, Bool.true_or]
      · simp [hseparators c hc]
    · obtain ⟨hplain, hne⟩ := hrest c hc
      have hforeign : isDigitOf base c = false := by
        by_contra hc
        rw [isAlphanumeric_of_isDigitOf (by simpa using hc)] at hplain
        cases hplain
      simp [hforeign, hne]
  have hjunk : rest.takeWhile isAlphanumeric = [] :=
    takeWhile_append_of_head (List.forall_mem_nil _) fun c hc => (hrest c hc).1
  have hbare : bare (t ++ separators) = bare t := by
    rw [bare, bare, List.filter_append, List.append_right_eq_self]
    exact List.filter_eq_nil_iff.2 fun c hc => by simp [hseparators c hc]
  have hlt' : ∀ d ∈ ds, d < 16 := fun d hd => Nat.lt_of_lt_of_le (hlt d hd) hbase
  unfold scanMarked
  dsimp only
  rw [hbody, hhead, hrun, List.drop_left, hjunk, hbare,
    map_asciiDigitValue? hlt' (h.bare hlt'), ← hmark, ← List.length_append]
  exact integer_counts _ _ _

theorem scanMarked_writes {base : Nat} {mark : Text} (hmark : mark.length = 2) (hbase : base ≤ 16)
    (h : Writes ds t) (hlt : ∀ d ∈ ds, d < base) :
    Counts (mark ++ t) (mark ++ t).length (ofDigits base ds) (scanMarked base (mark ++ t)) := by
  have hend : ∀ c ∈ ([] : Text).head?, c.isAlphanumeric = false ∧ c ≠ underscore := nofun
  simpa using scanMarked_separated hmark hbase h hlt (List.forall_mem_nil _) hend

/-- What does not go on a decimal integer. -/
structure Stops (rest : Text) : Prop where
  whole : rest.takeWhile isDigitPart = []
  fraction : fractionSize rest = 0
  exponent : exponentSize rest = (0, 0)
  mark : ∀ c ∈ rest.head?, base? '0' c = none

theorem stops_nil : Stops [] := ⟨rfl, rfl, rfl, nofun⟩

/-- An integer ends before two points. -/
theorem stops_points (t : Text) : Stops (ofChar '.' :: ofChar '.' :: t) where
  whole := by rw [List.takeWhile_cons_of_neg (by decide)]
  fraction := by rw [fractionSize, if_neg (by decide)]
  exponent := by simp [exponentSize, show isExponentMark '.' = false by decide]
  mark := by
    rintro c ⟨⟩
    decide

theorem scanDecimal_writes (h : Writes ds t) (hlt : ∀ d ∈ ds, d < 10) (hlead : Leads ds)
    (hrest : Stops rest) :
    Counts (t ++ rest) t.length (ofDigits 10 ds) (scanDecimal (t ++ rest)) := by
  have hlt' : ∀ d ∈ ds, d < 16 := fun d hd => Nat.lt_trans (hlt d hd) (by decide)
  have hwhole : (t ++ rest).takeWhile isDigitPart = t := by
    rw [List.takeWhile_append_of_pos, hrest.whole, List.append_nil]
    intro c hc
    rcases h.mem c hc with rfl | ⟨d, hd, hc⟩
    · rfl
    · rw [isDigitPart, isDigit_of_mem (hlt d hd) hc, Bool.true_or]
  have hlast : t.getLast? ≠ some underscore := by
    obtain ⟨d, hd, c, hc, hlast⟩ := h.getLast
    rw [hlast]
    exact fun heq => (plain_of_mem (hlt' d hd) hc).1 (Option.some.inj heq)
  have hbare := h.bare hlt'
  have hlength : (bare t).length = ds.length := hbare.length_eq.symm
  unfold scanDecimal
  dsimp only
  rw [hwhole, List.drop_left, hrest.fraction, Nat.add_zero, List.drop_left, hrest.exponent]
  dsimp only
  simp only [Nat.add_zero, List.take_left]
  rw [if_neg (by simp), if_neg hlast, if_pos (by simp), decimalInteger?]
  by_cases hmany : maxDigits < (bare t).length
  · -- the digits are too many to be read, but then the number is too large anyway
    have hlarge : maxInteger < ofDigits 10 ds := by
      obtain ⟨d, ds', c, t', rfl, -, -⟩ := h.head
      rw [hlength, List.length_cons, maxDigits] at hmany
      have hd : d ≠ 0 := by
        rintro rfl
        rw [(List.cons.inj (hlead rfl)).2] at hmany
        simp at hmany
      calc maxInteger < 10 ^ 19 := by decide
        _ ≤ 10 ^ ds'.length := Nat.pow_le_pow_right (by decide) (by omega)
        _ ≤ ofDigits 10 (d :: ds') := pow_le_ofDigits hd ds'
    rw [if_pos hmany, Counts, if_neg (Nat.not_le.2 hlarge)]
    exact ⟨_, rfl⟩
  · have hsome : (bare t).isEmpty = false := by
      rw [List.isEmpty_eq_false_iff, ← List.length_pos_iff, hlength, List.length_pos_iff]
      exact h.ne_nil.1
    rw [if_neg hmany, decimal?, hsome, mapM_decimalValue? hlt hbare]
    exact integer_counts _ _ _

/-- Decimal digits are read up to where they stop. -/
theorem scan_writes (h : Writes ds t) (hlt : ∀ d ∈ ds, d < 10) (hlead : Leads ds)
    (hrest : Stops rest) :
    Counts (t ++ rest) t.length (ofDigits 10 ds) (scan (t ++ rest)) := by
  suffices hscan : scan (t ++ rest) = scanDecimal (t ++ rest) by
    rw [hscan]
    exact scanDecimal_writes h hlt hlead hrest
  obtain ⟨d, ds', c, t', rfl, rfl, hc⟩ := h.head
  cases ht : t' ++ rest with
  | nil => rw [List.cons_append, ht]; rfl
  | cons e u =>
    have hnone : base? c e = none := by
      by_cases hzero : c = ofChar '0'
      · -- a zero in front is the only digit, so `e` stands behind the number
        have hvalue := decimalValue?_of_mem (hlt d (by simp)) hc
        rw [hzero] at hvalue
        obtain rfl : 0 = d := Option.some.inj hvalue
        cases hlead rfl
        cases h with
        | last => rw [hzero]; exact hrest.mark e (by rw [show rest = e :: u from ht]; rfl)
        | cons hc separators ht' => exact absurd rfl ht'.ne_nil.1
      · rw [base?, if_neg hzero]
    rw [List.cons_append, ht, scan_cons_cons, hnone]
    rfl

/-- A decimal number has no mark; a mark is a zero and a letter for the base. -/
theorem mark_cases {base : Nat} {mark : Text} (h : mark ∈ baseMarks base) :
    mark = [] ∧ base = 10 ∨
      ∃ c, mark = [ofChar '0', c] ∧ base? '0' c = some base ∧ base ≤ 16 := by
  unfold baseMarks at h
  split at h <;> simp only [List.mem_cons, List.not_mem_nil, or_false] at h
  case h_3 => exact .inl ⟨h, rfl⟩
  all_goals
    right
    rcases h with rfl | rfl <;> exact ⟨_, rfl, by decide, by decide⟩

theorem scan_spells {base n : Nat} (h : Spells base n t) : Counts t t.length n (scan t) := by
  obtain ⟨hmark, hdigits, hlt, hlead, rfl⟩ := h
  rcases mark_cases hmark with ⟨rfl, rfl⟩ | ⟨c, rfl, hbase, hle⟩
  · simpa using scan_writes hdigits hlt hlead stops_nil
  · have hmark : [ofChar '0', c].length = 2 := rfl
    have hscan := scanMarked_writes hmark hle hdigits hlt
    rw [List.cons_append, List.cons_append] at hscan ⊢
    rwa [scan_cons_cons, hbase]

end Number

namespace Numeral

/-- A text begins with a decimal digit. -/
def Begins (t : Text) : Prop := ∃ d < 10, ∃ c ∈ digitSigns d, ∃ u, t = c :: u

theorem Writes.begins {ds : List Nat} {t : Text} (h : Writes ds t) (hlt : ∀ d ∈ ds, d < 10) :
    Begins t := by
  obtain ⟨d, ds', c, t', rfl, rfl, hc⟩ := h.head
  exact ⟨d, hlt d (by simp), c, hc, t', rfl⟩

/-- A spelling begins with a decimal digit, if only with the zero of a mark. -/
theorem Spells.begins {base n : Nat} {t : Text} (h : Spells base n t) : Begins t := by
  obtain ⟨hmark, hdigits, hlt, hlead, rfl⟩ := h
  rcases Number.mark_cases hmark with ⟨rfl, rfl⟩ | ⟨c, rfl, -, -⟩
  · exact hdigits.begins hlt
  · exact ⟨0, by decide, '0', by decide, _, rfl⟩

end Numeral

namespace Token

theorem scan_of_isDigit {c : CodePoint} (hc : c.isDigit = true) (t : Text) :
    scan c t = (Number.scan (c :: t)).map fun (content, size) => (content, size - 1) := by
  have hquotes : ∀ quote ∈ Text.ofString "\"'", quote.isDigit = false := by decide
  have hquote : c ∉ Text.ofString "\"'" := by
    intro hmem
    rw [hquotes c hmem] at hc
    cases hc
  rw [scan, if_neg (by simpa [Text.ofString] using hquote), if_pos hc]

/-- A number at the front of a text is one token, or stops the scanner because it is too large. -/
theorem scanFrom_counts {t rest : Text} {n : Nat} (hfront : Numeral.Begins t)
    (hcounts : Number.Counts (t ++ rest) t.length n (Number.scan (t ++ rest)))
    (file : Option Text) (p : Position) :
    if n ≤ Number.maxInteger then
      scanFrom file p (t ++ rest) =
        (after file p [] t (.integer n) :: (scanFrom file (p.advance t) rest).1,
          (scanFrom file (p.advance t) rest).2)
    else ∃ fault, scanFrom file p (t ++ rest) = ([], some fault) ∧ fault.cause.code = "E005" := by
  obtain ⟨d, hd, c, hc, u, rfl⟩ := hfront
  have hscan := scan_of_isDigit (Numeral.isDigit_of_mem hd hc) (u ++ rest)
  have hplain := (Numeral.plain_of_mem (Nat.lt_trans hd (by decide)) hc).2
  rw [List.cons_append] at hcounts ⊢
  unfold Number.Counts at hcounts
  split <;> rename_i hle
  · rw [if_pos hle] at hcounts
    rw [hcounts] at hscan
    have hword : scan c (u ++ rest) = .ok (.integer n, u.length) := hscan
    have hfrom := scanFrom_word hplain hword file p
    rwa [List.take_left, List.drop_left] at hfrom
  · rw [if_neg hle] at hcounts
    obtain ⟨flaw, hrefuse⟩ := hcounts
    rw [hrefuse] at hscan
    exact ⟨_, scanFrom_refused hplain hscan file p, rfl⟩

/-- A spelling of a number is one integer of that value, unless the value is too large: then it is
refused as a number. -/
theorem tokenize_numeral (file : Option Text) {base n : Nat} {t : Text}
    (h : Numeral.Spells base n t) :
    if n ≤ 2 ^ 63 - 1 then tokenize file t = .ok (alone file t (.integer n))
    else ∃ fault, tokenize file t = .error fault ∧ fault.cause.code = "E005" := by
  have hcounts : Number.Counts (t ++ []) t.length n (Number.scan (t ++ [])) := by
    rw [List.append_nil]
    exact Number.scan_spells h
  have hfrom := scanFrom_counts h.begins hcounts file Position.start
  have hmax : Number.maxInteger = 2 ^ 63 - 1 := rfl
  rw [List.append_nil, hmax] at hfrom
  split <;> rename_i hle
  · rw [if_pos hle, scanFrom_of_end Trivia.size_nil rfl] at hfrom
    exact tokenize_eq_ok.2 hfrom
  · rw [if_neg hle] at hfrom
    obtain ⟨fault, hfault, hcode⟩ := hfrom
    obtain ⟨fault', htokenize, hcause, -⟩ := tokenize_of_scanFrom hfault
    exact ⟨fault', htokenize, by rw [hcause, hcode]⟩

/-- A hexadecimal number in letters of both cases, and a decimal number that is one too large. -/
theorem tokenize_numeral_hexadecimal :
    tokenize none "0XBe__eF" = .ok (alone none "0XBe__eF" (.integer 48879)) ∧
      ∃ fault, tokenize none "9_223372036854775808" = .error fault ∧
        fault.cause.code = "E005" := by
  have hhex : Numeral.Spells 16 48879 "0XBe__eF" := by
    have hmark : Text.ofString "0X" ∈ Numeral.baseMarks 16 := by decide
    have hdigits : Numeral.Writes [11, 14, 14, 15] "Be__eF" :=
      .cons (by decide) 0 (.cons (by decide) 2 (.cons (by decide) 0 (.last (by decide))))
    exact .intro hmark hdigits (by decide) nofun rfl
  have hdecimal : Numeral.Spells 10 9223372036854775808 "9_223372036854775808" := by
    have hmark : [] ∈ Numeral.baseMarks 10 := by decide
    have hlow : Numeral.Writes [2, 2, 3, 3, 7, 2, 0, 3, 6, 8, 5, 4, 7, 7, 5, 8, 0, 8]
        "223372036854775808" := Numeral.writes_map_digitSign (by decide)
    have hdigits : Numeral.Writes (9 :: [2, 2, 3, 3, 7, 2, 0, 3, 6, 8, 5, 4, 7, 7, 5, 8, 0, 8])
        "9_223372036854775808" := .cons (by decide) 1 hlow
    exact .intro hmark hdigits (by decide) nofun rfl
  exact ⟨tokenize_numeral none hhex, tokenize_numeral none hdecimal⟩

end Token

end ScriptLang
