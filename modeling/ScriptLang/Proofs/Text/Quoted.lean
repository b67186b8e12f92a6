import ScriptLang.Proofs.Token.Numeral
import ScriptLang.Proofs.Token.Quoted
import ScriptLang.Text.Quoted

/-!
# Quoted text can be read back

The signs between the quotes are read back one by one (`Text.readSign_quotedSign`): what is neither
of the quotes nor a backslash stands for itself, and behind a backslash stand the code point, a
letter for it, or its number in a width that another letter says. So different texts are quoted
differently (`Text.quoted_inj`), and all on one line.
-/

namespace ScriptLang

open CodePoint

/-! ### Numbers by their digits -/

namespace Numeral

theorem map_digitSign {ds : List Nat} (h : ∀ d ∈ ds, d < 16) :
    ((ds.map digitSign).map fun c => c.asciiDigitValue?.getD 0) = ds := by
  induction ds with
  | nil => rfl
  | cons d ds ih =>
    obtain ⟨hd, hds⟩ := List.forall_mem_cons.1 h
    rw [List.map_cons, List.map_cons, ih hds, asciiDigitValue?_of_mem hd digitSign_mem]
    rfl

theorem lineFeed_not_mem_map_digitSign {ds : List Nat} (h : ∀ d ∈ ds, d < 16) :
    lineFeed ∉ ds.map digitSign := by
  have hnone : ∀ d < 16, digitSign d ≠ lineFeed := by decide
  intro hmem
  obtain ⟨d, hd, heq⟩ := List.mem_map.1 hmem
  exact hnone d (h d hd) heq

theorem digits_lt {b : Nat} (hb : 2 ≤ b) (n : Nat) : ∀ d ∈ digits b n, d < b :=
  (writes_digits hb n).2.1

/-- Different numbers have different decimal texts. -/
theorem ofNat_inj {m n : Nat} (h : ofNat m = ofNat n) : m = n := by
  have hvalue : ∀ n, ofDigits 10 ((ofNat n).map fun c => c.asciiDigitValue?.getD 0) = n := by
    intro n
    rw [ofNat, map_digitSign fun d hd => Nat.lt_trans (digits_lt (by decide) n d hd) (by decide),
      ofDigits_digits]
  rw [← hvalue m, h, hvalue]

theorem ofDigits_replicate_zero (b k : Nat) (ds : List Nat) :
    ofDigits b (List.replicate k 0 ++ ds) = ofDigits b ds := by
  induction k with
  | zero => rfl
  | succ k ih => rw [List.replicate_succ, List.cons_append, ofDigits_cons, ih]; simp

/-- A number below a power of the base has at most so many digits. -/
theorem length_digits_le {b w n : Nat} (hb : 2 ≤ b) (hw : 0 < w) (hn : n < b ^ w) :
    (digits b n).length ≤ w := by
  by_cases hzero : n = 0
  · rw [hzero, digits_zero hb]
    exact hw
  · obtain ⟨d, ds, hds, hd⟩ := digitsOnto_head hb hzero []
    have hle := pow_le_ofDigits (b := b) hd ds
    rw [← hds, ← digits, ofDigits_digits] at hle
    rw [digits, hds, List.length_cons]
    exact (Nat.pow_lt_pow_iff_right hb).1 (Nat.lt_of_le_of_lt hle hn)

/-- Hexadecimal text is that of as many digits as it is wide. -/
theorem hex_eq_map {w n : Nat} (hw : 0 < w) (hn : n < 16 ^ w) :
    ∃ ds, hex w n = ds.map digitSign ∧ ds.length = w ∧ (∀ d ∈ ds, d < 16) ∧ ofDigits 16 ds = n := by
  have hlength := length_digits_le (by decide) hw hn
  refine ⟨List.replicate (w - (digits 16 n).length) 0 ++ digits 16 n, ?_, ?_, ?_, ?_⟩
  · rw [List.map_append, List.map_replicate, hex, List.length_map]
    rfl
  · rw [List.length_append, List.length_replicate]
    omega
  · intro d hd
    rcases List.mem_append.1 hd with hd | hd
    · rw [List.eq_of_mem_replicate hd]
      decide
    · exact digits_lt (by decide) n d hd
  · rw [ofDigits_replicate_zero, ofDigits_digits]

end Numeral

namespace Text

/-! ### Reading signs back -/

/-- The code point whose number the first `w` signs say, and what stands behind them. -/
def readHex (w : Nat) (t : Text) : CodePoint × Text :=
  (.ofNat (Numeral.ofDigits 16 ((t.take w).map fun c => c.asciiDigitValue?.getD 0)), t.drop w)

/-- The code point that stands for `e` behind a backslash, and what stands behind it. -/
def readEscape (e : CodePoint) (t : Text) : CodePoint × Text :=
  if e = ofChar 'n' then (lineFeed, t)
  else if e = ofChar 'r' then (carriageReturn, t)
  else if e = ofChar 't' then (ofChar '\t', t)
  else if e = ofChar 'x' then readHex 2 t
  else if e = ofChar 'u' then readHex 4 t
  else if e = ofChar 'U' then readHex 8 t
  else (e, t)

/-- The first code point of a quoted text, and what stands behind its sign. -/
def readSign : Text → Option (CodePoint × Text)
  | [] => none
  | c :: t =>
    if c = ofChar '\\' then
      match t with
      | [] => none
      | e :: t => some (readEscape e t)
    else some (c, t)

theorem readHex_hex {w : Nat} (hw : 0 < w) {c : CodePoint} (hc : c.val < 16 ^ w) (t : Text) :
    readHex w (Numeral.hex w c.val ++ t) = (c, t) := by
  obtain ⟨ds, hhex, hlength, hlt, hvalue⟩ := Numeral.hex_eq_map hw hc
  have hw' : (ds.map Numeral.digitSign).length = w := by rw [List.length_map, hlength]
  rw [readHex, hhex, List.take_left' hw', List.drop_left' hw', Numeral.map_digitSign hlt, hvalue]
  exact congrArg (·, t) (eq_of_val_eq (val_ofNat c.val_lt))

/-- Between single or double quotes a code point is read back from its sign. -/
theorem readSign_quotedSign {q : CodePoint} (hq : q = ofChar '\'' ∨ q = ofChar '"') (c : CodePoint)
    (t : Text) : readSign (quotedSign q c ++ t) = some (c, t) := by
  unfold quotedSign
  split
  · next hescaped =>
    have hself : readEscape c t = (c, t) := by
      rw [Bool.or_eq_true, decide_eq_true_eq, decide_eq_true_eq] at hescaped
      rcases hescaped with rfl | rfl
      · rcases hq with rfl | rfl <;> rfl
      · rfl
    exact congrArg some hself
  · next hplain =>
    obtain ⟨-, hslash⟩ : c ≠ q ∧ c ≠ ofChar '\\' := by simpa using hplain
    split
    · next h => rw [h]; rfl
    · split
      · next h => rw [h]; rfl
      · split
        · next h => rw [h]; rfl
        · split
          · exact if_neg hslash
          · have hbound := c.val_lt
            split
            · exact congrArg some (readHex_hex (by decide) (by omega) t)
            · split
              · exact congrArg some (readHex_hex (by decide) (by omega) t)
              · exact congrArg some (readHex_hex (by decide) (by omega) t)

theorem quoteMark_eq (t : Text) : quoteMark t = ofChar '\'' ∨ quoteMark t = ofChar '"' := by
  unfold quoteMark
  split
  · exact .inr rfl
  · exact .inl rfl

theorem quotedSign_ne_nil (q c : CodePoint) : quotedSign q c ≠ [] := by
  unfold quotedSign
  repeat' split
  all_goals simp

/-- A code point can be told from its sign, whatever stands behind it. -/
theorem quotedSign_append_inj {q c d : CodePoint} (hq : q = ofChar '\'' ∨ q = ofChar '"')
    {t u : Text} (h : quotedSign q c ++ t = quotedSign q d ++ u) : c = d ∧ t = u := by
  have hread := congrArg readSign h
  rw [readSign_quotedSign hq, readSign_quotedSign hq] at hread
  simpa using hread

/-- Different texts are quoted differently. -/
theorem quoted_inj {s t : Text} (h : s.quoted = t.quoted) : s = t := by
  obtain ⟨hmark, hsigns⟩ := List.cons_eq_cons.1 h
  rw [hmark] at hsigns
  exact flatMap_inj (quotedSign_ne_nil _) (quotedSign_append_inj (quoteMark_eq t))
    (List.append_cancel_right hsigns)

/-! ### One line -/

theorem lineFeed_not_mem_hex {w : Nat} (hw : 0 < w) {n : Nat} (hn : n < 16 ^ w) :
    lineFeed ∉ Numeral.hex w n := by
  obtain ⟨ds, hhex, -, hlt, -⟩ := Numeral.hex_eq_map hw hn
  rw [hhex]
  exact Numeral.lineFeed_not_mem_map_digitSign hlt

theorem lineFeed_not_mem_quotedSign {q : CodePoint} (hq : q = ofChar '\'' ∨ q = ofChar '"')
    (c : CodePoint) : lineFeed ∉ quotedSign q c := by
  have hquote : lineFeed ≠ q := by rcases hq with rfl | rfl <;> decide
  have hnumber : ∀ {w}, 0 < w → c.val < 16 ^ w → ∀ e : Char, lineFeed ≠ ofChar e →
      lineFeed ∉ ofChar '\\' :: ofChar e :: Numeral.hex w c.val := by
    intro w hw hc e he hmem
    simp only [List.mem_cons, he, lineFeed_not_mem_hex hw hc, or_false] at hmem
    exact absurd hmem (by decide)
  unfold quotedSign
  split
  · next hescaped =>
    rw [Bool.or_eq_true, decide_eq_true_eq, decide_eq_true_eq] at hescaped
    rcases hescaped with rfl | rfl
    · simpa [hquote] using (by decide : lineFeed ≠ ofChar '\\')
    · decide
  · split
    · decide
    · next hline =>
      split
      · decide
      · split
        · decide
        · split
          · simpa using Ne.symm hline
          · have hbound := c.val_lt
            split
            · exact hnumber (by decide) (by omega) 'x' (by decide)
            · split
              · exact hnumber (by decide) (by omega) 'u' (by decide)
              · exact hnumber (by decide) (by omega) 'U' (by decide)

/-- Quoted text stands on one line. -/
theorem lineFeed_not_mem_quoted (t : Text) : lineFeed ∉ t.quoted := by
  have hmark : lineFeed ≠ quoteMark t := by
    rcases quoteMark_eq t with h | h <;> rw [h] <;> decide
  simp only [quoted, List.mem_append, List.mem_cons, List.not_mem_nil, or_false, List.mem_flatMap,
    hmark, false_or, not_exists, not_and]
  exact fun c _ => lineFeed_not_mem_quotedSign (quoteMark_eq t) c

end Text

end ScriptLang
