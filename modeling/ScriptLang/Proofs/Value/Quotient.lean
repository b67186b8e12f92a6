import Mathlib.Algebra.Order.Group.Unbundled.Int
import ScriptLang.Value.Arithmetic

/-!
# Quotients of integers

The quotient of two integers is rounded toward zero: what it leaves of the dividend is smaller
than the divisor and has the sign of the dividend (`Truncates`). One integer at most is such a
quotient (`Truncates.unique`), and it is the one that comes from the quotient of the magnitudes
(`Value.truncatingQuotient_eq_tdiv`). It fits in 64 bits whenever dividend and divisor do, but
for the least integer divided by minus one (`isInt64_tdiv_iff`). So a division is refused in that
case and by zero, and in no other (`Value.divide_integers`).
-/

namespace ScriptLang

/-! ### Integers in 64 bits -/

/-- An integer in 64 bits, one of them for the sign. -/
def IsInt64 (n : Int) : Prop := -0x8000000000000000 ≤ n ∧ n ≤ 0x7fffffffffffffff

theorem fitsInteger_iff {n : Int} : fitsInteger n = true ↔ IsInt64 n := by
  unfold fitsInteger integerBound IsInt64
  rw [Bool.and_eq_true, decide_eq_true_eq, decide_eq_true_eq]
  omega

theorem Value.checked_of_isInt64 {operator : Text} {n : Int} (h : IsInt64 n) :
    checked operator n = .ok (.integer n) := by
  rw [checked, if_pos (fitsInteger_iff.2 h)]

theorem Value.checked_overflow {operator : Text} {n : Int} (h : ¬ IsInt64 n) :
    checked operator n = .error (.integerOverflow operator) := by
  rw [checked, if_neg fun hn => h (fitsInteger_iff.1 hn)]

/-! ### Rounding toward zero -/

/-- `q` is a quotient of `a` and `b`, rounded toward zero: what is left of `a` is smaller than
`b`, and it is nothing or has the sign of `a`. -/
def Truncates (a b q : Int) : Prop :=
  ∃ r : Int, a = b * q + r ∧ r.natAbs < b.natAbs ∧ (r = 0 ∨ r.sign = a.sign)

variable {a b q : Int}

theorem truncates_tdiv (a : Int) (hb : b ≠ 0) : Truncates a b (a.tdiv b) := by
  refine ⟨a.tmod b, (Int.mul_tdiv_add_tmod a b).symm, ?_, ?_⟩
  · rw [Int.natAbs_tmod]
    exact Nat.mod_lt _ (Int.natAbs_pos.2 hb)
  · by_cases hr : a.tmod b = 0
    · exact .inl hr
    · refine .inr ?_
      rcases Int.lt_trichotomy a 0 with ha | rfl | ha
      · have hle : 0 ≤ (-a).tmod b := Int.tmod_nonneg _ (by omega)
        rw [Int.neg_tmod] at hle
        rw [Int.sign_eq_neg_one_of_neg ha, Int.sign_eq_neg_one_of_neg (by omega)]
      · exact absurd (Int.zero_tmod b) hr
      · have hle : 0 ≤ a.tmod b := Int.tmod_nonneg _ (Int.le_of_lt ha)
        rw [Int.sign_eq_one_of_pos ha, Int.sign_eq_one_of_pos (by omega)]

/-- Two remainders of one sign differ by less than the divisor, so not by a multiple of it. -/
theorem Truncates.unique {p : Int} (hp : Truncates a b p) (hq : Truncates a b q) : p = q := by
  obtain ⟨r, ha, hlt, hsign⟩ := hp
  obtain ⟨s, ha', hlt', hsign'⟩ := hq
  have hdiff : b * (p - q) = s - r := by
    rw [Int.mul_sub]
    omega
  have hclose : (s - r).natAbs < b.natAbs := by
    rcases Int.lt_trichotomy a 0 with h | rfl | h
    · rw [Int.sign_eq_neg_one_of_neg h, Int.sign_eq_neg_one_iff_neg] at hsign hsign'
      omega
    · rw [Int.sign_zero, Int.sign_eq_zero_iff_zero] at hsign hsign'
      omega
    · rw [Int.sign_eq_one_of_pos h, Int.sign_eq_one_iff_pos] at hsign hsign'
      omega
  have hzero : s - r = 0 :=
    Int.eq_zero_of_dvd_of_natAbs_lt_natAbs ⟨p - q, hdiff.symm⟩ hclose
  rw [hzero] at hdiff
  rcases Int.mul_eq_zero.1 hdiff with hb | hpq
  · rw [hb] at hlt
    exact absurd hlt (Nat.not_lt_zero _)
  · omega

theorem truncates_iff (hb : b ≠ 0) : Truncates a b q ↔ q = a.tdiv b :=
  ⟨fun h => h.unique (truncates_tdiv a hb), fun h => h ▸ truncates_tdiv a hb⟩

/-- Only one quotient of two integers in 64 bits does not fit. -/
theorem isInt64_tdiv_iff (ha : IsInt64 a) (hb : b ≠ 0) :
    IsInt64 (a.tdiv b) ↔ ¬ (a = -2 ^ 63 ∧ b = -1) := by
  have hsize : (a.tdiv b).natAbs = a.natAbs / b.natAbs := Int.natAbs_tdiv a b
  unfold IsInt64 at ha ⊢
  rcases Nat.lt_or_ge 1 b.natAbs with hlarge | hone
  · have hhalf : a.natAbs / b.natAbs ≤ a.natAbs / 2 := Nat.div_le_div_left hlarge (by decide)
    omega
  · obtain rfl | rfl : b = 1 ∨ b = -1 := by omega
    · rw [Int.tdiv_one]
      omega
    · rw [Int.tdiv_neg, Int.tdiv_one]
      omega

namespace Value

theorem truncatingQuotient_eq_tdiv (a b : Int) : truncatingQuotient a b = a.tdiv b := by
  unfold truncatingQuotient
  obtain ⟨m, rfl | rfl⟩ := Int.eq_nat_or_neg a <;> obtain ⟨n, rfl | rfl⟩ := Int.eq_nat_or_neg b
  all_goals simp only [Int.neg_tdiv, Int.tdiv_neg, Int.ofNat_tdiv, Int.natAbs_neg,
    Int.natAbs_natCast, Int.neg_neg]
  all_goals
    rcases Nat.eq_zero_or_pos m with rfl | hm
    · simp
    · rcases Nat.eq_zero_or_pos n with rfl | hn
      · simp
      · have hm' : ¬ (m : Int) < 0 := by omega
        have hn' : ¬ (n : Int) < 0 := by omega
        simp [hm, hn, hm', hn']

/-! ### Division -/

theorem divide_zero (a : Int) : divide (.integer a) (.integer 0) = .error .divisionByZero := rfl

theorem divide_of_ne_zero (a : Int) (hb : b ≠ 0) :
    divide (.integer a) (.integer b) = checked "/" (a.tdiv b) := by
  have hdivide : divide (.integer a) (.integer b) =
      if b = 0 then .error .divisionByZero else checked "/" (truncatingQuotient a b) := rfl
  rw [hdivide, if_neg hb, truncatingQuotient_eq_tdiv]

/-- The division of two integers in 64 bits is refused by zero, and where minus one divides the
least of them. Otherwise it yields an integer in 64 bits, the one quotient that is rounded toward
zero; its magnitude is the quotient of the magnitudes. -/
theorem divide_integers (ha : -2 ^ 63 ≤ a ∧ a < 2 ^ 63) (hb : -2 ^ 63 ≤ b ∧ b < 2 ^ 63) :
    ((∃ cause, divide (.integer a) (.integer b) = .error cause ∧ cause.code = "E410") ↔
      b = 0 ∨ a = -2 ^ 63 ∧ b = -1) ∧
    (¬ (b = 0 ∨ a = -2 ^ 63 ∧ b = -1) → ∃ q : Int,
      divide (.integer a) (.integer b) = .ok (.integer q) ∧ -2 ^ 63 ≤ q ∧ q < 2 ^ 63 ∧
      (∀ p, Truncates a b p ↔ p = q) ∧ q.natAbs = a.natAbs / b.natAbs) := by
  have hlarge : IsInt64 a := ⟨by omega, by omega⟩
  rcases eq_or_ne b 0 with rfl | hb0
  · exact ⟨⟨fun _ => .inl rfl, fun _ => ⟨_, divide_zero a, rfl⟩⟩, fun h => absurd (.inl rfl) h⟩
  · have hfits := isInt64_tdiv_iff hlarge hb0
    rw [divide_of_ne_zero a hb0]
    by_cases hleast : a = -2 ^ 63 ∧ b = -1
    · rw [checked_overflow fun h => hfits.1 h hleast]
      exact ⟨⟨fun _ => .inr hleast, fun _ => ⟨_, rfl, rfl⟩⟩, fun h => absurd (.inr hleast) h⟩
    · have hq := hfits.2 hleast
      rw [checked_of_isInt64 hq]
      refine ⟨⟨fun ⟨_, h, _⟩ => (nomatch h), fun h => (h.elim hb0 hleast).elim⟩, fun _ => ?_⟩
      obtain ⟨hmin, hmax⟩ := hq
      exact ⟨_, rfl, by omega, by omega, fun p => truncates_iff hb0, Int.natAbs_tdiv a b⟩

/-- The magnitude of the least integer does not fit, its half does. -/
theorem divide_integers_least :
    ∃ q : Int, divide (.integer (-2 ^ 63)) (.integer (-2)) = .ok (.integer q) ∧
      (∀ p, Truncates (-2 ^ 63) (-2) p ↔ p = q) ∧ q = 2 ^ 62 := by
  obtain ⟨q, hq, -, -, htruncates, -⟩ := (divide_integers (a := -2 ^ 63) (b := -2)
    (by decide) (by decide)).2 (by decide)
  exact ⟨q, hq, htruncates, ((htruncates (2 ^ 62)).1 ⟨0, by decide, by decide, .inl rfl⟩).symm⟩

end Value

end ScriptLang
