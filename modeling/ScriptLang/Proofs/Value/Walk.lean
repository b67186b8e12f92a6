import ScriptLang.Value.Sequence

/-!
# Slices as walks

A slice is a walk over a text: from its start, as long as the end is not reached, the code
point at hand is taken and the position moves on by the step. `Value.walk` is this loop, which
ends with an error at the first position outside of the text. `Value.slice` never walks: it
computes the last position and the first one outside in advance. The two agree
(`Value.slice_eq_walk`).
-/

namespace ScriptLang

namespace Value

/-- The code point of a text at a position. -/
def pick (t : Text) (i : Int) : Except RuntimeCause CodePoint :=
  match if i < 0 then none else t[i.toNat]? with
  | some c => .ok c
  | none => .error (.indexOutOfBounds i t.length)

/-- The walk over a text from position `i` by steps forward, as long as `stop` is ahead. -/
def walk (t : Text) (stop step i : Int) : Except RuntimeCause Text :=
  if i < stop ∧ 0 < step then do
    let c ← pick t i
    let rest ← walk t stop step (i + step)
    pure (c :: rest)
  else pure []
termination_by (stop - i).toNat

/-- The positions that the walk has to visit. -/
def visited (stop step i : Int) : List Int :=
  if i < stop ∧ 0 < step then i :: visited stop step (i + step) else []
termination_by (stop - i).toNat

/-- A position that lies in a text. -/
def Inside (t : Text) (i : Int) : Prop := 0 ≤ i ∧ i < t.length

instance (t : Text) (i : Int) : Decidable (Inside t i) :=
  inferInstanceAs (Decidable (0 ≤ i ∧ i < t.length))

variable {t : Text} {stop step i : Int}

theorem pick_of_inside (h : Inside t i) : ∃ c, t[i.toNat]? = some c ∧ pick t i = .ok c := by
  obtain ⟨hi, hlt⟩ := h
  obtain ⟨c, hc⟩ : ∃ c, t[i.toNat]? = some c := ⟨_, List.getElem?_eq_getElem (by omega)⟩
  refine ⟨c, hc, ?_⟩
  unfold pick
  rw [if_neg (Int.not_lt.2 hi), hc]

theorem pick_of_not_inside (h : ¬ Inside t i) :
    pick t i = .error (.indexOutOfBounds i t.length) := by
  unfold pick
  by_cases hi : i < 0
  · rw [if_pos hi]
  · rw [if_neg hi, List.getElem?_eq_none (by unfold Inside at h; omega)]

/-! ### What a walk visits -/

theorem walk_of_le (h : stop ≤ i) : walk t stop step i = .ok [] := by
  rw [walk, if_neg (by omega)]
  rfl

theorem walk_of_lt (h : i < stop) (hstep : 0 < step) :
    walk t stop step i =
      (pick t i).bind fun c => (walk t stop step (i + step)).map (c :: ·) := by
  rw [walk, if_pos ⟨h, hstep⟩]
  cases pick t i with
  | error e => rfl
  | ok c => cases walk t stop step (i + step) <;> rfl

/-- A walk that stays in the text collects what it visits. -/
theorem walk_of_inside (h : ∀ j ∈ visited stop step i, Inside t j) :
    walk t stop step i = .ok ((visited stop step i).filterMap fun j => t[j.toNat]?) := by
  fun_induction visited stop step i with
  | case1 i hi ih =>
    obtain ⟨c, hc, hpick⟩ := pick_of_inside (h i List.mem_cons_self)
    rw [walk_of_lt hi.1 hi.2, hpick, ih fun j hj => h j (List.mem_cons_of_mem i hj),
      List.filterMap_cons, hc]
    rfl
  | case2 i hi => rw [walk, if_neg hi]; rfl

/-- A walk that leaves the text ends at the first position outside. -/
theorem walk_of_leaves {j : Int}
    (h : (visited stop step i).find? (fun j => ¬ Inside t j) = some j) :
    walk t stop step i = .error (.indexOutOfBounds j t.length) := by
  fun_induction visited stop step i with
  | case1 i hi ih =>
    rw [walk_of_lt hi.1 hi.2]
    rw [List.find?_cons] at h
    by_cases hin : Inside t i
    · obtain ⟨c, -, hpick⟩ := pick_of_inside hin
      rw [hpick, ih (by simpa [hin] using h)]
      rfl
    · obtain rfl : i = j := by simpa [hin] using h
      rw [pick_of_not_inside hin]
      rfl
  | case2 i hi => cases h

/-! ### One step of a slice -/

theorem everyNth_eq_drop (gap : Nat) : ∀ (wait : Nat) (t : Text),
    everyNth gap wait t = everyNth gap 0 (t.drop wait)
  | 0, _ => rfl
  | wait + 1, [] => by rw [List.drop_nil, everyNth, everyNth]
  | wait + 1, c :: t => by rw [everyNth, List.drop_succ_cons, everyNth_eq_drop gap wait t]

/-- How far the last position visited is from the first one. -/
def reach (stop step i : Int) : Int := (stop - 1 - i) / step * step

/-- The first position visited behind a text of `size` code points. -/
def beyond (size step i : Int) : Int :=
  if size ≤ i then i else i + (size - i + step - 1) / step * step

theorem reach_of_le (h : i < stop) (hstop : stop ≤ i + step) : reach stop step i = 0 := by
  rw [reach, Int.ediv_eq_zero_of_lt (by omega) (by omega), Int.zero_mul]

theorem reach_next (hstep : 0 < step) : reach stop step (i + step) = reach stop step i - step := by
  have hquot : (stop - 1 - (i + step)) / step = (stop - 1 - i) / step + -1 := by
    rw [show stop - 1 - (i + step) = stop - 1 - i + -1 * step by omega,
      Int.add_mul_ediv_right _ _ (by omega)]
  rw [reach, reach, hquot, Int.add_mul]
  omega

theorem reach_nonneg (h : i < stop) (hstep : 0 < step) : 0 ≤ reach stop step i :=
  Int.mul_nonneg (Int.ediv_nonneg (by omega) (Int.le_of_lt hstep)) (Int.le_of_lt hstep)

theorem beyond_next {size : Int} (h : i < size) (hstep : 0 < step) :
    beyond size step (i + step) = beyond size step i := by
  have hquot : (size - i + step - 1) / step = (size - (i + step) + step - 1) / step + 1 := by
    rw [show size - i + step - 1 = size - (i + step) + step - 1 + 1 * step by omega,
      Int.add_mul_ediv_right _ _ (by omega)]
  rw [beyond, beyond, if_neg (Int.not_le.2 h), hquot, Int.add_mul, Int.one_mul]
  split
  · rw [Int.ediv_eq_zero_of_lt (by omega) (by omega), Int.zero_mul, Int.zero_add]
  · omega

theorem sliceText_of_le (h : stop ≤ i) (hstep : step ≠ 0) : sliceText t i stop step = .ok [] := by
  rw [sliceText, if_neg hstep, if_pos h]

theorem sliceText_of_lt (h : i < stop) (hstep : 0 < step) :
    sliceText t i stop step =
      if i < 0 then .error (.indexOutOfBounds i t.length)
      else if t.length ≤ i + reach stop step i then
        .error (.indexOutOfBounds (beyond t.length step i) t.length)
      else .ok (everyNth (step.toNat - 1) 0
        ((t.drop i.toNat).take (i + reach stop step i - i + 1).toNat)) := by
  rw [sliceText, if_neg (Int.ne_of_gt hstep), if_neg (Int.not_le.2 h),
    if_neg (Int.not_lt.2 (Int.le_of_lt hstep))]
  rfl

theorem sliceText_of_not_inside (h : i < stop) (hstep : 0 < step) (hi : ¬ Inside t i) :
    sliceText t i stop step = .error (.indexOutOfBounds i t.length) := by
  rw [sliceText_of_lt h hstep]
  by_cases hneg : i < 0
  · rw [if_pos hneg]
  · have hsize : t.length ≤ i := Int.not_lt.1 fun hlt => hi ⟨Int.not_lt.1 hneg, hlt⟩
    have hreach := reach_nonneg h hstep
    rw [if_neg hneg, if_pos (by omega), beyond, if_pos hsize]

/-- From a position in the text, a slice takes the code point there and goes one step on. -/
theorem sliceText_of_inside (h : i < stop) (hstep : 0 < step) (hi : Inside t i) {c : CodePoint}
    (hc : t[i.toNat]? = some c) :
    sliceText t i stop step = (sliceText t (i + step) stop step).map (c :: ·) := by
  obtain ⟨hzero, hsize⟩ := hi
  have htake : ∀ n : Nat, everyNth (step.toNat - 1) 0 ((t.drop i.toNat).take (n + 1)) =
      c :: everyNth (step.toNat - 1) 0
        ((t.drop (i + step).toNat).take (n + 1 - step.toNat)) := by
    intro n
    obtain ⟨hlt, rfl⟩ := List.getElem?_eq_some_iff.1 hc
    have hpast : i.toNat + 1 + (step.toNat - 1) = (i + step).toNat := by omega
    have hleft : n - (step.toNat - 1) = n + 1 - step.toNat := by omega
    rw [List.drop_eq_getElem_cons hlt, List.take_succ_cons, everyNth, everyNth_eq_drop,
      List.drop_take, List.drop_drop, hpast, hleft]
  rw [sliceText_of_lt h hstep, if_neg (Int.not_lt.2 hzero)]
  by_cases hstop : stop ≤ i + step
  · have hsingle : (i + 0 - i + 1).toNat = 0 + 1 := by omega
    have hnone : 0 + 1 - step.toNat = 0 := by omega
    have hlast : ¬ (t.length : Int) ≤ i + 0 := by omega
    rw [sliceText_of_le hstop (Int.ne_of_gt hstep), reach_of_le h hstop, if_neg hlast, hsingle,
      htake, hnone, List.take_zero, everyNth]
    rfl
  · have hreach := reach_nonneg (Int.not_le.1 hstop) hstep
    rw [reach_next hstep] at hreach
    have hnext : ¬ i + step < 0 := by omega
    have hlast : i + step + (reach stop step i - step) = i + reach stop step i := by omega
    have hcount : (i + reach stop step i - i + 1).toNat = (reach stop step i).toNat + 1 := by omega
    have hleft : (reach stop step i).toNat + 1 - step.toNat =
        (i + reach stop step i - (i + step) + 1).toNat := by omega
    rw [sliceText_of_lt (Int.not_le.1 hstop) hstep, if_neg hnext, beyond_next hsize hstep,
      reach_next hstep, hlast, hcount, htake, hleft]
    split <;> rfl

/-- A slice by a step forward is the walk. -/
theorem sliceText_eq_walk (hstep : 0 < step) (t : Text) (stop i : Int) :
    sliceText t i stop step = walk t stop step i := by
  fun_induction visited stop step i with
  | case1 i hi ih =>
    rw [walk_of_lt hi.1 hstep, ← ih]
    by_cases hin : Inside t i
    · obtain ⟨c, hc, hpick⟩ := pick_of_inside hin
      rw [sliceText_of_inside hi.1 hstep hin hc, hpick]
      rfl
    · rw [sliceText_of_not_inside hi.1 hstep hin, pick_of_not_inside hin]
      rfl
  | case2 i hi =>
    have hle : stop ≤ i := Int.not_lt.1 fun hlt => hi ⟨hlt, hstep⟩
    rw [sliceText_of_le hle (Int.ne_of_gt hstep), walk_of_le hle]

/-! ### Slices with parts left out -/

/-- A part that is left out stands for the start of the text, its end, or a step of one. -/
theorem slice_integers (t : Text) (start stop step : Option Int) :
    slice (.string t) (start.map .integer) (stop.map .integer) (step.map .integer) =
      (sliceText t (start.getD 0) (stop.getD t.length) (step.getD 1)).map .string := by
  cases start <;> cases stop <;> cases step <;> rfl

/-- A result that is refused as a position outside a string is. -/
def RefusesPosition (result : Except RuntimeCause Value) : Prop :=
  ∃ cause, result = .error cause ∧ cause.code = "E406"

/-- A slice by a step forward is what the walk yields: all that is visited, if this lies in
the text, and otherwise the refusal of the first position that does not. No step at all is
refused always, a step back where there is something ahead. A stretch with nothing ahead is
empty. -/
theorem slice_eq_walk (t : Text) (start stop step : Option Int) :
    let first := start.getD 0
    let last := stop.getD t.length
    let stride := step.getD 1
    let result := slice (.string t) (start.map .integer) (stop.map .integer) (step.map .integer)
    (0 < stride → result = (walk t last stride first).map .string ∧
      ((∀ i ∈ visited last stride first, Inside t i) →
        result = .ok (.string ((visited last stride first).filterMap fun i => t[i.toNat]?))) ∧
      ∀ i, (visited last stride first).find? (fun i => ¬ Inside t i) = some i →
        RefusesPosition result ∧ result = .error (.indexOutOfBounds i t.length)) ∧
    (stride = 0 → RefusesPosition result) ∧
    (stride < 0 → (RefusesPosition result ↔ first < last)) ∧
    (stride ≠ 0 → last ≤ first → result = .ok (.string [])) := by
  intro first last stride result
  have hresult : result = (sliceText t first last stride).map .string :=
    slice_integers t start stop step
  have hempty : stride ≠ 0 → last ≤ first → result = .ok (.string []) := by
    intro hstride hle
    rw [hresult, sliceText_of_le hle hstride]
    rfl
  refine ⟨fun hstride => ?_, fun hstride => ?_, fun hstride => ⟨?_, fun hlt => ?_⟩, hempty⟩
  · have hwalk : result = (walk t last stride first).map .string := by
      rw [hresult, sliceText_eq_walk hstride]
    refine ⟨hwalk, fun hinside => ?_, fun i hi => ?_⟩
    · rw [hwalk, walk_of_inside hinside]
      rfl
    · have hrefused : result = .error (.indexOutOfBounds i t.length) := by
        rw [hwalk, walk_of_leaves hi]
        rfl
      exact ⟨⟨_, hrefused, rfl⟩, hrefused⟩
  · refine ⟨.zeroStep, ?_, rfl⟩
    rw [hresult, sliceText, if_pos hstride]
    rfl
  · rintro ⟨cause, hcause, -⟩
    refine Int.not_le.1 fun hle => ?_
    rw [hempty (Int.ne_of_lt hstride) hle] at hcause
    cases hcause
  · refine ⟨.unreachableStop stride last first, ?_, rfl⟩
    rw [hresult, sliceText, if_neg (Int.ne_of_lt hstride), if_neg (Int.not_le.2 hlt),
      if_pos hstride]
    rfl

end Value

end ScriptLang
