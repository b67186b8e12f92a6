import ScriptLang.Value.Arithmetic
import ScriptLang.Value.Sequence

/-!
# What operators yield

An operator yields no function, built-in or not, and no range, and an integer only if it
fits in 64 bits: a plain value. The sign of a range yields the range between its two operands.
Both are data: no functions.
-/

namespace ScriptLang

/-- A value that holds neither code nor bounds nor the name of a built-in function, and fits in
64 bits if it is an integer. -/
def Value.Plain : Value → Prop
  | .integer n => fitsInteger n = true
  | .range _ _ => False
  | .function _ => False
  | .builtin _ => False
  | _ => True

/-- A value that is no function, neither one of the program nor a built-in one. -/
def Value.Data : Value → Prop
  | .function _ => False
  | .builtin _ => False
  | _ => True

namespace Value

variable {left right target v : Value}

theorem Plain.data (h : v.Plain) : v.Data := by
  cases v with
  | function f => exact h.elim
  | builtin name => exact h.elim
  | _ => trivial

theorem checked_plain {operator : Text} {n : Int} (h : checked operator n = .ok v) :
    v.Plain := by
  unfold checked at h
  split at h
  · next hn =>
    cases h
    exact hn
  · cases h

theorem add_plain (h : left.add right = .ok v) : v.Plain := by
  unfold add at h
  split at h
  · exact checked_plain h
  all_goals cases h <;> trivial

theorem subtract_plain (h : left.subtract right = .ok v) : v.Plain := by
  unfold subtract at h
  split at h
  · exact checked_plain h
  all_goals cases h <;> trivial

theorem multiply_plain (h : left.multiply right = .ok v) : v.Plain := by
  unfold multiply at h
  split at h
  · split at h <;> cases h
    trivial
  · split at h
    · exact checked_plain h
    all_goals cases h <;> trivial

theorem divide_plain (h : left.divide right = .ok v) : v.Plain := by
  unfold divide at h
  split at h
  · split at h
    · cases h
    · exact checked_plain h
  all_goals cases h <;> trivial

theorem negate_plain (h : target.negate = .ok v) : v.Plain := by
  unfold negate at h
  split at h
  · exact checked_plain h
  all_goals cases h <;> trivial

theorem less_plain (h : left.less right = .ok v) : v.Plain := by
  unfold less at h
  split at h <;> cases h <;> trivial

theorem lessEqual_plain (h : left.lessEqual right = .ok v) : v.Plain := by
  unfold lessEqual at h
  split at h <;> cases h <;> trivial

theorem conjunction_plain (h : left.conjunction right = .ok v) : v.Plain := by
  unfold conjunction at h
  split at h <;> cases h
  trivial

theorem disjunction_plain (h : left.disjunction right = .ok v) : v.Plain := by
  unfold disjunction at h
  split at h <;> cases h
  trivial

theorem complement_plain (h : target.complement = .ok v) : v.Plain := by
  unfold complement at h
  split at h <;> cases h
  trivial

theorem index_plain {position : Value} (h : target.index position = .ok v) : v.Plain := by
  unfold index at h
  split at h
  · split at h <;> cases h
    trivial
  all_goals cases h

theorem slice_plain {start stop step : Option Value} (h : target.slice start stop step = .ok v) :
    v.Plain := by
  unfold slice at h
  split at h
  · simp only [Bind.bind, Except.bind] at h
    repeat' split at h
    all_goals cases h
    trivial
  · cases h

theorem makeRange_eq_ok :
    left.makeRange right = .ok v ↔
      ∃ a b, left = .integer a ∧ right = .integer b ∧ v = .range a b := by
  unfold makeRange
  split
  · simp [eq_comm]
  · next h =>
    simp only [reduceCtorEq, false_iff]
    rintro ⟨a, b, rfl, rfl, -⟩
    exact h a b rfl rfl

theorem makeRange_data (h : left.makeRange right = .ok v) : v.Data := by
  obtain ⟨a, b, -, -, rfl⟩ := makeRange_eq_ok.1 h
  trivial

end Value

theorem BinaryOperator.apply_plain {op : BinaryOperator} {left right v : Value}
    (h : op.apply left right = .ok v) : v.Plain := by
  cases op with
  | or => exact Value.disjunction_plain h
  | and => exact Value.conjunction_plain h
  | equal => cases h; trivial
  | notEqual => cases h; trivial
  | less => exact Value.less_plain h
  | greater => exact Value.less_plain h
  | lessEqual => exact Value.lessEqual_plain h
  | greaterEqual => exact Value.lessEqual_plain h
  | add => exact Value.add_plain h
  | subtract => exact Value.subtract_plain h
  | multiply => exact Value.multiply_plain h
  | divide => exact Value.divide_plain h

theorem UnaryOperator.apply_plain {op : UnaryOperator} {target v : Value}
    (h : op.apply target = .ok v) : v.Plain := by
  cases op with
  | not => exact Value.complement_plain h
  | negate => exact Value.negate_plain h

end ScriptLang
