import ScriptLang.Text.Numeric

/-!
# Blanks

White space of Unicode 14.0 with the four information separators, which a prompt
counts as blank (`isBlank`), the six of them in ASCII that surround a numeral
(`isAsciiBlank`), and trimming at both ends.
-/

namespace ScriptLang

namespace CodePoint

def blankRanges : List (Nat × Nat) := [
  (0x9, 0xD), (0x1C, 0x20), (0x85, 0x85), (0xA0, 0xA0), (0x1680, 0x1680), (0x2000, 0x200A),
  (0x2028, 0x2029), (0x202F, 0x202F), (0x205F, 0x205F), (0x3000, 0x3000)]

def isBlank (c : CodePoint) : Bool := c.inRanges blankRanges

/-- Tab, line feed, vertical tab, form feed, carriage return and space. -/
def isAsciiBlank (c : CodePoint) : Bool := (0x09 ≤ c.val && c.val ≤ 0x0D) || c.val == 0x20

theorem isBlank_of_isAsciiBlank {c : CodePoint} (h : c.isAsciiBlank = true) :
    c.isBlank = true := by
  simp only [isAsciiBlank, Bool.or_eq_true, Bool.and_eq_true, decide_eq_true_eq,
    beq_iff_eq] at h
  simp only [isBlank, inRanges, blankRanges, List.any_cons, Bool.or_eq_true,
    Bool.and_eq_true, decide_eq_true_eq]
  omega

end CodePoint

namespace Text

/-- The text without the leading and trailing code points of a class. -/
def trim (p : CodePoint → Bool) (t : Text) : Text :=
  ((t.dropWhile p).reverse.dropWhile p).reverse

@[simp] theorem trim_nil (p : CodePoint → Bool) : trim p [] = [] := rfl

def isBlank (t : Text) : Bool := t.all CodePoint.isBlank

@[simp] theorem isBlank_nil : isBlank [] = true := rfl

end Text

end ScriptLang
