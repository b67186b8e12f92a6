/-!
# Code points and text

A text is a list of code points. Surrogates are code points of their own, so an
escape in a string literal always denotes exactly one element and the length of
a text is the number of its code points. `Text.ofString` writes a Lean string as
a text; `Text.toString` goes back, with the replacement character in the place
of a surrogate.

Texts are ordered by the code points in turn, the order of the list type.
-/

namespace ScriptLang

/-- A Unicode code point, surrogates included. -/
structure CodePoint where
  val : Nat
  val_lt : val < 0x110000
deriving DecidableEq

abbrev Text := List CodePoint

namespace CodePoint

@[ext] theorem eq_of_val_eq {c d : CodePoint} (h : c.val = d.val) : c = d := by
  cases c; cases d; simp_all

instance : LT CodePoint := ⟨fun c d => c.val < d.val⟩

instance : LE CodePoint := ⟨fun c d => c.val ≤ d.val⟩

instance (c d : CodePoint) : Decidable (c < d) := inferInstanceAs (Decidable (c.val < d.val))

instance (c d : CodePoint) : Decidable (c ≤ d) := inferInstanceAs (Decidable (c.val ≤ d.val))

/-- The code point of a number; U+FFFD outside the code space. -/
def ofNat (n : Nat) : CodePoint :=
  if h : n < 0x110000 then ⟨n, h⟩ else ⟨0xFFFD, by decide⟩

theorem val_ofNat {n : Nat} (h : n < 0x110000) : (ofNat n).val = n := by
  simp [ofNat, h]

def ofChar (c : Char) : CodePoint :=
  ⟨c.toNat, by
    have h := c.valid
    simp only [UInt32.isValidChar, Nat.isValidChar, Char.toNat] at h ⊢
    omega⟩

@[simp] theorem val_ofChar (c : Char) : (ofChar c).val = c.toNat := rfl

instance : Coe Char CodePoint := ⟨ofChar⟩

/-- The character of a code point, U+FFFD for a surrogate. -/
def toChar (c : CodePoint) : Char :=
  if c.val.isValidChar then Char.ofNat c.val else '\uFFFD'

instance : Inhabited CodePoint := ⟨ofChar 'a'⟩

end CodePoint

namespace Text

def ofString (s : String) : Text := s.toList.map CodePoint.ofChar

def toString (t : Text) : String := String.ofList (t.map CodePoint.toChar)

instance : Coe String Text := ⟨ofString⟩

def startsWith (t start : Text) : Bool := start.isPrefixOf t

instance instDecidableMem (t : Text) (ts : List Text) : Decidable (t ∈ ts) :=
  decidable_of_iff (ts.any (· = t) = true) (by simp)

/-- The texts one after the other, with `separator` between neighbours. -/
def joinWith (separator : Text) : List Text → Text
  | [] => []
  | [t] => t
  | t :: ts => t ++ separator ++ joinWith separator ts

@[simp] theorem joinWith_nil (separator : Text) : joinWith separator [] = [] := rfl

@[simp] theorem joinWith_singleton (separator t : Text) : joinWith separator [t] = t := rfl

theorem joinWith_cons_cons (separator t u : Text) (ts : List Text) :
    joinWith separator (t :: u :: ts) = t ++ separator ++ joinWith separator (u :: ts) := rfl

end Text

end ScriptLang
