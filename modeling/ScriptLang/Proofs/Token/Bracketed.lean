import Mathlib.Data.List.Forall2
import ScriptLang.Token.Basic

/-!
# Bracketed tokens

A token is bracketed if the innermost delimiter that is open before it is a round or a square
bracket, with no arrow behind that bracket but those in inner ones (`Token.bracketed`). A closing
sign closes the innermost delimiter if it is the one for it, and nothing otherwise.

`Token.rebroken` gives bracketed tokens any line breaks. `Rebroken ds ts us` says the same of two
lists where the delimiters `ds` are open before the first token, one token after the other. The
more arrows there are behind these delimiters, the fewer tokens may differ
(`Rebroken.of_moreArrows`).
-/

namespace ScriptLang

/-- A delimiter that is open. -/
structure Opening where
  sign : Sign
  /-- Whether an arrow stands behind it, not counting those in inner delimiters. -/
  arrow : Bool

/-- The delimiters that are open behind a sign that closes `sign`. -/
def closeInnermost (sign : Sign) : List Opening → List Opening
  | [] => []
  | d :: ds => if d.sign = sign then ds else d :: ds

/-- The delimiters with an arrow behind the innermost one. -/
def markArrow : List Opening → List Opening
  | [] => []
  | d :: ds => { d with arrow := true } :: ds

/-- The delimiters that are open behind a token, the innermost first, when `ds` are before it. -/
def openBehind (ds : List Opening) (k : TokenKind) : List Opening :=
  match k with
  | .sign .leftParen => ⟨.leftParen, false⟩ :: ds
  | .sign .leftBracket => ⟨.leftBracket, false⟩ :: ds
  | .sign .leftBrace => ⟨.leftBrace, false⟩ :: ds
  | .sign .rightParen => closeInnermost .leftParen ds
  | .sign .rightBracket => closeInnermost .leftBracket ds
  | .sign .rightBrace => closeInnermost .leftBrace ds
  | .sign .doubleArrow => markArrow ds
  | _ => ds

/-- Whether the innermost delimiter is a bracket with no arrow behind it. -/
def bracketing : List Opening → Bool
  | [] => false
  | d :: _ => d.sign ≠ .leftBrace && !d.arrow

namespace Token

/-- Whether a token of a list is bracketed, when the delimiters `ds` are open before the list. -/
def bracketed (ds : List Opening) (tokens : List Token) (i : Nat) : Bool :=
  bracketing (((tokens.take i).map kind).foldl openBehind ds)

/-- A token with a line break before it, or with none. -/
def withBreak (t : Token) (b : Bool) : Token := { t with afterBreak := b }

/-- The tokens with other line breaks before bracketed ones: `breaks` says which have one. -/
def rebroken (ds : List Opening) (breaks : Nat → Bool) (tokens : List Token) : List Token :=
  tokens.mapIdx fun i t => if bracketed ds tokens i then t.withBreak (breaks i) else t

@[simp] theorem withBreak_kind (t : Token) (b : Bool) : (t.withBreak b).kind = t.kind := rfl

@[simp] theorem withBreak_span (t : Token) (b : Bool) : (t.withBreak b).span = t.span := rfl

@[simp] theorem withBreak_self (t : Token) : t.withBreak t.afterBreak = t := rfl

end Token

/-- Two lists of tokens that agree but for the line breaks before bracketed ones, when the
delimiters `ds` are open before them. -/
inductive Rebroken : List Opening → List Token → List Token → Prop
  | nil {ds : List Opening} : Rebroken ds [] []
  | cons {ds : List Opening} {t : Token} {ts us : List Token} (b : Bool)
      (hb : bracketing ds = false → b = t.afterBreak) (h : Rebroken (openBehind ds t.kind) ts us) :
    Rebroken ds (t :: ts) (t.withBreak b :: us)

namespace Rebroken

variable {ds : List Opening} {ts us : List Token} {t : Token}

theorem refl : ∀ (ds : List Opening) (ts : List Token), Rebroken ds ts ts
  | _, [] => .nil
  | _, t :: ts => .cons t.afterBreak (fun _ => rfl) (refl _ ts)

theorem of_rebroken : ∀ (ds : List Opening) (breaks : Nat → Bool) (ts : List Token),
    Rebroken ds ts (Token.rebroken ds breaks ts)
  | _, _, [] => .nil
  | ds, breaks, t :: ts => by
    have htail := of_rebroken (openBehind ds t.kind) (fun i => breaks (i + 1)) ts
    have hcons : Token.rebroken ds breaks (t :: ts) =
        (if bracketing ds then t.withBreak (breaks 0) else t) ::
          Token.rebroken (openBehind ds t.kind) (fun i => breaks (i + 1)) ts :=
      List.mapIdx_cons
    rw [hcons]
    by_cases hds : bracketing ds = true
    · rw [if_pos hds]
      exact .cons (breaks 0) (fun h => Bool.noConfusion (hds.symm.trans h)) htail
    · rw [if_neg hds]
      exact .cons t.afterBreak (fun _ => rfl) htail

theorem length_eq (h : Rebroken ds ts us) : us.length = ts.length := by
  induction h with
  | nil => rfl
  | cons _ _ _ ih => rw [List.length_cons, List.length_cons, ih]

theorem map_span (h : Rebroken ds ts us) : us.map Token.span = ts.map Token.span := by
  induction h with
  | nil => rfl
  | cons _ _ _ ih => rw [List.map_cons, List.map_cons, ih, Token.withBreak_span]

theorem cons_left (h : Rebroken ds (t :: ts) us) :
    ∃ b us', us = t.withBreak b :: us' ∧ (bracketing ds = false → b = t.afterBreak) ∧
      Rebroken (openBehind ds t.kind) ts us' := by
  cases h with
  | cons b hb h => exact ⟨b, _, rfl, hb, h⟩

end Rebroken

/-! ### Arrows -/

/-- The same delimiters, with all arrows behind them and maybe more. -/
abbrev MoreArrows (ds es : List Opening) : Prop :=
  List.Forall₂ (fun d e : Opening => e.sign = d.sign ∧ (d.arrow = true → e.arrow = true)) ds es

theorem moreArrows_refl : ∀ ds : List Opening, MoreArrows ds ds
  | [] => .nil
  | _ :: ds => .cons ⟨rfl, id⟩ (moreArrows_refl ds)

theorem moreArrows_markArrow : ∀ ds : List Opening, MoreArrows ds (markArrow ds)
  | [] => .nil
  | _ :: ds => .cons ⟨rfl, fun _ => rfl⟩ (moreArrows_refl ds)

theorem bracketing_markArrow : ∀ ds : List Opening, bracketing (markArrow ds) = false
  | [] => rfl
  | _ :: _ => Bool.and_false _

section MoreArrows

variable {ds es : List Opening}

theorem bracketing_of_moreArrows (h : MoreArrows ds es) (hds : bracketing ds = false) :
    bracketing es = false := by
  cases h with
  | nil => rfl
  | @cons d e ds es hde =>
    obtain ⟨hsign, harrow⟩ := hde
    cases hd : d.arrow <;> simp_all [bracketing]

theorem moreArrows_closeInnermost (h : MoreArrows ds es) (sign : Sign) :
    MoreArrows (closeInnermost sign ds) (closeInnermost sign es) := by
  cases h with
  | nil => exact .nil
  | cons hde h =>
    rw [closeInnermost, closeInnermost, hde.1]
    split
    · exact h
    · exact .cons hde h

theorem moreArrows_openBehind (h : MoreArrows ds es) (k : TokenKind) :
    MoreArrows (openBehind ds k) (openBehind es k) := by
  unfold openBehind
  split
  · exact .cons ⟨rfl, id⟩ h
  · exact .cons ⟨rfl, id⟩ h
  · exact .cons ⟨rfl, id⟩ h
  · exact moreArrows_closeInnermost h _
  · exact moreArrows_closeInnermost h _
  · exact moreArrows_closeInnermost h _
  · cases h with
    | nil => exact .nil
    | cons hde h => exact .cons ⟨hde.1, fun _ => rfl⟩ h
  · exact h

theorem Rebroken.of_moreArrows {ts us : List Token} (h : Rebroken es ts us)
    (hds : MoreArrows ds es) : Rebroken ds ts us := by
  induction h generalizing ds with
  | nil => exact .nil
  | cons b hb _ ih =>
    exact .cons b (fun h => hb (bracketing_of_moreArrows hds h)) (ih (moreArrows_openBehind hds _))

end MoreArrows

end ScriptLang
