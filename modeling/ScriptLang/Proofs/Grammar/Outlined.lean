import ScriptLang.Proofs.Grammar.Drawn
import ScriptLang.Proofs.Token.Scan
import ScriptLang.Proofs.Tree.Shown

/-!
# Programs can be told from their outlines

The names of a program are among its tokens, and the names of a source consist of letters, numbers
and underscores. So a tree that the parser makes of a source is legible, unless it holds a floating
point number, and its outline says all of it but where it stands (`Program.outline_eq_iff_bare_eq`).
-/

namespace ScriptLang

open CodePoint

/-- Whether a part is a floating point number. -/
def Part.isFloat : Part → Bool
  | .expression (.literal _ (.float _)) => true
  | _ => false

/-- Whether a floating point number stands in a tree. -/
def Block.hasFloat (b : Block) : Bool := b.parts.any Part.isFloat

/-- A tree that the parser makes of a source, however deep its rules may be followed. -/
def Block.Parsed (b : Block) : Prop :=
  ∃ file source tokens depth, Token.tokenize file source = .ok tokens ∧
    Program.parseTokensAt depth tokens = .ok b

/-- What is drawn from tokens that name nothing across lines is legible, unless it is a floating
point number. -/
theorem Part.Drawn.legible {T : Token → Prop} {p : Part} (h : p.Drawn T)
    (hnames : ∀ t, T t → ∀ name, t.content = .identifier name → lineFeed ∉ name)
    (hfloat : p.isFloat = false) : p.Legible := by
  cases p with
  | statement s => trivial
  | expression e =>
    cases e with
    | literal span value =>
      cases value with
      | float x => cases hfloat
      | _ => trivial
    | identifier name =>
      obtain ⟨t, ht, hname⟩ := h
      exact hnames t ht _ hname
    | increment span direction side target =>
      obtain ⟨t, ht, hname⟩ := h
      exact hnames t ht _ hname
    | assignment span target value =>
      obtain ⟨t, ht, hname⟩ := h
      exact hnames t ht _ hname
    | _ => trivial

theorem Token.lineFeed_not_mem_identifier {file : Option Text} {source : Text}
    {tokens : List Token} (h : tokenize file source = .ok tokens) {t : Token} (ht : t ∈ tokens)
    {name : Text} (hname : t.content = .identifier name) : lineFeed ∉ name := by
  intro hmem
  exact absurd (tokenize_identifier h ht hname lineFeed hmem) (by decide)

theorem Block.Parsed.legible {b : Block} (h : b.Parsed) (hfloat : b.hasFloat = false) :
    Within Part.Legible b.parts := by
  obtain ⟨file, source, tokens, depth, htokens, hparse⟩ := h
  intro p hp
  exact (Program.parseTokensAt_drawn hparse p hp).legible
    (fun _ ht _ hname => Token.lineFeed_not_mem_identifier htokens ht hname)
    (Bool.eq_false_iff.2 (List.any_eq_false.1 hfloat p hp))

namespace Program

/-- Two programs without floating point numbers have one outline just when they are equal up to
spans. -/
theorem outline_eq_iff_bare_eq {b b' : Block} (hb : b.Parsed) (hb' : b'.Parsed)
    (hfloat : b.hasFloat = false) (hfloat' : b'.hasFloat = false) :
    b.outline = b'.outline ↔ b.bare = b'.bare :=
  Block.outline_eq_iff (hb.legible hfloat) (hb'.legible hfloat')

/-- Two spellings of a call, with a string that looks like the rest of an outline. -/
theorem outline_eq_iff_bare_eq_spellings :
    ∃ b b' : Block, b.Parsed ∧ b'.Parsed ∧ b.hasFloat = false ∧ b'.hasFloat = false ∧
      b.span ≠ b'.span ∧ b.outline = b'.outline ∧ b.bare = b'.bare := by
  have hparsed : ∀ {source : Text} {check : Block → Bool},
      ((Token.tokenize none source).toOption.any fun tokens =>
        (parseTokensAt 20 tokens).toOption.any check) = true →
      ∃ b : Block, b.Parsed ∧ check b = true := by
    intro source check hcheck
    obtain ⟨tokens, htokens, hcheck⟩ := exists_ok_of_any hcheck
    obtain ⟨b, hb, hcheck⟩ := exists_ok_of_any hcheck
    exact ⟨b, ⟨none, source, tokens, 20, htokens, hb⟩, hcheck⟩
  have hcheck : ((Token.tokenize none "f(\"]\\n  Literal 1\")").toOption.any fun tokens =>
      (parseTokensAt 20 tokens).toOption.any fun b =>
        (Token.tokenize none "f(\n']\\n  Literal 1',\n)\n").toOption.any fun tokens' =>
          (parseTokensAt 20 tokens').toOption.any fun b' =>
            !b.hasFloat && !b'.hasFloat && b.span ≠ b'.span && b.outline = b'.outline) = true := by
    decide +kernel
  obtain ⟨b, hb, hcheck⟩ := hparsed hcheck
  obtain ⟨b', hb', hcheck⟩ := hparsed hcheck
  simp only [Bool.and_eq_true, Bool.not_eq_true', decide_eq_true_eq] at hcheck
  obtain ⟨⟨⟨hfloat, hfloat'⟩, hspan⟩, houtline⟩ := hcheck
  exact ⟨b, b', hb, hb', hfloat, hfloat', hspan, houtline,
    (outline_eq_iff_bare_eq hb hb' hfloat hfloat').1 houtline⟩

end Program

end ScriptLang
