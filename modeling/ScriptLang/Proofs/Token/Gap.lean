import ScriptLang.Proofs.Token.Separator

/-!
# Gaps between tokens

What stands before a token, as a grammar of its own: spaces, comments up to the end of a line,
and block comments, which are closed and may hold others. `Trivia.gap_of_size` shows that the
blanks which a scanner counts are of this kind.
-/

namespace ScriptLang

open CodePoint

namespace Trivia

/-- What opens a block comment. -/
def openMark : Text := "/*"

/-- What closes a block comment. -/
def closeMark : Text := "*/"

/-- What stands in a block comment behind its opening mark, the closing mark included. A
comment inside of it is a comment of its own. -/
inductive Closing : Text → Prop
  | close : Closing closeMark
  | nested {u t : Text} : Closing u → Closing t → Closing (openMark ++ u ++ t)
  | other {c d : CodePoint} {t : Text} : [c, d] ≠ openMark → [c, d] ≠ closeMark →
      Closing (d :: t) → Closing (c :: d :: t)

/-- A mark of a comment that ends with the line. -/
def IsLineMark (mark : Text) : Prop := mark = Text.ofString "#" ∨ mark = Text.ofString "//"

/-- What may stand between two tokens, and before `rest`. Only the end of the text may stand
in for the line feed at the end of a comment. -/
inductive Gap (rest : Text) : Text → Prop
  | nil : Gap rest []
  | space {c : CodePoint} {t : Text} : c ∈ Text.ofString " \t\r\n" → Gap rest t →
      Gap rest (c :: t)
  | lineComment {mark body t : Text} : IsLineMark mark → lineFeed ∉ body → Gap rest t →
      Gap rest (mark ++ body ++ lineFeed :: t)
  | lastComment {mark body : Text} : IsLineMark mark → lineFeed ∉ body → rest = [] →
      Gap rest (mark ++ body)
  | blockComment {u t : Text} : Closing u → Gap rest t → Gap rest (openMark ++ u ++ t)

theorem Closing.ne_nil {t : Text} (h : Closing t) : t ≠ [] := by
  cases h <;> simp [closeMark, openMark, Text.ofString]

/-- What a scanner skips from a place on, before `rest`. In a block comment that stands in
others this is what closes each of them in turn. -/
def Place.Skips (rest : Text) : Place → Text → Prop
  | .outside, t => Gap rest t
  | .lineComment, t => ∃ body, lineFeed ∉ body ∧
      ((∃ u, t = body ++ lineFeed :: u ∧ Gap rest u) ∨ t = body ∧ rest = [])
  | .blockComment depth _, t => ∃ (us : List Text) (u : Text), us.length = depth + 1 ∧
      (∀ v ∈ us, Closing v) ∧ t = us.flatten ++ u ∧ Gap rest u

namespace Place.Skips

variable {rest t : Text} {c d : CodePoint} {depth start start' : Nat}

theorem lineComment_mark {mark : Text} (hmark : IsLineMark mark)
    (h : lineComment.Skips rest t) : outside.Skips rest (mark ++ t) := by
  obtain ⟨body, hbody, ⟨u, rfl, hu⟩ | ⟨rfl, hrest⟩⟩ := h
  · have hgap := Gap.lineComment hmark hbody hu
    rwa [List.append_assoc] at hgap
  · exact .lastComment hmark hbody hrest

theorem lineComment_cons (hc : c ≠ lineFeed) (h : lineComment.Skips rest t) :
    lineComment.Skips rest (c :: t) := by
  obtain ⟨body, hbody, hend⟩ := h
  refine ⟨c :: body, by simp [hc.symm, hbody], ?_⟩
  rcases hend with ⟨u, rfl, hu⟩ | ⟨rfl, hrest⟩
  · exact .inl ⟨u, rfl, hu⟩
  · exact .inr ⟨rfl, hrest⟩

theorem blockComment_mark (h : (blockComment 0 start).Skips rest t) :
    outside.Skips rest (openMark ++ t) := by
  obtain ⟨us, u, hlength, hus, rfl, hu⟩ := h
  obtain ⟨v, rfl⟩ := List.length_eq_one_iff.1 hlength
  have hgap := Gap.blockComment (hus v List.mem_cons_self) hu
  rwa [List.append_assoc, ← @List.flatten_singleton _ v] at hgap

theorem blockComment_open (h : (blockComment (depth + 1) start).Skips rest t) :
    (blockComment depth start').Skips rest (openMark ++ t) := by
  obtain ⟨us, u, hlength, hus, rfl, hu⟩ := h
  match us with
  | v :: w :: us =>
    simp only [List.forall_mem_cons] at hus
    obtain ⟨hv, hw, hus⟩ := hus
    exact ⟨(openMark ++ v ++ w) :: us, u, by simpa using hlength,
      List.forall_mem_cons.2 ⟨hv.nested hw, hus⟩, by simp, hu⟩

theorem blockComment_close (h : (blockComment depth start).Skips rest t) :
    (blockComment (depth + 1) start').Skips rest (closeMark ++ t) := by
  obtain ⟨us, u, hlength, hus, rfl, hu⟩ := h
  exact ⟨closeMark :: us, u, by simp [hlength], List.forall_mem_cons.2 ⟨.close, hus⟩, by simp, hu⟩

theorem blockComment_last (h : outside.Skips rest t) :
    (blockComment 0 start).Skips rest (closeMark ++ t) :=
  ⟨[closeMark], t, rfl, List.forall_mem_singleton.2 .close, by simp, h⟩

theorem blockComment_ne_nil (h : (blockComment depth start).Skips rest t) : t ≠ [] := by
  obtain ⟨us, u, hlength, hus, rfl, -⟩ := h
  match us with
  | v :: us => simp [(hus v List.mem_cons_self).ne_nil]

theorem blockComment_cons (hopen : [c, d] ≠ openMark) (hclose : [c, d] ≠ closeMark)
    (h : (blockComment depth start).Skips rest (d :: t)) :
    (blockComment depth start).Skips rest (c :: d :: t) := by
  obtain ⟨us, u, hlength, hus, heq, hu⟩ := h
  match us with
  | [] :: us => exact absurd rfl (hus [] List.mem_cons_self).ne_nil
  | (e :: v) :: us =>
    obtain ⟨rfl, rfl⟩ := List.cons.inj heq
    rw [List.forall_mem_cons] at hus
    exact ⟨(c :: d :: v) :: us, u, hlength,
      List.forall_mem_cons.2 ⟨hus.1.other hopen hclose, hus.2⟩, rfl, hu⟩

end Place.Skips

/-- The first `n - read` code points of a text are what is skipped from a place on. -/
def Skipped (place : Place) (read : Nat) (t : Text) (n : Nat) : Prop :=
  ∃ u rest, t = u ++ rest ∧ n = read + u.length ∧ place.Skips rest u

namespace Skipped

variable {place place' : Place} {read n : Nat} {t : Text}

theorem step (front : Text) (h : Skipped place' (read + front.length) t n)
    (hstep : ∀ {rest u}, place'.Skips rest u → place.Skips rest (front ++ u)) :
    Skipped place read (front ++ t) n := by
  obtain ⟨u, rest, rfl, rfl, hu⟩ := h
  exact ⟨front ++ u, rest, by simp, by simp [Nat.add_assoc], hstep hu⟩

theorem stop (read : Nat) (t : Text) : Skipped .outside read t read := ⟨[], t, rfl, rfl, .nil⟩

end Skipped

theorem skipped_of_sizeFrom {place : Place} {read n : Nat} {t : Text}
    (h : sizeFrom place read t = .ok n) : Skipped place read t n := by
  fun_induction sizeFrom place read t with
  | case1 | case6 | case7 | case8 =>
    cases h
    exact .stop _ _
  | case2 read c t hspace ih =>
    exact (ih h).step [c] (.space (isSpace_iff.1 hspace))
  | case3 read t hspace ih =>
    exact (ih h).step (Text.ofString "#") (.lineComment_mark (.inl rfl))
  | case4 read t hspace hmark ih =>
    exact (ih h).step (Text.ofString "//") (.lineComment_mark (.inr rfl))
  | case5 read t hspace hmark hline ih =>
    exact (ih h).step openMark .blockComment_mark
  | case9 =>
    cases h
    exact ⟨[], [], rfl, rfl, [], List.not_mem_nil, .inr ⟨rfl, rfl⟩⟩
  | case10 read t ih =>
    exact (ih h).step [lineFeed] fun {rest u} hu =>
      ⟨[], List.not_mem_nil, .inl ⟨u, rfl, hu⟩⟩
  | case11 read c t hc ih => exact (ih h).step [c] (.lineComment_cons hc)
  | case12 => cases h
  | case13 depth start read c d t hmark ih =>
    obtain ⟨rfl, rfl⟩ : c = ofChar '/' ∧ d = ofChar '*' := by simpa using hmark
    exact (ih h).step openMark .blockComment_open
  | case14 start read c d t hopen hmark ih =>
    obtain ⟨rfl, rfl⟩ : c = ofChar '*' ∧ d = ofChar '/' := by simpa using hmark
    exact (ih h).step closeMark .blockComment_last
  | case15 start read c d t hopen hmark depth ih =>
    obtain ⟨rfl, rfl⟩ : c = ofChar '*' ∧ d = ofChar '/' := by simpa using hmark
    exact (ih h).step closeMark .blockComment_close
  | case16 depth start read c d t hopen hclose ih =>
    -- the second code point may begin a mark, so only the first is skipped for sure
    obtain ⟨u, rest, htext, rfl, hu⟩ := ih h
    obtain ⟨e, u, rfl⟩ := List.exists_cons_of_ne_nil hu.blockComment_ne_nil
    obtain ⟨rfl, rfl⟩ := List.cons.inj htext
    refine ⟨c :: d :: u, rest, rfl, by simp +arith, .blockComment_cons ?_ ?_ hu⟩
    · simpa [openMark, Text.ofString] using hopen
    · simpa [closeMark, Text.ofString] using hclose
  | case17 => cases h

/-- What the scanner skips before a token, or before the end of the text, is a gap. -/
theorem gap_of_size {n : Nat} {t : Text} (h : size t = .ok n) : Gap (t.drop n) (t.take n) := by
  obtain ⟨u, rest, rfl, rfl, hu⟩ := skipped_of_sizeFrom h
  rw [Nat.zero_add, List.drop_left, List.take_left]
  exact hu

end Trivia

end ScriptLang
