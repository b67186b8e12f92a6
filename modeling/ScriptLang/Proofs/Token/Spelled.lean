import ScriptLang.Proofs.Token.Respaced

/-!
# Words on a line

Contents that words say can be written down: `Token.Spelled`. They are what some line of text
says (`Token.exists_line`).
-/

namespace ScriptLang

open CodePoint

namespace Token

/-- Some word says this and nothing else. -/
def Content.IsWord (w : Content) : Prop :=
  ∃ c t, scan c t = .ok (w, t.length) ∧ lineFeed ∉ c :: t

theorem Content.IsWord.of_text {w : Content} (word : Text)
    (hscan : scan (word.headD lineFeed) word.tail = .ok (w, word.tail.length))
    (hline : lineFeed ∉ word.headD lineFeed :: word.tail) : w.IsWord :=
  ⟨_, _, hscan, hline⟩

/-- Words say this. -/
class Spelled (ws : List Content) : Prop where
  words : ∀ w ∈ ws, w.IsWord

namespace Spelled

variable {ws vs : List Content} {w : Content}

theorem cons (hw : w.IsWord) (h : Spelled ws) : Spelled (w :: ws) :=
  ⟨List.forall_mem_cons.2 ⟨hw, h.words⟩⟩

instance : Spelled [] := ⟨nofun⟩

instance [h : Spelled ws] (k : Sign) : Spelled (.sign k :: ws) :=
  cons (.of_text k.spelling (by cases k <;> rfl) (by cases k <;> decide)) h

instance [h : Spelled ws] (k : Keyword) : Spelled (.keyword k :: ws) :=
  cons (.of_text k.spelling (by cases k <;> rfl) (by cases k <;> decide)) h

instance [hv : Spelled vs] [hw : Spelled ws] : Spelled (vs ++ ws) :=
  ⟨fun w h => (List.mem_append.1 h).elim (hv.words w) (hw.words w)⟩

end Spelled

/-- Words behind spaces are read one after the other. -/
theorem exists_line {ws : List Content} (h : Spelled ws) :
    ∃ s line, Trivia.isSpace s = true ∧ lineFeed ∉ s :: line ∧
      ∀ file p, ∃ ts finish, scanFrom file p (s :: line) = (ts ++ [finish], none) ∧
        ts.map content = ws := by
  induction ws with
  | nil =>
    exact ⟨' ', [], rfl, by decide, fun file p => ⟨[], _, scanFrom_of_end rfl rfl, rfl⟩⟩
  | cons w ws ih =>
    obtain ⟨⟨c, t, hscan, hword⟩, hws⟩ := List.forall_mem_cons.1 h.words
    obtain ⟨s, line, hs, hline, hrest⟩ := ih ⟨hws⟩
    refine ⟨' ', c :: t ++ s :: line, rfl, ?_, fun file p => ?_⟩
    · rw [List.mem_cons, List.mem_append]
      have hspace : lineFeed ≠ ofChar ' ' := by decide
      exact fun h => h.elim hspace fun h => h.elim hword hline
    · have hfirst := scanFrom_lexeme hscan Trivia.isSpace_space hs file p line
      rw [List.take_length] at hfirst
      obtain ⟨ts, finish, hts, hws⟩ := hrest file (p.advance ([ofChar ' '] ++ c :: t))
      rw [hts] at hfirst
      exact ⟨_ :: ts, finish, hfirst, congrArg (w :: ·) hws⟩

end Token

end ScriptLang
