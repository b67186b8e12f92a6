import ScriptLang.Proofs.Token.Alone
import ScriptLang.Value.Text

/-!
# Strings between quotes

What a prompt echoes for a string has one word for each code point, a quote and a backslash
behind a backslash. The scanner takes the words back one by one (`StringLiteral.body_sign`), so
the echo is one string literal, of the same string (`Token.tokenize_represent`). Only a line
feed is not written as an escape, and the literal does not go on behind it.
-/

namespace ScriptLang

open CodePoint

/-! ### The words of a string -/

/-- If each word can be told from its front, whatever stands behind it, then a list can be told
from the words of its elements. -/
theorem flatMap_inj {α β : Type} {f : α → List β} (hne : ∀ a, f a ≠ [])
    (hf : ∀ {a b t u}, f a ++ t = f b ++ u → a = b ∧ t = u) {as bs : List α}
    (h : as.flatMap f = bs.flatMap f) : as = bs := by
  induction as generalizing bs with
  | nil =>
    cases bs with
    | nil => rfl
    | cons b bs => exact absurd (List.append_eq_nil_iff.1 h.symm).1 (hne b)
  | cons a as ih =>
    cases bs with
    | nil => exact absurd (List.append_eq_nil_iff.1 h).1 (hne a)
    | cons b bs =>
      obtain ⟨rfl, hrest⟩ := hf h
      rw [ih hrest]

namespace Value

/-- A code point can be told from its word, whatever stands behind it. -/
theorem representSign_append_inj {c d : CodePoint} {t u : Text}
    (h : representSign c ++ t = representSign d ++ u) : c = d ∧ t = u := by
  unfold representSign at h
  split at h <;> split at h
  · obtain ⟨-, hc, ht⟩ := List.cons_eq_cons.1 h |>.imp_right List.cons_eq_cons.1
    exact ⟨hc, ht⟩
  · next hd =>
    obtain ⟨hc, -⟩ := List.cons_eq_cons.1 h
    simp [← hc] at hd
  · next hc _ =>
    obtain ⟨hd, -⟩ := List.cons_eq_cons.1 h
    simp [hd] at hc
  · exact List.cons_eq_cons.1 h

theorem representSign_ne_nil (c : CodePoint) : representSign c ≠ [] := by
  unfold representSign
  split <;> simp

theorem representString_inj {s t : Text} (h : representString s = representString t) : s = t := by
  unfold representString at h
  exact flatMap_inj representSign_ne_nil representSign_append_inj
    (List.append_cancel_left (List.append_cancel_right h))

end Value

/-! ### Reading them back -/

namespace StringLiteral

/-- Between double quotes the word of a code point stands for it. -/
theorem body_sign {c : CodePoint} (hc : c ≠ lineFeed) (u : Text) :
    body '"' (Value.representSign c ++ u) =
      (body '"' u).after (Value.representSign c).length c := by
  by_cases hescaped : (c = ofChar '\\' || c = ofChar '"') = true
  · have hescape : escape (c :: u) = .ok (c, 1) := by
      rw [Bool.or_eq_true, decide_eq_true_eq, decide_eq_true_eq] at hescaped
      rcases hescaped with rfl | rfl <;> rfl
    rw [Value.representSign, if_pos hescaped, List.cons_append, body, if_neg (by decide),
      if_neg (by decide), if_pos rfl, List.singleton_append, hescape]
    rfl
  · obtain ⟨hslash, hquote⟩ : c ≠ ofChar '\\' ∧ c ≠ ofChar '"' := by simpa using hescaped
    rw [Value.representSign, if_neg hescaped, List.singleton_append, body, if_neg hquote,
      if_neg hc, if_neg hslash]
    rfl

theorem body_represented {s : Text} (h : lineFeed ∉ s) (u : Text) :
    body '"' (s.flatMap Value.representSign ++ ofChar '"' :: u) =
      .closed s ((s.flatMap Value.representSign).length + 1) := by
  induction s with
  | nil => rw [List.flatMap_nil, List.nil_append, body, if_pos rfl]; rfl
  | cons c s ih =>
    rw [List.mem_cons, not_or] at h
    rw [List.flatMap_cons, List.append_assoc, body_sign (Ne.symm h.1), ih h.2]
    simp [Reading.after, Nat.add_assoc]

/-- The line feed of a string ends its literal too early. -/
theorem body_represented_broken {s : Text} (h : lineFeed ∈ s) (u : Text) :
    ∃ size, body '"' (s.flatMap Value.representSign ++ u) = .unterminated size := by
  induction s with
  | nil => cases h
  | cons c s ih =>
    rw [List.flatMap_cons, List.append_assoc]
    by_cases hc : c = lineFeed
    · rw [hc, show Value.representSign lineFeed = [lineFeed] from rfl, List.singleton_append, body,
        if_neg (by decide), if_pos rfl]
      exact ⟨0, rfl⟩
    · obtain ⟨size, hsize⟩ := ih ((List.mem_cons.1 h).resolve_left (Ne.symm hc))
      rw [body_sign hc, hsize]
      exact ⟨_, rfl⟩

end StringLiteral

namespace Token

/-- What is echoed for a string is one string literal, of this string, unless the string holds
a line feed: then the literal does not end on its line. Different strings have different
echoes. -/
theorem tokenize_represent (file : Option Text) :
    (∀ s : Text,
      if lineFeed ∈ s then
        ∃ fault, tokenize file (Value.string s).represent = .error fault ∧
          fault.cause.code = "E002"
      else
        tokenize file (Value.string s).represent =
          .ok (alone file (Value.string s).represent (.string s))) ∧
      ∀ s t : Text, (Value.string s).represent = (Value.string t).represent ↔ s = t := by
  refine ⟨fun s => ?_, fun s t => ⟨Value.representString_inj, fun h => by rw [h]⟩⟩
  have hword : (Value.string s).represent =
      ofChar '"' :: (s.flatMap Value.representSign ++ [ofChar '"']) := rfl
  have hscan : scan '"' (s.flatMap Value.representSign ++ [ofChar '"']) =
      StringLiteral.scan '"' (s.flatMap Value.representSign ++ [ofChar '"']) := rfl
  rw [hword]
  split
  · next h =>
    obtain ⟨size, hbody⟩ := StringLiteral.body_represented_broken h [ofChar '"']
    rw [StringLiteral.scan, hbody] at hscan
    obtain ⟨fault, hfault, hcause⟩ := tokenize_refused (by decide) hscan file
    exact ⟨fault, hfault, by rw [hcause]; rfl⟩
  · next h =>
    rw [StringLiteral.scan, StringLiteral.body_represented h []] at hscan
    exact tokenize_alone (by decide) (by rw [hscan]; simp) file

end Token

end ScriptLang
