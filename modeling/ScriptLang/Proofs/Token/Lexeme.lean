import ScriptLang.Proofs.Token.Separator

/-!
# Tokens out of their context

What a token says stands in its lexeme alone. A scanner may look at a code point behind the
lexeme to see that it ends there, and at the end of the text it sees the same
(`Token.scan_take`). So a token is read from its lexeme as it is in its text, also with a
separator and any other text behind it (`Token.scan_lexeme`).
-/

namespace ScriptLang

open CodePoint

theorem takeWhile_take {α : Type} {p : α → Bool} {t : List α} {n : Nat}
    (h : (t.takeWhile p).length ≤ n) : (t.take n).takeWhile p = t.takeWhile p := by
  rw [← List.take_takeWhile, List.take_of_length_le h]

/-! ### Numbers -/

namespace Number

variable {t : Text} {content : Token.Content} {size n : Nat}

theorem fractionSize_take (h : fractionSize t ≤ n) : fractionSize (t.take n) = fractionSize t := by
  match t, n with
  | [], n => rw [List.take_nil]
  | [point], 0 => rfl
  | [point], n + 1 => rw [List.take_succ_cons, List.take_nil]
  | point :: d :: rest, 0 => exact (Nat.le_zero.1 h).symm
  | point :: d :: rest, 1 =>
    by_cases hd : (decide (point = ofChar '.') && d.isDigit) = true
    · have hdigit : isDigitPart d = true := by
        rw [isDigitPart, (Bool.and_eq_true_iff.1 hd).2, Bool.true_or]
      rw [fractionSize, if_pos hd, List.takeWhile_cons_of_pos hdigit, List.length_cons] at h
      omega
    · simp only [fractionSize, if_neg hd, List.take_succ_cons, List.take_zero]
  | point :: d :: rest, n + 2 =>
    simp only [List.take_succ_cons, fractionSize] at h ⊢
    split
    · next hd =>
      rw [if_pos hd] at h
      rw [← List.take_succ_cons, takeWhile_take (by omega)]
    · rfl

theorem exponentSize_take (h : (exponentSize t).1 + (exponentSize t).2 ≤ n) :
    exponentSize (t.take n) = exponentSize t := by
  match t, n with
  | [], n => rw [List.take_nil]
  | mark :: rest, 0 =>
    by_cases hmark : isExponentMark mark = true
    · simp [exponentSize, hmark] at h
    · simp [exponentSize, hmark]
  | mark :: rest, n + 1 =>
    rw [List.take_succ_cons]
    by_cases hmark : isExponentMark mark = true
    · simp only [exponentSize, hmark, if_true] at h ⊢
      have hsign : (rest.take n).head?.any isExponentSign = rest.head?.any isExponentSign := by
        rw [List.head?_take]
        split
        · next hn =>
          -- there is no room for a sign, so there is none
          by_cases hsign : rest.head?.any isExponentSign = true
          · rw [if_pos hsign] at h
            omega
          · simpa using hsign
        · rfl
      rw [hsign, List.drop_take, takeWhile_take (by omega)]
    · simp [exponentSize, hmark]

theorem integer_take {k value : Nat} (h : integer t size value = .ok (content, k)) (u : Text) :
    integer u size value = .ok (content, k) := by
  unfold integer at h ⊢
  split at h
  · cases h
  · next hle => rw [if_neg hle, h]

theorem scanDecimal_take (h : scanDecimal t = .ok (content, size)) :
    scanDecimal (t.take size) = .ok (content, size) := by
  unfold scanDecimal at h
  dsimp only at h
  generalize hw : (t.takeWhile isDigitPart).length = whole at h
  generalize hf : fractionSize (t.drop whole) = fraction at h
  generalize hp : exponentSize (t.drop (whole + fraction)) = power at h
  have hle : whole + fraction + power.1 + power.2 = size := by
    split at h
    · cases h
    · split at h
      · cases h
      · split at h
        · split at h
          · unfold integer at h
            split at h <;> cases h
            rfl
          · cases h
        · split at h <;> cases h
          rfl
  have hwhole : ((t.take size).takeWhile isDigitPart).length = whole := by
    rw [takeWhile_take (by omega), hw]
  have hfraction : fractionSize ((t.take size).drop whole) = fraction := by
    rw [List.drop_take, fractionSize_take (by omega), hf]
  have hpower : exponentSize ((t.take size).drop (whole + fraction)) = power := by
    rw [List.drop_take, exponentSize_take (by rw [hp]; omega), hp]
  have hpart : ∀ {n m}, n + m ≤ size → ((t.take size).drop n).take m = (t.drop n).take m := by
    intro n m hnm
    rw [List.drop_take, List.take_take, Nat.min_eq_left (by omega)]
  have hfront : ∀ {m}, m ≤ size → (t.take size).take m = t.take m := by
    intro m hm
    rw [List.take_take, Nat.min_eq_left hm]
  unfold scanDecimal
  dsimp only
  rw [hwhole, hfraction, hpower, hle, hfront (Nat.le_refl size), hfront (by omega),
    hpart (by omega), hpart (by omega)]
  rw [hle] at h
  split at h
  · cases h
  · next hexponent =>
    rw [if_neg hexponent]
    split at h
    · cases h
    · next hseparator =>
      rw [if_neg hseparator]
      split at h
      · next hint =>
        rw [if_pos hint]
        split at h
        · exact integer_take h _
        · cases h
      · next hint =>
        rw [if_neg hint]
        split at h
        · exact h
        · cases h

theorem scanMarked_take {base : Nat} (h : scanMarked base t = .ok (content, size)) :
    2 ≤ size ∧ scanMarked base (t.take size) = .ok (content, size) := by
  unfold scanMarked at h
  dsimp only at h
  split at h
  · cases h
  · next hhead =>
    split at h
    · cases h
    · generalize hrun : (t.drop 2).takeWhile (fun c => isDigitOf base c || c = underscore) = run
        at h
      have hsize : size = 2 + run.length := by
        unfold integer at h
        split at h <;> cases h
        rfl
      have hfront : (t.drop 2).take run.length = run := by
        rw [← hrun]
        exact (List.prefix_iff_eq_take.1 (List.takeWhile_prefix _)).symm
      have hbody : (t.take size).drop 2 = run := by
        rw [List.drop_take, hsize, Nat.add_sub_cancel_left, hfront]
      have hdigits : run.takeWhile (fun c => isDigitOf base c || c = underscore) = run := by
        have hshort := takeWhile_take (Nat.le_of_eq (congrArg List.length hrun))
        rwa [hfront, hrun] at hshort
      have hhead' : run.head?.any (isDigitOf base) = true := by
        cases hd : t.drop 2 with
        | nil => simp [hd] at hhead
        | cons d rest =>
          have hdigit : isDigitOf base d = true := by simpa [hd] using hhead
          rw [← hrun, hd, List.takeWhile_cons_of_pos (by simp [hdigit])]
          exact hdigit
      refine ⟨by omega, ?_⟩
      unfold scanMarked
      dsimp only
      rw [hbody, hhead', hdigits, List.drop_length]
      exact integer_take h _

theorem scan_take (h : scan t = .ok (content, size)) :
    scan (t.take size) = .ok (content, size) := by
  match t with
  | [] => rwa [List.take_nil]
  | [c] =>
    have hshort := scanDecimal_take h
    cases size with
    | zero => exact hshort
    | succ n =>
      rw [List.take_succ_cons, List.take_nil] at hshort ⊢
      exact hshort
  | c :: d :: rest =>
    rw [scan_cons_cons] at h
    cases hb : base? c d with
    | none =>
      rw [hb] at h
      have hshort := scanDecimal_take h
      match size with
      | 0 => exact hshort
      | 1 => exact hshort
      | n + 2 =>
        rw [List.take_succ_cons, List.take_succ_cons] at hshort ⊢
        rw [scan_cons_cons, hb]
        exact hshort
    | some base =>
      rw [hb] at h
      obtain ⟨htwo, hshort⟩ := scanMarked_take h
      obtain ⟨n, rfl⟩ := Nat.exists_eq_add_of_le' htwo
      rw [List.take_succ_cons, List.take_succ_cons] at hshort ⊢
      rw [scan_cons_cons, hb]
      exact hshort

theorem scan_nil : scan [] = .error (refuse [] 0 none) := rfl

end Number

/-! ### Words, signs and tokens -/

namespace Token

variable {c s : CodePoint} {t : Text} {content : Content} {size : Nat}

theorem scanWord_take (h : scanWord c t = (content, size)) :
    scanWord c (t.take size) = (content, size) := by
  have hsize : (t.takeWhile fun d => d.isAlphanumeric || d = Number.underscore).length ≤ size := by
    unfold scanWord at h
    dsimp only at h
    split at h <;> cases h <;> exact Nat.le_refl _
  unfold scanWord at h ⊢
  rw [takeWhile_take hsize]
  exact h

theorem scanSign?_take (h : scanSign? c t = some (content, size)) :
    scanSign? c (t.take size) = some (content, size) := by
  unfold scanSign? at h ⊢
  dsimp only at h ⊢
  split at h
  · next sign hpair =>
    cases h
    rw [List.head?_take, if_neg Nat.one_ne_zero, hpair]
  · obtain ⟨sign, hsign, hcontent⟩ := Option.map_eq_some_iff.1 h
    cases hcontent
    rw [List.take_zero, List.head?_nil, Option.bind_none, hsign]
    rfl

/-- A token is read from its own code points. -/
theorem scan_take (h : scan c t = .ok (content, size)) :
    scan c (t.take size) = .ok (content, size) := by
  unfold scan at h ⊢
  split at h
  · next hquote =>
    rw [if_pos hquote]
    have hshort := (StringLiteral.scan_take_append h []).2
    rwa [List.append_nil] at hshort
  · next hquote =>
    rw [if_neg hquote]
    split at h
    · next hdigit =>
      rw [if_pos hdigit]
      cases hn : Number.scan (c :: t) with
      | error m => rw [hn] at h; cases h
      | ok x =>
        obtain ⟨content', n⟩ := x
        rw [hn] at h
        cases h
        have hshort := Number.scan_take hn
        cases n with
        | zero =>
          rw [List.take_zero, Number.scan_nil] at hshort
          cases hshort
        | succ n =>
          rw [List.take_succ_cons] at hshort
          rw [Nat.add_sub_cancel, hshort]
          rfl
    · next hdigit =>
      rw [if_neg hdigit]
      split at h
      · next hletter =>
        rw [if_pos hletter, scanWord_take (Except.ok.inj h)]
      · next hletter =>
        rw [if_neg hletter]
        split at h <;> cases h
        next hsign => rw [scanSign?_take hsign]

/-- A token is read from its own code points, with a separator and any text behind them. -/
theorem scan_lexeme (h : scan c t = .ok (content, size)) (hs : Trivia.isSpace s = true)
    (u : Text) : scan c (t.take size ++ s :: u) = .ok (content, size) :=
  (scan_append (scan_take h) hs u).2

end Token

end ScriptLang
