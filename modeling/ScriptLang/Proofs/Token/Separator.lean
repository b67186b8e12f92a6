import ScriptLang.Token.Scan

/-!
# Tokens before a separator

No number, word or sign goes on with a space or a line feed, and a string that is closed
ends at its quote. So a token at the end of a text is the same token when a separator and
more text follow (`Token.scan_append`). The blanks before a token are the same too when a
line feed and more text follow; a comment that the end of the text cuts off ends with the
line instead (`Trivia.sizeFrom_append`).
-/

namespace ScriptLang

open CodePoint

theorem Trivia.isSpace_iff {s : CodePoint} :
    isSpace s = true ↔ s ∈ Text.ofString " \t\r\n" := by
  simp only [isSpace, Bool.or_eq_true, decide_eq_true_eq, or_assoc]
  simp [Text.ofString, carriageReturn, lineFeed]

theorem Trivia.isSpace_space : isSpace ' ' = true := rfl

theorem Trivia.isSpace_lineFeed : isSpace lineFeed = true := rfl

/-- What holds of the four separators holds of each of them. -/
theorem Trivia.of_isSpace {s : CodePoint} (hs : isSpace s = true) {p : CodePoint → Bool}
    (h : (Text.ofString " \t\r\n").all p = true) : p s = true :=
  List.all_eq_true.1 h s (isSpace_iff.1 hs)

theorem not_isDigit_of_isSpace {s : CodePoint} (hs : Trivia.isSpace s = true) :
    s.isDigit = false := by
  simpa using Trivia.of_isSpace hs (p := fun s => !s.isDigit) (by decide)

theorem not_isAlphanumeric_of_isSpace {s : CodePoint} (hs : Trivia.isSpace s = true) :
    s.isAlphanumeric = false := by
  simpa using Trivia.of_isSpace hs (p := fun s => !s.isAlphanumeric) (by decide)

theorem ne_underscore_of_isSpace {s : CodePoint} (hs : Trivia.isSpace s = true) :
    s ≠ Number.underscore := by
  simpa using Trivia.of_isSpace hs (p := fun s => s ≠ Number.underscore) (by decide)

theorem takeWhile_append_of_stop {α : Type} {p : α → Bool} {c : α} (h : p c = false)
    (t u : List α) : (t ++ c :: u).takeWhile p = t.takeWhile p := by
  induction t with
  | nil => simp [h]
  | cons d t ih => simp only [List.cons_append, List.takeWhile_cons, ih]

theorem length_takeWhile_le {α : Type} (p : α → Bool) (t : List α) :
    (t.takeWhile p).length ≤ t.length :=
  (List.takeWhile_prefix p).length_le

/-! ### Numbers -/

namespace Number

variable {t u : Text} {s : CodePoint}

theorem refuse_append {size : Nat} (h : size ≤ t.length) (u : Text) (flaw : Option NumberFlaw) :
    refuse (t ++ u) size flaw = refuse t size flaw := by
  rw [refuse, refuse, List.take_append_of_le_length h]

theorem integer_append {size : Nat} (h : size ≤ t.length) (u : Text) (value : Nat) :
    integer (t ++ u) size value = integer t size value := by
  rw [integer, integer, refuse_append h]

theorem base?_of_isSpace (hs : Trivia.isSpace s = true) (c : CodePoint) : base? c s = none := by
  have hnone := Trivia.of_isSpace hs (p := fun s => base? '0' s = none) (by decide)
  unfold base? at hnone ⊢
  split
  · simpa using hnone
  · rfl

theorem isDigitOf_of_isSpace (hs : Trivia.isSpace s = true) (base : Nat) :
    isDigitOf base s = false := by
  have hnone := Trivia.of_isSpace hs (p := fun s => s.asciiDigitValue? = none) (by decide)
  rw [isDigitOf, of_decide_eq_true hnone]
  rfl

theorem isDigitPart_of_isSpace (hs : Trivia.isSpace s = true) : isDigitPart s = false := by
  simp [isDigitPart, not_isDigit_of_isSpace hs, ne_underscore_of_isSpace hs]

theorem scanMarked_append (base : Nat) (h : 2 ≤ t.length) (hs : Trivia.isSpace s = true)
    (u : Text) : scanMarked base (t ++ s :: u) = scanMarked base t := by
  have hdigit := isDigitOf_of_isSpace hs base
  have hbody : (t ++ s :: u).drop 2 = t.drop 2 ++ s :: u :=
    List.drop_append_of_le_length h
  have hhead : (t.drop 2 ++ s :: u).head?.any (isDigitOf base) =
      (t.drop 2).head?.any (isDigitOf base) := by
    cases t.drop 2 with
    | nil => simp [hdigit]
    | cons d rest => rfl
  have hrun : (t.drop 2 ++ s :: u).takeWhile (fun c => isDigitOf base c || c = underscore) =
      (t.drop 2).takeWhile fun c => isDigitOf base c || c = underscore :=
    takeWhile_append_of_stop (by simp [hdigit, ne_underscore_of_isSpace hs]) _ _
  have hle := length_takeWhile_le (fun c => isDigitOf base c || c = underscore) (t.drop 2)
  have hjunk : ((t.drop 2 ++ s :: u).drop
      ((t.drop 2).takeWhile fun c => isDigitOf base c || c = underscore).length).takeWhile
        isAlphanumeric =
      ((t.drop 2).drop
        ((t.drop 2).takeWhile fun c => isDigitOf base c || c = underscore).length).takeWhile
        isAlphanumeric := by
    rw [List.drop_append_of_le_length hle]
    exact takeWhile_append_of_stop (not_isAlphanumeric_of_isSpace hs) _ _
  have hjunkle := length_takeWhile_le isAlphanumeric
    ((t.drop 2).drop ((t.drop 2).takeWhile fun c => isDigitOf base c || c = underscore).length)
  rw [List.length_drop, List.length_drop] at hjunkle
  rw [List.length_drop] at hle
  unfold scanMarked
  dsimp only
  rw [hbody, hhead, hrun, hjunk, refuse_append h, refuse_append (by omega),
    integer_append (by omega)]

theorem fractionSize_append (hs : Trivia.isSpace s = true) (t u : Text) :
    fractionSize (t ++ s :: u) = fractionSize t := by
  match t with
  | [] =>
    cases u with
    | nil => rfl
    | cons d u =>
      have hpoint : s ≠ ofChar '.' := by
        simpa using Trivia.of_isSpace hs (p := fun s => s ≠ ofChar '.') (by decide)
      simp [fractionSize, hpoint]
  | [point] =>
    have hdigit := not_isDigit_of_isSpace hs
    simp [fractionSize, hdigit]
  | point :: d :: rest =>
    have hrun : (d :: rest ++ s :: u).takeWhile isDigitPart =
        (d :: rest).takeWhile isDigitPart :=
      takeWhile_append_of_stop (isDigitPart_of_isSpace hs) _ _
    change (if _ then 1 + ((d :: rest ++ s :: u).takeWhile isDigitPart).length else 0) = _
    rw [hrun]
    rfl

theorem fractionSize_le (t : Text) : fractionSize t ≤ t.length := by
  unfold fractionSize
  split
  · next point d rest =>
    have := length_takeWhile_le isDigitPart (d :: rest)
    split
    · rw [List.length_cons]
      omega
    · exact Nat.zero_le _
  · exact Nat.zero_le _

theorem exponentSize_append (hs : Trivia.isSpace s = true) (t u : Text) :
    exponentSize (t ++ s :: u) = exponentSize t := by
  cases t with
  | nil =>
    have hmark : isExponentMark s = false := by
      simpa using Trivia.of_isSpace hs (p := fun s => !isExponentMark s) (by decide)
    simp [exponentSize, hmark]
  | cons mark rest =>
    have hsign : (rest ++ s :: u).head?.any isExponentSign = rest.head?.any isExponentSign := by
      cases rest with
      | nil => simpa using Trivia.of_isSpace hs (p := fun s => !isExponentSign s) (by decide)
      | cons d rest => rfl
    have hle : (if rest.head?.any isExponentSign then 1 else 0) ≤ rest.length := by
      cases rest with
      | nil => exact Nat.le_refl 0
      | cons d rest => split <;> simp
    rw [List.cons_append]
    unfold exponentSize
    dsimp only
    rw [hsign, List.drop_append_of_le_length hle,
      takeWhile_append_of_stop (not_isDigit_of_isSpace hs)]

theorem exponentSize_le (t : Text) : (exponentSize t).1 + (exponentSize t).2 ≤ t.length := by
  cases t with
  | nil => exact Nat.le_refl 0
  | cons mark rest =>
    unfold exponentSize
    dsimp only
    split
    · have hrun := length_takeWhile_le isDigit
        (rest.drop (if rest.head?.any isExponentSign then 1 else 0))
      rw [List.length_drop] at hrun
      rw [List.length_cons]
      dsimp only
      cases rest with
      | nil => simp
      | cons d rest =>
        rw [List.length_cons] at hrun ⊢
        split at hrun <;> split <;> simp_all <;> omega
    · exact Nat.zero_le _

/-- The parts of a decimal number stand behind each other in its text. -/
theorem decimal_sizes_le (t : Text) {whole fraction : Nat}
    (hw : (t.takeWhile isDigitPart).length = whole) (hf : fractionSize (t.drop whole) = fraction) :
    whole + fraction + (exponentSize (t.drop (whole + fraction))).1 +
      (exponentSize (t.drop (whole + fraction))).2 ≤ t.length := by
  have hwhole := length_takeWhile_le isDigitPart t
  have hfraction := fractionSize_le (t.drop whole)
  have hpower := exponentSize_le (t.drop (whole + fraction))
  rw [List.length_drop] at hfraction hpower
  omega

theorem scanDecimal_append (hs : Trivia.isSpace s = true) (t u : Text) :
    scanDecimal (t ++ s :: u) = scanDecimal t := by
  have hwhole : (t ++ s :: u).takeWhile isDigitPart = t.takeWhile isDigitPart :=
    takeWhile_append_of_stop (isDigitPart_of_isSpace hs) _ _
  have hle := decimal_sizes_le t rfl rfl
  have hdrop₁ : (t ++ s :: u).drop (t.takeWhile isDigitPart).length =
      t.drop (t.takeWhile isDigitPart).length ++ s :: u :=
    List.drop_append_of_le_length (by omega)
  have hdrop₂ : (t ++ s :: u).drop ((t.takeWhile isDigitPart).length +
      fractionSize (t.drop (t.takeWhile isDigitPart).length)) =
      t.drop ((t.takeWhile isDigitPart).length +
        fractionSize (t.drop (t.takeWhile isDigitPart).length)) ++ s :: u :=
    List.drop_append_of_le_length (by omega)
  unfold scanDecimal
  dsimp only
  rw [hwhole, hdrop₁, fractionSize_append hs, hdrop₂, exponentSize_append hs]
  generalize (t.takeWhile isDigitPart).length = whole at *
  generalize fractionSize (t.drop whole) = fraction at *
  generalize exponentSize (t.drop (whole + fraction)) = power at *
  obtain ⟨mark, power⟩ := power
  dsimp only at hle ⊢
  have hle₁ : whole ≤ t.length := by omega
  simp only [refuse_append hle, integer_append hle, List.take_append_of_le_length hle,
    List.take_append_of_le_length hle₁]
  rw [List.take_append_of_le_length (by rw [List.length_drop]; omega),
    List.take_append_of_le_length (by rw [List.length_drop]; omega)]

theorem scan_cons_cons (c d : CodePoint) (rest : Text) :
    scan (c :: d :: rest) = (base? c d).elim (scanDecimal (c :: d :: rest))
      fun base => scanMarked base (c :: d :: rest) := by
  unfold scan
  dsimp only
  cases base? c d <;> rfl

theorem scan_append (h : t ≠ []) (hs : Trivia.isSpace s = true) (u : Text) :
    scan (t ++ s :: u) = scan t := by
  cases t with
  | nil => exact absurd rfl h
  | cons c rest =>
    cases rest with
    | nil =>
      rw [List.cons_append, List.nil_append, scan_cons_cons, base?_of_isSpace hs]
      exact scanDecimal_append hs [c] u
    | cons d rest =>
      have hlength : 2 ≤ (c :: d :: rest).length := by simp
      have hmarked : ∀ base, scanMarked base (c :: d :: (rest ++ s :: u)) =
          scanMarked base (c :: d :: rest) := fun base => scanMarked_append base hlength hs u
      have hdecimal : scanDecimal (c :: d :: (rest ++ s :: u)) =
          scanDecimal (c :: d :: rest) := scanDecimal_append hs (c :: d :: rest) u
      rw [List.cons_append, List.cons_append, scan_cons_cons, scan_cons_cons, hdecimal]
      simp only [hmarked]

theorem integer_size_le {n value size : Nat} {content : Token.Content} (hn : n ≤ t.length)
    (h : integer t n value = .ok (content, size)) : size ≤ t.length := by
  unfold integer at h
  split at h <;> cases h
  exact hn

theorem scanMarked_size_le {base size : Nat} {content : Token.Content} (htwo : 2 ≤ t.length)
    (h : scanMarked base t = .ok (content, size)) : size ≤ t.length := by
  unfold scanMarked at h
  dsimp only at h
  split at h
  · cases h
  · split at h
    · cases h
    · have hrun := length_takeWhile_le (fun c => isDigitOf base c || c = underscore) (t.drop 2)
      rw [List.length_drop] at hrun
      exact integer_size_le (by omega) h

theorem scanDecimal_size_le {size : Nat} {content : Token.Content}
    (h : scanDecimal t = .ok (content, size)) : size ≤ t.length := by
  have hle := decimal_sizes_le t rfl rfl
  unfold scanDecimal at h
  dsimp only at h
  split at h
  · cases h
  · split at h
    · cases h
    · split at h
      · split at h
        · exact integer_size_le hle h
        · cases h
      · split at h <;> cases h
        exact hle

theorem scan_size_le {content : Token.Content} {size : Nat} (h : scan t = .ok (content, size)) :
    size ≤ t.length := by
  match t with
  | [] => exact scanDecimal_size_le h
  | [c] => exact scanDecimal_size_le h
  | c :: d :: rest =>
    unfold scan at h
    dsimp only at h
    split at h
    · exact scanMarked_size_le (by simp) h
    · exact scanDecimal_size_le h

end Number

/-! ### Strings -/

namespace StringLiteral

variable {quote : CodePoint} {t : Text}

/-- An escape that ends before the text does needs nothing behind it. -/
theorem escape_take_append {value : CodePoint} {size : Nat} (h : escape t = .ok (value, size))
    (hlt : size < t.length) (u : Text) : escape (t.take size ++ u) = .ok (value, size) := by
  cases t with
  | nil => cases h
  | cons c rest =>
    unfold escape at h
    dsimp only at h
    cases hletter : letterEscape? c with
    | some d =>
      rw [hletter] at h
      cases h
      simp [escape, hletter]
    | none =>
      rw [hletter] at h
      cases hwidth : width? c with
      | none => rw [hwidth] at h; cases h
      | some width =>
        rw [hwidth] at h
        dsimp only at h
        have hsize : size = 1 + (rest.take width).length := by
          split at h <;> cases h
          rfl
        -- all code points of the escape are there, none of them past the end of the text
        have hfull : (rest.take width).length = width := by
          rw [List.length_cons, hsize, List.length_take] at hlt
          rw [List.length_take]
          omega
        have hfront : (c :: rest).take size = c :: rest.take width := by
          rw [hsize, hfull, Nat.add_comm, List.take_succ_cons]
        have htaken : (rest.take width ++ u).take width = rest.take width := by
          rw [List.take_append_of_le_length (Nat.le_of_eq hfull.symm), List.take_of_length_le
            (Nat.le_of_eq hfull)]
        rw [hfront, List.cons_append]
        unfold escape
        dsimp only
        rw [hletter, hwidth]
        dsimp only
        rw [htaken]
        exact h

/-- A text that ends with the closing quote of a string, and the string. -/
inductive Closed (quote : CodePoint) : Text → Text → Prop
  | close : Closed quote [quote] []
  | plain {c : CodePoint} {t value : Text} : c ≠ quote → c ≠ lineFeed → c ≠ ofChar '\\' →
      Closed quote t value → Closed quote (c :: t) (c :: value)
  | escaped {c : CodePoint} {taken t value : Text} : ofChar '\\' ≠ quote →
      (∀ u, escape (taken ++ u) = .ok (c, taken.length)) → Closed quote t value →
      Closed quote (ofChar '\\' :: (taken ++ t)) (c :: value)

theorem Closed.body_append {value : Text} (h : Closed quote t value) (u : Text) :
    body quote (t ++ u) = .closed value t.length := by
  induction h with
  | close => simp [body]
  | plain hquote hbreak hescape _ ih =>
    rw [List.cons_append, body, if_neg hquote, if_neg hbreak, if_neg hescape, ih]
    simp [Reading.after, Nat.add_comm]
  | escaped hquote hescape _ ih =>
    rw [List.cons_append, body, if_neg hquote, if_neg (by decide), if_pos rfl,
      List.append_assoc, hescape]
    simp +arith [Reading.after, ih]

/-- A string that is closed takes a front of the text that ends with its quote. -/
theorem closed_of_body {t value : Text} {size : Nat} (h : body quote t = .closed value size) :
    size ≤ t.length ∧ Closed quote (t.take size) value := by
  match t with
  | [] => rw [body] at h; cases h
  | c :: rest =>
    rw [body] at h
    by_cases hquote : c = quote
    · rw [if_pos hquote] at h
      cases h
      exact ⟨by simp, by simpa [hquote] using Closed.close⟩
    · rw [if_neg hquote] at h
      by_cases hbreak : c = lineFeed
      · rw [if_pos hbreak] at h
        cases h
      · rw [if_neg hbreak] at h
        by_cases hescape : c = ofChar '\\'
        · rw [if_pos hescape] at h
          cases he : escape rest with
          | error e => rw [he] at h; cases h
          | ok x =>
            obtain ⟨point, n⟩ := x
            rw [he] at h
            dsimp only at h
            cases hb : body quote (rest.drop n) with
            | unterminated n => rw [hb] at h; cases h
            | badEscape skip e => rw [hb] at h; cases h
            | closed v m =>
              rw [hb] at h
              cases h
              have hlt : n < rest.length := by
                refine Nat.lt_of_not_le fun hle => ?_
                rw [List.drop_of_length_le hle, body] at hb
                cases hb
              obtain ⟨hle, hclosed⟩ := closed_of_body hb
              have hsize : (rest.take n).length = n := List.length_take_of_le (Nat.le_of_lt hlt)
              rw [List.length_drop] at hle
              refine ⟨by rw [List.length_cons]; omega, ?_⟩
              rw [Nat.add_assoc, Nat.add_comm 1, List.take_succ_cons, hescape, List.take_add]
              refine .escaped (hescape ▸ hquote) (fun u => ?_) hclosed
              rw [hsize]
              exact escape_take_append he hlt u
        · rw [if_neg hescape] at h
          cases hb : body quote rest with
          | unterminated n => rw [hb] at h; cases h
          | badEscape skip e => rw [hb] at h; cases h
          | closed v m =>
            rw [hb] at h
            cases h
            obtain ⟨hle, hclosed⟩ := closed_of_body hb
            rw [Nat.add_comm 1, List.take_succ_cons]
            exact ⟨Nat.succ_le_succ hle, .plain hquote hbreak hescape hclosed⟩
termination_by t.length
decreasing_by all_goals simp +arith

/-- A string is read from its own code points, whatever follows them. -/
theorem scan_take_append {content : Token.Content} {size : Nat}
    (h : scan quote t = .ok (content, size)) (u : Text) :
    size ≤ t.length ∧ scan quote (t.take size ++ u) = .ok (content, size) := by
  unfold scan at h ⊢
  cases hb : body quote t with
  | unterminated n => rw [hb] at h; cases h
  | badEscape skip e => rw [hb] at h; cases h
  | closed value n =>
    rw [hb] at h
    cases h
    obtain ⟨hle, hclosed⟩ := closed_of_body hb
    rw [hclosed.body_append, List.length_take_of_le hle]
    exact ⟨hle, rfl⟩

theorem scan_append {content : Token.Content} {size : Nat}
    (h : scan quote t = .ok (content, size)) (u : Text) :
    size ≤ t.length ∧ scan quote (t ++ u) = .ok (content, size) := by
  obtain ⟨hle, hlong⟩ := scan_take_append h (t.drop size ++ u)
  rw [← List.append_assoc, List.take_append_drop] at hlong
  exact ⟨hle, hlong⟩

end StringLiteral

/-! ### Blanks and comments -/

namespace Trivia

theorem sizeFrom_outside_cons (read : Nat) (c : CodePoint) (t : Text) :
    sizeFrom .outside read (c :: t) =
      if isSpace c then sizeFrom .outside (read + 1) t
      else if c = ofChar '#' then sizeFrom .lineComment (read + 1) t
      else if c = ofChar '/' then
        match t with
        | d :: t' =>
          if d = ofChar '/' then sizeFrom .lineComment (read + 2) t'
          else if d = ofChar '*' then sizeFrom (.blockComment 0 read) (read + 2) t'
          else .ok read
        | [] => .ok read
      else .ok read :=
  sizeFrom.eq_def .outside read (c :: t)

theorem sizeFrom_lineComment_cons (read : Nat) (c : CodePoint) (t : Text) :
    sizeFrom .lineComment read (c :: t) =
      if c = lineFeed then sizeFrom .outside (read + 1) t
      else sizeFrom .lineComment (read + 1) t :=
  sizeFrom.eq_def .lineComment read (c :: t)

theorem sizeFrom_blockComment_cons (depth start read : Nat) (c d : CodePoint) (t : Text) :
    sizeFrom (.blockComment depth start) read (c :: d :: t) =
      if c = ofChar '/' && d = ofChar '*' then
        sizeFrom (.blockComment (depth + 1) start) (read + 2) t
      else if c = ofChar '*' && d = ofChar '/' then
        match depth with
        | 0 => sizeFrom .outside (read + 2) t
        | depth + 1 => sizeFrom (.blockComment depth start) (read + 2) t
      else sizeFrom (.blockComment depth start) (read + 1) (d :: t) :=
  sizeFrom.eq_def (.blockComment depth start) read (c :: d :: t)

/-- The same place, seen from `n` code points earlier. -/
def Place.after (n : Nat) : Place → Place
  | .outside => .outside
  | .lineComment => .lineComment
  | .blockComment depth start => .blockComment depth (n + start)

/-- The number of code points up to the next token, seen from `n` code points earlier. -/
def shifted (n : Nat) : Except Misread Nat → Except Misread Nat
  | .ok size => .ok (n + size)
  | .error m => .error (m.after n)

@[simp] theorem shifted_ok (n size : Nat) : shifted n (.ok size) = .ok (n + size) := rfl

@[simp] theorem shifted_unterminated (n start read : Nat) :
    shifted n (.error ⟨.unterminatedComment, start, read - start⟩) =
      .error ⟨.unterminatedComment, n + start, n + read - (n + start)⟩ := by
  rw [shifted, Misread.after, Nat.add_sub_add_left]

theorem sizeFrom_after (n : Nat) (place : Place) (read : Nat) (t : Text) :
    sizeFrom (place.after n) (n + read) t = shifted n (sizeFrom place read t) := by
  fun_induction sizeFrom place read t with
  | case16 depth start read c d t h₁ h₂ ih =>
    rw [Place.after, sizeFrom_blockComment_cons, if_neg h₁, if_neg h₂]
    exact ih
  | _ =>
    simp_all [Place.after, sizeFrom_outside_cons, sizeFrom_lineComment_cons,
      sizeFrom_blockComment_cons, Nat.add_assoc, sizeFrom]

/-- The blanks at the front of `t` are those in front of a line feed behind it, or `t` is
nothing but blanks and they go on behind the line feed. -/
def Breaks (u : Text) (n : Nat) (place : Place) (read : Nat) (t : Text) : Prop :=
  (n < read + t.length ∧ sizeFrom place read (t ++ lineFeed :: u) = .ok n) ∨
    (n = read + t.length ∧
      sizeFrom place read (t ++ lineFeed :: u) = sizeFrom .outside (n + 1) u)

theorem Breaks.step {u t t' : Text} {n read read' : Nat} {place place' : Place}
    (h : Breaks u n place' read' t') (hread : read + t.length = read' + t'.length)
    (hstep : sizeFrom place read (t ++ lineFeed :: u) =
      sizeFrom place' read' (t' ++ lineFeed :: u)) : Breaks u n place read t := by
  unfold Breaks
  rw [hread, hstep]
  exact h

theorem sizeFrom_append {place : Place} {read n : Nat} {t : Text}
    (h : sizeFrom place read t = .ok n) (u : Text) : Breaks u n place read t := by
  have hspace : isSpace lineFeed = true := by decide
  have hslash : lineFeed ≠ ofChar '/' := by decide
  have hstar : lineFeed ≠ ofChar '*' := by decide
  fun_induction sizeFrom place read t with
  | case1 read =>
    cases h
    exact .inr ⟨rfl, by simp [sizeFrom_outside_cons, hspace]⟩
  | case9 read =>
    cases h
    exact .inr ⟨rfl, by simp [sizeFrom_lineComment_cons]⟩
  | case6 =>
    cases h
    exact .inl ⟨by simp, by simp_all [sizeFrom_outside_cons]⟩
  | case7 =>
    cases h
    exact .inl ⟨by simp, by simp_all [sizeFrom_outside_cons]⟩
  | case8 =>
    cases h
    exact .inl ⟨by simp, by simp_all [sizeFrom_outside_cons]⟩
  | case12 => cases h
  | case17 => cases h
  | case16 depth start read c d t h₁ h₂ ih =>
    refine (ih h).step (by simp +arith) ?_
    rw [List.cons_append, List.cons_append, sizeFrom_blockComment_cons, if_neg h₁, if_neg h₂]
  | _ =>
    rename_i ih
    refine (ih h).step (by simp +arith) ?_
    simp_all [sizeFrom_outside_cons, sizeFrom_lineComment_cons, sizeFrom_blockComment_cons]

end Trivia

/-! ### Words, signs and tokens -/

/-- No sign is written with a separator. -/
theorem Sign.ofText?_of_isSpace {s : CodePoint} (hs : Trivia.isSpace s = true) (c : CodePoint) :
    Sign.ofText? [c, s] = none := by
  cases h : Sign.ofText? [c, s] with
  | none => rfl
  | some sign =>
    have hnone := Trivia.of_isSpace hs (p := fun s => all.all fun k => s ∉ k.spelling) (by decide)
    have hsign := List.all_eq_true.1 hnone sign (mem_all sign)
    rw [spelling_of_ofText? h] at hsign
    simp at hsign

namespace Token

variable {c s : CodePoint} {t : Text} {content : Content} {size : Nat}

theorem scanWord_append (hs : Trivia.isSpace s = true) (c : CodePoint) (t u : Text) :
    scanWord c (t ++ s :: u) = scanWord c t := by
  have hrun : (t ++ s :: u).takeWhile
      (fun d => d.isAlphanumeric || d = Number.underscore) =
      t.takeWhile fun d => d.isAlphanumeric || d = Number.underscore :=
    takeWhile_append_of_stop
      (by simp [not_isAlphanumeric_of_isSpace hs, ne_underscore_of_isSpace hs]) t u
  unfold scanWord
  rw [hrun]

theorem scanSign?_append (hs : Trivia.isSpace s = true) (c : CodePoint) (t u : Text) :
    scanSign? c (t ++ s :: u) = scanSign? c t := by
  cases t with
  | nil =>
    have hpair : (s :: u).head?.bind (fun d => Sign.ofText? [c, d]) = none :=
      Sign.ofText?_of_isSpace hs c
    rw [List.nil_append]
    unfold scanSign?
    rw [hpair]
    rfl
  | cons d t => rfl

theorem scan_append (h : scan c t = .ok (content, size)) (hs : Trivia.isSpace s = true)
    (u : Text) : size ≤ t.length ∧ scan c (t ++ s :: u) = .ok (content, size) := by
  unfold scan at h ⊢
  split at h
  · next hc =>
    rw [if_pos hc]
    exact StringLiteral.scan_append h _
  · next hc =>
    rw [if_neg hc]
    split at h
    · next hdigit =>
      rw [if_pos hdigit, ← List.cons_append, Number.scan_append (by simp) hs]
      refine ⟨?_, h⟩
      cases hn : Number.scan (c :: t) with
      | error m => rw [hn] at h; cases h
      | ok x =>
        rw [hn] at h
        cases h
        have := Number.scan_size_le hn
        rw [List.length_cons] at this
        exact Nat.sub_le_of_le_add this
    · next hdigit =>
      rw [if_neg hdigit]
      split at h
      · next hletter =>
        rw [if_pos hletter, scanWord_append hs]
        refine ⟨?_, h⟩
        unfold scanWord at h
        dsimp only at h
        split at h <;> cases h <;> exact length_takeWhile_le _ _
      · next hletter =>
        rw [if_neg hletter, scanSign?_append hs]
        refine ⟨?_, h⟩
        split at h <;> cases h
        next hsign =>
          unfold scanSign? at hsign
          dsimp only at hsign
          split at hsign
          · next hpair =>
            cases hsign
            cases t with
            | nil => cases hpair
            | cons d t => simp
          · obtain ⟨s, -, hs⟩ := Option.map_eq_some_iff.1 hsign
            cases hs
            exact Nat.zero_le _

end Token

end ScriptLang
