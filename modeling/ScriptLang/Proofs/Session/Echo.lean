import ScriptLang.Proofs.Session.Course
import ScriptLang.Proofs.Token.Numeral
import ScriptLang.Proofs.Value.Quotient

/-!
# Echoes that are programs

What a prompt echoes for an integer is a number, with a minus sign in front of it if the integer
is negative; for a range it is two of them with two points between. Such an echo is a program
that comes to the value again (`Program.run_represent`), unless it holds the least integer:
this one is echoed as the negative of a number that is too large for a literal.
-/

namespace ScriptLang

open CodePoint

/-! ### What can be typed -/

/-- An integer in 64 bits that is not the least one: its magnitude is a literal. -/
def IsTypable (a : Int) : Prop := IsInt64 a ∧ a ≠ -0x8000000000000000

theorem isTypable_iff {a : Int} : IsTypable a ↔ a.natAbs ≤ Number.maxInteger := by
  unfold IsTypable IsInt64 Number.maxInteger
  omega

/-- An integer that can be typed, or a range between two of them. -/
def Value.Typable : Value → Prop
  | .integer a => IsTypable a
  | .range start stop => IsTypable start ∧ IsTypable stop
  | _ => False

/-! ### The tokens of an echo -/

namespace Token

variable {p : Position} {n : Nat} {a : Int} {rest : Text}

/-- A token that stands at a position, with no line feed in front or within. -/
def placed (file : Option Text) (p : Position) (lexeme : Text) (content : Content) : Token :=
  ⟨content, lexeme, ⟨file, p, p.advance lexeme⟩, false⟩

theorem after_eq_placed {lexeme : Text} (h : lineFeed ∉ lexeme) (file : Option Text) (p : Position)
    (content : Content) : after file p [] lexeme content = placed file p lexeme content := by
  have hbreak := after_afterBreak file p [] lexeme content
  rw [List.nil_append, decide_eq_false h] at hbreak
  exact congrArg (Token.mk content lexeme ⟨file, p, p.advance lexeme⟩) hbreak

theorem scanFrom_nil (file : Option Text) (p : Position) :
    scanFrom file p [] = ([placed file p [] .endOfInput], none) := by
  rw [scanFrom_of_end Trivia.size_nil rfl]
  simp [endAfter, placed]

/-- The tokens of an integer: a number, with a minus sign in front of it if need be. -/
def ofInt (file : Option Text) (p : Position) : Int → List Token
  | .ofNat n => [placed file p (Numeral.ofNat n) (.integer n)]
  | .negSucc n =>
    [placed file p ['-'] (.sign .minus),
      placed file (p.advance ['-']) (Numeral.ofNat (n + 1)) (.integer (n + 1))]

theorem lineFeed_not_mem_ofNat (n : Nat) : lineFeed ∉ Numeral.ofNat n := by
  obtain ⟨hwrites, hlt, -⟩ := Numeral.writes_digits (b := 10) (by decide) n
  intro hmem
  rcases hwrites.mem _ hmem with h | ⟨d, hd, hc⟩
  · exact absurd h (by decide)
  · have hnone : ∀ d < 10, lineFeed ∉ Numeral.digitSigns d := by decide
    exact hnone d (hlt d hd) hc

theorem scanFrom_ofNat (hrest : Number.Stops rest) (file : Option Text) (p : Position) :
    if n ≤ Number.maxInteger then
      scanFrom file p (Numeral.ofNat n ++ rest) =
        (placed file p (Numeral.ofNat n) (.integer n) ::
            (scanFrom file (p.advance (Numeral.ofNat n)) rest).1,
          (scanFrom file (p.advance (Numeral.ofNat n)) rest).2)
    else ∃ fault, scanFrom file p (Numeral.ofNat n ++ rest) = ([], some fault) ∧
      fault.cause.code = "E005" := by
  obtain ⟨hwrites, hlt, hlead⟩ := Numeral.writes_digits (b := 10) (by decide) n
  have hcounts := Number.scan_writes hwrites hlt hlead hrest
  rw [Numeral.ofDigits_digits] at hcounts
  rw [← after_eq_placed (lineFeed_not_mem_ofNat n)]
  exact scanFrom_counts (hwrites.begins hlt) hcounts file p

/-- A minus sign in front of a number is a token of its own. -/
theorem scan_minus (n : Nat) (rest : Text) :
    scan '-' (Numeral.ofNat n ++ rest) = .ok (.sign .minus, 0) := by
  obtain ⟨hwrites, hlt, -⟩ := Numeral.writes_digits (b := 10) (by decide) n
  obtain ⟨d, hd, c, hc, u, hu⟩ := hwrites.begins hlt
  have hpair : ∀ d < 10, ∀ c ∈ Numeral.digitSigns d, Sign.ofText? ['-', c] = none := by decide
  have hsign : scanSign? '-' (c :: (u ++ rest)) = some (.sign .minus, 0) := by
    rw [scanSign?, List.head?_cons, Option.bind_some, hpair d hd c hc]
    rfl
  rw [Numeral.ofNat, hu, List.cons_append]
  unfold scan
  rw [if_neg (by decide), if_neg (by decide), if_neg (by decide), hsign]

theorem scanFrom_minus (n : Nat) (rest : Text) (file : Option Text) (p : Position) :
    scanFrom file p ('-' :: (Numeral.ofNat n ++ rest)) =
      (placed file p ['-'] (.sign .minus) ::
          (scanFrom file (p.advance ['-']) (Numeral.ofNat n ++ rest)).1,
        (scanFrom file (p.advance ['-']) (Numeral.ofNat n ++ rest)).2) := by
  rw [← after_eq_placed (by decide)]
  exact scanFrom_word (by decide) (scan_minus n rest) file p

theorem scanFrom_points (rest : Text) (file : Option Text) (p : Position) :
    scanFrom file p ('.' :: '.' :: rest) =
      (placed file p ['.', '.'] (.sign .range) ::
          (scanFrom file (p.advance ['.', '.']) rest).1,
        (scanFrom file (p.advance ['.', '.']) rest).2) := by
  have hscan : scan '.' ('.' :: rest) = .ok (.sign .range, 1) := rfl
  rw [← after_eq_placed (by decide)]
  exact scanFrom_word (by decide) hscan file p

theorem scanFrom_ofInt (ha : IsTypable a) (hrest : Number.Stops rest) (file : Option Text)
    (p : Position) :
    scanFrom file p (Numeral.ofInt a ++ rest) =
      (ofInt file p a ++ (scanFrom file (p.advance (Numeral.ofInt a)) rest).1,
        (scanFrom file (p.advance (Numeral.ofInt a)) rest).2) := by
  cases a with
  | ofNat n =>
    have hle : n ≤ Number.maxInteger := isTypable_iff.1 ha
    have hnumber := scanFrom_ofNat (n := n) hrest file p
    rw [if_pos hle] at hnumber
    exact hnumber
  | negSucc n =>
    have hle : n + 1 ≤ Number.maxInteger := isTypable_iff.1 ha
    have hnumber := scanFrom_ofNat (n := n + 1) hrest file (p.advance ['-'])
    rw [if_pos hle] at hnumber
    change scanFrom file p ('-' :: (Numeral.ofNat (n + 1) ++ rest)) = _
    rw [scanFrom_minus, hnumber]
    rfl

theorem scanFrom_ofInt_refused (ha : ¬IsTypable a) (hrest : Number.Stops rest)
    (file : Option Text) (p : Position) :
    ∃ fault, (scanFrom file p (Numeral.ofInt a ++ rest)).2 = some fault ∧
      fault.cause.code = "E005" := by
  cases a with
  | ofNat n =>
    have hlarge : ¬n ≤ Number.maxInteger := fun hle => ha (isTypable_iff.2 hle)
    have hnumber := scanFrom_ofNat (n := n) hrest file p
    rw [if_neg hlarge] at hnumber
    obtain ⟨fault, hfault, hcode⟩ := hnumber
    exact ⟨fault, congrArg Prod.snd hfault, hcode⟩
  | negSucc n =>
    have hlarge : ¬n + 1 ≤ Number.maxInteger := fun hle => ha (isTypable_iff.2 hle)
    have hnumber := scanFrom_ofNat (n := n + 1) hrest file (p.advance ['-'])
    rw [if_neg hlarge] at hnumber
    obtain ⟨fault, hfault, hcode⟩ := hnumber
    refine ⟨fault, ?_, hcode⟩
    change (scanFrom file p ('-' :: (Numeral.ofNat (n + 1) ++ rest))).2 = _
    rw [scanFrom_minus, hfault]

end Token

/-! ### The tree of an echo -/

/-- The tree of an integer that stands at a position: a literal, or the negative of one. -/
def Expr.ofInt (file : Option Text) (p : Position) : Int → Expr
  | .ofNat n => .literal ⟨file, p, p.advance (Numeral.ofNat n)⟩ (.integer n)
  | .negSucc n =>
    let q := p.advance ['-']
    let stop := q.advance (Numeral.ofNat (n + 1))
    .unary ⟨file, p, stop⟩ .negate (.literal ⟨file, q, stop⟩ (.integer (n + 1)))

namespace Program

open Token

/-- The program of one expression. -/
def ofExpr (file : Option Text) (p stop : Position) (e : Expr) : Block :=
  .mk ⟨file, p, stop⟩ [.simple (.expression e)]

theorem parseTokens_ofInt (file : Option Text) (p q : Position) (a : Int) :
    parseTokens (Token.ofInt file p a ++ [placed file q [] .endOfInput]) =
      .ok (ofExpr file p q (Expr.ofInt file p a)) := by
  cases a <;> rfl

theorem parseTokens_range (file : Option Text) (p q r s : Position) (a b : Int) :
    parseTokens (Token.ofInt file p a ++ placed file q ['.', '.'] (.sign .range) ::
        (Token.ofInt file r b ++ [placed file s [] .endOfInput])) =
      .ok (ofExpr file p s (.range ((Expr.ofInt file p a).span.merge (Expr.ofInt file r b).span)
        (Expr.ofInt file p a) (Expr.ofInt file r b))) := by
  cases a <;> cases b <;> rfl

end Program

/-! ### The run of an echo -/

/-- The first thousand frames are always allowed. -/
theorem Limits.allow_ofCalls {calls n : Nat} (h : n < 1000) : (ofCalls calls).allow n = true := by
  simp only [ofCalls, allow, decide_eq_true_eq]
  omega

namespace Machine

variable {limits : Limits} {stack : Stack} {w : World} {calls : Nat} {scope : ScopeId} {a b : Int}

/-- How many moves the tree of an integer takes. -/
def movesOf : Int → Nat
  | .ofNat _ => 1
  | .negSucc _ => 3

theorem movesOf_le (a : Int) : movesOf a ≤ 3 := by
  cases a <;> simp [movesOf]

theorem step_negate (ha : IsInt64 (-a)) (stack : Stack) (span : Span) :
    step limits ⟨.deliver (.normal (.integer a)),
        stack.push (.operands (.unary .negate) span [] [] scope), w, calls⟩ =
      .go ⟨.deliver (.normal (.integer (-a))), stack, w, calls⟩ := by
  change settle (Value.checked "-" (-a)) span stack w calls = _
  rw [Value.checked_of_isInt64 ha]
  rfl

theorem after_ofInt (ha : IsInt64 a) (hroom : limits.allow stack.height = true)
    (file : Option Text) (p : Position) :
    after limits (movesOf a) ⟨.expression (Expr.ofInt file p a) scope, stack, w, calls⟩ =
      some ⟨.deliver (.normal (.integer a)), stack, w, calls⟩ := by
  cases a with
  | ofNat n => exact after_one rfl
  | negSucc n =>
    let q := p.advance ['-']
    let stop := q.advance (Numeral.ofNat (n + 1))
    let literal : Expr := .literal ⟨file, q, stop⟩ (.integer (n + 1))
    let frame : Frame := .operands (.unary .negate) ⟨file, p, stop⟩ [] [] scope
    have hdescend : step limits ⟨.expression (Expr.ofInt file p (.negSucc n)) scope, stack, w,
        calls⟩ = .go ⟨.expression literal scope, stack.push frame, w, calls⟩ := if_pos hroom
    have hliteral : step limits ⟨.expression literal scope, stack.push frame, w, calls⟩ =
        .go ⟨.deliver (.normal (.integer (n + 1 : Nat))), stack.push frame, w, calls⟩ := rfl
    have hdeliver : step limits ⟨.deliver (.normal (.integer (n + 1 : Nat))), stack.push frame, w,
        calls⟩ = .go ⟨.deliver (.normal (.integer (.negSucc n))), stack, w, calls⟩ :=
      step_negate (a := (n + 1 : Nat)) ha stack ⟨file, p, stop⟩
    exact after_trans (after_one hdescend) (after_trans (after_one hliteral) (after_one hdeliver))

/-- The bounds of a range are evaluated from left to right. -/
theorem after_range (ha : IsInt64 a) (hb : IsInt64 b) (hroom : limits.allow stack.height = true)
    (hroom' : limits.allow (stack.height + 1) = true) (file : Option Text) (p q : Position)
    (span : Span) :
    after limits (1 + (movesOf a + (1 + (movesOf b + 1))))
        ⟨.expression (.range span (Expr.ofInt file p a) (Expr.ofInt file q b)) scope, stack, w,
          calls⟩ =
      some ⟨.deliver (.normal (.range a b)), stack, w, calls⟩ := by
  let start : Expr := Expr.ofInt file p a
  let stop : Expr := Expr.ofInt file q b
  let first : Stack := stack.push (.operands .range span [] [stop] scope)
  let second : Stack := stack.push (.operands .range span [.integer a] [] scope)
  have hstart : step limits ⟨.expression (.range span start stop) scope, stack, w, calls⟩ =
      .go ⟨.expression start scope, first, w, calls⟩ := if_pos hroom
  have hstop : step limits ⟨.deliver (.normal (.integer a)), first, w, calls⟩ =
      .go ⟨.expression stop scope, second, w, calls⟩ := if_pos hroom
  have hrange : step limits ⟨.deliver (.normal (.integer b)), second, w, calls⟩ =
      .go ⟨.deliver (.normal (.range a b)), stack, w, calls⟩ := rfl
  refine after_trans (after_one hstart) (after_trans (after_ofInt ha hroom' file p) ?_)
  refine after_trans (after_one hstop) (after_trans (after_ofInt hb hroom' file q) ?_)
  exact after_one hrange

/-- The program of one expression ends as the expression does. -/
theorem run_ofExpr {v : Value} {e : Expr} {n : Nat} (hroom : limits.allow 0 = true)
    (h : after limits n ⟨.expression e scope, Stack.empty.push (.sequence [] scope), w, 0⟩ =
      some ⟨.deliver (.normal v), Stack.empty.push (.sequence [] scope), w, 0⟩)
    (file : Option Text) (p q : Position) (hn : n + 4 ≤ ample) :
    run limits ample (load (Program.ofExpr file p q e) scope w) = (.finished v, w) := by
  let frame : Frame := .sequence [] scope
  have hstatement : step limits (load (Program.ofExpr file p q e) scope w) =
      .go ⟨.statement (.simple (.expression e)) scope, Stack.empty.push frame, w, 0⟩ := if_pos hroom
  have hexpression : step limits
      ⟨.statement (.simple (.expression e)) scope, Stack.empty.push frame, w, 0⟩ =
      .go ⟨.expression e scope, Stack.empty.push frame, w, 0⟩ := rfl
  have hdeliver : step limits ⟨.deliver (.normal v), Stack.empty.push frame, w, 0⟩ =
      .go ⟨.deliver (.normal v), Stack.empty, w, 0⟩ := rfl
  have hmoves := after_trans (after_one hstatement)
    (after_trans (after_one hexpression) (after_trans h (after_one hdeliver)))
  obtain ⟨fuel, hfuel⟩ := Nat.exists_eq_add_of_le hn
  have hample : ample = 1 + (1 + (n + 1)) + (fuel + 1) := by omega
  rw [hample, run_of_after hmoves]
  rfl

end Machine

namespace Program

variable {limits : Limits} {file : Option Text} {scope : ScopeId} {w : World} {v : Value}

/-- A source that is one expression with a value. -/
theorem run_of_tokens {source : Text} {tokens : List Token} {e : Expr} {p q : Position}
    {n : Nat} (htokens : Token.tokenize file source = .ok tokens)
    (hparse : parseTokens tokens = .ok (ofExpr file p q e)) (hroom : limits.allow 0 = true)
    (h : Machine.after limits n
        ⟨.expression e scope, Stack.empty.push (.sequence [] scope), w, 0⟩ =
      some ⟨.deliver (.normal v), Stack.empty.push (.sequence [] scope), w, 0⟩)
    (hn : n + 4 ≤ Machine.ample) :
    (run limits file source scope w).outcome = .finished v ∧
      (run limits file source scope w).world = w := by
  have hread := read_eq_ok.2 ⟨_, htokens, hparse⟩
  rw [(run_of_read hread scope w).1, (run_of_read hread scope w).2, execute,
    Machine.run_ofExpr hroom h file p q hn]
  exact ⟨rfl, rfl⟩

theorem run_of_refused {source : Text} {fault : Fault}
    (h : (Token.scanFrom file Position.start source).2 = some fault) :
    ∃ fault', (run limits file source scope w).outcome = .failed fault' ∧
      fault'.cause.code = fault.cause.code := by
  obtain ⟨fault', htokenize, hcause, -⟩ := Token.tokenize_of_scanFrom (Prod.ext rfl h)
  refine ⟨fault'.quoteFrom source.lines, ?_, congrArg Cause.code hcause⟩
  rw [run, read, htokenize]

variable {calls : Nat} {a b : Int}

theorem run_integer (ha : IsTypable a) :
    (run (.ofCalls calls) file (Value.integer a).represent scope w).outcome =
        .finished (.integer a) ∧
      (run (.ofCalls calls) file (Value.integer a).represent scope w).world = w := by
  have hscan := Token.scanFrom_ofInt ha Number.stops_nil file Position.start
  rw [List.append_nil, Token.scanFrom_nil] at hscan
  have hmoves := Machine.movesOf_le a
  exact run_of_tokens (Token.tokenize_eq_ok.2 hscan) (parseTokens_ofInt file _ _ a)
    (Limits.allow_ofCalls (by decide))
    (Machine.after_ofInt ha.1 (Limits.allow_ofCalls (show 1 < 1000 by decide)) file _)
    (by unfold Machine.ample; omega)

/-- The text of a range, seen from the front. -/
theorem represent_range (a b : Int) :
    (Value.range a b).represent =
      Numeral.ofInt a ++ ofChar '.' :: ofChar '.' :: (Numeral.ofInt b ++ []) := by
  rw [List.append_nil]
  exact List.append_assoc _ _ _

theorem run_range (ha : IsTypable a) (hb : IsTypable b) :
    (run (.ofCalls calls) file (Value.range a b).represent scope w).outcome =
        .finished (.range a b) ∧
      (run (.ofCalls calls) file (Value.range a b).represent scope w).world = w := by
  have hscan := Token.scanFrom_ofInt ha (Number.stops_points (Numeral.ofInt b ++ [])) file
    Position.start
  rw [Token.scanFrom_points, Token.scanFrom_ofInt hb Number.stops_nil, Token.scanFrom_nil,
    ← represent_range] at hscan
  have hmoves := Machine.movesOf_le a
  have hmoves' := Machine.movesOf_le b
  exact run_of_tokens (Token.tokenize_eq_ok.2 hscan) (parseTokens_range file _ _ _ _ a b)
    (Limits.allow_ofCalls (by decide))
    (Machine.after_range ha.1 hb.1 (Limits.allow_ofCalls (show 1 < 1000 by decide))
      (Limits.allow_ofCalls (show 2 < 1000 by decide)) file _ _ _)
    (by unfold Machine.ample; omega)

/-- What is echoed for an integer or a range is a program that comes to this value again and
changes nothing, unless a number in it is the least integer (or lies beyond 64 bits): then the
program is refused for the literal of that number. -/
theorem run_represent (calls : Nat) (file : Option Text) (scope : ScopeId) (w : World) {v : Value}
    (hv : v.kind = .integer ∨ v.kind = .range) :
    let ending := run (.ofCalls calls) file v.represent scope w
    (v.Typable → ending.outcome = .finished v ∧ ending.world = w) ∧
      (¬v.Typable → ∃ fault, ending.outcome = .failed fault ∧ fault.cause.code = "E005") := by
  have hrefused : ∀ {source : Text}, (∃ fault, (Token.scanFrom file Position.start source).2 =
      some fault ∧ fault.cause.code = "E005") →
      ∃ fault, (run (.ofCalls calls) file source scope w).outcome = .failed fault ∧
        fault.cause.code = "E005" := by
    rintro source ⟨fault, hfault, hcode⟩
    obtain ⟨fault', houtcome, hcause⟩ := run_of_refused hfault
    exact ⟨fault', houtcome, hcause.trans hcode⟩
  cases v with
  | integer a =>
    refine ⟨fun ha => run_integer ha, fun ha => hrefused ?_⟩
    have hscan := Token.scanFrom_ofInt_refused ha Number.stops_nil file Position.start
    rwa [List.append_nil] at hscan
  | range a b =>
    refine ⟨fun ⟨ha, hb⟩ => run_range ha hb, fun hab => hrefused ?_⟩
    have hpoints := Number.stops_points (Numeral.ofInt b ++ [])
    rw [represent_range]
    by_cases ha : IsTypable a
    · rw [Token.scanFrom_ofInt ha hpoints, Token.scanFrom_points]
      exact Token.scanFrom_ofInt_refused (fun hb => hab ⟨ha, hb⟩) Number.stops_nil file _
    · exact Token.scanFrom_ofInt_refused ha hpoints file Position.start
  | _ => simp [Value.kind] at hv

/-- A range between two negative integers. -/
theorem run_represent_negative :
    Text.toString (Value.range (-9223372036854775807) (-3)).represent =
        "-9223372036854775807..-3" ∧
      (run (.ofCalls 1000) none (Value.range (-9223372036854775807) (-3)).represent
        (World.ofInput []).newRoot.1 (World.ofInput []).newRoot.2).outcome =
        .finished (.range (-9223372036854775807) (-3)) := by
  have htypable : (Value.range (-9223372036854775807) (-3)).Typable := by
    unfold Value.Typable IsTypable IsInt64
    omega
  refine ⟨by decide +kernel, ?_⟩
  exact ((run_represent 1000 none _ _ (.inr rfl)).1 htypable).1

/-- It can be decided whether a value is a given integer. -/
instance (n : Int) : (v : Value) → Decidable (v = .integer n)
  | .integer a => decidable_of_iff (a = n) (by rw [Value.integer.injEq])
  | .float _ | .string _ | .boolean _ | .range _ _ | .iterator _ | .function _ | .builtin _
  | .nothing => isFalse nofun

/-- A program comes to the least integer, and its echo is no program. -/
theorem not_run_represent_least :
    (run (.ofCalls 1000) none "-9223372036854775807 - 1" (World.ofInput []).newRoot.1
        (World.ofInput []).newRoot.2).outcome = .finished (.integer (-0x8000000000000000)) ∧
      ∃ fault, (run (.ofCalls 1000) none (Value.integer (-0x8000000000000000)).represent
        (World.ofInput []).newRoot.1 (World.ofInput []).newRoot.2).outcome = .failed fault ∧
        fault.cause.code = "E005" := by
  have hfinished : ((run (.ofCalls 1000) none "-9223372036854775807 - 1"
      (World.ofInput []).newRoot.1 (World.ofInput []).newRoot.2).outcome.value?.any fun v =>
        v = .integer (-0x8000000000000000)) = true := by
    decide +kernel
  have hfailed : ((run (.ofCalls 1000) none (Value.integer (-0x8000000000000000)).represent
      (World.ofInput []).newRoot.1 (World.ofInput []).newRoot.2).outcome.fault?.any fun fault =>
        fault.cause.code = Text.ofString "E005") = true := by
    decide +kernel
  obtain ⟨v, hv, hvalue⟩ := (Option.any_eq_true _ _).1 hfinished
  obtain ⟨fault, hfault, hcode⟩ := (Option.any_eq_true _ _).1 hfailed
  refine ⟨?_, fault, Outcome.fault?_eq_some.1 hfault, of_decide_eq_true hcode⟩
  rw [Outcome.value?_eq_some.1 hv, of_decide_eq_true hvalue]

end Program

end ScriptLang
