import ScriptLang.Proofs.Grammar.Drawn
import ScriptLang.Proofs.Session.Course
import ScriptLang.Proofs.Token.Scan
import ScriptLang.Proofs.Value.Quotient

/-!
# Integers stay in 64 bits

The tokens of a source say no integer beyond 64 bits, so the literals of a program do not
(`Program.read_bounded`), operators refuse a result beyond them, and the elements of a range
lie between its bounds. So no integer of a session lies beyond 64 bits, wherever it is held
(`Session.integers_inRange`), and a calculation that would lead there ends the run instead,
with the store as it was (`Machine.step_of_overflow`).

The length of a text is the one integer that no rule of the language bounds. It is bounded
where a program runs: no text is longer than 64 bits count (`Config.Countable`).
-/

namespace ScriptLang

/-- An integer in 64 bits, a range between two of them, or no integer at all. -/
def Value.InRange : Value → Prop
  | .integer n => IsInt64 n
  | .range start stop => IsInt64 start ∧ IsInt64 stop
  | _ => True

/-- What an iterator yields, sooner or later. -/
inductive Iterator.Yields : Iterator → Value → Prop
  | head {i j : Iterator} {v : Value} : i.next? = some (v, j) → Yields i v
  | tail {i j : Iterator} {u v : Value} : i.next? = some (u, j) → Yields j v → Yields i v

/-- A value in a configuration: handed on, waiting as an operand or argument, bound in a
scope, or still to come from an iterator. -/
inductive Config.Holds (c : Config) : Value → Prop
  | delivered {k : Completion} (h : c.control = .deliver k) : Holds c k.value
  | found {operation : Operation} {span : Span} {found : List Value} {rest : List Expr}
      {scope : ScopeId} {v : Value}
      (h : .operands operation span found rest scope ∈ c.stack.frames) (hv : v ∈ found) :
      Holds c v
  | bound {v : Value} (h : c.world.store.Holds v) : Holds c v
  | yielded {i : Iterator} {v : Value} (h : i ∈ c.world.store.iterators) (hv : i.Yields v) :
      Holds c v

/-- The text that the next move measures is no longer than 64 bits count. -/
def Config.Countable (c : Config) : Prop := ∀ t, c.measured? = some t → IsInt64 t.length

/-! ### Programs and their literals -/

/-- A part that is no literal beyond 64 bits. -/
def Part.Bounded : Part → Prop
  | .expression (.literal _ (.integer n)) => IsInt64 n
  | _ => True

/-- Parts without literals beyond 64 bits, and integers in 64 bits. -/
def Matter.bounded : Matter := ⟨Part.Bounded, IsInt64⟩

theorem Matter.bounded_closed : Matter.bounded.Closed where
  literal _ _ h := h
  fits _ h := fitsInteger_iff.1 h
  between ha hb hle hle' := ⟨Int.le_trans ha.1 hle, Int.le_trans hle' hb.2⟩

theorem isInt64_of_le_maxInteger {n : Nat} (h : n ≤ Number.maxInteger) : IsInt64 n := by
  unfold Number.maxInteger at h
  unfold IsInt64
  omega

/-- No literal of a program lies beyond 64 bits. -/
theorem Program.read_bounded {file : Option Text} {source : Text} {block : Block}
    (h : (read file source).2 = .ok block) : Within Part.Bounded block.parts := by
  obtain ⟨tokens, htokens, hparse⟩ := read_eq_ok.1 h
  refine (parseTokensAt_drawn hparse).imp fun p hp => ?_
  unfold Part.Bounded
  split
  · obtain ⟨t, ht, hcontent⟩ := hp
    exact isInt64_of_le_maxInteger (Token.tokenize_integer htokens ht hcontent)
  · trivial

/-! ### What bounded configurations hold -/

theorem Value.MadeOf.inRange {v : Value} (h : v.MadeOf .bounded) : v.InRange := by
  cases v with
  | integer n => exact h
  | range start stop => exact h
  | _ => trivial

theorem Iterator.MadeOf.yields {i : Iterator} {v : Value} (h : i.MadeOf .bounded)
    (hv : i.Yields v) : v.MadeOf .bounded := by
  induction hv with
  | head hnext => exact (h.next? Matter.bounded_closed hnext).1
  | tail hnext _ ih => exact ih (h.next? Matter.bounded_closed hnext).2

theorem Config.MadeOf.inRange {c : Config} (h : c.MadeOf .bounded) {v : Value} (hv : c.Holds v) :
    v.InRange := by
  refine Value.MadeOf.inRange ?_
  cases hv with
  | delivered hk =>
    have hcontrol := h.control
    rw [hk] at hcontrol
    exact hcontrol
  | found hf hv => exact (h.ground.frames _ hf).2.2.1 v hv
  | bound hv => exact h.ground.store.values v hv
  | yielded hi hv => exact (h.ground.store.iterators _ hi).yields hv

/-! ### Calculations beyond 64 bits -/

/-- A calculation with integers. -/
structure Calculation where
  /-- The sign of the operator. -/
  operator : Text
  span : Span
  /-- The exact result. -/
  result : Int

/-- What an operator makes of two integers, in exact arithmetic, and under which sign. -/
def BinaryOperator.exactResult? (op : BinaryOperator) (a b : Int) : Option (Text × Int) :=
  match op with
  | .add => some ("+", a + b)
  | .subtract => some ("-", a - b)
  | .multiply => some ("*", a * b)
  | .divide => if b = 0 then none else some ("/", a.tdiv b)
  | _ => none

/-- The calculation with integers that the next move performs, if it performs one: an
operator between two of them, a sign in front of one, or a name counted up or down. -/
def Config.calculation? (c : Config) : Option Calculation :=
  match c.control, c.stack.frames with
  | .deliver (.normal (.integer b)), .operands (.binary op) span [.integer a] [] _ :: _ =>
    (op.exactResult? a b).map fun x => ⟨x.1, span, x.2⟩
  | .deliver (.normal (.integer a)), .operands (.unary .negate) span [] [] _ :: _ =>
    some ⟨"-", span, -a⟩
  | .expression (.increment span direction _ target) scope, _ =>
    match Machine.lookup target.name scope c.world with
    | .ok (.integer a) =>
      match direction with
      | .up => some ⟨"+", span, a + 1⟩
      | .down => some ⟨"-", span, a - 1⟩
    | _ => none
  | _, _ => none

theorem BinaryOperator.apply_integers {op : BinaryOperator} {a b n : Int} {operator : Text}
    (h : op.exactResult? a b = some (operator, n)) :
    op.apply (.integer a) (.integer b) = Value.checked operator n := by
  cases op with
  | add => cases h; rfl
  | subtract => cases h; rfl
  | multiply => cases h; rfl
  | divide =>
    dsimp only [exactResult?] at h
    split at h <;> cases h
    next hb =>
      change (if b = 0 then _ else _) = _
      rw [if_neg hb, Value.truncatingQuotient_eq_tdiv]
  | _ => cases h

namespace Machine

variable {limits : Limits}

/-- A calculation that leads beyond 64 bits ends the run with an error and changes
nothing. -/
theorem step_of_overflow {c : Config} {k : Calculation} (h : c.calculation? = some k)
    (hk : ¬ IsInt64 k.result) :
    Machine.step limits c = failAt (.integerOverflow k.operator) k.span c.world := by
  obtain ⟨control, ⟨frames, height, heq⟩, w, calls⟩ := c
  unfold Config.calculation? at h
  dsimp only at h
  split at h
  · next b op span a scope rest =>
    obtain ⟨⟨operator, n⟩, hexact, rfl⟩ := Option.map_eq_some_iff.1 h
    change settle (op.apply (.integer a) (.integer b)) span _ w calls = _
    rw [BinaryOperator.apply_integers hexact, Value.checked_overflow hk]
    rfl
  · next a span scope rest =>
    cases h
    change settle (Value.checked "-" (-a)) span _ w calls = _
    rw [Value.checked_overflow hk]
    rfl
  · next span direction side target scope =>
    split at h
    · next a ha =>
      change count span direction side target scope _ w calls = _
      unfold count
      rw [ha]
      cases direction with
      | up =>
        cases h
        have hadd : (Value.integer a).add (.integer 1) = _ := Value.checked_overflow hk
        dsimp only
        rw [hadd]
      | down =>
        cases h
        have hsubtract : (Value.integer a).subtract (.integer 1) = _ := Value.checked_overflow hk
        dsimp only
        rw [hsubtract]
    · cases h
  · cases h

end Machine

open Machine

/-- At every point of every entry of a session that starts in range, all integers and all
bounds of ranges lie in 64 bits, and a calculation that leads beyond them is refused and
leaves the world as it was. -/
theorem Session.integers_inRange {root : ScopeId} {w₀ w : World} {es : List Entry} {e : Entry}
    {limits : Limits} {c : Config} (hstart : w₀.store.MadeOf .bounded)
    (hsession : Session Config.Countable root w₀ es w)
    (hcountable : ∀ d, Reaches limits (e.load root w) d → d.Countable)
    (hrun : Reaches limits (e.load root w) c) :
    (∀ v, c.Holds v → v.InRange) ∧
      ∀ k, c.calculation? = some k → ¬ IsInt64 k.result →
        ∃ fault : Fault, Machine.step limits c = .halt (.failed fault) c.world ∧
          fault.cause.code = "E410" ∧ fault.span = k.span := by
  have hM := Matter.bounded_closed
  have hw : w.store.MadeOf .bounded := hsession.madeOf hM (fun d t hd => hd t)
    (fun e _ => Program.read_bounded e.reads) hstart
  have hload : (e.load root w).MadeOf .bounded := load_madeOf (Program.read_bounded e.reads) hw
  have hc : c.MadeOf .bounded := hrun.madeOf hM hload fun d t hd => hcountable d hd t
  refine ⟨fun v hv => hc.inRange hv, fun k hk hresult => ?_⟩
  exact ⟨_, step_of_overflow hk hresult, rfl, rfl⟩

/-- The greatest integer is not counted up. -/
theorem Session.integers_inRange_counted_up :
    ∃ (e : Entry) (c : Config) (k : Calculation),
      e.source = "let x = 9223372036854775807\nx++" ∧
      Reaches ⟨10, none⟩ (e.load (World.ofInput []).newRoot.1 (World.ofInput []).newRoot.2) c ∧
      c.calculation? = some k ∧ k.result = 0x8000000000000000 ∧
      ∃ fault : Fault, Machine.step ⟨10, none⟩ c = .halt (.failed fault) c.world ∧
        fault.cause.code = "E410" ∧ fault.span = k.span := by
  have hcheck : ((Entry.read? none "let x = 9223372036854775807\nx++").any fun e =>
      let start := e.load (World.ofInput []).newRoot.1 (World.ofInput []).newRoot.2
      always ⟨10, none⟩ (fun d => d.measured?.isNone) 20 start &&
        (after ⟨10, none⟩ 7 start).any fun c =>
          c.calculation?.any fun k => k.result = 0x8000000000000000) = true := by
    decide +kernel
  obtain ⟨e, he, hcheck⟩ := (Option.any_eq_true _ _).1 hcheck
  obtain ⟨halways, hcheck⟩ := Bool.and_eq_true_iff.1 hcheck
  obtain ⟨c, hafter, hcheck⟩ := (Option.any_eq_true _ _).1 hcheck
  obtain ⟨k, hk, hresult⟩ := (Option.any_eq_true _ _).1 hcheck
  have hresult := of_decide_eq_true hresult
  have hrun := reaches_of_after hafter
  have hcountable : ∀ d, Reaches ⟨10, none⟩
      (e.load (World.ofInput []).newRoot.1 (World.ofInput []).newRoot.2) d → d.Countable := by
    intro d hd t ht
    have hnone := hd.of_always halways
    rw [ht] at hnone
    cases hnone
  refine ⟨e, c, k, Entry.source_of_read? he, hrun, hk, hresult, ?_⟩
  exact (integers_inRange (.newRoot []) .start hcountable hrun).2 k hk
    (by rw [hresult]; unfold IsInt64; omega)

end ScriptLang
