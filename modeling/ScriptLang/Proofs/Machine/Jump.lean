import ScriptLang.Proofs.Machine.Placement
import ScriptLang.Proofs.Machine.UnderWay
import ScriptLang.Proofs.Token.Scan

/-!
# Jumps outside of loops and functions

The evaluator refuses `return`, `break` and `continue` by the flags of the scope that
they run in. `fails_iff_misplaced` shows that this refuses exactly those that stand
outside of functions or loops in the text of the program, whatever led there: no two
jumps of a program begin at one place, so the place of one that runs is the place it
has in the text.
-/

namespace ScriptLang

/-- Why a statement is refused where it stands, if it is. -/
def Stmt.misplaced? (π : Place) : Stmt → Option RuntimeCause
  | .returning _ _ => if π.inFunction then none else some .returnOutsideFunction
  | .breaking _ => if π.inLoop then none else some (.controlOutsideLoop "break")
  | .continuing _ => if π.inLoop then none else some (.controlOutsideLoop "continue")
  | _ => none

theorem Stmt.misplaced?_of_not_jump {s : Stmt} (h : ¬ s.jump?.isSome) (π : Place) :
    s.misplaced? π = none := by
  cases s <;> first | rfl | exact absurd rfl h

/-- A cause that refuses a jump. -/
def RuntimeCause.RefusesJump (cause : RuntimeCause) : Prop :=
  cause.code = "E408" ∨ cause.code = "E409"

theorem RuntimeCause.refusesJump_iff {cause : RuntimeCause} :
    cause.RefusesJump ↔
      cause = .returnOutsideFunction ∨ ∃ word, cause = .controlOutsideLoop word := by
  unfold RefusesJump
  cases cause <;> simp [code] <;> decide

namespace Machine

variable {limits : Limits} {scope : ScopeId} {stack : Stack} {w w' : World} {calls : Nat}
  {cause : RuntimeCause} {span : Span}

theorem failAt_inj {cause' : RuntimeCause} {span' : Span} :
    failAt cause' span' w' = failAt cause span w ↔
      cause' = cause ∧ span' = span ∧ w' = w := by
  simp [failAt, Fault.ofRuntime, and_assoc]

theorem go_ne_failAt (next : Config) : Next.go next ≠ failAt cause span w := by
  intro h
  cases h

theorem descend_ne_failAt (f : Frame) (control : Control) :
    descend limits f control stack w' calls ≠ failAt cause span w := by
  unfold descend
  split
  · exact go_ne_failAt _
  · unfold failAt
    intro h
    cases h

theorem testCounting_ne_failAt (loop : CountingLoop) :
    testCounting limits loop stack w' calls ≠ failAt cause span w := by
  unfold testCounting
  split
  · exact descend_ne_failAt _ _
  · exact descend_ne_failAt _ _

/-- A statement is refused as a jump exactly when it is misplaced where its scope
stands. -/
theorem execute_fails_iff {s : Stmt} {π : Place} (hπ : w'.store.place? scope = some π)
    (hc : cause.RefusesJump) :
    execute limits s scope stack w' calls = failAt cause span w ↔
      s.misplaced? π = some cause ∧ s.span = span ∧ w' = w := by
  have hreserved : ∀ (name : Text) (span' : Span),
      failAt (.reservedName name) span' w' ≠ failAt cause span w := by
    intro name span' h
    obtain ⟨rfl, -⟩ := failAt_inj.1 h
    rcases RuntimeCause.refusesJump_iff.1 hc with h | ⟨word, h⟩ <;> cases h
  have hfunction := Store.inFunction_of_place? hπ
  have hloop := Store.inLoop_of_place? hπ
  unfold execute
  cases s with
  | simple statement =>
    refine iff_of_false ?_ (by simp [Stmt.misplaced?])
    cases statement with
    | expression e => exact go_ne_failAt _
    | declaration span' name value =>
      dsimp only
      split
      · exact hreserved name span'
      · exact descend_ne_failAt _ _
  | conditional chain =>
    refine iff_of_false ?_ (by simp [Stmt.misplaced?])
    cases chain with
    | mk span' condition body otherwise => exact descend_ne_failAt _ _
  | whileLoop span' condition body =>
    exact iff_of_false (descend_ne_failAt _ _) (by simp [Stmt.misplaced?])
  | forEach span' item iterable body =>
    refine iff_of_false ?_ (by simp [Stmt.misplaced?])
    dsimp only
    split
    · exact hreserved item span'
    · exact descend_ne_failAt _ _
  | counting span' initializer condition step body =>
    refine iff_of_false ?_ (by simp [Stmt.misplaced?])
    dsimp only
    split
    · exact testCounting_ne_failAt _
    · exact descend_ne_failAt _ _
  | returning span' value =>
    simp only [hfunction, Stmt.misplaced?, Stmt.span]
    cases π.inFunction with
    | false => simpa using failAt_inj
    | true =>
      refine iff_of_false ?_ (by simp)
      cases value with
      | none => exact go_ne_failAt _
      | some e => exact descend_ne_failAt _ _
  | breaking span' =>
    simp only [hloop, Stmt.misplaced?, Stmt.span]
    cases π.inLoop with
    | false => simpa using failAt_inj
    | true => exact iff_of_false (go_ne_failAt _) (by simp)
  | continuing span' =>
    simp only [hloop, Stmt.misplaced?, Stmt.span]
    cases π.inLoop with
    | false => simpa using failAt_inj
    | true => exact iff_of_false (go_ne_failAt _) (by simp)
  | assertion span' condition message =>
    exact iff_of_false (descend_ne_failAt _ _) (by simp [Stmt.misplaced?])

/-- A statement stands at a place in the text of a program, or in that of a function
that the store holds. -/
def Stands (program : Block) (σ : Store) (x : Place × Stmt) : Prop :=
  x ∈ program.placed .outside ∨ ∃ v, σ.Holds v ∧ x ∈ v.placed

/-- A statement is refused as a jump in the next move exactly when it is misplaced at a
place. -/
def JudgedAt (limits : Limits) (c : Config) (s : Stmt) (π : Place) : Prop :=
  ∀ cause : RuntimeCause, cause.RefusesJump → ∀ span w,
    Machine.step limits c = failAt cause span w ↔
      s.misplaced? π = some cause ∧ s.span = span ∧ c.world = w

/-- Whatever runs a statement runs it where it stands in the text. -/
theorem Reaches.stands {program : Block} {root : ScopeId} {s : Stmt}
    (hroot : w.store.place? root = some .outside)
    (h : Reaches limits (load program root w) ⟨.statement s scope, stack, w', calls⟩) :
    ∃ π, Stands program w.store (π, s) ∧ w'.store.place? scope = some π := by
  have hcovered := h.covered (U := Stands program w.store)
    ⟨.outside, hroot, fun x hx => .inl hx⟩ fun v hv x hx => .inr ⟨v, hv, hx⟩
  obtain ⟨π, hπ, hcode⟩ := hcovered.control
  exact ⟨π, (covers_cons.1 hcode).1, hπ⟩

/-- In every run of a program from a root scope outside of functions and loops, each
statement that runs is refused as a jump exactly when it is misplaced where it stands
in the text. A jump of the program that no function held before shares stands at one
place only, the one it has in the program. -/
theorem fails_iff_misplaced {file : Option Text} {source : Text} {tokens : List Token}
    {depth : Nat} {program : Block} {root : ScopeId} {s : Stmt}
    (htokens : Token.tokenize file source = .ok tokens)
    (hprogram : Program.parseTokensAt depth tokens = .ok program)
    (hroot : w.store.place? root = some .outside)
    (hrun : Reaches limits (load program root w) ⟨.statement s scope, stack, w', calls⟩) :
    (∃ π, Stands program w.store (π, s) ∧
      JudgedAt limits ⟨.statement s scope, stack, w', calls⟩ s π) ∧
    ∀ π, (π, s) ∈ program.placed .outside →
      (∀ v, w.store.Holds v → ∀ ρ, (ρ, s) ∉ v.placed) →
      JudgedAt limits ⟨.statement s scope, stack, w', calls⟩ s π := by
  obtain ⟨ρ, hρ, hplace⟩ := hrun.stands hroot
  have hjudged : JudgedAt limits ⟨.statement s scope, stack, w', calls⟩ s ρ :=
    fun cause hcause span w'' => execute_fails_iff hplace hcause
  refine ⟨⟨ρ, hρ, hjudged⟩, fun π hπ hheld => ?_⟩
  suffices hsame : s.misplaced? π = s.misplaced? ρ by
    unfold JudgedAt
    rw [hsame]
    exact hjudged
  by_cases hjump : s.jump?.isSome
  · have hprogramPlace : (ρ, s) ∈ program.placed .outside :=
      hρ.resolve_right fun ⟨v, hv, hin⟩ => hheld v hv ρ hin
    have hreads := Program.parseTokensAt_reads (Token.tokenize_ended htokens) hprogram .outside
    have hnodup : (jumps (program.placed .outside)).Nodup :=
      (Token.tokenize_starts htokens).sublist hreads.2
    rw [place_eq_of_nodup_jumps hnodup hjump hπ hprogramPlace]
  · rw [Stmt.misplaced?_of_not_jump hjump, Stmt.misplaced?_of_not_jump hjump]

/-- Where a `break` stands. -/
def breakSpan? : Stmt → Option Span
  | .breaking span => some span
  | _ => none

theorem breakSpan?_eq_some {s : Stmt} : breakSpan? s = some span ↔ s = .breaking span := by
  cases s <;> simp [breakSpan?]

/-- A loop around a function is not around its body: the `break` in a function called
inside of the loop it was defined in is refused. -/
theorem fails_iff_misplaced_in_loop :
    ∃ tokens program span scope stack w' calls,
      Token.tokenize none "while true \x7b (|| \x7b break \x7d)() \x7d" = .ok tokens ∧
      Program.parseTokensAt 20 tokens = .ok program ∧
      (World.ofInput []).newRoot.2.store.place? (World.ofInput []).newRoot.1 = some .outside ∧
      Reaches ⟨10, none⟩ (load program (World.ofInput []).newRoot.1 (World.ofInput []).newRoot.2)
        ⟨.statement (.breaking span) scope, stack, w', calls⟩ ∧
      (Place.body, .breaking span) ∈ program.placed .outside ∧
      step ⟨10, none⟩ ⟨.statement (.breaking span) scope, stack, w', calls⟩ =
        failAt (.controlOutsideLoop "break") span w' := by
  have hcheck : ((Token.tokenize none "while true \x7b (|| \x7b break \x7d)() \x7d").toOption.any
      fun tokens => (Program.parseTokensAt 20 tokens).toOption.any fun program =>
        (after ⟨10, none⟩ 10 (load program (World.ofInput []).newRoot.1
          (World.ofInput []).newRoot.2)).any fun c => c.control.statement?.any fun x =>
            (breakSpan? x.1).any fun span => (program.placed .outside).any fun y =>
              y.1 = .body && breakSpan? y.2 = some span) = true := by
    decide +kernel
  obtain ⟨tokens, htokens, hcheck⟩ := exists_ok_of_any hcheck
  obtain ⟨program, hprogram, hcheck⟩ := exists_ok_of_any hcheck
  obtain ⟨⟨control, stack, w', calls⟩, hafter, hcheck⟩ := (Option.any_eq_true _ _).1 hcheck
  obtain ⟨⟨s, scope⟩, hcontrol, hcheck⟩ := (Option.any_eq_true _ _).1 hcheck
  obtain ⟨span, hspan, hcheck⟩ := (Option.any_eq_true _ _).1 hcheck
  obtain ⟨⟨π, t⟩, hmem, hcheck⟩ := List.any_eq_true.1 hcheck
  obtain ⟨hπ, ht⟩ := Bool.and_eq_true_iff.1 hcheck
  obtain rfl : π = .body := of_decide_eq_true hπ
  obtain rfl := breakSpan?_eq_some.1 (of_decide_eq_true ht)
  obtain rfl := Control.statement?_eq_some.1 hcontrol
  obtain rfl := breakSpan?_eq_some.1 hspan
  have hrun := reaches_of_after hafter
  have hroot : (World.ofInput []).newRoot.2.store.place? (World.ofInput []).newRoot.1 =
      some .outside := rfl
  have hheld : ∀ v, (World.ofInput []).newRoot.2.store.Holds v →
      ∀ ρ, (ρ, .breaking span) ∉ v.placed := by
    rintro v ⟨⟨_ | n⟩, s, name, hs, hb⟩
    · cases hs
      cases hb
    · cases hs
  have hjudged := (fails_iff_misplaced htokens hprogram hroot hrun).2 .body hmem hheld
  exact ⟨tokens, program, span, scope, stack, w', calls, htokens, hprogram, hroot, hrun, hmem,
    (hjudged (.controlOutsideLoop "break") (.inr rfl) span w').2 ⟨rfl, rfl, rfl⟩⟩

end Machine

end ScriptLang
