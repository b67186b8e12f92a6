import ScriptLang.Proofs.Session.Course

/-!
# Raising a limit

The limits of a run are asked in two places only, when a function is entered and when a
frame is pushed. So a move under a limit is the move under a higher one, unless the limit
ends the run there (`Machine.step_raised`), and a run that no limit ends is the same run
under higher limits (`Machine.run_raised`, `Machine.Ends.raised`).
-/

namespace ScriptLang

/-- What `l` allows is allowed by `l'`. -/
structure Limits.Within (l l' : Limits) : Prop where
  calls : l.calls ≤ l'.calls
  allow : ∀ height, l.allow height = true → l'.allow height = true

/-- Ends of a run that one of its limits brings about. -/
inductive Outcome.ByLimit (l : Limits) : Outcome → Prop
  | calls (span : Span) : ByLimit l (.failed (Fault.ofRuntime (.callDepthExceeded l.calls) span))
  | frames (h : l.frames ≠ none) : ByLimit l .tooDeep

/-- Moves that end a run by one of its limits. -/
def Next.ByLimit (l : Limits) : Next → Prop
  | .go _ => False
  | .halt outcome _ => outcome.ByLimit l

namespace Machine

variable {l l' : Limits} {stack : Stack} {w : World} {calls : Nat} {scope : ScopeId}
  {span : Span}

/-- The move `n'` under higher limits, beside the move `n` under `l`: it is the same one,
unless `l` ends the run. -/
def Raised (l : Limits) (n n' : Next) : Prop := n' = n ∨ n.ByLimit l

theorem Raised.refl (n : Next) : Raised l n n := .inl rfl

/-! ### One move -/

theorem descend_raised (h : l.Within l') (f : Frame) (control : Control) :
    Raised l (descend l f control stack w calls) (descend l' f control stack w calls) := by
  unfold descend
  cases ha : l.allow stack.height with
  | true =>
    rw [if_pos rfl, if_pos (h.allow _ ha)]
    exact .refl _
  | false =>
    refine .inr (.frames fun hnone => ?_)
    simp [Limits.allow, hnone] at ha

theorem enter_raised (h : l.Within l') (f : Closure) (arguments : List Value) :
    Raised l (enter l f arguments span stack w calls)
      (enter l' f arguments span stack w calls) := by
  unfold enter
  split
  · exact .refl _
  · split
    · exact .inr (.calls span)
    · next hcalls =>
      rw [if_neg fun hle => hcalls (Nat.le_trans h.calls hle)]
      exact descend_raised h _ _

theorem call_raised (h : l.Within l') (callee : Value) (arguments : List Value) :
    Raised l (call l callee arguments span stack w calls)
      (call l' callee arguments span stack w calls) := by
  unfold call
  split
  · exact enter_raised h _ _
  · exact .refl _
  · exact .refl _

theorem perform_raised (h : l.Within l') (operation : Operation) (vs : List Value) :
    Raised l (perform l operation span vs scope stack w calls)
      (perform l' operation span vs scope stack w calls) := by
  unfold perform
  split
  case h_4 => exact call_raised h _ _
  all_goals exact .refl _

theorem evaluate_raised (h : l.Within l') (e : Expr) :
    Raised l (evaluate l e scope stack w calls) (evaluate l' e scope stack w calls) := by
  unfold evaluate
  split
  case h_6 =>
    split
    · exact descend_raised h _ _
    · exact .refl _
  all_goals exact .refl _

theorem turnElement_raised (h : l.Within l') (loop : ElementLoop) (iterator : IteratorId) :
    Raised l (turnElement l loop iterator stack w calls)
      (turnElement l' loop iterator stack w calls) := by
  unfold turnElement
  dsimp only
  split
  · exact .refl _
  · exact descend_raised h _ _

theorem testCounting_raised (h : l.Within l') (loop : CountingLoop) :
    Raised l (testCounting l loop stack w calls) (testCounting l' loop stack w calls) := by
  unfold testCounting
  split
  · exact descend_raised h _ _
  · exact descend_raised h _ _

theorem execute_raised (h : l.Within l') (s : Stmt) :
    Raised l (execute l s scope stack w calls) (execute l' s scope stack w calls) := by
  unfold execute
  split
  · exact .refl _
  · split
    · exact .refl _
    · exact descend_raised h _ _
  · exact descend_raised h _ _
  · exact descend_raised h _ _
  · split
    · exact .refl _
    · exact descend_raised h _ _
  · dsimp only
    split
    · exact testCounting_raised h _
    · exact descend_raised h _ _
  · split
    · split
      · exact .refl _
      · exact descend_raised h _ _
    · exact .refl _
  · exact .refl _
  · exact .refl _
  · exact descend_raised h _ _

theorem resumeValue_raised (h : l.Within l') (f : Frame) (v : Value) :
    Raised l (resumeValue l f v stack w calls) (resumeValue l' f v stack w calls) := by
  unfold resumeValue
  split
  · exact perform_raised h _ _
  · exact descend_raised h _ _
  · exact .refl _
  · exact .refl _
  · exact .refl _
  · exact .refl _
  · split
    · exact .refl _
    · exact .refl _
    · exact descend_raised h _ _
  · split
    · exact .refl _
    · exact turnElement_raised h _ _
  · split
    · exact .refl _
    · exact .refl _
    · exact descend_raised h _ _
  · exact testCounting_raised h _
  · exact .refl _

theorem resume_raised (h : l.Within l') (f : Frame) (c : Completion) :
    Raised l (resume l f c stack w calls) (resume l' f c stack w calls) := by
  unfold resume
  split
  · exact .refl _
  · split
    · exact .refl _
    · exact .refl _
    · exact descend_raised h _ _
  · split
    · exact .refl _
    · exact .refl _
    · exact turnElement_raised h _ _
  · exact testCounting_raised h _
  · split
    · exact .refl _
    · exact .refl _
    · unfold stepCounting
      split
      · exact testCounting_raised h _
      · exact descend_raised h _ _
  · exact .refl _
  · split
    · exact resumeValue_raised h _ _
    · exact .refl _

theorem step_raised (h : l.Within l') (c : Config) : Raised l (step l c) (step l' c) := by
  obtain ⟨control, stack, w, calls⟩ := c
  cases control with
  | expression e scope => exact evaluate_raised h e
  | statement s scope => exact execute_raised h s
  | statements ss scope =>
    cases ss with
    | nil => exact .refl _
    | cons s rest => exact descend_raised h _ _
  | deliver c =>
    unfold step
    dsimp only
    split
    · exact resume_raised h _ _
    · exact .refl _

/-! ### A whole run -/

theorem run_raised (h : l.Within l') :
    ∀ (n : Nat) (c : Config), ¬ (run l n c).1.ByLimit l → run l' n c = run l n c
  | 0, _, _ => rfl
  | n + 1, c, hlimit => by
    rw [run_succ] at hlimit ⊢
    rcases step_raised h c with hstep | hstep
    · rw [run_succ, hstep]
      cases hc : step l c with
      | halt outcome w => rfl
      | go d =>
        rw [hc] at hlimit
        exact run_raised h n d hlimit
    · cases hc : step l c with
      | halt outcome w =>
        rw [hc] at hstep hlimit
        exact absurd hstep hlimit
      | go d =>
        rw [hc] at hstep
        exact hstep.elim

theorem Reaches.raised (h : l.Within l') {c d : Config} (hreach : Reaches l c d) :
    Reaches l' c d := by
  induction hreach with
  | refl => exact .refl
  | step _ hstep ih =>
    rcases step_raised h _ with hsame | hlimit
    · exact ih.step (hsame.trans hstep)
    · rw [hstep] at hlimit
      exact hlimit.elim

theorem Ends.raised (h : l.Within l') {c : Config} {outcome : Outcome}
    (hends : Ends l c outcome w) (hlimit : ¬ outcome.ByLimit l) : Ends l' c outcome w := by
  obtain ⟨d, hreach, hstep⟩ := hends
  refine ⟨d, hreach.raised h, ?_⟩
  rcases step_raised h d with hsame | hby
  · exact hsame.trans hstep
  · rw [hstep] at hby
    exact absurd hby hlimit

end Machine

/-- With room for any number of frames only the number of calls can end a run. -/
theorem Outcome.not_byLimit {d : Nat} {outcome : Outcome}
    (hcode : ∀ fault, outcome = .failed fault → fault.cause.code ≠ "E411") :
    ¬ outcome.ByLimit ⟨d, none⟩ := by
  rintro (⟨span⟩ | h)
  · exact hcode _ rfl rfl
  · exact h rfl

/-- A run that ends under a limit on calls, and not for the sake of that limit, ends alike
under every higher one: in the same way and in the same world, and so with the same
result. -/
theorem Program.ends_of_calls_le {d d' : Nat} (hle : d ≤ d') {program : Block}
    {scope : ScopeId} {w w' : World} {outcome : Outcome}
    (hends : Machine.Ends ⟨d, none⟩ (Machine.load program scope w) outcome w')
    (hcode : ∀ fault, outcome = .failed fault → fault.cause.code ≠ "E411") :
    Machine.Ends ⟨d', none⟩ (Machine.load program scope w) outcome w' ∧
      ∀ lines, Program.execute ⟨d', none⟩ program lines scope w =
        Program.execute ⟨d, none⟩ program lines scope w := by
  have hwithin : Limits.Within ⟨d, none⟩ ⟨d', none⟩ := ⟨hle, fun _ h => h⟩
  have hlimit := Outcome.not_byLimit (d := d) hcode
  refine ⟨hends.raised hwithin hlimit, fun lines => ?_⟩
  have hrun : ¬ (Machine.run ⟨d, none⟩ Machine.ample
      (Machine.load program scope w)).1.ByLimit ⟨d, none⟩ := by
    rcases hends.run_eq Machine.ample with h | h
    · rw [h]
      nofun
    · rw [h]
      exact hlimit
  rw [Program.execute, Machine.run_raised hwithin _ _ hrun]
  rfl

/-- One call at a time is enough for a function that calls no other, so a second one may be
allowed. -/
theorem Program.ends_of_calls_le_one :
    ∃ (e : Entry) (outcome : Outcome) (w : World), e.source = "(|n| => n / 2)(7)" ∧
      Machine.Ends ⟨1, none⟩
        (e.load (World.ofInput []).newRoot.1 (World.ofInput []).newRoot.2) outcome w ∧
      (∀ fault : Fault, outcome = .failed fault → fault.cause.code ≠ "E411") ∧
      Machine.Ends ⟨2, none⟩
        (e.load (World.ofInput []).newRoot.1 (World.ofInput []).newRoot.2) outcome w := by
  have hcheck : ((Entry.read? none "(|n| => n / 2)(7)").any fun e =>
      (Machine.run ⟨1, none⟩ 30
        (e.load (World.ofInput []).newRoot.1 (World.ofInput []).newRoot.2)).1.value?.isSome) =
      true := by
    decide +kernel
  obtain ⟨e, he, hcheck⟩ := (Option.any_eq_true _ _).1 hcheck
  obtain ⟨v, hv⟩ := Option.isSome_iff_exists.1 hcheck
  cases hrun : Machine.run ⟨1, none⟩ 30
      (e.load (World.ofInput []).newRoot.1 (World.ofInput []).newRoot.2) with
  | mk outcome w =>
    rw [hrun, Outcome.value?_eq_some] at hv
    dsimp only at hv
    subst hv
    have hends := Machine.ends_of_run hrun nofun
    have hcode : ∀ fault : Fault, Outcome.finished v = .failed fault →
        fault.cause.code ≠ "E411" := nofun
    have hraised := (Program.ends_of_calls_le (Nat.le_succ 1) hends hcode).1
    exact ⟨e, .finished v, w, Entry.source_of_read? he, hends, hcode, hraised⟩

end ScriptLang
