import ScriptLang.Machine.Step

/-!
# Reachable configurations

`Reaches limits c d` says that some number of moves leads from `c` to `d`. What every
move keeps holds of all that is reached (`Reaches.keeps`), and a run goes through what
it reaches (`Reaches.run_eq`).

`Ends limits c outcome w` says that moves from `c` come to an end, with an outcome and in
a world. A run that comes to an end does so in one way (`Ends.run_eq`), whatever bound it
is given.
-/

namespace ScriptLang

namespace Outcome

/-- The value that a run ends with, if it ends with one. -/
def value? : Outcome → Option Value
  | .finished v => some v
  | _ => none

/-- The error that a run ends with, if it ends with one. -/
def fault? : Outcome → Option Fault
  | .failed fault => some fault
  | _ => none

theorem value?_eq_some {o : Outcome} {v : Value} : o.value? = some v ↔ o = .finished v := by
  cases o <;> simp [value?]

theorem fault?_eq_some {o : Outcome} {fault : Fault} :
    o.fault? = some fault ↔ o = .failed fault := by
  cases o <;> simp [fault?]

end Outcome

namespace Machine

/-- Some number of moves leads from one configuration to another. -/
inductive Reaches (limits : Limits) (c : Config) : Config → Prop
  | refl : Reaches limits c c
  | step {d d' : Config} : Reaches limits c d → Machine.step limits d = .go d' →
      Reaches limits c d'

namespace Reaches

variable {limits : Limits} {c d : Config}

theorem keeps {P : Config → Prop} (hP : ∀ d d', P d → Machine.step limits d = .go d' → P d')
    (h : Reaches limits c d) (hc : P c) : P d := by
  induction h with
  | refl => exact hc
  | step _ hstep ih => exact hP _ _ ih hstep

theorem trans {e : Config} (h : Reaches limits c d) (h' : Reaches limits d e) :
    Reaches limits c e :=
  h'.keeps (fun _ _ hd hstep => hd.step hstep) h

/-- What is reached is where one is, or reached from the next configuration. -/
theorem head_cases (h : Reaches limits c d) :
    d = c ∨ ∃ c', Machine.step limits c = .go c' ∧ Reaches limits c' d := by
  induction h with
  | refl => exact .inl rfl
  | step _ hstep ih =>
    rcases ih with rfl | ⟨c', hc, hreach⟩
    · exact .inr ⟨_, hstep, .refl⟩
    · exact .inr ⟨c', hc, hreach.step hstep⟩

theorem run_eq (h : Reaches limits c d) :
    ∃ n, ∀ fuel, run limits (n + fuel) c = run limits fuel d := by
  induction h with
  | refl => exact ⟨0, fun fuel => by rw [Nat.zero_add]⟩
  | step _ hstep ih =>
    obtain ⟨n, hn⟩ := ih
    refine ⟨n + 1, fun fuel => ?_⟩
    rw [Nat.add_assoc, hn, Nat.add_comm, run_succ, hstep]

end Reaches

/-! ### The end of a run -/

/-- Some number of moves leads from a configuration to one whose move is the last. -/
def Ends (limits : Limits) (c : Config) (outcome : Outcome) (w : World) : Prop :=
  ∃ d, Reaches limits c d ∧ Machine.step limits d = .halt outcome w

theorem run_add {limits : Limits} (m : Nat) :
    ∀ {n : Nat} {c : Config}, (run limits n c).1 ≠ .unfinished →
      run limits (n + m) c = run limits n c
  | 0, _, h => absurd rfl h
  | n + 1, c, h => by
    rw [run_succ] at h
    rw [Nat.add_right_comm, run_succ, run_succ]
    cases hc : step limits c with
    | halt outcome w => rfl
    | go d =>
      rw [hc] at h
      exact run_add m h

/-- A run that is done with in the moves allowed has come to its end. -/
theorem ends_of_run {limits : Limits} {outcome : Outcome} {w : World} :
    ∀ {n : Nat} {c : Config}, run limits n c = (outcome, w) → outcome ≠ .unfinished →
      Ends limits c outcome w
  | 0, _, h, hne => absurd (congrArg Prod.fst h).symm hne
  | n + 1, c, h, hne => by
    rw [run_succ] at h
    cases hc : step limits c with
    | halt o w' =>
      rw [hc] at h
      cases h
      exact ⟨c, .refl, hc⟩
    | go d =>
      rw [hc] at h
      obtain ⟨e, hreach, hstep⟩ := ends_of_run h hne
      exact ⟨e, (Reaches.refl.step hc).trans hreach, hstep⟩

namespace Ends

variable {limits : Limits} {c : Config} {outcome : Outcome} {w : World}

/-- However many moves are allowed, a run that comes to an end is not there yet or ends
as it does. -/
theorem run_eq (h : Ends limits c outcome w) (n : Nat) :
    (run limits n c).1 = .unfinished ∨ run limits n c = (outcome, w) := by
  obtain ⟨d, hreach, hstep⟩ := h
  obtain ⟨m, hm⟩ := hreach.run_eq
  by_cases hn : (run limits n c).1 = .unfinished
  · exact .inl hn
  · have hlong : run limits (m + (n + 1)) c = (outcome, w) := by rw [hm, run_succ, hstep]
    refine .inr ?_
    rw [← run_add (m + 1) hn, ← hlong]
    congr 1
    omega

theorem of_step {d : Config} (hstep : Machine.step limits c = .go d) :
    Ends limits c outcome w ↔ Ends limits d outcome w := by
  constructor
  · rintro ⟨e, hreach, hend⟩
    rcases hreach.head_cases with rfl | ⟨c', hc, hreach⟩
    · rw [hstep] at hend
      cases hend
    · rw [hstep] at hc
      cases hc
      exact ⟨e, hreach, hend⟩
  · rintro ⟨e, hreach, hend⟩
    exact ⟨e, (Reaches.refl.step hstep).trans hreach, hend⟩

/-- A run ends as it does from any configuration that it reaches. -/
theorem of_reaches {d : Config} (h : Reaches limits c d) :
    Ends limits c outcome w ↔ Ends limits d outcome w := by
  induction h with
  | refl => rfl
  | step _ hstep ih => exact ih.trans (of_step hstep)

end Ends

/-! ### Moves on condition -/

/-- Some number of moves leads from one configuration to another, and all configurations
before the last satisfy `P`. -/
inductive ReachesVia (limits : Limits) (P : Config → Prop) (c : Config) : Config → Prop
  | refl : ReachesVia limits P c c
  | step {d d' : Config} : ReachesVia limits P c d → P d → Machine.step limits d = .go d' →
      ReachesVia limits P c d'

theorem ReachesVia.reaches {limits : Limits} {P : Config → Prop} {c d : Config}
    (h : ReachesVia limits P c d) : Reaches limits c d := by
  induction h with
  | refl => exact .refl
  | step _ _ hstep ih => exact ih.step hstep

theorem ReachesVia.trans {limits : Limits} {P : Config → Prop} {c d e : Config}
    (h : ReachesVia limits P c d) (h' : ReachesVia limits P d e) : ReachesVia limits P c e := by
  induction h' with
  | refl => exact h
  | step _ hP hstep ih => exact ih.step hP hstep

/-! ### Counted moves -/

/-- The configuration after a number of moves, if the machine moves that long. -/
def after (limits : Limits) : Nat → Config → Option Config
  | 0, c => some c
  | n + 1, c =>
    match step limits c with
    | .go d => after limits n d
    | .halt _ _ => none

/-- A run of moves begins with one of them. -/
theorem after_succ_eq_some {limits : Limits} {n : Nat} {c e : Config} :
    after limits (n + 1) c = some e ↔ ∃ d, step limits c = .go d ∧ after limits n d = some e := by
  rw [after]
  cases step limits c <;> simp

theorem after_one {limits : Limits} {c d : Config} (h : step limits c = .go d) :
    after limits 1 c = some d :=
  after_succ_eq_some.2 ⟨d, h, rfl⟩

theorem after_trans {limits : Limits} {m n : Nat} {c d e : Config}
    (h : after limits m c = some d) (h' : after limits n d = some e) :
    after limits (m + n) c = some e := by
  induction m generalizing c with
  | zero =>
    cases h
    rwa [Nat.zero_add]
  | succ m ih =>
    obtain ⟨c', hstep, hafter⟩ := after_succ_eq_some.1 h
    rw [Nat.add_right_comm]
    exact after_succ_eq_some.2 ⟨c', hstep, ih hafter⟩

theorem step_of_after {limits : Limits} {c d : Config} (h : after limits 1 c = some d) :
    step limits c = .go d := by
  obtain ⟨d', hstep, hafter⟩ := after_succ_eq_some.1 h
  cases hafter
  exact hstep

theorem reaches_of_after {limits : Limits} {n : Nat} {c d : Config}
    (h : after limits n c = some d) : Reaches limits c d := by
  induction n generalizing c with
  | zero =>
    cases h
    exact .refl
  | succ n ih =>
    obtain ⟨c', hstep, hafter⟩ := after_succ_eq_some.1 h
    exact (Reaches.refl.step hstep).trans (ih hafter)

/-- A run goes on from where its first moves lead. -/
theorem run_of_after {limits : Limits} {n : Nat} {c d : Config}
    (h : after limits n c = some d) (fuel : Nat) : run limits (n + fuel) c = run limits fuel d := by
  induction n generalizing c with
  | zero =>
    cases h
    rw [Nat.zero_add]
  | succ n ih =>
    obtain ⟨c', hstep, hafter⟩ := after_succ_eq_some.1 h
    rw [Nat.add_right_comm, run_succ, hstep]
    exact ih hafter

/-- Whether a run comes to its end in a number of moves, through configurations that pass
a test. -/
def always (limits : Limits) (p : Config → Bool) : Nat → Config → Bool
  | 0, _ => false
  | n + 1, c =>
    p c && match step limits c with
      | .go d => always limits p n d
      | .halt _ _ => true

/-- What is reached is reached after some number of moves. -/
theorem reaches_iff {limits : Limits} {c d : Config} :
    Reaches limits c d ↔ ∃ n, after limits n c = some d := by
  refine ⟨fun h => ?_, fun ⟨n, h⟩ => reaches_of_after h⟩
  induction h with
  | refl => exact ⟨0, rfl⟩
  | step _ hstep ih =>
    obtain ⟨n, hn⟩ := ih
    exact ⟨n + 1, after_trans hn (after_one hstep)⟩

/-- All that a run of configurations that pass a test reaches passes it. -/
theorem Reaches.of_always {limits : Limits} {p : Config → Bool} {n : Nat} {c d : Config}
    (h : always limits p n c = true) (hreach : Reaches limits c d) : p d = true := by
  obtain ⟨m, hm⟩ := reaches_iff.1 hreach
  induction m generalizing n c with
  | zero =>
    cases hm
    cases n with
    | zero => cases h
    | succ n =>
      rw [always, Bool.and_eq_true] at h
      exact h.1
  | succ m ih =>
    cases n with
    | zero => cases h
    | succ n =>
      obtain ⟨c', hstep, hafter⟩ := after_succ_eq_some.1 hm
      rw [always, Bool.and_eq_true, hstep] at h
      exact ih h.2 (reaches_of_after hafter) hafter

end Machine

end ScriptLang
