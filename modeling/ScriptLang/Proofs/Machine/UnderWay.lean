import ScriptLang.Proofs.Machine.Move
import ScriptLang.Proofs.Tree.Part

/-!
# Parts under way

A statement that a configuration begins is under way until its completion is handed to what
waited for it. `During limits c d` says that `d` is reached from `c` while what `c` begins is
under way or just done, and `Completes limits c k d` that it is done in `d`, with the
completion `k`.

Until then a run plays above the frames that waited in `c`, which it neither asks nor changes
(`Move.above`). So what every move keeps can be followed from the part alone, as if nothing
waited for it (`During.kept`, `Completes.kept`), also to where the run ends while the part is
under way (`During.kept_end`). No run gets past a part without completing it
(`Reaches.during_or_completes`).
-/

namespace ScriptLang

theorem Stack.ext_frames {s t : Stack} (h : s.frames = t.frames) : s = t := by
  obtain ⟨frames, height, hs⟩ := s
  obtain ⟨frames', height', ht⟩ := t
  dsimp only at h hs ht
  subst h hs ht
  rfl

/-- The expression that is evaluated or the statement that is executed, with the scope. -/
def Control.part? : Control → Option (Part × ScopeId)
  | .expression e scope => some (.expression e, scope)
  | .statement x scope => some (.statement x, scope)
  | _ => none

/-- The statement that is executed, with the scope. -/
def Control.statement? : Control → Option (Stmt × ScopeId)
  | .statement x scope => some (x, scope)
  | _ => none

theorem Control.statement?_eq_some {control : Control} {x : Stmt} {scope : ScopeId} :
    control.statement? = some (x, scope) ↔ control = .statement x scope := by
  cases control <;> simp [statement?]

/-- What waits in `base` waits still, below what else does, and has been handed nothing. -/
def Config.UnderWay (base : List Frame) (d : Config) : Prop :=
  ∃ above, d.stack.frames = above ++ base ∧ (above = [] → ∀ k, d.control ≠ .deliver k)

namespace Machine

variable {limits : Limits} {c d : Config}

/-- A configuration is reached while what another one begins is under way or just done. -/
def During (limits : Limits) (c d : Config) : Prop :=
  ReachesVia limits (Config.UnderWay c.stack.frames) c d

/-- What a configuration begins is done in another one, with a completion. -/
structure Completes (limits : Limits) (c : Config) (k : Completion) (d : Config) : Prop where
  during : During limits c d
  control : d.control = .deliver k
  stack : d.stack = c.stack

/-- A move that hands nothing to the frames of `base` does not depend on them. -/
theorem Move.above {control : Control} {above base : List Frame} {w : World} {n : Nat} {e : Stage}
    (h : Move limits ⟨control, above ++ base, w, n⟩ e)
    (hcontrol : above = [] → ∀ k, control ≠ .deliver k) :
    ∃ e', Move limits ⟨control, above, w, n⟩ e' ∧ e = e'.above base := by
  generalize hframes : above ++ base = frames at h
  cases h with
  | begins h => exact ⟨_, .begins h, by rw [Stage.above_above, hframes]⟩
  | resumes h =>
    rcases List.append_eq_cons_iff.1 hframes with ⟨rfl, -⟩ | ⟨above', rfl, rfl⟩
    · exact absurd rfl (hcontrol rfl _)
    · exact ⟨_, .resumes h, (Stage.above_above _ _ _).symm⟩

section Kept

variable {P : Stage → Prop}

/-- A move from a configuration in which a part is under way is a move of the part alone. -/
theorem Move.part {s e : Stage} (h : Move limits d.stage e) {base : List Frame}
    (hd : d.stage = s.above base) (hway : d.UnderWay base) :
    ∃ e', Move limits s e' ∧ e = e'.above base := by
  obtain ⟨above, hframes, hcontrol⟩ := hway
  have hs : s.frames = above := by
    have hboth : s.frames ++ base = above ++ base := by
      rw [← hframes]
      exact (congrArg Stage.frames hd).symm
    exact List.append_cancel_right hboth
  have hdeliver : s.frames = [] → ∀ k, s.control ≠ .deliver k := by
    rw [hs, show s.control = d.control from (congrArg Stage.control hd).symm]
    exact hcontrol
  rw [hd] at h
  exact h.above hdeliver

/-- What every move keeps is kept while a part is under way, whatever waits for it. -/
theorem During.kept (hP : ∀ s e, P s → Move limits s e → P e) (h : During limits c d)
    (hc : P (.go c.control c.world c.calls)) :
    ∃ s, d.stage = s.above c.stack.frames ∧ P s := by
  induction h with
  | refl => exact ⟨_, rfl, hc⟩
  | step _ hway hstep ih =>
    obtain ⟨s, hd, hs⟩ := ih
    obtain ⟨e, he, hover⟩ := (step_move hstep).part hd hway
    exact ⟨e, hover, hP s e hs he⟩

/-- What every move keeps holds of the completion of a part. -/
theorem Completes.kept (hP : ∀ s e, P s → Move limits s e → P e) {k : Completion}
    (h : Completes limits c k d) (hc : P (.go c.control c.world c.calls)) :
    P (.hand k d.world d.calls) := by
  obtain ⟨⟨control, frames, w, n⟩, hd, hs⟩ := h.during.kept hP hc
  have hframes : frames ++ c.stack.frames = c.stack.frames := by
    have hall : d.stack.frames = frames ++ c.stack.frames := congrArg Stage.frames hd
    rw [← hall, h.stack]
  have hcontrol : control = .deliver k := (congrArg Stage.control hd).symm.trans h.control
  have hworld : w = d.world := (congrArg Stage.world hd).symm
  have hcalls : n = d.calls := (congrArg Stage.calls hd).symm
  rwa [List.append_left_eq_self.1 hframes, hcontrol, hworld, hcalls] at hs

/-- What every move keeps holds of the world in which the run ends while a part is under way,
or that world has the store of one that it holds of. -/
theorem During.kept_end (hP : ∀ s e, P s → Move limits s e → P e) (h : During limits c d)
    (hway : d.UnderWay c.stack.frames) (hc : P (.go c.control c.world c.calls))
    {outcome : Outcome} {w : World} (hend : step limits d = .halt outcome w) :
    ∃ s, P s ∧ w.store = s.world.store := by
  obtain ⟨s, hd, hs⟩ := h.kept hP hc
  have hmoved := step_moved limits d
  rw [hend] at hmoved
  rcases hmoved with hstore | ⟨e, he, rfl⟩
  · have hworld : d.world = s.world := congrArg Stage.world hd
    exact ⟨s, hs, by rw [hstore, hworld]⟩
  · obtain ⟨e', he', rfl⟩ := he.part hd hway
    exact ⟨e', hP s e' hs he', rfl⟩

/-- A store that a part leaves behind: while it is under way, when it is done, or where the run
ends meanwhile. -/
inductive Leaves (limits : Limits) (c : Config) : Store → Prop
  | during {d : Config} (h : During limits c d) : Leaves limits c d.world.store
  | ended {d : Config} {outcome : Outcome} {w : World} (h : During limits c d)
      (hway : d.UnderWay c.stack.frames) (hend : step limits d = .halt outcome w) :
      Leaves limits c w.store

/-- What every move keeps holds where a store is left behind. -/
theorem Leaves.kept (hP : ∀ s e, P s → Move limits s e → P e) {σ : Store}
    (h : Leaves limits c σ) (hc : P (.go c.control c.world c.calls)) :
    ∃ s, P s ∧ σ = s.world.store := by
  cases h with
  | during h =>
    obtain ⟨s, hd, hs⟩ := h.kept hP hc
    exact ⟨s, hs, congrArg (fun s => s.world.store) hd⟩
  | ended h hway hend => exact h.kept_end hP hway hc hend

end Kept

/-- As long as a part is not done it is under way. -/
theorem During.underWay_or_completes (h : During limits c d) :
    d.UnderWay c.stack.frames ∨ ∃ k, Completes limits c k d := by
  obtain ⟨s, hd, -⟩ := h.kept (P := fun _ => True) (fun _ _ _ _ => trivial) trivial
  have hframes : d.stack.frames = s.frames ++ c.stack.frames := congrArg Stage.frames hd
  by_cases hdone : s.frames = [] ∧ ∃ k, d.control = .deliver k
  · obtain ⟨hs, k, hk⟩ := hdone
    refine .inr ⟨k, h, hk, Stack.ext_frames ?_⟩
    rw [hframes, hs, List.nil_append]
  · exact .inl ⟨s.frames, hframes, fun hs k hk => hdone ⟨hs, k, hk⟩⟩

/-- A run from a part is still in the part, or it has come to where the part was done. -/
theorem Reaches.during_or_completes (h : Reaches limits c d) :
    During limits c d ∨ ∃ k d', Completes limits c k d' ∧ Reaches limits d' d := by
  induction h with
  | refl => exact .inl .refl
  | step _ hstep ih =>
    rcases ih with hduring | ⟨k, d', hk, hreach⟩
    · rcases hduring.underWay_or_completes with hway | ⟨k, hk⟩
      · exact .inl (.step hduring hway hstep)
      · exact .inr ⟨k, _, hk, Reaches.refl.step hstep⟩
    · exact .inr ⟨k, d', hk, hreach.step hstep⟩

end Machine

end ScriptLang
