import ScriptLang.Proofs.Machine.Grow
import ScriptLang.Proofs.Tree.Declared

/-!
# Where code can bind names

All that runs and all that waits can bind names in the scope that it belongs to, those that its
tree binds there. `Stage.Confined A` says that `A` admits them all. What a move begins belongs
to the same scope, as a part of what there was, or to a new one; so what is confined to some
names and to new scopes stays confined to them (`Move.confined`), and while a statement is
under way the scopes that there were grow by the names of its tree at most (`Leaves.growsBy`).
-/

namespace ScriptLang

variable {A : ScopeId → Text → Prop}

/-- The tests and steps of a counting loop bind only what is admitted. -/
def CountingLoop.Confined (A : ScopeId → Text → Prop) (loop : CountingLoop) : Prop :=
  (∀ e, loop.condition = some e → ∀ n ∈ e.binds, A loop.scope n) ∧
    ∀ e, loop.step = some e → ∀ n ∈ e.binds, A loop.scope n

/-- What waits binds only what is admitted. -/
def Frame.Confined (A : ScopeId → Text → Prop) : Frame → Prop
  | .operands _ _ _ rest scope => ∀ n ∈ Expr.bindsAll rest, A scope n
  | .declare name scope => A scope name
  | .giveBack => True
  | .assertion _ _ _ => True
  | .branch _ _ otherwise scope => ∀ n ∈ otherwise.binds, A scope n
  | .whileTest loop => ∀ n ∈ loop.condition.binds, A loop.scope n
  | .whileBody loop => ∀ n ∈ loop.condition.binds, A loop.scope n
  | .elements _ _ => True
  | .elementBody _ _ => True
  | .countingStart loop => loop.Confined A
  | .countingTest loop _ => loop.Confined A
  | .countingBody loop => loop.Confined A
  | .countingStep loop => loop.Confined A
  | .sequence rest scope => ∀ x ∈ rest, ∀ n ∈ x.binds, A scope n
  | .call => True

/-- What is being done binds only what is admitted. -/
def Control.Confined (A : ScopeId → Text → Prop) : Control → Prop
  | .expression e scope => ∀ n ∈ e.binds, A scope n
  | .statement x scope => ∀ n ∈ x.binds, A scope n
  | .statements xs scope => ∀ x ∈ xs, ∀ n ∈ x.binds, A scope n
  | .deliver _ => True

/-- All that is done and that waits binds only what is admitted. -/
structure Stage.Confined (A : ScopeId → Text → Prop) (s : Stage) : Prop where
  control : s.control.Confined A
  frames : ∀ f ∈ s.frames, f.Confined A

/-- What the next move binds is admitted. -/
theorem Stage.Confined.binds {s : Stage} (h : s.Confined A) {id : ScopeId} {n : Text}
    (hn : s.Binds id n) : A id n := by
  unfold Binds binds? at hn
  split at hn
  · next hcontrol =>
    cases hn
    have hbinds := h.control
    rw [hcontrol] at hbinds
    exact hbinds _ (List.mem_singleton_self _)
  · next hframes =>
    cases hn
    exact h.frames _ (hframes ▸ List.mem_cons_self)
  · cases hn

/-- All names are admitted in the scopes that a store does not have yet. -/
def Store.Admits (A : ScopeId → Text → Prop) (σ : Store) : Prop :=
  ∀ id n, σ.scopes.size ≤ id.index → A id n

theorem Store.Admits.grows {σ σ' : Store} (h : σ.Admits A) (hσ : σ.Grows σ') : σ'.Admits A :=
  fun id n hid => h id n (Nat.le_trans hσ.size_le hid)

namespace Machine

variable {limits : Limits} {w : World} {n : Nat} {e : Stage} {base : List Frame}

theorem confined_go {control : Control} (hc : control.Confined A) :
    (Stage.go control w n).Confined A :=
  ⟨hc, nofun⟩

theorem confined_hand (k : Completion) : (Stage.hand k w n).Confined A :=
  confined_go trivial

theorem confined_push {f : Frame} {control : Control} (hf : f.Confined A)
    (hc : control.Confined A) : (Stage.push f control w n).Confined A :=
  ⟨hc, fun _ hg => List.mem_singleton.1 hg ▸ hf⟩

/-- The names that the parts of an expression bind are those that it binds. -/
theorem parts?_binds {e first : Expr} {operation : Operation} {rest : List Expr}
    (h : parts? e = some (operation, first, rest)) :
    e.binds = first.binds ++ Expr.bindsAll rest := by
  have hoption : ∀ (o : Option Expr) (es : List Expr),
      Expr.bindsAll (o.toList ++ es) = Expr.bindsOption o ++ Expr.bindsAll es := by
    intro o es
    cases o <;> simp [Expr.bindsAll, Expr.bindsOption]
  have hlast : ∀ o : Option Expr, Expr.bindsAll o.toList = Expr.bindsOption o := by
    intro o
    cases o <;> simp [Expr.bindsAll, Expr.bindsOption]
  cases e <;> cases h <;> simp [Expr.binds, Expr.bindsAll, hoption, hlast]

theorem Tested.confined {loop : CountingLoop} (h : Tested loop w n e)
    (hA : w.store.Admits A) (hl : loop.Confined A) : e.Confined A := by
  cases h with
  | turn => exact confined_push hl fun _ _ _ _ => hA _ _ (Nat.le_refl _)
  | test he => exact confined_push hl (hl.1 _ he)

theorem Turned.confined {loop : ElementLoop} {i : IteratorId} (h : Turned loop i w n e)
    (hA : w.store.Admits A) : e.Confined A := by
  cases h with
  | last => exact confined_hand _
  | turn _ h₁ hi =>
    subst h₁ hi
    have hA := hA.grows (.next w.store i)
    exact confined_push trivial fun _ _ _ _ => hA _ _ (Nat.le_refl _)

theorem Begins.confined {control : Control} (h : Begins w n control e) (hA : w.store.Admits A)
    (hc : control.Confined A) : e.Confined A := by
  cases h with
  | literal | nothing | name | increment | lambda | definition | returning | breaking |
      continuing | finished => exact confined_hand _
  | parts hparts =>
    have hbinds := parts?_binds hparts
    refine confined_push (fun n hn => hc n ?_) fun n hn => hc n ?_
    · exact hbinds ▸ List.mem_append_right _ hn
    · exact hbinds ▸ List.mem_append_left _ hn
  | value => exact confined_go hc
  | declaration =>
    obtain ⟨hname, hvalue⟩ := List.forall_mem_cons.1 hc
    exact confined_push hname hvalue
  | conditional =>
    obtain ⟨hcondition, hother⟩ := List.forall_mem_append.1 hc
    exact confined_push hother hcondition
  | whileLoop => exact confined_push hc hc
  | forEach | returningValue | assertion => exact confined_push trivial hc
  | counting h =>
    refine h.confined (hA.grows (.newChild _ _ _ _ _)) ⟨?_, ?_⟩
    all_goals exact fun _ _ _ _ => hA _ _ (Nat.le_refl _)
  | countingFrom hi =>
    subst hi
    refine confined_push ⟨?_, ?_⟩ fun _ _ => hA _ _ (Nat.le_refl _)
    all_goals exact fun _ _ _ _ => hA _ _ (Nat.le_refl _)
  | sequence =>
    obtain ⟨hfirst, hrest⟩ := List.forall_mem_cons.1 hc
    exact confined_push hrest hfirst

theorem Resumes.confined {f : Frame} {k : Completion} (h : Resumes limits w n f k e)
    (hA : w.store.Admits A) (hf : f.Confined A) : e.Confined A := by
  cases h with
  | operand =>
    obtain ⟨hfirst, hrest⟩ := List.forall_mem_append.1 hf
    exact confined_push hrest hfirst
  | operator | assigned | builtin | declare | giveBack | assertion | branchSkip | whileDone |
      countingDone | sequenceLeft | whileLeft | elementLeft | countingLeft | answered =>
    exact confined_hand _
  | entered _ _ _ hi =>
    subst hi
    exact confined_push trivial fun _ _ _ _ => hA _ _ (Nat.le_refl _)
  | branch | branchBlock => exact confined_go fun _ _ _ _ => hA _ _ (Nat.le_refl _)
  | branchChain => exact confined_go hf
  | whileTurn | countingTurn =>
    exact confined_push hf fun _ _ _ _ => hA _ _ (Nat.le_refl _)
  | elements _ hw h =>
    subst hw
    exact h.confined (hA.grows (.iterator _ _))
  | countingStepped h | countingStarted h | countingAgain _ _ h => exact h.confined hA hf
  | sequence => exact confined_go hf
  | whileAgain => exact confined_push hf hf
  | elementAgain _ h => exact h.confined hA
  | countingStep _ he => exact confined_push hf (hf.2 _ he)

/-- A move leads from what is confined to what is confined. -/
theorem Move.confined {s e : Stage} (h : Move limits s e) (hA : s.world.store.Admits A)
    (hs : s.Confined A) : e.Confined A := by
  cases h with
  | begins h =>
    have he := h.confined hA hs.control
    exact ⟨he.control, List.forall_mem_append.2 ⟨he.frames, hs.frames⟩⟩
  | resumes h =>
    obtain ⟨hf, hbase⟩ := List.forall_mem_cons.1 hs.frames
    have he := h.confined hA hf
    exact ⟨he.control, List.forall_mem_append.2 ⟨he.frames, hbase⟩⟩

/-! ### Parts under way -/

/-- What is confined is still, and the scopes of a store have grown by what is admitted. -/
structure Kept (A : ScopeId → Text → Prop) (σ : Store) (s : Stage) : Prop where
  confined : s.Confined A
  grown : σ.GrowsBy A s.world.store

theorem Kept.move {σ : Store} (hA : σ.Admits A) (s e : Stage) (h : Kept A σ s)
    (hmove : Move limits s e) : Kept A σ e where
  confined := hmove.confined (hA.grows h.grown.grows) h.confined
  grown := h.grown.trans (hmove.growsBy.imp fun _ _ _ hn => h.confined.binds hn)

/-- While a statement is under way and when it is done, and where the run ends meanwhile, the
scopes that there were have grown by the names of its tree at most, and in its scope alone. -/
theorem Leaves.growsBy {c : Config} {σ : Store} {x : Stmt} {scope : ScopeId}
    (h : Leaves limits c σ) (hc : c.control = .statement x scope) :
    c.world.store.GrowsBy (fun id n => id = scope ∧ n ∈ x.binds) σ := by
  obtain ⟨control, stack, w, n⟩ := c
  cases hc
  let A : ScopeId → Text → Prop := fun id n =>
    w.store.scopes.size ≤ id.index ∨ id = scope ∧ n ∈ x.binds
  have hA : w.store.Admits A := fun id n hid => .inl hid
  have hstart : Kept A w.store (.go (.statement x scope) w n) :=
    ⟨confined_go fun n hn => .inr ⟨rfl, hn⟩, .refl A w.store⟩
  obtain ⟨s, hs, rfl⟩ := h.kept (Kept.move hA) hstart
  refine hs.grown.imp fun id n hid hn => hn.resolve_left fun hle => ?_
  obtain ⟨t, ht⟩ := Option.isSome_iff_exists.1 hid
  exact absurd (Store.scope?_lt ht) (Nat.not_lt.2 hle)

end Machine

end ScriptLang
