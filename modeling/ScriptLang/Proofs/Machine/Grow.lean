import ScriptLang.Proofs.Machine.UnderWay
import ScriptLang.Proofs.Store.Grow

/-!
# What moves bind

Only two moves bind a name in a scope that may not own it: the one that defines a named
function, and the one that hands a declaration its value (`Stage.binds?`). All others bind names
in new scopes or again where they are owned, so that is all by which the scopes of a store grow
in one move (`Move.growsBy`).
-/

namespace ScriptLang

/-- The name that the next move binds, with the scope in which it does, if that need not own it
already. -/
def Stage.binds? (s : Stage) : Option (ScopeId × Text) :=
  match s.control, s.frames with
  | .expression (.function _ (some name) _ _) scope, _ => some (scope, name)
  | .deliver _, .declare name scope :: _ => some (scope, name)
  | _, _ => none

/-- What the next move admits. -/
def Stage.Binds (s : Stage) (id : ScopeId) (name : Text) : Prop := s.binds? = some (id, name)

namespace Machine

variable {limits : Limits} {w : World} {n : Nat} {e : Stage} {A : ScopeId → Text → Prop}
  {s : ScopeId}

/-- A scope in which a name can be bound again owns it. -/
theorem owns_of_owner {name : Text} {o : ScopeId} (h : owner name s w = .ok o) :
    w.store.owns o name = true := by
  unfold owner at h
  split at h
  · cases h
  · split at h
    · next ho =>
      cases h
      exact Store.owns_of_owner? ho
    · cases h

theorem Turned.growsBy {loop : ElementLoop} {i : IteratorId} (h : Turned loop i w n e) :
    w.store.GrowsBy A e.world.store := by
  have hnext : w.store.GrowsBy A (w.store.next i).2 := .of_scopes_eq (Store.next_scopes _ i)
  cases h with
  | last => exact hnext
  | turn _ h₁ hi h₂ =>
    subst h₁ hi h₂
    exact hnext.trans (.newChild_declareAll _ loop.scope "for" none (some true) [(loop.item, _)])

theorem Tested.growsBy {loop : CountingLoop} (h : Tested loop w n e) :
    w.store.GrowsBy A e.world.store := by
  cases h with
  | turn => exact .newChild _ _ _ _ _
  | test => exact .refl _ _

theorem Begins.growsBy {control : Control} {base : List Frame} (h : Begins w n control e) :
    w.store.GrowsBy (Stage.Binds ⟨control, base, w, n⟩) e.world.store := by
  cases h with
  | increment _ _ howner => exact .declare (.inl (owns_of_owner howner)) _
  | definition => exact .declare (.inr rfl) _
  | counting h => exact (Store.GrowsBy.newChild _ _ _ _ _).trans h.growsBy
  | countingFrom => exact .newChild _ _ _ _ _
  | _ => exact .refl _ _

theorem Resumes.growsBy {f : Frame} {k : Completion} {base : List Frame}
    (h : Resumes limits w n f k e) :
    w.store.GrowsBy (Stage.Binds ⟨.deliver k, f :: base, w, n⟩) e.world.store := by
  cases h with
  | assigned howner => exact .declare (.inl (owns_of_owner howner)) _
  | builtin _ _ hreply => exact .of_scopes_eq (Builtin.call_value hreply).2
  | entered _ _ _ hi hw =>
    subst hi hw
    exact .newChild_declareAll _ _ _ _ _ _
  | declare => exact .declare (.inr rfl) _
  | branch | branchBlock | whileTurn | countingTurn => exact .newChild _ _ _ _ _
  | elements _ hw h =>
    subst hw
    exact (Store.GrowsBy.of_scopes_eq (Store.iterator_scopes _ _)).trans h.growsBy
  | countingStepped h | countingStarted h | elementAgain _ h | countingAgain _ _ h =>
    exact h.growsBy
  | _ => exact .refl _ _

/-- A move grows the scopes that there are by the name that it binds, if it binds one. -/
theorem Move.growsBy {s e : Stage} (h : Move limits s e) :
    s.world.store.GrowsBy s.Binds e.world.store := by
  cases h with
  | begins h => exact h.growsBy
  | resumes h => exact h.growsBy

theorem Move.grows {s e : Stage} (h : Move limits s e) : s.world.store.Grows e.world.store :=
  h.growsBy.grows

end Machine

end ScriptLang
