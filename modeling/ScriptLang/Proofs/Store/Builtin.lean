import ScriptLang.Builtin.Basic
import ScriptLang.Proofs.Store.Place

/-!
# Built-in functions bind nothing

A built-in function may take an element from an iterator, read and write, but it changes no
scope (`Builtin.call_scopes`), and what it answers with is data (`Builtin.call_data`). So
whatever holds of the functions that a store binds still holds after its call.
-/

namespace ScriptLang

/-- The world after an answer. -/
def Reply.world : Reply → World
  | .value _ w => w
  | .refused _ w => w
  | .exit _ w => w
  | .interrupted w => w

namespace Builtin

theorem readWith_scopes (shown : Text) (w : World) :
    (readWith shown w).world.store.scopes = w.store.scopes := by
  unfold readWith
  dsimp only
  split <;> rfl

theorem call_scopes (b : Builtin) (arguments : List Value) (w : World) :
    (b.call arguments w).world.store.scopes = w.store.scopes := by
  unfold call
  cases b with
  | print => rfl
  | input =>
    dsimp only [callInput]
    split
    · exact readWith_scopes _ w
    · exact readWith_scopes _ w
    · rfl
  | len =>
    dsimp only [callLen]
    split <;> rfl
  | iter =>
    dsimp only [callIter]
    split
    · split
      · exact Store.iterator_scopes w.store _
      · rfl
    · rfl
  | next =>
    dsimp only [callNext]
    split
    · exact Store.next_scopes w.store _
    · rfl
    · rfl
  | exit =>
    dsimp only [callExit]
    split <;> rfl

theorem readWith_data {shown : Text} {w w' : World} {v : Value}
    (h : readWith shown w = .value v w') : v.Data := by
  unfold readWith at h
  dsimp only at h
  split at h <;> cases h <;> trivial

theorem call_data {b : Builtin} {arguments : List Value} {w w' : World} {v : Value}
    (h : b.call arguments w = .value v w') : v.Data := by
  unfold call at h
  cases b with
  | print =>
    cases h
    trivial
  | input =>
    dsimp only [callInput] at h
    split at h
    · exact readWith_data h
    · exact readWith_data h
    · cases h
  | len =>
    dsimp only [callLen] at h
    split at h <;> cases h
    trivial
  | iter =>
    dsimp only [callIter] at h
    split at h
    · split at h <;> cases h
      trivial
    · cases h
  | next =>
    dsimp only [callNext] at h
    split at h <;> cases h
    next id =>
      cases hn : (w.store.next id).1 with
      | none => trivial
      | some u => exact Store.next_data hn
  | exit =>
    dsimp only [callExit] at h
    split at h <;> cases h

theorem readWith_store (shown : Text) (w : World) : (readWith shown w).world.store = w.store := by
  unfold readWith
  dsimp only
  split <;> rfl

/-- A call that is not answered with a value changes nothing in the store. -/
theorem call_store {b : Builtin} {arguments : List Value} {w : World}
    (h : ∀ v w', b.call arguments w ≠ .value v w') :
    (b.call arguments w).world.store = w.store := by
  unfold call at h ⊢
  cases b with
  | print => exact absurd rfl (h _ _)
  | input =>
    dsimp only [callInput]
    split
    · exact readWith_store _ w
    · exact readWith_store _ w
    · rfl
  | len =>
    dsimp only [callLen]
    split <;> rfl
  | iter =>
    dsimp only [callIter] at h ⊢
    split at h
    · split at h
      · exact absurd rfl (h _ _)
      · rfl
    · rfl
  | next =>
    dsimp only [callNext] at h ⊢
    split at h
    · exact absurd rfl (h _ _)
    · rfl
    · rfl
  | exit =>
    dsimp only [callExit]
    split <;> rfl

/-- A value that is answered with is data, and comes with the scopes that there were. -/
theorem call_value {b : Builtin} {arguments : List Value} {w w' : World} {v : Value}
    (h : b.call arguments w = .value v w') : v.Data ∧ w'.store.scopes = w.store.scopes := by
  have hscopes := call_scopes b arguments w
  rw [h] at hscopes
  exact ⟨call_data h, hscopes⟩

end Builtin

end ScriptLang
