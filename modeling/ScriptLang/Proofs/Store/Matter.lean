import ScriptLang.Proofs.Store.Place
import ScriptLang.Proofs.Tree.Part
import ScriptLang.Proofs.Value.Plain

/-!
# What a store is made of

All that a run holds is made of parts of trees and of integers: functions are made of the
parts of their bodies, integers and ranges of integers, strings and the rest of neither.
`Value.MadeOf M` says so of a value, of parts and integers that `M` admits, and
`Store.MadeOf M` of all values that a store holds and all that its iterators still yield.

`Matter.Closed` says what admitted parts and integers have to keep: that literals bring
admitted integers, and that integers in 64 bits and all between two admitted ones are
admitted. What happens to a store then keeps it made of `M`.
-/

namespace ScriptLang

/-- Parts of trees and integers that are admitted. -/
structure Matter where
  code : Part → Prop
  number : Int → Prop

/-- The integers admitted are enough for literals, results and ranges. -/
structure Matter.Closed (M : Matter) : Prop where
  literal : ∀ span n, M.code (.expression (.literal span (.integer n))) → M.number n
  fits : ∀ n, fitsInteger n = true → M.number n
  between : ∀ {a b m}, M.number a → M.number b → a ≤ m → m ≤ b → M.number m

/-- The parts in the function that a value is. -/
def Value.parts : Value → List Part
  | .function f => f.body.parts
  | _ => []

/-- A value is made of admitted parts and integers. -/
def Value.MadeOf (M : Matter) : Value → Prop
  | .integer n => M.number n
  | .range start stop => M.number start ∧ M.number stop
  | .function f => Within M.code f.body.parts
  | _ => True

/-- What is left of an iterator is made of admitted integers. -/
def Iterator.MadeOf (M : Matter) : Iterator → Prop
  | .characters _ => True
  | .integers start stop => M.number start ∧ M.number stop

/-- All that a store holds is made of admitted parts and integers. -/
structure Store.MadeOf (M : Matter) (σ : Store) : Prop where
  values : ∀ v, σ.Holds v → v.MadeOf M
  iterators : ∀ i ∈ σ.iterators, i.MadeOf M

variable {M M' : Matter}

theorem Value.Plain.madeOf (hM : M.Closed) {v : Value} (h : v.Plain) : v.MadeOf M := by
  cases v with
  | integer n => exact hM.fits n h
  | range start stop => exact h.elim
  | function f => exact h.elim
  | builtin name => exact h.elim
  | _ => trivial

theorem Value.MadeOf.parts {v : Value} (h : v.MadeOf M) : Within M.code v.parts := by
  cases v with
  | function f => exact h
  | _ => exact within_nil

theorem Value.madeOf_of_parts {v : Value} (h : Within M.code v.parts)
    (hnumber : ∀ n, M.number n) : v.MadeOf M := by
  cases v with
  | integer n => exact hnumber n
  | range start stop => exact ⟨hnumber start, hnumber stop⟩
  | function f => exact h
  | _ => trivial

theorem Iterator.madeOf_of_number (i : Iterator) (hnumber : ∀ n, M.number n) : i.MadeOf M := by
  cases i with
  | characters rest => trivial
  | integers start stop => exact ⟨hnumber start, hnumber stop⟩

/-- More may be admitted. -/
theorem Value.MadeOf.imp {v : Value} (h : v.MadeOf M) (hcode : ∀ p, M.code p → M'.code p)
    (hnumber : ∀ n, M.number n → M'.number n) : v.MadeOf M' := by
  cases v with
  | integer n => exact hnumber n h
  | range start stop => exact ⟨hnumber start h.1, hnumber stop h.2⟩
  | function f => exact Within.imp h hcode
  | _ => trivial

theorem Iterator.MadeOf.next? (hM : M.Closed) {i i' : Iterator} {v : Value} (h : i.MadeOf M)
    (hi : i.next? = some (v, i')) : v.MadeOf M ∧ i'.MadeOf M := by
  unfold Iterator.next? at hi
  split at hi
  · cases hi
  · cases hi
    exact ⟨trivial, trivial⟩
  · next start stop =>
    split at hi <;> cases hi
    next hlt => exact ⟨h.1, hM.between h.1 h.2 (by omega) (by omega), h.2⟩

namespace Store

namespace MadeOf

variable {σ σ' : Store}

theorem imp (h : σ.MadeOf M) (hcode : ∀ p, M.code p → M'.code p)
    (hnumber : ∀ n, M.number n → M'.number n) : σ.MadeOf M' where
  values v hv := (h.values v hv).imp hcode hnumber
  iterators i hi := by
    have hi := h.iterators i hi
    cases i with
    | characters rest => trivial
    | integers start stop => exact ⟨hnumber start hi.1, hnumber stop hi.2⟩

theorem newRoot (input : Text) : (World.ofInput input).newRoot.2.store.MadeOf M :=
  ⟨fun v hv => absurd hv (not_holds_newRoot input v), nofun⟩

theorem newChild (h : σ.MadeOf M) (parent : ScopeId) (name : Text) (f l : Option Bool) :
    (σ.newChild parent name f l).2.MadeOf M :=
  ⟨fun v hv => h.values v (holds_of_newChild hv), h.iterators⟩

theorem declare (h : σ.MadeOf M) {v : Value} (hv : v.MadeOf M) (id : ScopeId) (name : Text) :
    (σ.declare id name v).MadeOf M where
  values u hu := by
    rcases holds_of_declare hu with rfl | hu
    · exact hv
    · exact h.values u hu
  iterators := h.iterators

theorem declareAll (id : ScopeId) {bindings : List (Text × Value)} (h : σ.MadeOf M)
    (hb : ∀ b ∈ bindings, b.2.MadeOf M) : (σ.declareAll id bindings).MadeOf M := by
  induction bindings generalizing σ with
  | nil => exact h
  | cons b rest ih =>
    rw [List.forall_mem_cons] at hb
    exact ih (h.declare hb.1 id b.1) hb.2

theorem get? (h : σ.MadeOf M) {id : ScopeId} {name : Text} {v : Value}
    (hv : σ.get? id name = some v) : v.MadeOf M :=
  h.values v (holds_of_get? hv)

theorem addIterator (h : σ.MadeOf M) {i : Iterator} (hi : i.MadeOf M) :
    (σ.addIterator i).2.MadeOf M where
  values := h.values
  iterators j hj := by
    rcases Array.mem_push.1 hj with hj | rfl
    · exact h.iterators j hj
    · exact hi

theorem next (hM : M.Closed) (h : σ.MadeOf M) (id : IteratorId) :
    (∀ v, (σ.next id).1 = some v → v.MadeOf M) ∧ (σ.next id).2.MadeOf M := by
  unfold Store.next
  split
  · next v i hi =>
    obtain ⟨i₀, hi₀, hi⟩ := Option.bind_eq_some_iff.1 hi
    obtain ⟨hv, hi⟩ := (h.iterators i₀ (Array.mem_of_getElem? hi₀)).next? hM hi
    refine ⟨fun u hu => Option.some.inj hu ▸ hv, ⟨h.values, fun j hj => ?_⟩⟩
    rcases Array.mem_or_eq_of_mem_setIfInBounds hj with hj | rfl
    · exact h.iterators j hj
    · exact hi
  · exact ⟨nofun, h⟩

/-- An iterator over the elements of an admitted value. -/
theorem iterator (h : σ.MadeOf M) {v : Value} (hv : v.MadeOf M) {elements : Elements}
    (he : v.elements = .ok elements) : (σ.iterator elements).2.MadeOf M := by
  unfold Value.elements at he
  split at he <;> cases he
  · exact h.addIterator trivial
  · exact h.addIterator hv
  · exact h

end MadeOf

end Store

end ScriptLang
