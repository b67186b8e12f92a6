import ScriptLang.Proofs.Store.Builtin

/-!
# What iterators have left

An iterator is a list of values that are left to take, the characters of a string or the integers
of a range (`Iterator.remaining`). Taking the next one takes the first of them away, for all who
know the iterator by its number: `Store.left σ id` says what is left behind the number, and
`Store.next` is its head and leaves its tail (`Store.next_fst`, `Store.left_next`). Of the
built-in functions only `next` takes one, and only `iter` makes an iterator
(`Builtin.call_iterators`).
-/

namespace ScriptLang

deriving instance DecidableEq for Iterator

/-- The integers from a start up to an end, which is not among them, as values. -/
def integersBetween (start stop : Int) : List Value :=
  (List.range (stop - start).toNat).map fun k : Nat => .integer (start + k)

/-- The iterator that a string or a range is gone through by. -/
def Value.ownIterator? (v : Value) : Option Iterator :=
  match v.elements with
  | .ok (.fresh i) => some i
  | _ => none

theorem Value.elements_of_ownIterator? {v : Value} {i : Iterator} (h : v.ownIterator? = some i) :
    v.elements = .ok (.fresh i) := by
  unfold ownIterator? at h
  split at h <;> cases h
  assumption

/-- The elements that are left, in order. -/
def Iterator.remaining : Iterator → List Value
  | .characters rest => rest.map fun c => .string [c]
  | .integers start stop => integersBetween start stop

theorem integersBetween_of_lt {start stop : Int} (h : start < stop) :
    integersBetween start stop = .integer start :: integersBetween (start + 1) stop := by
  have hlength : (stop - start).toNat = (stop - (start + 1)).toNat + 1 := by omega
  unfold integersBetween
  rw [hlength, List.range_succ_eq_map, List.map_cons, List.map_map]
  congr 1
  · simp
  · refine List.map_congr_left fun k _ => ?_
    simp only [Function.comp_apply, Value.integer.injEq]
    omega

theorem integersBetween_of_le {start stop : Int} (h : stop ≤ start) :
    integersBetween start stop = [] := by
  have hlength : (stop - start).toNat = 0 := by omega
  rw [integersBetween, hlength]
  rfl

/-- The next element is the first of those that are left. -/
theorem Iterator.next?_eq (i : Iterator) :
    match i.remaining with
    | [] => i.next? = none
    | v :: rest => ∃ j, i.next? = some (v, j) ∧ j.remaining = rest := by
  cases i with
  | characters t =>
    cases t with
    | nil => rfl
    | cons c t => exact ⟨_, rfl, rfl⟩
  | integers start stop =>
    by_cases h : start < stop
    · rw [remaining, integersBetween_of_lt h]
      exact ⟨.integers (start + 1) stop, if_pos h, rfl⟩
    · rw [remaining, integersBetween_of_le (Int.not_lt.1 h)]
      exact if_neg h

namespace Store

variable {σ : Store} {id j : IteratorId}

/-- The elements that are left of the iterator with a number. -/
def left (σ : Store) (id : IteratorId) : List Value :=
  ((σ.iterators[id.index]?).map Iterator.remaining).getD []

/-- The number of the next iterator. -/
def newIterator (σ : Store) : IteratorId := ⟨σ.iterators.size⟩

theorem left_of_iterators_eq {σ' : Store} (h : σ'.iterators = σ.iterators) (id : IteratorId) :
    σ'.left id = σ.left id := by
  rw [left, left, h]

theorem left_addIterator (σ : Store) (i : Iterator) (id : IteratorId) :
    (σ.addIterator i).2.left id = if id = σ.newIterator then i.remaining else σ.left id := by
  obtain ⟨index⟩ := id
  simp only [left, addIterator, newIterator, Array.getElem?_push, IteratorId.mk.injEq]
  split <;> rfl

/-- What is taken is the first of what is left, and the others are left. -/
theorem next_spec (σ : Store) (id : IteratorId) :
    (σ.next id).1 = (σ.left id).head? ∧
      ∀ j, (σ.next id).2.left j = if j = id then (σ.left id).tail else σ.left j := by
  cases hi : σ.iterators[id.index]? with
  | none =>
    have hnext : σ.next id = (none, σ) := by
      unfold next
      rw [hi]
      rfl
    have hleft : σ.left id = [] := by rw [left, hi]; rfl
    rw [hnext, hleft]
    refine ⟨rfl, fun j => ?_⟩
    split
    · next hj => rw [hj, hleft]; rfl
    · rfl
  | some i =>
    have hleft : σ.left id = i.remaining := by rw [left, hi]; rfl
    have hspec := i.next?_eq
    rw [hleft]
    cases hremaining : i.remaining with
    | nil =>
      rw [hremaining] at hspec
      have hnext : σ.next id = (none, σ) := by
        unfold next
        rw [hi, Option.bind_some, hspec]
      rw [hnext]
      refine ⟨rfl, fun j => ?_⟩
      split
      · next hj => rw [hj, hleft, hremaining]; rfl
      · rfl
    | cons v rest =>
      rw [hremaining] at hspec
      obtain ⟨i', hnext?, hrest⟩ := hspec
      have hnext : σ.next id =
          (some v, { σ with iterators := σ.iterators.setIfInBounds id.index i' }) := by
        unfold next
        rw [hi, Option.bind_some, hnext?]
      rw [hnext]
      refine ⟨rfl, fun j => ?_⟩
      have hlt : id.index < σ.iterators.size := (Array.getElem?_eq_some_iff.1 hi).1
      obtain ⟨index⟩ := id
      obtain ⟨jndex⟩ := j
      simp only [left, Array.getElem?_setIfInBounds, IteratorId.mk.injEq]
      by_cases hj : jndex = index
      · subst hj
        simp [hlt, hrest]
      · simp [hj, Ne.symm hj]

theorem next_fst (σ : Store) (id : IteratorId) : (σ.next id).1 = (σ.left id).head? :=
  (next_spec σ id).1

theorem left_next (σ : Store) (id j : IteratorId) :
    (σ.next id).2.left j = if j = id then (σ.left id).tail else σ.left j :=
  (next_spec σ id).2 j

theorem size_next (σ : Store) (id : IteratorId) :
    (σ.next id).2.iterators.size = σ.iterators.size := by
  unfold next
  split
  · exact Array.size_setIfInBounds
  · rfl

/-! ### What happens beside -/

theorem iterators_declareAll (id : ScopeId) (bindings : List (Text × Value)) :
    ∀ σ : Store, (σ.declareAll id bindings).iterators = σ.iterators := by
  induction bindings with
  | nil => exact fun _ => rfl
  | cons b rest ih => exact fun σ => ih (σ.declare id b.1 b.2)

/-- A new scope in which a name is bound binds nothing else. -/
theorem bindings_newChild_declare (σ : Store) (parent : ScopeId) (name : Text)
    (f l : Option Bool) (x : Text) (v : Value) :
    ((σ.newChild parent name f l).2.declare (σ.newChild parent name f l).1 x v).bindings
      (σ.newChild parent name f l).1 = [(x, v)] := by
  unfold bindings newChild
  rw [scope?_declare, if_pos rfl, scope?_add, if_pos (by rfl)]
  rfl

/-- An iterator over the elements of a value that has none of its own is one that there is. -/
theorem iterator_of_ownIterator? {v : Value} {elements : Elements}
    (he : v.elements = .ok elements) (hv : v.ownIterator? = none) :
    (σ.iterator elements).2 = σ := by
  cases elements with
  | fresh i => simp [Value.ownIterator?, he] at hv
  | shared id => rfl

end Store

/-- A call that neither makes an iterator nor takes from one leaves them as they are. -/
theorem Builtin.call_iterators {b : Builtin} {arguments : List Value} {w : World}
    (hiter : ∀ v, b = .iter → arguments = [v] → v.ownIterator? = none)
    (hnext : ∀ id, b = .next → arguments ≠ [.iterator id]) :
    (b.call arguments w).world.store.iterators = w.store.iterators := by
  unfold call
  cases b with
  | print => rfl
  | input =>
    dsimp only [callInput]
    split
    · exact congrArg Store.iterators (readWith_store _ w)
    · exact congrArg Store.iterators (readWith_store _ w)
    · rfl
  | len =>
    dsimp only [callLen]
    split <;> rfl
  | iter =>
    dsimp only [callIter]
    split
    · next v =>
      split
      · next elements he =>
        exact congrArg Store.iterators (Store.iterator_of_ownIterator? he (hiter v rfl rfl))
      · rfl
    · rfl
  | next =>
    dsimp only [callNext]
    split
    · exact absurd rfl (hnext _ rfl)
    · rfl
    · rfl
  | exit =>
    dsimp only [callExit]
    split <;> rfl

end ScriptLang
