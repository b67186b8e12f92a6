import ScriptLang.Proofs.Tree.Place
import ScriptLang.Proofs.Value.Plain
import ScriptLang.Store.World

/-!
# Where scopes stand

A scope stands at a place, which its two flags say. `Store.Extends` keeps the scopes of
a store at their places: all that happens to a store adds scopes and binds names.

A value holds the statements in the body of the function that it is. `Store.Covered U`
says that all functions bound in a store hold statements of `U` only, at the places of
`U`; `Store.CoversAt U σ id code` says so of the code that runs in one scope, at the
place of that scope.
-/

namespace ScriptLang

/-- All statements of a list belong to `U`, at their places. -/
def Covers (U : Place × Stmt → Prop) (code : List (Place × Stmt)) : Prop := ∀ x ∈ code, U x

section Covers

variable {U : Place × Stmt → Prop} {l m : List (Place × Stmt)}

@[simp] theorem covers_nil : Covers U [] := by simp [Covers]

@[simp] theorem covers_append : Covers U (l ++ m) ↔ Covers U l ∧ Covers U m := by
  simp [Covers, or_imp, forall_and]

@[simp] theorem covers_cons {x : Place × Stmt} : Covers U (x :: l) ↔ U x ∧ Covers U l := by
  simp [Covers]

theorem covers_placedAll {es : List Expr} :
    Covers U (Expr.placedAll es) ↔ ∀ e ∈ es, Covers U e.placed := by
  induction es with
  | nil => simp [Expr.placedAll]
  | cons e es ih => simp [Expr.placedAll, ih]

end Covers

/-- The statements of the function that a value is. -/
def Value.placed : Value → List (Place × Stmt)
  | .function f => f.body.placed .body
  | _ => []

theorem Value.Data.placed {v : Value} (h : v.Data) : v.placed = [] := by
  cases v with
  | function f => exact h.elim
  | _ => rfl

/-- What is around the statements that run in a scope. -/
def Scope.place (s : Scope) : Place := ⟨s.inFunction, s.inLoop⟩

/-- What an iterator yields is a string or an integer. -/
theorem Iterator.next?_data {i i' : Iterator} {v : Value} (h : i.next? = some (v, i')) :
    v.Data := by
  unfold next? at h
  split at h
  · cases h
  · cases h
    trivial
  · split at h <;> cases h
    trivial

namespace Store

variable {U : Place × Stmt → Prop} {σ σ' σ'' : Store} {id : ScopeId} {π : Place}

/-- What is around the statements that run in the scope with a number. -/
def place? (σ : Store) (id : ScopeId) : Option Place := (σ.scope? id).map Scope.place

theorem inFunction_of_place? (h : σ.place? id = some π) : σ.inFunction id = π.inFunction := by
  obtain ⟨s, hs, rfl⟩ := Option.map_eq_some_iff.1 h
  simp [inFunction, hs, Scope.place]

theorem inLoop_of_place? (h : σ.place? id = some π) : σ.inLoop id = π.inLoop := by
  obtain ⟨s, hs, rfl⟩ := Option.map_eq_some_iff.1 h
  simp [inLoop, hs, Scope.place]

/-- The scopes of `σ` stand where they stood. -/
def Extends (σ σ' : Store) : Prop := ∀ id π, σ.place? id = some π → σ'.place? id = some π

namespace Extends

theorem refl (σ : Store) : Extends σ σ := fun _ _ h => h

theorem trans (h : Extends σ σ') (h' : Extends σ' σ'') : Extends σ σ'' :=
  fun id π hπ => h' id π (h id π hπ)

theorem of_scopes_eq (h : σ'.scopes = σ.scopes) : Extends σ σ' := by
  intro id π hπ
  rwa [place?, scope?, h]

end Extends

theorem scope?_add (σ : Store) (s : Scope) (id : ScopeId) :
    (σ.add s).2.scope? id = if id.index = σ.scopes.size then some s else σ.scope? id :=
  Array.getElem?_push

theorem scope?_lt {s : Scope} (h : σ.scope? id = some s) : id.index < σ.scopes.size := by
  obtain ⟨hlt, -⟩ := Array.getElem?_eq_some_iff.1 h
  exact hlt

theorem extends_add (σ : Store) (s : Scope) : Extends σ (σ.add s).2 := by
  intro id π h
  obtain ⟨s', hs', rfl⟩ := Option.map_eq_some_iff.1 h
  have hlt := scope?_lt hs'
  rw [place?, scope?_add, if_neg (by omega), hs', Option.map_some]

theorem extends_newChild (σ : Store) (parent : ScopeId) (name : Text) (f l : Option Bool) :
    Extends σ (σ.newChild parent name f l).2 :=
  extends_add σ _

/-- A scope inside another stands where that one does, but for what is given. -/
theorem place?_newChild {parent : ScopeId} (h : σ.place? parent = some π) (name : Text)
    (f l : Option Bool) :
    (σ.newChild parent name f l).2.place? (σ.newChild parent name f l).1 =
      some ⟨f.getD π.inFunction, l.getD π.inLoop⟩ := by
  obtain ⟨s, hs, rfl⟩ := Option.map_eq_some_iff.1 h
  unfold newChild place?
  rw [scope?_add, if_pos (by rfl), hs]
  rfl

/-- A scope that says all itself stands where it says, whatever is around it. -/
theorem place?_newChild_given (σ : Store) (parent : ScopeId) (name : Text) (f l : Bool) :
    (σ.newChild parent name (some f) (some l)).2.place?
      (σ.newChild parent name (some f) (some l)).1 = some ⟨f, l⟩ := by
  unfold newChild place?
  rw [scope?_add, if_pos (by rfl)]
  rfl

theorem scope?_declare (σ : Store) (id : ScopeId) (name : Text) (v : Value) (i : ScopeId) :
    (σ.declare id name v).scope? i =
      if id.index = i.index then (σ.scope? i).map (·.bind name v) else σ.scope? i :=
  Array.getElem?_modify

theorem extends_declare (σ : Store) (id : ScopeId) (name : Text) (v : Value) :
    Extends σ (σ.declare id name v) := by
  intro i π h
  obtain ⟨s, hs, rfl⟩ := Option.map_eq_some_iff.1 h
  rw [place?, scope?_declare, hs]
  split <;> rfl

theorem extends_declareAll (id : ScopeId) (bindings : List (Text × Value)) :
    ∀ σ : Store, Extends σ (σ.declareAll id bindings) := by
  induction bindings with
  | nil => exact Extends.refl
  | cons b rest ih => exact fun σ => (extends_declare σ id b.1 b.2).trans (ih _)

/-! ### What a store holds -/

/-- A name is bound to a value in some scope. -/
def Binds (σ : Store) (name : Text) (v : Value) : Prop :=
  ∃ id s, σ.scope? id = some s ∧ (name, v) ∈ s.bindings

/-- A value is bound to some name in some scope. -/
def Holds (σ : Store) (v : Value) : Prop :=
  ∃ id s name, σ.scope? id = some s ∧ (name, v) ∈ s.bindings

/-- The functions a store holds are covered. -/
def Covered (U : Place × Stmt → Prop) (σ : Store) : Prop := ∀ v, σ.Holds v → Covers U v.placed

/-- Code that runs in a scope is covered at the place of the scope. -/
def CoversAt (U : Place × Stmt → Prop) (σ : Store) (id : ScopeId)
    (code : Place → List (Place × Stmt)) : Prop :=
  ∃ π, σ.place? id = some π ∧ Covers U (code π)

theorem CoversAt.mono {code : Place → List (Place × Stmt)} (h : σ.CoversAt U id code)
    (hσ : Extends σ σ') : σ'.CoversAt U id code := by
  obtain ⟨π, hπ, hcode⟩ := h
  exact ⟨π, hσ id π hπ, hcode⟩

theorem CoversAt.imp {code code' : Place → List (Place × Stmt)} (h : σ.CoversAt U id code)
    (hc : ∀ π, Covers U (code π) → Covers U (code' π)) : σ.CoversAt U id code' := by
  obtain ⟨π, hπ, hcode⟩ := h
  exact ⟨π, hπ, hc π hcode⟩

/-- Code covered in a scope is covered in a new one inside of it, if it stands there
where the new one does. -/
theorem CoversAt.newChild {code code' : Place → List (Place × Stmt)}
    (h : σ.CoversAt U id code) (name : Text) (f l : Option Bool)
    (hc : ∀ π, Covers U (code π) →
      Covers U (code' ⟨f.getD π.inFunction, l.getD π.inLoop⟩)) :
    (σ.newChild id name f l).2.CoversAt U (σ.newChild id name f l).1 code' := by
  obtain ⟨π, hπ, hcode⟩ := h
  exact ⟨_, place?_newChild hπ name f l, hc π hcode⟩

theorem mem_bind {name n : Text} {v w : Value} :
    ∀ {bindings : List (Text × Value)}, (n, w) ∈ ScriptLang.bind name v bindings →
      n = name ∧ w = v ∨ (n, w) ∈ bindings
  | [], h => by
    rw [ScriptLang.bind, List.mem_singleton] at h
    exact .inl (Prod.mk.inj h)
  | (m, u) :: rest, h => by
    rw [ScriptLang.bind] at h
    split at h
    · next hm =>
      rcases List.mem_cons.1 h with h | h
      · obtain ⟨hn, hw⟩ := Prod.mk.inj h
        exact .inl ⟨hn.trans hm, hw⟩
      · exact .inr (List.mem_cons_of_mem _ h)
    · rcases List.mem_cons.1 h with h | h
      · exact .inr (h ▸ List.mem_cons_self)
      · exact (mem_bind h).imp id (List.mem_cons_of_mem _)

theorem holds_iff {v : Value} : σ.Holds v ↔ ∃ name, σ.Binds name v :=
  ⟨fun ⟨id, s, name, h⟩ => ⟨name, id, s, h⟩, fun ⟨name, id, s, h⟩ => ⟨id, s, name, h⟩⟩

/-- A new root scope in an empty store binds nothing. -/
theorem not_holds_newRoot (input : Text) (v : Value) :
    ¬ (World.ofInput input).newRoot.2.store.Holds v := by
  rintro ⟨⟨_ | n⟩, s, name, hs, hb⟩
  · cases hs
    cases hb
  · cases hs

theorem binds_of_scopes_eq {name : Text} {v : Value} (hσ : σ'.scopes = σ.scopes)
    (h : σ'.Binds name v) : σ.Binds name v := by
  obtain ⟨id, s, hs, hb⟩ := h
  rw [scope?, hσ] at hs
  exact ⟨id, s, hs, hb⟩

theorem binds_of_newChild {parent : ScopeId} {label name : Text} {f l : Option Bool} {v : Value}
    (h : (σ.newChild parent label f l).2.Binds name v) : σ.Binds name v := by
  obtain ⟨id, s, hs, hb⟩ := h
  unfold Store.newChild at hs
  rw [scope?_add] at hs
  split at hs
  · cases hs
    cases hb
  · exact ⟨id, s, hs, hb⟩

theorem binds_of_declare {name n : Text} {v u : Value} (h : (σ.declare id name v).Binds n u) :
    n = name ∧ u = v ∨ σ.Binds n u := by
  obtain ⟨i, s, hs, hb⟩ := h
  rw [scope?_declare] at hs
  split at hs
  · obtain ⟨s₀, hs₀, rfl⟩ := Option.map_eq_some_iff.1 hs
    exact (mem_bind hb).imp_right fun hb => ⟨i, s₀, hs₀, hb⟩
  · exact .inr ⟨i, s, hs, hb⟩

theorem binds_of_declareAll {n : Text} {u : Value} {bindings : List (Text × Value)} :
    ∀ {σ : Store}, (σ.declareAll id bindings).Binds n u →
      (n, u) ∈ bindings ∨ σ.Binds n u := by
  induction bindings with
  | nil => exact fun h => .inr h
  | cons b rest ih =>
    intro σ h
    rcases ih h with hmem | h
    · exact .inl (List.mem_cons_of_mem b hmem)
    · rcases binds_of_declare h with ⟨rfl, rfl⟩ | h
      · exact .inl List.mem_cons_self
      · exact .inr h

theorem holds_of_scopes_eq {v : Value} (hσ : σ'.scopes = σ.scopes) (h : σ'.Holds v) :
    σ.Holds v := by
  obtain ⟨name, h⟩ := holds_iff.1 h
  exact holds_iff.2 ⟨name, binds_of_scopes_eq hσ h⟩

theorem holds_of_newChild {parent : ScopeId} {name : Text} {f l : Option Bool} {v : Value}
    (h : (σ.newChild parent name f l).2.Holds v) : σ.Holds v := by
  obtain ⟨n, h⟩ := holds_iff.1 h
  exact holds_iff.2 ⟨n, binds_of_newChild h⟩

theorem holds_of_declare {name : Text} {v u : Value} (h : (σ.declare id name v).Holds u) :
    u = v ∨ σ.Holds u := by
  obtain ⟨n, h⟩ := holds_iff.1 h
  exact (binds_of_declare h).imp And.right fun h => holds_iff.2 ⟨n, h⟩

theorem holds_of_declareAll {u : Value} {bindings : List (Text × Value)}
    (h : (σ.declareAll id bindings).Holds u) : (∃ b ∈ bindings, u = b.2) ∨ σ.Holds u := by
  obtain ⟨n, h⟩ := holds_iff.1 h
  exact (binds_of_declareAll h).imp (fun hmem => ⟨_, hmem, rfl⟩) fun h => holds_iff.2 ⟨n, h⟩

namespace Covered

theorem of_scopes_eq (h : σ.Covered U) (hσ : σ'.scopes = σ.scopes) : σ'.Covered U :=
  fun v hv => h v (holds_of_scopes_eq hσ hv)

theorem newChild (h : σ.Covered U) (parent : ScopeId) (name : Text) (f l : Option Bool) :
    (σ.newChild parent name f l).2.Covered U :=
  fun v hv => h v (holds_of_newChild hv)

theorem declare (h : σ.Covered U) {v : Value} (hv : Covers U v.placed) (id : ScopeId)
    (name : Text) : (σ.declare id name v).Covered U := by
  intro u hu
  rcases holds_of_declare hu with rfl | hu
  · exact hv
  · exact h u hu

theorem declareAll (id : ScopeId) {bindings : List (Text × Value)} (h : σ.Covered U)
    (hb : ∀ b ∈ bindings, Covers U b.2.placed) : (σ.declareAll id bindings).Covered U := by
  intro u hu
  rcases holds_of_declareAll hu with ⟨b, hmem, rfl⟩ | hu
  · exact hb b hmem
  · exact h u hu

end Covered

/-- A value found under a name is bound to it somewhere. -/
theorem binds_of_get? {name : Text} {v : Value} (h : σ.get? id name = some v) :
    σ.Binds name v := by
  unfold get? at h
  obtain ⟨owner, -, h⟩ := Option.bind_eq_some_iff.1 h
  obtain ⟨s, hs, h⟩ := Option.bind_eq_some_iff.1 h
  obtain ⟨l₁, l₂, hb, -⟩ := List.lookup_eq_some_iff.1 h
  exact ⟨owner, s, hs, hb ▸ by simp⟩

theorem holds_of_get? {name : Text} {v : Value} (h : σ.get? id name = some v) : σ.Holds v :=
  holds_iff.2 ⟨name, binds_of_get? h⟩

/-! ### Iterators -/

theorem next_scopes (σ : Store) (id : IteratorId) : (σ.next id).2.scopes = σ.scopes := by
  unfold next
  split <;> rfl

theorem iterator_scopes (σ : Store) (e : Elements) : (σ.iterator e).2.scopes = σ.scopes := by
  cases e <;> rfl

theorem next_data {id : IteratorId} {v : Value} (h : (σ.next id).1 = some v) : v.Data := by
  unfold next at h
  split at h
  · next u i hi =>
    obtain ⟨i₀, -, hi⟩ := Option.bind_eq_some_iff.1 hi
    cases h
    exact Iterator.next?_data hi
  · cases h

end Store

end ScriptLang
