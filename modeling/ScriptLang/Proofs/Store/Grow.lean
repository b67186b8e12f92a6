import ScriptLang.Proofs.Store.Bind

/-!
# Stores that grow

All that happens to a store adds scopes and binds names. `Store.Grows σ σ'` says what it leaves
alone: each scope of `σ` is a scope of `σ'` inside of the same one, with the same flags, and
with all names that it owned. So scopes stay at their places (`Grows.toExtends`), and what is
around them stays around them (`Grows.chain`).

`Store.GrowsBy A σ σ'` says also what is new: scopes of `σ` own no other names than they did
but those that `A` admits.
-/

namespace ScriptLang

/-- A scope that is another one with more names bound, or with other values. -/
structure Scope.Grows (s t : Scope) : Prop where
  parent : t.parent = s.parent
  inFunction : t.inFunction = s.inFunction
  inLoop : t.inLoop = s.inLoop
  name : t.name = s.name
  owns : ∀ n, s.owns n = true → t.owns n = true

namespace Scope

variable {s t u : Scope}

theorem Grows.refl (s : Scope) : s.Grows s := ⟨rfl, rfl, rfl, rfl, fun _ => id⟩

theorem Grows.trans (h : s.Grows t) (h' : t.Grows u) : s.Grows u where
  parent := h'.parent.trans h.parent
  inFunction := h'.inFunction.trans h.inFunction
  inLoop := h'.inLoop.trans h.inLoop
  name := h'.name.trans h.name
  owns n hn := h'.owns n (h.owns n hn)

/-- Binding a name makes it one of those that the scope owns, and no other. -/
theorem owns_bind (s : Scope) (x : Text) (v : Value) (n : Text) :
    (s.bind x v).owns n = true ↔ n = x ∨ s.owns n = true := by
  unfold owns own? bind
  by_cases h : n = x
  · subst h
    simp [lookup_bind_self]
  · simp [lookup_bind_of_ne h, h]

theorem grows_bind (s : Scope) (x : Text) (v : Value) : s.Grows (s.bind x v) :=
  ⟨rfl, rfl, rfl, rfl, fun n hn => (owns_bind s x v n).2 (.inr hn)⟩

end Scope

namespace Store

variable {σ σ' σ'' : Store} {id : ScopeId}

/-- Every scope of `σ` is a scope of `σ'` and may have grown. -/
def Grows (σ σ' : Store) : Prop :=
  ∀ id s, σ.scope? id = some s → ∃ t, σ'.scope? id = some t ∧ s.Grows t

namespace Grows

theorem refl (σ : Store) : σ.Grows σ := fun _ s h => ⟨s, h, .refl s⟩

theorem trans (h : σ.Grows σ') (h' : σ'.Grows σ'') : σ.Grows σ'' := by
  intro id s hs
  obtain ⟨t, ht, hst⟩ := h id s hs
  obtain ⟨u, hu, htu⟩ := h' id t ht
  exact ⟨u, hu, hst.trans htu⟩

theorem of_scopes_eq (h : σ'.scopes = σ.scopes) : σ.Grows σ' := by
  intro id s hs
  exact ⟨s, by rwa [scope?, h], .refl s⟩

theorem newChild (σ : Store) (parent : ScopeId) (name : Text) (f l : Option Bool) :
    σ.Grows (σ.newChild parent name f l).2 := by
  intro id s hs
  have hlt := scope?_lt hs
  refine ⟨s, ?_, .refl s⟩
  unfold Store.newChild
  rw [scope?_add, if_neg (by omega), hs]

theorem declare (σ : Store) (id : ScopeId) (name : Text) (v : Value) :
    σ.Grows (σ.declare id name v) := by
  intro i s hs
  rw [scope?_declare, hs]
  split
  · exact ⟨_, rfl, s.grows_bind name v⟩
  · exact ⟨s, rfl, .refl s⟩

theorem declareAll (id : ScopeId) (bindings : List (Text × Value)) :
    ∀ σ : Store, σ.Grows (σ.declareAll id bindings) := by
  induction bindings with
  | nil => exact refl
  | cons b rest ih => exact fun σ => (declare σ id b.1 b.2).trans (ih _)

theorem next (σ : Store) (i : IteratorId) : σ.Grows (σ.next i).2 :=
  of_scopes_eq (next_scopes σ i)

theorem iterator (σ : Store) (elements : Elements) : σ.Grows (σ.iterator elements).2 :=
  of_scopes_eq (iterator_scopes σ elements)

theorem toExtends (h : σ.Grows σ') : σ.Extends σ' := by
  intro id π hπ
  obtain ⟨s, hs, rfl⟩ := Option.map_eq_some_iff.1 hπ
  obtain ⟨t, ht, hst⟩ := h id s hs
  rw [place?, ht, Option.map_some, Scope.place, hst.inFunction, hst.inLoop]
  rfl

theorem owns (h : σ.Grows σ') {n : Text} (hn : σ.owns id n = true) : σ'.owns id n = true := by
  obtain ⟨s, hs, hn⟩ := (Option.any_eq_true _ _).1 hn
  obtain ⟨t, ht, hst⟩ := h id s hs
  exact (Option.any_eq_true _ _).2 ⟨t, ht, hst.owns n hn⟩

theorem size_le (h : σ.Grows σ') : σ.scopes.size ≤ σ'.scopes.size := by
  rcases Nat.eq_zero_or_pos σ.scopes.size with h0 | hpos
  · omega
  · have hlast : σ.scope? ⟨σ.scopes.size - 1⟩ = some _ :=
      Array.getElem?_eq_getElem (Nat.sub_one_lt_of_lt hpos)
    obtain ⟨t, ht, -⟩ := h _ _ hlast
    have hlt : σ.scopes.size - 1 < σ'.scopes.size := scope?_lt ht
    omega

/-- What is around a scope stays around it. -/
theorem chain (h : σ.Grows σ') {id : ScopeId} {s : Scope} (hs : σ.scope? id = some s) :
    σ'.chain id = σ.chain id := by
  obtain ⟨t, ht, hst⟩ := h id s hs
  rw [Store.chain, Store.chain, hs, ht]
  dsimp only
  rw [hst.parent]
  split
  · rfl
  · next parent hp =>
    split
    · next hlt =>
      have hparent := Array.getElem?_eq_getElem (Nat.lt_trans hlt (scope?_lt hs))
      rw [chain h hparent]
    · rfl
termination_by id.index

theorem depth (h : σ.Grows σ') {id : ScopeId} {s : Scope} (hs : σ.scope? id = some s) :
    σ'.depth id = σ.depth id := by
  rw [Store.depth, Store.depth, h.chain hs]

end Grows

/-! ### Depths -/

theorem depth_of_no_parent {s : Scope} (hs : σ.scope? id = some s) (hp : s.parent = none) :
    σ.depth id = 0 := by
  rw [depth, chain, hs]
  dsimp only
  rw [hp]
  rfl

theorem scope?_newChild (σ : Store) (parent : ScopeId) (name : Text) (f l : Option Bool) :
    ∃ s, (σ.newChild parent name f l).2.scope? (σ.newChild parent name f l).1 = some s ∧
      s.parent = some parent := by
  unfold newChild
  rw [scope?_add, if_pos (by rfl)]
  exact ⟨_, rfl, rfl⟩

/-- A new scope stands one deeper than the scope that it is in. -/
theorem depth_newChild {parent : ScopeId} {s : Scope} (hs : σ.scope? parent = some s)
    (name : Text) (f l : Option Bool) :
    (σ.newChild parent name f l).2.depth (σ.newChild parent name f l).1 = σ.depth parent + 1 := by
  obtain ⟨t, ht, hparent⟩ := scope?_newChild σ parent name f l
  have hlt : parent.index < (σ.newChild parent name f l).1.index := scope?_lt hs
  obtain ⟨rest, hchain⟩ := chain_eq_cons hs
  rw [depth, chain, ht]
  dsimp only
  rw [hparent]
  dsimp only
  rw [if_pos hlt, (Grows.newChild σ parent name f l).chain hs, depth, hchain]
  rfl

/-! ### What is new -/

/-- The scopes of `σ` grow by no other names than those that `A` admits. -/
structure GrowsBy (A : ScopeId → Text → Prop) (σ σ' : Store) : Prop where
  grows : σ.Grows σ'
  owned : ∀ id n, (σ.scope? id).isSome → σ'.owns id n = true → σ.owns id n = true ∨ A id n

namespace GrowsBy

variable {A B : ScopeId → Text → Prop}

theorem refl (A : ScopeId → Text → Prop) (σ : Store) : σ.GrowsBy A σ :=
  ⟨.refl σ, fun _ _ _ hn => .inl hn⟩

theorem trans (h : σ.GrowsBy A σ') (h' : σ'.GrowsBy A σ'') : σ.GrowsBy A σ'' where
  grows := h.grows.trans h'.grows
  owned id n hid hn := by
    obtain ⟨s, hs⟩ := Option.isSome_iff_exists.1 hid
    obtain ⟨t, ht, -⟩ := h.grows id s hs
    rcases h'.owned id n (Option.isSome_iff_exists.2 ⟨t, ht⟩) hn with hn | hn
    · exact h.owned id n hid hn
    · exact .inr hn

theorem imp (h : σ.GrowsBy A σ') (hA : ∀ id n, (σ.scope? id).isSome → A id n → B id n) :
    σ.GrowsBy B σ' :=
  ⟨h.grows, fun id n hid hn => (h.owned id n hid hn).imp_right (hA id n hid)⟩

theorem of_scopes_eq (h : σ'.scopes = σ.scopes) : σ.GrowsBy A σ' where
  grows := .of_scopes_eq h
  owned id n _ hn := by
    rw [Store.owns, scope?, h] at hn
    exact .inl hn

/-- A new scope is none that there was. -/
theorem newChild (σ : Store) (parent : ScopeId) (name : Text) (f l : Option Bool) :
    σ.GrowsBy A (σ.newChild parent name f l).2 where
  grows := .newChild σ parent name f l
  owned id n hid hn := by
    obtain ⟨s, hs⟩ := Option.isSome_iff_exists.1 hid
    have hlt := scope?_lt hs
    rw [Store.owns, Store.newChild, scope?_add, if_neg (by omega)] at hn
    exact .inl hn

theorem declare {name : Text} (h : σ.owns id name = true ∨ A id name) (v : Value) :
    σ.GrowsBy A (σ.declare id name v) where
  grows := .declare σ id name v
  owned i n _ hn := by
    by_cases heq : n = name ∧ i = id
    · obtain ⟨rfl, rfl⟩ := heq
      exact h
    · rw [owns_declare (Decidable.not_and_iff_or_not.1 heq)] at hn
      exact .inl hn

/-- Names bound in a scope that there was not are none of those that there were. -/
theorem newChild_declareAll (σ : Store) (parent : ScopeId) (name : Text) (f l : Option Bool)
    (bindings : List (Text × Value)) :
    σ.GrowsBy A ((σ.newChild parent name f l).2.declareAll (σ.newChild parent name f l).1
      bindings) := by
  have hall : ∀ bindings (σ' : Store), σ'.GrowsBy (fun id _ => id = (σ.newChild parent name f l).1)
      (σ'.declareAll (σ.newChild parent name f l).1 bindings) := by
    intro bindings
    induction bindings with
    | nil => exact GrowsBy.refl _
    | cons b rest ih => exact fun σ' => (declare (.inr rfl) b.2).trans (ih _)
  refine ((newChild σ parent name f l).trans (hall bindings _)).imp fun id n hid hnew => ?_
  obtain ⟨s, hs⟩ := Option.isSome_iff_exists.1 hid
  subst hnew
  exact absurd (scope?_lt hs) (Nat.lt_irrefl _)

end GrowsBy

end Store

end ScriptLang
