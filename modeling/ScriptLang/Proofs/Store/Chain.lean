import Mathlib.Logic.Relation
import ScriptLang.Proofs.Store.Grow

/-!
# Chains of scopes

Every store comes about by new scopes, scopes inside others, and names that are bound or bound
again (`Store.Built`). In such a store a scope is younger than the one around it
(`Store.Rooted`), so no scope is inside itself, and the way from a scope through all those around
it comes to an end (`Store.Walk`).

The nearest scope on this way that owns a name decides what a look-up finds, and it is the only
one that an update changes (`Store.look_up_nearest`).
-/

namespace ScriptLang

namespace Store

variable {σ σ' : Store} {i o p s : ScopeId} {n m : Text} {v : Value}

/-! ### How stores come about -/

/-- What is done to the scopes of a store. -/
inductive Operation where
  | new (name : Text) (inFunction inLoop : Bool)
  | child (parent : ScopeId) (name : Text) (inFunction inLoop : Option Bool)
  | declare (id : ScopeId) (name : Text) (value : Value)
  | update (id : ScopeId) (name : Text) (value : Value)

/-- The scope that an operation is on. -/
def Operation.target? : Operation → Option ScopeId
  | .new .. => none
  | .child parent .. => some parent
  | .declare id .. => some id
  | .update id .. => some id

/-- The store after an operation. A name that nothing owns cannot be bound again. -/
def perform (σ : Store) : Operation → Store
  | .new name f l => (σ.newRoot name f l).2
  | .child parent name f l => (σ.newChild parent name f l).2
  | .declare id name value => σ.declare id name value
  | .update id name value => (σ.update? id name value).getD σ

/-- The stores that operations on scopes there are make out of nothing. -/
inductive Built : Store → Prop
  | empty : Built Store.empty
  | perform {σ : Store} (h : Built σ) (operation : Operation)
      (htarget : ∀ id ∈ operation.target?, (σ.scope? id).isSome) : Built (σ.perform operation)

/-! ### Parents -/

/-- A scope lies directly inside another. -/
def Inside (σ : Store) (i p : ScopeId) : Prop := ∃ t, σ.scope? i = some t ∧ t.parent = some p

/-- Every scope is younger than the one it lies in. -/
def Rooted (σ : Store) : Prop := ∀ i p, σ.Inside i p → p.index < i.index

theorem inside_declare : (σ.declare s n v).Inside i p ↔ σ.Inside i p := by
  unfold Inside
  rw [scope?_declare]
  split <;> cases σ.scope? i <;> simp [Scope.bind]

namespace Rooted

theorem empty : Store.empty.Rooted := by
  rintro i p ⟨t, ht, -⟩
  cases ht

/-- A new scope is younger than all that there are. -/
theorem add (h : σ.Rooted) {t : Scope} (ht : ∀ p, t.parent = some p → (σ.scope? p).isSome) :
    (σ.add t).2.Rooted := by
  rintro i p ⟨u, hu, hp⟩
  rw [scope?_add] at hu
  split at hu
  · next hi =>
    cases hu
    obtain ⟨w, hw⟩ := Option.isSome_iff_exists.1 (ht p hp)
    rw [hi]
    exact scope?_lt hw
  · exact h i p ⟨u, hu, hp⟩

theorem declare (h : σ.Rooted) (s : ScopeId) (n : Text) (v : Value) : (σ.declare s n v).Rooted :=
  fun i p hp => h i p (inside_declare.1 hp)

/-- An operation on a scope that there is keeps parents older. -/
theorem perform (h : σ.Rooted) (operation : Operation)
    (htarget : ∀ id ∈ operation.target?, (σ.scope? id).isSome) : (σ.perform operation).Rooted := by
  cases operation with
  | new name f l => exact h.add nofun
  | child parent name f l =>
    refine h.add fun p hp => ?_
    cases hp
    exact htarget parent rfl
  | declare id name value => exact h.declare id name value
  | update id name value =>
    change (((σ.owner? id name).map fun owner => σ.declare owner name value).getD σ).Rooted
    cases σ.owner? id name with
    | none => exact h
    | some owner => exact h.declare owner name value

theorem not_cyclic (h : σ.Rooted) (i : ScopeId) : ¬Relation.TransGen σ.Inside i i := by
  have hlt : ∀ j, Relation.TransGen σ.Inside i j → j.index < i.index := by
    intro j hj
    induction hj with
    | single hp => exact h _ _ hp
    | tail _ hp ih => exact Nat.lt_trans (h _ _ hp) ih
  exact fun hi => Nat.lt_irrefl _ (hlt i hi)

end Rooted

theorem Built.rooted (h : σ.Built) : σ.Rooted := by
  induction h with
  | empty => exact .empty
  | perform _ operation htarget ih => exact ih.perform operation htarget

/-- From scope to scope by their parents, up to one that lies in no other. -/
inductive Walk (σ : Store) : Option ScopeId → List ScopeId → Prop
  | done : Walk σ none []
  | step {i : ScopeId} {t : Scope} {around : List ScopeId} (ht : σ.scope? i = some t)
      (h : Walk σ t.parent around) : Walk σ (some i) (i :: around)

/-- The chain of a scope is the whole way out of it. -/
theorem Rooted.walk_chain (h : σ.Rooted) (hi : (σ.scope? i).isSome) :
    σ.Walk (some i) (σ.chain i) := by
  fun_induction chain σ i with
  | case1 i hnone => rw [hnone] at hi; cases hi
  | case2 i t ht hp => exact .step ht (hp ▸ .done)
  | case3 i t ht parent hp hlt ih =>
    have hparent := Array.getElem?_eq_getElem (Nat.lt_trans hlt (scope?_lt ht))
    exact .step ht (hp ▸ ih (Option.isSome_iff_exists.2 ⟨_, hparent⟩))
  | case4 i t ht parent hp hlt => exact absurd (h i parent ⟨t, ht, hp⟩) hlt

/-! ### Owners -/

/-- The value that a scope itself binds to a name. -/
def bound? (σ : Store) (i : ScopeId) (n : Text) : Option Value :=
  (σ.scope? i).bind fun t => t.own? n

/-- Going out of a scope, `o` is the first that owns a name. -/
inductive Nearest (σ : Store) (n : Text) : ScopeId → ScopeId → Prop
  | here {i : ScopeId} (h : (σ.bound? i n).isSome) : Nearest σ n i i
  | around {i p o : ScopeId} (h : σ.bound? i n = none) (hp : σ.Inside i p)
      (ho : Nearest σ n p o) : Nearest σ n i o

theorem nearest_iff_of_bound (h : (σ.bound? i n).isSome) : σ.Nearest n i o ↔ i = o := by
  constructor
  · intro hnear
    cases hnear with
    | here => rfl
    | around hnone => rw [hnone] at h; cases h
  · rintro rfl
    exact .here h

theorem nearest_iff_of_unbound (h : σ.bound? i n = none) :
    σ.Nearest n i o ↔ ∃ p, σ.Inside i p ∧ σ.Nearest n p o := by
  constructor
  · intro hnear
    cases hnear with
    | here hsome => rw [h] at hsome; cases hsome
    | around _ hp ho => exact ⟨_, hp, ho⟩
  · rintro ⟨p, hp, ho⟩
    exact .around h hp ho

theorem Nearest.bound (h : σ.Nearest n i o) : (σ.bound? o n).isSome := by
  induction h with
  | here h => exact h
  | around _ _ _ ih => exact ih

theorem Inside.parent_eq {t : Scope} (h : σ.Inside i p) (ht : σ.scope? i = some t) :
    t.parent = some p := by
  obtain ⟨u, hu, hp⟩ := h
  rw [ht] at hu
  cases hu
  exact hp

theorem owns_eq (σ : Store) (i : ScopeId) (n : Text) : σ.owns i n = (σ.bound? i n).isSome :=
  owns_eq_isSome σ i n

/-- A name is owned by the scope itself or else looked for around it. -/
theorem Rooted.owner?_eq (h : σ.Rooted) {t : Scope} (ht : σ.scope? i = some t) :
    σ.owner? i n =
      if (σ.bound? i n).isSome then some i else t.parent.bind fun p => σ.owner? p n := by
  unfold owner?
  rw [chain, ht]
  dsimp only
  cases hp : t.parent with
  | none =>
    rw [List.find?_cons, owns_eq]
    split <;> simp_all
  | some p =>
    dsimp only
    rw [if_pos (h i p ⟨t, ht, hp⟩), List.find?_cons, owns_eq]
    split <;> simp_all

/-- The owner of a name is the nearest scope that owns it. -/
theorem Rooted.owner?_eq_some_iff (h : σ.Rooted) {i : ScopeId} :
    σ.owner? i n = some o ↔ σ.Nearest n i o := by
  cases ht : σ.scope? i with
  | none =>
    rw [owner?, chain, ht, nearest_iff_of_unbound (by rw [bound?, ht]; rfl)]
    refine iff_of_false (by simp) ?_
    rintro ⟨p, ⟨t, ht', -⟩, -⟩
    rw [ht] at ht'
    cases ht'
  | some t =>
    rw [h.owner?_eq ht]
    split
    · next hbound => rw [Option.some.injEq, nearest_iff_of_bound hbound]
    · next hbound =>
      rw [nearest_iff_of_unbound (Option.not_isSome_iff_eq_none.1 hbound)]
      cases hp : t.parent with
      | none =>
        refine iff_of_false (by simp) ?_
        rintro ⟨p, hinside, -⟩
        rw [hinside.parent_eq ht] at hp
        cases hp
      | some p =>
        rw [Option.bind_some, Rooted.owner?_eq_some_iff h]
        constructor
        · exact fun ho => ⟨p, ⟨t, ht, hp⟩, ho⟩
        · rintro ⟨q, hinside, ho⟩
          rw [hinside.parent_eq ht] at hp
          cases hp
          exact ho
termination_by i.index
decreasing_by exact h i p ⟨t, ht, hp⟩

theorem Rooted.nearest_unique (h : σ.Rooted) (ho : σ.Nearest n i o) (hp : σ.Nearest n i p) :
    o = p :=
  Option.some.inj ((h.owner?_eq_some_iff.2 ho).symm.trans (h.owner?_eq_some_iff.2 hp))

theorem get?_eq (σ : Store) (i : ScopeId) (n : Text) :
    σ.get? i n = (σ.owner? i n).bind fun o => σ.bound? o n := rfl

/-- A look-up finds what the nearest scope binds that owns the name. -/
theorem Rooted.get?_eq_some_iff (h : σ.Rooted) :
    σ.get? i n = some v ↔ ∃ o, σ.Nearest n i o ∧ σ.bound? o n = some v := by
  rw [get?_eq, Option.bind_eq_some_iff]
  simp only [h.owner?_eq_some_iff]

theorem Rooted.isSome_get?_iff (h : σ.Rooted) :
    (σ.get? i n).isSome ↔ ∃ o, σ.Nearest n i o := by
  rw [Option.isSome_iff_exists]
  constructor
  · rintro ⟨v, hv⟩
    obtain ⟨o, ho, -⟩ := h.get?_eq_some_iff.1 hv
    exact ⟨o, ho⟩
  · rintro ⟨o, ho⟩
    obtain ⟨v, hv⟩ := Option.isSome_iff_exists.1 ho.bound
    exact ⟨v, h.get?_eq_some_iff.2 ⟨o, ho, hv⟩⟩

/-! ### One binding -/

/-- A scope binds a name to a value, and all else is as before. -/
structure Rebinds (s : ScopeId) (n : Text) (v : Value) (σ σ' : Store) : Prop where
  bound : σ'.bound? s n = some v
  others : ∀ t m, ¬(t = s ∧ m = n) → σ'.bound? t m = σ.bound? t m
  scopes : ∀ t, (σ'.scope? t).map (fun u => { u with bindings := [] }) =
    (σ.scope? t).map fun u => { u with bindings := [] }
  iterators : σ'.iterators = σ.iterators

theorem declare_rebinds (hs : (σ.scope? s).isSome) (n : Text) (v : Value) :
    Rebinds s n v σ (σ.declare s n v) where
  bound := by
    obtain ⟨t, ht⟩ := Option.isSome_iff_exists.1 hs
    rw [bound?, scope?_declare, if_pos rfl, ht]
    exact lookup_bind_self t.bindings
  others t m hne := own?_declare (by
    by_cases hm : m = n
    · exact .inr fun ht => hne ⟨ht, hm⟩
    · exact .inl hm)
  scopes t := by
    rw [scope?_declare]
    split <;> cases σ.scope? t <;> rfl
  iterators := rfl

/-- Where a name is owned, binding it again changes no owner. -/
theorem owner?_declare_of_bound (hs : (σ.bound? s n).isSome) (v : Value) (i : ScopeId) (m : Text) :
    (σ.declare s n v).owner? i m = σ.owner? i m := by
  have howns : ∀ b, (σ.declare s n v).owns b m = σ.owns b m := by
    intro b
    by_cases hb : m ≠ n ∨ b ≠ s
    · exact owns_declare hb
    · obtain ⟨rfl, rfl⟩ : m = n ∧ b = s := by simpa [not_or] using hb
      have hscope : (σ.scope? b).isSome := Option.isSome_of_isSome_bind hs
      rw [owns_eq, owns_eq, hs, (declare_rebinds hscope m v).bound]
      rfl
  rw [owner?, owner?, chain_declare]
  congr 1
  exact funext howns

/-- An update of a name changes what is found where its owner is the nearest one, and nowhere
else. -/
theorem Rooted.get?_declare_owner (h : σ.Rooted) (ho : (σ.bound? o n).isSome) (v : Value)
    (i : ScopeId) (m : Text) :
    (m = n ∧ σ.Nearest n i o → (σ.declare o n v).get? i m = some v) ∧
      (¬(m = n ∧ σ.Nearest n i o) → (σ.declare o n v).get? i m = σ.get? i m) := by
  have hrebinds := declare_rebinds (Option.isSome_of_isSome_bind ho) n v
  rw [get?_eq, get?_eq, owner?_declare_of_bound ho]
  constructor
  · rintro ⟨rfl, hnear⟩
    rw [h.owner?_eq_some_iff.2 hnear, Option.bind_some, hrebinds.bound]
  · intro hne
    cases howner : σ.owner? i m with
    | none => rfl
    | some p =>
      refine hrebinds.others p m ?_
      rintro ⟨rfl, rfl⟩
      exact hne ⟨rfl, h.owner?_eq_some_iff.1 howner⟩

/-! ### Stores that come about -/

/-- In a store that comes about by operations no scope is inside itself, and the way out of every
scope ends. A look-up finds what the nearest scope binds that owns the name. An update succeeds
exactly where a look-up does; then it binds the name in that scope and nothing else, so other
look-ups change only if they come to the same scope for the same name, and if it does not succeed
the store stays. A declaration binds a name in its scope and nothing else. -/
theorem look_up_nearest (h : σ.Built) :
    (∀ i, ¬Relation.TransGen σ.Inside i i) ∧
    (∀ i, (σ.scope? i).isSome →
      ∃ around, σ.Walk (some i) (i :: around) ∧ σ.depth i = around.length) ∧
    (∀ i n v, σ.get? i n = some v ↔ ∃ o, σ.Nearest n i o ∧ σ.bound? o n = some v) ∧
    (∀ i n v, ((σ.update? i n v).isSome ↔ (σ.get? i n).isSome) ∧
      (σ.update? i n v = none → σ.perform (.update i n v) = σ) ∧
      ∀ σ', σ.update? i n v = some σ' → ∃ o, σ.Nearest n i o ∧ Rebinds o n v σ σ' ∧
        ∀ t m, (m = n ∧ σ.Nearest n t o → σ'.get? t m = some v) ∧
          (¬(m = n ∧ σ.Nearest n t o) → σ'.get? t m = σ.get? t m)) ∧
    ∀ s n v, (σ.scope? s).isSome → Rebinds s n v σ (σ.declare s n v) := by
  have hrooted := h.rooted
  refine ⟨hrooted.not_cyclic, fun i hi => ?_, fun i n v => hrooted.get?_eq_some_iff,
    fun i n v => ⟨?_, fun hnone => ?_, fun σ' hupdate => ?_⟩,
    fun s n v hs => declare_rebinds hs n v⟩
  · obtain ⟨t, ht⟩ := Option.isSome_iff_exists.1 hi
    obtain ⟨around, hchain⟩ := chain_eq_cons ht
    refine ⟨around, hchain ▸ hrooted.walk_chain hi, ?_⟩
    rw [depth, hchain]
    rfl
  · rw [hrooted.isSome_get?_iff, update?, Option.isSome_map, Option.isSome_iff_exists]
    simp only [hrooted.owner?_eq_some_iff]
  · rw [perform, hnone]
    rfl
  · obtain ⟨o, howner, rfl⟩ := Option.map_eq_some_iff.1 hupdate
    have hnear := hrooted.owner?_eq_some_iff.1 howner
    exact ⟨o, hnear, declare_rebinds (Option.isSome_of_isSome_bind hnear.bound) n v,
      hrooted.get?_declare_owner hnear.bound v⟩

/-- Three scopes inside one another, of which the first and the second own a name: an update from
the innermost reaches the second only. -/
theorem look_up_nearest_shadowed :
    ∃ σ : Store, σ.Built ∧ σ.get? ⟨2⟩ "x" = some (.integer 2) ∧
      ∃ σ', σ.update? ⟨2⟩ "x" (.integer 3) = some σ' ∧ σ'.get? ⟨2⟩ "x" = some (.integer 3) ∧
        σ'.get? ⟨0⟩ "x" = some (.integer 1) := by
  have hroot := Built.empty.perform (.new "global" false false) nofun
  have houter := hroot.perform (.declare ⟨0⟩ "x" (.integer 1)) (by rintro _ ⟨⟩; rfl)
  have hchild := houter.perform (.child ⟨0⟩ "call" (some true) none) (by rintro _ ⟨⟩; rfl)
  have hinner := hchild.perform (.declare ⟨1⟩ "x" (.integer 2)) (by rintro _ ⟨⟩; rfl)
  have hbuilt := hinner.perform (.child ⟨1⟩ "block" none none) (by rintro _ ⟨⟩; rfl)
  generalize hσ : Store.perform _ (.child ⟨1⟩ "block" none none) = σ at hbuilt
  have hbound : σ.bound? ⟨1⟩ "x" = some (.integer 2) := by rw [← hσ]; rfl
  have hfar : σ.bound? ⟨0⟩ "x" = some (.integer 1) := by rw [← hσ]; rfl
  have hnear : σ.Nearest "x" ⟨2⟩ ⟨1⟩ :=
    .around (by rw [← hσ]; rfl) ⟨_, by rw [← hσ]; rfl, rfl⟩ (.here (by rw [hbound]; rfl))
  have hroot : σ.Nearest "x" ⟨0⟩ ⟨0⟩ := .here (by rw [hfar]; rfl)
  obtain ⟨-, -, hget, hupdate, -⟩ := look_up_nearest hbuilt
  have hfound := (hget ⟨2⟩ "x" (.integer 2)).2 ⟨_, hnear, hbound⟩
  obtain ⟨hsome, -, hafter⟩ := hupdate ⟨2⟩ "x" (.integer 3)
  obtain ⟨σ', hσ'⟩ := Option.isSome_iff_exists.1 (hsome.2 (by rw [hfound]; rfl))
  obtain ⟨o, ho, -, hlooks⟩ := hafter σ' hσ'
  obtain rfl := hbuilt.rooted.nearest_unique hnear ho
  refine ⟨σ, hbuilt, hfound, σ', hσ', (hlooks _ _).1 ⟨rfl, hnear⟩, ?_⟩
  rw [(hlooks ⟨0⟩ "x").2 fun h => ?_]
  · exact (hget _ _ _).2 ⟨_, hroot, hfar⟩
  · have heq := hbuilt.rooted.nearest_unique hroot h.2
    exact absurd heq (by decide)

end Store

end ScriptLang
