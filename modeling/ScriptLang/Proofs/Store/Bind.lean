import ScriptLang.Proofs.Store.Place

/-!
# One binding more

What becomes of a store when a name is bound in one of its scopes, `σ.declare s x u`. Its
chains stay, and so does every look-up that does not ask the scope for that name
(`Store.get?_declare`). All that happens to a store may as well happen before or after
the binding, as long as it binds neither in the same scope nor there the same name
(`Store.declare_comm`, `Store.newChild_declare`).
-/

namespace ScriptLang

section Bindings

variable {x n : Text} {u v : Value}

theorem lookup_bind_self : ∀ bindings : List (Text × Value),
    (bind x u bindings).lookup x = some u
  | [] => by simp [bind]
  | (m, w) :: rest => by
    rw [bind]
    split
    · next h => simp [h]
    · next h =>
      rw [List.lookup_cons, beq_false_of_ne (Ne.symm h)]
      exact lookup_bind_self rest

theorem lookup_bind_of_ne (h : n ≠ x) : ∀ bindings : List (Text × Value),
    (bind x u bindings).lookup n = bindings.lookup n
  | [] => by simp [bind, List.lookup_cons, beq_false_of_ne h]
  | (m, w) :: rest => by
    rw [bind]
    split
    · next hm =>
      subst hm
      simp [List.lookup_cons, beq_false_of_ne h]
    · rw [List.lookup_cons, List.lookup_cons, lookup_bind_of_ne h rest]

theorem bind_bind : ∀ bindings : List (Text × Value),
    bind x v (bind x u bindings) = bind x v bindings
  | [] => by simp [bind]
  | (m, w) :: rest => by
    rw [bind]
    split
    · next h => simp [bind, h]
    · next h => rw [bind, bind, if_neg h, if_neg h, bind_bind rest]

/-- Two names may be bound in either order, if one of them has its place already. -/
theorem bind_comm (h : n ≠ x) : ∀ bindings : List (Text × Value),
    (bindings.lookup n).isSome → bind n v (bind x u bindings) = bind x u (bind n v bindings)
  | [], hn => by simp at hn
  | (m, w) :: rest, hn => by
    by_cases hm : m = n
    · subst hm
      simp [bind, h]
    · rw [List.lookup_cons, beq_false_of_ne (Ne.symm hm)] at hn
      by_cases hx : m = x
      · subst hx
        simp [bind, hm]
      · simp only [bind, if_neg hm, if_neg hx, bind_comm h rest hn]

end Bindings

/-- The elements of a list up to the first that passes a test. -/
def upTo {α : Type} (p : α → Bool) : List α → List α
  | [] => []
  | a :: l => if p a then [a] else a :: upTo p l

section UpTo

variable {α : Type} {p q : α → Bool} {a : α}

theorem mem_upTo_of_find? : ∀ {l : List α}, l.find? p = some a → a ∈ upTo p l
  | [], h => by cases h
  | b :: l, h => by
    rw [List.find?_cons] at h
    rw [upTo]
    cases hb : p b <;> rw [hb] at h
    · exact List.mem_cons_of_mem b (mem_upTo_of_find? h)
    · cases h
      exact List.mem_singleton_self a

/-- Two tests that differ at one element find the same, if the first one does not get so
far. -/
theorem find?_eq_of_notMem_upTo (hpq : ∀ b, b ≠ a → q b = p b) :
    ∀ {l : List α}, a ∉ upTo p l → l.find? q = l.find? p
  | [], _ => rfl
  | b :: l, h => by
    have hb : b ≠ a := by
      rintro rfl
      refine h ?_
      rw [upTo]
      split <;> exact List.mem_cons_self
    rw [List.find?_cons, List.find?_cons, hpq b hb]
    cases hp : p b with
    | true => rfl
    | false =>
      rw [upTo, hp] at h
      exact find?_eq_of_notMem_upTo hpq fun hmem => h (List.mem_cons_of_mem b hmem)

end UpTo

namespace Store

variable {σ : Store} {s i o : ScopeId} {x n : Text} {u v : Value}

/-- The scopes that a look-up of a name asks, the last of which owns it if any does. -/
def asked (σ : Store) (id : ScopeId) (name : Text) : List ScopeId :=
  upTo (fun i => σ.owns i name) (σ.chain id)

/-- A look-up of a name does not ask the scope `s` for `x`. -/
def Spares (σ : Store) (id : ScopeId) (name : Text) (s : ScopeId) (x : Text) : Prop :=
  name = x → s ∉ σ.asked id name

theorem ext_scope? {σ σ' : Store} (h : ∀ id, σ.scope? id = σ'.scope? id)
    (hi : σ.iterators = σ'.iterators) : σ = σ' := by
  obtain ⟨scopes, iterators⟩ := σ
  obtain ⟨scopes', iterators'⟩ := σ'
  have hscopes : scopes = scopes' := Array.ext_getElem? fun i => h ⟨i⟩
  rw [hscopes, show iterators = iterators' from hi]

/-! ### What is found -/

theorem chain_eq_cons {t : Scope} (h : σ.scope? i = some t) :
    ∃ rest, σ.chain i = i :: rest := by
  rw [chain, h]
  dsimp only
  split
  · exact ⟨_, rfl⟩
  · split <;> exact ⟨_, rfl⟩

theorem scope?_declare_none (h : σ.scope? i = none) : (σ.declare s x u).scope? i = none := by
  rw [scope?_declare, h]
  split <;> rfl

theorem scope?_declare_some {t : Scope} (h : σ.scope? i = some t) :
    ∃ bindings, (σ.declare s x u).scope? i = some { t with bindings := bindings } := by
  rw [scope?_declare, h]
  split
  · exact ⟨_, rfl⟩
  · exact ⟨t.bindings, rfl⟩

theorem chain_declare (σ : Store) (s : ScopeId) (x : Text) (u : Value) (i : ScopeId) :
    (σ.declare s x u).chain i = σ.chain i := by
  fun_induction chain σ i with
  | case1 i h => rw [chain, scope?_declare_none h]
  | case2 i t h hp =>
    obtain ⟨bindings, hb⟩ := scope?_declare_some h
    rw [chain, hb]
    simp only [hp]
  | case3 i t h parent hp hlt ih =>
    obtain ⟨bindings, hb⟩ := scope?_declare_some h
    rw [chain, hb]
    simp only [hp, if_pos hlt, ih]
  | case4 i t h parent hp hlt =>
    obtain ⟨bindings, hb⟩ := scope?_declare_some h
    rw [chain, hb]
    simp only [hp, if_neg hlt]

theorem own?_declare (h : n ≠ x ∨ i ≠ s) :
    (((σ.declare s x u).scope? i).bind fun t => t.own? n) =
      (σ.scope? i).bind fun t => t.own? n := by
  rw [scope?_declare]
  split
  · next his =>
    have hn := h.resolve_right fun hne => hne (congrArg ScopeId.mk his.symm)
    rw [Option.bind_map]
    congr 1
    funext t
    exact lookup_bind_of_ne hn t.bindings
  · rfl

theorem owns_eq_isSome (σ : Store) (i : ScopeId) (n : Text) :
    σ.owns i n = ((σ.scope? i).bind fun t => t.own? n).isSome :=
  (Option.isSome_bind _ _).symm

theorem owns_declare (h : n ≠ x ∨ i ≠ s) : (σ.declare s x u).owns i n = σ.owns i n := by
  rw [owns_eq_isSome, owns_eq_isSome, own?_declare h]

/-- A name belongs to the same scope as before, unless its look-up asks for the binding. -/
theorem owner?_declare (h : σ.Spares i n s x) :
    (σ.declare s x u).owner? i n = σ.owner? i n := by
  rw [owner?, owner?, chain_declare]
  by_cases hn : n = x
  · exact find?_eq_of_notMem_upTo (fun b hb => owns_declare (.inr hb)) (h hn)
  · congr 1
    funext b
    exact owns_declare (.inl hn)

theorem owns_of_owner? (h : σ.owner? i n = some o) : σ.owns o n = true :=
  List.find?_some (p := fun i => σ.owns i n) h

/-- A scope that a look-up finds is one in which the binding made is of no concern. -/
theorem ne_of_owner? (h : σ.Spares i n s x) (ho : σ.owner? i n = some o) :
    n ≠ x ∨ o ≠ s := by
  by_cases hn : n = x
  · refine .inr ?_
    rintro rfl
    exact h hn (mem_upTo_of_find? ho)
  · exact .inl hn

theorem get?_declare (h : σ.Spares i n s x) :
    (σ.declare s x u).get? i n = σ.get? i n := by
  unfold get?
  rw [owner?_declare h]
  cases ho : σ.owner? i n with
  | none => rfl
  | some o => exact own?_declare (ne_of_owner? h ho)

/-- The scope that binds a name finds it there. -/
theorem get?_declare_self (hs : s.index < σ.scopes.size) :
    (σ.declare s x u).get? s x = some u := by
  obtain ⟨t, ht⟩ : ∃ t, σ.scope? s = some t := ⟨_, Array.getElem?_eq_getElem hs⟩
  have hscope : (σ.declare s x u).scope? s = some (t.bind x u) := by
    rw [scope?_declare, if_pos rfl, ht]
    rfl
  have hown : (t.bind x u).own? x = some u := lookup_bind_self t.bindings
  have howns : (σ.declare s x u).owns s x = true := by
    rw [owns, hscope, Option.any_some, Scope.owns, hown]
    rfl
  have howner : (σ.declare s x u).owner? s x = some s := by
    obtain ⟨rest, hchain⟩ := chain_eq_cons ht
    rw [owner?, chain_declare, hchain]
    exact List.find?_cons_of_pos howns
  rw [get?, howner]
  simp only [Option.bind_eq_bind, Option.bind_some, hscope, hown]

theorem size_declare (σ : Store) (s : ScopeId) (x : Text) (u : Value) :
    (σ.declare s x u).scopes.size = σ.scopes.size :=
  Array.size_modify

/-! ### What happens beside -/

theorem inFunction_declare (σ : Store) (s : ScopeId) (x : Text) (u : Value) (i : ScopeId) :
    (σ.declare s x u).inFunction i = σ.inFunction i := by
  rw [inFunction, inFunction, scope?_declare]
  split <;> cases σ.scope? i <;> rfl

theorem inLoop_declare (σ : Store) (s : ScopeId) (x : Text) (u : Value) (i : ScopeId) :
    (σ.declare s x u).inLoop i = σ.inLoop i := by
  rw [inLoop, inLoop, scope?_declare]
  split <;> cases σ.scope? i <;> rfl

theorem declare_declare (σ : Store) (s : ScopeId) (x : Text) (u v : Value) :
    (σ.declare s x u).declare s x v = σ.declare s x v := by
  refine ext_scope? (fun i => ?_) rfl
  simp only [scope?_declare]
  split
  · rw [Option.map_map]
    congr 1
    funext t
    exact congrArg (fun b => { t with bindings := b }) (bind_bind t.bindings)
  · rfl

/-- A name may be bound before or after another, if it has its place already or another
scope. -/
theorem declare_comm (h : o = s → n ≠ x ∧ σ.owns s n) (v : Value) :
    (σ.declare s x u).declare o n v = (σ.declare o n v).declare s x u := by
  refine ext_scope? (fun i => ?_) rfl
  simp only [scope?_declare]
  split
  · next hoi =>
    split
    · next hsi =>
      have hos : o = s := congrArg ScopeId.mk (hoi.trans hsi.symm)
      obtain ⟨hn, howns⟩ := h hos
      cases hi : σ.scope? i with
      | none => rfl
      | some t =>
        have hlookup : (t.bindings.lookup n).isSome := by
          rw [show i = s from congrArg ScopeId.mk hsi.symm] at hi
          rwa [owns, hi] at howns
        exact congrArg (fun b => some { t with bindings := b }) (bind_comm hn _ hlookup)
    · rfl
  · rfl

theorem add_declare (hs : s.index < σ.scopes.size) (t : Scope) :
    (σ.declare s x u).add t = ((σ.add t).1, (σ.add t).2.declare s x u) := by
  refine Prod.ext (congrArg ScopeId.mk (size_declare σ s x u)) (ext_scope? (fun i => ?_) rfl)
  rw [scope?_add, scope?_declare, scope?_declare, scope?_add, size_declare]
  by_cases hi : i.index = σ.scopes.size
  · rw [if_pos hi, if_pos hi, if_neg (by omega)]
  · rw [if_neg hi, if_neg hi]

theorem newChild_declare (hs : s.index < σ.scopes.size) (parent : ScopeId) (name : Text)
    (f l : Option Bool) :
    (σ.declare s x u).newChild parent name f l =
      ((σ.newChild parent name f l).1, (σ.newChild parent name f l).2.declare s x u) := by
  have hfunction := inFunction_declare σ s x u parent
  have hloop := inLoop_declare σ s x u parent
  unfold inFunction at hfunction
  unfold inLoop at hloop
  unfold newChild
  dsimp only
  rw [add_declare hs, hfunction, hloop]

theorem newChild_ne (hs : s.index < σ.scopes.size) (parent : ScopeId) (name : Text)
    (f l : Option Bool) : (σ.newChild parent name f l).1 ≠ s := by
  rintro rfl
  exact Nat.lt_irrefl _ hs

theorem lt_size_newChild (hs : s.index < σ.scopes.size) (parent : ScopeId) (name : Text)
    (f l : Option Bool) : s.index < (σ.newChild parent name f l).2.scopes.size := by
  unfold newChild add
  rw [Array.size_push]
  exact Nat.lt_succ_of_lt hs

/-- Names may be bound in another scope before or after. -/
theorem declareAll_declare (h : o ≠ s) : ∀ (bindings : List (Text × Value)) (σ : Store),
    (σ.declare s x u).declareAll o bindings = (σ.declareAll o bindings).declare s x u
  | [], _ => rfl
  | b :: rest, σ => by
    rw [declareAll, List.foldl_cons, declare_comm fun ho => absurd ho h]
    exact declareAll_declare h rest _

theorem size_declareAll (o : ScopeId) : ∀ (bindings : List (Text × Value)) (σ : Store),
    (σ.declareAll o bindings).scopes.size = σ.scopes.size
  | [], _ => rfl
  | b :: rest, σ => by
    rw [declareAll, List.foldl_cons]
    exact (size_declareAll o rest _).trans (size_declare σ o b.1 b.2)

theorem next_declare (σ : Store) (s : ScopeId) (x : Text) (u : Value) (id : IteratorId) :
    (σ.declare s x u).next id = ((σ.next id).1, (σ.next id).2.declare s x u) := by
  unfold next
  rw [show (σ.declare s x u).iterators = σ.iterators from rfl]
  split <;> rfl

theorem iterator_declare (σ : Store) (s : ScopeId) (x : Text) (u : Value) (e : Elements) :
    (σ.declare s x u).iterator e = ((σ.iterator e).1, (σ.iterator e).2.declare s x u) := by
  cases e <;> rfl

end Store

end ScriptLang
