import ScriptLang.Proofs.Store.Builtin

/-!
# Stores without reserved names

The names of built-in functions are reserved: a store is sound if no scope binds one of them.
Then a variable that is found is no built-in function (`Sound.get?`).

A call binds its parameters without another check, and a call of a built-in function looks it
up by its name. So a sound store holds sound values only: functions whose parameters are no
reserved names, and built-in functions that there are.
-/

namespace ScriptLang

/-- A built-in function that there is, a function that binds no reserved name to its arguments,
or no function at all. -/
def Value.Sound : Value → Prop
  | .builtin name => Builtin.isReserved name = true
  | .function f => ∀ p ∈ f.parameters, Builtin.isReserved p = false
  | _ => True

theorem Value.Data.sound {v : Value} (h : v.Data) : v.Sound := by
  cases v with
  | function f => exact h.elim
  | builtin name => exact h.elim
  | _ => trivial

theorem Value.data_ofLiteral (l : Literal) : (ofLiteral l).Data := by
  cases l <;> trivial

namespace Store

variable {σ σ' : Store} {id : ScopeId} {name : Text} {v : Value}

/-- No scope binds a reserved name, and all that is bound is sound. -/
structure Sound (σ : Store) : Prop where
  names : ∀ name v, σ.Binds name v → Builtin.isReserved name = false
  values : ∀ name v, σ.Binds name v → v.Sound

theorem binds_of_owns (h : σ.owns id name = true) : ∃ v, σ.Binds name v := by
  obtain ⟨s, hs, howns⟩ := (Option.any_eq_true _ _).1 h
  obtain ⟨v, hv⟩ := Option.isSome_iff_exists.1 howns
  obtain ⟨l₁, l₂, hb, -⟩ := List.lookup_eq_some_iff.1 hv
  exact ⟨v, id, s, hs, hb ▸ by simp⟩

namespace Sound

theorem of_scopes_eq (h : σ.Sound) (hσ : σ'.scopes = σ.scopes) : σ'.Sound where
  names n v hb := h.names n v (binds_of_scopes_eq hσ hb)
  values n v hb := h.values n v (binds_of_scopes_eq hσ hb)

theorem next (h : σ.Sound) (i : IteratorId) : (σ.next i).2.Sound :=
  h.of_scopes_eq (next_scopes σ i)

theorem iterator (h : σ.Sound) (elements : Elements) : (σ.iterator elements).2.Sound :=
  h.of_scopes_eq (iterator_scopes σ elements)

theorem newChild (h : σ.Sound) (parent : ScopeId) (label : Text) (f l : Option Bool) :
    (σ.newChild parent label f l).2.Sound where
  names n v hb := h.names n v (binds_of_newChild hb)
  values n v hb := h.values n v (binds_of_newChild hb)

theorem declare (h : σ.Sound) (hname : Builtin.isReserved name = false) (hv : v.Sound)
    (id : ScopeId) : (σ.declare id name v).Sound where
  names n u hb := by
    rcases binds_of_declare hb with ⟨rfl, rfl⟩ | hb
    · exact hname
    · exact h.names n u hb
  values n u hb := by
    rcases binds_of_declare hb with ⟨rfl, rfl⟩ | hb
    · exact hv
    · exact h.values n u hb

theorem declareAll (h : σ.Sound) {bindings : List (Text × Value)}
    (hb : ∀ b ∈ bindings, Builtin.isReserved b.1 = false ∧ b.2.Sound) (id : ScopeId) :
    (σ.declareAll id bindings).Sound := by
  induction bindings generalizing σ with
  | nil => exact h
  | cons b rest ih =>
    rw [List.forall_mem_cons] at hb
    exact ih (h.declare hb.1.1 hb.1.2 id) hb.2

/-- A store with no scopes but a new root one is sound. -/
theorem newRoot (input : Text) : (World.ofInput input).newRoot.2.store.Sound where
  names n v hb := absurd (holds_iff.2 ⟨n, hb⟩) (not_holds_newRoot input v)
  values n v hb := absurd (holds_iff.2 ⟨n, hb⟩) (not_holds_newRoot input v)

theorem get? (h : σ.Sound) (hv : σ.get? id name = some v) :
    Builtin.isReserved name = false ∧ v.Sound :=
  ⟨h.names name v (binds_of_get? hv), h.values name v (binds_of_get? hv)⟩

theorem owns (h : σ.Sound) (howns : σ.owns id name = true) : Builtin.isReserved name = false := by
  obtain ⟨v, hb⟩ := binds_of_owns howns
  exact h.names name v hb

end Sound

end Store

end ScriptLang
