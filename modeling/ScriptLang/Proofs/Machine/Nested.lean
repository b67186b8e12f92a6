import ScriptLang.Proofs.Machine.Grow
import ScriptLang.Proofs.Store.Sound
import ScriptLang.Proofs.Tree.Nested

/-!
# Scopes as deep as the text

Code runs in a scope, and a function keeps the scope of its definition. `Store.NestsAt U σ id
code` says that all parts of code that runs in a scope belong to `U`, each with the depth that it
has when the code stands as deep as the scope. A call puts the body of a function into a new
scope in the one of its definition, and so do blocks and loops with theirs; so all that runs is
as deep as it stands in the text, whoever calls whom (`Move.nested`).
-/

namespace ScriptLang

variable {U : Nat × Part → Prop}

/-- All parts of a list belong to `U`, with their depths. -/
abbrev Nested (U : Nat × Part → Prop) (l : List (Nat × Part)) : Prop := ∀ x ∈ l, U x

theorem nested_append {l m : List (Nat × Part)} : Nested U (l ++ m) ↔ Nested U l ∧ Nested U m :=
  List.forall_mem_append

theorem nested_cons {x : Nat × Part} {l : List (Nat × Part)} :
    Nested U (x :: l) ↔ U x ∧ Nested U l :=
  List.forall_mem_cons

/-- Code that runs in a scope belongs to `U` as deep as the scope is. -/
def Store.NestsAt (U : Nat × Part → Prop) (σ : Store) (id : ScopeId)
    (code : Nat → List (Nat × Part)) : Prop :=
  (∃ s, σ.scope? id = some s) ∧ Nested U (code (σ.depth id))

/-- The body of a function belongs to `U`, one deeper than the scope of its definition. -/
def Value.Nests (U : Nat × Part → Prop) (σ : Store) : Value → Prop
  | .function f => σ.NestsAt U f.scope fun n => f.body.nested (n + 1)
  | _ => True

/-- All functions that a store holds belong to `U`. -/
def Store.Nests (U : Nat × Part → Prop) (σ : Store) : Prop := ∀ v, σ.Holds v → v.Nests U σ

/-- A loop with its body one deeper. -/
def WhileLoop.nested (n : Nat) (loop : WhileLoop) : List (Nat × Part) :=
  loop.condition.nested n ++ loop.body.nested (n + 1)

/-- A counting loop, as deep as its header, with its body one deeper. -/
def CountingLoop.nested (n : Nat) (loop : CountingLoop) : List (Nat × Part) :=
  Expr.nestedOption n loop.condition ++ Expr.nestedOption n loop.step ++ loop.body.nested (n + 1)

/-- What waits belongs to `U`. -/
def Frame.Nests (U : Nat × Part → Prop) (σ : Store) : Frame → Prop
  | .operands _ _ found rest scope =>
    (∀ v ∈ found, v.Nests U σ) ∧ σ.NestsAt U scope fun n => Expr.nestedAll n rest
  | .declare _ _ => True
  | .giveBack => True
  | .assertion _ _ _ => True
  | .branch _ body otherwise scope =>
    σ.NestsAt U scope fun n => body.nested (n + 1) ++ otherwise.nested n
  | .whileTest loop => σ.NestsAt U loop.scope fun n => loop.nested n
  | .whileBody loop => σ.NestsAt U loop.scope fun n => loop.nested n
  | .elements loop _ => σ.NestsAt U loop.scope fun n => loop.body.nested (n + 1)
  | .elementBody loop _ => σ.NestsAt U loop.scope fun n => loop.body.nested (n + 1)
  | .countingStart loop => σ.NestsAt U loop.scope fun n => loop.nested n
  | .countingTest loop _ => σ.NestsAt U loop.scope fun n => loop.nested n
  | .countingBody loop => σ.NestsAt U loop.scope fun n => loop.nested n
  | .countingStep loop => σ.NestsAt U loop.scope fun n => loop.nested n
  | .sequence rest scope => σ.NestsAt U scope fun n => Stmt.nestedAll n rest
  | .call => True

/-- What is being done belongs to `U`. -/
def Control.Nests (U : Nat × Part → Prop) (σ : Store) : Control → Prop
  | .expression e scope => σ.NestsAt U scope fun n => e.nested n
  | .statement x scope => σ.NestsAt U scope fun n => x.nested n
  | .statements xs scope => σ.NestsAt U scope fun n => Stmt.nestedAll n xs
  | .deliver k => k.value.Nests U σ

/-- All that is done, that waits and that is held belongs to `U`. -/
structure Stage.Nests (U : Nat × Part → Prop) (s : Stage) : Prop where
  control : s.control.Nests U s.world.store
  frames : ∀ f ∈ s.frames, f.Nests U s.world.store
  store : s.world.store.Nests U

theorem Stage.Nests.above {e : Stage} {base : List Frame} (h : e.Nests U)
    (hbase : ∀ f ∈ base, f.Nests U e.world.store) : (e.above base).Nests U where
  control := h.control
  frames f hf := (List.mem_append.1 hf).elim (h.frames f) (hbase f)
  store := h.store

/-- What is evaluated or executed belongs to `U`, as deep as the scope is. -/
theorem Stage.Nests.part {s : Stage} (h : s.Nests U) {p : Part} {scope : ScopeId}
    (hp : s.control.part? = some (p, scope)) :
    (s.world.store.scope? scope).isSome ∧ U (s.world.store.depth scope, p) := by
  obtain ⟨control, frames, w, n⟩ := s
  have hcontrol := h.control
  cases control with
  | expression e scope =>
    cases hp
    obtain ⟨hs, hcode⟩ := hcontrol
    exact ⟨Option.isSome_iff_exists.2 hs, hcode _ (e.mem_nested _)⟩
  | statement x scope =>
    cases hp
    obtain ⟨hs, hcode⟩ := hcontrol
    exact ⟨Option.isSome_iff_exists.2 hs, hcode _ (x.mem_nested _)⟩
  | statements | deliver => cases hp

theorem Value.Data.nests {v : Value} (h : v.Data) (σ : Store) : v.Nests U σ := by
  cases v with
  | function f => exact h.elim
  | _ => trivial

namespace Store

variable {σ σ' : Store} {id : ScopeId} {code code' : Nat → List (Nat × Part)}

namespace NestsAt

theorem mono (h : σ.NestsAt U id code) (hσ : σ.Grows σ') : σ'.NestsAt U id code := by
  obtain ⟨⟨s, hs⟩, hcode⟩ := h
  obtain ⟨t, ht, -⟩ := hσ id s hs
  exact ⟨⟨t, ht⟩, hσ.depth hs ▸ hcode⟩

theorem imp (h : σ.NestsAt U id code) (hc : ∀ n, Nested U (code n) → Nested U (code' n)) :
    σ.NestsAt U id code' :=
  ⟨h.1, hc _ h.2⟩

/-- Code that runs in a new scope stands one deeper than what the scope is in. -/
theorem newChild (h : σ.NestsAt U id code) (name : Text) (f l : Option Bool)
    (hc : ∀ n, Nested U (code n) → Nested U (code' (n + 1))) :
    (σ.newChild id name f l).2.NestsAt U (σ.newChild id name f l).1 code' := by
  obtain ⟨⟨s, hs⟩, hcode⟩ := h
  obtain ⟨t, ht, -⟩ := scope?_newChild σ id name f l
  exact ⟨⟨t, ht⟩, depth_newChild hs name f l ▸ hc _ hcode⟩

end NestsAt

end Store

section Mono

variable {σ σ' : Store}

theorem Value.Nests.mono {v : Value} (h : v.Nests U σ) (hσ : σ.Grows σ') : v.Nests U σ' := by
  cases v with
  | function f =>
    dsimp only [Nests] at h ⊢
    exact h.mono hσ
  | _ => trivial

theorem Control.Nests.mono {c : Control} (h : c.Nests U σ) (hσ : σ.Grows σ') :
    c.Nests U σ' := by
  cases c with
  | deliver k => exact Value.Nests.mono h hσ
  | expression | statement | statements =>
    dsimp only [Nests] at h ⊢
    exact h.mono hσ

theorem Frame.Nests.mono {f : Frame} (h : f.Nests U σ) (hσ : σ.Grows σ') : f.Nests U σ' := by
  cases f with
  | operands => exact ⟨fun v hv => (h.1 v hv).mono hσ, h.2.mono hσ⟩
  | declare | giveBack | assertion | call => trivial
  | branch | whileTest | whileBody | elements | elementBody | countingStart | countingTest |
      countingBody | countingStep | sequence =>
    dsimp only [Nests] at h ⊢
    exact h.mono hσ

/-- A store that holds nothing new but what belongs to `U` is still nested. -/
theorem Store.Nests.grow (h : σ.Nests U) (hσ : σ.Grows σ')
    (hnew : ∀ v, σ'.Holds v → σ.Holds v ∨ v.Nests U σ') : σ'.Nests U := by
  intro v hv
  rcases hnew v hv with hv | hv
  · exact (h v hv).mono hσ
  · exact hv

theorem Store.Nests.of_scopes_eq (h : σ.Nests U) (hσ : σ'.scopes = σ.scopes) : σ'.Nests U :=
  h.grow (.of_scopes_eq hσ) fun _ hv => .inl (holds_of_scopes_eq hσ hv)

theorem Store.Nests.newChild (h : σ.Nests U) (parent : ScopeId) (name : Text)
    (f l : Option Bool) : (σ.newChild parent name f l).2.Nests U :=
  h.grow (.newChild σ parent name f l) fun _ hv => .inl (holds_of_newChild hv)

theorem Store.Nests.declare (h : σ.Nests U) {v : Value} (hv : v.Nests U σ) (id : ScopeId)
    (name : Text) : (σ.declare id name v).Nests U := by
  have hgrows := Grows.declare σ id name v
  refine h.grow hgrows fun u hu => ?_
  rcases holds_of_declare hu with rfl | hu
  · exact .inr (hv.mono hgrows)
  · exact .inl hu

theorem Store.Nests.declareAll (h : σ.Nests U) (id : ScopeId) {bindings : List (Text × Value)}
    (hb : ∀ b ∈ bindings, b.2.Nests U σ) : (σ.declareAll id bindings).Nests U := by
  have hgrows := Grows.declareAll id bindings σ
  refine h.grow hgrows fun u hu => ?_
  rcases holds_of_declareAll hu with ⟨b, hmem, rfl⟩ | hu
  · exact .inr ((hb b hmem).mono hgrows)
  · exact .inl hu

theorem Store.Nests.get? (h : σ.Nests U) {id : ScopeId} {name : Text} {v : Value}
    (hv : σ.get? id name = some v) : v.Nests U σ :=
  h v (holds_of_get? hv)

end Mono

namespace Machine

variable {limits : Limits} {w : World} {n : Nat} {e : Stage} {base : List Frame}

theorem nests_of_lookup {name : Text} {scope : ScopeId} {v : Value} (h : w.store.Nests U)
    (hv : lookup name scope w = .ok v) : v.Nests U w.store := by
  unfold lookup at hv
  split at hv
  · cases hv
    trivial
  · split at hv <;> cases hv
    next hget => exact h.get? hget

/-- The parts of an expression stand as deep as the expression. -/
theorem parts?_nested {e first : Expr} {operation : Operation} {rest : List Expr}
    (h : parts? e = some (operation, first, rest)) {m : Nat} (he : Nested U (e.nested m)) :
    Nested U (first.nested m) ∧ Nested U (Expr.nestedAll m rest) := by
  have hoption : ∀ (o : Option Expr) (es : List Expr),
      Expr.nestedAll m (o.toList ++ es) = Expr.nestedOption m o ++ Expr.nestedAll m es := by
    intro o es
    cases o <;> simp [Expr.nestedAll, Expr.nestedOption]
  have hlast : ∀ o : Option Expr, Expr.nestedAll m o.toList = Expr.nestedOption m o := by
    intro o
    cases o <;> simp [Expr.nestedAll, Expr.nestedOption]
  rw [← nested_append]
  cases e <;> cases h <;>
    simp only [Expr.nested, nested_cons, List.append_assoc] at he <;>
    simpa [Expr.nestedAll, hoption, hlast] using he.2

theorem nests_go {control : Control} (hw : w.store.Nests U) (hc : control.Nests U w.store) :
    (Stage.go control w n).Nests U :=
  ⟨hc, nofun, hw⟩

theorem nests_yield {v : Value} (hw : w.store.Nests U) (hv : v.Nests U w.store) :
    (Stage.yield v w n).Nests U :=
  nests_go hw hv

theorem nests_push {f : Frame} {control : Control} (hw : w.store.Nests U)
    (hf : f.Nests U w.store) (hc : control.Nests U w.store) :
    (Stage.push f control w n).Nests U :=
  ⟨hc, fun _ hg => List.mem_singleton.1 hg ▸ hf, hw⟩

/-- The statements of a block run in a new scope. -/
theorem nests_statements {b : Block} {scope : ScopeId} (name : Text) (f l : Option Bool)
    (hb : w.store.NestsAt U scope fun m => b.nested (m + 1)) :
    Control.Nests U (w.inner scope name f l).store
      (.statements b.statements (w.innerId scope name f l)) := by
  have hinner : (w.store.newChild scope name f l).2.NestsAt U (w.store.newChild scope name f l).1
      fun m => Stmt.nestedAll m b.statements :=
    hb.newChild name f l fun m hm => b.nested_eq (m + 1) ▸ hm
  exact hinner

theorem nests_counted {loop : CountingLoop} (hw : w.store.Nests U)
    (hl : w.store.NestsAt U loop.scope fun m => loop.nested m) : (counted loop w n).Nests U :=
  nests_push (hw.newChild _ _ _ _) (hl.mono (.newChild _ _ _ _ _))
    (nests_statements _ _ _ (hl.imp fun _ hm => (nested_append.1 hm).2))

theorem Tested.nested {loop : CountingLoop} (h : Tested loop w n e) (hw : w.store.Nests U)
    (hl : w.store.NestsAt U loop.scope fun m => loop.nested m) : e.Nests U := by
  cases h with
  | turn => exact nests_counted hw hl
  | test he =>
    obtain ⟨hs, hcode⟩ := hl
    have hcondition : Nested U (Expr.nestedOption (w.store.depth loop.scope) loop.condition) :=
      (nested_append.1 (nested_append.1 hcode).1).1
    rw [he] at hcondition
    exact nests_push hw ⟨hs, hcode⟩ ⟨hs, hcondition⟩

theorem Turned.nested {loop : ElementLoop} {i : IteratorId} (h : Turned loop i w n e)
    (hw : w.store.Nests U)
    (hl : w.store.NestsAt U loop.scope fun m => loop.body.nested (m + 1)) : e.Nests U := by
  have hw := hw.of_scopes_eq (Store.next_scopes w.store i)
  have hl := hl.mono (.next w.store i)
  cases h with
  | last => exact nests_yield hw trivial
  | @turn v w₁ w₂ inner hv h₁ hi h₂ =>
    subst h₁ hi h₂
    have hbind := Store.Grows.declare ((w.store.next i).2.newChild loop.scope "for" none
      (some true)).2 ((w.store.next i).2.newChild loop.scope "for" none (some true)).1 loop.item v
    have hinner := nests_statements (w := { w with store := (w.store.next i).2 }) "for" none
      (some true) hl
    refine nests_push ((hw.newChild _ _ _ _).declare ((Store.next_data hv).nests _) _ _) ?_ ?_
    · exact (hl.mono (.newChild _ _ _ _ _)).mono hbind
    · exact hinner.mono hbind

/-- The header of a counting loop has a scope of its own. -/
theorem nests_header {span : Span} {first : Option Simple} {condition step : Option Expr}
    {body : Block} {scope : ScopeId}
    (h : w.store.NestsAt U scope fun m => (Stmt.counting span first condition step body).nested m) :
    ((w.inner scope "for" none none).store.NestsAt U (w.innerId scope "for" none none) fun m =>
      Simple.nestedOption m first) ∧
    (w.inner scope "for" none none).store.NestsAt U (w.innerId scope "for" none none) fun m =>
      CountingLoop.nested m ⟨condition, step, body, w.innerId scope "for" none none⟩ := by
  refine ⟨h.newChild "for" none none fun m hm => ?_, h.newChild "for" none none fun m hm => ?_⟩ <;>
    simp only [Stmt.nested, nested_cons, nested_append] at hm
  · exact hm.2.1.1.1
  · simp only [CountingLoop.nested, nested_append]
    exact ⟨⟨hm.2.1.1.2, hm.2.1.2⟩, hm.2.2⟩

theorem Begins.nested {control : Control} (h : Begins w n control e) (hw : w.store.Nests U)
    (hc : control.Nests U w.store) : e.Nests U := by
  cases h with
  | literal => exact nests_yield hw ((Value.data_ofLiteral _).nests _)
  | nothing | finished => exact nests_yield hw trivial
  | name hv => exact nests_yield hw (nests_of_lookup hw hv)
  | increment hold hnew _ hv =>
    refine nests_yield (hw.declare (hnew.data.nests _) _ _) ?_
    rcases hv with rfl | rfl
    · exact hnew.data.nests _
    · exact (nests_of_lookup hw hold).mono (.declare _ _ _ _)
  | lambda =>
    obtain ⟨hs, hcode⟩ := hc
    exact nests_yield hw ⟨hs, (nested_cons.1 hcode).2⟩
  | @definition span name parameters body s f hf =>
    obtain ⟨hs, hcode⟩ := hc
    have hclosure : Value.Nests U w.store (.function ⟨some name, parameters, body, s, span⟩) :=
      ⟨hs, (nested_cons.1 hcode).2⟩
    rw [← hf] at hclosure
    exact nests_yield (hw.declare hclosure _ _) (hclosure.mono (.declare _ _ _ _))
  | parts hparts =>
    obtain ⟨hs, hcode⟩ := hc
    obtain ⟨hfirst, hrest⟩ := parts?_nested hparts hcode
    exact nests_push hw ⟨nofun, hs, hrest⟩ ⟨hs, hfirst⟩
  | value =>
    obtain ⟨hs, hcode⟩ := hc
    exact nests_go hw ⟨hs, (nested_cons.1 hcode).2⟩
  | declaration | assertion | returningValue =>
    obtain ⟨hs, hcode⟩ := hc
    exact nests_push hw trivial ⟨hs, (nested_cons.1 hcode).2⟩
  | conditional =>
    obtain ⟨hs, hcode⟩ := hc
    have hcode := (nested_cons.1 hcode).2
    rw [nested_append, nested_append] at hcode
    exact nests_push hw ⟨hs, nested_append.2 ⟨hcode.1.2, hcode.2⟩⟩ ⟨hs, hcode.1.1⟩
  | whileLoop =>
    obtain ⟨hs, hcode⟩ := hc
    have hcode := (nested_cons.1 hcode).2
    exact nests_push hw ⟨hs, hcode⟩ ⟨hs, (nested_append.1 hcode).1⟩
  | forEach =>
    obtain ⟨hs, hcode⟩ := hc
    have hcode := nested_append.1 (nested_cons.1 hcode).2
    exact nests_push hw ⟨hs, hcode.2⟩ ⟨hs, hcode.1⟩
  | counting h =>
    exact h.nested (hw.newChild _ _ _ _) (nests_header hc).2
  | countingFrom hi =>
    subst hi
    obtain ⟨⟨t, hcode⟩, hloop⟩ := nests_header hc
    exact nests_push (hw.newChild _ _ _ _) hloop ⟨t, hcode⟩
  | returning | breaking | continuing => exact nests_go hw trivial
  | sequence =>
    obtain ⟨hs, hcode⟩ := hc
    have hcode := nested_append.1 hcode
    exact nests_push hw ⟨hs, hcode.2⟩ ⟨hs, hcode.1⟩

/-- A completion that leaves a loop hands on the value that it carries, or none. -/
theorem nests_leaving {k k' : Completion} (h : k.leaving? = some k')
    (hk : k.value.Nests U w.store) : k'.value.Nests U w.store := by
  cases k <;> cases h
  · trivial
  · exact hk

theorem nests_answer {k : Completion} (hk : k.value.Nests U w.store) :
    k.answer.Nests U w.store := by
  cases k with
  | returned v => exact hk
  | _ => trivial

theorem Resumes.nested {f : Frame} {k : Completion} (h : Resumes limits w n f k e)
    (hw : w.store.Nests U) (hf : f.Nests U w.store) (hk : k.value.Nests U w.store) :
    e.Nests U := by
  cases h with
  | operand =>
    obtain ⟨hfound, hs, hcode⟩ := hf
    have hcode := nested_append.1 hcode
    exact nests_push hw ⟨List.forall_mem_cons.2 ⟨hk, hfound⟩, hs, hcode.2⟩ ⟨hs, hcode.1⟩
  | operator hv => exact nests_yield hw (Value.Data.nests hv _)
  | assigned | declare => exact nests_yield (hw.declare hk _ _) (hk.mono (.declare _ _ _ _))
  | builtin _ _ hreply =>
    obtain ⟨hv, hscopes⟩ := Builtin.call_value hreply
    exact nests_yield (hw.of_scopes_eq hscopes) (Value.Data.nests hv _)
  | @entered span found arguments s inner u f w' hvs _ _ hi h₁ =>
    subst hi h₁
    -- the function and its arguments are the values found, the last of which has just come
    have hall : ∀ v ∈ Value.function f :: arguments, v.Nests U w.store := by
      intro v hv
      rw [← hvs, List.mem_reverse] at hv
      rcases List.mem_cons.1 hv with rfl | hv
      · exact hk
      · exact hf.1 v hv
    rw [List.forall_mem_cons] at hall
    have hinner := Store.Grows.newChild w.store f.scope ("call " ++ f.displayName) (some true)
      (some false)
    refine nests_push ((hw.newChild _ _ _ _).declareAll _ fun b hb => ?_) trivial ?_
    · exact (hall.2 b.2 (List.of_mem_zip hb).2).mono hinner
    · exact (nests_statements _ _ _ hall.1).mono (.declareAll _ _ _)
  | giveBack => exact nests_go hw hk
  | assertion | branchSkip | whileDone | countingDone => exact nests_yield hw trivial
  | branch =>
    dsimp only [Frame.Nests] at hf
    exact nests_go (hw.newChild _ _ _ _)
      (nests_statements _ _ _ (hf.imp fun _ hm => (nested_append.1 hm).1))
  | branchBlock =>
    dsimp only [Frame.Nests] at hf
    exact nests_go (hw.newChild _ _ _ _)
      (nests_statements _ _ _ (hf.imp fun _ hm => (nested_append.1 hm).2))
  | branchChain =>
    obtain ⟨hs, hcode⟩ := hf
    exact nests_go hw ⟨hs, (nested_append.1 hcode).2⟩
  | whileTurn =>
    dsimp only [Frame.Nests] at hf
    exact nests_push (hw.newChild _ _ _ _) (hf.mono (.newChild _ _ _ _ _))
      (nests_statements _ _ _ (hf.imp fun _ hm => (nested_append.1 hm).2))
  | whileAgain =>
    obtain ⟨hs, hcode⟩ := hf
    exact nests_push hw ⟨hs, hcode⟩ ⟨hs, (nested_append.1 hcode).1⟩
  | elements _ hw' h =>
    subst hw'
    exact h.nested (hw.of_scopes_eq (Store.iterator_scopes _ _)) (hf.mono (.iterator _ _))
  | countingTurn => exact nests_counted hw hf
  | countingStepped h | countingStarted h | countingAgain _ _ h => exact h.nested hw hf
  | countingStep _ hstep =>
    obtain ⟨hs, hcode⟩ := hf
    have hnext := (nested_append.1 (nested_append.1 hcode).1).2
    rw [hstep] at hnext
    exact nests_push hw ⟨hs, hcode⟩ ⟨hs, hnext⟩
  | sequence => exact nests_go hw hf
  | sequenceLeft => exact nests_go hw hk
  | whileLeft h | elementLeft h | countingLeft h => exact nests_go hw (nests_leaving h hk)
  | elementAgain _ h => exact h.nested hw hf
  | answered => exact nests_yield hw (nests_answer hk)

/-- Every move keeps what is done, what waits and what is held as deep as it stands in the
text. -/
theorem Move.nested {s e : Stage} (h : Move limits s e) (hs : s.Nests U) : e.Nests U := by
  have hgrows := h.grows
  cases h with
  | begins h =>
    exact (h.nested hs.store hs.control).above fun f hf => (hs.frames f hf).mono hgrows
  | resumes h =>
    have hframes := List.forall_mem_cons.1 hs.frames
    exact (h.nested hs.store hframes.1 hs.control).above fun f hf => (hframes.2 f hf).mono hgrows

/-- A program stands as deep as the scope in which it runs. -/
theorem load_nests {program : Block} {root : ScopeId} (hw : w.store.Nests U)
    (hprogram : w.store.NestsAt U root fun m => program.nested m) :
    (load program root w).stage.Nests U := by
  obtain ⟨span, statements⟩ := program
  obtain ⟨hs, hcode⟩ := hprogram
  exact ⟨⟨hs, hcode⟩, nofun, hw⟩

end Machine

end ScriptLang
