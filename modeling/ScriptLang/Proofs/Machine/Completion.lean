import Mathlib.Order.Defs.PartialOrder
import ScriptLang.Proofs.Machine.Grow
import ScriptLang.Session.Program

/-!
# Where completions come from

A completion asks for something around the part that it ends: one that leaves a loop or a turn
of it for a loop, one that leaves a function for a function (`Completion.asks`). Frames hand
completions on, and a frame that does not look at them at all, such as the one of a call at a
`break`, would lose one that it is not meant for.

None is ever lost. What may be handed to a frame is a place, too (`Frame.passage?`), and all
frames of a run fit together (`Passes`): each takes what the one above it gives. So a loop ends
normally or by leaving the function around, and so does the body of a function; the start of a
counting loop and the program itself end normally (`completions_in_place`).
-/

namespace ScriptLang

/-! ### Places in order -/

/-- One place is no more than another if all that is around it is around the other. -/
instance : Preorder Place where
  le π ρ := (π.inFunction → ρ.inFunction) ∧ (π.inLoop → ρ.inLoop)
  le_refl _ := ⟨id, id⟩
  le_trans _ _ _ h h' := ⟨h'.1 ∘ h.1, h'.2 ∘ h.2⟩

namespace Place

/-- The place without the loop around. -/
def unlooped (π : Place) : Place := { π with inLoop := false }

theorem outside_le (π : Place) : outside ≤ π := ⟨nofun, nofun⟩

theorem body_le {π : Place} (h : π.inFunction = true) : body ≤ π := ⟨fun _ => h, nofun⟩

end Place

/-- What a completion asks to be around the part that it ends. -/
def Completion.asks : Completion → Place
  | .normal _ => .outside
  | .broke => Place.outside.loop
  | .continued => Place.outside.loop
  | .returned _ => .body

/-- The completions by which a statement may end at a place, as what they ask for. -/
def Stmt.exits (π : Place) : Stmt → Place
  | .simple _ => .outside
  | .conditional _ => π
  | .whileLoop _ _ _ => π.unlooped
  | .forEach _ _ _ _ => π.unlooped
  | .counting _ _ _ _ _ => π.unlooped
  | .returning _ _ => π.unlooped
  | .breaking _ => π
  | .continuing _ => π
  | .assertion _ _ _ => .outside

/-- The scope in which statements are executed, if that is what is done. -/
def Control.runsIn? : Control → Option ScopeId
  | .statement _ scope => some scope
  | .statements _ scope => some scope
  | _ => none

/-- Whether a statement is a `break`. -/
def Stmt.isBreak : Stmt → Bool
  | .breaking _ => true
  | _ => false

/-- Whether a statement is a loop. -/
def Stmt.isLoop : Stmt → Bool
  | .whileLoop _ _ _ => true
  | .forEach _ _ _ _ => true
  | .counting _ _ _ _ _ => true
  | _ => false

theorem Stmt.exits_le (π : Place) (x : Stmt) : x.exits π ≤ π := by
  cases x with
  | simple | assertion => exact π.outside_le
  | conditional | breaking | continuing => exact le_refl π
  | whileLoop | forEach | counting | returning => exact ⟨id, nofun⟩

theorem Stmt.exits_of_isLoop {x : Stmt} (h : x.isLoop = true) (π : Place) :
    x.exits π = π.unlooped := by
  cases x <;> first | rfl | cases h

/-- What leaves a loop asks for no loop, whatever left the turn of it. -/
theorem Completion.asks_of_leaving? {k k' : Completion} {π : Place} (h : k.leaving? = some k')
    (hk : k.asks ≤ π.loop) : k'.asks ≤ π.unlooped := by
  cases k <;> cases h
  · exact Place.outside_le _
  · exact Place.body_le (hk.1 rfl)

theorem Completion.normal_of_asks {k : Completion} (h : k.asks ≤ Place.outside) :
    ∃ v, k = .normal v := by
  cases k with
  | normal v => exact ⟨v, rfl⟩
  | broke => cases h.2 rfl
  | continued => cases h.2 rfl
  | returned v => cases h.1 rfl

theorem Completion.normal_or_returned_of_asks {k : Completion} {π : Place}
    (h : k.asks ≤ π.unlooped) : (∃ v, k = .normal v) ∨ ∃ v, k = .returned v := by
  cases k with
  | normal v => exact .inl ⟨v, rfl⟩
  | broke => cases h.2 rfl
  | continued => cases h.2 rfl
  | returned v => exact .inr ⟨v, rfl⟩

/-! ### What frames take and give -/

/-- Two places: the completions that a frame takes ask for no more than the one, and those that
it gives for no more than the other. -/
structure Passage where
  takes : Place
  gives : Place

/-- What a loop takes from a turn and gives. -/
def Passage.turn (π : Place) : Passage := ⟨π.loop, π.unlooped⟩

/-- What a loop takes from its other parts and gives. -/
def Passage.header (π : Place) : Passage := ⟨.outside, π.unlooped⟩

/-- What a frame takes and gives, if it waits in a scope that there is. -/
def Frame.passage? (σ : Store) : Frame → Option Passage
  | .operands _ _ _ _ _ => some ⟨.outside, .outside⟩
  | .declare _ _ => some ⟨.outside, .outside⟩
  | .giveBack => some ⟨.outside, .body⟩
  | .assertion _ _ _ => some ⟨.outside, .outside⟩
  | .branch _ _ _ scope => (σ.place? scope).map (.mk .outside)
  | .whileTest loop => (σ.place? loop.scope).map .header
  | .whileBody loop => (σ.place? loop.scope).map .turn
  | .elements loop _ => (σ.place? loop.scope).map .header
  | .elementBody loop _ => (σ.place? loop.scope).map .turn
  | .countingStart loop => (σ.place? loop.scope).map .header
  | .countingTest loop _ => (σ.place? loop.scope).map .header
  | .countingBody loop => (σ.place? loop.scope).map .turn
  | .countingStep loop => (σ.place? loop.scope).map .header
  | .sequence _ scope => (σ.place? scope).map fun π => ⟨π, π⟩
  | .call => some ⟨.body, .outside⟩

/-- Frames take completions of a place: the topmost takes them, the next one takes what that one
gives, and so on down to the place `ρ₀`, beyond which nothing is known. -/
def Passes (σ : Store) (ρ₀ : Place) : List Frame → Place → Prop
  | [], ρ => ρ ≤ ρ₀
  | f :: fs, ρ => ∃ p, f.passage? σ = some p ∧ ρ ≤ p.takes ∧ Passes σ ρ₀ fs p.gives

/-- What is done ends by completions that the frames take. -/
def Stage.Passes (ρ₀ : Place) (s : Stage) : Prop :=
  match s.control with
  | .expression _ _ => ScriptLang.Passes s.world.store ρ₀ s.frames .outside
  | .statement x scope =>
    ∃ π, s.world.store.place? scope = some π ∧
      ScriptLang.Passes s.world.store ρ₀ s.frames (x.exits π)
  | .statements _ scope =>
    ∃ π, s.world.store.place? scope = some π ∧ ScriptLang.Passes s.world.store ρ₀ s.frames π
  | .deliver k => ScriptLang.Passes s.world.store ρ₀ s.frames k.asks

section Passes

variable {σ σ' : Store} {ρ₀ π ρ : Place} {f : Frame} {fs : List Frame}

theorem Frame.passage?_mono {p : Passage} (h : f.passage? σ = some p) (hσ : σ.Extends σ') :
    f.passage? σ' = some p := by
  have hmap : ∀ {scope : ScopeId} {g : Place → Passage}, (σ.place? scope).map g = some p →
      (σ'.place? scope).map g = some p := by
    intro scope g hg
    obtain ⟨π, hπ, rfl⟩ := Option.map_eq_some_iff.1 hg
    rw [hσ scope π hπ, Option.map_some]
  cases f <;> first | exact h | exact hmap h

theorem Passes.le (h : Passes σ ρ₀ fs π) (hρ : ρ ≤ π) : Passes σ ρ₀ fs ρ := by
  cases fs with
  | nil => exact le_trans hρ h
  | cons f fs =>
    obtain ⟨p, hp, hπ, hfs⟩ := h
    exact ⟨p, hp, le_trans hρ hπ, hfs⟩

theorem Passes.value (h : Passes σ ρ₀ fs π) : Passes σ ρ₀ fs .outside := h.le π.outside_le

theorem Passes.mono (h : Passes σ ρ₀ fs π) (hσ : σ.Extends σ') : Passes σ' ρ₀ fs π := by
  induction fs generalizing π with
  | nil => exact h
  | cons f fs ih =>
    obtain ⟨p, hp, hπ, hfs⟩ := h
    exact ⟨p, Frame.passage?_mono hp hσ, hπ, ih hfs⟩

/-- A frame that waits for a value in a scope. -/
theorem Passes.push {scope : ScopeId} {g : Place → Passage} (h : Passes σ ρ₀ fs (g π).gives)
    (hf : f.passage? σ = (σ.place? scope).map g) (hπ : σ.place? scope = some π)
    (hρ : ρ ≤ (g π).takes) : Passes σ ρ₀ (f :: fs) ρ :=
  ⟨g π, by rw [hf, hπ, Option.map_some], hρ, h⟩

/-- A frame that waits in a scope takes and gives what the place of the scope allows. -/
theorem Passes.pop {k : Completion} {scope : ScopeId} {g : Place → Passage}
    (h : Passes σ ρ₀ (f :: fs) k.asks)
    (hf : f.passage? σ = (σ.place? scope).map g) :
    ∃ π, σ.place? scope = some π ∧ k.asks ≤ (g π).takes ∧
      Passes σ ρ₀ fs (g π).gives := by
  obtain ⟨p, hp, hk, h⟩ := h
  obtain ⟨π, hπ, rfl⟩ := Option.map_eq_some_iff.1 (hf.symm.trans hp)
  exact ⟨π, hπ, hk, h⟩

theorem Passes.below {k : Completion} {p : Passage}
    (h : Passes σ ρ₀ (f :: fs) k.asks) (hp : f.passage? σ = some p) :
    Passes σ ρ₀ fs p.gives := by
  obtain ⟨q, hq, -, h⟩ := h
  cases hp.symm.trans hq
  exact h

end Passes

namespace Machine

variable {limits : Limits} {w : World} {n : Nat} {ρ₀ π : Place} {base : List Frame} {e : Stage}

/-! ### Moves -/

theorem Tested.passes {loop : CountingLoop} (ht : Tested loop w n e)
    (hπ : w.store.place? loop.scope = some π) (h : Passes w.store ρ₀ base π.unlooped) :
    (e.above base).Passes ρ₀ := by
  have hext := (ht.growsBy (A := fun _ _ => False)).grows.toExtends
  have h := h.mono hext
  cases ht with
  | turn =>
    refine ⟨π.loop, Store.place?_newChild hπ "loop" none (some true), ?_⟩
    exact h.push (g := .turn) rfl (hext _ _ hπ) (le_refl π.loop)
  | test => exact h.push (g := .header) rfl hπ (le_refl Place.outside)

theorem Turned.passes {loop : ElementLoop} {i : IteratorId} (ht : Turned loop i w n e)
    (hπ : w.store.place? loop.scope = some π) (h : Passes w.store ρ₀ base π.unlooped) :
    (e.above base).Passes ρ₀ := by
  have hext := (ht.growsBy (A := fun _ _ => False)).grows.toExtends
  have h := h.mono hext
  cases ht with
  | last => exact h.value
  | turn _ h₁ hi h₂ =>
    subst h₁ hi h₂
    have hnext := Store.Extends.of_scopes_eq (Store.next_scopes w.store i)
    have hinner := Store.place?_newChild (hnext _ _ hπ) "for" none (some true)
    refine ⟨π.loop, Store.extends_declare _ _ _ _ _ _ hinner, ?_⟩
    exact h.push (g := .turn) rfl (hext _ _ hπ) (le_refl π.loop)

theorem Begins.passes {control : Control} (hb : Begins w n control e)
    (h : Stage.Passes ρ₀ ⟨control, base, w, n⟩) : (e.above base).Passes ρ₀ := by
  have hgrows : w.store.GrowsBy (Stage.Binds ⟨control, base, w, n⟩) e.world.store := hb.growsBy
  have hext := hgrows.grows.toExtends
  have hmono : ∀ {π}, Passes w.store ρ₀ base π → Passes e.world.store ρ₀ base π :=
    fun h => h.mono hext
  cases hb with
  | literal | nothing | name | lambda => exact h
  | increment | definition => exact hmono h
  | parts => exact ⟨_, rfl, le_refl _, h⟩
  | value =>
    obtain ⟨π, -, h⟩ := h
    exact h
  | declaration | assertion =>
    obtain ⟨π, -, h⟩ := h
    exact ⟨_, rfl, le_refl _, h⟩
  | conditional =>
    obtain ⟨π, hπ, h⟩ := h
    exact h.push (g := .mk .outside) rfl hπ (le_refl _)
  | whileLoop | forEach =>
    obtain ⟨π, hπ, h⟩ := h
    exact h.push (g := .header) rfl hπ (le_refl _)
  | counting ht =>
    obtain ⟨π, hπ, h⟩ := h
    exact ht.passes (Store.place?_newChild hπ "for" none none)
      (h.mono (Store.extends_newChild _ _ "for" none none))
  | countingFrom hi =>
    subst hi
    obtain ⟨π, hπ, h⟩ := h
    have hinner := Store.place?_newChild hπ "for" none none
    exact ⟨_, hinner, (hmono h).push (g := .header) rfl hinner (le_refl _)⟩
  | returning hf =>
    obtain ⟨π, hπ, h⟩ := h
    exact h.le (Place.body_le ((Store.inFunction_of_place? hπ).symm.trans hf))
  | returningValue hf =>
    obtain ⟨π, hπ, h⟩ := h
    have hbody := h.le (Place.body_le ((Store.inFunction_of_place? hπ).symm.trans hf))
    exact ⟨_, rfl, le_refl _, hbody⟩
  | breaking hl | continuing hl =>
    obtain ⟨π, hπ, h⟩ := h
    exact h.le ⟨nofun, fun _ => (Store.inLoop_of_place? hπ).symm.trans hl⟩
  | finished =>
    obtain ⟨π, -, h⟩ := h
    exact h.value
  | sequence =>
    obtain ⟨π, hπ, h⟩ := h
    exact ⟨π, hπ, h.push (g := fun π => ⟨π, π⟩) rfl hπ (Stmt.exits_le π _)⟩

theorem Resumes.passes {f : Frame} {k : Completion} (hr : Resumes limits w n f k e)
    (h : Passes w.store ρ₀ (f :: base) k.asks) : (e.above base).Passes ρ₀ := by
  have hgrows : w.store.GrowsBy (Stage.Binds ⟨.deliver k, f :: base, w, n⟩) e.world.store :=
    hr.growsBy
  have hext := hgrows.grows.toExtends
  have hmono : ∀ {π}, Passes w.store ρ₀ base π → Passes e.world.store ρ₀ base π :=
    fun h => h.mono hext
  cases hr with
  | operand => exact ⟨_, rfl, le_refl _, h.below rfl⟩
  | operator | giveBack | assertion | answered => exact h.below rfl
  | assigned | builtin | declare => exact hmono (h.below rfl)
  | entered _ _ _ hi hw =>
    subst hi hw
    have h := h.below rfl
    refine ⟨.body, Store.extends_declareAll _ _ _ _ _ ?_, _, rfl, le_refl _, hmono h⟩
    exact Store.place?_newChild_given _ _ _ true false
  | branch | branchBlock =>
    obtain ⟨π, hπ, -, h⟩ := h.pop rfl
    exact ⟨π, Store.place?_newChild hπ "block" none none, hmono h⟩
  | branchSkip | whileDone | countingDone =>
    obtain ⟨π, -, -, h⟩ := h.pop rfl
    exact h.value
  | branchChain | sequence =>
    obtain ⟨π, hπ, -, h⟩ := h.pop rfl
    exact ⟨π, hπ, h⟩
  | whileTurn | countingTurn =>
    obtain ⟨π, hπ, -, h⟩ := h.pop rfl
    refine ⟨π.loop, Store.place?_newChild hπ "loop" none (some true), ?_⟩
    exact (hmono h).push (g := .turn) rfl (hext _ _ hπ) (le_refl π.loop)
  | elements _ hw ht =>
    subst hw
    obtain ⟨π, hπ, -, h⟩ := h.pop rfl
    have hscopes := Store.iterator_scopes w.store
    exact ht.passes (Store.Extends.of_scopes_eq (hscopes _) _ _ hπ)
      (h.mono (.of_scopes_eq (hscopes _)))
  | countingStepped ht | countingStarted ht | countingAgain _ _ ht | elementAgain _ ht =>
    obtain ⟨π, hπ, -, h⟩ := h.pop rfl
    exact ht.passes hπ h
  | sequenceLeft =>
    obtain ⟨π, -, hk, h⟩ := h.pop rfl
    exact h.le hk
  | whileLeft hleft | elementLeft hleft | countingLeft hleft =>
    obtain ⟨π, -, hk, h⟩ := h.pop rfl
    exact h.le (Completion.asks_of_leaving? hleft hk)
  | whileAgain | countingStep =>
    obtain ⟨π, hπ, -, h⟩ := h.pop rfl
    exact h.push (g := .header) rfl hπ (le_refl _)

/-- Every move hands the frames what they take. -/
theorem Move.passes {s e : Stage} (h : s.Passes ρ₀) (hmove : Move limits s e) : e.Passes ρ₀ := by
  cases hmove with
  | begins hb => exact hb.passes h
  | resumes hr => exact hr.passes h

/-! ### Runs -/

/-- What is reached from a program in a scope outside of functions and loops hands its frames
what they take. -/
theorem Reaches.passes {program : Block} {root : ScopeId} {c : Config}
    (hroot : w.store.place? root = some .outside)
    (hrun : Reaches limits (load program root w) c) : c.stage.Passes .outside :=
  hrun.kept (fun _ _ => Move.passes) ⟨_, hroot, le_refl _⟩

/-- The completion of a part asks for no more than what the part may end by. -/
theorem Completes.asks_le {c d : Config} {k : Completion} (h : Completes limits c k d)
    (hc : Stage.Passes π (.go c.control c.world c.calls)) : k.asks ≤ π :=
  h.kept (fun _ _ => Move.passes) hc

/-- Statements and blocks complete as their scope allows. -/
theorem Completes.allowed {c d : Config} {k : Completion} {scope : ScopeId}
    (h : Completes limits c k d) (hc : c.stage.Passes ρ₀)
    (hscope : c.control.runsIn? = some scope) :
    (k = .broke ∨ k = .continued → c.world.store.inLoop scope = true) ∧
      ∀ v, k = .returned v → c.world.store.inFunction scope = true := by
  obtain ⟨control, stack, w, n⟩ := c
  obtain ⟨π, hπ, hk⟩ : ∃ π, w.store.place? scope = some π ∧ k.asks ≤ π := by
    cases control with
    | statement x s =>
      cases hscope
      obtain ⟨π, hπ, -⟩ := hc
      exact ⟨π, hπ, le_trans (h.asks_le ⟨π, hπ, le_refl _⟩) (x.exits_le π)⟩
    | statements xs s =>
      cases hscope
      obtain ⟨π, hπ, -⟩ := hc
      exact ⟨π, hπ, h.asks_le ⟨π, hπ, le_refl _⟩⟩
    | _ => cases hscope
  rw [Store.inLoop_of_place? hπ, Store.inFunction_of_place? hπ]
  constructor
  · rintro (rfl | rfl) <;> exact hk.2 rfl
  · rintro v rfl
    exact hk.1 rfl

/-- A loop ends normally or by leaving the function around. -/
theorem Completes.of_isLoop {c d : Config} {k : Completion} {x : Stmt} {scope : ScopeId}
    (h : Completes limits c k d) (hc : c.stage.Passes ρ₀)
    (hx : c.control = .statement x scope) (hloop : x.isLoop = true) :
    (∃ v, k = .normal v) ∨ ∃ v, k = .returned v := by
  obtain ⟨control, stack, w, n⟩ := c
  cases hx
  obtain ⟨π, hπ, -⟩ := hc
  have hk := h.asks_le ⟨π, hπ, le_refl _⟩
  rw [Stmt.exits_of_isLoop hloop] at hk
  exact Completion.normal_or_returned_of_asks hk

/-- In every run from a scope outside of functions and loops, a statement or a block leaves a
loop or a turn of it only if its scope is in a loop, and a function only if it is in a function;
a loop ends normally or by leaving the function around, and so does the body of a function; the
start of a counting loop ends normally, and so does the program. -/
theorem completions_in_place {program : Block} {root : ScopeId} {c : Config}
    (hroot : w.store.place? root = some .outside)
    (hrun : Reaches limits (load program root w) c) :
    (∀ scope k d, c.control.runsIn? = some scope → Completes limits c k d →
      (k = .broke ∨ k = .continued → c.world.store.inLoop scope = true) ∧
        ∀ v, k = .returned v → c.world.store.inFunction scope = true) ∧
    (∀ x scope k d, c.control = .statement x scope → x.isLoop = true → Completes limits c k d →
      (∃ v, k = .normal v) ∨ ∃ v, k = .returned v) ∧
    (∀ k frames, c.control = .deliver k → c.stack.frames = .call :: frames →
      (∃ v, k = .normal v) ∨ ∃ v, k = .returned v) ∧
    (∀ k loop frames, c.control = .deliver k → c.stack.frames = .countingStart loop :: frames →
      ∃ v, k = .normal v) ∧
    ∀ k, c.control = .deliver k → c.stack.frames = [] → ∃ v, k = .normal v := by
  have hc := hrun.passes hroot
  have hdeliver : ∀ {k}, c.control = .deliver k →
      Passes c.world.store .outside c.stack.frames k.asks := by
    intro k hk
    simpa only [Stage.Passes, Config.stage, hk] using hc
  refine ⟨fun scope k d hscope hk => hk.allowed hc hscope,
    fun x scope k d hx hloop hk => hk.of_isLoop hc hx hloop, fun k frames hk hf => ?_,
    fun k loop frames hk hf => ?_, fun k hk hf => ?_⟩
  · obtain ⟨p, hp, hasks, -⟩ := hf ▸ hdeliver hk
    cases hp
    exact Completion.normal_or_returned_of_asks (π := .body) hasks
  · obtain ⟨π, -, hasks, -⟩ := (hf ▸ hdeliver hk).pop rfl
    exact Completion.normal_of_asks hasks
  · have hasks := hdeliver hk
    rw [hf] at hasks
    exact Completion.normal_of_asks hasks

/-- A `break` in a choice in a loop completes where a loop is around. -/
theorem completions_in_place_break :
    ∃ program c d scope,
      (Program.read none "while true \x7b if true \x7b break \x7d \x7d").2 = .ok program ∧
      Reaches ⟨10, none⟩
        (load program (World.ofInput []).newRoot.1 (World.ofInput []).newRoot.2) c ∧
      c.control.runsIn? = some scope ∧ Completes ⟨10, none⟩ c .broke d ∧
      c.world.store.inLoop scope = true := by
  have hcheck : ((Program.read none "while true \x7b if true \x7b break \x7d \x7d").2.toOption.any
      fun program =>
        (after ⟨10, none⟩ 9
          (load program (World.ofInput []).newRoot.1 (World.ofInput []).newRoot.2)).any fun c =>
            c.control.statement?.any fun x => x.1.isBreak && c.world.store.inLoop x.2) = true := by
    decide +kernel
  obtain ⟨program, hprogram, hcheck⟩ := (Option.any_eq_true _ _).1 hcheck
  obtain ⟨⟨control, stack, w, n⟩, hafter, hcheck⟩ := (Option.any_eq_true _ _).1 hcheck
  obtain ⟨⟨x, scope⟩, hcontrol, hcheck⟩ := (Option.any_eq_true _ _).1 hcheck
  obtain ⟨hbreak, hloop⟩ := Bool.and_eq_true_iff.1 hcheck
  have hrun := reaches_of_after hafter
  cases Control.statement?_eq_some.1 hcontrol
  cases x with
  | breaking span =>
    have hstep : step ⟨10, none⟩ ⟨.statement (.breaking span) scope, stack, w, n⟩ =
        .go ⟨.deliver .broke, stack, w, n⟩ := if_pos hloop
    have hcompletes : Completes ⟨10, none⟩ ⟨.statement (.breaking span) scope, stack, w, n⟩
        .broke ⟨.deliver .broke, stack, w, n⟩ :=
      ⟨.step .refl ⟨[], rfl, nofun⟩ hstep, rfl, rfl⟩
    have hread : (Program.read none "while true \x7b if true \x7b break \x7d \x7d").2 =
        .ok program := by
      unfold Except.toOption at hprogram
      split at hprogram <;> cases hprogram
      assumption
    refine ⟨program, _, _, scope, hread, hrun, rfl, hcompletes, ?_⟩
    exact ((completions_in_place rfl hrun).1 scope .broke _ rfl hcompletes).1 (.inl rfl)
  | _ => cases hbreak

end Machine

end ScriptLang
