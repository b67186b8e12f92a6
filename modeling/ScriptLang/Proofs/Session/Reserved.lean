import ScriptLang.Proofs.Machine.Progress
import ScriptLang.Proofs.Session.Range

/-!
# Reserved names stay unbound

Five kinds of statement and expression bind names, and each of them looks at the reserved
names by itself, a function at its definition and not when it is called. `Session.unreserved`
says what they achieve together: in no scope of a session is a reserved name ever bound, so a
variable can be found although built-in functions are looked up before it, and no evaluation
gets stuck.
-/

namespace ScriptLang

open Machine

/-- What an iterator yields is no function. -/
theorem Iterator.Yields.sound {i : Iterator} {v : Value} (h : i.Yields v) : v.Sound := by
  induction h with
  | head hnext => exact (next?_data hnext).sound
  | tail _ _ ih => exact ih

theorem Fitting.fits {f : Frame} {frames : List Frame} (h : Fitting frames) (hf : f ∈ frames) :
    ∃ below, f.Fits below := by
  induction frames with
  | nil => cases hf
  | cons g below ih =>
    rcases List.mem_cons.1 hf with rfl | hf
    · exact ⟨below, h.1⟩
    · exact ih h.2 hf

/-- All that a configuration holds is sound. -/
theorem Config.Sound.value {c : Config} (h : c.Sound) {v : Value} (hv : c.Holds v) :
    v.Sound := by
  cases hv with
  | delivered hk =>
    have hcontrol := h.control
    rw [hk] at hcontrol
    exact hcontrol.1
  | found hf hv =>
    obtain ⟨below, -, hfound⟩ := h.footing.frames.fits hf
    exact hfound v hv
  | bound hv =>
    obtain ⟨name, hb⟩ := Store.holds_iff.1 hv
    exact h.footing.store.values name v hb
  | yielded _ hv => exact hv.sound

/-- The value of an operator in a program comes from the rule of the operator. -/
theorem Config.Sound.step_binary {c : Config} (h : c.Sound) {limits : Limits}
    {op : BinaryOperator} {span : Span} {found : List Value} {scope : ScopeId} {right : Value}
    {below : Stack} (hcontrol : c.control = .deliver (.normal right))
    (hstack : c.stack.pop? = some (.operands (.binary op) span found [] scope, below)) :
    ∃ left, found = [left] ∧
      step limits c = settle (op.apply left right) span below c.world c.calls := by
  obtain ⟨control, ⟨frames, height, heq⟩, w, calls⟩ := c
  cases hcontrol
  cases frames with
  | nil => cases hstack
  | cons f frames =>
    cases hstack
    obtain ⟨⟨htakes, -⟩, -⟩ := h.footing.frames
    obtain ⟨left, rfl⟩ := List.length_eq_one_iff.1 (Nat.succ.inj htakes)
    exact ⟨left, rfl, rfl⟩

namespace Session

variable {root : ScopeId} {w₀ w : World} {es : List Entry} {e : Entry} {limits : Limits}
  {c : Config}

/-- A session leaves a sound store behind if it starts with one. -/
theorem sound {P : Config → Prop} (h : Session P root w₀ es w) (hstart : w₀.store.Sound) :
    w.store.Sound := by
  induction h with
  | start => exact hstart
  | console k _ ih => exact ih
  | entry _ _ hends ih => exact (hends.sound (load_sound ih _ root)).2

/-- At every point of every entry of a session that starts with a sound store, no scope binds
a reserved name, every built-in function that is held is one that there is, an operator between
two values has a rule that the next move follows, no move gets stuck, and every variable is
found under its name. -/
theorem unreserved (hstart : w₀.store.Sound) (hsession : Session (fun _ => True) root w₀ es w)
    (hrun : Reaches limits (e.load root w) c) :
    (∀ id name, c.world.store.owns id name = true → Builtin.isReserved name = false) ∧
      (∀ name, c.Holds (.builtin name) → ∃ b, Builtin.ofName? name = some b) ∧
      (∀ op span found scope right below, c.control = .deliver (.normal right) →
        c.stack.pop? = some (.operands (.binary op) span found [] scope, below) →
        ∃ left, found = [left] ∧
          Machine.step limits c = settle (op.apply left right) span below c.world c.calls) ∧
      (∀ w', Machine.step limits c ≠ .halt .stuck w') ∧
      ∀ scope name v, c.world.store.get? scope name = some v →
        lookup name scope c.world = .ok v := by
  have hc : c.Sound := hrun.sound (load_sound (hsession.sound hstart) e.block root)
  have hstore := hc.footing.store
  refine ⟨fun id name howns => hstore.owns howns, fun name hv => ?_,
    fun op span found scope right below => hc.step_binary, fun w' hstep => ?_,
    fun scope name v hv => lookup_of_get? hstore hv⟩
  · exact Option.isSome_iff_exists.1 (hc.value hv)
  · have hnext : (Machine.step limits c).Sound := step_sound hc
    rw [hstep] at hnext
    exact hnext.1

/-- A built-in function under another name, called with a sum. -/
theorem unreserved_renamed :
    ∃ (e : Entry) (c : Config) (name : Text), e.source = "let p = print\np(1 + 2)" ∧
      Reaches ⟨10, none⟩ (e.load (World.ofInput []).newRoot.1 (World.ofInput []).newRoot.2) c ∧
      c.world.store.get? (World.ofInput []).newRoot.1 "p" = some (.builtin name) ∧
      lookup "p" (World.ofInput []).newRoot.1 c.world = .ok (.builtin name) ∧
      (∃ b, Builtin.ofName? name = some b) ∧
      ∀ w', Machine.step ⟨10, none⟩ c ≠ .halt .stuck w' := by
  have hcheck : ((Entry.read? none "let p = print\np(1 + 2)").any fun e =>
      (after ⟨10, none⟩ 9 (e.load (World.ofInput []).newRoot.1 (World.ofInput []).newRoot.2)).any
        fun c => (c.world.store.get? (World.ofInput []).newRoot.1 "p").any fun v =>
          v.kind = .builtin) = true := by
    decide +kernel
  obtain ⟨e, he, hcheck⟩ := (Option.any_eq_true _ _).1 hcheck
  obtain ⟨c, hafter, hcheck⟩ := (Option.any_eq_true _ _).1 hcheck
  obtain ⟨v, hv, hkind⟩ := (Option.any_eq_true _ _).1 hcheck
  have hrun := reaches_of_after hafter
  obtain ⟨-, hbuiltin, -, hstuck, hfound⟩ := unreserved (.newRoot []) .start hrun
  cases v with
  | builtin name =>
    exact ⟨e, c, name, Entry.source_of_read? he, hrun, hv, hfound _ _ _ hv,
      hbuiltin name (.bound (Store.holds_of_get? hv)), hstuck⟩
  | _ => cases of_decide_eq_true hkind

end Session

end ScriptLang
