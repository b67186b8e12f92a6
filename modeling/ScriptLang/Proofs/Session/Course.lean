import ScriptLang.Proofs.Machine.Matter
import ScriptLang.Proofs.Session.Entry

/-!
# The course of a session

A session runs entries one after the other in one scope; each finds the world that the one
before left behind, however that one ended. `Session P root w₀ entries w` says that the
entries, the latest first, lead from the world `w₀` to the world `w`, through
configurations that satisfy `P`. A program that is run to its end is such an entry
(`Session.execute`), and it is what a source that is run comes to (`Program.run_of_read`).

Whatever code and integers the first world and the entries bring is all that a session is
made of (`Session.madeOf`).
-/

namespace ScriptLang

/-- A source that is a program. -/
structure Entry where
  /-- The name of the source, if it has one. -/
  file : Option Text
  source : Text
  block : Block
  /-- The source is read as the program. -/
  reads : (Program.read file source).2 = .ok block

/-- A source as an entry, if it is a program. -/
def Entry.read? (file : Option Text) (source : Text) : Option Entry :=
  match h : (Program.read file source).2 with
  | .ok block => some ⟨file, source, block, h⟩
  | .error _ => none

theorem Entry.source_of_read? {file : Option Text} {source : Text} {e : Entry}
    (h : read? file source = some e) : e.source = source := by
  unfold read? at h
  split at h <;> cases h
  rfl

/-- The configuration before an entry is run. -/
def Entry.load (e : Entry) (root : ScopeId) (w : World) : Config := Machine.load e.block root w

open Machine

/-- What a run of an entry is seen to come to is reached. -/
theorem Entry.exists_of_after {limits : Limits} {file : Option Text} {source : Text}
    {root : ScopeId} {w : World} {n : Nat} {p : Config → Bool}
    (h : ((read? file source).any fun e => (after limits n (e.load root w)).any p) = true) :
    ∃ (e : Entry) (c : Config),
      e.source = source ∧ Reaches limits (e.load root w) c ∧ p c = true := by
  obtain ⟨e, he, h⟩ := (Option.any_eq_true _ _).1 h
  obtain ⟨c, hc, h⟩ := (Option.any_eq_true _ _).1 h
  exact ⟨e, c, source_of_read? he, reaches_of_after hc, h⟩

/-- Entries, the latest first, lead from `w₀` to a world. Between two of them the console
may change, as when it is written to or read by others. -/
inductive Session (P : Config → Prop) (root : ScopeId) (w₀ : World) :
    List Entry → World → Prop
  | start : Session P root w₀ [] w₀
  | console {es : List Entry} {w : World} (k : Console) :
      Session P root w₀ es w → Session P root w₀ es { w with console := k }
  | entry {es : List Entry} {w w' : World} {e : Entry} {limits : Limits} {outcome : Outcome} :
      Session P root w₀ es w → (∀ c, Reaches limits (e.load root w) c → P c) →
      Ends limits (e.load root w) outcome w' → Session P root w₀ (e :: es) w'

namespace Session

variable {M : Matter} {P : Config → Prop} {root : ScopeId} {w₀ w : World} {es : List Entry}

/-- A session is made of what its first world and its entries are made of. -/
theorem madeOf (hM : M.Closed) (hP : ∀ c t, P c → c.measured? = some t → M.number t.length)
    (h : Session P root w₀ es w) (hes : ∀ e ∈ es, Within M.code e.block.parts)
    (hw₀ : w₀.store.MadeOf M) : w.store.MadeOf M := by
  induction h with
  | start => exact hw₀
  | console k _ ih => exact ih hes
  | entry _ hruns hends ih =>
    rw [List.forall_mem_cons] at hes
    exact (hends.madeOf hM (load_madeOf hes.1 (ih hes.2))
      fun c t hc => hP c t (hruns c hc)).2

/-- A program that is run to its end is an entry of a session. -/
theorem execute {limits : Limits} {lines : List Text} {e : Entry} (h : Session P root w₀ es w)
    (hP : ∀ c, Reaches limits (e.load root w) c → P c)
    (hends : (Program.execute limits e.block lines root w).outcome ≠ .unfinished) :
    Session P root w₀ (e :: es) (Program.execute limits e.block lines root w).world := by
  cases hrun : run limits ample (Machine.load e.block root w) with
  | mk outcome w' =>
    have hexecute : Program.execute limits e.block lines root w =
        ⟨Program.settle e.block lines outcome, w',
          .executing e.block.statements.length :: Program.endNotes outcome⟩ := by
      rw [Program.execute, hrun]
    rw [hexecute] at hends ⊢
    exact h.entry hP (ends_of_run hrun fun hout => hends (by rw [hout]; rfl))

end Session

/-- A program that is run from its source. -/
theorem Program.run_of_read {limits : Limits} {file : Option Text} {source : Text}
    {block : Block} (h : (read file source).2 = .ok block) (scope : ScopeId) (w : World) :
    (run limits file source scope w).outcome =
        (execute limits block source.lines scope w).outcome ∧
      (run limits file source scope w).world =
        (execute limits block source.lines scope w).world := by
  unfold run
  cases hread : read file source with
  | mk notes result =>
    rw [hread] at h
    cases h
    exact ⟨rfl, rfl⟩

end ScriptLang
