import ScriptLang.Proofs.Machine.Confined
import ScriptLang.Proofs.Session.Quote

/-!
# What statements leave in the scopes around them

Statements run bodies, call functions and evaluate expressions that do, and any of them may
fail on the way. `Session.scopes_of_statement` says what all this leaves in the scopes that
there were before: a statement that declares no name leaves them with the names that they had,
one that declares a name adds at most this one, to the scope in which it is executed, and none
takes a name away or moves a scope.
-/

namespace ScriptLang

/-- No program has a definition where no statement stands. -/
theorem Program.read_regular {file : Option Text} {source : Text} {block : Block}
    (h : (read file source).2 = .ok block) : block.Regular := by
  obtain ⟨tokens, htokens, hparse⟩ := read_eq_ok.1 h
  exact (parseTokensAt_reads (Token.tokenize_ended htokens) hparse .outside).1

open Machine

namespace Session

variable {root : ScopeId} {w₀ w : World} {es : List Entry} {e : Entry} {limits : Limits}
  {c : Config}

/-- All statements that an entry of a session executes are regular, if the functions that the
session started with are. -/
theorem regular {x : Stmt} {scope : ScopeId}
    (hstart : w₀.store.MadeOf (.ofParts Part.Regular))
    (hsession : Session (fun _ => True) root w₀ es w)
    (hrun : Reaches limits (e.load root w) c) (hc : c.control = .statement x scope) :
    x.Regular := by
  have hM := Matter.ofParts_closed Part.Regular
  have hentry : ∀ e : Entry, Within Part.Regular e.block.parts := fun e =>
    Block.Regular.within (Program.read_regular e.reads)
  have hw := hsession.madeOf hM (fun _ _ _ _ => trivial) (fun e _ => hentry e) hstart
  have hmade := hrun.madeOf hM (load_madeOf (hentry e) hw) fun _ _ _ _ => trivial
  have hparts := hmade.control
  rw [hc] at hparts
  exact hparts _ x.mem_parts

/-- Whatever a statement of a session does, when it ends, how ever it ends, the scopes that there
were before are where they were and own all names that they owned. They own no others unless the
statement is a declaration or a definition: then the scope in which it is executed may own the
name that it declares. -/
theorem scopes_of_statement {x : Stmt} {scope : ScopeId} {σ : Store}
    (hstart : w₀.store.MadeOf (.ofParts Part.Regular))
    (hsession : Session (fun _ => True) root w₀ es w)
    (hrun : Reaches limits (e.load root w) c) (hc : c.control = .statement x scope)
    (hleaves : Leaves limits c σ) :
    (x.declared? = none → ∀ id n, (c.world.store.scope? id).isSome →
      σ.owns id n = c.world.store.owns id n) ∧
    (∀ name, x.declared? = some name → ∀ id n, (c.world.store.scope? id).isSome →
      σ.owns id n = true → c.world.store.owns id n = true ∨ id = scope ∧ n = name) ∧
    c.world.store.Grows σ := by
  have hgrown := hleaves.growsBy hc
  rw [(regular hstart hsession hrun hc).binds_eq] at hgrown
  refine ⟨fun hx id n hid => ?_, fun name hx id n hid hn => ?_, hgrown.grows⟩
  · rw [hx] at hgrown
    refine Bool.eq_iff_iff.2 ⟨fun hn => ?_, hgrown.grows.owns⟩
    exact (hgrown.owned id n hid hn).resolve_right fun h => List.not_mem_nil h.2
  · rw [hx] at hgrown
    exact (hgrown.owned id n hid hn).imp_right fun h => ⟨h.1, List.mem_singleton.1 h.2⟩

/-- A definition adds its name. -/
theorem scopes_of_statement_definition :
    ∃ (e : Entry) (c d : Config) (x : Stmt), e.source = "def f() \x7b return 1 \x7d" ∧
      Reaches ⟨10, none⟩ (e.load (World.ofInput []).newRoot.1 (World.ofInput []).newRoot.2) c ∧
      c.control = .statement x (World.ofInput []).newRoot.1 ∧ x.declared? = some "f" ∧
      During ⟨10, none⟩ c d ∧ d.world.store.owns (World.ofInput []).newRoot.1 "f" = true ∧
      ∀ id n, (c.world.store.scope? id).isSome → d.world.store.owns id n = true →
        c.world.store.owns id n = true ∨ id = (World.ofInput []).newRoot.1 ∧ n = "f" := by
  have hcheck : ((Entry.read? none "def f() \x7b return 1 \x7d").any fun e =>
      (after ⟨10, none⟩ 1 (e.load (World.ofInput []).newRoot.1 (World.ofInput []).newRoot.2)).any
        fun c => c.control.statement?.any fun x =>
          x.1.declared? = some (Text.ofString "f") && x.2 = (World.ofInput []).newRoot.1 &&
            (after ⟨10, none⟩ 1 c).any fun c' => c'.control.part?.isSome &&
              (after ⟨10, none⟩ 1 c').any fun d =>
                d.world.store.owns (World.ofInput []).newRoot.1 "f") = true := by
    decide +kernel
  obtain ⟨e, c, hsource, hrun, hcheck⟩ := Entry.exists_of_after hcheck
  obtain ⟨⟨x, scope⟩, hcontrol, hcheck⟩ := (Option.any_eq_true _ _).1 hcheck
  simp only [Bool.and_eq_true] at hcheck
  obtain ⟨⟨hname, hscope⟩, hcheck⟩ := hcheck
  obtain ⟨c', hc', hcheck⟩ := (Option.any_eq_true _ _).1 hcheck
  obtain ⟨hpart, hcheck⟩ := Bool.and_eq_true_iff.1 hcheck
  obtain ⟨d, hd, howns⟩ := (Option.any_eq_true _ _).1 hcheck
  have hcontrol := Control.statement?_eq_some.1 hcontrol
  rw [of_decide_eq_true hscope] at hcontrol
  have hname := of_decide_eq_true hname
  have hfirst : During ⟨10, none⟩ c c' :=
    .step .refl ⟨[], rfl, fun _ k hk => nomatch hcontrol.symm.trans hk⟩ (step_of_after hc')
  have hway : c'.UnderWay c.stack.frames := by
    rcases hfirst.underWay_or_completes with hway | ⟨k, hk⟩
    · exact hway
    · rw [hk.control] at hpart
      cases hpart
  have hduring : During ⟨10, none⟩ c d := .step hfirst hway (step_of_after hd)
  refine ⟨e, c, d, x, hsource, hrun, hcontrol, hname, hduring, howns, ?_⟩
  exact (scopes_of_statement (.newRoot []) .start hrun hcontrol (.during hduring)).2.1 _ hname

end Session

end ScriptLang
