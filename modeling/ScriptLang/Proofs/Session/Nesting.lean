import ScriptLang.Proofs.Grammar.Marked
import ScriptLang.Proofs.Machine.Nested
import ScriptLang.Proofs.Session.Course

/-!
# The depth of scopes

How deep a part of a program stands in the text is the number of scopes around it, and there is
one such number for each part. `Session.depth_eq_nesting` says that this is the depth of every
scope in which the part is ever evaluated or executed, so that the scopes around code that runs
tell nothing about the calls that led there.
-/

namespace ScriptLang

/-- No part of a program stands at two depths. -/
theorem Program.nested_once {file : Option Text} {source : Text} {b : Block}
    (h : (read file source).2 = .ok b) {n k m : Nat} {p : Part} (hk : (k, p) ∈ b.nested n)
    (hm : (m, p) ∈ b.nested n) : k = m := by
  obtain ⟨tokens, htokens, hparse⟩ := read_eq_ok.1 h
  exact parseTokensAt_marks (Token.tokenize_ended htokens) (Token.tokenize_starts htokens) hparse
    hk hm rfl

open Machine

namespace Session

variable {P : Config → Prop} {U : Nat × Part → Prop} {root : ScopeId} {w₀ w : World}
  {es : List Entry} {e : Entry} {limits : Limits} {c : Config}

/-- Code that stands in nothing runs in a scope without parent, whatever the store has grown by. -/
theorem nestsAt_root {σ σ' : Store} {s : Scope} (hs : σ.scope? root = some s)
    (hparent : s.parent = none) (hσ : σ.Grows σ') {code : Nat → List (Nat × Part)}
    (hcode : Nested U (code 0)) : σ'.NestsAt U root code := by
  refine Store.NestsAt.mono ⟨⟨s, hs⟩, ?_⟩ hσ
  rw [Store.depth_of_no_parent hs hparent]
  exact hcode

/-- Between the entries of a session, all functions stand as deep as in the text. -/
theorem nests {s : Scope} (hs : w₀.store.scope? root = some s) (hparent : s.parent = none)
    (hw₀ : w₀.store.Nests U) (h : Session P root w₀ es w)
    (hes : ∀ d ∈ es, Nested U (d.block.nested 0)) :
    w₀.store.Grows w.store ∧ w.store.Nests U := by
  induction h with
  | start => exact ⟨.refl _, hw₀⟩
  | console k _ ih => exact ih hes
  | @entry es w w' d limits outcome _ _ hends ih =>
    rw [List.forall_mem_cons] at hes
    obtain ⟨hgrows, hnests⟩ := ih hes.2
    have hload : (d.load root w).stage.Nests U :=
      load_nests hnests (nestsAt_root hs hparent hgrows hes.1)
    obtain ⟨t, ⟨hgrows, hnests⟩, hstore⟩ := hends.kept
      (P := fun t => w₀.store.Grows t.world.store ∧ t.Nests U)
      (fun _ _ h hmove => ⟨h.1.trans hmove.grows, hmove.nested h.2⟩) ⟨hgrows, hload⟩
    exact hstore ▸ ⟨hgrows, hnests.store⟩

/-- Whatever is evaluated or executed when a program is run in a root scope without parent,
alone or as an entry of a session, is a part of the program or of an earlier entry, and the
scope in which it is evaluated or executed is as deep as the part stands in the text. -/
theorem depth_eq_nesting {p : Part} {scope : ScopeId}
    (hroot : ∃ s, w₀.store.scope? root = some s ∧ s.parent = none)
    (hstart : ∀ f, ¬ w₀.store.Holds (.function f)) (hsession : Session P root w₀ es w)
    (hrun : Reaches limits (e.load root w) c) (hc : c.control.part? = some (p, scope)) :
    (c.world.store.scope? scope).isSome ∧ ∃ d ∈ e :: es, ∀ n,
      (n, p) ∈ d.block.nested 0 ↔ n = c.world.store.depth scope := by
  obtain ⟨s, hs, hparent⟩ := hroot
  have hw₀ : w₀.store.Nests fun x => ∃ d ∈ e :: es, x ∈ d.block.nested 0 := by
    intro v hv
    cases v with
    | function f => exact absurd hv (hstart f)
    | _ => trivial
  obtain ⟨hgrows, hw⟩ := hsession.nests hs hparent hw₀ fun d hd x hx =>
    ⟨d, List.mem_cons_of_mem _ hd, hx⟩
  have hload : (e.load root w).stage.Nests fun x => ∃ d ∈ e :: es, x ∈ d.block.nested 0 :=
    load_nests hw (nestsAt_root hs hparent hgrows fun x hx => ⟨e, List.mem_cons_self, hx⟩)
  have hnests := hrun.kept (fun _ _ h hmove => hmove.nested h) hload
  obtain ⟨hscope, d, hd, hdepth⟩ := hnests.part hc
  refine ⟨hscope, d, hd, fun n => ⟨fun hn => ?_, fun hn => ?_⟩⟩
  · exact Program.nested_once d.reads hn hdepth
  · exact hn ▸ hdepth

/-- What a function calls in a choice stands two deep, in the second of its calls as in the
first. -/
theorem depth_eq_nesting_recursive :
    ∃ (e : Entry) (c : Config) (p : Part) (scope : ScopeId),
      e.source = "def f(n) \x7b if n > 0 \x7b f(n - 1) \x7d \x7d\nf(2)" ∧
      Reaches ⟨10, none⟩ (e.load (World.ofInput []).newRoot.1 (World.ofInput []).newRoot.2) c ∧
      c.calls = 2 ∧ c.control.part? = some (p, scope) ∧
      ∀ n, (n, p) ∈ e.block.nested 0 ↔ n = 2 := by
  have hcheck : ((Entry.read? none
      "def f(n) \x7b if n > 0 \x7b f(n - 1) \x7d \x7d\nf(2)").any fun e =>
      (after ⟨10, none⟩ 40
        (e.load (World.ofInput []).newRoot.1 (World.ofInput []).newRoot.2)).any fun c =>
          c.calls = 2 && c.control.part?.any fun x => c.world.store.depth x.2 = 2) = true := by
    decide +kernel
  obtain ⟨e, c, hsource, hrun, hcheck⟩ := Entry.exists_of_after hcheck
  obtain ⟨hcalls, hcheck⟩ := Bool.and_eq_true_iff.1 hcheck
  obtain ⟨⟨p, scope⟩, hpart, hdepth⟩ := (Option.any_eq_true _ _).1 hcheck
  have hfunctions : ∀ f, ¬ (World.ofInput []).newRoot.2.store.Holds (.function f) :=
    fun f => Store.not_holds_newRoot [] _
  obtain ⟨-, d, hd, hnested⟩ := depth_eq_nesting (P := fun _ => True) ⟨_, rfl, rfl⟩ hfunctions
    .start hrun hpart
  cases List.mem_singleton.1 hd
  refine ⟨e, c, p, scope, hsource, hrun, of_decide_eq_true hcalls, hpart, ?_⟩
  rwa [of_decide_eq_true hdepth] at hnested

end Session

end ScriptLang
