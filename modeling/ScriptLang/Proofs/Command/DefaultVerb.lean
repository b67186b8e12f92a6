import ScriptLang.Command.Arguments

/-!
# The verb that may be left out

On the way to the verb of a command line its options are passed over, and with each `--config`
the argument behind it, whatever that is (`PassedOver`). The first argument that is left
(`FirstItem`) is the verb, or it gets `run` in front of it; nothing else about the arguments
changes (`withVerb_inserts`).

A `--config` at the end of the arguments waits for a value in vain: the arguments before it are
passed over and none is left.
-/

namespace ScriptLang

/-- Options, each `--config` among them with the argument behind it. -/
inductive PassedOver : List Text → Prop
  | nil : PassedOver []
  | option {t : Text} {ts : List Text} (hne : t ≠ configOption) (hdash : hasDash t = true)
      (h : PassedOver ts) : PassedOver (t :: ts)
  | valued (value : Text) {ts : List Text} (h : PassedOver ts) :
      PassedOver (configOption :: value :: ts)

/-- The argument `t` is the first one that is not passed over. -/
structure FirstItem (ts before : List Text) (t : Text) (after : List Text) : Prop where
  split : ts = before ++ t :: after
  passed : PassedOver before
  item : hasDash t = false

namespace Verb

theorem ofName?_isSome {t : Text} : (ofName? t).isSome = true ↔ ∃ v : Verb, v.name = t := by
  constructor
  · intro h
    obtain ⟨v, hv⟩ := Option.isSome_iff_exists.1 h
    exact ⟨v, by simpa using List.find?_some hv⟩
  · rintro ⟨v, rfl⟩
    rw [ofName?_name]
    rfl

theorem hasDash_name (v : Verb) : hasDash v.name = false := by cases v <;> rfl

end Verb

theorem ne_configOption_of_not_hasDash {t : Text} (h : hasDash t = false) : t ≠ configOption := by
  rintro rfl
  exact absurd h (by decide)

/-! ### One argument at a time -/

section

variable {t : Text}

theorem withVerb_option (hne : t ≠ configOption) (hdash : hasDash t = true) (rest : List Text) :
    withVerb (t :: rest) = t :: withVerb rest := by
  rw [withVerb.eq_def]
  dsimp only
  rw [if_neg hne, if_pos hdash]

theorem withVerb_valued (value : Text) (rest : List Text) :
    withVerb (configOption :: value :: rest) = configOption :: value :: withVerb rest := by
  rw [withVerb.eq_def]
  exact if_pos rfl

theorem withVerb_waiting : withVerb [configOption] = [configOption] := by
  rw [withVerb.eq_def]
  exact if_pos rfl

theorem withVerb_verb (hitem : hasDash t = false) (hverb : ∃ v : Verb, v.name = t)
    (rest : List Text) : withVerb (t :: rest) = t :: rest := by
  rw [withVerb.eq_def]
  dsimp only
  rw [if_neg (ne_configOption_of_not_hasDash hitem), if_neg (by simp [hitem]),
    if_pos (Verb.ofName?_isSome.2 hverb)]

theorem withVerb_item (hitem : hasDash t = false) (hverb : ¬∃ v : Verb, v.name = t)
    (rest : List Text) : withVerb (t :: rest) = Verb.run.name :: t :: rest := by
  rw [withVerb.eq_def]
  dsimp only
  rw [if_neg (ne_configOption_of_not_hasDash hitem), if_neg (by simp [hitem]),
    if_neg (mt Verb.ofName?_isSome.1 hverb)]

end

/-! ### What is passed over -/

theorem PassedOver.withVerb_append {before : List Text} (h : PassedOver before)
    (rest : List Text) : withVerb (before ++ rest) = before ++ withVerb rest := by
  induction h with
  | nil => rfl
  | option hne hdash _ ih => rw [List.cons_append, withVerb_option hne hdash, ih, List.cons_append]
  | valued value _ ih =>
    rw [List.cons_append, List.cons_append, withVerb_valued, ih, List.cons_append, List.cons_append]

/-- Some argument is the first that is left; or all are passed over, but for a `--config` at
the end. -/
theorem firstItem_or_passedOver (ts : List Text) :
    (∃ before t after, FirstItem ts before t after) ∨
      ∃ before, PassedOver before ∧ (ts = before ∨ ts = before ++ [configOption]) := by
  induction ts using withVerb.induct with
  | case1 => exact .inr ⟨[], .nil, .inl rfl⟩
  | case2 => exact .inr ⟨[], .nil, .inr rfl⟩
  | case3 value rest ih =>
    rcases ih with ⟨before, t, after, rfl, hpassed, hitem⟩ | ⟨before, hpassed, hrest⟩
    · exact .inl ⟨_, t, after, rfl, hpassed.valued value, hitem⟩
    · refine .inr ⟨_, hpassed.valued value, hrest.imp ?_ ?_⟩ <;> rintro rfl <;> rfl
  | case4 t rest hne hdash ih =>
    rcases ih with ⟨before, u, after, rfl, hpassed, hitem⟩ | ⟨before, hpassed, hrest⟩
    · exact .inl ⟨_, u, after, rfl, hpassed.option hne hdash, hitem⟩
    · refine .inr ⟨_, hpassed.option hne hdash, hrest.imp ?_ ?_⟩ <;> rintro rfl <;> rfl
  | case5 t rest _ hdash => exact .inl ⟨[], t, rest, rfl, .nil, by simpa using hdash⟩
  | case6 t rest _ hdash => exact .inl ⟨[], t, rest, rfl, .nil, by simpa using hdash⟩

namespace FirstItem

variable {ts before after : List Text} {t : Text}

theorem withVerb_of_verb (h : FirstItem ts before t after) (hverb : ∃ v : Verb, v.name = t) :
    withVerb ts = ts := by
  rw [h.split, h.passed.withVerb_append, withVerb_verb h.item hverb]

theorem withVerb_of_not_verb (h : FirstItem ts before t after)
    (hverb : ¬∃ v : Verb, v.name = t) : withVerb ts = before ++ Verb.run.name :: t :: after := by
  rw [h.split, h.passed.withVerb_append, withVerb_item h.item hverb]

/-- With `run` in front of it, `run` is the first argument that is left. -/
theorem insert_run (h : FirstItem ts before t after) :
    FirstItem (before ++ Verb.run.name :: t :: after) before Verb.run.name (t :: after) :=
  ⟨rfl, h.passed, Verb.hasDash_name _⟩

end FirstItem

theorem withVerb_of_no_item {ts : List Text} (h : ∀ before t after, ¬FirstItem ts before t after) :
    withVerb ts = ts := by
  rcases firstItem_or_passedOver ts with ⟨before, t, after, hfirst⟩ | ⟨before, hpassed, rfl | rfl⟩
  · exact absurd hfirst (h before t after)
  · simpa [withVerb] using hpassed.withVerb_append []
  · rw [hpassed.withVerb_append, withVerb_waiting]

/-- With a verb in them arguments are left as they are. -/
theorem withVerb_withVerb (ts : List Text) : withVerb (withVerb ts) = withVerb ts := by
  by_cases hfirst : ∃ before t after, FirstItem ts before t after
  · obtain ⟨before, t, after, hfirst⟩ := hfirst
    by_cases hverb : ∃ v : Verb, v.name = t
    · rw [hfirst.withVerb_of_verb hverb, hfirst.withVerb_of_verb hverb]
    · rw [hfirst.withVerb_of_not_verb hverb, hfirst.insert_run.withVerb_of_verb ⟨.run, rfl⟩]
  · have hsame : withVerb ts = ts :=
      withVerb_of_no_item fun before t after h => hfirst ⟨before, t, after, h⟩
    rw [hsame, hsame]

/-- Arguments with a verb in them are the arguments themselves or have one `run` more. They have
it exactly when there is a first argument that is not passed over and it is no verb; the `run`
stands right in front of this argument, and never between a `--config` and its value. Put in a
second time, the verb changes nothing. -/
theorem withVerb_inserts (ts : List Text) :
    (withVerb ts = ts ∨
      ∃ before after, ts = before ++ after ∧ withVerb ts = before ++ Verb.run.name :: after) ∧
    (withVerb ts ≠ ts ↔
      ∃ before t after, FirstItem ts before t after ∧ ¬∃ v : Verb, v.name = t) ∧
    (∀ before t after, FirstItem ts before t after → withVerb ts ≠ ts →
      withVerb ts = before ++ Verb.run.name :: t :: after) ∧
    (∀ before value after, PassedOver before → ts = before ++ configOption :: value :: after →
      withVerb ts = before ++ configOption :: value :: withVerb after) ∧
    withVerb (withVerb ts) = withVerb ts := by
  have hplace : ∀ before t after, FirstItem ts before t after → withVerb ts ≠ ts →
      withVerb ts = before ++ Verb.run.name :: t :: after := fun before t after hfirst hne =>
    hfirst.withVerb_of_not_verb fun hverb => hne (hfirst.withVerb_of_verb hverb)
  have hexists : withVerb ts ≠ ts → ∃ before t after, FirstItem ts before t after := fun hne =>
    Classical.byContradiction fun hnone =>
      hne (withVerb_of_no_item fun before t after h => hnone ⟨before, t, after, h⟩)
  refine ⟨?_, ⟨fun hne => ?_, ?_⟩, hplace, ?_, withVerb_withVerb ts⟩
  · by_cases hsame : withVerb ts = ts
    · exact .inl hsame
    · obtain ⟨before, t, after, hfirst⟩ := hexists hsame
      exact .inr ⟨before, t :: after, hfirst.split, hplace before t after hfirst hsame⟩
  · obtain ⟨before, t, after, hfirst⟩ := hexists hne
    exact ⟨before, t, after, hfirst, fun hverb => hne (hfirst.withVerb_of_verb hverb)⟩
  · rintro ⟨before, t, after, hfirst, hverb⟩ hsame
    have hlength := congrArg List.length (hfirst.withVerb_of_not_verb hverb)
    rw [hsame, hfirst.split] at hlength
    simp at hlength
  · rintro before value after hpassed rfl
    rw [hpassed.withVerb_append, withVerb_valued]

/-- The first `--config` has a value that is spelled like it, so the name behind the value is the
first argument that is left, although a verb stands behind it. -/
theorem withVerb_inserts_behind_config :
    FirstItem ["--config", "--config", "-v", "prog.sbl", "check"] ["--config", "--config", "-v"]
      "prog.sbl" ["check"] ∧
    (¬∃ v : Verb, v.name = "prog.sbl") ∧
    withVerb ["--config", "--config", "-v", "prog.sbl", "check"] =
      (["--config", "--config", "-v", "run", "prog.sbl", "check"] : List Text) := by
  have hfirst : FirstItem ["--config", "--config", "-v", "prog.sbl", "check"]
      ["--config", "--config", "-v"] "prog.sbl" ["check"] :=
    ⟨rfl, .valued _ (.option (by decide) (by decide) .nil), by decide⟩
  have hverb : ¬∃ v : Verb, v.name = "prog.sbl" := by
    rw [← Verb.ofName?_isSome]
    decide
  obtain ⟨-, hinserts, hplace, -⟩ :=
    withVerb_inserts ["--config", "--config", "-v", "prog.sbl", "check"]
  exact ⟨hfirst, hverb, hplace _ _ _ hfirst (hinserts.2 ⟨_, _, _, hfirst, hverb⟩)⟩

end ScriptLang
