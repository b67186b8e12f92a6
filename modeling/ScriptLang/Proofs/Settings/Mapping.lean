import Mathlib.Logic.Function.Basic
import ScriptLang.Settings.Basic

/-!
# Settings from a mapping

A pair of a mapping gives a setting if its key is the setting's name and its value of the
setting's kind (`Setting.Given`). A mapping is read from its first pair on, and the first one
that gives no setting is refused (`Settings.replace_eq_error_iff`). If each of them gives one, the
settings are those by default with the given ones in their places (`Settings.Replaced`), and only
then are the number of calls and the level of notes looked at.

So the order of the pairs decides which of several errors is reported, but neither whether the
mapping is accepted nor with which settings (`Settings.ofDocument_mapping`).
-/

namespace ScriptLang

/-! ### Kinds -/

namespace Document

theorem kindName_eq_int {d : Document} : d.kindName = "int" ↔ ∃ n, d = .integer n := by
  constructor
  · cases d with
    | integer n => exact fun _ => ⟨n, rfl⟩
    | _ => exact fun h => absurd h (by rw [kindName]; decide)
  · rintro ⟨n, rfl⟩
    rfl

theorem kindName_eq_str {d : Document} : d.kindName = "str" ↔ ∃ t, d = .text t := by
  constructor
  · cases d with
    | text t => exact fun _ => ⟨t, rfl⟩
    | _ => exact fun h => absurd h (by rw [kindName]; decide)
  · rintro ⟨t, rfl⟩
    rfl

theorem kindName_eq_bool {d : Document} : d.kindName = "bool" ↔ ∃ b, d = .boolean b := by
  constructor
  · cases d with
    | boolean b => exact fun _ => ⟨b, rfl⟩
    | _ => exact fun h => absurd h (by rw [kindName]; decide)
  · rintro ⟨b, rfl⟩
    rfl

end Document

/-! ### Pairs -/

namespace Setting

/-- A pair of a mapping gives a setting: the key is its name and the value of its kind. -/
structure Given (setting : Setting) (pair : Document × Document) : Prop where
  key : pair.1 = .text setting.name
  kind : pair.2.kindName = setting.kindName

theorem name_injective {s s' : Setting} (h : s.name = s'.name) : s = s' := by
  have hsome := ofName?_name s
  rw [h, ofName?_name] at hsome
  exact (Option.some.inj hsome).symm

theorem ofKey?_eq_some_iff {key : Document} {s : Setting} :
    ofKey? key = some s ↔ key = .text s.name := by
  constructor
  · intro h
    cases key with
    | text t =>
      have hfind : all.find? (fun s => s.name = t) = some s := h
      have hname := List.find?_some hfind
      rw [of_decide_eq_true hname]
    | _ => cases h
  · rintro rfl
    exact ofName?_name s

theorem ofKey?_eq_none_iff {key : Document} :
    ofKey? key = none ↔ ∀ s : Setting, key ≠ .text s.name := by
  simp only [Option.eq_none_iff_forall_not_mem, Option.mem_def, ofKey?_eq_some_iff, ne_eq]

end Setting

namespace Settings

variable {s s' : Settings} {setting : Setting} {d : Document} {source : Text}
  {pair : Document × Document} {pairs : List (Document × Document)} {error : SettingsError}

/-- The value of a setting, as a document. -/
def value (s : Settings) : Setting → Document
  | .maxCallDepth => .integer s.maxCallDepth
  | .prompt => .text s.prompt
  | .continuationPrompt => .text s.continuationPrompt
  | .color => .boolean s.color
  | .logLevel => .text s.logLevel

theorem ext_value (h : ∀ setting, s.value setting = s'.value setting) : s = s' := by
  have hcalls := h .maxCallDepth
  have hprompt := h .prompt
  have hcontinuation := h .continuationPrompt
  have hcolor := h .color
  have hlevel := h .logLevel
  cases s
  cases s'
  simp_all [value]

/-- A value of its kind takes the place of a setting, and the other settings stay. -/
theorem set?_of_kind (s : Settings) (h : d.kindName = setting.kindName) :
    ∃ s', s.set? setting d = some s' ∧ s'.value = Function.update s.value setting d := by
  cases setting with
  | maxCallDepth =>
    obtain ⟨n, rfl⟩ := Document.kindName_eq_int.1 h
    exact ⟨_, rfl, funext fun other => by cases other <;> rfl⟩
  | prompt =>
    obtain ⟨t, rfl⟩ := Document.kindName_eq_str.1 h
    exact ⟨_, rfl, funext fun other => by cases other <;> rfl⟩
  | continuationPrompt =>
    obtain ⟨t, rfl⟩ := Document.kindName_eq_str.1 h
    exact ⟨_, rfl, funext fun other => by cases other <;> rfl⟩
  | color =>
    obtain ⟨b, rfl⟩ := Document.kindName_eq_bool.1 h
    exact ⟨_, rfl, funext fun other => by cases other <;> rfl⟩
  | logLevel =>
    obtain ⟨t, rfl⟩ := Document.kindName_eq_str.1 h
    exact ⟨_, rfl, funext fun other => by cases other <;> rfl⟩

theorem set?_of_other_kind (s : Settings) (h : d.kindName ≠ setting.kindName) :
    s.set? setting d = none := by
  cases hset : s.set? setting d with
  | none => rfl
  | some s' =>
    refine absurd ?_ h
    unfold set? at hset
    split at hset
    case h_6 => cases hset
    all_goals rfl

/-! ### The first pair that gives no setting -/

/-- Why a pair gives no setting: its key is the name of none, or its value is of another kind. -/
inductive Misfit (source : Text) : Document × Document → SettingsError → Prop
  | unknown {key value : Document} (h : ∀ setting : Setting, key ≠ .text setting.name) :
      Misfit source (key, value) (.unknownSetting source key.shown)
  | kind {setting : Setting} {value : Document} (h : value.kindName ≠ setting.kindName) :
      Misfit source (.text setting.name, value) (.wrongKind source setting value.kindName)

/-- The first pair that gives no setting. -/
def FirstMisfit (source : Text) (pairs : List (Document × Document)) (error : SettingsError) :
    Prop :=
  ∃ before pair after, pairs = before ++ pair :: after ∧
    (∀ p ∈ before, ∃ setting : Setting, setting.Given p) ∧ Misfit source pair error

theorem given_or_misfit (source : Text) (pair : Document × Document) :
    (∃ setting : Setting, setting.Given pair) ∨ ∃ error, Misfit source pair error := by
  obtain ⟨key, d⟩ := pair
  by_cases hkey : ∃ setting : Setting, key = .text setting.name
  · obtain ⟨setting, rfl⟩ := hkey
    by_cases hkind : d.kindName = setting.kindName
    · exact .inl ⟨setting, rfl, hkind⟩
    · exact .inr ⟨_, .kind hkind⟩
  · exact .inr ⟨_, .unknown fun setting h => hkey ⟨setting, h⟩⟩

theorem Misfit.not_given (h : Misfit source pair error) : ¬setting.Given pair := by
  rintro ⟨hkey, hkind⟩
  cases h with
  | unknown hunknown => exact hunknown setting hkey
  | kind hother =>
    obtain rfl := Setting.name_injective (Document.text.inj hkey)
    exact hother hkind

theorem replace_of_given (source : Text) (s : Settings) (h : setting.Given pair) :
    ∃ s', s'.value = Function.update s.value setting pair.2 ∧
      replace source s (pair :: pairs) = replace source s' pairs := by
  obtain ⟨key, d⟩ := pair
  obtain ⟨s', hset, hvalue⟩ := set?_of_kind s h.kind
  refine ⟨s', hvalue, ?_⟩
  rw [replace, Setting.ofKey?_eq_some_iff.2 h.key]
  dsimp only
  rw [hset]

theorem replace_of_misfit (s : Settings) (h : Misfit source pair error) :
    replace source s (pair :: pairs) = .error error := by
  cases h with
  | unknown hunknown => rw [replace, Setting.ofKey?_eq_none_iff.2 hunknown]
  | @kind setting value hother =>
    rw [replace, Setting.ofKey?_eq_some_iff.2 rfl]
    dsimp only
    rw [set?_of_other_kind s hother]

theorem replace_eq_error_iff (s : Settings) :
    replace source s pairs = .error error ↔ FirstMisfit source pairs error := by
  induction pairs generalizing s with
  | nil =>
    refine iff_of_false nofun ?_
    rintro ⟨before, pair, after, h, -⟩
    cases before <;> cases h
  | cons pair rest ih =>
    constructor
    · intro h
      rcases given_or_misfit source pair with ⟨setting, hgiven⟩ | ⟨error', hmisfit⟩
      · obtain ⟨s', -, hreplace⟩ := replace_of_given source s hgiven
        obtain ⟨before, bad, after, rfl, hbefore, hbad⟩ := (ih s').1 (hreplace ▸ h)
        exact ⟨pair :: before, bad, after, rfl,
          List.forall_mem_cons.2 ⟨⟨setting, hgiven⟩, hbefore⟩, hbad⟩
      · rw [replace_of_misfit s hmisfit] at h
        cases h
        exact ⟨[], pair, rest, rfl, nofun, hmisfit⟩
    · rintro ⟨before, bad, after, h, hbefore, hbad⟩
      cases before with
      | nil =>
        cases h
        exact replace_of_misfit s hbad
      | cons b before =>
        cases h
        obtain ⟨⟨setting, hgiven⟩, hbefore⟩ := List.forall_mem_cons.1 hbefore
        obtain ⟨s', -, hreplace⟩ := replace_of_given source s hgiven
        rw [hreplace]
        exact (ih s').2 ⟨before, bad, after, rfl, hbefore, hbad⟩

/-! ### The settings that are given -/

/-- The settings given by pairs have their values in `s'`, and the others those of `s`. -/
structure Replaced (s : Settings) (pairs : List (Document × Document)) (s' : Settings) : Prop where
  given : ∀ setting d, (Document.text (Setting.name setting), d) ∈ pairs → s'.value setting = d
  kept : ∀ setting, (∀ d, (Document.text (Setting.name setting), d) ∉ pairs) →
    s'.value setting = s.value setting

theorem Replaced.unique {s'' : Settings} (h : Replaced s pairs s') (h' : Replaced s pairs s'') :
    s' = s'' := by
  refine ext_value fun setting => ?_
  by_cases hgiven : ∃ d, (Document.text setting.name, d) ∈ pairs
  · obtain ⟨d, hd⟩ := hgiven
    rw [h.given setting d hd, h'.given setting d hd]
  · have hnone := not_exists.1 hgiven
    rw [h.kept setting hnone, h'.kept setting hnone]

theorem Replaced.perm {pairs' : List (Document × Document)} (h : Replaced s pairs s')
    (hperm : pairs.Perm pairs') : Replaced s pairs' s' where
  given setting d hd := h.given setting d (hperm.mem_iff.2 hd)
  kept setting hnone := h.kept setting fun d hd => hnone d (hperm.mem_iff.1 hd)

/-- Pairs that all give a setting, under distinct keys, replace those settings. -/
theorem replace_of_all_given (source : Text) (s : Settings) (hkeys : (pairs.map Prod.fst).Nodup)
    (hall : ∀ p ∈ pairs, ∃ setting : Setting, setting.Given p) :
    ∃ s', replace source s pairs = .ok s' ∧ Replaced s pairs s' := by
  induction pairs generalizing s with
  | nil => exact ⟨s, rfl, nofun, fun _ _ => rfl⟩
  | cons pair rest ih =>
    obtain ⟨hkey, hkeys⟩ := List.nodup_cons.1 hkeys
    obtain ⟨⟨setting, hgiven⟩, hall⟩ := List.forall_mem_cons.1 hall
    obtain ⟨s₁, hvalue, hreplace⟩ := replace_of_given source s hgiven
    obtain ⟨s', hrest, hreplaced⟩ := ih s₁ hkeys hall
    -- no later pair has this key, so the value stays
    have hlater : ∀ d, (Document.text setting.name, d) ∉ rest := fun d hd =>
      hkey (hgiven.key ▸ List.mem_map_of_mem hd)
    refine ⟨s', by rw [hreplace, hrest], ⟨fun other d hd => ?_, fun other hnone => ?_⟩⟩
    · rcases List.mem_cons.1 hd with rfl | hd
      · obtain rfl := Setting.name_injective (Document.text.inj hgiven.key)
        rw [hreplaced.kept _ hlater, hvalue, Function.update_self]
      · exact hreplaced.given other d hd
    · have hne : other ≠ setting := by
        rintro rfl
        exact hnone pair.2 (List.mem_cons.2 (.inl (Prod.ext hgiven.key.symm rfl)))
      rw [hreplaced.kept other fun d hd => hnone d (List.mem_cons_of_mem _ hd), hvalue,
        Function.update_of_ne hne]

theorem all_given_or_misfit (source : Text) (pairs : List (Document × Document)) :
    (∀ p ∈ pairs, ∃ setting : Setting, setting.Given p) ∨
      ∃ error, FirstMisfit source pairs error := by
  induction pairs with
  | nil => exact .inl nofun
  | cons pair rest ih =>
    rcases given_or_misfit source pair with hgiven | ⟨error, hmisfit⟩
    · rcases ih with hall | ⟨error, before, bad, after, rfl, hbefore, hbad⟩
      · exact .inl (List.forall_mem_cons.2 ⟨hgiven, hall⟩)
      · exact .inr ⟨error, pair :: before, bad, after, rfl,
          List.forall_mem_cons.2 ⟨hgiven, hbefore⟩, hbad⟩
    · exact .inr ⟨error, [], pair, rest, rfl, nofun, hmisfit⟩

/-- What differs from the settings that are replaced is given. -/
theorem Replaced.mem_of_ne (h : Replaced s pairs s') (hne : s'.value setting ≠ s.value setting) :
    (.text setting.name, s'.value setting) ∈ pairs := by
  by_cases hgiven : ∃ d, (Document.text setting.name, d) ∈ pairs
  · obtain ⟨d, hd⟩ := hgiven
    rwa [h.given setting d hd]
  · exact absurd (h.kept setting (not_exists.1 hgiven)) hne

/-- What holds of a setting as it is holds after pairs if it holds of the value they give. -/
theorem Replaced.iff_forall_given {P : Document → Prop} (h : Replaced s pairs s')
    (setting : Setting) (hP : P (s.value setting)) :
    P (s'.value setting) ↔ ∀ d, (.text setting.name, d) ∈ pairs → P d := by
  constructor
  · intro hvalue d hd
    rwa [← h.given setting d hd]
  · intro hall
    by_cases hne : s'.value setting = s.value setting
    · rwa [hne]
    · exact hall _ (h.mem_of_ne hne)

/-! ### Ranges -/

/-- The number of calls that pairs give, if they give one, is positive. -/
def CallsInRange (pairs : List (Document × Document)) : Prop :=
  ∀ n, (.text Setting.maxCallDepth.name, .integer n) ∈ pairs → 1 ≤ n

/-- The level of notes that pairs give, if they give one, is a level in capital or small
letters. -/
def LevelInRange (pairs : List (Document × Document)) : Prop :=
  ∀ t, (.text Setting.logLevel.name, .text t) ∈ pairs → capitalize t ∈ logLevels

/-- Why pairs are refused: the first of them that gives no setting; if there is none, a number of
calls out of range; and if the number is in range, a level that there is not. -/
inductive Refused (source : Text) (pairs : List (Document × Document)) : SettingsError → Prop
  | misfit {error : SettingsError} (h : FirstMisfit source pairs error) :
      Refused source pairs error
  | calls {n : Int} (hall : ∀ p ∈ pairs, ∃ setting : Setting, setting.Given p)
      (hmem : (.text Setting.maxCallDepth.name, .integer n) ∈ pairs) (h : n < 1) :
      Refused source pairs (.callDepthTooSmall n)
  | level {t : Text} (hall : ∀ p ∈ pairs, ∃ setting : Setting, setting.Given p)
      (hcalls : CallsInRange pairs)
      (hmem : (.text Setting.logLevel.name, .text t) ∈ pairs) (h : capitalize t ∉ logLevels) :
      Refused source pairs (.unknownLevel t)

theorem FirstMisfit.not_all_given (h : FirstMisfit source pairs error) :
    ¬∀ p ∈ pairs, ∃ setting : Setting, setting.Given p := by
  obtain ⟨before, pair, after, rfl, -, hmisfit⟩ := h
  intro hall
  obtain ⟨setting, hgiven⟩ := hall pair (by simp)
  exact hmisfit.not_given hgiven

theorem FirstMisfit.unique {error' : SettingsError} (h : FirstMisfit source pairs error)
    (h' : FirstMisfit source pairs error') : error = error' := by
  have hread := (replace_eq_error_iff {}).2 h
  rw [(replace_eq_error_iff {}).2 h'] at hread
  exact (Except.error.inj hread).symm

theorem Replaced.calls_iff (h : Replaced {} pairs s') :
    1 ≤ s'.maxCallDepth ↔ CallsInRange pairs := by
  have hiff := h.iff_forall_given (P := fun d => ∀ n, d = .integer n → 1 ≤ n) .maxCallDepth
    (by rintro n ⟨⟩; decide)
  constructor
  · intro hle n hn
    exact hiff.1 (by rintro m ⟨⟩; exact hle) _ hn n rfl
  · intro hall
    exact hiff.2 (fun d hd n hdn => hall n (hdn ▸ hd)) _ rfl

theorem Replaced.level_iff (h : Replaced {} pairs s') :
    capitalize s'.logLevel ∈ logLevels ↔ LevelInRange pairs := by
  have hiff := h.iff_forall_given (P := fun d => ∀ t, d = .text t → capitalize t ∈ logLevels)
    .logLevel (by rintro t ⟨⟩; decide)
  constructor
  · intro hmem t ht
    exact hiff.1 (by rintro u ⟨⟩; exact hmem) _ ht t rfl
  · intro hall
    exact hiff.2 (fun d hd t hdt => hall t (hdt ▸ hd)) _ rfl

theorem validate_eq_ok_iff :
    validate s = .ok s' ↔ s' = s ∧ 1 ≤ s.maxCallDepth ∧ capitalize s.logLevel ∈ logLevels := by
  unfold validate
  split
  · next hlt => exact iff_of_false nofun fun h => by omega
  · next hle =>
    split
    · next hlevel =>
      rw [Except.ok.injEq, eq_comm]
      exact (and_iff_left ⟨by omega, hlevel⟩).symm
    · next hlevel => exact iff_of_false nofun fun h => hlevel h.2.2

theorem validate_eq_error_iff :
    validate s = .error error ↔
      s.maxCallDepth < 1 ∧ error = .callDepthTooSmall s.maxCallDepth ∨
      1 ≤ s.maxCallDepth ∧ capitalize s.logLevel ∉ logLevels ∧
        error = .unknownLevel s.logLevel := by
  unfold validate
  split
  · next hlt =>
    rw [Except.error.injEq, eq_comm]
    exact ⟨fun h => .inl ⟨hlt, h⟩, fun h => h.elim And.right fun h => by omega⟩
  · next hle =>
    split
    · next hlevel =>
      exact iff_of_false nofun fun h => h.elim (fun h => hle h.1) fun h => h.2.1 hlevel
    · next hlevel =>
      rw [Except.error.injEq, eq_comm]
      exact ⟨fun h => .inr ⟨by omega, hlevel, h⟩, fun h => h.elim (by omega) fun h => h.2.2⟩

/-- Pairs that all give a setting are accepted with these settings replaced, or refused because
of a range. -/
theorem ofEntries_of_all_given (source : Text) (hkeys : (pairs.map Prod.fst).Nodup)
    (hall : ∀ p ∈ pairs, ∃ setting : Setting, setting.Given p) :
    ∃ s, Replaced {} pairs s ∧ ofEntries source pairs = validate s := by
  obtain ⟨s, hreplace, hreplaced⟩ := replace_of_all_given source {} hkeys hall
  refine ⟨s, hreplaced, ?_⟩
  rw [ofEntries, hreplace]
  rfl

theorem ofEntries_of_misfit (h : FirstMisfit source pairs error) :
    ofEntries source pairs = .error error := by
  rw [ofEntries, (replace_eq_error_iff {}).2 h]
  rfl

theorem ofEntries_eq_ok_iff (hkeys : (pairs.map Prod.fst).Nodup) :
    ofEntries source pairs = .ok s ↔
      (∀ p ∈ pairs, ∃ setting : Setting, setting.Given p) ∧ CallsInRange pairs ∧
        LevelInRange pairs ∧ Replaced {} pairs s := by
  rcases all_given_or_misfit source pairs with hall | ⟨error, hmisfit⟩
  · obtain ⟨s', hreplaced, hread⟩ := ofEntries_of_all_given source hkeys hall
    rw [hread, validate_eq_ok_iff, hreplaced.calls_iff, hreplaced.level_iff]
    constructor
    · rintro ⟨rfl, hcalls, hlevel⟩
      exact ⟨hall, hcalls, hlevel, hreplaced⟩
    · rintro ⟨-, hcalls, hlevel, hs⟩
      exact ⟨hs.unique hreplaced, hcalls, hlevel⟩
  · rw [ofEntries_of_misfit hmisfit]
    exact iff_of_false nofun fun h => hmisfit.not_all_given h.1

/-- Where every pair gives a setting, only a range can be the reason for a refusal. -/
theorem Replaced.refused_iff (h : Replaced {} pairs s)
    (hall : ∀ p ∈ pairs, ∃ setting : Setting, setting.Given p) :
    validate s = .error error ↔ Refused source pairs error := by
  rw [validate_eq_error_iff]
  constructor
  · rintro (⟨hlt, rfl⟩ | ⟨hle, hlevel, rfl⟩)
    · -- the number by default is in range, so a pair gives this one
      have hne : s.value .maxCallDepth ≠ value {} .maxCallDepth := by
        intro heq
        rw [Document.integer.inj heq] at hlt
        exact absurd hlt (by decide)
      exact .calls hall (h.mem_of_ne hne) hlt
    · have hne : s.value .logLevel ≠ value {} .logLevel := by
        intro heq
        rw [Document.text.inj heq] at hlevel
        exact absurd hlevel (by decide)
      exact .level hall (h.calls_iff.1 hle) (h.mem_of_ne hne) hlevel
  · intro hrefused
    cases hrefused with
    | misfit hmisfit => exact absurd hall hmisfit.not_all_given
    | @calls n _ hmem hlt =>
      have hcalls : s.maxCallDepth = n := Document.integer.inj (h.given .maxCallDepth _ hmem)
      exact .inl ⟨hcalls ▸ hlt, hcalls ▸ rfl⟩
    | @level t _ hcalls hmem hlevel =>
      have htext : s.logLevel = t := Document.text.inj (h.given .logLevel _ hmem)
      exact .inr ⟨h.calls_iff.2 hcalls, htext ▸ hlevel, htext ▸ rfl⟩

theorem ofEntries_eq_error_iff (hkeys : (pairs.map Prod.fst).Nodup) :
    ofEntries source pairs = .error error ↔ Refused source pairs error := by
  rcases all_given_or_misfit source pairs with hall | ⟨error', hmisfit⟩
  · obtain ⟨s, hreplaced, hread⟩ := ofEntries_of_all_given source hkeys hall
    rw [hread, hreplaced.refused_iff hall]
  · rw [ofEntries_of_misfit hmisfit]
    constructor
    · rintro ⟨⟩
      exact .misfit hmisfit
    · intro h
      cases h with
      | misfit h => rw [hmisfit.unique h]
      | calls hall => exact absurd hall hmisfit.not_all_given
      | level hall => exact absurd hall hmisfit.not_all_given

/-- A mapping with distinct keys is accepted exactly when each of its pairs gives a setting and the
number of calls and the level of notes are in range. The settings are those by default with the
given ones replaced. Otherwise it is refused for the first pair that gives no setting; if there is
none, for its number of calls; and if that is in range, for its level. The order of the pairs
has no part in whether a mapping is accepted and with which settings. -/
theorem ofDocument_mapping (source : Text) (hkeys : (pairs.map Prod.fst).Nodup) :
    ((∃ s, ofDocument source (.mapping pairs) = .ok s) ↔
      (∀ p ∈ pairs, ∃ setting : Setting, setting.Given p) ∧ CallsInRange pairs ∧
        LevelInRange pairs) ∧
    (∀ s, ofDocument source (.mapping pairs) = .ok s → Replaced {} pairs s) ∧
    (∀ error, ofDocument source (.mapping pairs) = .error error ↔ Refused source pairs error) ∧
    ∀ pairs', pairs.Perm pairs' → ∀ s,
      ofDocument source (.mapping pairs') = .ok s ↔ ofDocument source (.mapping pairs) = .ok s := by
  have hok : ∀ s, ofDocument source (.mapping pairs) = .ok s ↔ _ :=
    fun s => ofEntries_eq_ok_iff hkeys
  refine ⟨⟨?_, ?_⟩, fun s h => ((hok s).1 h).2.2.2, fun error => ofEntries_eq_error_iff hkeys,
    fun pairs' hperm s => ?_⟩
  · rintro ⟨s, h⟩
    obtain ⟨hall, hcalls, hlevel, -⟩ := (hok s).1 h
    exact ⟨hall, hcalls, hlevel⟩
  · rintro ⟨hall, hcalls, hlevel⟩
    obtain ⟨s, hreplaced, -⟩ := ofEntries_of_all_given source hkeys hall
    exact ⟨s, (hok s).2 ⟨hall, hcalls, hlevel, hreplaced⟩⟩
  · have hkeys' : (pairs'.map Prod.fst).Nodup := (hperm.map Prod.fst).nodup_iff.1 hkeys
    have hok' : ofDocument source (.mapping pairs') = .ok s ↔ _ := ofEntries_eq_ok_iff hkeys'
    rw [hok, hok', CallsInRange, CallsInRange, LevelInRange, LevelInRange]
    simp only [hperm.mem_iff]
    exact and_congr_right fun _ => and_congr_right fun _ => and_congr_right fun _ =>
      ⟨fun h => h.perm hperm.symm, fun h => h.perm hperm⟩

/-- A mapping of two settings in either order, and one whose first pair gives a truth value for a
number. -/
theorem ofDocument_mapping_reordered :
    let color : Document × Document := (.text "color", .boolean false)
    let level : Document × Document := (.text "log_level", .text "Debug")
    ofDocument "here" (.mapping [color, level]) = .ok { color := false, logLevel := "Debug" } ∧
      ofDocument "here" (.mapping [level, color]) = .ok { color := false, logLevel := "Debug" } ∧
      ofDocument "here"
          (.mapping [(.text "max_call_depth", .boolean true), (.text "colour", .null)]) =
        .error (.wrongKind "here" .maxCallDepth "bool") := by
  intro color level
  have hkeys : ([level, color].map Prod.fst).Nodup := by
    simp [level, color]
    decide
  have hkeys' : (([(.text "max_call_depth", .boolean true), (.text "colour", .null)] :
      List (Document × Document)).map Prod.fst).Nodup := by
    simp
    decide
  obtain ⟨-, -, -, horder⟩ := ofDocument_mapping "here" hkeys
  obtain ⟨-, -, herror, -⟩ := ofDocument_mapping "here" hkeys'
  have hread : ofDocument "here" (.mapping [level, color]) =
      .ok { color := false, logLevel := "Debug" } := rfl
  have hkind : Document.kindName (.boolean true) ≠ Setting.maxCallDepth.kindName := by decide
  exact ⟨(horder _ (.swap _ _ _) _).2 hread, hread,
    (herror _).2 (.misfit ⟨[], _, _, rfl, nofun, .kind hkind⟩)⟩

end Settings

end ScriptLang
