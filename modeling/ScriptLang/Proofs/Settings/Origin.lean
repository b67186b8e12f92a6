import ScriptLang.Proofs.Settings.Mapping
import ScriptLang.Settings.Resolve

/-!
# Where settings come from

The settings of a session come from one place: the file that is asked for, else the one that the
environment names, else the usual one, else nowhere (`Settings.Origin`). What other paths lead to
has no part in them. What the file's document says decides what they are (`Settings.Yields`), and
the environment may take the colours away from them, but nothing else (`Settings.Tints`).

A document that says nothing leaves all settings as by default. So do a `no`, a zero, an empty
text and an empty list (`Document.Hollow`), while every other document that is no mapping is
refused (`Settings.resolveBy_origin`).
-/

namespace ScriptLang

/-- A document that says something which counts as nothing. -/
inductive Document.Hollow : Document → Prop
  | no : Hollow (.boolean false)
  | zero : Hollow (.integer 0)
  | floatZero {x : Float} (h : (x == 0) = true) : Hollow (.float x)
  | emptyText : Hollow (.text [])
  | emptyList : Hollow (.list [])

/-- A document is void if it is nothing, counts as nothing or is a mapping without pairs. -/
theorem Document.isVoid_iff {d : Document} :
    d.isVoid = true ↔ d = .null ∨ d.Hollow ∨ d = .mapping [] := by
  constructor
  · intro h
    cases d with
    | null => exact .inl rfl
    | boolean b =>
      obtain rfl : b = false := by simpa [isVoid] using h
      exact .inr (.inl .no)
    | integer n =>
      obtain rfl : n = 0 := by simpa [isVoid] using h
      exact .inr (.inl .zero)
    | float x => exact .inr (.inl (.floatZero h))
    | text t =>
      obtain rfl : t = [] := by simpa [isVoid] using h
      exact .inr (.inl .emptyText)
    | list items =>
      obtain rfl : items = [] := by simpa [isVoid] using h
      exact .inr (.inl .emptyList)
    | mapping entries =>
      obtain rfl : entries = [] := by simpa [isVoid] using h
      exact .inr (.inr rfl)
    | date | moment => cases h
  · rintro (rfl | h | rfl)
    · rfl
    · cases h with
      | floatZero h => exact h
      | _ => rfl
    · rfl

namespace Settings

variable {files : Files} {env : Environment} {explicit : Option Text} {origin : Option Path}
  {read : Text → Option Document} {path : Path}

/-! ### The one place -/

/-- The file that settings come from, or `none` if they come from nowhere. -/
inductive Origin (files : Files) (env : Environment) : Option Text → Option Path → Prop
  | asked (t : Text) : Origin files env (some t) (some (.ofText t))
  | named {t : Text} (hvalue : env fileVariable = some t) (hne : t ≠ []) :
      Origin files env none (some (.ofText t))
  | usual {content : Text} (hunset : ∀ t, env fileVariable = some t → t = [])
      (hfile : files.find (.ofText usualFile) = .file content) :
      Origin files env none (some (.ofText usualFile))
  | nowhere (hunset : ∀ t, env fileVariable = some t → t = [])
      (hfile : ∀ content, files.find (.ofText usualFile) ≠ .file content) :
      Origin files env none none

theorem Origin.file?_eq (h : Origin files env explicit origin) :
    file? files env explicit = origin := by
  have hfilter : (∀ t, env fileVariable = some t → t = []) →
      (env fileVariable).filter (!·.isEmpty) = none := by
    intro hunset
    simpa [Option.filter_eq_none_iff] using hunset
  cases h with
  | asked t => rfl
  | named hvalue hne =>
    have hsome : (env fileVariable).filter (!·.isEmpty) = some _ :=
      Option.filter_eq_some_iff.2 ⟨hvalue, by simpa using hne⟩
    unfold file?
    rw [hsome]
  | usual hunset hfile =>
    unfold file?
    rw [hfilter hunset]
    dsimp only
    rw [hfile]
    rfl
  | nowhere hunset hfile =>
    unfold file?
    rw [hfilter hunset]
    dsimp only
    rw [if_neg]
    intro h
    cases hfound : files.find (.ofText usualFile) with
    | file content => exact hfile content hfound
    | _ => rw [hfound] at h; cases h

/-- There is a place that settings come from. -/
theorem exists_origin (files : Files) (env : Environment) (explicit : Option Text) :
    ∃ origin, Origin files env explicit origin := by
  cases explicit with
  | some t => exact ⟨_, .asked t⟩
  | none =>
    by_cases hset : ∃ t, env fileVariable = some t ∧ t ≠ []
    · obtain ⟨t, hvalue, hne⟩ := hset
      exact ⟨_, .named hvalue hne⟩
    · have hunset : ∀ t, env fileVariable = some t → t = [] := fun t ht =>
        by_contra fun hne => hset ⟨t, ht, hne⟩
      by_cases hfile : ∃ content, files.find (.ofText usualFile) = .file content
      · obtain ⟨content, hfile⟩ := hfile
        exact ⟨_, .usual hunset hfile⟩
      · exact ⟨_, .nowhere hunset (not_exists.1 hfile)⟩

/-! ### What the file says -/

/-- The settings that come from a place. -/
inductive Yields (read : Text → Option Document) (files : Files) :
    Option Path → Except SettingsError Settings → Prop
  | nowhere : Yields read files none (.ok {})
  | unreadable {path : Path} {reason : Text} (h : (files.find path).content = .error reason) :
      Yields read files (some path) (.error (.unreadable path.text reason))
  | malformed {path : Path} {t : Text} (h : (files.find path).content = .ok t)
      (hread : read t = none) : Yields read files (some path) (.error (.malformed path.text))
  | nothing {path : Path} {t : Text} (h : (files.find path).content = .ok t)
      (hread : read t = some .null) : Yields read files (some path) (.ok {})
  | hollow {path : Path} {t : Text} {d : Document} (h : (files.find path).content = .ok t)
      (hread : read t = some d) (hd : d.Hollow) : Yields read files (some path) (.ok {})
  | mapping {path : Path} {t : Text} {entries : List (Document × Document)}
      (h : (files.find path).content = .ok t) (hread : read t = some (.mapping entries)) :
      Yields read files (some path) (ofDocument path.text (.mapping entries))
  | other {path : Path} {t : Text} {d : Document} (h : (files.find path).content = .ok t)
      (hread : read t = some d) (hnull : d ≠ .null) (hhollow : ¬d.Hollow)
      (hmapping : ∀ entries, d ≠ .mapping entries) :
      Yields read files (some path) (.error (.notMapping path.text d.kindName))

theorem ofDocument_of_not_mapping {d : Document} (source : Text)
    (h : ∀ entries, d ≠ .mapping entries) :
    ofDocument source d = .error (.notMapping source d.kindName) := by
  cases d with
  | mapping entries => exact absurd rfl (h entries)
  | _ => rfl

theorem ofFound_yields (read : Text → Option Document) (files : Files) (path : Path) :
    Yields read files (some path) (ofFound read path (files.find path)).2 := by
  unfold ofFound
  cases hcontent : (files.find path).content with
  | error reason => exact .unreadable hcontent
  | ok t =>
    dsimp only
    cases hread : read t with
    | none => exact .malformed hcontent hread
    | some d =>
      dsimp only
      unfold ofFileDocument
      by_cases hvoid : d.isVoid = true
      · rw [if_pos hvoid]
        rcases Document.isVoid_iff.1 hvoid with rfl | hhollow | rfl
        · exact .nothing hcontent hread
        · exact .hollow hcontent hread hhollow
        · exact .mapping hcontent hread
      · rw [if_neg hvoid]
        by_cases hmapping : ∃ entries, d = .mapping entries
        · obtain ⟨entries, rfl⟩ := hmapping
          exact .mapping hcontent hread
        · have hmapping := not_exists.1 hmapping
          rw [ofDocument_of_not_mapping _ hmapping]
          exact .other hcontent hread (fun h => hvoid (Document.isVoid_iff.2 (.inl h)))
            (fun h => hvoid (Document.isVoid_iff.2 (.inr (.inl h)))) hmapping

/-! ### Colours -/

/-- The environment takes the colours away from settings if one of its variables for that is not
empty. The other settings stay as they are, and settings that are refused are refused. -/
inductive Tints (env : Environment) :
    Except SettingsError Settings → Except SettingsError Settings → Prop
  | refused {error : SettingsError} : Tints env (.error error) (.error error)
  | colorless {s s' : Settings} {name t : Text} (hname : name ∈ colorlessVariables)
      (hvalue : env name = some t) (hne : t ≠ []) (hcolor : s'.color = false)
      (hothers : ∀ setting, setting ≠ Setting.color → s'.value setting = s.value setting) :
      Tints env (.ok s) (.ok s')
  | same {s : Settings} (h : ∀ name ∈ colorlessVariables, ∀ t, env name = some t → t = []) :
      Tints env (.ok s) (.ok s)

theorem isSet_iff {name : Text} : env.isSet name = true ↔ ∃ t, env name = some t ∧ t ≠ [] := by
  simp [Environment.isSet, Option.any_eq_true]

theorem tints_map_colored (env : Environment) (outcome : Except SettingsError Settings) :
    Tints env outcome (outcome.map (colored env)) := by
  cases outcome with
  | error error => exact .refused
  | ok s =>
    change Tints env (.ok s) (.ok (colored env s))
    unfold colored
    split
    · next hany =>
      obtain ⟨name, hname, hset⟩ := List.any_eq_true.1 hany
      obtain ⟨t, hvalue, hne⟩ := isSet_iff.1 hset
      refine .colorless hname hvalue hne rfl fun setting hsetting => ?_
      cases setting with
      | color => exact absurd rfl hsetting
      | _ => rfl
    · next hnone =>
      refine .same fun name hname t ht => by_contra fun hne => hnone ?_
      exact List.any_eq_true.2 ⟨name, hname, isSet_iff.2 ⟨t, ht, hne⟩⟩

theorem resolveBy_of_origin (h : Origin files env explicit (some path)) :
    resolveBy read files env explicit =
      ((ofFound read path (files.find path)).1,
        (ofFound read path (files.find path)).2.map (colored env)) := by
  rw [resolveBy, h.file?_eq]

theorem resolveBy_of_nowhere (h : Origin files env explicit none) :
    resolveBy read files env explicit =
      ([], (Except.ok {} : Except SettingsError Settings).map (colored env)) := by
  rw [resolveBy, h.file?_eq]

/-- Settings come from exactly one place, and what is anywhere else has no part in them. They are
what the document there says, without the colours if the environment takes these away. -/
theorem resolveBy_origin (read : Text → Option Document) (files : Files) (env : Environment)
    (explicit : Option Text) :
    ∃ origin said, (∀ o, Origin files env explicit o ↔ o = origin) ∧
      (∀ files', Origin files' env explicit origin →
        (∀ path, origin = some path → files'.find path = files.find path) →
        resolveBy read files' env explicit = resolveBy read files env explicit) ∧
      Yields read files origin said ∧ Tints env said (resolveBy read files env explicit).2 := by
  obtain ⟨origin, horigin⟩ := exists_origin files env explicit
  have hunique : ∀ o, Origin files env explicit o ↔ o = origin := fun o =>
    ⟨fun h => h.file?_eq.symm.trans horigin.file?_eq, fun h => h ▸ horigin⟩
  cases origin with
  | none =>
    refine ⟨none, .ok {}, hunique, fun files' h _ => ?_, .nowhere, ?_⟩
    · rw [resolveBy_of_nowhere h, resolveBy_of_nowhere horigin]
    · rw [resolveBy_of_nowhere horigin]
      exact tints_map_colored env _
  | some path =>
    refine ⟨some path, _, hunique, fun files' h hfound => ?_, ofFound_yields read files path, ?_⟩
    · rw [resolveBy_of_origin h, resolveBy_of_origin horigin, hfound path rfl]
    · rw [resolveBy_of_origin horigin]
      exact tints_map_colored env _

/-- The environment names a file and takes the colours away; the usual file is not looked at. -/
theorem resolveBy_origin_named :
    let read : Text → Option Document := fun _ =>
      some (.mapping [(.text "max_call_depth", .integer 7)])
    let env : Environment := .ofList [(fileVariable, "a.yaml"), ("NO_COLOR", "1")]
    let files : Files := .ofList [(.ofText "a.yaml", "max_call_depth: 7")]
    let files' : Files :=
      .ofList [(.ofText "a.yaml", "max_call_depth: 7"), (.ofText "sable.yaml", "[")]
    (∃ s, (resolveBy read files env none).2 = .ok s ∧ s.color = false ∧ s.maxCallDepth = 7) ∧
      resolveBy read files' env none = resolveBy read files env none := by
  intro read env files files'
  have hnamed : ∀ found, Origin found env none (some (.ofText "a.yaml")) :=
    fun _ => .named rfl (by decide)
  obtain ⟨origin, said, hunique, hother, hyields, htints⟩ := resolveBy_origin read files env none
  obtain rfl := (hunique _).1 (hnamed files)
  refine ⟨?_, hother files' (hnamed files') (by rintro path ⟨⟩; rfl)⟩
  have hsaid : said = .ok { maxCallDepth := 7 } := by
    cases hyields with
    | mapping h hread => cases hread; rfl
    | unreadable h => cases h
    | malformed h hread => cases hread
    | nothing h hread => cases hread
    | hollow h hread hd => cases hread; cases hd
    | other h hread _ _ hmapping => cases hread; exact absurd rfl (hmapping _)
  rw [hsaid] at htints
  generalize (resolveBy read files env none).2 = result at htints
  cases htints with
  | @colorless _ s' _ _ _ _ _ hcolor hothers =>
    exact ⟨s', rfl, hcolor, Document.integer.inj (hothers .maxCallDepth nofun)⟩
  | same h => exact absurd (h "NO_COLOR" (by decide) "1" rfl) (by decide)

/-- A file that holds an empty list is not refused, though its document is no mapping. -/
theorem not_resolve_refused_list :
    ∃ d, Document.read? "[]" = some d ∧ d ≠ .null ∧ (∀ entries, d ≠ .mapping entries) ∧
      (resolve (.ofList [(.ofText "sable.yaml", "[]")]) (.ofList []) none).2 = .ok {} := by
  have hkind : (Document.read? "[]").map Document.kindName = some (Text.ofString "list") := by
    decide +kernel
  obtain ⟨d, hd, hlist⟩ := Option.map_eq_some_iff.1 hkind
  refine ⟨d, hd, ?_, ?_, ?_⟩
  · rintro rfl
    exact absurd hlist (by decide)
  · rintro entries rfl
    exact absurd hlist (by rw [Document.kindName]; decide)
  · have hok : (resolve (.ofList [(.ofText "sable.yaml", "[]")]) (.ofList []) none).2.toOption =
        some {} := by decide +kernel
    cases h : (resolve (.ofList [(.ofText "sable.yaml", "[]")]) (.ofList []) none).2 with
    | error error => rw [h] at hok; cases hok
    | ok s =>
      rw [h] at hok
      rw [Option.some.inj hok]

end Settings

end ScriptLang
