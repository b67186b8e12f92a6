import ScriptLang.Proofs.Grammar.Lead

/-!
# Programs on longer inputs

A program is a loop over statements. Its complaints that more input cannot mend are
repeated with any sequel (`Program.parseTokensAt_refuses`). A program that is read to its
end is read so with a calm sequel too, and then the statements of the sequel are read
(`Program.parseTokensAt_joined`). With no sequel at all, spans and a greater depth change
nothing (`Program.parseTokensAt_deeper`).
-/

namespace ScriptLang

open ParserState ScriptLang.Parser

namespace Rule

variable {q : Sequel} {g g' : Grammar} {s t : ParserState}

/-! ### One statement of a program -/

theorem run_programTurn_of_end (h : s.current.kind = .endOfInput) (done : List Stmt) :
    (programTurn g done).run s = .ok (.done done, s) := by
  unfold programTurn
  rw [run_kind_bind, h]
  rfl

theorem run_programTurn_of_semicolon (h : s.current.kind = .sign .semicolon)
    (done : List Stmt) : (programTurn g done).run s = .ok (.again done, s.skip) := by
  unfold programTurn
  rw [run_kind_bind, h]
  rfl

theorem programTurn_resumes (hg : Grammar.Continues q g g') {done done' : List Stmt}
    (hd : done'.map Stmt.bare = done.map Stmt.bare) (h : Parallel q s t) (hl : q.Live s) :
    Follows q true (Resumes q) (Turn.map (List.map Stmt.bare)) (programTurn g done)
      (programTurn g' done') s t := by
  refine Follows.of_run_eq ?_ (run_kind_bind _) (run_kind_bind _)
  rw [h.kind_eq hl]
  split
  · exact Follows.pure (.inl h) (congrArg Turn.done hd)
  · next hk =>
    refine (Follows.advance h (h.ended.ahead_ne_nil hk (by simp))).bind_mid h.ended id
      fun _ _ s₁ t₁ _ _ h₁ => ?_
    exact Follows.pure (.inl h₁) (congrArg Turn.again hd)
  · exact Follows.fail h _ _
  · refine (hg.statement h).bind_mid h.ended .inl fun x x' s₁ t₁ _ hx h₁ => ?_
    exact Follows.pure h₁ (congrArg Turn.again (by rw [List.map_cons, List.map_cons, hx, hd]))

theorem programTurn_follows (hg : Grammar.Continues q g g') {done done' : List Stmt}
    (hd : done'.map Stmt.bare = done.map Stmt.bare) (h : Parallel q s t) :
    Follows q false (Parallel q) (Turn.map (List.map Stmt.bare)) (programTurn g done)
      (programTurn g' done') s t := by
  by_cases hl : q.Live s
  · exact (programTurn_resumes hg hd h hl).parallel
  · have hend := h.ended.current_kind_iff.2 (Sequel.not_live hl).1
    exact Follows.of_run_eq (Follows.pure_of_not_live hl) (run_programTurn_of_end hend done) rfl

theorem program_follows (hg : Grammar.Continues q g g') (h : Parallel q s t) :
    Follows q false (Parallel q) Block.bare (program g) (program g') s t := by
  refine Follows.of_run_eq ?_ (run_current_bind _) (run_current_bind _)
  refine (Follows.loop (programTurn_advances hg.sound) (programTurn_advances hg.sound')
    (programTurn_follows hg) (rfl : ([] : List Stmt).map Stmt.bare = [].map Stmt.bare)
    h).bind h.ended fun ss ss' s₁ t₁ _ hss h₁ => ?_
  refine Follows.of_run_eq ?_ (run_current_bind _) (run_current_bind _)
  apply Follows.pure h₁
  rw [Block.bare, Block.bare, Stmt.bareAll_reverse, Stmt.bareAll_reverse, Stmt.bareAll_eq_map,
    Stmt.bareAll_eq_map, hss]

/-! ### One program behind another -/

theorem run_programLoop_of_end (hg : g.Sound) (hs : s.Ended) (hnil : s.ahead = [])
    (done : List Stmt) : (loop (programTurn g) done).run s = .ok (done, s) :=
  run_loop_of_done (programTurn_advances hg) hs
    (run_programTurn_of_end (hs.current_kind_iff.2 hnil) done)

theorem programLoop_end (hg : g.Sound) (hs : s.Ended) {done ss : List Stmt} {s' : ParserState}
    (h : (loop (programTurn g) done).run s = .ok (ss, s')) : s'.ahead = [] := by
  refine loop_induction (programTurn_advances hg) (P := fun _ _ => True)
    (Q := fun _ s' => s'.ahead = []) ?_ (fun _ _ _ _ _ _ _ => trivial) hs trivial h
  intro done s r s' _ hs h
  rcases run_programTurn_eq_ok h with ⟨hk, -, rfl⟩ | ⟨-, hr, -⟩ | ⟨x, -, hr⟩
  · exact hs.current_kind_iff.1 hk
  · cases hr
  · cases hr

/-- A program that is read to its end leaves a calm sequel to a reading that has one. The
semicolon that the sequel may begin with belongs to no statement. -/
theorem programLoop_resumes (hg : Grammar.Continues q g g') (hq : q.Calm) {a b c : List Stmt}
    {s s' t : ParserState} (hab : b.map Stmt.bare = a.map Stmt.bare) (h : Parallel q s t)
    (hb : s.brackets = 0) (hr : (loop (programTurn g) a).run s = .ok (c, s')) :
    ∃ d u, d.map Stmt.bare = c.map Stmt.bare ∧ Parallel q s' u ∧ s'.brackets = 0 ∧
      (loop (programTurn g') b).run t = (loop (programTurn g') d).run u := by
  by_cases hl : q.Live s
  · have hturn := programTurn_resumes hg hab h hl
    rcases run_loop_eq_ok (programTurn_advances hg.sound) h.ended hr with
      hdone | ⟨a₁, s₁, hr, hloop⟩
    · rcases run_programTurn_eq_ok hdone with ⟨-, hc, rfl⟩ | ⟨-, hc, -⟩ | ⟨x, -, hc⟩ <;> cases hc
      exact ⟨b, t, hab, h, hb, rfl⟩
    · obtain ⟨hs₁, hlt⟩ := programTurn_advances hg.sound h.ended hr
      have hb₁ : s₁.brackets = 0 := (hturn.leaves hr).2.2.trans hb
      obtain ⟨r, t₁, hr', hview, hpost⟩ := hturn.ok hr (.inr ⟨rfl, hq, hb₁⟩)
      cases r with
      | done b₁ => cases hview
      | again b₁ =>
        have hab₁ := Turn.again.inj hview
        rw [run_loop_of_again (programTurn_advances hg.sound') h.ended' hr']
        rcases hpost with h₁ | ⟨hl₁, u, hu, hk, rfl⟩
        · exact programLoop_resumes hg hq hab₁ h₁ hb₁ hloop
        · rw [run_programLoop_of_end hg.sound hs₁ (Sequel.not_live hl₁).1] at hloop
          cases hloop
          refine ⟨b₁, u, hab₁, hu, hb₁, ?_⟩
          exact (run_loop_of_again (programTurn_advances hg.sound') hu.ended'
            (run_programTurn_of_semicolon hk b₁)).symm
  · rw [run_programLoop_of_end hg.sound h.ended (Sequel.not_live hl).1] at hr
    cases hr
    exact ⟨b, t, hab, h, hb, rfl⟩
termination_by s.ahead.length

/-- The statements read before do not matter. -/
theorem programLoop_append (hg : g.Sound) {a c : List Stmt} {s s' : ParserState} (hs : s.Ended)
    (h : (loop (programTurn g) a).run s = .ok (c, s')) (b : List Stmt) :
    (loop (programTurn g) (a ++ b)).run s = .ok (c ++ b, s') := by
  have hturn : ∀ {r s₁}, (programTurn g a).run s = .ok (r, s₁) →
      (programTurn g (a ++ b)).run s = .ok (r.map (· ++ b), s₁) := by
    intro r s₁ hr
    unfold programTurn at hr ⊢
    rw [run_kind_bind] at hr ⊢
    split at hr
    · obtain ⟨rfl, rfl⟩ := run_pure_eq_ok.1 hr
      rfl
    · obtain ⟨rfl, rfl⟩ := run_pure_eq_ok.1 hr
      rfl
    · rw [run_fail] at hr
      cases hr
    · obtain ⟨x, s₂, hx, hr⟩ := run_bind_eq_ok.1 hr
      obtain ⟨rfl, rfl⟩ := run_pure_eq_ok.1 hr
      rw [run_bind_of_ok hx]
      rfl
  have hadvances := programTurn_advances hg
  rcases run_loop_eq_ok hadvances hs h with hr | ⟨a₁, s₁, hr, hloop⟩
  · exact run_loop_of_done hadvances hs (hturn hr)
  · have hlt := hadvances hs hr
    rw [run_loop_of_again hadvances hs (hturn hr)]
    exact programLoop_append hg hlt.1 hloop b
termination_by s.ahead.length

theorem programLoop_breakable (hs : g.Sound) (hg : g.Breakable) (done : List Stmt) :
    (loop (programTurn g) done).Breakable := by
  refine .of_ahead fun s hended hne => ?_
  have hturn : (programTurn g done).run s.broken = (programTurn g done).run s := by
    have hk : s.broken.current.kind = s.current.kind := by rw [broken_current hne]; rfl
    unfold programTurn
    rw [run_kind_bind, run_kind_bind, hk]
    split
    · next hk => exact absurd (hended.current_kind_iff.1 hk) hne
    · exact breakable_advance_bind (fun _ => rfl) hended
    · exact breakable_fail _ hended
    · exact hg.statement.bind _ hended
  rw [run_loop (programTurn_advances hs) hended.broken, run_loop (programTurn_advances hs) hended]
  unfold unfoldLoop
  rw [run_bind, hturn, ← run_bind]

theorem programLoop_leads (hs : g.Sound) (hg : g.Leads) (hended : s.Ended) {done ss : List Stmt}
    {s' : ParserState} (h : (loop (programTurn g) done).run s = .ok (ss, s')) :
    s.current.kind.Leads := by
  have hturn : ∀ {r s₁}, (programTurn g done).run s = .ok (r, s₁) → s.current.kind.Leads := by
    intro r s₁ hr
    rcases run_programTurn_eq_ok hr with ⟨hk, -⟩ | ⟨hk, -⟩ | ⟨x, hx, -⟩
    · rw [hk]; exact ⟨nofun, nofun⟩
    · rw [hk]; exact ⟨nofun, nofun⟩
    · exact hg.statement hx
  rcases run_loop_eq_ok (programTurn_advances hs) hended h with hr | ⟨a, s₁, hr, -⟩
  · exact hturn hr
  · exact hturn hr

end Rule

namespace Program

/-- The state before tokens that stand before the end of the input. -/
def before (ts : List Token) (finish : Token) : ParserState := ⟨ts, finish, finish.span.stop, 0⟩

/-- Tokens and an end of the input behind them. -/
structure Complete (ts : List Token) (finish : Token) : Prop where
  finish : finish.content = .endOfInput
  tokens : ∀ t ∈ ts, t.content ≠ .endOfInput

theorem Complete.ended {ts : List Token} {finish : Token} (h : Complete ts finish) :
    (before ts finish).Ended :=
  ⟨h.finish, h.tokens⟩

variable {depth : Nat} {ts ts' : List Token} {finish finish' : Token} {b : Block}

theorem parseTokensAt_eq_ok :
    parseTokensAt depth (ts ++ [finish]) = .ok b ↔
      ∃ s', (Rule.program (Grammar.ofDepth depth)).run (before ts finish) = .ok (b, s') := by
  rw [parseTokensAt_append, before]
  cases (Rule.program (Grammar.ofDepth depth)).run ⟨ts, finish, finish.span.stop, 0⟩ <;>
    simp [Except.map, Prod.ext_iff]

theorem parseTokensAt_eq_error {c : Complaint} :
    parseTokensAt depth (ts ++ [finish]) = .error c ↔
      (Rule.program (Grammar.ofDepth depth)).run (before ts finish) = .error c := by
  rw [parseTokensAt_append, before]
  cases (Rule.program (Grammar.ofDepth depth)).run ⟨ts, finish, finish.span.stop, 0⟩ <;>
    simp [Except.map]

theorem run_program_eq_ok {g : Grammar} {s s' : ParserState} :
    (Rule.program g).run s = .ok (b, s') ↔
      ∃ ss, (loop (Rule.programTurn g) []).run s = .ok (ss, s') ∧
        b = .mk (s.current.span.merge s'.current.span) ss.reverse := by
  unfold Rule.program
  rw [run_current_bind, run_bind_eq_ok]
  constructor
  · rintro ⟨ss, s₁, hss, h⟩
    rw [run_current_bind] at h
    obtain ⟨rfl, rfl⟩ := run_pure_eq_ok.1 h
    exact ⟨ss, hss, rfl⟩
  · rintro ⟨ss, hss, rfl⟩
    exact ⟨ss, s', hss, rfl⟩

theorem parallel_before {q : Sequel} (h : Complete ts finish) (h' : Complete ts' finish')
    (hts : ts'.map Token.bare = (ts ++ q.rest).map Token.bare) :
    Parallel q (before ts finish) (before ts' finish') :=
  ⟨h.ended, h'.ended, rfl, hts⟩

/-- A complaint that more input cannot mend is repeated with any sequel. -/
theorem parseTokensAt_refuses {us : List Token} {c : Complaint} (h : Complete ts finish)
    (h' : Complete ts' finish') (hts : ts'.map Token.bare = (ts ++ us).map Token.bare)
    (hus : ∀ t ∈ us, t.content ≠ .endOfInput)
    (hc : parseTokensAt depth (ts ++ [finish]) = .error c) (hfinal : c.Final) :
    ∃ c', parseTokensAt depth (ts' ++ [finish']) = .error c' := by
  let q : Sequel := ⟨us, finish', h'.finish, hus⟩
  have hfollows := Rule.program_follows (Grammar.continues_ofDepth q (Nat.le_refl depth))
    (parallel_before h h' hts)
  obtain ⟨c', hc'⟩ := hfollows.error (parseTokensAt_eq_error.1 hc) (.inl hfinal)
  exact ⟨c', parseTokensAt_eq_error.2 hc'⟩

/-- What one depth reads, or refuses for a reason of its own, any greater depth reads or
refuses. -/
theorem parseTokensAt_deeper {deeper : Nat} (hdepth : depth ≤ deeper) (h : Complete ts finish)
    (h' : Complete ts' finish') (hts : ts'.map Token.bare = ts.map Token.bare) :
    (∀ b, parseTokensAt depth (ts ++ [finish]) = .ok b →
      ∃ b', parseTokensAt deeper (ts' ++ [finish']) = .ok b' ∧ b'.bare = b.bare) ∧
    (∀ c, parseTokensAt depth (ts ++ [finish]) = .error c → c.cause ≠ .nestedTooDeeply →
      ∃ c', parseTokensAt deeper (ts' ++ [finish']) = .error c') := by
  let q : Sequel := ⟨[], finish', h'.finish, nofun⟩
  have hfollows := Rule.program_follows (Grammar.continues_ofDepth q hdepth)
    (parallel_before h h' (by rw [List.append_nil, hts]))
  constructor
  · intro b hb
    obtain ⟨s', hb⟩ := parseTokensAt_eq_ok.1 hb
    obtain ⟨b', t', hb', hview, -⟩ := hfollows.ok hb (.inl (.inr rfl))
    exact ⟨b', parseTokensAt_eq_ok.2 ⟨t', hb'⟩, hview⟩
  · intro c hc hcause
    obtain ⟨c', hc'⟩ := hfollows.error (parseTokensAt_eq_error.1 hc) (.inr ⟨rfl, hcause⟩)
    exact ⟨c', parseTokensAt_eq_error.2 hc'⟩

/-- Behind a program on the lines before it, a program is read as it is alone. -/
theorem parseTokensAt_joined {us : List Token} {last : Token} {b₁ b₂ : Block}
    (h : Complete ts finish) (hu : Complete us last) (h' : Complete ts' finish')
    (hts : ts'.map Token.bare = (ts ++ Token.brokenAll us).map Token.bare)
    (h₁ : parseTokensAt depth (ts ++ [finish]) = .ok b₁)
    (h₂ : parseTokensAt depth (us ++ [last]) = .ok b₂) :
    ∃ b, parseTokensAt depth (ts' ++ [finish']) = .ok b ∧
      b.bare.statements = b₁.bare.statements ++ b₂.bare.statements := by
  have hg := Grammar.sound_ofDepth depth
  obtain ⟨s₁, h₁⟩ := parseTokensAt_eq_ok.1 h₁
  obtain ⟨s₂, h₂⟩ := parseTokensAt_eq_ok.1 h₂
  obtain ⟨c₁, hloop₁, rfl⟩ := run_program_eq_ok.1 h₁
  obtain ⟨c₂, hloop₂, rfl⟩ := run_program_eq_ok.1 h₂
  have hbroken := hu.ended.broken
  -- the sequel of the first program is the second one, on a line of its own
  let q : Sequel := ⟨Token.brokenAll us, last, hu.finish, hbroken.ahead⟩
  have hcalm : q.Calm := by
    intro t ht
    have hleads := Rule.programLoop_leads hg (Grammar.leads_ofDepth depth) hu.ended hloop₂
    cases us with
    | nil => cases ht
    | cons u us =>
      cases ht
      exact ⟨rfl, hleads⟩
  obtain ⟨d, u, hd, hpar, hb, hrun⟩ := Rule.programLoop_resumes
    (Grammar.continues_ofDepth q (Nat.le_refl depth)) hcalm rfl (parallel_before h h' hts) rfl
    hloop₁
  -- what is left to the reading of both is the second program
  let q' : Sequel := ⟨[], last, hu.finish, nofun⟩
  have hpar' : Parallel q' (before us last).broken u := by
    refine ⟨hbroken, hpar.ended', hpar.brackets.trans hb, ?_⟩
    rw [hpar.ahead, Rule.programLoop_end hg h.ended hloop₁, List.nil_append]
    exact congrArg _ (List.append_nil _).symm
  have hfollows := Follows.loop (Rule.programTurn_advances hg) (Rule.programTurn_advances hg)
    (Rule.programTurn_follows (Grammar.continues_ofDepth q' (Nat.le_refl depth)))
    (rfl : ([] : List Stmt).map Stmt.bare = [].map Stmt.bare) hpar'
  rw [← Rule.programLoop_breakable hg (Grammar.breakable_ofDepth depth) [] hu.ended] at hloop₂
  obtain ⟨d₂, v, hd₂, hview, -⟩ := hfollows.ok hloop₂ (.inl (.inr rfl))
  have hall := Rule.programLoop_append hg hpar.ended' hd₂ d
  rw [List.nil_append, ← hrun] at hall
  refine ⟨_, parseTokensAt_eq_ok.2 ⟨v, run_program_eq_ok.2 ⟨_, hall, rfl⟩⟩, ?_⟩
  change Stmt.bareAll (d₂ ++ d).reverse = Stmt.bareAll c₁.reverse ++ Stmt.bareAll c₂.reverse
  have hview : d₂.map Stmt.bare = c₂.map Stmt.bare := hview
  simp only [Stmt.bareAll_eq_map, List.reverse_append, List.map_append, List.map_reverse, hd, hview]

end Program

end ScriptLang
