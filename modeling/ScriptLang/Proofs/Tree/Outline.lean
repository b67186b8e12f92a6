import ScriptLang.Proofs.Tree.Bare
import ScriptLang.Tree.Node

/-!
# Outlines tell nodes apart

The lines below a node or in a list are those that go further to the right than its own, so where
it ends can be seen from the line behind it (`Outdented`). The first line of a node or a field
begins with a word of its own, and shows what sort of node or field it is.

`Node.Outlinable` asks for the rest: every text of the tree keeps to its line, and the field that
holds texts can be told by its name from those that hold nodes, as both may be empty. Then a node
can be read back from its outline, up to spans (`Node.outline_inj`).
-/

namespace ScriptLang

open CodePoint

/-! ### Texts -/

/-- A list can be told from what it is followed by, if a mark that it does not hold stands
between the two. -/
theorem append_cons_inj {α : Type} {a : α} {us vs : List α} :
    ∀ {xs ys : List α}, a ∉ xs → a ∉ ys → xs ++ a :: us = ys ++ a :: vs → xs = ys ∧ us = vs
  | [], [], _, _, h => ⟨rfl, (List.cons_eq_cons.1 h).2⟩
  | [], y :: ys, _, hy, h => absurd (List.cons_eq_cons.1 h).1 (List.ne_of_not_mem_cons hy)
  | x :: xs, [], hx, _, h => absurd (List.cons_eq_cons.1 h).1.symm (List.ne_of_not_mem_cons hx)
  | x :: xs, y :: ys, hx, hy, h => by
    obtain ⟨rfl, hrest⟩ := List.cons_eq_cons.1 h
    obtain ⟨rfl, hbehind⟩ :=
      append_cons_inj (List.not_mem_of_not_mem_cons hx) (List.not_mem_of_not_mem_cons hy) hrest
    exact ⟨rfl, hbehind⟩

namespace Text

/-- Lines can be told from the text that they make up. -/
theorem joinWith_lineFeed_inj :
    ∀ {ls ms : List Text}, ls ≠ [] → ms ≠ [] → (∀ l ∈ ls, lineFeed ∉ l) → (∀ m ∈ ms, lineFeed ∉ m) →
      joinWith [lineFeed] ls = joinWith [lineFeed] ms → ls = ms
  | [], _, hls, _, _, _, _ => absurd rfl hls
  | _ :: _, [], _, hms, _, _, _ => absurd rfl hms
  | [l], [m], _, _, _, _, h => by rw [show l = m from h]
  | [l], m :: m' :: ms, _, _, hl, _, h => by
    refine absurd ?_ (hl l (by simp))
    rw [show l = m ++ [lineFeed] ++ joinWith [lineFeed] (m' :: ms) from h]
    simp
  | l :: l' :: ls, [m], _, _, _, hm, h => by
    refine absurd ?_ (hm m (by simp))
    rw [show m = l ++ [lineFeed] ++ joinWith [lineFeed] (l' :: ls) from h.symm]
    simp
  | l :: l' :: ls, m :: m' :: ms, _, _, hl, hm, h => by
    rw [joinWith_cons_cons, joinWith_cons_cons, List.append_assoc, List.append_assoc] at h
    obtain ⟨rfl, hrest⟩ := append_cons_inj (hl l (by simp)) (hm m (by simp)) h
    rw [joinWith_lineFeed_inj (List.cons_ne_nil _ _) (List.cons_ne_nil _ _)
      (fun t ht => hl t (List.mem_cons_of_mem _ ht))
      (fun t ht => hm t (List.mem_cons_of_mem _ ht)) hrest]

/-- A word that may name a node or a field: no blank, no colon and no line feed. -/
def IsLabel (t : Text) : Prop :=
  t ≠ [] ∧ ∀ c ∈ t, c ≠ ofChar ' ' ∧ c ≠ ofChar ':' ∧ c ≠ lineFeed

instance (t : Text) : Decidable t.IsLabel := inferInstanceAs (Decidable (_ ∧ _))

namespace IsLabel

variable {t u x y : Text}

theorem blank_not_mem (h : t.IsLabel) : ofChar ' ' ∉ t := fun hmem => (h.2 _ hmem).1 rfl

theorem colon_not_mem (h : t.IsLabel) : ofChar ':' ∉ t := fun hmem => (h.2 _ hmem).2.1 rfl

theorem lineFeed_not_mem (h : t.IsLabel) : lineFeed ∉ t := fun hmem => (h.2 _ hmem).2.2 rfl

theorem head?_append (h : t.IsLabel) (x : Text) : (t ++ x).head? ≠ some (ofChar ' ') := by
  obtain ⟨c, t, rfl⟩ := List.exists_cons_of_ne_nil h.1
  exact fun hhead => h.blank_not_mem (by rw [← Option.some.inj hhead]; exact List.mem_cons_self)

end IsLabel

end Text

/-! ### Levels -/

theorem outlineLine_inj {level : Nat} {t u : Text} (h : outlineLine level t = outlineLine level u) :
    t = u :=
  List.append_cancel_left h

theorem lineFeed_not_mem_outlineLine {t : Text} (h : lineFeed ∉ t) (level : Nat) :
    lineFeed ∉ outlineLine level t := by
  intro hmem
  rcases List.mem_append.1 hmem with hmem | hmem
  · exact absurd (List.eq_of_mem_replicate hmem) (by decide)
  · exact h hmem

/-- The first of some lines, if there is one, is less than `level` steps from the margin. -/
def Outdented (level : Nat) (r : List Text) : Prop :=
  ∀ t ∈ r.head?, ¬ List.replicate (2 * level) (ofChar ' ') <+: t

theorem outdented_nil (level : Nat) : Outdented level [] := nofun

theorem not_outdented (level : Nat) (t : Text) (r : List Text) :
    ¬ Outdented level (outlineLine level t :: r) :=
  fun h => h _ rfl (List.prefix_append _ _)

theorem Outdented.mono {level level' : Nat} {r : List Text} (h : Outdented level r)
    (hle : level ≤ level') : Outdented level' r := by
  intro t ht hprefix
  have hshort : List.replicate (2 * level) (ofChar ' ') <+:
      List.replicate (2 * level') (ofChar ' ') := by
    rw [show 2 * level' = 2 * level + 2 * (level' - level) by omega,
      ← List.replicate_append_replicate]
    exact List.prefix_append _ _
  exact h t ht (hshort.trans hprefix)

/-- What does not begin with a blank does not go further to the right than its level. -/
theorem outdented_cons {t : Text} (ht : t.head? ≠ some (ofChar ' ')) (level : Nat) (r : List Text) :
    Outdented (level + 1) (outlineLine level t :: r) := by
  rintro u ⟨⟩ hprefix
  rw [show 2 * (level + 1) = 2 * level + 2 by omega, ← List.replicate_append_replicate,
    outlineLine, List.prefix_append_right_inj] at hprefix
  obtain ⟨v, rfl⟩ := hprefix
  exact ht rfl

/-! ### Nodes up to spans -/

mutual

/-- A node without spans. -/
def Node.bare : Node → Node
  | .leaf kind _ caption => .leaf kind .nowhere caption
  | .branch kind _ fields => .branch kind .nowhere (Field.bareAll fields)

def Field.bare : Field → Field
  | .child name node => .child name node.bare
  | .children name nodes => .children name (Node.bareAll nodes)
  | .entries name texts => .entries name texts
  | .entry name text => .entry name text

def Node.bareAll : List Node → List Node
  | [] => []
  | n :: ns => n.bare :: Node.bareAll ns

def Field.bareAll : List Field → List Field
  | [] => []
  | f :: fs => f.bare :: Field.bareAll fs

end

mutual

/-- No span shows in an outline. -/
theorem Node.outlineLines_bare (level : Nat) : (n : Node) →
    n.bare.outlineLines level = n.outlineLines level
  | .leaf _ _ _ => rfl
  | .branch _ _ fields => by
    rw [Node.bare, Node.outlineLines, Node.outlineLines,
      Field.outlineLinesAll_bareAll (level + 1) fields]

theorem Field.outlineLines_bare (level : Nat) : (f : Field) →
    f.bare.outlineLines level = f.outlineLines level
  | .child _ node => by
    rw [Field.bare, Field.outlineLines, Field.outlineLines, node.outlineLines_bare (level + 1)]
  | .children _ nodes => by
    rw [Field.bare, Field.outlineLines, Field.outlineLines,
      Node.outlineLinesAll_bareAll (level + 1) nodes]
  | .entries _ _ => rfl
  | .entry _ _ => rfl

theorem Node.outlineLinesAll_bareAll (level : Nat) : (ns : List Node) →
    Node.outlineLinesAll level (Node.bareAll ns) = Node.outlineLinesAll level ns
  | [] => rfl
  | n :: ns => by
    rw [Node.bareAll, Node.outlineLinesAll, Node.outlineLinesAll, n.outlineLines_bare level,
      Node.outlineLinesAll_bareAll level ns]

theorem Field.outlineLinesAll_bareAll (level : Nat) : (fs : List Field) →
    Field.outlineLinesAll level (Field.bareAll fs) = Field.outlineLinesAll level fs
  | [] => rfl
  | f :: fs => by
    rw [Field.bareAll, Field.outlineLinesAll, Field.outlineLinesAll, f.outlineLines_bare level,
      Field.outlineLinesAll_bareAll level fs]

end

theorem Node.outline_bare (n : Node) : n.bare.outline = n.outline := by
  rw [Node.outline, n.outlineLines_bare 0, Node.outline]

/-! ### Nodes that an outline shows in full -/

mutual

/-- All texts keep to their lines, and texts stand in a field of their own name. -/
def Node.Outlinable : Node → Prop
  | .leaf kind _ caption => kind.IsLabel ∧ lineFeed ∉ caption
  | .branch kind _ fields => kind.IsLabel ∧ Field.OutlinableAll fields

def Field.Outlinable : Field → Prop
  | .child name node => name.IsLabel ∧ node.Outlinable
  | .children name nodes => name.IsLabel ∧ name ≠ "parameters" ∧ Node.OutlinableAll nodes
  | .entries name texts => name = "parameters" ∧ ∀ t ∈ texts, lineFeed ∉ t
  | .entry name text => name.IsLabel ∧ text ≠ "[" ∧ lineFeed ∉ text

def Node.OutlinableAll : List Node → Prop
  | [] => True
  | n :: ns => n.Outlinable ∧ Node.OutlinableAll ns

def Field.OutlinableAll : List Field → Prop
  | [] => True
  | f :: fs => f.Outlinable ∧ Field.OutlinableAll fs

end

/-- The first line of a node. -/
def Node.heading : Node → Text
  | .leaf kind _ caption => kind ++ ofChar ' ' :: caption
  | .branch kind _ _ => kind

/-- The lines of a node behind the first one. -/
def Node.linesBelow (level : Nat) : Node → List Text
  | .leaf _ _ _ => []
  | .branch _ _ fields => Field.outlineLinesAll (level + 1) fields

/-- The name of a field. -/
def Field.name : Field → Text
  | .child name _ => name
  | .children name _ => name
  | .entries name _ => name
  | .entry name _ => name

/-- What stands behind the colon in the first line of a field. -/
def Field.remark : Field → Text
  | .child _ _ => []
  | .children _ _ => " ["
  | .entries _ _ => " ["
  | .entry _ text => ofChar ' ' :: text

def Field.linesBelow (level : Nat) : Field → List Text
  | .child _ node => node.outlineLines (level + 1)
  | .children _ nodes => Node.outlineLinesAll (level + 1) nodes ++ [outlineLine level "]"]
  | .entries _ texts => texts.map (outlineLine (level + 1)) ++ [outlineLine level "]"]
  | .entry _ _ => []

theorem Node.outlineLines_eq (level : Nat) (n : Node) :
    n.outlineLines level = outlineLine level n.heading :: n.linesBelow level := by
  cases n with
  | leaf kind span caption =>
    rw [Node.outlineLines, List.append_assoc]
    rfl
  | branch kind span fields => rw [Node.outlineLines, heading, linesBelow]

theorem Field.outlineLines_eq (level : Nat) (f : Field) :
    f.outlineLines level =
      outlineLine level (f.name ++ ofChar ':' :: f.remark) :: f.linesBelow level := by
  cases f with
  | child name node => rw [Field.outlineLines]; rfl
  | children name nodes => rw [Field.outlineLines]; rfl
  | entries name texts => rw [Field.outlineLines]; rfl
  | entry name text =>
    rw [Field.outlineLines, List.append_assoc]
    rfl

namespace Node.Outlinable

variable {n : Node}

theorem heading_head? (h : n.Outlinable) : n.heading.head? ≠ some (ofChar ' ') := by
  cases n with
  | leaf kind span caption => exact (And.left h).head?_append _
  | branch kind span fields =>
    rw [heading, ← List.append_nil kind]
    exact (And.left h).head?_append []

end Node.Outlinable

theorem Field.Outlinable.name_isLabel {f : Field} (h : f.Outlinable) : f.name.IsLabel := by
  cases f with
  | child name node => exact h.1
  | children name nodes => exact h.1
  | entries name texts =>
    rw [Field.name, (show name = _ from h.1)]
    decide
  | entry name text => exact h.1

theorem Node.outdented {level : Nat} {n : Node} (h : n.Outlinable) (r : List Text) :
    Outdented (level + 1) (n.outlineLines level ++ r) := by
  rw [n.outlineLines_eq, List.cons_append]
  exact outdented_cons h.heading_head? level _

theorem Field.outdented {level : Nat} {f : Field} (h : f.Outlinable) (r : List Text) :
    Outdented (level + 1) (f.outlineLines level ++ r) := by
  rw [f.outlineLines_eq, List.cons_append]
  exact outdented_cons (h.name_isLabel.head?_append _) level _

theorem Node.outdentedAll {level : Nat} {ns : List Node} (h : Node.OutlinableAll ns)
    {r : List Text} (hr : Outdented level r) :
    Outdented (level + 1) (Node.outlineLinesAll level ns ++ r) := by
  cases ns with
  | nil => exact hr.mono (Nat.le_succ level)
  | cons n ns =>
    rw [Node.outlineLinesAll, List.append_assoc]
    exact Node.outdented h.1 _

theorem Field.outdentedAll {level : Nat} {fs : List Field} (h : Field.OutlinableAll fs)
    {r : List Text} (hr : Outdented level r) :
    Outdented (level + 1) (Field.outlineLinesAll level fs ++ r) := by
  cases fs with
  | nil => exact hr.mono (Nat.le_succ level)
  | cons f fs =>
    rw [Field.outlineLinesAll, List.append_assoc]
    exact Field.outdented h.1 _

/-- Texts of a list, one on each line, can be told from the bracket behind them. -/
theorem entries_inj {level : Nat} {r r' : List Text} : ∀ {ts us : List Text},
    ts.map (outlineLine (level + 1)) ++ outlineLine level "]" :: r =
      us.map (outlineLine (level + 1)) ++ outlineLine level "]" :: r' → ts = us ∧ r = r'
  | [], [], h => ⟨rfl, (List.cons_eq_cons.1 h).2⟩
  | [], u :: us, h => by
    refine absurd ?_ (not_outdented (level + 1) u [])
    rw [← (List.cons_eq_cons.1 h).1]
    exact outdented_cons (by decide) level []
  | t :: ts, [], h => by
    refine absurd ?_ (not_outdented (level + 1) t [])
    rw [(List.cons_eq_cons.1 h).1]
    exact outdented_cons (by decide) level []
  | t :: ts, u :: us, h => by
    obtain ⟨hline, h⟩ := List.cons_eq_cons.1 h
    obtain ⟨rfl, rfl⟩ := entries_inj h
    exact ⟨by rw [outlineLine_inj hline], rfl⟩

theorem nil_ne_opening : ([] : Text) ≠ " [" := by decide

theorem opening_inj {text : Text} (h : Text.ofString " [" = ofChar ' ' :: text) : text = "[" :=
  (List.cons_eq_cons.1 h).2.symm

/-- The first line of a field shows its name and what stands behind the colon. -/
theorem Field.first_line_inj {level : Nat} {r r' : List Text} {f f' : Field} (hf : f.Outlinable)
    (hf' : f'.Outlinable) (h : f.outlineLines level ++ r = f'.outlineLines level ++ r') :
    f.name = f'.name ∧ f.remark = f'.remark ∧
      f.linesBelow level ++ r = f'.linesBelow level ++ r' := by
  rw [f.outlineLines_eq, f'.outlineLines_eq] at h
  obtain ⟨hline, hbelow⟩ := List.cons_eq_cons.1 h
  obtain ⟨hname, hremark⟩ := append_cons_inj hf.name_isLabel.colon_not_mem
    hf'.name_isLabel.colon_not_mem (outlineLine_inj hline)
  exact ⟨hname, hremark, hbelow⟩

mutual

/-- A node can be told from its lines, if what stands behind them does not go on to the right. -/
theorem Node.outlineLines_inj {level : Nat} {r r' : List Text} (hr : Outdented (level + 1) r)
    (hr' : Outdented (level + 1) r') : (n n' : Node) → n.Outlinable → n'.Outlinable →
      n.outlineLines level ++ r = n'.outlineLines level ++ r' → n.bare = n'.bare ∧ r = r'
  | .leaf kind _ caption, .leaf kind' _ caption', hn, hn', h => by
    rw [Node.outlineLines_eq, Node.outlineLines_eq] at h
    obtain ⟨hline, hbelow⟩ := List.cons_eq_cons.1 h
    obtain ⟨rfl, rfl⟩ :=
      append_cons_inj hn.1.blank_not_mem hn'.1.blank_not_mem (outlineLine_inj hline)
    exact ⟨rfl, hbelow⟩
  | .leaf kind _ caption, .branch kind' _ fields', hn, hn', h => by
    rw [Node.outlineLines_eq, Node.outlineLines_eq] at h
    have hkind : kind ++ ofChar ' ' :: caption = kind' := outlineLine_inj (List.cons_eq_cons.1 h).1
    exact absurd (by simp [← hkind]) hn'.1.blank_not_mem
  | .branch kind _ fields, .leaf kind' _ caption', hn, hn', h => by
    rw [Node.outlineLines_eq, Node.outlineLines_eq] at h
    have hkind : kind = kind' ++ ofChar ' ' :: caption' := outlineLine_inj (List.cons_eq_cons.1 h).1
    exact absurd (by simp [hkind]) hn.1.blank_not_mem
  | .branch kind _ fields, .branch kind' _ fields', hn, hn', h => by
    rw [Node.outlineLines_eq, Node.outlineLines_eq] at h
    obtain ⟨hline, hbelow⟩ := List.cons_eq_cons.1 h
    obtain rfl : kind = kind' := outlineLine_inj hline
    obtain ⟨hfields, rfl⟩ := Field.outlineLinesAll_inj hr hr' fields fields' hn.2 hn'.2 hbelow
    exact ⟨by rw [Node.bare, Node.bare, hfields], rfl⟩

theorem Field.outlineLines_inj {level : Nat} {r r' : List Text} (hr : Outdented (level + 1) r)
    (hr' : Outdented (level + 1) r') : (f f' : Field) → f.Outlinable → f'.Outlinable →
      f.outlineLines level ++ r = f'.outlineLines level ++ r' → f.bare = f'.bare ∧ r = r'
  | .child name node, f', hf, hf', h => by
    obtain ⟨hname, hremark, hbelow⟩ := Field.first_line_inj hf hf' h
    cases f' with
    | child name' node' =>
      obtain rfl : name = name' := hname
      obtain ⟨hnode, rfl⟩ := Node.outlineLines_inj (hr.mono (Nat.le_succ _))
        (hr'.mono (Nat.le_succ _)) node node' hf.2 hf'.2 hbelow
      exact ⟨by rw [Field.bare, Field.bare, hnode], rfl⟩
    | children name' nodes' => exact absurd hremark nil_ne_opening
    | entries name' texts' => exact absurd hremark nil_ne_opening
    | entry name' text' => cases hremark
  | .children name nodes, f', hf, hf', h => by
    obtain ⟨hname, hremark, hbelow⟩ := Field.first_line_inj hf hf' h
    cases f' with
    | child name' node' => exact absurd hremark.symm nil_ne_opening
    | children name' nodes' =>
      obtain rfl : name = name' := hname
      rw [Field.linesBelow, Field.linesBelow, List.append_assoc, List.append_assoc] at hbelow
      obtain ⟨hnodes, hbehind⟩ := Node.outlineLinesAll_inj (outdented_cons (by decide) level r)
        (outdented_cons (by decide) level r') nodes nodes' hf.2.2 hf'.2.2 hbelow
      exact ⟨by rw [Field.bare, Field.bare, hnodes], (List.cons_eq_cons.1 hbehind).2⟩
    | entries name' texts' => exact absurd ((show name = name' from hname).trans hf'.1) hf.2.1
    | entry name' text' => exact absurd (opening_inj hremark) hf'.2.1
  | .entries name texts, f', hf, hf', h => by
    obtain ⟨hname, hremark, hbelow⟩ := Field.first_line_inj hf hf' h
    cases f' with
    | child name' node' => exact absurd hremark.symm nil_ne_opening
    | children name' nodes' =>
      exact absurd ((show name' = name from hname.symm).trans hf.1) hf'.2.1
    | entries name' texts' =>
      obtain rfl : name = name' := hname
      rw [Field.linesBelow, Field.linesBelow, List.append_assoc, List.append_assoc] at hbelow
      obtain ⟨rfl, rfl⟩ := entries_inj hbelow
      exact ⟨rfl, rfl⟩
    | entry name' text' => exact absurd (opening_inj hremark) hf'.2.1
  | .entry name text, f', hf, hf', h => by
    obtain ⟨hname, hremark, hbelow⟩ := Field.first_line_inj hf hf' h
    cases f' with
    | child name' node' => cases hremark
    | children name' nodes' => exact absurd (opening_inj hremark.symm) hf.2.1
    | entries name' texts' => exact absurd (opening_inj hremark.symm) hf.2.1
    | entry name' text' =>
      obtain rfl : name = name' := hname
      obtain rfl : text = text' := (List.cons_eq_cons.1 hremark).2
      exact ⟨rfl, hbelow⟩

theorem Node.outlineLinesAll_inj {level : Nat} {r r' : List Text} (hr : Outdented level r)
    (hr' : Outdented level r') : (ns ns' : List Node) → Node.OutlinableAll ns →
      Node.OutlinableAll ns' →
      Node.outlineLinesAll level ns ++ r = Node.outlineLinesAll level ns' ++ r' →
        Node.bareAll ns = Node.bareAll ns' ∧ r = r'
  | [], [], _, _, h => ⟨rfl, h⟩
  | [], n' :: ns', _, _, h => by
    rw [Node.outlineLinesAll, Node.outlineLinesAll, n'.outlineLines_eq] at h
    exact absurd ((show r = _ from h) ▸ hr) (not_outdented _ _ _)
  | n :: ns, [], _, _, h => by
    rw [Node.outlineLinesAll, Node.outlineLinesAll, n.outlineLines_eq] at h
    exact absurd ((show _ = r' from h) ▸ hr') (not_outdented _ _ _)
  | n :: ns, n' :: ns', hns, hns', h => by
    rw [Node.outlineLinesAll, Node.outlineLinesAll, List.append_assoc, List.append_assoc] at h
    obtain ⟨hn, h⟩ := Node.outlineLines_inj (Node.outdentedAll hns.2 hr)
      (Node.outdentedAll hns'.2 hr') n n' hns.1 hns'.1 h
    obtain ⟨hrest, rfl⟩ := Node.outlineLinesAll_inj hr hr' ns ns' hns.2 hns'.2 h
    exact ⟨by rw [Node.bareAll, Node.bareAll, hn, hrest], rfl⟩

theorem Field.outlineLinesAll_inj {level : Nat} {r r' : List Text} (hr : Outdented level r)
    (hr' : Outdented level r') : (fs fs' : List Field) → Field.OutlinableAll fs →
      Field.OutlinableAll fs' →
      Field.outlineLinesAll level fs ++ r = Field.outlineLinesAll level fs' ++ r' →
        Field.bareAll fs = Field.bareAll fs' ∧ r = r'
  | [], [], _, _, h => ⟨rfl, h⟩
  | [], f' :: fs', _, _, h => by
    rw [Field.outlineLinesAll, Field.outlineLinesAll, f'.outlineLines_eq] at h
    exact absurd ((show r = _ from h) ▸ hr) (not_outdented _ _ _)
  | f :: fs, [], _, _, h => by
    rw [Field.outlineLinesAll, Field.outlineLinesAll, f.outlineLines_eq] at h
    exact absurd ((show _ = r' from h) ▸ hr') (not_outdented _ _ _)
  | f :: fs, f' :: fs', hfs, hfs', h => by
    rw [Field.outlineLinesAll, Field.outlineLinesAll, List.append_assoc, List.append_assoc] at h
    obtain ⟨hf, h⟩ := Field.outlineLines_inj (Field.outdentedAll hfs.2 hr)
      (Field.outdentedAll hfs'.2 hr') f f' hfs.1 hfs'.1 h
    obtain ⟨hrest, rfl⟩ := Field.outlineLinesAll_inj hr hr' fs fs' hfs.2 hfs'.2 h
    exact ⟨by rw [Field.bareAll, Field.bareAll, hf, hrest], rfl⟩

end

/-! ### Whole outlines -/

theorem Node.Outlinable.lineFeed_not_mem_heading {n : Node} (h : n.Outlinable) :
    lineFeed ∉ n.heading := by
  cases n with
  | leaf kind span caption =>
    obtain ⟨hkind, hcaption⟩ := h
    simpa [Node.heading, hkind.lineFeed_not_mem, hcaption] using
      (by decide : lineFeed ≠ ofChar ' ')
  | branch kind span fields => exact h.1.lineFeed_not_mem

theorem Field.Outlinable.lineFeed_not_mem_remark {f : Field} (h : f.Outlinable) :
    lineFeed ∉ f.remark := by
  cases f with
  | child name node => exact List.not_mem_nil
  | children name nodes => exact (by decide : lineFeed ∉ Text.ofString " [")
  | entries name texts => exact (by decide : lineFeed ∉ Text.ofString " [")
  | entry name text =>
    simpa [Field.remark, h.2.2] using (by decide : lineFeed ≠ ofChar ' ')

theorem Field.Outlinable.lineFeed_not_mem_first {f : Field} (h : f.Outlinable) :
    lineFeed ∉ f.name ++ ofChar ':' :: f.remark := by
  simpa [h.name_isLabel.lineFeed_not_mem, h.lineFeed_not_mem_remark] using
    (by decide : lineFeed ≠ ofChar ':')

mutual

/-- No line of a node that an outline shows in full is broken. -/
theorem Node.lineFeed_not_mem_outlineLines (level : Nat) : (n : Node) → n.Outlinable →
    ∀ t ∈ n.outlineLines level, lineFeed ∉ t
  | .leaf kind span caption, h => by
    rw [Node.outlineLines_eq]
    exact List.forall_mem_cons.2
      ⟨lineFeed_not_mem_outlineLine h.lineFeed_not_mem_heading level, List.forall_mem_nil _⟩
  | .branch kind span fields, h => by
    rw [Node.outlineLines_eq]
    exact List.forall_mem_cons.2 ⟨lineFeed_not_mem_outlineLine h.lineFeed_not_mem_heading level,
      Field.lineFeed_not_mem_outlineLinesAll (level + 1) fields h.2⟩

theorem Field.lineFeed_not_mem_outlineLines (level : Nat) : (f : Field) → f.Outlinable →
    ∀ t ∈ f.outlineLines level, lineFeed ∉ t
  | .child name node, h => by
    rw [Field.outlineLines_eq]
    exact List.forall_mem_cons.2 ⟨lineFeed_not_mem_outlineLine h.lineFeed_not_mem_first level,
      node.lineFeed_not_mem_outlineLines (level + 1) h.2⟩
  | .children name nodes, h => by
    rw [Field.outlineLines_eq]
    refine List.forall_mem_cons.2 ⟨lineFeed_not_mem_outlineLine h.lineFeed_not_mem_first level,
      List.forall_mem_append.2
        ⟨Node.lineFeed_not_mem_outlineLinesAll (level + 1) nodes h.2.2, ?_⟩⟩
    exact List.forall_mem_singleton.2 (lineFeed_not_mem_outlineLine (by decide) level)
  | .entries name texts, h => by
    rw [Field.outlineLines_eq]
    refine List.forall_mem_cons.2 ⟨lineFeed_not_mem_outlineLine h.lineFeed_not_mem_first level,
      List.forall_mem_append.2 ⟨fun t ht => ?_, ?_⟩⟩
    · obtain ⟨u, hu, rfl⟩ := List.mem_map.1 ht
      exact lineFeed_not_mem_outlineLine (h.2 u hu) (level + 1)
    · exact List.forall_mem_singleton.2 (lineFeed_not_mem_outlineLine (by decide) level)
  | .entry name text, h => by
    rw [Field.outlineLines_eq]
    exact List.forall_mem_cons.2
      ⟨lineFeed_not_mem_outlineLine h.lineFeed_not_mem_first level, List.forall_mem_nil _⟩

theorem Node.lineFeed_not_mem_outlineLinesAll (level : Nat) : (ns : List Node) →
    Node.OutlinableAll ns → ∀ t ∈ Node.outlineLinesAll level ns, lineFeed ∉ t
  | [], _ => List.forall_mem_nil _
  | n :: ns, h => by
    rw [Node.outlineLinesAll]
    exact List.forall_mem_append.2 ⟨n.lineFeed_not_mem_outlineLines level h.1,
      Node.lineFeed_not_mem_outlineLinesAll level ns h.2⟩

theorem Field.lineFeed_not_mem_outlineLinesAll (level : Nat) : (fs : List Field) →
    Field.OutlinableAll fs → ∀ t ∈ Field.outlineLinesAll level fs, lineFeed ∉ t
  | [], _ => List.forall_mem_nil _
  | f :: fs, h => by
    rw [Field.outlineLinesAll]
    exact List.forall_mem_append.2 ⟨f.lineFeed_not_mem_outlineLines level h.1,
      Field.lineFeed_not_mem_outlineLinesAll level fs h.2⟩

end

/-- A node can be told from its outline. -/
theorem Node.outline_inj {n n' : Node} (hn : n.Outlinable) (hn' : n'.Outlinable)
    (h : n.outline = n'.outline) : n.bare = n'.bare := by
  have hlines : n.outlineLines 0 = n'.outlineLines 0 :=
    Text.joinWith_lineFeed_inj (by rw [n.outlineLines_eq]; exact List.cons_ne_nil _ _)
      (by rw [n'.outlineLines_eq]; exact List.cons_ne_nil _ _)
      (n.lineFeed_not_mem_outlineLines 0 hn) (n'.lineFeed_not_mem_outlineLines 0 hn') h
  refine (Node.outlineLines_inj (outdented_nil 1) (outdented_nil 1) n n' hn hn' ?_).1
  rw [hlines]

end ScriptLang
