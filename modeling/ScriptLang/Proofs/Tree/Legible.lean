import ScriptLang.Proofs.Text.Quoted
import ScriptLang.Proofs.Tree.Outline
import ScriptLang.Proofs.Tree.Part

/-!
# Legible trees

A tree is legible if its names keep to their lines and no literal in it is a floating point number,
whose caption may stand for several of them (`Part.Legible`). Its captions then keep to their lines,
too, as all other texts of its node are quoted, so an outline shows the node in full
(`Block.node_outlinable`).
-/

namespace ScriptLang

open CodePoint

/-! ### Legible parts -/

/-- No floating point number, and names without line breaks. -/
def Part.Legible : Part → Prop
  | .expression (.literal _ (.float _)) => False
  | .expression (.identifier name) => lineFeed ∉ name.name
  | .expression (.increment _ _ _ target) => lineFeed ∉ target.name
  | .expression (.assignment _ target _) => lineFeed ∉ target.name
  | _ => True

/-- A part without spans. -/
def Part.bare : Part → Part
  | .expression e => .expression e.bare
  | .statement s => .statement s.bare

theorem Part.legible_bare (p : Part) : p.bare.Legible ↔ p.Legible := by
  cases p with
  | statement s => exact Iff.rfl
  | expression e =>
    cases e with
    | literal span value => cases value <;> exact Iff.rfl
    | _ => exact Iff.rfl

mutual

theorem Expr.parts_bare : (e : Expr) → e.bare.parts = e.parts.map Part.bare
  | .literal _ _ => rfl
  | .nothing _ => rfl
  | .identifier _ => rfl
  | .binary _ _ left right => by
    simp [Expr.bare, Expr.parts, Part.bare, left.parts_bare, right.parts_bare]
  | .unary _ _ operand => by simp [Expr.bare, Expr.parts, Part.bare, operand.parts_bare]
  | .increment _ _ _ _ => rfl
  | .assignment _ _ value => by simp [Expr.bare, Expr.parts, Part.bare, value.parts_bare]
  | .call _ callee arguments => by
    simp [Expr.bare, Expr.parts, Part.bare, callee.parts_bare, Expr.partsAll_bareAll arguments]
  | .index _ target position => by
    simp [Expr.bare, Expr.parts, Part.bare, target.parts_bare, position.parts_bare]
  | .slice _ target start stop step => by
    simp [Expr.bare, Expr.parts, Part.bare, target.parts_bare, Expr.partsOption_bareOption start,
      Expr.partsOption_bareOption stop, Expr.partsOption_bareOption step]
  | .range _ start stop => by
    simp [Expr.bare, Expr.parts, Part.bare, start.parts_bare, stop.parts_bare]
  | .function _ _ _ body => by simp [Expr.bare, Expr.parts, Part.bare, body.parts_bare]

theorem Expr.partsAll_bareAll : (es : List Expr) →
    Expr.partsAll (Expr.bareAll es) = (Expr.partsAll es).map Part.bare
  | [] => rfl
  | e :: es => by simp [Expr.bareAll, Expr.partsAll, e.parts_bare, Expr.partsAll_bareAll es]

theorem Expr.partsOption_bareOption : (o : Option Expr) →
    Expr.partsOption (Expr.bareOption o) = (Expr.partsOption o).map Part.bare
  | none => rfl
  | some e => e.parts_bare

theorem Block.parts_bare : (b : Block) → b.bare.parts = b.parts.map Part.bare
  | .mk _ statements => Stmt.partsAll_bareAll statements

theorem Simple.parts_bare : (s : Simple) → s.bare.parts = s.parts.map Part.bare
  | .expression value => by
    simp [Simple.bare, Simple.parts, Part.bare, Stmt.bare, value.parts_bare]
  | .declaration _ _ value => by
    simp [Simple.bare, Simple.parts, Part.bare, Stmt.bare, value.parts_bare]

theorem Simple.partsOption_bareOption : (o : Option Simple) →
    Simple.partsOption (Simple.bareOption o) = (Simple.partsOption o).map Part.bare
  | none => rfl
  | some s => s.parts_bare

theorem Stmt.parts_bare : (s : Stmt) → s.bare.parts = s.parts.map Part.bare
  | .simple statement => statement.parts_bare
  | .conditional chain => chain.parts_bare
  | .whileLoop _ condition body => by
    simp [Stmt.bare, Stmt.parts, Part.bare, condition.parts_bare, body.parts_bare]
  | .forEach _ _ iterable body => by
    simp [Stmt.bare, Stmt.parts, Part.bare, iterable.parts_bare, body.parts_bare]
  | .counting _ initializer condition step body => by
    simp [Stmt.bare, Stmt.parts, Part.bare, Simple.partsOption_bareOption initializer,
      Expr.partsOption_bareOption condition, Expr.partsOption_bareOption step, body.parts_bare]
  | .returning _ value => by
    simp [Stmt.bare, Stmt.parts, Part.bare, Expr.partsOption_bareOption value]
  | .breaking _ => rfl
  | .continuing _ => rfl
  | .assertion _ condition _ => by simp [Stmt.bare, Stmt.parts, Part.bare, condition.parts_bare]

theorem Stmt.partsAll_bareAll : (ss : List Stmt) →
    Stmt.partsAll (Stmt.bareAll ss) = (Stmt.partsAll ss).map Part.bare
  | [] => rfl
  | s :: ss => by simp [Stmt.bareAll, Stmt.partsAll, s.parts_bare, Stmt.partsAll_bareAll ss]

theorem Conditional.parts_bare : (c : Conditional) → c.bare.parts = c.parts.map Part.bare
  | .mk _ condition body otherwise => by
    simp [Conditional.bare, Conditional.parts, Part.bare, Stmt.bare, condition.parts_bare,
      body.parts_bare, otherwise.parts_bare]

theorem Otherwise.parts_bare : (o : Otherwise) → o.bare.parts = o.parts.map Part.bare
  | .skip => rfl
  | .block body => body.parts_bare
  | .chain next => next.parts_bare

end

theorem Block.within_legible_bare {b : Block} (h : Within Part.Legible b.parts) :
    Within Part.Legible b.bare.parts := by
  intro p hp
  rw [b.parts_bare] at hp
  obtain ⟨q, hq, rfl⟩ := List.mem_map.1 hp
  exact q.legible_bare.2 (h q hq)

/-! ### Captions -/

namespace Literal

/-- Which sort of literal a caption is of, by its first sign. -/
def sortOf (caption : Text) : Nat :=
  match caption.head? with
  | none => 1
  | some c =>
    if c = ofChar '\'' || c = ofChar '"' then 2
    else if c = ofChar 'T' || c = ofChar 'F' then 3
    else 0

/-- A literal that is no floating point number. -/
def Exact : Literal → Prop
  | .float _ => False
  | _ => True

variable {v w : Literal}

theorem sortOf_caption (hv : v.Exact) : sortOf v.caption = v.ctorIdx := by
  cases v with
  | integer n =>
    obtain ⟨d, hd, c, hc, u, hu⟩ :=
      ((Numeral.writes_digits (b := 10) (by decide) n).1).begins (Numeral.digits_lt (by decide) n)
    have hdigit : ∀ d < 10, ∀ c ∈ Numeral.digitSigns d, sortOf [c] = 0 := by decide
    rw [caption, Numeral.ofNat, hu]
    exact hdigit d hd c hc
  | float x => exact hv.elim
  | string t =>
    have hsort : sortOf t.quoted = 2 := by
      rcases t.quoteMark_eq with h | h <;> simp [Text.quoted, sortOf, h]
    exact hsort
  | boolean b => cases b <;> decide

/-- Only floating point numbers share captions. -/
theorem caption_inj (hv : v.Exact) (hw : w.Exact) (h : v.caption = w.caption) : v = w := by
  have hsort : v.ctorIdx = w.ctorIdx := by rw [← sortOf_caption hv, h, sortOf_caption hw]
  cases v with
  | float x => exact hv.elim
  | integer m =>
    cases w with
    | integer n => rw [Numeral.ofNat_inj h]
    | _ => cases hsort
  | string s =>
    cases w with
    | string t => rw [Text.quoted_inj h]
    | _ => cases hsort
  | boolean b =>
    cases w with
    | boolean c =>
      cases b <;> cases c
      · rfl
      · exact absurd h (by decide)
      · exact absurd h (by decide)
      · rfl
    | _ => cases hsort

theorem lineFeed_not_mem_caption (hv : v.Exact) : lineFeed ∉ v.caption := by
  cases v with
  | integer n =>
    exact Numeral.lineFeed_not_mem_map_digitSign fun d hd =>
      Nat.lt_trans (Numeral.digits_lt (by decide) n d hd) (by decide)
  | float x => exact hv.elim
  | string t => exact t.lineFeed_not_mem_quoted
  | boolean b => cases b <;> decide

end Literal

theorem Part.legible_literal {span : Span} {value : Literal}
    (h : Within Part.Legible (Expr.literal span value).parts) : value.Exact := by
  cases value with
  | float x => exact (within_cons.1 h).1
  | _ => trivial

theorem Text.quoted_ne_opening (t : Text) : t.quoted ≠ "[" := by
  intro h
  have hmark : t.quoteMark = ofChar '[' := (List.cons_eq_cons.1 h).1
  rcases t.quoteMark_eq with h | h <;> rw [h] at hmark <;> exact absurd hmark (by decide)

/-- A field that shows a text in quotes. -/
theorem Field.outlinable_quoted {name : Text} (hname : name.IsLabel) (t : Text) :
    (Field.entry name t.quoted).Outlinable :=
  ⟨hname, t.quoted_ne_opening, t.lineFeed_not_mem_quoted⟩

theorem BinaryOperator.outlinable_kindName (op : BinaryOperator) :
    (Field.entry "operator" op.kindName).Outlinable :=
  ⟨by decide, by cases op <;> decide, by cases op <;> decide⟩

theorem UnaryOperator.outlinable_kindName (op : UnaryOperator) :
    (Field.entry "operator" op.kindName).Outlinable :=
  ⟨by decide, by cases op <;> decide, by cases op <;> decide⟩

theorem Field.outlinableAll_append {fs gs : List Field} (hfs : Field.OutlinableAll fs)
    (hgs : Field.OutlinableAll gs) : Field.OutlinableAll (fs ++ gs) := by
  induction fs with
  | nil => exact hgs
  | cons f fs ih => exact ⟨hfs.1, ih hfs.2⟩

theorem Identifier.node_outlinable {i : Identifier} (h : lineFeed ∉ i.name) : i.node.Outlinable :=
  ⟨by decide, h⟩

mutual

/-- The node of a legible expression is shown in full. -/
theorem Expr.node_outlinable : (e : Expr) → Within Part.Legible e.parts → e.node.Outlinable
  | .literal span value, h =>
    ⟨by decide, value.lineFeed_not_mem_caption (Part.legible_literal h)⟩
  | .nothing span, _ => ⟨by decide, trivial⟩
  | .identifier name, h => name.node_outlinable (within_cons.1 h).1
  | .binary span op left right, h => by
    obtain ⟨hleft, hright⟩ := within_append.1 (within_cons.1 h).2
    exact ⟨by decide, ⟨by decide, left.node_outlinable hleft⟩, op.outlinable_kindName,
      ⟨by decide, right.node_outlinable hright⟩, trivial⟩
  | .unary span op operand, h =>
    ⟨by decide, op.outlinable_kindName,
      ⟨by decide, operand.node_outlinable (within_cons.1 h).2⟩, trivial⟩
  | .increment span direction side target, h =>
    ⟨by decide, ⟨by decide, target.node_outlinable (within_cons.1 h).1⟩,
      ⟨by decide, by cases direction <;> decide, by cases direction <;> decide⟩,
      ⟨by decide, by cases side <;> decide, by cases side <;> decide⟩, trivial⟩
  | .assignment span target value, h => by
    obtain ⟨hname, hvalue⟩ := within_cons.1 h
    exact ⟨by decide, ⟨by decide, target.node_outlinable hname⟩,
      ⟨by decide, value.node_outlinable hvalue⟩, trivial⟩
  | .call span callee arguments, h => by
    obtain ⟨hcallee, harguments⟩ := within_append.1 (within_cons.1 h).2
    exact ⟨by decide, ⟨by decide, callee.node_outlinable hcallee⟩,
      ⟨by decide, by decide, Expr.nodes_outlinable arguments harguments⟩, trivial⟩
  | .index span target position, h => by
    obtain ⟨htarget, hposition⟩ := within_append.1 (within_cons.1 h).2
    exact ⟨by decide, ⟨by decide, target.node_outlinable htarget⟩,
      ⟨by decide, position.node_outlinable hposition⟩, trivial⟩
  | .slice span target start stop step, h => by
    obtain ⟨h, hstep⟩ := within_append.1 (within_cons.1 h).2
    obtain ⟨h, hstop⟩ := within_append.1 h
    obtain ⟨htarget, hstart⟩ := within_append.1 h
    exact ⟨by decide, ⟨by decide, target.node_outlinable htarget⟩,
      Field.outlinableAll_append (Field.outlinableAll_append
        (Expr.optionalField_outlinable (by decide) start hstart)
        (Expr.optionalField_outlinable (by decide) stop hstop))
        (Expr.optionalField_outlinable (by decide) step hstep)⟩
  | .range span start stop, h => by
    obtain ⟨hstart, hstop⟩ := within_append.1 (within_cons.1 h).2
    exact ⟨by decide, ⟨by decide, start.node_outlinable hstart⟩,
      ⟨by decide, stop.node_outlinable hstop⟩, trivial⟩
  | .function span name parameters body, h => by
    refine ⟨by decide, Field.outlinableAll_append ?_ ⟨⟨rfl, fun t ht => ?_⟩,
      ⟨by decide, body.node_outlinable (within_cons.1 h).2⟩, trivial⟩⟩
    · cases name with
      | none => trivial
      | some name => exact ⟨Field.outlinable_quoted (by decide) name, trivial⟩
    · obtain ⟨u, -, rfl⟩ := List.mem_map.1 ht
      exact u.lineFeed_not_mem_quoted

theorem Expr.nodes_outlinable : (es : List Expr) → Within Part.Legible (Expr.partsAll es) →
    Node.OutlinableAll (Expr.nodes es)
  | [], _ => trivial
  | e :: es, h => ⟨e.node_outlinable (within_append.1 h).1,
      Expr.nodes_outlinable es (within_append.1 h).2⟩

theorem Expr.optionalField_outlinable {name : Text} (hname : name.IsLabel) : (o : Option Expr) →
    Within Part.Legible (Expr.partsOption o) → Field.OutlinableAll (Expr.optionalField name o)
  | none, _ => trivial
  | some e, h => ⟨⟨hname, e.node_outlinable h⟩, trivial⟩

theorem Block.node_outlinable : (b : Block) → Within Part.Legible b.parts → b.node.Outlinable
  | .mk span statements, h =>
    ⟨by decide, ⟨by decide, by decide, Stmt.nodes_outlinable statements h⟩, trivial⟩

theorem Simple.node_outlinable : (s : Simple) → Within Part.Legible s.parts → s.node.Outlinable
  | .expression value, h =>
    ⟨by decide, ⟨by decide, value.node_outlinable (within_cons.1 h).2⟩, trivial⟩
  | .declaration span name value, h =>
    ⟨by decide, Field.outlinable_quoted (by decide) name,
      ⟨by decide, value.node_outlinable (within_cons.1 h).2⟩, trivial⟩

theorem Simple.optionalField_outlinable {name : Text} (hname : name.IsLabel) :
    (o : Option Simple) → Within Part.Legible (Simple.partsOption o) →
      Field.OutlinableAll (Simple.optionalField name o)
  | none, _ => trivial
  | some s, h => ⟨⟨hname, s.node_outlinable h⟩, trivial⟩

theorem Stmt.node_outlinable : (s : Stmt) → Within Part.Legible s.parts → s.node.Outlinable
  | .simple statement, h => statement.node_outlinable h
  | .conditional chain, h => chain.node_outlinable h
  | .whileLoop span condition body, h => by
    obtain ⟨hcondition, hbody⟩ := within_append.1 (within_cons.1 h).2
    exact ⟨by decide, ⟨by decide, condition.node_outlinable hcondition⟩,
      ⟨by decide, body.node_outlinable hbody⟩, trivial⟩
  | .forEach span item iterable body, h => by
    obtain ⟨hiterable, hbody⟩ := within_append.1 (within_cons.1 h).2
    exact ⟨by decide, Field.outlinable_quoted (by decide) item,
      ⟨by decide, iterable.node_outlinable hiterable⟩,
      ⟨by decide, body.node_outlinable hbody⟩, trivial⟩
  | .counting span initializer condition step body, h => by
    obtain ⟨h, hbody⟩ := within_append.1 (within_cons.1 h).2
    obtain ⟨h, hstep⟩ := within_append.1 h
    obtain ⟨hinitializer, hcondition⟩ := within_append.1 h
    exact ⟨by decide, Field.outlinableAll_append (Field.outlinableAll_append
      (Field.outlinableAll_append
        (Simple.optionalField_outlinable (by decide) initializer hinitializer)
        (Expr.optionalField_outlinable (by decide) condition hcondition))
        (Expr.optionalField_outlinable (by decide) step hstep))
      ⟨⟨by decide, body.node_outlinable hbody⟩, trivial⟩⟩
  | .returning span value, h =>
    ⟨by decide, Expr.optionalField_outlinable (by decide) value (within_cons.1 h).2⟩
  | .breaking span, _ => ⟨by decide, trivial⟩
  | .continuing span, _ => ⟨by decide, trivial⟩
  | .assertion span condition message, h => by
    refine ⟨by decide, ⟨by decide, condition.node_outlinable (within_cons.1 h).2⟩, ?_⟩
    cases message with
    | none => trivial
    | some message => exact ⟨Field.outlinable_quoted (by decide) message, trivial⟩

theorem Stmt.nodes_outlinable : (ss : List Stmt) → Within Part.Legible (Stmt.partsAll ss) →
    Node.OutlinableAll (Stmt.nodes ss)
  | [], _ => trivial
  | s :: ss, h => ⟨s.node_outlinable (within_append.1 h).1,
      Stmt.nodes_outlinable ss (within_append.1 h).2⟩

theorem Conditional.node_outlinable : (c : Conditional) → Within Part.Legible c.parts →
    c.node.Outlinable
  | .mk span condition body otherwise, h => by
    obtain ⟨h, hotherwise⟩ := within_append.1 (within_cons.1 h).2
    obtain ⟨hcondition, hbody⟩ := within_append.1 h
    exact ⟨by decide, ⟨by decide, condition.node_outlinable hcondition⟩,
      ⟨by decide, body.node_outlinable hbody⟩, otherwise.fields_outlinable hotherwise⟩

theorem Otherwise.fields_outlinable : (o : Otherwise) → Within Part.Legible o.parts →
    Field.OutlinableAll o.fields
  | .skip, _ => trivial
  | .block body, h => ⟨⟨by decide, body.node_outlinable h⟩, trivial⟩
  | .chain next, h => ⟨⟨by decide, next.node_outlinable h⟩, trivial⟩

end

end ScriptLang
