import ScriptLang.Proofs.Tree.Legible

/-!
# Trees can be told from their outlines

The node of a tree says all of it: kinds tell constructors apart, the fields of a node come in one
order, and one that is left out can be told from the name of the next. So a legible tree can be
told from its node (`Block.node_inj`), and up to spans from its outline (`Block.outline_eq_iff`).
-/

namespace ScriptLang

open CodePoint

/-! ### Spans -/

@[simp] theorem Expr.span_bare (e : Expr) : e.bare.span = .nowhere := by
  cases e <;> rfl

theorem Field.bareAll_append (fs gs : List Field) :
    Field.bareAll (fs ++ gs) = Field.bareAll fs ++ Field.bareAll gs := by
  induction fs with
  | nil => rfl
  | cons f fs ih => rw [List.cons_append, Field.bareAll, ih, Field.bareAll, List.cons_append]

theorem Field.bareAll_quoted (name : Text) (o : Option Text) :
    Field.bareAll (o.map fun t => Field.entry name t.quoted).toList =
      (o.map fun t => Field.entry name t.quoted).toList := by
  cases o <;> rfl

mutual

/-- The node of a tree without spans is its node without spans. -/
theorem Expr.node_bare : (e : Expr) → e.bare.node = e.node.bare
  | .literal _ _ => rfl
  | .nothing _ => rfl
  | .identifier _ => rfl
  | .binary _ _ left right => by
    simp [Expr.bare, Expr.node, Node.bare, Field.bareAll, Field.bare, left.node_bare,
      right.node_bare]
  | .unary _ _ operand => by
    simp [Expr.bare, Expr.node, Node.bare, Field.bareAll, Field.bare, operand.node_bare]
  | .increment _ _ _ _ => rfl
  | .assignment _ _ value => by
    simp [Expr.bare, Expr.node, Node.bare, Field.bareAll, Field.bare, value.node_bare,
      Identifier.bare, Identifier.node]
  | .call _ callee arguments => by
    simp [Expr.bare, Expr.node, Node.bare, Field.bareAll, Field.bare, callee.node_bare,
      Expr.nodes_bareAll arguments]
  | .index _ target position => by
    simp [Expr.bare, Expr.node, Node.bare, Field.bareAll, Field.bare, target.node_bare,
      position.node_bare]
  | .slice _ target start stop step => by
    simp [Expr.bare, Expr.node, Node.bare, Field.bareAll, Field.bare, Field.bareAll_append,
      target.node_bare, Expr.optionalField_bareOption _ start,
      Expr.optionalField_bareOption _ stop, Expr.optionalField_bareOption _ step]
  | .range _ start stop => by
    simp [Expr.bare, Expr.node, Node.bare, Field.bareAll, Field.bare, start.node_bare,
      stop.node_bare]
  | .function _ _ _ body => by
    simp [Expr.bare, Expr.node, Node.bare, Field.bareAll, Field.bare, Field.bareAll_append,
      Field.bareAll_quoted, body.node_bare]

theorem Expr.nodes_bareAll : (es : List Expr) →
    Expr.nodes (Expr.bareAll es) = Node.bareAll (Expr.nodes es)
  | [] => rfl
  | e :: es => by simp [Expr.bareAll, Expr.nodes, Node.bareAll, e.node_bare, Expr.nodes_bareAll es]

theorem Expr.optionalField_bareOption (name : Text) : (o : Option Expr) →
    Expr.optionalField name (Expr.bareOption o) = Field.bareAll (Expr.optionalField name o)
  | none => rfl
  | some e => by
    simp [Expr.bareOption, Expr.optionalField, Field.bareAll, Field.bare, e.node_bare]

theorem Block.node_bare : (b : Block) → b.bare.node = b.node.bare
  | .mk _ statements => by
    simp [Block.bare, Block.node, Node.bare, Field.bareAll, Field.bare,
      Stmt.nodes_bareAll statements]

theorem Simple.node_bare : (s : Simple) → s.bare.node = s.node.bare
  | .expression value => by
    simp [Simple.bare, Simple.node, Node.bare, Field.bareAll, Field.bare, value.node_bare]
  | .declaration _ _ value => by
    simp [Simple.bare, Simple.node, Node.bare, Field.bareAll, Field.bare, value.node_bare]

theorem Simple.optionalField_bareOption (name : Text) : (o : Option Simple) →
    Simple.optionalField name (Simple.bareOption o) = Field.bareAll (Simple.optionalField name o)
  | none => rfl
  | some s => by
    simp [Simple.bareOption, Simple.optionalField, Field.bareAll, Field.bare, s.node_bare]

theorem Stmt.node_bare : (s : Stmt) → s.bare.node = s.node.bare
  | .simple statement => statement.node_bare
  | .conditional chain => chain.node_bare
  | .whileLoop _ condition body => by
    simp [Stmt.bare, Stmt.node, Node.bare, Field.bareAll, Field.bare, condition.node_bare,
      body.node_bare]
  | .forEach _ _ iterable body => by
    simp [Stmt.bare, Stmt.node, Node.bare, Field.bareAll, Field.bare, iterable.node_bare,
      body.node_bare]
  | .counting _ initializer condition step body => by
    simp [Stmt.bare, Stmt.node, Node.bare, Field.bareAll, Field.bare, Field.bareAll_append,
      Simple.optionalField_bareOption _ initializer, Expr.optionalField_bareOption _ condition,
      Expr.optionalField_bareOption _ step, body.node_bare]
  | .returning _ value => by
    simp [Stmt.bare, Stmt.node, Node.bare, Expr.optionalField_bareOption _ value]
  | .breaking _ => rfl
  | .continuing _ => rfl
  | .assertion _ condition _ => by
    simp [Stmt.bare, Stmt.node, Node.bare, Field.bareAll, Field.bare, Field.bareAll_quoted,
      condition.node_bare]

theorem Stmt.nodes_bareAll : (ss : List Stmt) →
    Stmt.nodes (Stmt.bareAll ss) = Node.bareAll (Stmt.nodes ss)
  | [] => rfl
  | s :: ss => by simp [Stmt.bareAll, Stmt.nodes, Node.bareAll, s.node_bare, Stmt.nodes_bareAll ss]

theorem Conditional.node_bare : (c : Conditional) → c.bare.node = c.node.bare
  | .mk _ condition body otherwise => by
    simp [Conditional.bare, Conditional.node, Node.bare, Field.bareAll, Field.bare,
      condition.node_bare, body.node_bare, otherwise.fields_bare]

theorem Otherwise.fields_bare : (o : Otherwise) → o.bare.fields = Field.bareAll o.fields
  | .skip => rfl
  | .block body => by
    simp [Otherwise.bare, Otherwise.fields, Field.bareAll, Field.bare, body.node_bare]
  | .chain next => by
    simp [Otherwise.bare, Otherwise.fields, Field.bareAll, Field.bare, next.node_bare]

end

/-! ### Fields that may be left out -/

/-- A field of a given name, or none. -/
def Field.AtMostOne (name : Text) (fs : List Field) : Prop :=
  fs = [] ∨ ∃ f, f.name = name ∧ fs = [f]

/-- The first of some fields, if there is one, does not have a given name. -/
def Field.StartsWithout (name : Text) (fs : List Field) : Prop := ∀ f ∈ fs.head?, f.name ≠ name

namespace Field

variable {name other : Text} {fs gs xs ys : List Field}

theorem AtMostOne.startsWithout (h : AtMostOne other fs) (hne : other ≠ name)
    (hgs : StartsWithout name gs) : StartsWithout name (fs ++ gs) := by
  rcases h with rfl | ⟨f, rfl, rfl⟩
  · exact hgs
  · rintro g ⟨⟩
    exact hne

theorem startsWithout_cons {f : Field} (h : f.name ≠ name) : StartsWithout name (f :: fs) := by
  rintro g ⟨⟩
  exact h

theorem AtMostOne.startsWithout_alone (h : AtMostOne other fs) (hne : other ≠ name) :
    StartsWithout name fs := by
  rw [← List.append_nil fs]
  exact h.startsWithout hne nofun

/-- A field that may be left out can be told from what stands behind it. -/
theorem AtMostOne.append_inj (hxs : AtMostOne name xs) (hys : AtMostOne name ys)
    (hfs : StartsWithout name fs) (hgs : StartsWithout name gs) (h : xs ++ fs = ys ++ gs) :
    xs = ys ∧ fs = gs := by
  rcases hxs with rfl | ⟨f, hf, rfl⟩ <;> rcases hys with rfl | ⟨g, hg, rfl⟩
  · exact ⟨rfl, h⟩
  · exact absurd hg (hfs g (by rw [show fs = g :: gs from h]; rfl))
  · exact absurd hf (hgs f (by rw [show gs = f :: fs from h.symm]; rfl))
  · obtain ⟨rfl, hrest⟩ := List.cons_eq_cons.1 h
    exact ⟨rfl, hrest⟩

theorem atMostOne_quoted (name : Text) (o : Option Text) :
    AtMostOne name (o.map fun t => Field.entry name t.quoted).toList := by
  cases o with
  | none => exact .inl rfl
  | some t => exact .inr ⟨_, rfl, rfl⟩

theorem quoted_inj {o o' : Option Text}
    (h : (o.map fun t => Field.entry name t.quoted).toList =
      (o'.map fun t => Field.entry name t.quoted).toList) : o = o' := by
  cases o <;> cases o'
  · rfl
  · cases h
  · cases h
  · have hquoted := (List.cons_eq_cons.1 h).1
    rw [Field.entry.injEq] at hquoted
    rw [Text.quoted_inj hquoted.2]

end Field

theorem Expr.atMostOne_optionalField (name : Text) (o : Option Expr) :
    Field.AtMostOne name (Expr.optionalField name o) := by
  cases o with
  | none => exact .inl rfl
  | some e => exact .inr ⟨_, rfl, rfl⟩

theorem Simple.atMostOne_optionalField (name : Text) (o : Option Simple) :
    Field.AtMostOne name (Simple.optionalField name o) := by
  cases o with
  | none => exact .inl rfl
  | some s => exact .inr ⟨_, rfl, rfl⟩

theorem Expr.sliceFields_inj {start start' stop stop' step step' : Option Expr}
    (h : Expr.optionalField "start" start ++ Expr.optionalField "end" stop ++
        Expr.optionalField "step" step =
      Expr.optionalField "start" start' ++ Expr.optionalField "end" stop' ++
        Expr.optionalField "step" step') :
    Expr.optionalField "start" start = Expr.optionalField "start" start' ∧
      Expr.optionalField "end" stop = Expr.optionalField "end" stop' ∧
      Expr.optionalField "step" step = Expr.optionalField "step" step' := by
  have hone := Expr.atMostOne_optionalField
  have hlast : ∀ {name : Text} step, Text.ofString "step" ≠ name →
      Field.StartsWithout name (Expr.optionalField "step" step) := fun step hne =>
    (hone "step" step).startsWithout_alone hne
  rw [List.append_assoc, List.append_assoc] at h
  obtain ⟨hstart, h⟩ := (hone _ start).append_inj (hone _ start')
    ((hone _ stop).startsWithout (by decide) (hlast step (by decide)))
    ((hone _ stop').startsWithout (by decide) (hlast step' (by decide))) h
  exact ⟨hstart, (hone _ stop).append_inj (hone _ stop') (hlast step (by decide))
    (hlast step' (by decide)) h⟩

theorem Stmt.countingFields_inj {initializer initializer' : Option Simple}
    {condition condition' step step' : Option Expr} {body body' : Block}
    (h : Simple.optionalField "initializer" initializer ++
          Expr.optionalField "condition" condition ++ Expr.optionalField "step" step ++
          [.child "body" body.node] =
        Simple.optionalField "initializer" initializer' ++
          Expr.optionalField "condition" condition' ++ Expr.optionalField "step" step' ++
          [.child "body" body'.node]) :
    Simple.optionalField "initializer" initializer =
        Simple.optionalField "initializer" initializer' ∧
      Expr.optionalField "condition" condition = Expr.optionalField "condition" condition' ∧
      Expr.optionalField "step" step = Expr.optionalField "step" step' ∧
      body.node = body'.node := by
  have hone := Expr.atMostOne_optionalField
  have hbody : ∀ {name : Text} (b : Block), Text.ofString "body" ≠ name →
      Field.StartsWithout name [.child "body" b.node] := fun b hne => Field.startsWithout_cons hne
  have hlast : ∀ {name : Text} step (b : Block), Text.ofString "step" ≠ name →
      Text.ofString "body" ≠ name →
      Field.StartsWithout name (Expr.optionalField "step" step ++ [.child "body" b.node]) :=
    fun step b hne hne' => (hone "step" step).startsWithout hne (hbody b hne')
  simp only [List.append_assoc] at h
  obtain ⟨hinitializer, h⟩ := (Simple.atMostOne_optionalField _ initializer).append_inj
    (Simple.atMostOne_optionalField _ initializer')
    ((hone _ condition).startsWithout (by decide) (hlast step body (by decide) (by decide)))
    ((hone _ condition').startsWithout (by decide) (hlast step' body' (by decide) (by decide))) h
  obtain ⟨hcondition, h⟩ := (hone _ condition).append_inj (hone _ condition')
    (hlast step body (by decide) (by decide)) (hlast step' body' (by decide) (by decide)) h
  obtain ⟨hstep, h⟩ := (hone _ step).append_inj (hone _ step') (hbody body (by decide))
    (hbody body' (by decide)) h
  simp only [List.cons.injEq, Field.child.injEq, true_and, and_true] at h
  exact ⟨hinitializer, hcondition, hstep, h⟩

/-! ### Kinds -/

/-- The kind of a node. -/
def Node.kind : Node → Text
  | .leaf kind _ _ => kind
  | .branch kind _ _ => kind

/-- The kinds of the nodes of expressions, in the order of their constructors. -/
def Expr.kinds : List Text :=
  ["Literal", "NothingLiteral", "Identifier", "BinaryOp", "UnaryOp", "Increment", "Assignment",
    "FunctionCall", "IndexAccess", "Slice", "RangeExpr", "FunctionDef"]

/-- The kinds of the nodes of statements, in the order of their constructors. Those of the two
simple statements come first. -/
def Stmt.kinds : List Text :=
  ["ExpressionStatement", "VarDecl", "IfStatement", "WhileStatement", "ForStatement",
    "CountingForStatement", "ReturnStatement", "BreakStatement", "ContinueStatement",
    "AssertStatement"]

theorem Expr.idxOf_kind (e : Expr) : Expr.kinds.idxOf e.node.kind = e.ctorIdx := by
  cases e <;> rfl

theorem Expr.ctorIdx_of_node {e e' : Expr} (h : e.node = e'.node) : e.ctorIdx = e'.ctorIdx := by
  rw [← e.idxOf_kind, h, e'.idxOf_kind]

theorem Simple.idxOf_kind (s : Simple) : Stmt.kinds.idxOf s.node.kind = s.ctorIdx := by
  cases s <;> rfl

theorem Simple.ctorIdx_of_node {s s' : Simple} (h : s.node = s'.node) :
    s.ctorIdx = s'.ctorIdx := by
  rw [← s.idxOf_kind, h, s'.idxOf_kind]

theorem Stmt.idxOf_kind (s : Stmt) : Stmt.kinds.idxOf s.node.kind - 1 = s.ctorIdx := by
  cases s with
  | simple s => cases s <;> rfl
  | conditional c => cases c; rfl
  | _ => rfl

theorem Stmt.ctorIdx_of_node {s s' : Stmt} (h : s.node = s'.node) : s.ctorIdx = s'.ctorIdx := by
  rw [← s.idxOf_kind, h, s'.idxOf_kind]

theorem BinaryOperator.kindName_inj {op op' : BinaryOperator} (h : op.kindName = op'.kindName) :
    op = op' := by
  revert h
  cases op <;> cases op' <;> decide

theorem UnaryOperator.kindName_inj {op op' : UnaryOperator} (h : op.kindName = op'.kindName) :
    op = op' := by
  revert h
  cases op <;> cases op' <;> decide

theorem Identifier.node_inj {i i' : Identifier} (h : i.node = i'.node) : i = i' := by
  obtain ⟨span, name⟩ := i
  obtain ⟨span', name'⟩ := i'
  simp only [Identifier.node, Node.leaf.injEq, true_and] at h
  obtain ⟨rfl, rfl⟩ := h
  rfl

theorem map_quoted_inj {ts us : List Text} (h : ts.map Text.quoted = us.map Text.quoted) :
    ts = us :=
  List.map_inj_right (fun _ _ => Text.quoted_inj) |>.1 h

/-! ### What a node tells of a tree

The kind leaves one constructor for the other tree, and then the fields agree one by one. -/

section Node

variable {e' : Expr} {s' : Stmt} {span : Span}

theorem Expr.binary_of_node {op : BinaryOperator} {left right : Expr}
    (h : (Expr.binary span op left right).node = e'.node) :
    ∃ left' right', e' = .binary span op left' right' ∧ left.node = left'.node ∧
      right.node = right'.node := by
  have hidx := Expr.ctorIdx_of_node h
  cases e' with
  | binary span' op' left' right' =>
    simp only [Expr.node, Node.branch.injEq, List.cons.injEq, Field.child.injEq,
      Field.entry.injEq, true_and, and_true] at h
    obtain ⟨rfl, hleft, hop, hright⟩ := h
    cases BinaryOperator.kindName_inj hop
    exact ⟨left', right', rfl, hleft, hright⟩
  | _ => cases hidx

theorem Expr.unary_of_node {op : UnaryOperator} {operand : Expr}
    (h : (Expr.unary span op operand).node = e'.node) :
    ∃ operand', e' = .unary span op operand' ∧ operand.node = operand'.node := by
  have hidx := Expr.ctorIdx_of_node h
  cases e' with
  | unary span' op' operand' =>
    simp only [Expr.node, Node.branch.injEq, List.cons.injEq, Field.child.injEq,
      Field.entry.injEq, true_and, and_true] at h
    obtain ⟨rfl, hop, hoperand⟩ := h
    cases UnaryOperator.kindName_inj hop
    exact ⟨operand', rfl, hoperand⟩
  | _ => cases hidx

theorem Expr.increment_of_node {direction : Direction} {side : Side} {target : Identifier}
    (h : (Expr.increment span direction side target).node = e'.node) :
    e' = .increment span direction side target := by
  have hidx := Expr.ctorIdx_of_node h
  cases e' with
  | increment span' direction' side' target' =>
    simp only [Expr.node, Node.branch.injEq, List.cons.injEq, Field.child.injEq,
      Field.entry.injEq, true_and, and_true] at h
    obtain ⟨rfl, htarget, hdirection, hside⟩ := h
    obtain rfl : direction = direction' := by
      cases direction <;> cases direction' <;> first | rfl | exact absurd hdirection (by decide)
    obtain rfl : side = side' := by
      cases side <;> cases side' <;> first | rfl | exact absurd hside (by decide)
    rw [Identifier.node_inj htarget]
  | _ => cases hidx

theorem Expr.assignment_of_node {target : Identifier} {value : Expr}
    (h : (Expr.assignment span target value).node = e'.node) :
    ∃ value', e' = .assignment span target value' ∧ value.node = value'.node := by
  have hidx := Expr.ctorIdx_of_node h
  cases e' with
  | assignment span' target' value' =>
    simp only [Expr.node, Node.branch.injEq, List.cons.injEq, Field.child.injEq, true_and,
      and_true] at h
    obtain ⟨rfl, htarget, hvalue⟩ := h
    cases Identifier.node_inj htarget
    exact ⟨value', rfl, hvalue⟩
  | _ => cases hidx

theorem Expr.call_of_node {callee : Expr} {arguments : List Expr}
    (h : (Expr.call span callee arguments).node = e'.node) :
    ∃ callee' arguments', e' = .call span callee' arguments' ∧ callee.node = callee'.node ∧
      Expr.nodes arguments = Expr.nodes arguments' := by
  have hidx := Expr.ctorIdx_of_node h
  cases e' with
  | call span' callee' arguments' =>
    simp only [Expr.node, Node.branch.injEq, List.cons.injEq, Field.child.injEq,
      Field.children.injEq, true_and, and_true] at h
    obtain ⟨rfl, hcallee, harguments⟩ := h
    exact ⟨callee', arguments', rfl, hcallee, harguments⟩
  | _ => cases hidx

theorem Expr.index_of_node {target position : Expr}
    (h : (Expr.index span target position).node = e'.node) :
    ∃ target' position', e' = .index span target' position' ∧ target.node = target'.node ∧
      position.node = position'.node := by
  have hidx := Expr.ctorIdx_of_node h
  cases e' with
  | index span' target' position' =>
    simp only [Expr.node, Node.branch.injEq, List.cons.injEq, Field.child.injEq, true_and,
      and_true] at h
    obtain ⟨rfl, htarget, hposition⟩ := h
    exact ⟨target', position', rfl, htarget, hposition⟩
  | _ => cases hidx

theorem Expr.slice_of_node {target : Expr} {start stop step : Option Expr}
    (h : (Expr.slice span target start stop step).node = e'.node) :
    ∃ target' start' stop' step', e' = .slice span target' start' stop' step' ∧
      target.node = target'.node ∧
      Expr.optionalField "start" start = Expr.optionalField "start" start' ∧
      Expr.optionalField "end" stop = Expr.optionalField "end" stop' ∧
      Expr.optionalField "step" step = Expr.optionalField "step" step' := by
  have hidx := Expr.ctorIdx_of_node h
  cases e' with
  | slice span' target' start' stop' step' =>
    simp only [Expr.node, Node.branch.injEq, List.cons.injEq, Field.child.injEq, true_and] at h
    obtain ⟨rfl, htarget, hfields⟩ := h
    exact ⟨target', start', stop', step', rfl, htarget, Expr.sliceFields_inj hfields⟩
  | _ => cases hidx

theorem Expr.range_of_node {start stop : Expr}
    (h : (Expr.range span start stop).node = e'.node) :
    ∃ start' stop', e' = .range span start' stop' ∧ start.node = start'.node ∧
      stop.node = stop'.node := by
  have hidx := Expr.ctorIdx_of_node h
  cases e' with
  | range span' start' stop' =>
    simp only [Expr.node, Node.branch.injEq, List.cons.injEq, Field.child.injEq, true_and,
      and_true] at h
    obtain ⟨rfl, hstart, hstop⟩ := h
    exact ⟨start', stop', rfl, hstart, hstop⟩
  | _ => cases hidx

theorem Expr.function_of_node {name : Option Text} {parameters : List Text} {body : Block}
    (h : (Expr.function span name parameters body).node = e'.node) :
    ∃ body', e' = .function span name parameters body' ∧ body.node = body'.node := by
  have hidx := Expr.ctorIdx_of_node h
  cases e' with
  | function span' name' parameters' body' =>
    simp only [Expr.node, Node.branch.injEq, true_and] at h
    obtain ⟨rfl, hfields⟩ := h
    -- a name that is left out does not take the first of the other fields for one
    have hrest : ∀ texts f, Field.StartsWithout "name" [.entries "parameters" texts, f] :=
      fun _ _ => Field.startsWithout_cons (show Text.ofString "parameters" ≠ "name" by decide)
    obtain ⟨hname, hothers⟩ := (Field.atMostOne_quoted _ name).append_inj
      (Field.atMostOne_quoted _ name') (hrest _ _) (hrest _ _) hfields
    simp only [List.cons.injEq, Field.entries.injEq, Field.child.injEq, true_and,
      and_true] at hothers
    obtain ⟨hparameters, hbody⟩ := hothers
    cases Field.quoted_inj hname
    cases map_quoted_inj hparameters
    exact ⟨body', rfl, hbody⟩
  | _ => cases hidx

theorem Stmt.whileLoop_of_node {condition : Expr} {body : Block}
    (h : (Stmt.whileLoop span condition body).node = s'.node) :
    ∃ condition' body', s' = .whileLoop span condition' body' ∧
      condition.node = condition'.node ∧ body.node = body'.node := by
  have hidx := Stmt.ctorIdx_of_node h
  cases s' with
  | whileLoop span' condition' body' =>
    simp only [Stmt.node, Node.branch.injEq, List.cons.injEq, Field.child.injEq, true_and,
      and_true] at h
    obtain ⟨rfl, hcondition, hbody⟩ := h
    exact ⟨condition', body', rfl, hcondition, hbody⟩
  | _ => cases hidx

theorem Stmt.forEach_of_node {item : Text} {iterable : Expr} {body : Block}
    (h : (Stmt.forEach span item iterable body).node = s'.node) :
    ∃ iterable' body', s' = .forEach span item iterable' body' ∧
      iterable.node = iterable'.node ∧ body.node = body'.node := by
  have hidx := Stmt.ctorIdx_of_node h
  cases s' with
  | forEach span' item' iterable' body' =>
    simp only [Stmt.node, Node.branch.injEq, List.cons.injEq, Field.child.injEq,
      Field.entry.injEq, true_and, and_true] at h
    obtain ⟨rfl, hitem, hiterable, hbody⟩ := h
    cases Text.quoted_inj hitem
    exact ⟨iterable', body', rfl, hiterable, hbody⟩
  | _ => cases hidx

theorem Stmt.counting_of_node {initializer : Option Simple} {condition step : Option Expr}
    {body : Block} (h : (Stmt.counting span initializer condition step body).node = s'.node) :
    ∃ initializer' condition' step' body',
      s' = .counting span initializer' condition' step' body' ∧
      Simple.optionalField "initializer" initializer =
        Simple.optionalField "initializer" initializer' ∧
      Expr.optionalField "condition" condition = Expr.optionalField "condition" condition' ∧
      Expr.optionalField "step" step = Expr.optionalField "step" step' ∧
      body.node = body'.node := by
  have hidx := Stmt.ctorIdx_of_node h
  cases s' with
  | counting span' initializer' condition' step' body' =>
    simp only [Stmt.node, Node.branch.injEq, true_and] at h
    obtain ⟨rfl, hfields⟩ := h
    exact ⟨initializer', condition', step', body', rfl, Stmt.countingFields_inj hfields⟩
  | _ => cases hidx

theorem Stmt.returning_of_node {value : Option Expr}
    (h : (Stmt.returning span value).node = s'.node) :
    ∃ value', s' = .returning span value' ∧
      Expr.optionalField "value" value = Expr.optionalField "value" value' := by
  have hidx := Stmt.ctorIdx_of_node h
  cases s' with
  | returning span' value' =>
    simp only [Stmt.node, Node.branch.injEq, true_and] at h
    obtain ⟨rfl, hvalue⟩ := h
    exact ⟨value', rfl, hvalue⟩
  | _ => cases hidx

theorem Stmt.assertion_of_node {condition : Expr} {message : Option Text}
    (h : (Stmt.assertion span condition message).node = s'.node) :
    ∃ condition', s' = .assertion span condition' message ∧
      condition.node = condition'.node := by
  have hidx := Stmt.ctorIdx_of_node h
  cases s' with
  | assertion span' condition' message' =>
    simp only [Stmt.node, Node.branch.injEq, List.cons.injEq, Field.child.injEq, true_and] at h
    obtain ⟨rfl, hcondition, hmessage⟩ := h
    cases Field.quoted_inj hmessage
    exact ⟨condition', rfl, hcondition⟩
  | _ => cases hidx

end Node

/-! ### Trees -/

mutual

/-- A legible expression can be told from its node. -/
theorem Expr.node_inj : (e e' : Expr) → Within Part.Legible e.parts →
    Within Part.Legible e'.parts → e.node = e'.node → e = e'
  | .literal span value, e', hl, hl', h => by
    have hidx := Expr.ctorIdx_of_node h
    cases e' with
    | literal span' value' =>
      simp only [Expr.node, Node.leaf.injEq, true_and] at h
      obtain ⟨rfl, hcaption⟩ := h
      rw [Literal.caption_inj (Part.legible_literal hl) (Part.legible_literal hl') hcaption]
    | _ => cases hidx
  | .nothing span, e', _, _, h => by
    have hidx := Expr.ctorIdx_of_node h
    cases e' with
    | nothing span' =>
      simp only [Expr.node, Node.branch.injEq, true_and, and_true] at h
      rw [h]
    | _ => cases hidx
  | .identifier name, e', _, _, h => by
    have hidx := Expr.ctorIdx_of_node h
    cases e' with
    | identifier name' => rw [Identifier.node_inj h]
    | _ => cases hidx
  | .binary span op left right, e', hl, hl', h => by
    obtain ⟨left', right', rfl, h₁, h₂⟩ := Expr.binary_of_node h
    obtain ⟨hleft, hright⟩ := within_append.1 (within_cons.1 hl).2
    obtain ⟨hleft', hright'⟩ := within_append.1 (within_cons.1 hl').2
    rw [left.node_inj left' hleft hleft' h₁, right.node_inj right' hright hright' h₂]
  | .unary span op operand, e', hl, hl', h => by
    obtain ⟨operand', rfl, h₁⟩ := Expr.unary_of_node h
    rw [operand.node_inj operand' (within_cons.1 hl).2 (within_cons.1 hl').2 h₁]
  | .increment span direction side target, e', _, _, h => (Expr.increment_of_node h).symm
  | .assignment span target value, e', hl, hl', h => by
    obtain ⟨value', rfl, h₁⟩ := Expr.assignment_of_node h
    rw [value.node_inj value' (within_cons.1 hl).2 (within_cons.1 hl').2 h₁]
  | .call span callee arguments, e', hl, hl', h => by
    obtain ⟨callee', arguments', rfl, h₁, h₂⟩ := Expr.call_of_node h
    obtain ⟨hcallee, harguments⟩ := within_append.1 (within_cons.1 hl).2
    obtain ⟨hcallee', harguments'⟩ := within_append.1 (within_cons.1 hl').2
    rw [callee.node_inj callee' hcallee hcallee' h₁,
      Expr.nodes_inj arguments arguments' harguments harguments' h₂]
  | .index span target position, e', hl, hl', h => by
    obtain ⟨target', position', rfl, h₁, h₂⟩ := Expr.index_of_node h
    obtain ⟨htarget, hposition⟩ := within_append.1 (within_cons.1 hl).2
    obtain ⟨htarget', hposition'⟩ := within_append.1 (within_cons.1 hl').2
    rw [target.node_inj target' htarget htarget' h₁,
      position.node_inj position' hposition hposition' h₂]
  | .slice span target start stop step, e', hl, hl', h => by
    obtain ⟨target', start', stop', step', rfl, h₁, h₂, h₃, h₄⟩ := Expr.slice_of_node h
    obtain ⟨hl, hstep⟩ := within_append.1 (within_cons.1 hl).2
    obtain ⟨hl, hstop⟩ := within_append.1 hl
    obtain ⟨htarget, hstart⟩ := within_append.1 hl
    obtain ⟨hl', hstep'⟩ := within_append.1 (within_cons.1 hl').2
    obtain ⟨hl', hstop'⟩ := within_append.1 hl'
    obtain ⟨htarget', hstart'⟩ := within_append.1 hl'
    rw [target.node_inj target' htarget htarget' h₁,
      Expr.optionalField_inj start start' hstart hstart' h₂,
      Expr.optionalField_inj stop stop' hstop hstop' h₃,
      Expr.optionalField_inj step step' hstep hstep' h₄]
  | .range span start stop, e', hl, hl', h => by
    obtain ⟨start', stop', rfl, h₁, h₂⟩ := Expr.range_of_node h
    obtain ⟨hstart, hstop⟩ := within_append.1 (within_cons.1 hl).2
    obtain ⟨hstart', hstop'⟩ := within_append.1 (within_cons.1 hl').2
    rw [start.node_inj start' hstart hstart' h₁, stop.node_inj stop' hstop hstop' h₂]
  | .function span name parameters body, e', hl, hl', h => by
    obtain ⟨body', rfl, h₁⟩ := Expr.function_of_node h
    rw [body.node_inj body' (within_cons.1 hl).2 (within_cons.1 hl').2 h₁]
termination_by structural x => x

theorem Expr.nodes_inj : (es es' : List Expr) → Within Part.Legible (Expr.partsAll es) →
    Within Part.Legible (Expr.partsAll es') → Expr.nodes es = Expr.nodes es' → es = es'
  | [], [], _, _, _ => rfl
  | [], _ :: _, _, _, h => nomatch h
  | _ :: _, [], _, _, h => nomatch h
  | e :: es, e' :: es', hl, hl', h => by
    obtain ⟨hhead, htail⟩ := List.cons_eq_cons.1 h
    rw [e.node_inj e' (within_append.1 hl).1 (within_append.1 hl').1 hhead,
      Expr.nodes_inj es es' (within_append.1 hl).2 (within_append.1 hl').2 htail]
termination_by structural x => x

theorem Expr.optionalField_inj {name : Text} : (o o' : Option Expr) →
    Within Part.Legible (Expr.partsOption o) → Within Part.Legible (Expr.partsOption o') →
      Expr.optionalField name o = Expr.optionalField name o' → o = o'
  | none, none, _, _, _ => rfl
  | none, some _, _, _, h => nomatch h
  | some _, none, _, _, h => nomatch h
  | some e, some e', hl, hl', h => by
    simp only [Expr.optionalField, List.cons.injEq, Field.child.injEq, true_and, and_true] at h
    rw [e.node_inj e' hl hl' h]
termination_by structural x => x

/-- A legible block can be told from its node. -/
theorem Block.node_inj : (b b' : Block) → Within Part.Legible b.parts →
    Within Part.Legible b'.parts → b.node = b'.node → b = b'
  | .mk span statements, .mk span' statements', hl, hl', h => by
    simp only [Block.node, Node.branch.injEq, List.cons.injEq, Field.children.injEq, true_and,
      and_true] at h
    obtain ⟨rfl, h₁⟩ := h
    rw [Stmt.nodes_inj statements statements' hl hl' h₁]
termination_by structural x => x

theorem Simple.node_inj : (s s' : Simple) → Within Part.Legible s.parts →
    Within Part.Legible s'.parts → s.node = s'.node → s = s'
  | .expression value, s', hl, hl', h => by
    have hidx := Simple.ctorIdx_of_node h
    cases s' with
    | expression value' =>
      simp only [Simple.node, Node.branch.injEq, List.cons.injEq, Field.child.injEq, true_and,
        and_true] at h
      rw [value.node_inj value' (within_cons.1 hl).2 (within_cons.1 hl').2 h.2]
    | declaration span' name' value' => cases hidx
  | .declaration span name value, s', hl, hl', h => by
    have hidx := Simple.ctorIdx_of_node h
    cases s' with
    | expression value' => cases hidx
    | declaration span' name' value' =>
      simp only [Simple.node, Node.branch.injEq, List.cons.injEq, Field.child.injEq,
        Field.entry.injEq, true_and, and_true] at h
      obtain ⟨rfl, hname, h₁⟩ := h
      rw [Text.quoted_inj hname,
        value.node_inj value' (within_cons.1 hl).2 (within_cons.1 hl').2 h₁]
termination_by structural x => x

theorem Simple.optionalField_inj {name : Text} : (o o' : Option Simple) →
    Within Part.Legible (Simple.partsOption o) → Within Part.Legible (Simple.partsOption o') →
      Simple.optionalField name o = Simple.optionalField name o' → o = o'
  | none, none, _, _, _ => rfl
  | none, some _, _, _, h => nomatch h
  | some _, none, _, _, h => nomatch h
  | some s, some s', hl, hl', h => by
    simp only [Simple.optionalField, List.cons.injEq, Field.child.injEq, true_and, and_true] at h
    rw [s.node_inj s' hl hl' h]
termination_by structural x => x

theorem Stmt.node_inj : (s s' : Stmt) → Within Part.Legible s.parts →
    Within Part.Legible s'.parts → s.node = s'.node → s = s'
  | .simple statement, s', hl, hl', h => by
    have hidx := Stmt.ctorIdx_of_node h
    cases s' with
    | simple statement' => rw [statement.node_inj statement' hl hl' h]
    | _ => cases hidx
  | .conditional chain, s', hl, hl', h => by
    have hidx := Stmt.ctorIdx_of_node h
    cases s' with
    | conditional chain' => rw [chain.node_inj chain' hl hl' h]
    | _ => cases hidx
  | .whileLoop span condition body, s', hl, hl', h => by
    obtain ⟨condition', body', rfl, h₁, h₂⟩ := Stmt.whileLoop_of_node h
    obtain ⟨hcondition, hbody⟩ := within_append.1 (within_cons.1 hl).2
    obtain ⟨hcondition', hbody'⟩ := within_append.1 (within_cons.1 hl').2
    rw [condition.node_inj condition' hcondition hcondition' h₁,
      body.node_inj body' hbody hbody' h₂]
  | .forEach span item iterable body, s', hl, hl', h => by
    obtain ⟨iterable', body', rfl, h₁, h₂⟩ := Stmt.forEach_of_node h
    obtain ⟨hiterable, hbody⟩ := within_append.1 (within_cons.1 hl).2
    obtain ⟨hiterable', hbody'⟩ := within_append.1 (within_cons.1 hl').2
    rw [iterable.node_inj iterable' hiterable hiterable' h₁, body.node_inj body' hbody hbody' h₂]
  | .counting span initializer condition step body, s', hl, hl', h => by
    obtain ⟨initializer', condition', step', body', rfl, h₁, h₂, h₃, h₄⟩ := Stmt.counting_of_node h
    obtain ⟨hl, hbody⟩ := within_append.1 (within_cons.1 hl).2
    obtain ⟨hl, hstep⟩ := within_append.1 hl
    obtain ⟨hinitializer, hcondition⟩ := within_append.1 hl
    obtain ⟨hl', hbody'⟩ := within_append.1 (within_cons.1 hl').2
    obtain ⟨hl', hstep'⟩ := within_append.1 hl'
    obtain ⟨hinitializer', hcondition'⟩ := within_append.1 hl'
    rw [Simple.optionalField_inj initializer initializer' hinitializer hinitializer' h₁,
      Expr.optionalField_inj condition condition' hcondition hcondition' h₂,
      Expr.optionalField_inj step step' hstep hstep' h₃, body.node_inj body' hbody hbody' h₄]
  | .returning span value, s', hl, hl', h => by
    obtain ⟨value', rfl, h₁⟩ := Stmt.returning_of_node h
    rw [Expr.optionalField_inj value value' (within_cons.1 hl).2 (within_cons.1 hl').2 h₁]
  | .breaking span, s', _, _, h => by
    have hidx := Stmt.ctorIdx_of_node h
    cases s' with
    | breaking span' =>
      simp only [Stmt.node, Node.branch.injEq, true_and, and_true] at h
      rw [h]
    | _ => cases hidx
  | .continuing span, s', _, _, h => by
    have hidx := Stmt.ctorIdx_of_node h
    cases s' with
    | continuing span' =>
      simp only [Stmt.node, Node.branch.injEq, true_and, and_true] at h
      rw [h]
    | _ => cases hidx
  | .assertion span condition message, s', hl, hl', h => by
    obtain ⟨condition', rfl, h₁⟩ := Stmt.assertion_of_node h
    rw [condition.node_inj condition' (within_cons.1 hl).2 (within_cons.1 hl').2 h₁]
termination_by structural x => x

theorem Stmt.nodes_inj : (ss ss' : List Stmt) → Within Part.Legible (Stmt.partsAll ss) →
    Within Part.Legible (Stmt.partsAll ss') → Stmt.nodes ss = Stmt.nodes ss' → ss = ss'
  | [], [], _, _, _ => rfl
  | [], _ :: _, _, _, h => nomatch h
  | _ :: _, [], _, _, h => nomatch h
  | s :: ss, s' :: ss', hl, hl', h => by
    obtain ⟨hhead, htail⟩ := List.cons_eq_cons.1 h
    rw [s.node_inj s' (within_append.1 hl).1 (within_append.1 hl').1 hhead,
      Stmt.nodes_inj ss ss' (within_append.1 hl).2 (within_append.1 hl').2 htail]
termination_by structural x => x

theorem Conditional.node_inj : (c c' : Conditional) → Within Part.Legible c.parts →
    Within Part.Legible c'.parts → c.node = c'.node → c = c'
  | .mk span condition body otherwise, .mk span' condition' body' otherwise', hl, hl', h => by
    obtain ⟨hl, hotherwise⟩ := within_append.1 (within_cons.1 hl).2
    obtain ⟨hcondition, hbody⟩ := within_append.1 hl
    obtain ⟨hl', hotherwise'⟩ := within_append.1 (within_cons.1 hl').2
    obtain ⟨hcondition', hbody'⟩ := within_append.1 hl'
    simp only [Conditional.node, Node.branch.injEq, List.cons_append, List.nil_append,
      List.cons.injEq, Field.child.injEq, true_and] at h
    obtain ⟨rfl, h₁, h₂, h₃⟩ := h
    rw [condition.node_inj condition' hcondition hcondition' h₁,
      body.node_inj body' hbody hbody' h₂,
      otherwise.fields_inj otherwise' hotherwise hotherwise' h₃]
termination_by structural x => x

theorem Otherwise.fields_inj : (o o' : Otherwise) → Within Part.Legible o.parts →
    Within Part.Legible o'.parts → o.fields = o'.fields → o = o'
  | .skip, .skip, _, _, _ => rfl
  | .skip, .block _, _, _, h => nomatch h
  | .skip, .chain _, _, _, h => nomatch h
  | .block _, .skip, _, _, h => nomatch h
  | .chain _, .skip, _, _, h => nomatch h
  | .block body, .block body', hl, hl', h => by
    simp only [Otherwise.fields, List.cons.injEq, Field.child.injEq, true_and, and_true] at h
    rw [body.node_inj body' hl hl' h]
  -- one field name serves both, so here only the kinds of the nodes differ
  | .block (.mk _ _), .chain (.mk _ _ _ _), _, _, h => by
    simp only [Otherwise.fields, List.cons.injEq, Field.child.injEq, true_and, and_true] at h
    exact absurd (congrArg Node.kind h) (show Text.ofString "Block" ≠ "IfStatement" by decide)
  | .chain (.mk _ _ _ _), .block (.mk _ _), _, _, h => by
    simp only [Otherwise.fields, List.cons.injEq, Field.child.injEq, true_and, and_true] at h
    exact absurd (congrArg Node.kind h) (show Text.ofString "IfStatement" ≠ "Block" by decide)
  | .chain next, .chain next', hl, hl', h => by
    simp only [Otherwise.fields, List.cons.injEq, Field.child.injEq, true_and, and_true] at h
    rw [next.node_inj next' hl hl' h]
termination_by structural x => x

end

/-- Up to spans, a legible tree is what its outline shows. -/
theorem Block.outline_eq_iff {b b' : Block} (hb : Within Part.Legible b.parts)
    (hb' : Within Part.Legible b'.parts) : b.outline = b'.outline ↔ b.bare = b'.bare := by
  constructor
  · intro h
    have hnodes : b.node.bare = b'.node.bare :=
      Node.outline_inj (b.node_outlinable hb) (b'.node_outlinable hb') h
    rw [← b.node_bare, ← b'.node_bare] at hnodes
    exact Block.node_inj b.bare b'.bare (Block.within_legible_bare hb)
      (Block.within_legible_bare hb') hnodes
  · intro h
    rw [Block.outline, Block.outline, ← b.node.outline_bare, ← b'.node.outline_bare,
      ← b.node_bare, ← b'.node_bare, h]

end ScriptLang
