import ScriptLang.Proofs.Grammar.Restate
import ScriptLang.Proofs.Tree.Part

/-!
# The names that statements declare

A declaration declares its name and so does a definition, under decorators or not; no other
statement declares one (`Stmt.declared?`). The names that code can bind in the scope in which it
runs are read off the tree (`Stmt.binds`): bodies and the headers of counting loops have scopes
of their own. In a program the two agree (`Stmt.Regular.binds_eq`), as a definition stands
nowhere but where a statement does.
-/

namespace ScriptLang

/-- The name that a statement declares: a declaration, or a definition under any number of
decorators. -/
def Stmt.declared? : Stmt → Option Text
  | .simple (.declaration _ name _) => some name
  | .simple (.expression (.function _ name _ _)) => name
  | .simple (.expression (.assignment _ target value)) =>
    if value.defines then some target.name else none
  | _ => none

mutual

/-- The names that an expression can bind in the scope in which it runs. -/
def Expr.binds : Expr → List Text
  | .literal _ _ => []
  | .nothing _ => []
  | .identifier _ => []
  | .binary _ _ left right => left.binds ++ right.binds
  | .unary _ _ operand => operand.binds
  | .increment _ _ _ _ => []
  | .assignment _ _ value => value.binds
  | .call _ callee arguments => callee.binds ++ Expr.bindsAll arguments
  | .index _ target position => target.binds ++ position.binds
  | .slice _ target start stop step =>
    target.binds ++ Expr.bindsOption start ++ Expr.bindsOption stop ++ Expr.bindsOption step
  | .range _ start stop => start.binds ++ stop.binds
  | .function _ name _ _ => name.toList

def Expr.bindsAll : List Expr → List Text
  | [] => []
  | e :: es => e.binds ++ Expr.bindsAll es

def Expr.bindsOption : Option Expr → List Text
  | none => []
  | some e => e.binds

end

mutual

def Conditional.binds : Conditional → List Text
  | .mk _ condition _ otherwise => condition.binds ++ otherwise.binds

def Otherwise.binds : Otherwise → List Text
  | .skip => []
  | .block _ => []
  | .chain next => next.binds

end

def Simple.binds : Simple → List Text
  | .expression value => value.binds
  | .declaration _ name value => name :: value.binds

def Stmt.binds : Stmt → List Text
  | .simple statement => statement.binds
  | .conditional chain => chain.binds
  | .whileLoop _ condition _ => condition.binds
  | .forEach _ _ iterable _ => iterable.binds
  | .counting _ _ _ _ _ => []
  | .returning _ value => Expr.bindsOption value
  | .breaking _ => []
  | .continuing _ => []
  | .assertion _ condition _ => condition.binds

/-! ### Names in regular trees -/

mutual

theorem Expr.Regular.binds_eq : {e : Expr} → e.Regular → e.binds = []
  | .literal _ _, _ => rfl
  | .nothing _, _ => rfl
  | .identifier _, _ => rfl
  | .binary _ _ _ _, h => by rw [Expr.binds, binds_eq h.1, binds_eq h.2]; rfl
  | .unary _ _ operand, h => binds_eq (e := operand) h
  | .increment _ _ _ _, _ => rfl
  | .assignment _ _ value, h => binds_eq (e := value) h
  | .call _ _ _, h => by rw [Expr.binds, binds_eq h.1, bindsAll_eq h.2]; rfl
  | .index _ _ _, h => by rw [Expr.binds, binds_eq h.1, binds_eq h.2]; rfl
  | .slice _ _ _ _ _, h => by
    rw [Expr.binds, binds_eq h.1, bindsOption_eq h.2.1, bindsOption_eq h.2.2.1,
      bindsOption_eq h.2.2.2]
    rfl
  | .range _ _ _, h => by rw [Expr.binds, binds_eq h.1, binds_eq h.2]; rfl
  | .function _ name _ _, h => by rw [Expr.binds, h.1]; rfl

theorem Expr.Regular.bindsAll_eq : {es : List Expr} → Expr.RegularAll es → Expr.bindsAll es = []
  | [], _ => rfl
  | _ :: _, h => by rw [Expr.bindsAll, binds_eq h.1, bindsAll_eq h.2]; rfl

theorem Expr.Regular.bindsOption_eq :
    {e : Option Expr} → Expr.RegularOption e → Expr.bindsOption e = []
  | none, _ => rfl
  | some e, h => binds_eq (e := e) h

end

theorem Expr.Defines.binds_eq {name : Text} : {e : Expr} → e.Defines name → e.binds = [name]
  | .function _ (some _) _ _, h => by rw [Expr.binds, h.1]; rfl
  | .call _ _ [_], h => by
    rw [Expr.binds, h.1.binds_eq, Expr.bindsAll, Expr.bindsAll, Expr.Defines.binds_eq h.2]
    rfl

mutual

theorem Conditional.Regular.binds_eq : {c : Conditional} → c.Regular → c.binds = []
  | .mk _ _ _ _, h => by rw [Conditional.binds, h.1.binds_eq, Otherwise.Regular.binds_eq h.2.2]; rfl

theorem Otherwise.Regular.binds_eq : {o : Otherwise} → o.Regular → o.binds = []
  | .skip, _ => rfl
  | .block _, _ => rfl
  | .chain next, h => Conditional.Regular.binds_eq (c := next) h

end

/-- A statement of a program can bind the name that it declares, and no other. -/
theorem Stmt.Regular.binds_eq {x : Stmt} (h : x.Regular) : x.binds = x.declared?.toList := by
  cases x with
  | simple statement =>
    cases statement with
    | declaration span name value =>
      have hvalue : value.Regular := h.resolve_right id
      rw [Stmt.binds, Simple.binds, hvalue.binds_eq]
      rfl
    | expression value =>
      rw [Stmt.binds, Simple.binds]
      rcases h with h | h
      · have hvalue : value.Regular := h
        rw [hvalue.binds_eq]
        cases value with
        | function span name parameters body => rw [Stmt.declared?, h.1]; rfl
        | assignment span target value =>
          have hdefines := Expr.Regular.not_defines (e := value) h
          rw [Stmt.declared?, if_neg (by rw [hdefines]; simp)]
          rfl
        | _ => rfl
      · unfold Simple.Defining at h
        split at h
        · next heq => cases heq; rfl
        · next span target callSpan decorator value heq =>
          cases heq
          have hdefines : (Expr.call callSpan decorator [value]).Defines target.name := h
          rw [Expr.binds, hdefines.binds_eq, Stmt.declared?, if_pos hdefines.defines]
          rfl
        · exact h.elim
  | conditional chain => exact Conditional.Regular.binds_eq (c := chain) h
  | whileLoop span condition body => exact h.1.binds_eq
  | forEach span item iterable body => exact h.1.binds_eq
  | counting => rfl
  | returning span value => exact Expr.Regular.bindsOption_eq h
  | breaking => rfl
  | continuing => rfl
  | assertion span condition message => exact Expr.Regular.binds_eq (e := condition) h

/-! ### Parts of regular trees -/

/-- A part that is no statement, or one of the shapes that statements are read as. -/
def Part.Regular : Part → Prop
  | .expression _ => True
  | .statement s => s.Regular

theorem Stmt.within_parts {x : Stmt} {l : List Part} (hx : x.Regular)
    (hl : Within Part.Regular l) : Within Part.Regular (.statement x :: l) :=
  within_cons.2 ⟨hx, hl⟩

theorem Expr.within_parts {e : Expr} {l : List Part} (hl : Within Part.Regular l) :
    Within Part.Regular (.expression e :: l) :=
  within_cons.2 ⟨trivial, hl⟩

mutual

theorem Expr.Regular.within : {e : Expr} → e.Regular → Within Part.Regular e.parts
  | .literal _ _, _ => Expr.within_parts within_nil
  | .nothing _, _ => Expr.within_parts within_nil
  | .identifier _, _ => Expr.within_parts within_nil
  | .binary _ _ _ _, h =>
    Expr.within_parts (within_append.2 ⟨Expr.Regular.within h.1, Expr.Regular.within h.2⟩)
  | .unary _ _ operand, h => Expr.within_parts (Expr.Regular.within (e := operand) h)
  | .increment _ _ _ _, _ => Expr.within_parts within_nil
  | .assignment _ _ value, h => Expr.within_parts (Expr.Regular.within (e := value) h)
  | .call _ _ _, h =>
    Expr.within_parts (within_append.2 ⟨Expr.Regular.within h.1, Expr.Regular.withinAll h.2⟩)
  | .index _ _ _, h =>
    Expr.within_parts (within_append.2 ⟨Expr.Regular.within h.1, Expr.Regular.within h.2⟩)
  | .slice _ _ _ _ _, h =>
    Expr.within_parts (within_append.2 ⟨within_append.2 ⟨within_append.2
      ⟨Expr.Regular.within h.1, Expr.Regular.withinOption h.2.1⟩,
      Expr.Regular.withinOption h.2.2.1⟩, Expr.Regular.withinOption h.2.2.2⟩)
  | .range _ _ _, h =>
    Expr.within_parts (within_append.2 ⟨Expr.Regular.within h.1, Expr.Regular.within h.2⟩)
  | .function _ _ _ _, h => Expr.within_parts (Block.Regular.within h.2)

theorem Expr.Regular.withinAll :
    {es : List Expr} → Expr.RegularAll es → Within Part.Regular (Expr.partsAll es)
  | [], _ => within_nil
  | _ :: _, h => within_append.2 ⟨Expr.Regular.within h.1, Expr.Regular.withinAll h.2⟩

theorem Expr.Regular.withinOption :
    {e : Option Expr} → Expr.RegularOption e → Within Part.Regular (Expr.partsOption e)
  | none, _ => within_nil
  | some e, h => Expr.Regular.within (e := e) h

theorem Expr.Defines.within {name : Text} :
    {e : Expr} → e.Defines name → Within Part.Regular e.parts
  | .function _ (some _) _ _, h => Expr.within_parts (Block.Regular.within h.2)
  | .call _ _ [_], h =>
    Expr.within_parts (within_append.2 ⟨Expr.Regular.within h.1,
      within_append.2 ⟨Expr.Defines.within h.2, within_nil⟩⟩)

theorem Block.Regular.within : {b : Block} → b.Regular → Within Part.Regular b.parts
  | .mk _ l, h => Stmt.Regular.withinAll (l := l) h

theorem Simple.Regular.within : {s : Simple} → s.Regular → Within Part.Regular s.parts
  | .expression e, h => Stmt.within_parts (.inl h) (Expr.Regular.within (e := e) h)
  | .declaration _ _ e, h => Stmt.within_parts (.inl h) (Expr.Regular.within (e := e) h)

theorem Simple.Regular.withinOption :
    {s : Option Simple} → Simple.RegularOption s → Within Part.Regular (Simple.partsOption s)
  | none, _ => within_nil
  | some s, h => Simple.Regular.within (s := s) h

theorem Simple.Defining.within : {s : Simple} → s.Defining → Within Part.Regular s.parts
  | .expression (.function _ (some _) _ b), h =>
    Stmt.within_parts (.inr h) (Expr.within_parts (Block.Regular.within (b := b) h))
  | .expression (.assignment _ _ (.call _ _ [_])), h =>
    Stmt.within_parts (.inr h) (Expr.within_parts (Expr.within_parts (within_append.2
      ⟨Expr.Regular.within h.1, within_append.2 ⟨Expr.Defines.within h.2, within_nil⟩⟩)))

theorem Stmt.Regular.within : {x : Stmt} → x.Regular → Within Part.Regular x.parts
  | .simple _, h => h.elim Simple.Regular.within Simple.Defining.within
  | .conditional c, h => Conditional.Regular.within (c := c) h
  | .whileLoop _ _ _, h => Stmt.within_parts h
    (within_append.2 ⟨Expr.Regular.within h.1, Block.Regular.within h.2⟩)
  | .forEach _ _ _ _, h => Stmt.within_parts h
    (within_append.2 ⟨Expr.Regular.within h.1, Block.Regular.within h.2⟩)
  | .counting _ _ _ _ _, h => Stmt.within_parts h
    (within_append.2 ⟨within_append.2 ⟨within_append.2 ⟨Simple.Regular.withinOption h.1,
      Expr.Regular.withinOption h.2.1⟩, Expr.Regular.withinOption h.2.2.1⟩,
      Block.Regular.within h.2.2.2⟩)
  | .returning _ e, h => Stmt.within_parts h (Expr.Regular.withinOption (e := e) h)
  | .breaking _, h => Stmt.within_parts h within_nil
  | .continuing _, h => Stmt.within_parts h within_nil
  | .assertion _ e _, h => Stmt.within_parts h (Expr.Regular.within (e := e) h)

theorem Stmt.Regular.withinAll :
    {l : List Stmt} → Stmt.RegularAll l → Within Part.Regular (Stmt.partsAll l)
  | [], _ => within_nil
  | _ :: _, h => within_append.2 ⟨Stmt.Regular.within h.1, Stmt.Regular.withinAll h.2⟩

theorem Conditional.Regular.within : {c : Conditional} → c.Regular → Within Part.Regular c.parts
  | .mk _ _ _ _, h => Stmt.within_parts (x := .conditional _) h
    (within_append.2 ⟨within_append.2 ⟨Expr.Regular.within h.1, Block.Regular.within h.2.1⟩,
      Otherwise.Regular.within h.2.2⟩)

theorem Otherwise.Regular.within : {o : Otherwise} → o.Regular → Within Part.Regular o.parts
  | .skip, _ => within_nil
  | .block b, h => Block.Regular.within (b := b) h
  | .chain c, h => Conditional.Regular.within (c := c) h

end

end ScriptLang
