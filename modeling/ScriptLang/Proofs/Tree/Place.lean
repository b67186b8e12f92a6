import ScriptLang.Tree.Basic

/-!
# Where statements stand

A `Place` says what is around a statement in the text of a program: a function, and
a loop with no function in between. `Block.placed π` lists the statements of a block
that stands at `π`, each with its place, in the order of the text; those inside of
functions that expressions hold are among them, and the body of a function is a place
of its own, wherever the function stands.
-/

namespace ScriptLang

/-- What is around a statement. -/
structure Place where
  /-- Whether the body of a function is around. -/
  inFunction : Bool
  /-- Whether the body of a loop is around, with no function between. -/
  inLoop : Bool
deriving DecidableEq

namespace Place

/-- Nothing around. -/
def outside : Place := ⟨false, false⟩

/-- The body of a function. -/
def body : Place := ⟨true, false⟩

/-- The body of a loop. -/
def loop (π : Place) : Place := { π with inLoop := true }

end Place

mutual

/-- The statements in the functions of an expression. -/
def Expr.placed : Expr → List (Place × Stmt)
  | .literal _ _ => []
  | .nothing _ => []
  | .identifier _ => []
  | .binary _ _ left right => left.placed ++ right.placed
  | .unary _ _ operand => operand.placed
  | .increment _ _ _ _ => []
  | .assignment _ _ value => value.placed
  | .call _ callee arguments => callee.placed ++ Expr.placedAll arguments
  | .index _ target position => target.placed ++ position.placed
  | .slice _ target start stop step =>
    target.placed ++ Expr.placedOption start ++ Expr.placedOption stop ++
      Expr.placedOption step
  | .range _ start stop => start.placed ++ stop.placed
  | .function _ _ _ body => body.placed .body

def Expr.placedAll : List Expr → List (Place × Stmt)
  | [] => []
  | e :: es => e.placed ++ Expr.placedAll es

def Expr.placedOption : Option Expr → List (Place × Stmt)
  | none => []
  | some e => e.placed

def Block.placed (π : Place) : Block → List (Place × Stmt)
  | .mk _ statements => Stmt.placedAll π statements

def Simple.placed : Simple → List (Place × Stmt)
  | .expression value => value.placed
  | .declaration _ _ value => value.placed

/-- The start of a counting loop, and the statements in its functions. -/
def Simple.placedOption (π : Place) : Option Simple → List (Place × Stmt)
  | none => []
  | some s => (π, .simple s) :: s.placed

/-- The statements inside of a statement. -/
def Stmt.inside (π : Place) : Stmt → List (Place × Stmt)
  | .simple statement => statement.placed
  | .conditional chain => chain.placed π
  | .whileLoop _ condition body => condition.placed ++ body.placed π.loop
  | .forEach _ _ iterable body => iterable.placed ++ body.placed π.loop
  | .counting _ initializer condition step body =>
    Simple.placedOption π initializer ++ Expr.placedOption condition ++
      Expr.placedOption step ++ body.placed π.loop
  | .returning _ value => Expr.placedOption value
  | .breaking _ => []
  | .continuing _ => []
  | .assertion _ condition _ => condition.placed

/-- The statements of a sequence, each before those inside of it. -/
def Stmt.placedAll (π : Place) : List Stmt → List (Place × Stmt)
  | [] => []
  | s :: ss => (π, s) :: (s.inside π ++ Stmt.placedAll π ss)

def Conditional.placed (π : Place) : Conditional → List (Place × Stmt)
  | .mk _ condition body otherwise => condition.placed ++ body.placed π ++ otherwise.placed π

def Otherwise.placed (π : Place) : Otherwise → List (Place × Stmt)
  | .skip => []
  | .block body => body.placed π
  | .chain next => (π, .conditional next) :: next.placed π

end

def Stmt.placed (π : Place) (s : Stmt) : List (Place × Stmt) := (π, s) :: s.inside π

theorem Expr.placedAll_append (es fs : List Expr) :
    Expr.placedAll (es ++ fs) = Expr.placedAll es ++ Expr.placedAll fs := by
  induction es with
  | nil => rfl
  | cons e es ih => simp [Expr.placedAll, ih]

theorem Stmt.placedAll_cons (π : Place) (s : Stmt) (ss : List Stmt) :
    Stmt.placedAll π (s :: ss) = s.placed π ++ Stmt.placedAll π ss := by
  simp [Stmt.placedAll, Stmt.placed]

theorem Stmt.placedAll_append (π : Place) (ss ts : List Stmt) :
    Stmt.placedAll π (ss ++ ts) = Stmt.placedAll π ss ++ Stmt.placedAll π ts := by
  induction ss with
  | nil => rfl
  | cons s ss ih => simp [Stmt.placedAll_cons, ih]

/-- Where a statement that may leave a loop or a function begins. -/
def Stmt.jump? : Stmt → Option Position
  | .returning span _ => some span.start
  | .breaking span => some span.start
  | .continuing span => some span.start
  | _ => none

/-- Where the statements of a list that may leave a loop or a function begin. -/
def jumps (l : List (Place × Stmt)) : List Position := l.filterMap fun x => x.2.jump?

theorem jumps_append (l m : List (Place × Stmt)) : jumps (l ++ m) = jumps l ++ jumps m :=
  List.filterMap_append

/-- Jumps that begin at different places of the source are told apart by where they
begin. -/
theorem place_eq_of_nodup_jumps {l : List (Place × Stmt)} (hl : (jumps l).Nodup)
    {π π' : Place} {s : Stmt} (hs : s.jump?.isSome) (h : (π, s) ∈ l) (h' : (π', s) ∈ l) :
    π = π' := by
  induction l with
  | nil => cases h
  | cons x l ih =>
    obtain ⟨p, hp⟩ := Option.isSome_iff_exists.1 hs
    have hmem : ∀ ρ, (ρ, s) ∈ l → p ∈ jumps l := fun ρ hρ =>
      List.mem_filterMap.2 ⟨(ρ, s), hρ, hp⟩
    rcases List.mem_cons.1 h with hx | hx <;> rcases List.mem_cons.1 h' with hx' | hx'
    · exact (Prod.mk.inj (hx.trans hx'.symm)).1
    · rw [jumps, List.filterMap_cons_some (b := p) (by rw [← hx]; exact hp),
        List.nodup_cons] at hl
      exact absurd (hmem π' hx') hl.1
    · rw [jumps, List.filterMap_cons_some (b := p) (by rw [← hx']; exact hp),
        List.nodup_cons] at hl
      exact absurd (hmem π hx) hl.1
    · refine ih ?_ hx hx'
      cases hx : x.2.jump? with
      | none => rwa [jumps, List.filterMap_cons_none (by exact hx)] at hl
      | some q =>
        rw [jumps, List.filterMap_cons_some (b := q) (by exact hx), List.nodup_cons] at hl
        exact hl.2

end ScriptLang
