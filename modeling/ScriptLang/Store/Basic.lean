import ScriptLang.Value.Basic
import ScriptLang.Store.Iterator

/-!
# Scopes in a store

A store holds all scopes and iterators of a session, each at a number of its own.
A scope binds names to values and lies inside another one, its parent, unless it
is a root; `Store.chain` lists a scope and all those around it, the innermost
first. Looking a name up finds the first scope of the chain that owns it, and
binding it again changes that scope and no other.

The parent of a scope is always older, so a chain follows links to smaller numbers
only and comes to an end.
-/

namespace ScriptLang

structure Scope where
  /-- The names bound here, in the order of their declarations. -/
  bindings : List (Text × Value)
  parent : Option ScopeId
  inFunction : Bool
  /-- Whether the body of a loop is around, with no function between. -/
  inLoop : Bool
  name : Text

/-- Bindings with one name bound to a value. A new name comes last. -/
def bind (name : Text) (value : Value) : List (Text × Value) → List (Text × Value)
  | [] => [(name, value)]
  | (n, v) :: rest => if n = name then (n, value) :: rest else (n, v) :: bind name value rest

namespace Scope

def own? (s : Scope) (name : Text) : Option Value := s.bindings.lookup name

def owns (s : Scope) (name : Text) : Bool := (s.own? name).isSome

def bind (s : Scope) (name : Text) (value : Value) : Scope :=
  { s with bindings := ScriptLang.bind name value s.bindings }

end Scope

structure Store where
  scopes : Array Scope
  iterators : Array Iterator

namespace Store

def empty : Store := ⟨#[], #[]⟩

def scope? (σ : Store) (id : ScopeId) : Option Scope := σ.scopes[id.index]?

def add (σ : Store) (s : Scope) : ScopeId × Store :=
  (⟨σ.scopes.size⟩, { σ with scopes := σ.scopes.push s })

def newRoot (σ : Store) (name : Text) (inFunction inLoop : Bool) : ScopeId × Store :=
  σ.add ⟨[], none, inFunction, inLoop, name⟩

/-- A new scope inside another. What is not given is as in the outer one. -/
def newChild (σ : Store) (parent : ScopeId) (name : Text) (inFunction inLoop : Option Bool) :
    ScopeId × Store :=
  let outer := σ.scope? parent
  σ.add ⟨[], some parent, inFunction.getD (outer.any Scope.inFunction),
    inLoop.getD (outer.any Scope.inLoop), name⟩

/-- A scope and all those around it, the innermost first. -/
def chain (σ : Store) (id : ScopeId) : List ScopeId :=
  match σ.scope? id with
  | none => []
  | some s =>
    match s.parent with
    | none => [id]
    | some parent => if parent.index < id.index then id :: σ.chain parent else [id]
termination_by id.index

def owns (σ : Store) (id : ScopeId) (name : Text) : Bool := (σ.scope? id).any (·.owns name)

/-- The innermost scope around `id` that owns a name. -/
def owner? (σ : Store) (id : ScopeId) (name : Text) : Option ScopeId :=
  (σ.chain id).find? fun i => σ.owns i name

def get? (σ : Store) (id : ScopeId) (name : Text) : Option Value := do
  let owner ← σ.owner? id name
  let s ← σ.scope? owner
  s.own? name

def declare (σ : Store) (id : ScopeId) (name : Text) (value : Value) : Store :=
  { σ with scopes := σ.scopes.modify id.index fun s => s.bind name value }

/-- The store with a name bound again where it is owned, if it is. -/
def update? (σ : Store) (id : ScopeId) (name : Text) (value : Value) : Option Store :=
  (σ.owner? id name).map fun owner => σ.declare owner name value

def depth (σ : Store) (id : ScopeId) : Nat := (σ.chain id).length - 1

def inFunction (σ : Store) (id : ScopeId) : Bool := (σ.scope? id).any Scope.inFunction

def inLoop (σ : Store) (id : ScopeId) : Bool := (σ.scope? id).any Scope.inLoop

def declareAll (σ : Store) (id : ScopeId) (bindings : List (Text × Value)) : Store :=
  bindings.foldl (fun σ b => σ.declare id b.1 b.2) σ

def bindings (σ : Store) (id : ScopeId) : List (Text × Value) :=
  ((σ.scope? id).map Scope.bindings).getD []

def addIterator (σ : Store) (i : Iterator) : IteratorId × Store :=
  (⟨σ.iterators.size⟩, { σ with iterators := σ.iterators.push i })

def next (σ : Store) (id : IteratorId) : Option Value × Store :=
  match (σ.iterators[id.index]?).bind Iterator.next? with
  | some (v, i) => (some v, { σ with iterators := σ.iterators.setIfInBounds id.index i })
  | none => (none, σ)

def iterator (σ : Store) : Elements → IteratorId × Store
  | .fresh i => σ.addIterator i
  | .shared id => (id, σ)

end Store

end ScriptLang
