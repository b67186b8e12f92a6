import ScriptLang.Token.Basic
import ScriptLang.Tree.Node

/-!
# Where the nodes of a tree stand

`Node.In` says which nodes are in a tree, whatever kinds of fields they stand in. The spans of a
tree are sound (`Node.Spanned`) if each of them begins where a token does, ends where one does,
not before it begins, and covers those of the nodes right below.

A node that a rule of the grammar reads fits between two offsets (`Node.Fits`): where the rule
starts and where it ends. Such a node is not empty, so it tells the two offsets apart. What fits
in between is built from its fields (`Node.Fits.branch`, `Field.Fit`).
-/

namespace ScriptLang

/-! ### Nodes in trees -/

/-- Where a node stands. -/
def Node.span : Node → Span
  | .leaf _ span _ => span
  | .branch _ span _ => span

/-- The nodes of a field. -/
def Field.nodes : Field → List Node
  | .child _ node => [node]
  | .children _ nodes => nodes
  | .entries _ _ => []
  | .entry _ _ => []

/-- The nodes right below a node. -/
def Node.children : Node → List Node
  | .leaf _ _ _ => []
  | .branch _ _ fields => fields.flatMap Field.nodes

/-- A node is in a tree if it is the root or in a tree right below it. -/
inductive Node.In : Node → Node → Prop
  | root (n : Node) : Node.In n n
  | inside {n m root : Node} (hm : m ∈ root.children) (h : Node.In n m) : Node.In n root

/-- A span begins where a token does and ends where one does, not before it begins. -/
structure Span.Drawn (tokens : List Token) (s : Span) : Prop where
  start : ∃ t ∈ tokens, t.span.start = s.start
  stop : ∃ t ∈ tokens, t.span.stop = s.stop
  le : s.start.offset ≤ s.stop.offset

/-- A span lies within another one. -/
structure Span.Within (s outer : Span) : Prop where
  start_le : outer.start.offset ≤ s.start.offset
  stop_le : s.stop.offset ≤ outer.stop.offset

/-- The spans of a tree are drawn from tokens, each within the one above it. -/
def Node.Spanned (tokens : List Token) (root : Node) : Prop :=
  ∀ n : Node, n.In root → n.span.Drawn tokens ∧ ∀ m ∈ n.children, m.span.Within n.span

theorem Node.spanned_iff {tokens : List Token} {root : Node} :
    root.Spanned tokens ↔ root.span.Drawn tokens ∧
      ∀ m ∈ root.children, m.span.Within root.span ∧ m.Spanned tokens := by
  constructor
  · intro h
    obtain ⟨hdrawn, hwithin⟩ := h root (.root root)
    exact ⟨hdrawn, fun m hm => ⟨hwithin m hm, fun n hn => h n (.inside hm hn)⟩⟩
  · rintro ⟨hdrawn, hchildren⟩ n hn
    cases hn with
    | root => exact ⟨hdrawn, fun m hm => (hchildren m hm).1⟩
    | inside hm hn => exact (hchildren _ hm).2 n hn

/-! ### Between two offsets -/

variable {tokens : List Token} {k k' l l' : Nat} {s t : Span} {n : Node} {fields gs : List Field}

/-- A span begins and ends where tokens do, is not empty, and lies between two offsets. -/
structure Span.Lies (tokens : List Token) (k k' : Nat) (s : Span) : Prop where
  start : ∃ t ∈ tokens, t.span.start = s.start
  stop : ∃ t ∈ tokens, t.span.stop = s.stop
  le_start : k ≤ s.start.offset
  lt : s.start.offset < s.stop.offset
  stop_le : s.stop.offset ≤ k'

namespace Span.Lies

theorem drawn (h : s.Lies tokens k k') : s.Drawn tokens := ⟨h.start, h.stop, Nat.le_of_lt h.lt⟩

theorem mono (h : s.Lies tokens l l') (hk : k ≤ l) (hk' : l' ≤ k') : s.Lies tokens k k' :=
  ⟨h.start, h.stop, Nat.le_trans hk h.le_start, h.lt, Nat.le_trans h.stop_le hk'⟩

/-- From the start of one span to the end of another one behind it. -/
theorem merge (hs : s.Lies tokens k l) (ht : t.Lies tokens l' k') (hl : l ≤ l') :
    (s.merge t).Lies tokens k k' := by
  refine ⟨hs.start, ht.stop, hs.le_start, ?_, ht.stop_le⟩
  calc s.start.offset
    _ < s.stop.offset := hs.lt
    _ ≤ l := hs.stop_le
    _ ≤ l' := hl
    _ ≤ t.start.offset := ht.le_start
    _ < t.stop.offset := ht.lt

end Span.Lies

/-- A node with sound spans lies between two offsets. -/
structure Node.Fits (tokens : List Token) (k k' : Nat) (n : Node) : Prop where
  spanned : n.Spanned tokens
  lies : n.span.Lies tokens k k'

/-- Nodes lie between two offsets. -/
def Node.FitAll (tokens : List Token) (k k' : Nat) (nodes : List Node) : Prop :=
  ∀ n ∈ nodes, n.Fits tokens k k'

def Field.Fit (tokens : List Token) (k k' : Nat) (fields : List Field) : Prop :=
  Node.FitAll tokens k k' (fields.flatMap Field.nodes)

namespace Node.Fits

theorem mono (h : n.Fits tokens l l') (hk : k ≤ l) (hk' : l' ≤ k') : n.Fits tokens k k' :=
  ⟨h.spanned, h.lies.mono hk hk'⟩

/-- A node lies between its own ends. -/
theorem within (h : n.Fits tokens l l') (hk : k ≤ n.span.start.offset)
    (hk' : n.span.stop.offset ≤ k') : n.Fits tokens k k' :=
  ⟨h.spanned, h.lies.start, h.lies.stop, hk, h.lies.lt, hk'⟩

theorem leaf (hs : s.Lies tokens k k') (kind caption : Text) :
    (Node.leaf kind s caption).Fits tokens k k' :=
  ⟨spanned_iff.2 ⟨hs.drawn, nofun⟩, hs⟩

theorem branch (hs : s.Lies tokens k k')
    (h : Field.Fit tokens s.start.offset s.stop.offset fields) (kind : Text) :
    (Node.branch kind s fields).Fits tokens k k' :=
  ⟨spanned_iff.2 ⟨hs.drawn, fun m hm => ⟨⟨(h m hm).lies.le_start, (h m hm).lies.stop_le⟩,
    (h m hm).spanned⟩⟩, hs⟩

end Node.Fits

namespace Node.FitAll

variable {ns : List Node}

theorem nil : Node.FitAll tokens k k' [] := nofun

theorem cons (hn : n.Fits tokens k k') (h : Node.FitAll tokens k k' ns) :
    Node.FitAll tokens k k' (n :: ns) :=
  List.forall_mem_cons.2 ⟨hn, h⟩

theorem mono (h : Node.FitAll tokens l l' ns) (hk : k ≤ l) (hk' : l' ≤ k') :
    Node.FitAll tokens k k' ns :=
  fun n hn => (h n hn).mono hk hk'

theorem reverse (h : Node.FitAll tokens k k' ns) : Node.FitAll tokens k k' ns.reverse :=
  fun n hn => h n (List.mem_reverse.1 hn)

end Node.FitAll

namespace Field.Fit

theorem nil : Field.Fit tokens k k' [] := Node.FitAll.nil

theorem append (hf : Field.Fit tokens k k' fields) (hg : Field.Fit tokens k k' gs) :
    Field.Fit tokens k k' (fields ++ gs) := by
  intro n hn
  rw [List.flatMap_append] at hn
  exact (List.mem_append.1 hn).elim (hf n) (hg n)

theorem children {nodes : List Node} (h : Node.FitAll tokens k k' nodes)
    (hf : Field.Fit tokens k k' fields) (name : Text) :
    Field.Fit tokens k k' (.children name nodes :: fields) :=
  fun m hm => (List.mem_append.1 hm).elim (h m) (hf m)

theorem child (h : n.Fits tokens k k') (hf : Field.Fit tokens k k' fields) (name : Text) :
    Field.Fit tokens k k' (.child name n :: fields) :=
  children (.cons h .nil) hf name

theorem entry (hf : Field.Fit tokens k k' fields) (name text : Text) :
    Field.Fit tokens k k' (.entry name text :: fields) := hf

theorem entries (hf : Field.Fit tokens k k' fields) (name : Text) (texts : List Text) :
    Field.Fit tokens k k' (.entries name texts :: fields) := hf

theorem mono (h : Field.Fit tokens l l' fields) (hk : k ≤ l) (hk' : l' ≤ k') :
    Field.Fit tokens k k' fields :=
  Node.FitAll.mono h hk hk'

end Field.Fit

/-! ### Nodes from their parts -/

/-- A node from the start of one span to the end of another one behind it, with nodes at these two
spans right below. -/
theorem Node.Fits.merge (hs : s.Lies tokens k l) (ht : t.Lies tokens l' k') (hl : l ≤ l')
    (h : ∀ n ∈ fields.flatMap Field.nodes, n.Spanned tokens ∧ (n.span = s ∨ n.span = t))
    (kind : Text) : (Node.branch kind (s.merge t) fields).Fits tokens k k' := by
  refine .branch (hs.merge ht hl) (fun n hn => ?_) kind
  obtain ⟨hspanned, hspan⟩ := h n hn
  have hle : s.stop.offset ≤ t.start.offset :=
    Nat.le_trans hs.stop_le (Nat.le_trans hl ht.le_start)
  refine ⟨hspanned, ?_⟩
  rcases hspan with hspan | hspan <;> rw [hspan]
  · exact ⟨hs.start, hs.stop, Nat.le_refl _, hs.lt, Nat.le_trans hle (Nat.le_of_lt ht.lt)⟩
  · exact ⟨ht.start, ht.stop, Nat.le_trans (Nat.le_of_lt hs.lt) hle, ht.lt, Nat.le_refl _⟩

/-- A span goes from the start of another one, which lies before `l`, up to `k'`. -/
structure Span.Extends (tokens : List Token) (k l k' : Nat) (s first : Span) : Prop where
  head : first.Lies tokens k l
  le : l ≤ k'
  start_eq : s.start = first.start
  stop : ∃ t ∈ tokens, t.span.stop = s.stop
  stop_eq : s.stop.offset = k'

namespace Span.Extends

variable {first : Span}

theorem lies (h : s.Extends tokens k l k' first) : s.Lies tokens k k' := by
  obtain ⟨⟨hstart, -, hle, hlt, hl⟩, hk', hs, hstop, hoffset⟩ := h
  exact ⟨hs ▸ hstart, hstop, hs ▸ hle, by rw [hs]; omega, Nat.le_of_eq hoffset⟩

theorem start_le (h : s.Extends tokens k l k' first) : s.start.offset ≤ l := by
  rw [h.start_eq]
  exact Nat.le_of_lt (Nat.lt_of_lt_of_le h.head.lt h.head.stop_le)

end Span.Extends

theorem Node.Fits.extend {first : Span} (h : s.Extends tokens k l k' first)
    (hf : Field.Fit tokens l k' fields) (kind : Text) :
    (Node.branch kind s fields).Fits tokens k k' :=
  .branch h.lies (hf.mono h.start_le (Nat.le_of_eq h.stop_eq.symm)) kind

/-! ### Trees of programs -/

@[simp] theorem Identifier.span_node (i : Identifier) : i.node.span = i.span := rfl

@[simp] theorem Expr.span_node (e : Expr) : e.node.span = e.span := by
  cases e <;> simp [Expr.node, Identifier.node, Node.span, Expr.span]

theorem Expr.lies {e : Expr} (h : e.node.Fits tokens k k') : e.span.Lies tokens k k' :=
  e.span_node ▸ h.lies

/-- An expression lies between its own ends. -/
theorem Expr.fits_within {e : Expr} (h : e.node.Fits tokens l l') (hk : k ≤ e.span.start.offset)
    (hk' : e.span.stop.offset ≤ k') : e.node.Fits tokens k k' :=
  h.within (e.span_node ▸ hk) (e.span_node ▸ hk')

/-- A node that begins where the first of the expressions in it does. -/
theorem Expr.extend_fits {e : Expr} (he : e.node.Fits tokens k l)
    (h : s.Extends tokens k l k' e.span) (hf : Field.Fit tokens l k' fields) (kind name : Text) :
    (Node.branch kind s (.child name e.node :: fields)).Fits tokens k k' := by
  have hstop : k' ≤ s.stop.offset := Nat.le_of_eq h.stop_eq.symm
  exact .branch h.lies (.child (fits_within he (h.start_eq ▸ Nat.le_refl _)
    (Nat.le_trans h.head.stop_le (Nat.le_trans h.le hstop))) (hf.mono h.start_le hstop) name) kind

theorem Expr.function_fits {first : Span} {body : Block} (h : s.Extends tokens k l k' first)
    (hbody : body.node.Fits tokens l k') (name : Option Text) (parameters : List Text) :
    (Expr.function s name parameters body).node.Fits tokens k k' := by
  have hfields := Field.Fit.entries (.child hbody .nil "body") "parameters"
    (parameters.map Text.quoted)
  cases name with
  | none => exact .extend h hfields _
  | some n => exact .extend h (.entry hfields "name" n.quoted) _

theorem Expr.nodes_eq_map (es : List Expr) : Expr.nodes es = es.map Expr.node := by
  induction es with
  | nil => rfl
  | cons e es ih => rw [Expr.nodes, ih, List.map_cons]

theorem Stmt.nodes_eq_map (ss : List Stmt) : Stmt.nodes ss = ss.map Stmt.node := by
  induction ss with
  | nil => rfl
  | cons s ss ih => rw [Stmt.nodes, ih, List.map_cons]

theorem Expr.nodes_reverse (es : List Expr) : Expr.nodes es.reverse = (Expr.nodes es).reverse := by
  rw [Expr.nodes_eq_map, Expr.nodes_eq_map, List.map_reverse]

theorem Stmt.nodes_reverse (ss : List Stmt) : Stmt.nodes ss.reverse = (Stmt.nodes ss).reverse := by
  rw [Stmt.nodes_eq_map, Stmt.nodes_eq_map, List.map_reverse]

end ScriptLang
