import ClassGraph.Ty

/-!
# The type graph

The nodes are types with a name, at most one supertype each. A class contributes two of them: an
abstract marker below the marker of its superclass, and a concrete node below its own marker.
Further types may be declared anywhere below an abstract node, or on their own. The first node is
the root class; concrete nodes have nothing below them.

* `Graph.add`: a new node gets the next number and is listed last among its siblings;
* `Graph.isSubtype`: the walk up from a node, cut off after one step more than there are nodes,
  which no chain of supertypes reaches.
-/

namespace ClassGraph

/-- An abstract node may have types below it, a concrete one has none. -/
inductive NodeKind
  | abstract
  | concrete
deriving DecidableEq, Repr

/-- The name of the kind. -/
def NodeKind.name : NodeKind → String
  | abstract => "Abstract"
  | concrete => "Concrete"

/-- A type of the graph. -/
structure Node where
  name : Name
  kind : NodeKind
  supertype : Option TypeId
  /-- The nodes directly below, in order of creation. -/
  subtypes : List TypeId
deriving DecidableEq, Repr

/-- Is the node abstract? -/
def Node.isAbstract (n : Node) : Bool := n.kind = .abstract

/-- Is the node concrete? -/
def Node.isConcrete (n : Node) : Bool := n.kind = .concrete

/-- The nodes by number, and the numbers by name. -/
structure Graph where
  nodes : Array Node
  byName : Table Name TypeId
deriving DecidableEq

namespace Graph

/-- The graph of the root class alone. -/
def ofRoot (rootName : Name) : Graph :=
  ⟨#[⟨rootName, .abstract, none, []⟩], Table.empty.insert rootName rootId⟩

/-- The number of nodes. -/
def size (g : Graph) : Nat := g.nodes.size

/-- The node with that number. -/
def node? (g : Graph) (id : TypeId) : Option Node := g.nodes[id]?

/-- The number of the node with that name. -/
def lookup (g : Graph) (n : Name) : Option TypeId := g.byName.get? n

/-- The name of a node. -/
def name? (g : Graph) (id : TypeId) : Option Name := (g.node? id).map (·.name)

/-- Is there such a node, and is it abstract? -/
def isAbstract (g : Graph) (id : TypeId) : Bool := (g.node? id).any Node.isAbstract

/-- Is there such a node, and is it concrete? -/
def isConcrete (g : Graph) (id : TypeId) : Bool := (g.node? id).any Node.isConcrete

/-- The node directly above. -/
def supertype (g : Graph) (id : TypeId) : Option TypeId := (g.node? id).bind (·.supertype)

/-- The nodes directly below, in order of creation. -/
def subtypes (g : Graph) (id : TypeId) : List TypeId := ((g.node? id).map (·.subtypes)).getD []

/-- Lists `id` last among the subtypes of `sup`. -/
def link (nodes : Array Node) (sup : Option TypeId) (id : TypeId) : Array Node :=
  match sup with
  | none => nodes
  | some s => nodes.modify s fun n => { n with subtypes := n.subtypes ++ [id] }

/-- Adds a node under the next number. It is for the caller to see to it that the name is free
and the supertype an abstract node of the graph. -/
def add (g : Graph) (n : Name) (kind : NodeKind) (sup : Option TypeId) : Graph :=
  ⟨link (g.nodes.push ⟨n, kind, sup, []⟩) sup g.size, g.byName.insert n g.size⟩

/-- Is `target` met within `fuel` nodes on the way up that starts at `current`? -/
def reaches (g : Graph) (target : TypeId) : Nat → Option TypeId → Bool
  | 0, _ => false
  | fuel + 1, current =>
    match current with
    | none => false
    | some id => id = target || g.reaches target fuel (g.supertype id)

/-- Is `sub` the node `sup` or somewhere below it? A number without a node is below itself. -/
def isSubtype (g : Graph) (sub sup : TypeId) : Bool := g.reaches sup (g.size + 1) (some sub)

/-- Is there such a node, and does the way up from it end at the root class? -/
def reachesRoot (g : Graph) (id : TypeId) : Bool := (g.node? id).isSome && g.isSubtype id rootId

/-! ## The nodes after an addition -/

variable {g : Graph} {n m : Name} {kind : NodeKind} {sup : Option TypeId} {id : TypeId}

theorem getElem?_link (nodes : Array Node) (sup : Option TypeId) (new id : TypeId) :
    (link nodes sup new)[id]? = (nodes[id]?).map fun node =>
      if sup = some id then { node with subtypes := node.subtypes ++ [new] } else node := by
  cases sup with
  | none => simp [link]
  | some s =>
    rw [link, Array.getElem?_modify]
    by_cases h : s = id <;> simp [h]

theorem size_link (nodes : Array Node) (sup : Option TypeId) (new : TypeId) :
    (link nodes sup new).size = nodes.size := by
  cases sup <;> simp [link]

@[simp] theorem size_add : (g.add n kind sup).size = g.size + 1 := by
  simp [size, add, size_link]

theorem lookup_add : (g.add n kind sup).lookup m = if n = m then some g.size else g.lookup m :=
  Table.get?_insert

/-- After an addition there is the new node, and the supertype lists it. -/
theorem node?_add : (g.add n kind sup).node? id =
    (if id = g.size then some ⟨n, kind, sup, []⟩ else g.node? id).map fun node =>
      if sup = some id then { node with subtypes := node.subtypes ++ [g.size] } else node := by
  rw [node?, add, getElem?_link, Array.getElem?_push]
  rfl

theorem node?_eq_none_iff : g.node? id = none ↔ g.size ≤ id := by
  simp [node?, size]

/-- Nothing but the lists of subtypes changes at the nodes that there were. -/
theorem supertype_add (h : id < g.size) : (g.add n kind sup).supertype id = g.supertype id := by
  have h' : ¬ id = g.size := Nat.ne_of_lt h
  rw [supertype, supertype, node?_add, if_neg h']
  cases g.node? id with
  | none => rfl
  | some node => by_cases hs : sup = some id <;> simp [hs]

theorem supertype_add_new : (g.add n kind sup).supertype g.size = sup := by
  rw [supertype, node?_add, if_pos rfl]
  by_cases hs : sup = some g.size <;> simp [hs]

theorem isAbstract_add (h : id < g.size) : (g.add n kind sup).isAbstract id = g.isAbstract id := by
  have h' : ¬ id = g.size := Nat.ne_of_lt h
  rw [isAbstract, isAbstract, node?_add, if_neg h']
  cases g.node? id with
  | none => rfl
  | some node => by_cases hs : sup = some id <;> simp [hs, Node.isAbstract]

/-! ## The way up -/

@[simp] theorem reaches_zero (target : TypeId) (current : Option TypeId) :
    g.reaches target 0 current = false := rfl

@[simp] theorem reaches_none (target : TypeId) (fuel : Nat) :
    g.reaches target fuel none = false := by
  cases fuel <;> rfl

theorem reaches_succ (target : TypeId) (fuel : Nat) :
    g.reaches target (fuel + 1) (some id) =
      (decide (id = target) || g.reaches target fuel (g.supertype id)) := rfl

theorem isSubtype_self : g.isSubtype id id = true := by simp [isSubtype, reaches_succ]

end Graph

end ClassGraph
