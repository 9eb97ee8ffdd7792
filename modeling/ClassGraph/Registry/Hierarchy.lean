import ClassGraph.Registry.Basic

/-!
# Questions about the hierarchy

The superclass of a class is recorded with the class; subclasses are found through the markers of
the type graph. Both walks stop at the limit of the settings and then fail, they never give a part
of the answer.

* `Registry.superclasses`: all ancestors, nearest first, the root class last;
* `Registry.subclasses`: all descendants, each before its own and siblings in order of creation;
* `Registry.classOf` and `Registry.markerOf`: from a marker to its one realization, and back.
-/

namespace ClassGraph

namespace Registry

variable {β : Type} (r : Registry β)

/-- The limit on the hierarchy was reached at that node. -/
def tooDeep (id : TypeId) : Error :=
  .hierarchyDepthExceeded (r.typeName id) r.settings.maxHierarchyDepth

/-- The direct superclass; only the root class has none. -/
def superclass (id : TypeId) : Except Error (Option TypeId) :=
  if id = rootId then .ok none
  else match r.classDef? id with
    | some d => .ok d.superclass
    | none => .error (.notAClass (r.typeName id))

/-- The chain of superclasses from `next` on, of at most `fuel` classes; `id` is the class asked
about. -/
def superclassesFrom (id : TypeId) : Nat → Option TypeId → Except Error (List TypeId)
  | 0, next => if next.isSome then .error (r.tooDeep id) else .ok []
  | fuel + 1, next =>
    match next with
    | none => .ok []
    | some next =>
      match r.superclass next with
      | .ok next' => (superclassesFrom id fuel next').map (next :: ·)
      | .error e => .error e

/-- All ancestors of a class, nearest first, the root class last. -/
def superclasses (id : TypeId) : Except Error (List TypeId) :=
  match r.superclass id with
  | .ok next => r.superclassesFrom id r.settings.maxHierarchyDepth next
  | .error e => .error e

/-- Is it the root class, or a concrete node whose supertypes end in the root? -/
def isClass (id : TypeId) : Bool :=
  id = rootId || (r.graph.isConcrete id && r.graph.reachesRoot id)

/-- Is `ancestor` the class itself or one of its ancestors? -/
def descendsFrom (cls ancestor : TypeId) : Bool :=
  ancestor = cls ||
    match r.superclasses cls with
    | .ok ids => ids.contains ancestor
    | .error _ => false

/-- The concrete node that a node stands for: a concrete one for itself, an abstract one for the
only concrete node directly below it. -/
def classOf (id : TypeId) : Except Error TypeId :=
  match r.graph.node? id with
  | none => .error (.notAClass (r.typeName id))
  | some node =>
    if !node.isAbstract then .ok id
    else match node.subtypes.filter r.graph.isConcrete with
      | [only] => .ok only
      | candidates => .error (.ambiguousConcreteClass node.name (candidates.map r.typeName))

/-- The marker of a class. -/
def markerOf (id : TypeId) : Except Error TypeId :=
  if r.graph.isAbstract id then .error (.notAConcreteClass (r.typeName id))
  else match r.classDef? id with
    | some d => .ok d.marker
    | none => .error (.notAClass (r.typeName id))

/-- The abstract nodes directly below a node. -/
def submarkers (marker : TypeId) : List TypeId :=
  (r.graph.subtypes marker).filter r.graph.isAbstract

/-- The classes that stand for the abstract nodes below `marker`, as far as `fuel` levels go. -/
def classesBelow : Nat → TypeId → Except Error (List TypeId)
  | 0, marker => if (r.submarkers marker).isEmpty then .ok [] else .error (r.tooDeep marker)
  | fuel + 1, marker => do
    let families ← (r.submarkers marker).mapM fun child => do
      let cls ← r.classOf child
      let below ← classesBelow fuel child
      return cls :: below
    return families.flatten

/-- All descendants of a class, each before its own, siblings in order of creation. -/
def subclasses (id : TypeId) : Except Error (List TypeId) :=
  match (if id = rootId then .ok rootId else r.markerOf id) with
  | .ok marker => r.classesBelow r.settings.maxHierarchyDepth marker
  | .error e => .error e

end Registry

end ClassGraph
