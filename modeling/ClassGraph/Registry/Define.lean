import ClassGraph.Registry.Blueprint

/-!
# Defining classes

A class is defined all at once: its marker below the marker of the superclass, its concrete node
below its marker, its layout and its constructors. A declaration that is refused leaves nothing
behind.

* `Registry.commit`: enters a blueprint into the registry;
* `Registry.define`: draws up the blueprint and enters it.
-/

namespace ClassGraph

variable {β : Type}

/-- The definition of a class whose two nodes have these numbers. -/
def Blueprint.toDef (b : Blueprint β) (marker id : TypeId) : ClassDef β where
  marker := marker
  superclass := some b.superclass
  layout := ⟨id, b.name, b.isMutable, b.typeParams, b.fields, b.inherited⟩
  constructors := b.constructors

namespace Registry

variable (r : Registry β)

/-- The marker of the class at that node; a node that is no class counts as the root class. -/
def superMarker (id : TypeId) : TypeId :=
  match r.classDef? id with
  | some d => d.marker
  | none => rootId

/-- The registry with the class added; its marker is the next node and it is itself the one
after. -/
def enter (b : Blueprint β) : Registry β :=
  let marker := r.graph.size
  let id := marker + 1
  { r with
    graph := (r.graph.add b.markerName .abstract (some (r.superMarker b.superclass))).add
      b.name .concrete (some marker)
    classes := r.classes.insert id (b.toDef marker id)
    markers := r.markers.insert marker id }

/-- Enters a class into the registry, if both its names are still free. -/
def commit (b : Blueprint β) : Except Error TypeId × Registry β :=
  match [b.name, b.markerName].find? fun n => (r.lookup n).isSome with
  | some n => (.error (.duplicateClass n), r)
  | none => (.ok (r.graph.size + 1), r.enter b)

/-- Defines a class and gives back its node. -/
def define (d : ClassDecl β) : Except Error TypeId × Registry β :=
  match r.blueprint d with
  | (.error e, r) => (.error e, r)
  | (.ok b, r) => r.commit b

end Registry

end ClassGraph
