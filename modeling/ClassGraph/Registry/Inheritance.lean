import ClassGraph.Registry.Hierarchy

/-!
# Heritages within a registry

What a node of the type graph passes on: the root class nothing, a class its renamed parameters
and fields, a marker nothing but the superclass of its class. Other nodes pass nothing on and the
question is refused.

* `Registry.heritage`: the answer, and the registry that keeps it.
-/

namespace ClassGraph

namespace Registry

variable {β : Type} (r : Registry β)

/-- Works out what a node passes on. Only for a class a scope of renaming is opened. -/
def computeHeritage (id : TypeId) (fresh : Fresh) : Except Error Heritage × Fresh :=
  if id = rootId then (.ok .empty, fresh)
  else match r.classDef? id with
    | some d =>
      let (scope, fresh) := fresh.openScope
      (.ok (d.layout.passOn d.superclass scope), fresh)
    | none =>
      match r.markers.get? id with
      | some owner =>
        ((r.superclass owner).map fun sup => { Heritage.empty with superclass := sup }, fresh)
      | none => (.error (.notAClass (r.typeName id)), fresh)

/-- What a node passes on, kept from the first time on. -/
def heritage (id : TypeId) : Except Error Heritage × Registry β :=
  let (h, heritages) := r.heritages.getOrCompute id (r.computeHeritage id)
  (h, { r with heritages })

end Registry

end ClassGraph
