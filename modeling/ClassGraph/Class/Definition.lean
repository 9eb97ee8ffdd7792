import ClassGraph.Class.Constructor
import ClassGraph.Value

/-!
# Class definitions

A class as a registry keeps it: its place in the type graph, its layout and its constructors.
-/

namespace ClassGraph

/-- A class of a registry. -/
structure ClassDef (β : Type) where
  /-- The abstract node of the class; the root class is its own. -/
  marker : TypeId
  /-- Only the root class has none. -/
  superclass : Option TypeId
  layout : Layout
  constructors : List (Constructor β)

namespace ClassDef

variable {β γ : Type}

/-- The concrete node of the class. -/
def id (d : ClassDef β) : TypeId := d.layout.cls

/-- The name of the class. -/
def name (d : ClassDef β) : Name := d.layout.name

/-- The type parameters, inherited ones first. -/
def typeParams (d : ClassDef β) : List TypeParam := d.layout.typeParams

/-- Does filling the local fields differ from filling all of them? -/
def hasLocalFill (d : ClassDef β) : Bool := 0 < d.layout.inherited

/-- The root class: no fields, no parameters, no constructors. -/
def root (name : Name) : ClassDef β := ⟨rootId, none, ⟨rootId, name, false, [], [], 0⟩, []⟩

/-- Applies `f` to the bodies of the constructors. -/
def map (f : β → γ) (d : ClassDef β) : ClassDef γ :=
  ⟨d.marker, d.superclass, d.layout, d.constructors.map (·.map f)⟩

/-- Every way to build or to fill an instance, in the order of consideration. -/
def constructorInfos (d : ClassDef β) : List ConstructorInfo :=
  d.constructors.map (fun c => ⟨c.role, c.arity, c.parametrized⟩) ++
  [⟨.fill, 1 + d.layout.fields.length, false⟩] ++
  if d.hasLocalFill then [⟨.fillLocal, 1 + d.layout.localFields.length, false⟩] else []

end ClassDef

end ClassGraph
