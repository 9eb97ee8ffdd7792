import ClassGraph.Construct.Instantiation
import ClassGraph.Registry.Hierarchy

/-!
# Writing to instances

Instances of a mutable class can be allocated empty, filled as a whole or by the fields of one
class of the hierarchy, and changed field by field. A value has to fit the declared type under the
instance's own type arguments. Everything is checked before anything is written, so a write that
is refused leaves the instance as it was.

* `Registry.allocate`: every field nothing, every type argument `Any`;
* `Registry.fill` and `Registry.fillLocal`: all the fields that a class has, or those that it adds;
* `Graph.setField` and `Instance.field`: one field by name.
-/

namespace ClassGraph

namespace Instance

variable (i : Instance)

/-- The instance has no such field. -/
def unknownField (field : String) : Error := .unknownField i.className field

/-- The place of the field with that name. -/
def fieldIndex (field : Name) : Except Error Nat :=
  match i.layout.fieldIndex? field with
  | some index => .ok index
  | none => .error (i.unknownField field)

/-- The value of the field with that name. -/
def field (field : Name) : Except Error Value :=
  match i.get? field with
  | some v => .ok v
  | none => .error (i.unknownField field)

/-- The instance with the values from place `start` on replaced by `values`. -/
def overwrite (start : Nat) (values : List Value) : Instance :=
  { i with fields := i.fields.take start ++ values ++ i.fields.drop (start + values.length) }

end Instance

namespace Graph

variable (g : Graph) (i : Instance)

/-- Does the value fit the field at that place, under the instance's own type arguments? -/
def checkSlot (index : Nat) (v : Value) : Except Error Unit :=
  match i.layout.fields[index]? with
  | none => .error (i.unknownField (toString index))
  | some f =>
    match g.matchValue i.substitution f.ty v with
    | .ok _ => .ok ()
    | .error s => .error (.typeMismatch i.className f.name (f.ty.subst s) v.describe)

/-- Do the values fit the fields from that place on? -/
def checkSlots (index : Nat) : List Value → Except Error Unit
  | [] => .ok ()
  | v :: vs =>
    match g.checkSlot i index v with
    | .ok () => checkSlots (index + 1) vs
    | .error e => .error e

/-- Writes one field. -/
def setField (field : Name) (v : Value) : Except Error Instance :=
  if !i.layout.isMutable then .error (.immutable i.className)
  else match i.fieldIndex field with
    | .error e => .error e
    | .ok index => (g.checkSlot i index v).map fun () => i.overwrite index [v]

end Graph

namespace Registry

variable {β : Type} (r : Registry β)

/-- An instance of a mutable class before anything is written to it. -/
def allocate (cls : TypeId) : Except Error Instance :=
  match r.instantiable cls with
  | .error e => .error e
  | .ok d =>
    if !d.layout.isMutable then .error (.immutable d.name)
    else .ok ⟨d.layout, d.typeParams.map fun _ => .any, d.layout.fields.map fun _ => .nothing⟩

/-- The class whose fields are to be filled: that of the instance or an ancestor of it. -/
def fillTarget (i : Instance) (cls : TypeId) : Except Error (ClassDef β) :=
  match r.instantiable cls with
  | .error e => .error e
  | .ok d =>
    if !r.descendsFrom i.cls cls then .error (.notAnInstance d.name i.className)
    else if !i.layout.isMutable then .error (.immutable i.className)
    else .ok d

/-- Fills the fields of the class `d` from place `start` on. -/
def fillFrom (i : Instance) (d : ClassDef β) (start : Nat) (values : List Value) :
    Except Error Instance :=
  if values.length ≠ d.layout.fields.length - start then
    .error (.noMatchingConstructor d.name (values.length + 1) false)
  else (r.graph.checkSlots i start values).map fun () => i.overwrite start values

/-- Fills every field that the class declares or inherits. -/
def fill (i : Instance) (cls : TypeId) (values : List Value) : Except Error Instance :=
  match r.fillTarget i cls with
  | .error e => .error e
  | .ok d => r.fillFrom i d 0 values

/-- Fills the fields that the class itself declares; all of them, if it inherits none. -/
def fillLocal (i : Instance) (cls : TypeId) (values : List Value) : Except Error Instance :=
  match r.fillTarget i cls with
  | .error e => .error e
  | .ok d => r.fillFrom i d (if d.hasLocalFill then d.layout.inherited else 0) values

end Registry

end ClassGraph
