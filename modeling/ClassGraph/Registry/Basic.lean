import ClassGraph.Class.Definition
import ClassGraph.Graph
import ClassGraph.Heritage
import ClassGraph.Settings.Basic

/-!
# Registries

A registry holds what a series of class definitions comes to: the type graph, the classes by
their concrete nodes, the way back from a marker to its class, and the heritages worked out so
far. The type `β` of constructor bodies is left open.

* `Registry.new`: a registry of checked settings, with the root class alone;
* `Registry.classId`, `Registry.instantiable`: classes by name, and classes that have instances;
* `Registry.declareAbstract`, `Registry.declareConcrete`: types that are no classes.
-/

namespace ClassGraph

/-- Everything that has been defined, under the given settings. -/
structure Registry (β : Type) where
  settings : Settings
  graph : Graph
  /-- The classes by their concrete nodes; the root class by the root. -/
  classes : Table TypeId (ClassDef β)
  /-- From markers to the classes that they mark. -/
  markers : Table TypeId TypeId
  heritages : HeritageStore

namespace Registry

variable {β γ : Type} (r : Registry β)

/-- The registry of the root class, under settings that have been checked. -/
def ofSettings (s : Settings) : Registry β where
  settings := s
  graph := .ofRoot s.rootName
  classes := Table.empty.insert rootId (.root s.rootName)
  markers := ∅
  heritages := .empty

/-- The registry of the root class, if nothing is wrong with the settings. -/
def new (s : Settings) : Except Error (Registry β) := s.check.map ofSettings

/-- The registry without the bodies of constructors: all that can be asked about classes. -/
def forget : Registry Unit where
  settings := r.settings
  graph := r.graph
  classes := r.classes.mapValues (·.map fun _ => ())
  markers := r.markers
  heritages := r.heritages

/-! ## Looking up -/

/-- The node with that name: a class, a marker or a declared type. -/
def lookup (n : Name) : Option TypeId := r.graph.lookup n

/-- The class at that node: the root class or a concrete one. -/
def classDef? (id : TypeId) : Option (ClassDef β) := r.classes.get? id

/-- The class with that name. -/
def classId (n : Name) : Except Error TypeId :=
  match (r.lookup n).filter r.classes.contains with
  | some id => .ok id
  | none => .error (.unknownClass n)

/-- What a message calls a node. -/
def typeName (id : TypeId) : String := (r.graph.name? id).getD s!"<type {id}>"

/-- The class at that node, if it can have instances of its own. -/
def instantiable (id : TypeId) : Except Error (ClassDef β) :=
  match (r.classDef? id).filter (·.id ≠ rootId) with
  | some d => .ok d
  | none =>
    if r.graph.isAbstract id then .error (.notAConcreteClass (r.typeName id))
    else .error (.notAClass (r.typeName id))

/-- The layout of the class at that node. -/
def layout (id : TypeId) : Except Error Layout :=
  match r.classDef? id with
  | some d => .ok d.layout
  | none => .error (.notAClass (r.typeName id))

/-- Every way to build or to fill an instance of the class. -/
def constructors (id : TypeId) : Except Error (List ConstructorInfo) :=
  (r.instantiable id).map (·.constructorInfos)

/-- The number of classes besides the root class. -/
def size : Nat := r.classes.size - 1

/-- Is the root class the only one? -/
def isEmpty : Bool := r.size = 0

/-! ## Declaring types -/

/-- Adds a type that is no class, below an abstract one or on its own. -/
def declare (n : Name) (kind : NodeKind) (supertype : Option TypeId) :
    Except Error TypeId × Registry β :=
  if !isIdentifier n then (.error (.definition n .typeNameNotIdentifier), r)
  else if (r.lookup n).isSome then (.error (.duplicateClass n), r)
  else match supertype.filter (!r.graph.isAbstract ·) with
    | some sup => (.error (.definition n (.supertypeNotAbstract (r.typeName sup))), r)
    | none => (.ok r.graph.size, { r with graph := r.graph.add n kind supertype })

/-- Adds an abstract type, below an abstract one or as the root of a hierarchy of its own. -/
def declareAbstract (n : Name) (supertype : Option TypeId) : Except Error TypeId × Registry β :=
  r.declare n .abstract supertype

/-- Adds a concrete type below an abstract one. -/
def declareConcrete (n : Name) (supertype : TypeId) : Except Error TypeId × Registry β :=
  r.declare n .concrete (some supertype)

end Registry

end ClassGraph
