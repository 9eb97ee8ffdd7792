import ClassGraph.Class.Declaration
import ClassGraph.Registry.Inheritance

/-!
# Blueprints

A blueprint is a declared class brought together with what it inherits: all its type parameters
and fields, ancestors' first, and its constructors in the order in which they are considered.
To draw it up changes nothing in the registry but that the heritage of the superclass is kept.

* `Registry.outline`: what can be checked before the heritage is asked for;
* `Registry.assemble`: the rest, in terms of the heritage;
* `Registry.blueprint`: the two together; the first thing wrong is the error.

The constructors are those written for the class, then the default ones (one that infers the type
arguments and, if there are type parameters, one that takes them), then the one that copies and
extends an instance of the superclass, if fields are inherited, and then the guides, if the class
adds no field to a superclass other than the root class.
-/

namespace ClassGraph

/-- A class that is ready to be defined. -/
structure Blueprint (β : Type) where
  name : Name
  markerName : Name
  superclass : TypeId
  isMutable : Bool
  typeParams : List TypeParam
  fields : List Field
  inherited : Nat
  constructors : List (Constructor β)

/-- Does filling the local fields differ from filling all of them? -/
def Blueprint.hasLocalFill {β : Type} (b : Blueprint β) : Bool := 0 < b.inherited

/-- A declaration whose body has been taken apart and whose superclass has been found. -/
structure Outline (β : Type) where
  superDef : ClassDef β
  localFields : List Field
  userConstructors : List (ConstructorDecl β)

/-- The name of the parameter that takes the instance of the superclass. -/
def superParam : Name := "_super"

variable {β : Type}

/-- The fields and the constructors of the body of the class `cls`, in order. -/
def splitBody (cls : Name) :
    List (BodyEntry β) → Except DefinitionIssue (List Field × List (ConstructorDecl β))
  | [] => .ok ([], [])
  | .field f :: rest => (splitBody cls rest).map fun (fs, cs) => (f :: fs, cs)
  | .ctor c :: rest =>
    if c.name ≠ cls then .error .foreignConstructor
    else if ¬ (c.params.map (·.name)).Nodup then .error .duplicateConstructorParam
    else (splitBody cls rest).map fun (fs, cs) => (fs, c :: cs)
  | .statement text :: _ => .error (.statement text)

/-- Appends entries to those that there are; one that has the name of an entry before it is the
given issue. -/
def extend {α : Type} (name : α → Name) (issue : DefinitionIssue) (xs : List α) :
    List α → Except DefinitionIssue (List α)
  | [] => .ok xs
  | y :: ys => if xs.any (name · = name y) then .error issue else extend name issue (xs ++ [y]) ys

/-- Appends declared type parameters to those that there are. -/
def extendParams : List TypeParam → List TypeParam → Except DefinitionIssue (List TypeParam) :=
  extend TypeParam.name .duplicateTypeParam

/-- Appends declared fields to those that there are. -/
def extendFields : List Field → List Field → Except DefinitionIssue (List Field) :=
  extend Field.name .duplicateField

/-- The first name in a type that stands for nothing: `known` says which nodes there are, and
`params` are the type parameters. -/
def Ty.issue? (known : Name → Bool) (params : List Name) : Ty → Option DefinitionIssue
  | .any => none
  | .prim _ => none
  | .named n => if known n then none else some (.unknownType n)
  | .param n => if n ∈ params then none else some (.undeclaredParam n)
  | .list t => t.issue? known params

/-! ## Constructors of a class -/

/-- The constructor that was written down. -/
def ConstructorDecl.toConstructor (c : ConstructorDecl β) : Constructor β :=
  ⟨c.params, c.parametrized, .user c.body⟩

/-- The constructors that take a value for every field. -/
def defaultConstructors (params : List TypeParam) (fields : List Field) : List (Constructor β) :=
  ⟨fields, false, .default⟩ :: if params = [] then [] else [⟨fields, true, .default⟩]

/-- The constructor that copies an instance of the superclass and extends it. -/
def copyExtendConstructors (superName : Name) (fields : List Field) (inherited : Nat) :
    List (Constructor β) :=
  if 0 < inherited then
    [⟨⟨superParam, .named superName⟩ :: fields.drop inherited, false, .copyExtend⟩]
  else []

/-- The guide to the constructor at the place `index`: of the same shape, its types put into the
parameters of the class. -/
def Constructor.toGuide (c : Constructor β) (s : Substitution) (index : Nat) : Constructor β :=
  ⟨c.params.map fun p => ⟨p.name, p.ty.subst s⟩, c.parametrized, .guide index⟩

/-- A guide for each constructor of the superclass that is not a default one. -/
def guides (superDef : ClassDef β) (s : Substitution) : List (Constructor β) :=
  superDef.constructors.zipIdx.filterMap fun (c, index) =>
    if c.isDefault then none else some (c.toGuide s index)

/-- The guides of a class that has the fields `fields`, of which `inherited` come from above. -/
def guideConstructors (superDef : ClassDef β) (s : Substitution) (fields : List Field)
    (inherited : Nat) : List (Constructor β) :=
  if fields.length = inherited ∧ superDef.id ≠ rootId then guides superDef s else []

namespace Registry

variable (r : Registry β)

/-- The superclass that a declaration names, or the root class. -/
def resolveSuperclass (d : ClassDecl β) : Except Error (ClassDef β) :=
  match d.superclass with
  | none =>
    match r.classDef? rootId with
    | some root => .ok root
    | none => .error (.unknownClass r.settings.rootName)
  | some n =>
    match (r.lookup n).bind r.classDef? with
    | some sup => .ok sup
    | none => .error (.unknownSuperclass d.name n)

/-- The name of the marker that the class is going to have. -/
def markerName (d : ClassDecl β) : Name := r.settings.markerName d.name

/-- The first of the names of a declaration that is no identifier or is taken. -/
def nameError? (d : ClassDecl β) : Option Error :=
  if !isIdentifier d.name then some (.definition d.name .nameNotIdentifier)
  else if (r.lookup d.name).isSome then some (.duplicateClass d.name)
  else if (r.lookup (r.markerName d)).isSome then some (.duplicateClass (r.markerName d))
  else (d.typeParams.find? (!isIdentifier ·.name)).map fun p =>
    .definition d.name (.paramNotIdentifier p.name)

/-- Is a class below `superDef` within the limit on the number of ancestors? -/
def checkDepth (d : ClassDecl β) (superDef : ClassDef β) : Except Error Unit :=
  match r.superclasses superDef.id with
  | .error e => .error e
  | .ok ids =>
    if ids.length + 1 > r.settings.maxHierarchyDepth then
      .error (.definition d.name (.tooDeep (ids.length + 1) r.settings.maxHierarchyDepth))
    else .ok ()

/-- Checks the names, finds the superclass, checks the depth and takes the body apart. -/
def outline (d : ClassDecl β) : Except Error (Outline β) :=
  match r.nameError? d with
  | some e => .error e
  | none =>
    match r.resolveSuperclass d with
    | .error e => .error e
    | .ok superDef =>
      match r.checkDepth d superDef with
      | .error e => .error e
      | .ok () =>
        match splitBody d.name d.body with
        | .error issue => .error (.definition d.name issue)
        | .ok (fields, ctors) => .ok ⟨superDef, fields, ctors⟩

/-- Is it the name of a node, or one of the two that the class is going to have? -/
def knows (d : ClassDecl β) (n : Name) : Bool :=
  n = d.name || n = r.markerName d || (r.lookup n).isSome

/-- The types that a declaration writes down: bounds, field types, parameter types. -/
def declaredTypes (d : ClassDecl β) (o : Outline β) : List Ty :=
  d.typeParams.map (·.bound) ++ o.localFields.map (·.ty) ++
    (o.userConstructors.flatMap (·.params)).map (·.ty)

/-- The first thing wrong with the types and the constructors of a declaration, if `params` are
all the type parameters. -/
def typeIssue? (d : ClassDecl β) (o : Outline β) (params : List TypeParam) :
    Option DefinitionIssue :=
  match (declaredTypes d o).findSome? (Ty.issue? (r.knows d) (params.map (·.name))) with
  | some issue => some issue
  | none =>
    if params = [] ∧ o.userConstructors.any (·.parametrized) then some .parametrizedWithoutParams
    else none

/-- The blueprint of a class of which these are all type parameters and all fields. -/
def draw (d : ClassDecl β) (o : Outline β) (h : Heritage) (params : List TypeParam)
    (fields : List Field) : Blueprint β where
  name := d.name
  markerName := r.markerName d
  superclass := o.superDef.id
  isMutable := d.isMutable
  typeParams := params
  fields := fields
  inherited := h.fields.length
  constructors :=
    o.userConstructors.map (·.toConstructor) ++ defaultConstructors params fields ++
      copyExtendConstructors o.superDef.name fields h.fields.length ++
      guideConstructors o.superDef h.substitution fields h.fields.length

/-- Joins a declaration with the heritage of its superclass. -/
def assemble (d : ClassDecl β) (o : Outline β) (h : Heritage) :
    Except DefinitionIssue (Blueprint β) :=
  match extendParams h.params d.typeParams with
  | .error issue => .error issue
  | .ok params =>
    match extendFields h.fields o.localFields with
    | .error issue => .error issue
    | .ok fields =>
      match r.typeIssue? d o params with
      | some issue => .error issue
      | none => .ok (r.draw d o h params fields)

/-- Draws up the blueprint of a class. -/
def blueprint (d : ClassDecl β) : Except Error (Blueprint β) × Registry β :=
  match r.outline d with
  | .error e => (.error e, r)
  | .ok o =>
    match r.heritage o.superDef.id with
    | (.error e, r) => (.error e, r)
    | (.ok h, r) =>
      match r.assemble d o h with
      | .error issue => (.error (.definition d.name issue), r)
      | .ok b => (.ok b, r)

end Registry

end ClassGraph
