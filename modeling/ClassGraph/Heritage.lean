import ClassGraph.Error
import ClassGraph.Value
import ClassGraph.Naming.Fresh

/-!
# What a class passes on

The heritage of a class is what its subclasses start from: its type parameters under fresh names,
its fields in terms of these, and its superclass. It is worked out once and then kept, so that
all subclasses of a class agree on the names.

* `Layout.passOn`: the heritage of a class from its layout, within a scope of renaming;
* `HeritageStore.getOrCompute`: a heritage that is kept is not worked out again; one that cannot
  be worked out is not kept.
-/

namespace ClassGraph

/-- What a class passes on to its subclasses. -/
structure Heritage where
  /-- The type parameters under their fresh names. -/
  params : List TypeParam
  /-- The fields, their types in terms of the fresh names. -/
  fields : List Field
  superclass : Option TypeId
  /-- From each type parameter of the class to its fresh name. -/
  substitution : Substitution
deriving DecidableEq

/-- Nothing is passed on. -/
def Heritage.empty : Heritage := ⟨[], [], none, ∅⟩

/-- Renames the type parameters of a layout in the given scope, in bounds and field types too. -/
def Layout.passOn (l : Layout) (superclass : Option TypeId) (scope : Scope) : Heritage :=
  let (params, scope) := scope.renameParams l.typeParams
  let fields := l.fields.map fun f => ⟨f.name, f.ty.subst scope.substitution⟩
  ⟨params, fields, superclass, scope.substitution⟩

/-- The heritages worked out so far, and where their scopes take their numbers from. -/
structure HeritageStore where
  kept : Table TypeId Heritage
  fresh : Fresh
deriving DecidableEq

namespace HeritageStore

/-- Nothing has been worked out. -/
def empty : HeritageStore := ⟨∅, .start⟩

instance : Inhabited HeritageStore := ⟨empty⟩

/-- The heritage of a node, if it has been worked out. -/
def get? (s : HeritageStore) (id : TypeId) : Option Heritage := s.kept.get? id

/-- The heritage of a node, worked out by `compute` if it is not there yet. Scopes that `compute`
opens stay used up even if it fails. -/
def getOrCompute (s : HeritageStore) (id : TypeId)
    (compute : Fresh → Except Error Heritage × Fresh) : Except Error Heritage × HeritageStore :=
  match s.get? id with
  | some h => (.ok h, s)
  | none =>
    match compute s.fresh with
    | (.ok h, fresh) => (.ok h, ⟨s.kept.insert id h, fresh⟩)
    | (.error e, fresh) => (.error e, { s with fresh })

end HeritageStore

end ClassGraph
