import ClassGraph.Error
import ClassGraph.Matching

/-!
# Instantiation

An instance of a class comes about when a value for every field fits. The type arguments are
given, or known in part beforehand, or read off the values; at the end each type parameter has to
stand for something within its bound.

* `Graph.instantiate`: all checks in their order, then the instance.
-/

namespace ClassGraph

/-- A value of the class `cls` does not fit its field. -/
def Misfit.toError (cls : Name) (m : Misfit) : Error :=
  .typeMismatch cls m.field.name (m.field.ty.subst m.bindings) m.value.describe

namespace Graph

variable (g : Graph)

/-- The bindings to start from: the seed, and over it the type arguments if there are any. -/
def startBindings (l : Layout) (typeArgs : Option (List Ty)) (seed : Substitution) :
    Except Error Substitution :=
  match typeArgs with
  | none => .ok seed
  | some ts =>
    if ts.length ≠ l.typeParams.length then
      .error (.typeArgumentCount l.name l.typeParams.length ts.length)
    else .ok (seed.bindAll l.typeParams ts)

/-- The first thing wrong with what the type parameters stand for. -/
def bindingError? (l : Layout) (s : Substitution) : Option Error :=
  match l.typeParams.find? fun p => !s.contains p.name with
  | some p => some (.unresolvedTypeParameter l.name p.name)
  | none =>
    (g.violated? s l.typeParams).map fun (p, t) => .boundViolation l.name p.name t p.bound

/-- What the type parameters of a class stand for. -/
def typeArgsOf (l : Layout) (s : Substitution) : List Ty :=
  l.typeParams.map fun p => (s.get? p.name).getD .any

/-- Makes an instance of the class with that layout. Type arguments that are given win over the
seed. -/
def instantiate (l : Layout) (typeArgs : Option (List Ty)) (seed : Substitution)
    (values : List Value) : Except Error Instance :=
  if values.length ≠ l.fields.length then
    .error (.noMatchingConstructor l.name values.length typeArgs.isSome)
  else match startBindings l typeArgs seed with
    | .error e => .error e
    | .ok s =>
      match g.matchFields s l.fields values with
      | .error m => .error (m.toError l.name)
      | .ok s =>
        match g.bindingError? l s with
        | some e => .error e
        | none => .ok ⟨l, typeArgsOf l s, values⟩

end Graph

end ClassGraph
