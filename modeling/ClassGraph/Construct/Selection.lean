import ClassGraph.Matching
import ClassGraph.Registry.Basic

/-!
# Selection of a constructor

A constructor is applicable to arguments if it takes type arguments just when some are given, if
it has the right number of parameters, and if the arguments match these with bindings within all
bounds. Of the applicable constructors the most specific one is selected, and of equally specific
ones the first.

* `Graph.isApplicable`: whether a constructor comes into question, each one tried on its own;
* `best?`: the first among the highest scores;
* `Registry.select`: the class and the place of the constructor, or why there is none.
-/

namespace ClassGraph

variable {β : Type}

/-- The place with the highest score; of equal ones the first. -/
def best? : List (Nat × Nat) → Option (Nat × Nat)
  | [] => none
  | c :: cs =>
    match best? cs with
    | none => some c
    | some d => if d.2 > c.2 then some d else some c

namespace Graph

variable (g : Graph)

/-- Does the constructor of a class with the type parameters `params` accept the arguments?
`explicit` are the type arguments, if there are any. -/
def isApplicable (params : List TypeParam) (explicit : Option Substitution) (args : List Value)
    (c : Constructor β) : Bool :=
  c.parametrized = explicit.isSome && c.arity = args.length &&
    match g.matchFields (explicit.getD ∅) c.params args with
    | .ok s => (g.violated? s params).isNone
    | .error _ => false

/-- How much the parameters of a constructor say, all together. -/
def score (c : Constructor β) : Nat := c.params.foldl (· + g.specificity ·.ty) 0

/-- The applicable constructors by place, with their scores. -/
def candidates (params : List TypeParam) (explicit : Option Substitution) (args : List Value)
    (cs : List (Constructor β)) : List (Nat × Nat) :=
  cs.zipIdx.filterMap fun (c, index) =>
    if g.isApplicable params explicit args c then some (index, g.score c) else none

end Graph

namespace ClassDef

/-- The explicit type arguments bound to the parameters of the class. -/
def explicitBindings (d : ClassDef β) :
    Option (List Ty) → Except Error (Option Substitution)
  | none => .ok none
  | some ts =>
    if ts.length ≠ d.typeParams.length then
      .error (.typeArgumentCount d.name d.typeParams.length ts.length)
    else .ok (some (.ofArgs d.typeParams ts))

end ClassDef

namespace Registry

variable (r : Registry β)

/-- Selects a constructor of a class for the arguments. -/
def selectIn (d : ClassDef β) (typeArgs : Option (List Ty)) (args : List Value) :
    Except Error Nat :=
  match d.explicitBindings typeArgs with
  | .error e => .error e
  | .ok explicit =>
    match explicit.bind (r.graph.violated? · d.typeParams) with
    | some (p, t) => .error (.boundViolation d.name p.name t p.bound)
    | none =>
      match best? (r.graph.candidates d.typeParams explicit args d.constructors) with
      | some (index, _) => .ok index
      | none => .error (.noMatchingConstructor d.name args.length typeArgs.isSome)

/-- Finds the class and selects one of its constructors. -/
def select (cls : TypeId) (typeArgs : Option (List Ty)) (args : List Value) :
    Except Error (ClassDef β × Nat) :=
  match r.instantiable cls with
  | .error e => .error e
  | .ok d => (r.selectIn d typeArgs args).map fun index => (d, index)

end Registry

end ClassGraph
