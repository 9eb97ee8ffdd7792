import ClassGraph.Graph
import ClassGraph.Value

/-!
# Matching values with types

Whether a value fits a type is decided against the type graph and against what the type
parameters stand for so far. A parameter that stands for nothing yet takes the inferred type of
the value at hand; from then on it stands for that type.

* `Graph.matchValue`, `Graph.matchFields`: matching, with the bindings that it leaves, also where
  it fails;
* `Graph.isSubtypeOf`: the order on types that goes with it;
* `Graph.violated?`: the first parameter bound to a type beyond its bound;
* `Graph.specificity`: how much a parameter type says, for choosing between constructors.
-/

namespace ClassGraph

namespace Substitution

/-- Follows a parameter to what it stands for, and on while that is a parameter again. -/
def follow (s : Substitution) : Nat → Ty → Ty
  | 0, t => t
  | fuel + 1, t =>
    match t with
    | .param n =>
      match s.get? n with
      | some u => s.follow fuel u
      | none => .param n
    | t => t

/-- What a type comes down to under the bindings. As many steps as there are bindings are enough;
a parameter that is bound and still comes out belongs to a circle of parameters. -/
def resolve (s : Substitution) (t : Ty) : Ty := s.follow (s.size + 1) t

end Substitution

/-- Is `v` a value of the primitive type? -/
def Prim.accepts (p : Prim) (v : Value) : Bool :=
  match p, v with
  | .nothing, .nothing => true
  | .bool, .bool _ => true
  | .int, .int _ => true
  | .float, .float _ => true
  | .number, .int _ => true
  | .number, .float _ => true
  | .str, .str _ => true
  | _, _ => false

/-- Where a match failed, and what the parameters stood for at that point. -/
structure Misfit where
  field : Field
  value : Value
  bindings : Substitution

namespace Graph

variable (g : Graph)

/-- Is it an instance of the node with that name, or of something below it? -/
def accepts (n : Name) (v : Value) : Bool :=
  match v with
  | .object i => (g.lookup n).any (g.isSubtype i.cls)
  | _ => false

/-- The bindings, as a match that succeeds if `fits` and else as one that fails. -/
def verdict (fits : Bool) (s : Substitution) : Except Substitution Substitution :=
  if fits then .ok s else .error s

/-- Matches a value with a type that has been followed; `onItems` says what to do at a list
type. A parameter that is bound and still comes out fits nothing. -/
def matchResolved (s : Substitution) (v : Value)
    (onItems : Ty → Except Substitution Substitution) : Ty → Except Substitution Substitution
  | .any => .ok s
  | .prim p => verdict (p.accepts v) s
  | .named n => verdict (g.accepts n v) s
  | .param n => if s.contains n then .error s else .ok (s.insert n v.infer)
  | .list t => onItems t

mutual

/-- Matches a value with a type. Either way the bindings come back with those that the match has
added, on failure those from before the misfit. -/
def matchValue (s : Substitution) (t : Ty) (v : Value) : Except Substitution Substitution :=
  match v with
  | .list items =>
    g.matchResolved s (.list items) (fun u => matchItems s u items) (s.resolve t)
  | v => g.matchResolved s v (fun _ => .error s) (s.resolve t)

/-- Matches every item with one type, from left to right. -/
def matchItems (s : Substitution) (t : Ty) (items : List Value) :
    Except Substitution Substitution :=
  match items with
  | [] => .ok s
  | v :: vs =>
    match matchValue s t v with
    | .ok s => matchItems s t vs
    | .error s => .error s

end

/-- Matches values with the types of their fields, from left to right. -/
def matchSlots (s : Substitution) : List (Field × Value) → Except Misfit Substitution
  | [] => .ok s
  | (f, v) :: rest =>
    match g.matchValue s f.ty v with
    | .ok s => matchSlots s rest
    | .error s => .error ⟨f, v, s⟩

/-- Matches values with the types of fields one by one, as far as both go. -/
def matchFields (s : Substitution) (fields : List Field) (values : List Value) :
    Except Misfit Substitution := g.matchSlots s (fields.zip values)

/-- Is the node with the one name that with the other or below it? -/
def isNameBelow (a b : Name) : Bool :=
  match g.lookup a, g.lookup b with
  | some i, some j => g.isSubtype i j
  | _, _ => a = b

/-- Is everything of the one type also of the other? Names that the graph does not know, and
parameters, are below themselves alone. -/
def isSubtypeOf (sub sup : Ty) : Bool :=
  match sup with
  | .any => true
  | .prim q => match sub with | .prim p => p.isSubtype q | _ => false
  | .named b => match sub with | .named a => g.isNameBelow a b | _ => false
  | .param n => sub = .param n
  | .list u => match sub with | .list t => isSubtypeOf t u | _ => false

/-- The first parameter that stands for a type beyond its bound, with that type. Parameters that
stand for nothing are passed over; bounds may mention other parameters. -/
def violated? (s : Substitution) : List TypeParam → Option (TypeParam × Ty)
  | [] => none
  | p :: ps =>
    match s.get? p.name with
    | some t => if g.isSubtypeOf t (p.bound.subst s) then violated? s ps else some (p, t)
    | none => violated? s ps

/-- How much a type says; more is more specific. -/
def specificity : Ty → Nat
  | .any => 0
  | .param _ => 1
  | .prim p => if p.isAbstract then 2 else 3
  | .named n => if (g.lookup n).any g.isAbstract then 2 else 3
  | .list t => 1 + specificity t

end Graph

end ClassGraph
