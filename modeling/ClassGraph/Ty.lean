import ClassGraph.Table

/-!
# Types

A field, a constructor parameter or the bound of a type parameter has a type: one of the
primitive types, a node of the type graph by its name, a type parameter, a list, or `Any`.
A `Substitution` gives types to type parameters.

* `Prim.isSubtype`: `Number` stands above `Int` and `Float`, else only equal primitives compare;
* `Ty.ofName` and `Ty.toText`: the two directions between a type and its written name;
* `Ty.subst`: all parameters are replaced at once, what replaces them is not looked at again.
-/

namespace ClassGraph

/-- The name of a class, a marker, a declared type, a field or a type parameter. -/
abbrev Name := String

/-- The number of a node of the type graph, in order of creation. -/
abbrev TypeId := Nat

/-- The root class: the first node of every type graph. -/
def rootId : TypeId := 0

/-! ## Primitive types -/

/-- The built-in value types. `number` is abstract: integers and floats are its values. -/
inductive Prim
  | nothing
  | bool
  | int
  | float
  | number
  | str
deriving DecidableEq, Repr

namespace Prim

/-- The written name. -/
def name : Prim → Name
  | nothing => "Nothing"
  | bool => "Bool"
  | int => "Int"
  | float => "Float"
  | number => "Number"
  | str => "Str"

/-- Every primitive type. -/
def all : List Prim := [nothing, bool, int, float, number, str]

/-- The primitive type with that written name. -/
def ofName? (n : Name) : Option Prim := all.find? (·.name = n)

/-- `Number` is the one primitive type that no value has as its own. -/
def isAbstract (p : Prim) : Bool := p = number

/-- Is every value of `p` a value of `q`? -/
def isSubtype (p q : Prim) : Bool := p = q || (q = number && (p = int || p = float))

theorem ofName?_name (p : Prim) : ofName? p.name = some p := by cases p <;> decide

end Prim

/-! ## Type expressions -/

/-- The type of a field, of a constructor parameter, or the bound of a type parameter. -/
inductive Ty
  /-- Every value. -/
  | any
  | prim (p : Prim)
  /-- A node of the type graph. The name of a class stands for its own instances alone, that of
  an abstract node for the instances of everything below it. -/
  | named (name : Name)
  /-- A type parameter. -/
  | param (name : Name)
  | list (element : Ty)
deriving DecidableEq, Repr

instance : Inhabited Ty := ⟨.any⟩

/-- A type parameter and its upper bound; `any` bounds nothing. -/
structure TypeParam where
  name : Name
  bound : Ty
deriving DecidableEq, Repr

/-- A named and typed place: a field of a class or a parameter of a constructor. -/
structure Field where
  name : Name
  ty : Ty
deriving DecidableEq, Repr

/-- What some type parameters stand for. -/
abbrev Substitution := Table Name Ty

namespace Substitution

/-- Binds the parameters to the types one by one; what is left over on either side is ignored,
and of two parameters with one name the later one counts. -/
def bindAll (s : Substitution) (params : List TypeParam) (args : List Ty) : Substitution :=
  (params.zip args).foldl (fun s (p, t) => s.insert p.name t) s

/-- The parameters bound to the types, nothing else. -/
def ofArgs (params : List TypeParam) (args : List Ty) : Substitution := bindAll ∅ params args

@[simp] theorem bindAll_nil_left (s : Substitution) (ts : List Ty) : bindAll s [] ts = s := rfl

@[simp] theorem bindAll_nil_right (s : Substitution) (ps : List TypeParam) :
    bindAll s ps [] = s := by
  simp [bindAll]

@[simp] theorem bindAll_cons (s : Substitution) (p : TypeParam) (ps : List TypeParam) (t : Ty)
    (ts : List Ty) : bindAll s (p :: ps) (t :: ts) = bindAll (s.insert p.name t) ps ts := rfl

end Substitution

namespace Ty

/-- A type from a bare name: `Any`, a primitive type, else a node of the type graph. -/
def ofName (n : Name) : Ty :=
  if n = "Any" then any else
    match Prim.ofName? n with
    | some p => prim p
    | none => named n

/-- Is this the type of every value? -/
def isAny (t : Ty) : Bool := t = any

/-- The written form; the element type of a list stands in braces. -/
def toText : Ty → String
  | any => "Any"
  | prim p => p.name
  | named n => n
  | param n => n
  | list t => "List\x7b" ++ t.toText ++ "\x7d"

/-- Replaces every parameter that `s` binds, all at once. -/
def subst (s : Substitution) : Ty → Ty
  | param n => (s.get? n).getD (param n)
  | list t => list (t.subst s)
  | any => any
  | prim p => prim p
  | named n => named n

/-- Does no type parameter occur? -/
def isClosed : Ty → Bool
  | param _ => false
  | list t => t.isClosed
  | _ => true

@[simp] theorem subst_any (s : Substitution) : subst s any = any := rfl
@[simp] theorem subst_prim (s : Substitution) (p : Prim) : subst s (prim p) = prim p := rfl
@[simp] theorem subst_named (s : Substitution) (n : Name) : subst s (named n) = named n := rfl
@[simp] theorem subst_param (s : Substitution) (n : Name) :
    subst s (param n) = (s.get? n).getD (param n) := rfl
@[simp] theorem subst_list (s : Substitution) (t : Ty) : subst s (list t) = list (t.subst s) := rfl

/-- A type without parameters is left as it is. -/
theorem subst_of_isClosed (s : Substitution) : ∀ {t : Ty}, t.isClosed = true → t.subst s = t
  | any, _ => rfl
  | prim _, _ => rfl
  | named _, _ => rfl
  | param _, h => by simp [isClosed] at h
  | list t, h => by rw [subst_list, subst_of_isClosed s (t := t) h]

end Ty

end ClassGraph
