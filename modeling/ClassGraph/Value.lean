import ClassGraph.Ty

/-!
# Values and instances

A value is nothing, a boolean, a 64-bit integer, a double, a string, a list of values, or an
instance of a class. An instance carries the `Layout` of its class, one type for each type
parameter and one value for each field, inherited fields first. Values are plain data: to store
an instance in another one is to copy it.

* `Value.beq`: values are equal when they look the same; doubles are compared as IEEE 754 does,
  so a value that holds a NaN differs from itself;
* `Value.infer`: the most specific type of a value. A list has an element type of its own when it
  is not empty and all its elements agree, and else the element type `Any`.
-/

namespace ClassGraph

/-! ## Layouts -/

/-- What an instance of a class stores: a type for each of `typeParams` and a value for each of
`fields`, ancestors' first. -/
structure Layout where
  cls : TypeId
  name : Name
  isMutable : Bool
  typeParams : List TypeParam
  fields : List Field
  /-- How many of the fields, from the front, come from the ancestors. -/
  inherited : Nat
deriving DecidableEq, Repr

namespace Layout

/-- The place of the field with that name. -/
def fieldIndex? (l : Layout) (n : Name) : Option Nat := l.fields.findIdx? (·.name = n)

/-- The fields that the class itself declares. -/
def localFields (l : Layout) : List Field := l.fields.drop l.inherited

/-- The names of the type parameters. -/
def paramNames (l : Layout) : List Name := l.typeParams.map (·.name)

/-- The names of the fields. -/
def fieldNames (l : Layout) : List Name := l.fields.map (·.name)

end Layout

/-! ## Values -/

mutual

/-- A value of a field or an argument of a constructor. -/
inductive Value where
  | nothing
  | bool (b : Bool)
  | int (n : Int64)
  | float (x : Float)
  | str (s : String)
  | list (items : List Value)
  | object (i : Instance)

/-- An instance of a class. -/
structure Instance where
  layout : Layout
  typeArgs : List Ty
  fields : List Value

end

instance : Inhabited Value := ⟨.nothing⟩

namespace Instance

/-- The class of the instance. -/
def cls (i : Instance) : TypeId := i.layout.cls

/-- The name of the class of the instance. -/
def className (i : Instance) : Name := i.layout.name

/-- The value of the field with that name. -/
def get? (i : Instance) (n : Name) : Option Value := do i.fields[← i.layout.fieldIndex? n]?

/-- The type parameters of the class, bound to the instance's own types. -/
def substitution (i : Instance) : Substitution := .ofArgs i.layout.typeParams i.typeArgs

end Instance

mutual

/-- Do two values look the same? -/
def Value.beq (v w : Value) : Bool :=
  match v with
  | .nothing => match w with | .nothing => true | _ => false
  | .bool a => match w with | .bool b => a == b | _ => false
  | .int a => match w with | .int b => a == b | _ => false
  | .float a => match w with | .float b => a == b | _ => false
  | .str a => match w with | .str b => a == b | _ => false
  | .list as => match w with | .list bs => Value.beqAll as bs | _ => false
  | .object i => match w with | .object j => Instance.beq i j | _ => false

/-- Are two lists of values of one length, and equal place by place? -/
def Value.beqAll (vs ws : List Value) : Bool :=
  match vs with
  | [] => ws.isEmpty
  | v :: vs => match ws with | [] => false | w :: ws => Value.beq v w && Value.beqAll vs ws

/-- Do two instances agree in layout, types and values? -/
def Instance.beq (i j : Instance) : Bool :=
  match i with
  | ⟨l, ts, vs⟩ => l == j.layout && ts == j.typeArgs && Value.beqAll vs j.fields

end

instance : BEq Value := ⟨Value.beq⟩

instance : BEq Instance := ⟨Instance.beq⟩

namespace Value

/-- The shape of the value. -/
def kindName : Value → String
  | nothing => "Nothing"
  | bool _ => "Bool"
  | int _ => "Int"
  | float _ => "Float"
  | str _ => "Str"
  | list _ => "List"
  | object _ => "object"

/-- What a message calls the value: the class of an instance, the shape of anything else. -/
def describe : Value → String
  | object i => i.className
  | v => v.kindName

/-- The list type over the one type that all of `ts` agree on, or over `Any`. -/
def uniform : List Ty → Ty
  | [] => .list .any
  | t :: ts => if ts.all (· = t) then .list t else .list .any

mutual

/-- The most specific type of the value. -/
def infer : Value → Ty
  | nothing => .prim .nothing
  | bool _ => .prim .bool
  | int _ => .prim .int
  | float _ => .prim .float
  | str _ => .prim .str
  | object i => .named i.className
  | list items => uniform (inferAll items)

/-- The most specific types of several values. -/
def inferAll : List Value → List Ty
  | [] => []
  | v :: vs => infer v :: inferAll vs

end

theorem inferAll_eq_map (vs : List Value) : inferAll vs = vs.map infer := by
  induction vs with
  | nil => rfl
  | cons v vs ih => simp [inferAll, ih]

/-- An inferred type has no type parameter in it. -/
theorem isClosed_uniform {ts : List Ty} (h : ∀ t ∈ ts, t.isClosed = true) :
    (uniform ts).isClosed = true := by
  cases ts with
  | nil => rfl
  | cons t ts =>
    simp only [uniform]
    split
    · exact h t (by simp)
    · rfl

mutual

theorem isClosed_infer : ∀ v : Value, v.infer.isClosed = true
  | nothing => rfl
  | bool _ => rfl
  | int _ => rfl
  | float _ => rfl
  | str _ => rfl
  | object _ => rfl
  | list items => by
    rw [infer]
    exact isClosed_uniform (isClosed_inferAll items)

theorem isClosed_inferAll : ∀ vs : List Value, ∀ t ∈ inferAll vs, t.isClosed = true
  | [], t, h => by simp [inferAll] at h
  | v :: vs, t, h => by
    rw [inferAll, List.mem_cons] at h
    rcases h with rfl | h
    · exact isClosed_infer v
    · exact isClosed_inferAll vs t h

end

end Value

end ClassGraph
