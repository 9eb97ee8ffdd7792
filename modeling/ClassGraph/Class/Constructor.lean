import ClassGraph.Ty

/-!
# Constructors

A class has, in the order in which they are considered: the constructors written for it, the
default constructors over all its fields, the constructor that copies and extends an instance of
the superclass, and the guides, which forward to the superclass's constructors.
-/

namespace ClassGraph

/-- What a constructor does. -/
inductive ConstructorKind (β : Type)
  /-- Runs a body. -/
  | user (body : β)
  /-- Takes a value for every field. -/
  | default
  /-- Takes an instance of the superclass and a value for every local field. -/
  | copyExtend
  /-- Calls the constructor of the superclass at this place and makes its result an instance of
  the class. -/
  | guide (index : Nat)

/-- A constructor of a class; its parameter types mention the type parameters of that class. -/
structure Constructor (β : Type) where
  params : List Field
  parametrized : Bool
  kind : ConstructorKind β

/-- The part that a constructor plays, together with the two ways to fill an instance. -/
inductive Role
  | user
  | default
  | copyExtend
  | guide
  | fill
  | fillLocal
deriving DecidableEq, Repr

/-- The name of the role. -/
def Role.name : Role → String
  | user => "User"
  | default => "Default"
  | copyExtend => "CopyExtend"
  | guide => "Guide"
  | fill => "FullInitializer"
  | fillLocal => "LocalInitializer"

variable {β γ : Type}

namespace ConstructorKind

/-- The role of the kind. -/
def role : ConstructorKind β → Role
  | user _ => .user
  | default => .default
  | copyExtend => .copyExtend
  | guide _ => .guide

/-- Applies `f` to the body, if there is one. -/
def map (f : β → γ) : ConstructorKind β → ConstructorKind γ
  | user b => user (f b)
  | default => default
  | copyExtend => copyExtend
  | guide i => guide i

end ConstructorKind

namespace Constructor

/-- The number of arguments. -/
def arity (c : Constructor β) : Nat := c.params.length

/-- The role of the constructor. -/
def role (c : Constructor β) : Role := c.kind.role

/-- Does the constructor take a value for every field? -/
def isDefault (c : Constructor β) : Bool := c.role = .default

/-- Applies `f` to the body, if there is one. -/
def map (f : β → γ) (c : Constructor β) : Constructor γ := ⟨c.params, c.parametrized, c.kind.map f⟩

end Constructor

/-- One way to build or to fill an instance. Filling counts the instance as an argument. -/
structure ConstructorInfo where
  role : Role
  arity : Nat
  parametrized : Bool
deriving DecidableEq, Repr

end ClassGraph
