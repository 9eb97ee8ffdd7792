import ClassGraph.Ty

/-!
# Class declarations

A class as it is written: its name, the superclass it names, its own type parameters, and a body
of fields and constructors. The type `β` of constructor bodies is left open; nothing before the
running of a constructor looks into a body.
-/

namespace ClassGraph

/-- A constructor as it is written. Its name has to be that of the class. A parametrized one is
called with explicit type arguments, any other one has them inferred. -/
structure ConstructorDecl (β : Type) where
  name : Name
  params : List Field
  parametrized : Bool
  body : β

/-- One entry of a class body. -/
inductive BodyEntry (β : Type)
  | field (f : Field)
  | ctor (c : ConstructorDecl β)
  /-- Anything that is neither; always refused. -/
  | statement (text : String)

/-- A class as it is written. Without a superclass it extends the root class. -/
structure ClassDecl (β : Type) where
  name : Name
  superclass : Option Name
  typeParams : List TypeParam
  isMutable : Bool
  body : List (BodyEntry β)

end ClassGraph
