import ClassGraph.Registry.Define

/-!
# Constructor bodies

The body of a user constructor is a function from the place of its call and the arguments to a
`Program`: a tree of what the constructor asks of the registry, one request after the other, with
an instance or an error at the end. A program always ends if what it asks for does.
-/

namespace ClassGraph

/-- Where a body is called, as far as the body can see. -/
structure CallSite where
  /-- The class that is being constructed. -/
  cls : TypeId
  /-- The type arguments, if the call has any. -/
  explicit : Option (List Ty)

/-- A call in progress. Its depth counts against the limit and is hidden from the body. -/
structure Frame extends CallSite where
  /-- How many constructors and guides are at work inside one another, this one counted. -/
  depth : Nat

/-- The type arguments of the call; none if it has none. -/
def CallSite.typeArgs (site : CallSite) : List Ty := site.explicit.getD []

/-- What a constructor body does. -/
inductive Program
  /-- Ends with an instance or an error. -/
  | done (result : Except Error Instance)
  /-- Writes a value into the log. -/
  | log (v : Value) (next : Program)
  /-- Asks for an instance of the class under construction, a value for every field. -/
  | newInstance (values : List Value) (next : Except Error Instance → Program)
  /-- Calls a constructor of the class under construction. -/
  | call (typeArgs : Option (List Ty)) (args : List Value)
      (next : Except Error Instance → Program)
  /-- Calls a constructor of any class, as if from outside. -/
  | construct (cls : TypeId) (typeArgs : Option (List Ty)) (args : List Value)
      (next : Except Error Instance → Program)
  /-- Defines a class. -/
  | define (d : ClassDecl (CallSite → List Value → Program))
      (next : Except Error TypeId → Program)
  /-- Declares a type that is no class. -/
  | declare (n : Name) (kind : NodeKind) (supertype : Option TypeId)
      (next : Except Error TypeId → Program)
  /-- Asks what a node passes on. -/
  | heritage (id : TypeId) (next : Except Error Heritage → Program)
  /-- Looks at the registry. -/
  | look (next : Registry Unit → Program)

/-- The body of a user constructor. -/
abbrev Body := CallSite → List Value → Program

end ClassGraph
