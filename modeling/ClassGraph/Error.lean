import ClassGraph.Ty

/-!
# What can go wrong

Every refusal of the library is an `Error`: what was refused and why, in the terms of the
domain. `Error.message` puts it into words. An answer that is worked out from others is given when
they are: `map_eq_ok_iff`, `bind_eq_ok_iff`.
-/

namespace ClassGraph

/-- Why a class, or a declared type, cannot be defined as described. -/
inductive DefinitionIssue
  | nameNotIdentifier
  | paramNotIdentifier (param : Name)
  | tooDeep (depth limit : Nat)
  | duplicateConstructorParam
  | foreignConstructor
  | statement (text : String)
  | duplicateTypeParam
  | duplicateField
  | unknownType (name : Name)
  | undeclaredParam (name : Name)
  | parametrizedWithoutParams
  | typeNameNotIdentifier
  | supertypeNotAbstract (supertype : String)
deriving DecidableEq, Repr

/-- The words for the issue. -/
def DefinitionIssue.message : DefinitionIssue → String
  | nameNotIdentifier => "the class name is not an identifier"
  | paramNotIdentifier p => s!"type parameter `{p}` is not an identifier"
  | tooDeep depth limit => s!"inheritance depth {depth} exceeds the limit of {limit}"
  | duplicateConstructorParam => "duplicate constructor parameter"
  | foreignConstructor => "only constructors of the class itself may appear in its body"
  | statement text => s!"unexpected statement `{text}`"
  | duplicateTypeParam => "duplicate type parameter"
  | duplicateField => "a field reuses an existing field name"
  | unknownType n => s!"unknown type `{n}`"
  | undeclaredParam n => s!"undeclared type parameter `{n}`"
  | parametrizedWithoutParams => "a parametrized constructor needs type parameters"
  | typeNameNotIdentifier => "not a valid type name"
  | supertypeNotAbstract sup => s!"supertype `{sup}` is not an abstract type"

/-- Why settings that can be read are refused. -/
inductive SettingsIssue
  | rootName (name : String)
  | markerPrefix (name : String)
  | zeroDepth
deriving DecidableEq, Repr

/-- The words for the issue. -/
def SettingsIssue.message : SettingsIssue → String
  | rootName n => s!"root name `{n}` is not an identifier"
  | markerPrefix n => s!"marker prefix `{n}` is not an identifier"
  | zeroDepth => "depth limits must be positive"

/-- Why a text cannot be read: it ends too early, it breaks the grammar, or it is grammatical and
says something of the wrong shape. -/
inductive TextFault
  | ended
  | malformed
  | mismatched
deriving DecidableEq, Repr

/-- The words for the fault. -/
def TextFault.message : TextFault → String
  | ended => "the text ends too early"
  | malformed => "the text is malformed"
  | mismatched => "the text does not have the expected shape"

/-- A refusal, with its cause. Classes and types are given by name. -/
inductive Error
  | definition (cls : String) (issue : DefinitionIssue)
  | unknownSuperclass (cls superclass : Name)
  | duplicateClass (name : Name)
  | unknownClass (name : Name)
  | notAClass (type : String)
  | notAConcreteClass (type : String)
  /-- A marker has no realization, or several. -/
  | ambiguousConcreteClass (marker : Name) (candidates : List String)
  | noMatchingConstructor (cls : Name) (arity : Nat) (parametrized : Bool)
  | typeMismatch (cls field : Name) (expected : Ty) (found : String)
  | boundViolation (cls param : Name) (actual bound : Ty)
  | unresolvedTypeParameter (cls param : Name)
  | typeArgumentCount (cls : Name) (expected got : Nat)
  | immutable (cls : Name)
  | notAnInstance (cls instanceOf : Name)
  | unknownField (cls : Name) (field : String)
  | constructorDepthExceeded (limit : Nat)
  | hierarchyDepthExceeded (cls : String) (limit : Nat)
  | constructorResult (cls returned : Name)
  /-- Raised by the body of a user constructor. -/
  | body (cls : String) (text : String)
  | settingsText (fault : TextFault)
  | settings (issue : SettingsIssue)
deriving DecidableEq, Repr

/-- The words for the refusal. -/
def Error.message : Error → String
  | definition cls issue => s!"invalid definition of class `{cls}`: {issue.message}"
  | unknownSuperclass cls sup => s!"unknown superclass `{sup}` for class `{cls}`"
  | duplicateClass n => s!"type `{n}` is already defined"
  | unknownClass n => s!"unknown class `{n}`"
  | notAClass t => s!"`{t}` is not a class"
  | notAConcreteClass t => s!"`{t}` is not a concrete class"
  | ambiguousConcreteClass marker candidates =>
    let names := ", ".intercalate candidates
    s!"cannot determine the concrete class of `{marker}`: candidates [{names}]"
  | noMatchingConstructor cls arity parametrized =>
    let call := if parametrized then " with explicit type arguments" else ""
    s!"no constructor of `{cls}` accepts {arity} argument(s){call}"
  | typeMismatch cls field expected found =>
    s!"field `{field}` of `{cls}` expects {expected.toText}, got {found}"
  | boundViolation cls param actual bound =>
    s!"type parameter `{param}` of `{cls}` is bound to {actual.toText}, " ++
      s!"which is not a subtype of {bound.toText}"
  | unresolvedTypeParameter cls param =>
    s!"cannot determine type parameter `{param}` of `{cls}` from the given values"
  | typeArgumentCount cls expected got =>
    s!"`{cls}` expects {expected} type argument(s), got {got}"
  | immutable cls => s!"instances of `{cls}` are immutable"
  | notAnInstance cls other => s!"an instance of `{other}` is not an instance of `{cls}`"
  | unknownField cls field => s!"`{cls}` has no field `{field}`"
  | constructorDepthExceeded limit => s!"constructor calls nested deeper than {limit} levels"
  | hierarchyDepthExceeded cls limit =>
    s!"the hierarchy above `{cls}` is deeper than {limit} levels"
  | constructorResult cls returned =>
    s!"a constructor of `{cls}` returned an instance of `{returned}`"
  | body cls text => s!"constructor of `{cls}` failed: {text}"
  | settingsText fault => s!"invalid registry options: {fault.message}"
  | settings issue => s!"invalid registry options: {issue.message}"

/-! ## Answers -/

section

variable {ε α γ : Type}

/-- An answer that has been converted was an answer before. -/
theorem map_eq_ok_iff {x : Except ε α} {f : α → γ} {b : γ} :
    x.map f = .ok b ↔ ∃ a, x = .ok a ∧ f a = b := by
  cases x <;> simp [Except.map]

/-- Two questions are answered if the second is, given the answer to the first. -/
theorem bind_eq_ok_iff {x : Except ε α} {f : α → Except ε γ} {b : γ} :
    (x >>= f) = .ok b ↔ ∃ a, x = .ok a ∧ f a = .ok b := by
  cases x <;> simp [bind, Except.bind]

end

end ClassGraph
