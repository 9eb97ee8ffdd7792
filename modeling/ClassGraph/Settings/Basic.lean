import ClassGraph.Error
import ClassGraph.Naming.Identifier

/-!
# Settings of a registry

The name of the root class, what is put before the name of a class to name its marker, and two
limits: how deep constructor calls may nest, and how many ancestors a class may have, the root
counted. Settings hold good when both names are identifiers and both limits are positive; an
empty prefix would give every marker the name of its class.
-/

namespace ClassGraph

/-- What is fixed when a registry is created. -/
structure Settings where
  rootName : Name
  markerPrefix : Name
  maxConstructorDepth : Nat
  maxHierarchyDepth : Nat
deriving DecidableEq, Repr

namespace Settings

/-- What holds where nothing else is said. -/
def standard : Settings := ⟨"Class", "Abstract", 64, 256⟩

instance : Inhabited Settings := ⟨standard⟩

/-- The first thing wrong with the settings: the root name, the prefix, the limits. -/
def issue? (s : Settings) : Option SettingsIssue :=
  if !isIdentifier s.rootName then some (.rootName s.rootName)
  else if !isIdentifier s.markerPrefix then some (.markerPrefix s.markerPrefix)
  else if s.maxConstructorDepth = 0 ∨ s.maxHierarchyDepth = 0 then some .zeroDepth
  else none

/-- The settings, if nothing is wrong with them. -/
def check (s : Settings) : Except Error Settings :=
  match s.issue? with
  | some issue => .error (.settings issue)
  | none => .ok s

/-- The name of the marker of a class. -/
def markerName (s : Settings) (cls : Name) : Name := s.markerPrefix ++ cls

end Settings

end ClassGraph
