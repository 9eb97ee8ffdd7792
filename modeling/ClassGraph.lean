import ClassGraph.Table
import ClassGraph.Ty
import ClassGraph.Value
import ClassGraph.Graph
import ClassGraph.Matching
import ClassGraph.Error
import ClassGraph.Naming.Alphabetic
import ClassGraph.Naming.Numeric
import ClassGraph.Naming.Identifier
import ClassGraph.Naming.Fresh
import ClassGraph.Naming.Pool
import ClassGraph.Settings.Basic
import ClassGraph.Settings.Json
import ClassGraph.Settings.Text
import ClassGraph.Class.Declaration
import ClassGraph.Class.Constructor
import ClassGraph.Class.Definition
import ClassGraph.Heritage
import ClassGraph.Registry.Basic
import ClassGraph.Registry.Hierarchy
import ClassGraph.Registry.Inheritance
import ClassGraph.Registry.Blueprint
import ClassGraph.Registry.Define
import ClassGraph.Construct.Instantiation
import ClassGraph.Construct.Selection
import ClassGraph.Construct.Program
import ClassGraph.Construct.Run
import ClassGraph.Construct.Writing
import ClassGraph.Script
import ClassGraph.Proofs.Definition
import ClassGraph.Proofs.Reachable
import ClassGraph.Proofs.Forest
import ClassGraph.Proofs.Markers
import ClassGraph.Proofs.Supertypes
import ClassGraph.Proofs.Refusal
import ClassGraph.Proofs.Preorder
import ClassGraph.Proofs.InheritedLayout
import ClassGraph.Proofs.ParamNames
import ClassGraph.Proofs.Choice
import ClassGraph.Proofs.Limit
import ClassGraph.Proofs.Guides
import ClassGraph.Proofs.Fitting
import ClassGraph.Proofs.KnownNames
import ClassGraph.Proofs.Ancestry
import ClassGraph.Proofs.Subclasses
import ClassGraph.Proofs.Instances
import ClassGraph.Proofs.Specificity
import ClassGraph.Proofs.Writes
import ClassGraph.Proofs.Honesty
import ClassGraph.Proofs.Soundness
import ClassGraph.Proofs.Growth
import ClassGraph.Proofs.Activations
import ClassGraph.Proofs.Relabelling
import ClassGraph.Proofs.Upcast
import ClassGraph.Proofs.CopyExtend
import ClassGraph.Proofs.WriteOnce
import ClassGraph.Proofs.Filling
import ClassGraph.Proofs.Legality
import ClassGraph.Proofs.ConstructorTable
import ClassGraph.Proofs.DefaultConstructor
import ClassGraph.Proofs.Invocations
import ClassGraph.Proofs.InPlace
import ClassGraph.Proofs.FillingInParts
import ClassGraph.Proofs.Realizations
import ClassGraph.Proofs.Binding
import ClassGraph.Proofs.Inference
import ClassGraph.Proofs.Subtyping
import ClassGraph.Proofs.RenamedMatching
import ClassGraph.Proofs.FreshNames
import ClassGraph.Proofs.Interning
