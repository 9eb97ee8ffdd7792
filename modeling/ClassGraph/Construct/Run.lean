import ClassGraph.Construct.Instantiation
import ClassGraph.Construct.Program
import ClassGraph.Construct.Selection

/-!
# Construction

To construct an instance is to select a constructor and to invoke it. What a body asks of the
registry is answered at once, so later requests see earlier definitions.

Constructors that call each other within one construction count against the limit of the
settings: `invoke` counts down what is left of it, and at nought it refuses without running
anything. A body may also start a construction of its own, which has the whole limit again; how
deep these may lie inside one another is a budget that the caller gives, and beyond it there is no
outcome.

* `Program.run`: the answers to the requests of a body;
* `runConstructor`: what the kinds of constructors do;
* `invoke` and `World.construct`: the same within the limit, after a selection.
-/

namespace ClassGraph

/-- A registry whose constructors have bodies, and what these have logged. -/
structure World where
  registry : Registry Body
  log : List Value

namespace World

/-- The world of a registry in which nothing has been logged. -/
def ofRegistry (r : Registry Body) : World := ⟨r, []⟩

/-- Writes a value into the log. -/
def push (w : World) (v : Value) : World := { w with log := w.log ++ [v] }

end World

/-- What a construction comes to: an instance or an error, and the world after it; nothing if the
budget did not last. -/
abbrev Outcome : Type := Option (Except Error Instance × World)

/-- Goes on with the instance if there is one; errors stay as they are. -/
def Outcome.andThen (o : Outcome) (f : Registry Body → Instance → Except Error Instance) :
    Outcome :=
  o.map fun (result, w) => (result.bind (f w.registry), w)

/-- A way to construct instances: of a class, with or without type arguments, from arguments. -/
abbrev Construction : Type := TypeId → Option (List Ty) → List Value → World → Outcome

/-- Answers the requests of a program one after the other. `call` constructs within the same
construction and `construct` starts another one. -/
def Program.run (call construct : Construction) (site : CallSite) : Program → World → Outcome
  | .done result, w => some (result, w)
  | .log v next, w => next.run call construct site (w.push v)
  | .newInstance values next, w =>
    let result := (w.registry.instantiable site.cls).bind fun d =>
      w.registry.graph.instantiate d.layout site.explicit ∅ values
    (next result).run call construct site w
  | .call typeArgs args next, w =>
    match call site.cls typeArgs args w with
    | none => none
    | some (result, w) => (next result).run call construct site w
  | .construct cls typeArgs args next, w =>
    match construct cls typeArgs args w with
    | none => none
    | some (result, w) => (next result).run call construct site w
  | .define d next, w =>
    let (result, registry) := w.registry.define d
    (next result).run call construct site { w with registry }
  | .declare n kind supertype next, w =>
    let (result, registry) := w.registry.declare n kind supertype
    (next result).run call construct site { w with registry }
  | .heritage id next, w =>
    let (result, registry) := w.registry.heritage id
    (next result).run call construct site { w with registry }
  | .look next, w => (next w.registry.forget).run call construct site w

namespace ClassDef

variable {β : Type} (d : ClassDef β)

/-- The name of the superclass as a type. -/
def superTy (r : Registry β) : Ty :=
  .named (((d.superclass.bind r.classDef?).map (·.name)).getD "")

/-- Copies an instance of the superclass and extends it by the values of the local fields. -/
def copyExtend (r : Registry β) (args : List Value) : Except Error Instance :=
  match args with
  | .object parent :: values =>
    r.graph.instantiate d.layout none (.ofArgs d.typeParams parent.typeArgs)
      (parent.fields ++ values)
  | v :: _ => .error (.typeMismatch d.name superParam (d.superTy r) v.describe)
  | [] => .error (.typeMismatch d.name superParam (d.superTy r) "")

/-- The class whose constructors the guides call. -/
def guideTarget (r : Registry β) : Except Error (ClassDef β) :=
  match d.superclass with
  | none => .error (.notAClass d.name)
  | some id => r.instantiable id

/-- Makes an instance of the superclass `parent` an instance of the class. -/
def relabel (r : Registry β) (parent : ClassDef β) (typeArgs : Option (List Ty))
    (i : Instance) : Except Error Instance :=
  r.graph.instantiate d.layout typeArgs
    (.ofArgs (d.typeParams.take parent.typeParams.length) i.typeArgs) i.fields

/-- A user constructor has to come up with an instance of its own class. -/
def checkResult (i : Instance) : Except Error Instance :=
  if i.cls ≠ d.id then .error (.constructorResult d.name i.className) else .ok i

end ClassDef

/-- A way to invoke constructors: of a class, by place, with or without type arguments. -/
abbrev Invocation : Type :=
  ClassDef Body → Nat → Option (List Ty) → List Value → World → Outcome

/-- Selects a constructor and has it invoked. -/
def dispatch (invoke : Invocation) : Construction := fun cls typeArgs args w =>
  match w.registry.select cls typeArgs args with
  | .error e => some (.error e, w)
  | .ok (d, index) => invoke d index typeArgs args w

/-- Runs the body of a constructor of `d` and checks what it comes up with. -/
def runBody (call construct : Construction) (d : ClassDef Body) (body : Body) (frame : Frame)
    (args : List Value) (w : World) : Outcome :=
  ((body frame.toCallSite args).run call construct frame.toCallSite w).andThen
    fun _ => d.checkResult

/-- Has the constructor of the superclass of `d` at `target` invoked, with the type arguments that
belong to the superclass, and makes its result an instance of `d`. -/
def runGuide (invoke : Invocation) (d : ClassDef Body) (target : Nat)
    (typeArgs : Option (List Ty)) (args : List Value) (w : World) : Outcome :=
  match d.guideTarget w.registry with
  | .error e => some (.error e, w)
  | .ok parent =>
    (invoke parent target (typeArgs.map (·.take parent.typeParams.length)) args w).andThen
      fun r => d.relabel r parent typeArgs

/-- Does what the constructor `c` of `d` is there for. Constructors that it calls are invoked by
`invoke`; `depth` counts the ones at work, this one included. -/
def runConstructor (construct : Construction) (invoke : Invocation) (depth : Nat)
    (d : ClassDef Body) (c : Constructor Body) (typeArgs : Option (List Ty)) (args : List Value)
    (w : World) : Outcome :=
  match c.kind with
  | .default => some (w.registry.graph.instantiate d.layout typeArgs ∅ args, w)
  | .copyExtend => some (d.copyExtend w.registry args, w)
  | .user body => runBody (dispatch invoke) construct d body ⟨⟨d.id, typeArgs⟩, depth⟩ args w
  | .guide target => runGuide invoke d target typeArgs args w

/-- The limit is used up: nothing is run. -/
def refuse : Invocation := fun _ _ _ _ w =>
  some (.error (.constructorDepthExceeded w.registry.settings.maxConstructorDepth), w)

/-- Invokes a constructor. The number is what is left of the limit, and where nothing is left,
`atLimit` stands in; `construct` starts further constructions. -/
def invokeOr (atLimit : Invocation) (construct : Construction) : Nat → Invocation
  | 0 => atLimit
  | rest + 1 => fun d index typeArgs args w =>
    match d.constructors[index]? with
    | none => some (.error (.noMatchingConstructor d.name args.length typeArgs.isSome), w)
    | some c =>
      runConstructor construct (invokeOr atLimit construct rest)
        (w.registry.settings.maxConstructorDepth - rest) d c typeArgs args w

/-- Invokes a constructor within the limit, of which the number is left. -/
def invoke : Construction → Nat → Invocation := invokeOr refuse

/-- Constructs an instance; constructions that bodies start lie inside one another less than
`budget` deep. -/
def constructWithin : Nat → Construction
  | 0 => fun _ _ _ _ => none
  | budget + 1 => fun cls typeArgs args w =>
    dispatch (invoke (constructWithin budget) w.registry.settings.maxConstructorDepth)
      cls typeArgs args w

/-- Constructs an instance of a class: `typeArgs` are the explicit type arguments, if the call has
any. -/
def World.construct (w : World) (budget : Nat) (cls : TypeId) (typeArgs : Option (List Ty))
    (args : List Value) : Outcome :=
  constructWithin budget cls typeArgs args w

end ClassGraph
