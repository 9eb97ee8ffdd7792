import ClassGraph.Construct.Program
import ClassGraph.Construct.Writing

/-!
# Scripts

A small language for constructor bodies. A `Script` comes to an instance or an error, a `Term` to
a value or an error; both see where the constructor is called and with which arguments. Terms are
worked out from left to right, and the first error is the error of the whole.

* `Script.run`, `Term.run`: the requests that a script makes, followed by what is to be done with
  its result;
* `Script.toBody`: a script as the body of a constructor.
-/

namespace ClassGraph

/-- The type arguments that a script gives to a call. -/
inductive ScriptTypeArgs
  | types (ts : List Ty)
  /-- Those that the constructor itself was called with. -/
  | same

mutual

/-- A script, which comes to an instance. -/
inductive Script where
  /-- An instance of the class under construction, from a value for every field. -/
  | new (values : Terms)
  /-- A call of a constructor of the class under construction. -/
  | call (args : Terms) (typeArgs : Option ScriptTypeArgs)
  /-- A construction of its own, of an instance of the class with that name. -/
  | construct (cls : Name) (args : Terms) (typeArgs : Option ScriptTypeArgs)
  | fail (text : String)
  /-- The instance that a term comes to. -/
  | give (t : Term)
  | ifEq (a b : Term) (yes no : Script)
  | ifLess (a b : Term) (yes no : Script)
  | log (t : Term) (next : Script)
  | define (d : ClassDecl Script) (next : Script)
  /-- The second script counts if the first one fails. -/
  | orElse (first second : Script)

/-- A term, which comes to a value. -/
inductive Term where
  | value (v : Value)
  | list (items : List Term)
  /-- The argument at that place, or nothing. -/
  | arg (index : Nat)
  | add (operands : Terms)
  | mul (operands : Terms)
  /-- A field of an instance; nothing of any other value. -/
  | field (t : Term) (name : Name)
  | object (s : Script)
  /-- The type argument at that place in its written form, or nothing. -/
  | typeArg (index : Nat)
  /-- The name of the class under construction. -/
  | className

/-- Terms for a list of values. -/
inductive Terms where
  /-- The arguments of the constructor as they are. -/
  | args
  | items (ts : List Term)

end

namespace Value

/-- Applies one of the operations to the first two values, if both are integers or both doubles. -/
def combine (onInt : Int64 → Int64 → Int64) (onFloat : Float → Float → Float) :
    List Value → Value
  | .int a :: .int b :: _ => .int (onInt a b)
  | .float a :: .float b :: _ => .float (onFloat a b)
  | _ => .nothing

/-- Are both values integers, and is the first one less? -/
def isLess : Value → Value → Bool
  | .int a, .int b => a < b
  | _, _ => false

end Value

/-- The type arguments of a call within the body of a constructor. -/
def ScriptTypeArgs.at (site : CallSite) : ScriptTypeArgs → List Ty
  | types ts => ts
  | same => site.typeArgs

/-- Goes on with `next` after a success, with `handle` after a failure. -/
def Program.bindResult {α : Type} (handle : Error → Program) (next : α → Program) :
    Except Error α → Program
  | .ok a => next a
  | .error e => handle e

mutual

/-- The requests of a script, and then `k` with what it comes to. -/
def Script.run (site : CallSite) (args : List Value) :
    Script → (Except Error Instance → Program) → Program
  | .new values, k => values.run site args (k ∘ .error) fun vs => .newInstance vs k
  | .call ts typeArgs, k => ts.run site args (k ∘ .error) fun vs =>
    .call (typeArgs.map (·.at site)) vs k
  | .construct cls ts typeArgs, k => .look fun r =>
    Program.bindResult (k ∘ .error) (fun id =>
      ts.run site args (k ∘ .error) fun vs => .construct id (typeArgs.map (·.at site)) vs k)
      (r.classId cls)
  | .fail text, k => .look fun r => k (.error (.body (r.typeName site.cls) text))
  | .give t, k => t.run site args (k ∘ .error) fun
    | .object i => k (.ok i)
    | _ => .look fun r => k (.error (.body (r.typeName site.cls) "not an instance"))
  | .ifEq a b yes no, k => a.run site args (k ∘ .error) fun v =>
    b.run site args (k ∘ .error) fun w =>
      if v == w then yes.run site args k else no.run site args k
  | .ifLess a b yes no, k => a.run site args (k ∘ .error) fun v =>
    b.run site args (k ∘ .error) fun w =>
      if v.isLess w then yes.run site args k else no.run site args k
  | .log t next, k => t.run site args (k ∘ .error) fun v => .log v (next.run site args k)
  | .define d next, k => .define (Script.toDecl d) <|
    Program.bindResult (k ∘ .error) fun _ => next.run site args k
  | .orElse first second, k =>
    first.run site args <| Program.bindResult (fun _ => second.run site args k) (k ∘ .ok)

/-- The requests of a term, and then `fail` with its error or `k` with its value. -/
def Term.run (site : CallSite) (args : List Value) :
    Term → (Error → Program) → (Value → Program) → Program
  | .value v, _, k => k v
  | .list ts, fail, k => Term.runAll site args ts fail (k ∘ .list)
  | .arg index, _, k => k (args[index]?.getD .nothing)
  | .add ts, fail, k => ts.run site args fail (k ∘ Value.combine (· + ·) (· + ·))
  | .mul ts, fail, k => ts.run site args fail (k ∘ Value.combine (· * ·) (· * ·))
  | .field t name, fail, k => t.run site args fail fun
    | .object i => Program.bindResult fail k (i.field name)
    | _ => k .nothing
  | .object s, fail, k => s.run site args <| Program.bindResult fail (k ∘ .object)
  | .typeArg index, _, k => k (((site.typeArgs[index]?).map (.str ·.toText)).getD .nothing)
  | .className, _, k => .look fun r => k (.str (r.typeName site.cls))

/-- The requests of several terms, from left to right. -/
def Term.runAll (site : CallSite) (args : List Value) :
    List Term → (Error → Program) → (List Value → Program) → Program
  | [], _, k => k []
  | t :: ts, fail, k => t.run site args fail fun v =>
    Term.runAll site args ts fail fun vs => k (v :: vs)

/-- The requests of terms for a list of values. -/
def Terms.run (site : CallSite) (args : List Value) :
    Terms → (Error → Program) → (List Value → Program) → Program
  | .args, _, k => k args
  | .items ts, fail, k => Term.runAll site args ts fail k

/-- A declaration whose constructors have scripts as one whose constructors have bodies. -/
def Script.toDecl : ClassDecl Script → ClassDecl Body
  | ⟨name, superclass, typeParams, isMutable, body⟩ =>
    ⟨name, superclass, typeParams, isMutable, Script.toEntries body⟩

/-- The entries of a declaration. -/
def Script.toEntries : List (BodyEntry Script) → List (BodyEntry Body)
  | [] => []
  | e :: es => Script.toEntry e :: Script.toEntries es

/-- An entry of a declaration. -/
def Script.toEntry : BodyEntry Script → BodyEntry Body
  | .field f => .field f
  | .ctor c => .ctor (Script.toConstructor c)
  | .statement text => .statement text

/-- A constructor of a declaration. -/
def Script.toConstructor : ConstructorDecl Script → ConstructorDecl Body
  | ⟨name, params, parametrized, s⟩ =>
    ⟨name, params, parametrized, fun site args => s.run site args .done⟩

end

/-- A script as the body of a constructor. -/
def Script.toBody (s : Script) : Body := fun site args => s.run site args .done

end ClassGraph
