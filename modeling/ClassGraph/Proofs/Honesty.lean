import ClassGraph.Construct.Run
import ClassGraph.Proofs.Writes
import Mathlib.Data.Set.Insert

/-!
# Honest constructor bodies

A constructor body is given instances with its arguments, gets more of them in answer to what it
asks for, and can make others out of these by writing. It cannot make up an instance. What it has
at hand at each point is a set of instances, its knowledge.

* `Derives`: what comes of a set of instances by looking inside, allocating and writing.
* `Program.Honest`: **an honest program** uses nothing but the instances that it has at hand, and
  supplies no type arguments with parameters in them.
* `Program.Honest.mono`: who has more at hand is still honest.
-/

namespace ClassGraph

variable {β : Type}

/-- Every instance inside the value is in the set. -/
def Value.From (K : Set Instance) (v : Value) : Prop := ∀ i : Instance, i.Inside v → i ∈ K

/-- **What comes of the instances in `K`** in a registry, without any constructor. -/
inductive Derives (r : Registry β) (K : Set Instance) : Instance → Prop
  | given {i : Instance} (h : i ∈ K) : Derives r K i
  | inside {i j : Instance} (h : Derives r K j) (hi : i.Inside (.object j)) : Derives r K i
  | allocate {i : Instance} {cls : TypeId} (h : r.allocate cls = .ok i) : Derives r K i
  | write {i i' : Instance} {q : Write} (h : Derives r K i)
      (hq : ∀ v ∈ q.values, ∀ j : Instance, j.Inside v → Derives r K j)
      (hw : r.write i q = .ok i') : Derives r K i'

/-- What comes of the instances in `B` by writing to them; what is written is made of `K`. -/
inductive Rewrites (r : Registry β) (K B : Set Instance) : Instance → Prop
  | given {i : Instance} (h : i ∈ B) : Rewrites r K B i
  | write {i i' : Instance} {q : Write} (h : Rewrites r K B i) (hq : ∀ v ∈ q.values, v.From K)
      (hw : r.write i q = .ok i') : Rewrites r K B i'

/-- What is at hand after an answer. -/
def learn (K : Set Instance) (result : Except Error Instance) : Set Instance :=
  {i | i ∈ K ∨ ∃ j, result = .ok j ∧ i.Inside (.object j)}

/-- What is at hand with some arguments. -/
def withArgs (K : Set Instance) (args : List Value) : Set Instance :=
  {i | i ∈ K ∨ ∃ v ∈ args, i.Inside v}

/-- **An honest program**, with the instances in `K` at hand. -/
inductive Program.Honest : Set Instance → Program → Prop
  | done {K : Set Instance} {result : Except Error Instance}
      (h : ∀ i, result = .ok i → i ∈ K) : Honest K (.done result)
  | log {K : Set Instance} {v : Value} {next : Program} (hv : v.From K) (h : Honest K next) :
      Honest K (.log v next)
  | newInstance {K : Set Instance} {values : List Value}
      {next : Except Error Instance → Program} (hv : ∀ v ∈ values, v.From K)
      (h : ∀ result, Honest (learn K result) (next result)) : Honest K (.newInstance values next)
  | call {K : Set Instance} {typeArgs : Option (List Ty)} {args : List Value}
      {next : Except Error Instance → Program} (ht : ClosedArgs typeArgs)
      (hv : ∀ v ∈ args, v.From K) (h : ∀ result, Honest (learn K result) (next result)) :
      Honest K (.call typeArgs args next)
  | construct {K : Set Instance} {cls : TypeId} {typeArgs : Option (List Ty)}
      {args : List Value} {next : Except Error Instance → Program} (ht : ClosedArgs typeArgs)
      (hv : ∀ v ∈ args, v.From K) (h : ∀ result, Honest (learn K result) (next result)) :
      Honest K (.construct cls typeArgs args next)
  | define {K : Set Instance} {d : ClassDecl Body} {next : Except Error TypeId → Program}
      (hd : ∀ c ∈ d.ctors, ∀ site args, ClosedArgs site.explicit →
        Honest (withArgs K args) (c.body site args))
      (h : ∀ result, Honest K (next result)) : Honest K (.define d next)
  | declare {K : Set Instance} {n : Name} {kind : NodeKind} {sup : Option TypeId}
      {next : Except Error TypeId → Program} (h : ∀ result, Honest K (next result)) :
      Honest K (.declare n kind sup next)
  | heritage {K : Set Instance} {id : TypeId} {next : Except Error Heritage → Program}
      (h : ∀ result, Honest K (next result)) : Honest K (.heritage id next)
  | look {K : Set Instance} {next : Registry Unit → Program}
      (h : ∀ r, Honest {i | Derives r K i} (next r)) : Honest K (.look next)

/-- A body that captures the instances in `K` is honest if all its programs are. -/
def Body.Honest (K : Set Instance) (body : Body) : Prop :=
  ∀ site args, ClosedArgs site.explicit → Program.Honest (withArgs K args) (body site args)

variable {K K' : Set Instance} {r : Registry β} {i j : Instance}

theorem Instance.Inside.trans {v : Value} (hj : j.Inside v) (hi : i.Inside (.object j)) :
    i.Inside v := by
  induction hj with
  | self => exact hi
  | item hv _ ih => exact .item hv ih
  | field hv _ ih => exact .field hv ih

theorem Derives.mono (hK : K ⊆ K') (h : Derives r K i) : Derives r K' i := by
  induction h with
  | given h => exact .given (hK h)
  | inside _ hi ih => exact .inside ih hi
  | allocate h => exact .allocate h
  | write _ _ hw ih ihq => exact .write ih ihq hw

/-- What a body can derive from what it sees of the registry, can be derived in the registry. -/
theorem Derives.of_forget (h : Derives r.forget K i) : Derives r K i := by
  induction h with
  | given h => exact .given h
  | inside _ hi ih => exact .inside ih hi
  | allocate h => exact .allocate (r.forget_allocate _ ▸ h)
  | write _ _ hw ih ihq => exact .write ih ihq (r.forget_write _ _ ▸ hw)

theorem learn_mono (hK : K ⊆ K') (result : Except Error Instance) :
    learn K result ⊆ learn K' result := fun _ h => h.imp_left (@hK _)

theorem withArgs_mono (hK : K ⊆ K') (args : List Value) : withArgs K args ⊆ withArgs K' args :=
  fun _ h => h.imp_left (@hK _)

theorem Value.From.mono (hK : K ⊆ K') {v : Value} (h : v.From K) : v.From K' :=
  fun i hi => hK (h i hi)

/-- **Who has more at hand is still honest.** -/
theorem Program.Honest.mono {p : Program} (h : Honest K p) (hK : K ⊆ K') : Honest K' p := by
  induction h generalizing K' with
  | done h => exact .done fun i hi => hK (h i hi)
  | log hv _ ih => exact .log (hv.mono hK) (ih hK)
  | newInstance hv _ ih =>
    exact .newInstance (fun v h => (hv v h).mono hK) fun result => ih result (learn_mono hK result)
  | call ht hv _ ih =>
    exact .call ht (fun v h => (hv v h).mono hK) fun result => ih result (learn_mono hK result)
  | construct ht hv _ ih =>
    exact .construct ht (fun v h => (hv v h).mono hK) fun result =>
      ih result (learn_mono hK result)
  | define _ _ ihd ih =>
    exact .define (fun c hc site args hs => ihd c hc site args hs (withArgs_mono hK args))
      fun result => ih result hK
  | declare _ ih => exact .declare fun result => ih result hK
  | heritage _ ih => exact .heritage fun result => ih result hK
  | look _ ih => exact .look fun r => ih r fun _ hi => hi.mono hK

theorem Body.Honest.mono {body : Body} (h : body.Honest K) (hK : K ⊆ K') : body.Honest K' :=
  fun site args hs => (h site args hs).mono (withArgs_mono hK args)

end ClassGraph
