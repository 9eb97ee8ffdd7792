import ClassGraph.Construct.Run
import ClassGraph.Proofs.Choice
import ClassGraph.Proofs.Refusal
import Mathlib.Logic.Relation

/-!
# Constructors at work

Constructors call each other: bodies ask for constructors of their class, guides for one of the
superclass. Here this is played out on a machine that keeps a list of those who wait for a result,
and hands the depth on as it goes: a call within a body starts at the depth of the body, a user
constructor and a guide work one deeper than they were invoked. No limit is built into the machine
but the one comparison at each invocation.

* `Program.Inward`: a program that constructs through its own class only.
* `Machine.step`: one step; `Machine.Steps`: some steps.
* `Machine.Counted.step`: **one step keeps count**: the depths of those at work are 1, 2, 3 and so
  on, up to the limit at most.
* `invoke_settles`: the machine answers with what `invoke` comes to, by induction on what is left of
  the limit, and on the program of a body.
* `World.construct_ends`: **every construction ends**, and all the way the depth is within the limit.
-/

namespace ClassGraph

/-! ## Bodies that stay within their construction -/

/-- **A program that looks inward**: it constructs through its own class only and starts no
construction as if from outside. So do the bodies of all classes that it defines. -/
inductive Program.Inward : Program → Prop
  | done {result : Except Error Instance} : Inward (.done result)
  | log {v : Value} {next : Program} (h : Inward next) : Inward (.log v next)
  | newInstance {values : List Value} {next : Except Error Instance → Program}
      (h : ∀ result, Inward (next result)) : Inward (.newInstance values next)
  | call {typeArgs : Option (List Ty)} {args : List Value}
      {next : Except Error Instance → Program} (h : ∀ result, Inward (next result)) :
      Inward (.call typeArgs args next)
  | define {d : ClassDecl Body} {next : Except Error TypeId → Program}
      (hd : ∀ c ∈ d.ctors, ∀ site args, Inward (c.body site args))
      (h : ∀ result, Inward (next result)) : Inward (.define d next)
  | declare {n : Name} {kind : NodeKind} {sup : Option TypeId}
      {next : Except Error TypeId → Program} (h : ∀ result, Inward (next result)) :
      Inward (.declare n kind sup next)
  | heritage {id : TypeId} {next : Except Error Heritage → Program}
      (h : ∀ result, Inward (next result)) : Inward (.heritage id next)
  | look {next : Registry Unit → Program} (h : ∀ r, Inward (next r)) : Inward (.look next)

/-- A body all of whose programs look inward. -/
def Body.Inward (body : Body) : Prop := ∀ site args, Program.Inward (body site args)

/-- The bodies of the class look inward. -/
def ClassDef.Inward (d : ClassDef Body) : Prop :=
  ∀ c ∈ d.constructors, ∀ body, c.kind = .user body → Body.Inward body

/-- The bodies of all classes look inward. -/
def Registry.Inward (r : Registry Body) : Prop := ∀ id d, r.classDef? id = some d → d.Inward

/-- No request changes the settings. -/
theorem Registry.settings_after {β : Type} (r : Registry β) (q : Request β) :
    (r.after q).settings = r.settings := by
  have hblueprint := fun d => (leavesNoTrace_blueprint r d).settings
  cases q with
  | define d =>
    have hs := hblueprint d
    rcases define_cases r d with ⟨e, hd⟩ | ⟨b, r₁, hb, -, -, hd⟩ <;> rw [after, hd]
    · exact hs
    · rw [hb] at hs
      exact hs
  | blueprint d => exact hblueprint d
  | declare n kind sup =>
    rcases declare_cases r n kind sup with h | ⟨-, -, h⟩ <;> rw [after, h]
  | heritage id =>
    obtain ⟨hs, h, -⟩ := heritage_cases r id
    rw [after, h]

/-- **Where constructions may start**: a reachable registry of inward bodies, with the limit `L`. -/
structure World.Ready (L : Nat) (w : World) : Prop where
  reachable : w.registry.Reachable
  inward : w.registry.Inward
  limit : w.registry.settings.maxConstructorDepth = L

namespace World.Ready

variable {L : Nat} {w : World}

theorem push (h : w.Ready L) (v : Value) : (w.push v).Ready L := ⟨h.reachable, h.inward, h.limit⟩

/-- A request of an inward program leaves bodies that look inward. -/
theorem after (h : w.Ready L) (q : Request Body)
    (hq : ∀ d, q = .define d → ∀ c ∈ d.ctors, Body.Inward c.body) :
    World.Ready L { w with registry := w.registry.after q } where
  reachable := h.reachable.after q
  inward := by
    intro id d hd c hc body hk
    rcases Registry.user_after h.reachable.ok hd hc hk with hold | ⟨decl, hdef, u, hu, rfl⟩
    · exact h.inward id d hold c hc body hk
    · exact hq decl hdef u hu
  limit := by rw [Registry.settings_after, h.limit]

theorem of_instantiable (h : w.Ready L) {id : TypeId} {d : ClassDef Body}
    (hd : w.registry.instantiable id = .ok d) : d.Inward :=
  h.inward id d (Registry.instantiable_ok hd).1

end World.Ready

/-! ## The machine -/

/-- A user constructor or a guide that waits for the result of a constructor it has called. -/
inductive Waiting
  /-- The body of a constructor of `d`, and how it goes on. -/
  | body (d : ClassDef Body) (frame : Frame) (next : Except Error Instance → Program)
  /-- A guide of `d` that has called a constructor of `parent`. -/
  | guide (d parent : ClassDef Body) (typeArgs : Option (List Ty)) (depth : Nat)

/-- At which depth it works. -/
def Waiting.depth : Waiting → Nat
  | body _ frame _ => frame.depth
  | guide _ _ _ depth => depth

/-- What is to be done next. A depth is the number of constructors at work so far. -/
inductive Control
  /-- Select a constructor of a class. -/
  | dispatch (cls : TypeId) (typeArgs : Option (List Ty)) (args : List Value) (depth : Nat)
  /-- Invoke the constructor of `d` at the place `index`. -/
  | invoke (d : ClassDef Body) (index : Nat) (typeArgs : Option (List Ty)) (args : List Value)
      (depth : Nat)
  /-- Go on with the program of a constructor of `d`. -/
  | run (d : ClassDef Body) (frame : Frame) (program : Program)
  /-- Give the result to whoever waits for it. -/
  | answer (result : Except Error Instance)

/-- A construction in progress. -/
structure Machine where
  /-- Those who wait, each for the one before it; the first one for what is done now. -/
  waiting : List Waiting
  control : Control
  world : World

namespace Machine

variable (m : Machine)

/-- The construction of an instance, at its beginning. -/
def start (w : World) (cls : TypeId) (typeArgs : Option (List Ty)) (args : List Value) : Machine :=
  ⟨[], .dispatch cls typeArgs args 0, w⟩

/-- The machine with a result. -/
def reply (result : Except Error Instance) : Machine := { m with control := .answer result }

/-- The machine with a program to go on with, in the registry that it has asked for. -/
def proceed (d : ClassDef Body) (frame : Frame) (program : Program) (registry : Registry Body) :
    Machine :=
  { m with control := .run d frame program, world := { m.world with registry } }

/-- Does what the constructor `c` of `d` is there for, up to the first program or call. -/
def enter (d : ClassDef Body) (c : Constructor Body) (typeArgs : Option (List Ty))
    (args : List Value) (depth : Nat) : Machine :=
  match c.kind with
  | .default => m.reply (m.world.registry.graph.instantiate d.layout typeArgs ∅ args)
  | .copyExtend => m.reply (d.copyExtend m.world.registry args)
  | .user body =>
    { m with control := .run d ⟨⟨d.id, typeArgs⟩, depth + 1⟩ (body ⟨d.id, typeArgs⟩ args) }
  | .guide target =>
    match d.guideTarget m.world.registry with
    | .error e => m.reply (.error e)
    | .ok parent =>
      ⟨.guide d parent typeArgs (depth + 1) :: m.waiting,
        .invoke parent target (typeArgs.map (·.take parent.typeParams.length)) args (depth + 1),
        m.world⟩

/-- Goes on with a program. To start a construction as if from outside is no step. -/
def request (d : ClassDef Body) (frame : Frame) : Program → Option Machine
  | .done result => some (m.reply (result.bind d.checkResult))
  | .log v next => some { m with control := .run d frame next, world := m.world.push v }
  | .newInstance values next =>
    let result := (m.world.registry.instantiable frame.cls).bind fun c =>
      m.world.registry.graph.instantiate c.layout frame.explicit ∅ values
    some { m with control := .run d frame (next result) }
  | .call typeArgs args next =>
    some ⟨.body d frame next :: m.waiting, .dispatch frame.cls typeArgs args frame.depth, m.world⟩
  | .construct _ _ _ _ => none
  | .define decl next =>
    let (result, registry) := m.world.registry.define decl
    some (m.proceed d frame (next result) registry)
  | .declare n kind sup next =>
    let (result, registry) := m.world.registry.declare n kind sup
    some (m.proceed d frame (next result) registry)
  | .heritage id next =>
    let (result, registry) := m.world.registry.heritage id
    some (m.proceed d frame (next result) registry)
  | .look next => some { m with control := .run d frame (next m.world.registry.forget) }

/-- Hands a result to the first who waits. -/
def resume (result : Except Error Instance) : List Waiting → Option Machine
  | [] => none
  | .body d frame next :: rest => some ⟨rest, .run d frame (next result), m.world⟩
  | .guide d parent typeArgs _ :: rest =>
    some ⟨rest, .answer (result.bind (d.relabel m.world.registry parent typeArgs)), m.world⟩

/-- **One step** of a construction; none once the result is there and nobody waits for it. -/
def step : Option Machine :=
  match m.control with
  | .dispatch cls typeArgs args depth =>
    match m.world.registry.select cls typeArgs args with
    | .error e => some (m.reply (.error e))
    | .ok (d, index) => some { m with control := .invoke d index typeArgs args depth }
  | .invoke d index typeArgs args depth =>
    let limit := m.world.registry.settings.maxConstructorDepth
    if limit ≤ depth then some (m.reply (.error (.constructorDepthExceeded limit)))
    else match d.constructors[index]? with
      | none => some (m.reply (.error (.noMatchingConstructor d.name args.length typeArgs.isSome)))
      | some c => some (m.enter d c typeArgs args depth)
  | .run d frame program => m.request d frame program
  | .answer result => m.resume result m.waiting

/-- Some steps. -/
abbrev Steps : Machine → Machine → Prop := Relation.ReflTransGen fun m m' => m.step = some m'

/-- The machine does one thing at a time: whatever it does on the way to its end, leads there. -/
theorem Steps.to_end {m m₁ m₂ : Machine} (h₁ : m.Steps m₁) (h₂ : m.Steps m₂)
    (hend : m₂.step = none) : m₁.Steps m₂ := by
  induction h₁ using Relation.ReflTransGen.head_induction_on with
  | refl => exact h₂
  | head hstep _ ih =>
    rcases h₂.cases_head with rfl | ⟨m', hstep', h'⟩
    · rw [hend] at hstep
      cases hstep
    · rw [hstep] at hstep'
      cases hstep'
      exact ih h'

/-! ## Keeping count -/

/-- The depths of the user constructors and guides at work, the innermost first: the one whose body
is running, and those who wait. -/
def depths : List Nat :=
  (match m.control with
    | .run _ frame _ => [frame.depth]
    | _ => []) ++ m.waiting.map Waiting.depth

/-- Those who wait count down to 1. -/
def CountDown : List Waiting → Prop
  | [] => True
  | a :: rest => a.depth = rest.length + 1 ∧ CountDown rest

end Machine

/-- The depth at hand is the number `n` of those who wait, and within the limit `L`. -/
def Control.Counted (L n : Nat) : Control → Prop
  | .dispatch _ _ _ depth => depth = n ∧ n ≤ L
  | .invoke _ _ _ _ depth => depth = n ∧ n ≤ L
  | .run _ frame _ => frame.depth = n + 1 ∧ n + 1 ≤ L
  | .answer _ => n ≤ L

theorem Control.Counted.le {L n : Nat} {k : Control} (h : k.Counted L n) : n ≤ L := by
  cases k with
  | run d frame program => exact Nat.le_of_succ_le h.2
  | dispatch _ _ _ _ | invoke _ _ _ _ _ => exact h.2
  | answer _ => exact h

namespace Machine

/-- **The invariant of the count**: those who wait count down to 1, and the depth at hand goes on
from there, within the limit. -/
structure Counted (L : Nat) (m : Machine) : Prop where
  limit : m.world.registry.settings.maxConstructorDepth = L
  waiting : CountDown m.waiting
  control : m.control.Counted L m.waiting.length

variable {L : Nat} {m m' : Machine}

theorem counted_start {w : World} (hL : w.registry.settings.maxConstructorDepth = L) (cls : TypeId)
    (typeArgs : Option (List Ty)) (args : List Value) : (start w cls typeArgs args).Counted L :=
  ⟨hL, trivial, rfl, Nat.zero_le _⟩

/-- With a result, no more wait than before. -/
theorem Counted.reply (h : m.Counted L) (hn : m.waiting.length ≤ L)
    (result : Except Error Instance) : (m.reply result).Counted L :=
  ⟨h.limit, h.waiting, hn⟩

/-- A constructor that is entered below the limit works one deeper. -/
theorem Counted.enter {d : ClassDef Body} {c : Constructor Body} {typeArgs : Option (List Ty)}
    {args : List Value} {depth : Nat} (h : m.Counted L) (hd : depth = m.waiting.length)
    (hlt : depth < L) : (m.enter d c typeArgs args depth).Counted L := by
  have hn : m.waiting.length ≤ L := by omega
  have hle : m.waiting.length + 1 ≤ L := by omega
  have hdepth : depth + 1 = m.waiting.length + 1 := by omega
  unfold Machine.enter
  cases c.kind with
  | default => exact h.reply hn _
  | copyExtend => exact h.reply hn _
  | user body => exact ⟨h.limit, h.waiting, hdepth, hle⟩
  | guide target =>
    cases d.guideTarget m.world.registry with
    | error e => exact h.reply hn _
    | ok parent => exact ⟨h.limit, ⟨hdepth, h.waiting⟩, hdepth, hle⟩

/-- A request of a body leaves the body at its depth; a call starts from it. -/
theorem Counted.request {d : ClassDef Body} {frame : Frame} {program : Program}
    (h : m.Counted L) (hd : frame.depth = m.waiting.length + 1) (hle : m.waiting.length + 1 ≤ L)
    (hstep : m.request d frame program = some m') : m'.Counted L := by
  have hn : m.waiting.length ≤ L := by omega
  -- a request to the registry does not touch the settings
  have hreq : ∀ (q : Request Body) (p : Program),
      (m.proceed d frame p (m.world.registry.after q)).Counted L := fun q p =>
    ⟨by rw [← h.limit]; exact congrArg _ (Registry.settings_after _ q), h.waiting, hd, hle⟩
  cases program with
  | done result =>
    cases hstep
    exact h.reply hn _
  | log v next | newInstance values next | look next =>
    cases hstep
    exact ⟨h.limit, h.waiting, hd, hle⟩
  | call typeArgs args next =>
    cases hstep
    exact ⟨h.limit, ⟨hd, h.waiting⟩, hd, hle⟩
  | construct cls typeArgs args next => cases hstep
  | define decl next =>
    cases hstep
    exact hreq (.define decl) _
  | declare n kind sup next =>
    cases hstep
    exact hreq (.declare n kind sup) _
  | heritage id next =>
    cases hstep
    exact hreq (.heritage id) _

/-- Who goes on with a result goes on at its own depth. -/
theorem Counted.resume {result : Except Error Instance} (h : m.Counted L)
    (hn : m.waiting.length ≤ L) (hstep : m.resume result m.waiting = some m') : m'.Counted L := by
  have hwaiting := h.waiting
  cases hw : m.waiting with
  | nil =>
    rw [hw] at hstep
    cases hstep
  | cons a rest =>
    rw [hw] at hstep hwaiting hn
    obtain ⟨hdepth, hrest⟩ := hwaiting
    cases a with
    | body d frame next =>
      cases hstep
      exact ⟨h.limit, hrest, hdepth, hn⟩
    | guide d parent typeArgs depth =>
      cases hstep
      exact ⟨h.limit, hrest, Nat.le_of_succ_le hn⟩

/-- **One step keeps count.** -/
theorem Counted.step (h : m.Counted L) (hstep : m.step = some m') : m'.Counted L := by
  have hcontrol := h.control
  unfold Machine.step at hstep
  cases hc : m.control with
  | dispatch cls typeArgs args depth =>
    rw [hc] at hcontrol
    simp only [hc] at hstep
    cases hsel : m.world.registry.select cls typeArgs args with
    | error e =>
      simp only [hsel, Option.some.injEq] at hstep
      exact hstep ▸ h.reply hcontrol.2 _
    | ok choice =>
      simp only [hsel, Option.some.injEq] at hstep
      exact hstep ▸ ⟨h.limit, h.waiting, hcontrol⟩
  | invoke d index typeArgs args depth =>
    rw [hc] at hcontrol
    obtain ⟨hdepth, hn⟩ := hcontrol
    simp only [hc, h.limit] at hstep
    split at hstep
    · cases hstep
      exact h.reply hn _
    next hlt =>
      split at hstep <;> cases hstep
      · exact h.reply hn _
      · exact h.enter hdepth (Nat.lt_of_not_le hlt)
  | run d frame program =>
    rw [hc] at hcontrol
    simp only [hc] at hstep
    exact h.request hcontrol.1 hcontrol.2 hstep
  | answer result =>
    rw [hc] at hcontrol
    simp only [hc] at hstep
    exact h.resume hcontrol hstep

/-- All steps do. -/
theorem Counted.steps (h : m.Counted L) (hsteps : m.Steps m') : m'.Counted L := by
  induction hsteps with
  | refl => exact h
  | tail _ hstep ih => exact ih.step hstep

theorem CountDown.map_depth {waiting : List Waiting} (h : CountDown waiting) :
    waiting.map Waiting.depth = (List.range' 1 waiting.length).reverse := by
  induction waiting with
  | nil => rfl
  | cons a rest ih =>
    obtain ⟨hdepth, hrest⟩ := h
    rw [List.map_cons, ih hrest, hdepth, List.length_cons, List.range'_1_concat,
      List.reverse_append, Nat.add_comm 1]
    rfl

/-- **Those at work are at the depths 1, 2, 3 and so on**, and there are as many of them as the
limit allows at most. -/
theorem Counted.depths (h : m.Counted L) :
    m.depths.length ≤ L ∧ m.depths = (List.range' 1 m.depths.length).reverse := by
  have hmap := h.waiting.map_depth
  have hn := h.control.le
  have hcontrol := h.control
  unfold Machine.depths
  cases hc : m.control with
  | run d frame program =>
    -- the one that is running comes on top of those who wait
    rw [hc] at hcontrol
    obtain ⟨hdepth, hle⟩ := hcontrol
    refine ⟨by simpa using hle, ?_⟩
    rw [List.singleton_append, List.length_cons, List.length_map, List.range'_1_concat,
      List.reverse_append, ← hmap, hdepth, Nat.add_comm 1]
    rfl
  | dispatch _ _ _ _ | invoke _ _ _ _ _ | answer _ =>
    exact ⟨by simpa using hn, by simpa using hmap⟩

end Machine

/-! ## The machine gives the answers of the recursion -/

/-- **Both come to the same.** Whatever stands in for constructions from outside, `o` has one and the
same outcome; the machine answers with it, whoever waits, and constructions may start where it
ends. -/
def Control.Settles (L : Nat) (k : Control) (w : World) (o : Construction → Outcome) : Prop :=
  ∃ x : Except Error Instance × World, (∀ construct, o construct = some x) ∧
    (∀ waiting, Machine.Steps ⟨waiting, k, w⟩ ⟨waiting, .answer x.1, x.2⟩) ∧ x.2.Ready L

variable {L : Nat} {k k' : Control} {w w' : World} {o o' : Construction → Outcome}

/-- What is there already settles. -/
theorem World.Ready.settles (h : w.Ready L) (result : Except Error Instance) :
    (Control.answer result).Settles L w fun _ => some (result, w) :=
  ⟨(result, w), fun _ => rfl, fun _ => .refl, h⟩

/-- A first step that leaves those who wait alone. -/
theorem Control.Settles.head (h : k'.Settles L w' o)
    (hstep : ∀ waiting, Machine.step ⟨waiting, k, w⟩ = some ⟨waiting, k', w'⟩) :
    k.Settles L w o := by
  obtain ⟨x, ho, hm, hx⟩ := h
  exact ⟨x, ho, fun waiting => .head (hstep waiting) (hm waiting), hx⟩

/-- A call, and what comes of its result: first `k` is settled while `a` waits for it, then what `a`
goes on with, which is `b` of the result. -/
theorem Control.Settles.call {a : Waiting} (h : k'.Settles L w o)
    (hcall : ∀ waiting, Machine.step ⟨waiting, k, w⟩ = some ⟨a :: waiting, k', w⟩)
    {b : Except Error Instance → World → Control}
    (hback : ∀ result w' waiting,
      Machine.step ⟨a :: waiting, .answer result, w'⟩ = some ⟨waiting, b result w', w'⟩)
    {f : (Except Error Instance × World) → Construction → Outcome}
    (hnext : ∀ x : Except Error Instance × World, x.2.Ready L →
      (b x.1 x.2).Settles L x.2 (f x))
    (ho' : ∀ construct x, o construct = some x → o' construct = f x construct) :
    k.Settles L w o' := by
  obtain ⟨x, ho, hm, hx⟩ := h
  obtain ⟨y, hf, hm', hy⟩ := hnext x hx
  refine ⟨y, fun construct => by rw [ho' construct x (ho construct), hf], fun waiting => ?_, hy⟩
  have hresult : Machine.Steps ⟨waiting, k, w⟩ ⟨waiting, b x.1 x.2, x.2⟩ :=
    .head (hcall waiting) ((hm (a :: waiting)).tail (hback x.1 x.2 waiting))
  exact hresult.trans (hm' waiting)

/-- The constructors of inward classes, invoked with `n` of the limit left. -/
def InvokeSettles (L n depth : Nat) : Prop :=
  ∀ (w : World) (d : ClassDef Body) (index : Nat) (typeArgs : Option (List Ty))
    (args : List Value), w.Ready L → d.Inward →
      (Control.invoke d index typeArgs args depth).Settles L w fun construct =>
        invoke construct n d index typeArgs args w

variable {n depth : Nat}

/-- A selection comes first. -/
theorem dispatch_settles (hinv : InvokeSettles L n depth) (h : w.Ready L) (cls : TypeId)
    (typeArgs : Option (List Ty)) (args : List Value) :
    (Control.dispatch cls typeArgs args depth).Settles L w fun construct =>
      dispatch (invoke construct n) cls typeArgs args w := by
  unfold dispatch
  cases hsel : w.registry.select cls typeArgs args with
  | error e =>
    refine (h.settles (.error e)).head fun waiting => ?_
    simp only [Machine.step, hsel]
    rfl
  | ok choice =>
    obtain ⟨d, index⟩ := choice
    have hd := Registry.instantiable_of_select hsel
    refine (hinv w d index typeArgs args h (h.of_instantiable hd)).head fun waiting => ?_
    simp only [Machine.step, hsel]

/-- **An inward program** settles if the constructors that it calls do: by induction on the program,
whatever the registry has become meanwhile. -/
theorem Program.Inward.settles {p : Program} (hp : p.Inward) (frame : Frame)
    (hinv : InvokeSettles L n frame.depth) (d : ClassDef Body) (h : w.Ready L) :
    (Control.run d frame p).Settles L w fun construct =>
      (p.run (dispatch (invoke construct n)) construct frame.toCallSite w).andThen
        fun _ => d.checkResult := by
  induction hp generalizing w with
  | @done result => exact (h.settles (result.bind d.checkResult)).head fun waiting => rfl
  | @log v next _ ih => exact (ih (h.push v)).head fun waiting => rfl
  | newInstance _ ih => exact (ih _ h).head fun waiting => rfl
  | @call typeArgs args next _ ih =>
    have hdisp := dispatch_settles hinv h frame.cls typeArgs args
    refine hdisp.call (a := .body d frame next)
      (f := fun x construct => ((next x.1).run (dispatch (invoke construct n)) construct
        frame.toCallSite x.2).andThen fun _ => d.checkResult)
      (fun waiting => rfl) (fun result w' waiting => rfl) (fun x hx => ih x.1 hx) ?_
    intro construct x hx
    simp only [Program.run, hx]
  | @define decl next hd _ _ ih =>
    have hafter := h.after (.define decl) fun d' hd' c hc => by
      cases hd'
      exact fun site args => hd c hc site args
    exact (ih (w.registry.define decl).1 hafter).head fun waiting => rfl
  | @declare name kind sup next _ ih =>
    have hafter := h.after (.declare name kind sup) fun d' hd' => by cases hd'
    exact (ih (w.registry.declare name kind sup).1 hafter).head fun waiting => rfl
  | @heritage id next _ ih =>
    have hafter := h.after (.heritage id) fun d' hd' => by cases hd'
    exact (ih (w.registry.heritage id).1 hafter).head fun waiting => rfl
  | look _ ih => exact (ih _ h).head fun waiting => rfl

/-- What a guide calls is a constructor of an inward class. -/
theorem World.Ready.of_guideTarget (h : w.Ready L) {d parent : ClassDef Body}
    (ht : d.guideTarget w.registry = .ok parent) : parent.Inward := by
  unfold ClassDef.guideTarget at ht
  split at ht
  · cases ht
  · exact h.of_instantiable ht

/-- **A constructor settles** if the constructors that it calls do, one deeper than it was
invoked. -/
theorem runConstructor_settles (hinv : InvokeSettles L n (depth + 1)) (h : w.Ready L)
    {d : ClassDef Body} (hd : d.Inward) {c : Constructor Body} (hc : c ∈ d.constructors)
    {typeArgs : Option (List Ty)} {args : List Value}
    (hstep : ∀ waiting, Machine.step ⟨waiting, k, w⟩ =
      some (Machine.enter ⟨waiting, k, w⟩ d c typeArgs args depth)) :
    k.Settles L w fun construct =>
      runConstructor construct (invoke construct n) (depth + 1) d c typeArgs args w := by
  obtain ⟨params, parametrized, kind⟩ := c
  cases kind with
  | default => exact (h.settles _).head hstep
  | copyExtend => exact (h.settles _).head hstep
  | user body =>
    have hbody : Body.Inward body := hd _ hc body rfl
    have hrun := (hbody ⟨d.id, typeArgs⟩ args).settles ⟨⟨d.id, typeArgs⟩, depth + 1⟩ hinv d h
    exact hrun.head hstep
  | guide target =>
    simp only [Machine.enter] at hstep
    simp only [runConstructor, runGuide]
    cases ht : d.guideTarget w.registry with
    | error e =>
      simp only [ht] at hstep
      exact (h.settles _).head hstep
    | ok parent =>
      simp only [ht] at hstep
      -- the guide waits for the constructor of the superclass and relabels what comes of it
      have hparent := hinv w parent target (typeArgs.map (·.take parent.typeParams.length)) args h
        (h.of_guideTarget ht)
      refine hparent.call (a := .guide d parent typeArgs (depth + 1)) hstep
        (b := fun result w' => .answer (result.bind (d.relabel w'.registry parent typeArgs)))
        (f := fun x _ => some (x.1.bind (d.relabel x.2.registry parent typeArgs), x.2))
        (fun result w' waiting => rfl) (fun x hx => hx.settles _) ?_
      intro construct x hx
      simp only [hx]
      rfl

/-- **Every invocation settles**: by induction on what is left of the limit, which together with
the depth makes up the limit. -/
theorem invoke_settles (hn : depth + n = L) : InvokeSettles L n depth := by
  induction n generalizing depth with
  | zero =>
    intro w d index typeArgs args h hd
    refine (h.settles (.error (.constructorDepthExceeded _))).head fun waiting => ?_
    have hle : L ≤ depth := by omega
    simp only [Machine.step, h.limit, if_pos hle]
    rfl
  | succ n ih =>
    intro w d index typeArgs args h hd
    have hlt : ¬ L ≤ depth := by omega
    have hdepth : L - n = depth + 1 := by omega
    simp only [invoke, invokeOr, h.limit, hdepth]
    cases hc : d.constructors[index]? with
    | none =>
      refine (h.settles _).head fun waiting => ?_
      simp only [Machine.step, h.limit, if_neg hlt, hc]
      rfl
    | some c =>
      refine runConstructor_settles (ih (by omega)) h hd (List.mem_of_getElem? hc) fun waiting => ?_
      simp only [Machine.step, h.limit, if_neg hlt, hc]

/-! ## Constructions -/

/-- **What holds at every moment of a construction** with the limit `L`. Not more than `L` user
constructors and guides are at work, at the depths 1, 2, 3 and so on; no depth at hand is beyond
the limit; and what is invoked at the limit is refused at once, in the same world. -/
structure Machine.WithinLimit (L : Nat) (m : Machine) : Prop where
  at_work : m.depths.length ≤ L
  depths : m.depths = (List.range' 1 m.depths.length).reverse
  counted : m.control.Counted L m.waiting.length
  refused : ∀ d index typeArgs args, m.control = .invoke d index typeArgs args L →
    m.step = some ⟨m.waiting, .answer (.error (.constructorDepthExceeded L)), m.world⟩

theorem Machine.Counted.withinLimit {m : Machine} (h : m.Counted L) : m.WithinLimit L where
  at_work := h.depths.1
  depths := h.depths.2
  counted := h.control
  refused d index typeArgs args hc := by
    simp only [Machine.step, hc, h.limit, if_pos (Nat.le_refl L)]
    rfl

/-- **Every construction ends.** Where all bodies look inward, a construction has an outcome, which
is the same for every budget. Played out step by step it comes to that outcome, from wherever it has
got to, and at every moment it is within the limit. -/
theorem World.construct_ends (hr : w.registry.Reachable) (hin : w.registry.Inward) (cls : TypeId)
    (typeArgs : Option (List Ty)) (args : List Value) :
    ∃ x : Except Error Instance × World,
      (∀ budget, w.construct (budget + 1) cls typeArgs args = some x) ∧
      ∀ m, (Machine.start w cls typeArgs args).Steps m →
        m.Steps ⟨[], .answer x.1, x.2⟩ ∧
        m.WithinLimit w.registry.settings.maxConstructorDepth := by
  have hready : w.Ready w.registry.settings.maxConstructorDepth := ⟨hr, hin, rfl⟩
  have hinv := invoke_settles (Nat.zero_add w.registry.settings.maxConstructorDepth)
  obtain ⟨x, ho, hend, -⟩ := dispatch_settles hinv hready cls typeArgs args
  refine ⟨x, fun budget => ho (constructWithin budget), fun m hm => ⟨?_, ?_⟩⟩
  · exact hm.to_end (hend []) rfl
  · exact ((Machine.counted_start rfl cls typeArgs args).steps hm).withinLimit

/-! ## A constructor that calls itself -/

/-- A class whose constructor writes into the log and calls itself. -/
def echo : ClassDecl Body :=
  ⟨"Echo", none, [], false,
    [.ctor ⟨"Echo", [], false, fun _ _ => .log (.str "again") (.call none [] .done)⟩]⟩

/-- Settings with a low limit. -/
def shallow : Settings := ⟨"Class", "Abstract", 3, 256⟩

/-- A world with the class under these settings. -/
def canyon : World := .ofRegistry ((Registry.ofSettings shallow).after (.define echo))

theorem ready_canyon : canyon.Ready 3 := by
  have hnew : Registry.new shallow = .ok (Registry.ofSettings shallow : Registry Body) := rfl
  have hstart : World.Ready 3 (.ofRegistry (Registry.ofSettings shallow)) := by
    refine ⟨⟨shallow, _, hnew, .refl⟩, ?_, rfl⟩
    intro id d hd c hc
    obtain ⟨-, rfl⟩ := Registry.classDef?_ofSettings hd
    cases hc
  refine hstart.after (.define echo) fun d hd c hc => ?_
  cases hd
  obtain rfl : c = ⟨"Echo", [], false, fun _ _ => .log (.str "again") (.call none [] .done)⟩ := by
    simpa [echo, ClassDecl.ctors, BodyEntry.ctor?] using hc
  exact fun site args => .log (.call fun result => .done)

/-- The constructor runs three times, and the fourth invocation is refused. -/
theorem construct_ends_canyon : ∃ x : Except Error Instance × World,
    (∀ budget, canyon.construct (budget + 1) 2 none [] = some x) ∧
    (Machine.start canyon 2 none []).Steps ⟨[], .answer x.1, x.2⟩ ∧
    x.1.map (fun _ => ()) = .error (.constructorDepthExceeded 3) ∧ x.2.log.length = 3 := by
  obtain ⟨x, ho, hm⟩ := World.construct_ends ready_canyon.reachable ready_canyon.inward 2 none []
  have hrun : (canyon.construct 1 2 none []).map (fun x => (x.1.map fun _ => (), x.2.log.length)) =
      some (.error (.constructorDepthExceeded 3), 3) := by
    decide +kernel
  rw [ho 0, Option.map_some, Option.some.injEq, Prod.mk.injEq] at hrun
  exact ⟨x, ho, (hm _ .refl).1, hrun.1, hrun.2⟩

end ClassGraph
