import ClassGraph.Proofs.Choice
import ClassGraph.Proofs.Stages

/-!
# Soundness of instances

A construction, whatever honest bodies it runs, is a series of single steps from one stage to
another. So all that comes up in it is sound.

* `Stage.Comes`: an outcome is come to by steps.
* `Program.run_comes`: the program of a body is a series of steps, if what it calls is.
* `invoke_faithful`, `constructWithin_faithful`: so are invocations and constructions, by
  induction on what is left of the limit and of the budget.
* `Live.soundness`: **every instance that comes up in a run is sound**, and what default,
  copying and guide constructors have built can be instantiated again.
-/

namespace ClassGraph

/-! ## Series of steps -/

/-- What a later stage has over an earlier one. -/
structure Stage.Leads (σ σ' : Stage) : Prop where
  registry : σ.registry.Ext σ'.registry
  known : σ.known ⊆ σ'.known
  built : σ.built ⊆ σ'.built

/-- **The outcome is come to by steps** from the stage, and if it is an instance, this is known at
the end and satisfies `P` there. -/
def Stage.Comes (σ : Stage) (x : Except Error Instance × World)
    (P : Stage → Instance → Prop) : Prop :=
  ∃ σ', Live σ' ∧ σ.Leads σ' ∧ σ'.world = x.2 ∧ ∀ i, x.1 = .ok i → i ∈ σ'.known ∧ P σ' i

variable {σ σ' σ₁ : Stage} {P Q : Stage → Instance → Prop} {x : Except Error Instance × World}

theorem Stage.Leads.refl (σ : Stage) : σ.Leads σ := ⟨.refl _, subset_rfl, subset_rfl⟩

theorem Stage.Leads.trans (h : σ.Leads σ') (h' : σ'.Leads σ₁) : σ.Leads σ₁ :=
  ⟨h.registry.trans h'.registry, h.known.trans h'.known, h.built.trans h'.built⟩

theorem Stage.Leads.comes (h : σ.Leads σ') (hx : σ'.Comes x P) : σ.Comes x P := by
  obtain ⟨σ₁, hlive, hl, hw, hi⟩ := hx
  exact ⟨σ₁, hlive, h.trans hl, hw, hi⟩

theorem Stage.Comes.imp (h : σ.Comes x P) (hPQ : ∀ σ' i, P σ' i → Q σ' i) : σ.Comes x Q := by
  obtain ⟨σ', hlive, hl, hw, hi⟩ := h
  exact ⟨σ', hlive, hl, hw, fun i hx => (hi i hx).imp_right (hPQ σ' i)⟩

/-- An error is come to by no step at all. -/
theorem Live.comes_error (h : Live σ) (e : Error) : σ.Comes (.error e, σ.world) P :=
  ⟨σ, h, .refl σ, rfl, fun _ hi => by cases hi⟩

/-- An instantiation is a step. -/
theorem Live.comes_instantiate {id : TypeId} {d : ClassDef Body} {typeArgs : Option (List Ty)}
    {seed : Substitution} {values : List Value} (h : Live σ)
    (hd : σ.registry.instantiable id = .ok d) (ht : ClosedArgs typeArgs) (hs : seed.Closed)
    (hv : ∀ v ∈ values, v.From σ.known) :
    σ.Comes (σ.registry.graph.instantiate d.layout typeArgs seed values, σ.world)
      fun σ' i => i.cls = d.id ∧ i ∈ σ'.built := by
  cases hi : σ.registry.graph.instantiate d.layout typeArgs seed values with
  | error e => exact h.comes_error e
  | ok i =>
    obtain ⟨hl, -⟩ := Registry.instantiate_sound h.ok.reachable.ok hd ht hs
      (fun v hv' => h.ok.names (hv v hv')) hi
    refine ⟨_, .instantiate h hd ht hs hv hi, ⟨.refl _, Set.subset_insert _ _,
      Set.subset_insert _ _⟩, rfl, fun j hj => ?_⟩
    cases hj
    exact ⟨Set.mem_insert _ _, by rw [Instance.cls, hl]; rfl, Set.mem_insert _ _⟩

/-- A request is a step. -/
theorem Live.request_leads {q : Request Body} (h : Live σ)
    (hq : ∀ d, q = .define d → ∀ c ∈ d.ctors, Body.Honest σ.known c.body) :
    Live (σ.withWorld { σ.world with registry := σ.registry.after q }) ∧
      σ.Leads (σ.withWorld { σ.world with registry := σ.registry.after q }) :=
  ⟨.request h hq, (Registry.after_ok h.ok.reachable.ok q).2, subset_rfl, subset_rfl⟩

/-- After an answer, what has been learned from it is known, and the steps go on from there. -/
theorem Stage.Comes.next {y : Except Error Instance × World} (h : σ.Comes y P)
    (hnext : ∀ σ', Live σ' → σ'.world = y.2 → learn σ.known y.1 ⊆ σ'.known → σ'.Comes x Q) :
    σ.Comes x Q := by
  obtain ⟨σ', hlive, hl, hw, hi⟩ := h
  refine hl.comes (hnext σ' hlive hw ?_)
  rintro i (hk | ⟨j, hj, hin⟩)
  · exact hl.known hk
  · exact hlive.ok.inside (hi j hj).1 hin

/-- Where an instance is come to and `f` goes on from it by steps, the two together are steps. -/
theorem Stage.Comes.bind {y : Except Error Instance × World} {f : Instance → Except Error Instance}
    (h : σ.Comes y P) (hf : ∀ σ' i, Live σ' → σ.Leads σ' → σ'.world = y.2 → i ∈ σ'.known →
      σ'.Comes (f i, y.2) Q) : σ.Comes (y.1.bind f, y.2) Q := by
  obtain ⟨σ', hlive, hl, hw, hi⟩ := h
  cases hy : y.1 with
  | error e => exact ⟨σ', hlive, hl, hw, fun _ h => by cases h⟩
  | ok i => exact hl.comes (hf σ' i hlive hl hw (hi i hy).1)

/-! ## Programs -/

/-- **The outcome of a construction**: it is come to by steps, and if it is an instance, this is of
the class asked for, and has been built unless a user constructor was selected. -/
def Stage.Constructs (σ : Stage) (cls : TypeId) (typeArgs : Option (List Ty))
    (args : List Value) (x : Except Error Instance × World) : Prop :=
  σ.Comes x fun σ' i => i.cls = cls ∧ ∀ d k e,
    σ.registry.select cls typeArgs args = .ok (d, k) → d.constructors[k]? = some e →
    e.role ≠ .user → i ∈ σ'.built

/-- A construction is faithful if its outcomes are come to by steps. -/
def Construction.Faithful (c : Construction) : Prop :=
  ∀ (σ : Stage) cls typeArgs args x, Live σ → ClosedArgs typeArgs →
    (∀ v ∈ args, v.From σ.known) → c cls typeArgs args σ.world = some x →
    σ.Constructs cls typeArgs args x

/-- The same of an invocation. -/
def Invocation.Faithful (inv : Invocation) : Prop :=
  ∀ (σ : Stage) id d k typeArgs args x, Live σ → σ.registry.instantiable id = .ok d →
    ClosedArgs typeArgs → (∀ v ∈ args, v.From σ.known) →
    inv d k typeArgs args σ.world = some x →
    σ.Comes x fun σ' i => i.cls = d.id ∧ ∀ e, d.constructors[k]? = some e → e.role ≠ .user →
      i ∈ σ'.built

/-- **The program of a body** is a series of steps. -/
theorem Program.run_comes {call construct : Construction} (hcall : call.Faithful)
    (hconstruct : construct.Faithful) {site : CallSite} (hsite : ClosedArgs site.explicit) :
    ∀ (p : Program) (σ : Stage) x, Live σ → p.Honest σ.known →
      p.run call construct site σ.world = some x → σ.Comes x fun _ _ => True
  | .done result, σ, x, h, hp, hx => by
    cases hp with
    | done hk =>
      cases hx
      exact ⟨σ, h, .refl σ, rfl, fun i hi => ⟨hk i hi, trivial⟩⟩
  | .log v next, σ, x, h, hp, hx => by
    cases hp with
    | log hv hn =>
      have hl : σ.Leads (σ.withWorld (σ.world.push v)) := ⟨.refl _, subset_rfl, subset_rfl⟩
      exact hl.comes (run_comes hcall hconstruct hsite next _ x (.log h hv) hn hx)
  | .newInstance values next, σ, x, h, hp, hx => by
    cases hp with
    | newInstance hv hn =>
      -- where the site is of no class, the answer is an error and no step
      have hnew : σ.Comes ((σ.registry.instantiable site.cls).bind fun d =>
          σ.registry.graph.instantiate d.layout site.explicit ∅ values, σ.world)
          fun _ _ => True := by
        cases hd : σ.registry.instantiable site.cls with
        | error e => exact h.comes_error e
        | ok d => exact (h.comes_instantiate hd hsite .empty hv).imp fun _ _ _ => trivial
      refine hnew.next fun σ' hlive hw hk => ?_
      refine run_comes hcall hconstruct hsite (next _) σ' x hlive ((hn _).mono hk) ?_
      rw [hw]
      exact hx
  | .call typeArgs args next, σ, x, h, hp, hx => by
    cases hp with
    | call ht hv hn =>
      rw [run] at hx
      cases hc : call site.cls typeArgs args σ.world with
      | none => simp [hc] at hx
      | some y =>
        refine (hcall σ _ _ _ _ h ht hv hc).next fun σ' hlive hw hk => ?_
        refine run_comes hcall hconstruct hsite (next y.1) σ' x hlive ((hn y.1).mono hk) ?_
        rw [hw]
        simpa only [hc] using hx
  | .construct cls typeArgs args next, σ, x, h, hp, hx => by
    cases hp with
    | construct ht hv hn =>
      rw [run] at hx
      cases hc : construct cls typeArgs args σ.world with
      | none => simp [hc] at hx
      | some y =>
        refine (hconstruct σ _ _ _ _ h ht hv hc).next fun σ' hlive hw hk => ?_
        refine run_comes hcall hconstruct hsite (next y.1) σ' x hlive ((hn y.1).mono hk) ?_
        rw [hw]
        simpa only [hc] using hx
  | .define d next, σ, x, h, hp, hx => by
    cases hp with
    | define hd hn =>
      obtain ⟨hlive, hl⟩ := h.request_leads (q := .define d) fun d' hd' => by
        cases hd'
        exact hd
      exact hl.comes (run_comes hcall hconstruct hsite _ _ x hlive (hn _) hx)
  | .declare n kind sup next, σ, x, h, hp, hx => by
    cases hp with
    | declare hn =>
      obtain ⟨hlive, hl⟩ := h.request_leads (q := .declare n kind sup) fun d' hd' => by cases hd'
      exact hl.comes (run_comes hcall hconstruct hsite _ _ x hlive (hn _) hx)
  | .heritage id next, σ, x, h, hp, hx => by
    cases hp with
    | heritage hn =>
      obtain ⟨hlive, hl⟩ := h.request_leads (q := .heritage id) fun d' hd' => by cases hd'
      exact hl.comes (run_comes hcall hconstruct hsite _ _ x hlive (hn _) hx)
  | .look next, σ, x, h, hp, hx => by
    cases hp with
    | look hn =>
      -- all that the body could derive from now on is derived at once
      have hl : σ.Leads ⟨σ.world, {i | Derives σ.registry σ.known i},
          {i | Rewrites σ.registry {i | Derives σ.registry σ.known i} σ.built i}⟩ :=
        ⟨.refl _, fun _ => .given, fun _ => .given⟩
      exact hl.comes (run_comes hcall hconstruct hsite (next _) _ x (.write h)
        ((hn _).mono fun _ hi => hi.of_forget) hx)

/-! ## Constructors -/

section

variable {id : TypeId} {d : ClassDef Body} {c : Constructor Body} {typeArgs : Option (List Ty)}
  {args : List Value} {inv : Invocation} {construct : Construction}

theorem Outcome.andThen_eq_some {o : Outcome} {f : Registry Body → Instance → Except Error Instance}
    (h : o.andThen f = some x) : ∃ y, o = some y ∧ x = (y.1.bind (f y.2.registry), y.2) := by
  obtain ⟨y, hy, rfl⟩ := Option.map_eq_some_iff.1 h
  exact ⟨y, hy, rfl⟩

/-- To go on with the instance as it is changes nothing. -/
theorem Outcome.andThen_ok (o : Outcome) : (o.andThen fun _ i => .ok i) = o := by
  cases o with
  | none => rfl
  | some x =>
    obtain ⟨result, w⟩ := x
    cases result with
    | error e => rfl
    | ok i => rfl

/-- Going on twice is going on once. -/
theorem Outcome.andThen_andThen (o : Outcome)
    (f f' : Registry Body → Instance → Except Error Instance) :
    (o.andThen f).andThen f' = o.andThen fun r i => (f r i).bind (f' r) := by
  cases o with
  | none => rfl
  | some x =>
    obtain ⟨result, w⟩ := x
    cases result with
    | error e => rfl
    | ok i => rfl

/-- What is selected is a constructor of the class asked for, which can have instances. -/
theorem dispatch_faithful (h : inv.Faithful) : (dispatch inv).Faithful := by
  intro σ cls typeArgs args x hlive ht hv hx
  unfold dispatch at hx
  split at hx
  · cases hx
    exact hlive.comes_error _
  next d k hsel =>
    have hd := Registry.instantiable_of_select hsel
    have hid : d.id = cls := hlive.ok.reachable.ok.id_eq (Registry.instantiable_ok hd).1
    refine (h σ cls d k typeArgs args x hlive hd ht hv hx).imp fun σ' i ⟨hcls, hbuilt⟩ =>
      ⟨hcls.trans hid, fun d' k' e hsel' => ?_⟩
    cases hsel.symm.trans hsel'
    exact hbuilt e

/-- A class stays what it is while steps are taken. -/
theorem Stage.Leads.instantiable (hl : σ.Leads σ') (h : Live σ) (h' : Live σ')
    (hd : σ.registry.instantiable id = .ok d) : σ'.registry.instantiable id = .ok d := by
  obtain ⟨hc, hne⟩ := Registry.instantiable_ok hd
  rw [h.ok.reachable.ok.id_eq hc] at hne
  exact h'.ok.reachable.ok.instantiable (hl.registry.classDef? hc) hne

/-- The body of a user constructor is run by steps, and what it comes up with is of the class. -/
theorem runBody_comes (hcall : Construction.Faithful (dispatch inv))
    (hconstruct : construct.Faithful) {body : Body} {depth : Nat} (h : Live σ)
    (hd : σ.registry.instantiable id = .ok d) (hc : c ∈ d.constructors) (hk : c.kind = .user body)
    (ht : ClosedArgs typeArgs) (hv : ∀ v ∈ args, v.From σ.known)
    (hx : runBody (dispatch inv) construct d body ⟨⟨d.id, typeArgs⟩, depth⟩ args σ.world = some x) :
    σ.Comes x fun _ i => i.cls = d.id := by
  obtain ⟨y, hy, rfl⟩ := Outcome.andThen_eq_some hx
  -- the body is honest about all that is known, and the arguments add nothing to it
  have hbody := h.ok.honest (Registry.instantiable_ok hd).1 hc hk ⟨d.id, typeArgs⟩ args ht
  have hargs : withArgs σ.known args ⊆ σ.known := by
    rintro i (hi | ⟨v, hmem, hi⟩)
    · exact hi
    · exact hv v hmem i hi
  refine (Program.run_comes hcall hconstruct ht _ σ y h (hbody.mono hargs) hy).bind
    fun σ' i hlive hl hw hi => ?_
  rw [← hw]
  unfold ClassDef.checkResult
  split
  · exact hlive.comes_error _
  · next hcls => exact ⟨σ', hlive, .refl σ', rfl, fun j hj => by
      cases hj
      exact ⟨hi, by simpa using hcls⟩⟩

/-- A copy of an instance of the superclass, extended, is a new instance. -/
theorem copyExtend_comes (h : Live σ) (hd : σ.registry.instantiable id = .ok d)
    (hv : ∀ v ∈ args, v.From σ.known) :
    σ.Comes (d.copyExtend σ.registry args, σ.world) fun σ' i => i.cls = d.id ∧ i ∈ σ'.built := by
  unfold ClassDef.copyExtend
  split
  · next parent values =>
    -- the type arguments of the parent are closed, as the parent is sound
    have hparent : parent ∈ σ.known := hv _ List.mem_cons_self _ .self
    refine h.comes_instantiate hd (fun ts hts => by cases hts)
      (Substitution.Closed.empty.bindAll _ (h.ok.sound hparent).closed) fun v hmem => ?_
    rcases List.mem_append.1 hmem with hmem | hmem
    · exact h.ok.field_from hparent hmem
    · exact hv v (List.mem_cons_of_mem _ hmem)
  · exact h.comes_error _
  · exact h.comes_error _

/-- A guide goes on from what the superclass's constructor gives to a new instance. -/
theorem runGuide_comes (hinv : inv.Faithful) {target : Nat} (h : Live σ)
    (hd : σ.registry.instantiable id = .ok d) (ht : ClosedArgs typeArgs)
    (hv : ∀ v ∈ args, v.From σ.known) (hx : runGuide inv d target typeArgs args σ.world = some x) :
    σ.Comes x fun σ' i => i.cls = d.id ∧ i ∈ σ'.built := by
  unfold runGuide at hx
  split at hx
  · cases hx
    exact h.comes_error _
  next parent hparent =>
    -- first the constructor of the superclass, then an instantiation from what it gives
    obtain ⟨y, hy, rfl⟩ := Outcome.andThen_eq_some hx
    obtain ⟨sid, hsid⟩ : ∃ sid, σ.registry.instantiable sid = .ok parent := by
      unfold ClassDef.guideTarget at hparent
      split at hparent
      · cases hparent
      · exact ⟨_, hparent⟩
    refine (hinv σ sid parent target _ args y h hsid (ht.take _) hv hy).bind
      fun σ' i hlive hl hw hi => ?_
    rw [← hw]
    exact hlive.comes_instantiate (hl.instantiable h hlive hd) ht
      (Substitution.Closed.empty.bindAll _ (hlive.ok.sound hi).closed)
      fun v hmem => hlive.ok.field_from hi hmem

/-- What a constructor does is a series of steps, and all but user constructors build an
instance. -/
theorem runConstructor_comes (hinv : inv.Faithful) (hconstruct : construct.Faithful) {depth : Nat}
    (h : Live σ) (hd : σ.registry.instantiable id = .ok d) (hc : c ∈ d.constructors)
    (ht : ClosedArgs typeArgs) (hv : ∀ v ∈ args, v.From σ.known)
    (hx : runConstructor construct inv depth d c typeArgs args σ.world = some x) :
    σ.Comes x fun σ' i => i.cls = d.id ∧ (c.role ≠ .user → i ∈ σ'.built) := by
  unfold runConstructor at hx
  split at hx
  · cases hx
    exact (h.comes_instantiate hd ht .empty hv).imp fun _ _ hi => hi.imp_right fun hb _ => hb
  · cases hx
    exact (copyExtend_comes h hd hv).imp fun _ _ hi => hi.imp_right fun hb _ => hb
  · next body hk =>
    refine (runBody_comes (dispatch_faithful hinv) hconstruct h hd hc hk ht hv hx).imp
      fun _ _ hi => ⟨hi, fun hrole => absurd ?_ hrole⟩
    rw [Constructor.role, hk]
    rfl
  · exact (runGuide_comes hinv h hd ht hv hx).imp fun _ _ hi => hi.imp_right fun hb _ => hb

end

/-! ## Constructions -/

/-- **Invocations are series of steps**, however much is left of the limit. -/
theorem invoke_faithful {construct : Construction} (hconstruct : construct.Faithful) (n : Nat) :
    (invoke construct n).Faithful := by
  induction n with
  | zero =>
    intro σ id d k typeArgs args x h _ _ _ hx
    cases hx
    exact h.comes_error _
  | succ n ih =>
    intro σ id d k typeArgs args x h hd ht hv hx
    simp only [invoke, invokeOr] at hx
    split at hx
    · cases hx
      exact h.comes_error _
    · next c hc =>
      refine (runConstructor_comes ih hconstruct h hd (List.mem_of_getElem? hc) ht hv hx).imp
        fun σ' i ⟨hcls, hbuilt⟩ => ⟨hcls, fun e he => ?_⟩
      cases hc.symm.trans he
      exact hbuilt

/-- **Constructions are series of steps**, however deep they may start each other. -/
theorem constructWithin_faithful (budget : Nat) : (constructWithin budget).Faithful := by
  induction budget with
  | zero =>
    intro σ cls typeArgs args x _ _ _ hx
    cases hx
  | succ budget ih =>
    intro σ cls typeArgs args x h ht hv hx
    exact dispatch_faithful (invoke_faithful ih _) σ cls typeArgs args x h ht hv hx

/-- **Soundness of instances.** At every stage of a run all instances that have come up are sound,
with all instances inside them, and those built by an instantiation come out again if they are
instantiated from their type arguments and fields. A construction, and so a call within one, leads
on to such a stage. -/
theorem Live.soundness (h : Live σ) :
    (∀ i ∈ σ.known, ∀ j : Instance, j.Inside (.object i) → j.Sound σ.registry) ∧
    (∀ i ∈ σ.built,
      σ.registry.graph.instantiate i.layout (some i.typeArgs) ∅ i.fields = .ok i) ∧
    ∀ budget cls typeArgs args x, ClosedArgs typeArgs → (∀ v ∈ args, v.From σ.known) →
      (σ.world.construct budget cls typeArgs args = some x →
        σ.Constructs cls typeArgs args x) ∧
      ∀ rest, dispatch (invoke (constructWithin budget) rest) cls typeArgs args σ.world = some x →
        σ.Constructs cls typeArgs args x := by
  refine ⟨fun i hi j hj => h.ok.sound (h.ok.inside hi hj), fun i hi => ?_, ?_⟩
  · exact (h.ok.sound (h.ok.built_known hi)).instantiate_eq (h.ok.complete hi)
  · intro budget cls typeArgs args x ht hv
    have hbudget := constructWithin_faithful budget
    exact ⟨hbudget σ cls typeArgs args x h ht hv, fun rest =>
      dispatch_faithful (invoke_faithful hbudget rest) σ cls typeArgs args x h ht hv⟩

/-! ## A box -/

/-- A mutable class of one field, of any type, and a constructor that puts a number into it. -/
def box : ClassDecl Body :=
  ⟨"Box", none, [⟨"T", .any⟩], true, [
    .field ⟨"x", .param "T"⟩,
    .ctor ⟨"Box", [], false, fun _ _ => .log (.str "empty") (.newInstance [.int 0] .done)⟩]⟩

/-- The body of that constructor is honest. -/
theorem honest_box : ∀ c ∈ box.ctors, Body.Honest ∅ c.body := by
  intro c hc
  obtain rfl : c = ⟨"Box", [], false, fun _ _ =>
      .log (.str "empty") (.newInstance [.int 0] .done)⟩ := by
    simpa [box, ClassDecl.ctors, BodyEntry.ctor?] using hc
  intro site args _
  refine .log (fun i hi => by cases hi) (.newInstance (fun v hv i hi => ?_) fun result => ?_)
  · rw [List.mem_singleton] at hv
    subst hv
    cases hi
  · exact .done fun i hi => .inr ⟨i, hi, .self⟩

/-- A world in which the box is defined. -/
def boxes : World := .ofRegistry ((Registry.ofSettings .standard).after (.define box))

theorem live_boxes : Live ⟨boxes, ∅, ∅⟩ := by
  have hnew : Registry.new .standard = .ok (Registry.ofSettings .standard : Registry Body) := rfl
  exact (Live.start hnew).request fun d hd => by
    cases hd
    exact honest_box

/-- Boxes that have been constructed are sound, and can be instantiated again. -/
theorem soundness_boxes : ∃ (σ : Stage) (i : Instance), Live σ ∧ i ∈ σ.known ∧ i.cls = 2 ∧
    i.Sound σ.registry ∧
    σ.registry.graph.instantiate i.layout (some i.typeArgs) ∅ i.fields = .ok i := by
  have hnew : Registry.new .standard = .ok (Registry.ofSettings .standard : Registry Body) := rfl
  have hstart := Live.start hnew
  have hlive : Live ⟨boxes, ∅, ∅⟩ := hstart.request fun d hd => by
    cases hd
    exact honest_box
  have hrun : (boxes.construct 1 2 none [.int 5]).any (·.1.toOption.isSome) = true := by
    decide +kernel
  obtain ⟨⟨result, w⟩, hx, hok⟩ := (Option.any_eq_true _ _).1 hrun
  obtain ⟨i, rfl⟩ : ∃ i, result = .ok i := by
    cases result with
    | error e => cases hok
    | ok i => exact ⟨i, rfl⟩
  have hargs : ∀ v ∈ [Value.int 5], v.From ∅ := by
    intro v hv j hj
    rw [List.mem_singleton] at hv
    subst hv
    cases hj
  obtain ⟨σ, hσ, -, -, hi⟩ :=
    (hlive.soundness.2.2 1 2 none [.int 5] _ (fun ts hts => by cases hts) hargs).1 hx
  obtain ⟨hknown, hcls, hbuilt⟩ := hi i rfl
  have hsel : (boxes.registry.select 2 none [.int 5]).map (fun x =>
      x.1.constructors[x.2]?.map (·.role)) = .ok (some .default) := by
    decide +kernel
  cases hs : boxes.registry.select 2 none [.int 5] with
  | error e => simp [hs, Except.map] at hsel
  | ok dk =>
    obtain ⟨d, k⟩ := dk
    simp only [hs, Except.map, Except.ok.injEq] at hsel
    obtain ⟨e, he, hrole⟩ := Option.map_eq_some_iff.1 hsel
    have hb := hbuilt d k e hs he (by simp [hrole])
    exact ⟨σ, i, hσ, hknown, hcls, hσ.soundness.1 i hknown i .self, hσ.soundness.2.1 i hb⟩

end ClassGraph
