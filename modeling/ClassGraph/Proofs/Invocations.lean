import ClassGraph.Proofs.Ancestry
import ClassGraph.Proofs.ConstructorTable
import ClassGraph.Proofs.Soundness

/-!
# Invocations

A call selects a constructor for its arguments. If that is a guide, the constructor behind it is
invoked by its place, with the same arguments and without a selection; it may be a guide again. What
the selection has checked of the arguments is not checked once more on the way up, so it has to be
carried along: their number, whether there are type arguments and how many, and that an argument for
a parameter with the name of a class is an instance of that class. Renaming the type parameters
touches none of this.

* `Registry.Invoked`: the constructors that a call invokes; `Registry.Invoked.outcome`: what comes of
  them comes of the call.
* `Registry.Suits`: the arguments suit a constructor; `Registry.Suits.guide`: **then they suit the
  constructor that it leads to**; `Registry.Invoked.suits`: so they suit all that are invoked.
* `Graph.instantiate_counts`: where the numbers are right, no instantiation complains of them.
* `Registry.Reachable.constructors_wellFormed`: **no call gets to a constructor that is not there, to
  a guide without superclass, to a copy of anything but an instance of the superclass, or to wrong
  numbers.**
-/

namespace ClassGraph

variable {β : Type}

/-! ## The constructors that a call invokes -/

namespace Registry

/-- **The constructors that a call invokes**: the one that is selected, and behind `n` guides the one
that the last of them leads to. Each is given by its class, its place there, and the type arguments;
the arguments are those of the call. -/
inductive Invoked (r : Registry β) (cls : TypeId) (typeArgs : Option (List Ty))
    (args : List Value) : Nat → ClassDef β → Nat → Option (List Ty) → Prop
  | selected {d : ClassDef β} {k : Nat} (h : r.select cls typeArgs args = .ok (d, k)) :
      Invoked r cls typeArgs args 0 d k typeArgs
  | guided {n : Nat} {d s : ClassDef β} {k j : Nat} {ts : Option (List Ty)} {e : Constructor β}
      (h : Invoked r cls typeArgs args n d k ts) (he : d.constructors[k]? = some e)
      (hj : e.kind = .guide j) (hs : d.guideTarget r = .ok s) :
      Invoked r cls typeArgs args (n + 1) s j (ts.map (·.take s.typeParams.length))

variable {cls : TypeId} {typeArgs ts : Option (List Ty)} {args : List Value} {n k : Nat}

/-- No type argument has a parameter in it, if those of the call have none. -/
theorem Invoked.closedArgs {r : Registry β} {d : ClassDef β}
    (h : r.Invoked cls typeArgs args n d k ts) (hclosed : ClosedArgs typeArgs) : ClosedArgs ts := by
  induction h with
  | selected _ => exact hclosed
  | guided _ _ _ _ ih => exact ih.take _

/-- **What comes of an invocation comes of the call**: the guides on the way make something of it. -/
theorem Invoked.outcome {w : World} {d : ClassDef Body}
    (h : w.registry.Invoked cls typeArgs args n d k ts) : ∃ f, ∀ construct m,
      dispatch (invoke construct (n + m)) cls typeArgs args w =
        (invoke construct m d k ts args w).andThen f := by
  induction h with
  | selected hsel =>
    refine ⟨fun _ i => .ok i, fun construct m => ?_⟩
    rw [dispatch, hsel, Nat.zero_add, Outcome.andThen_ok]
  | @guided n d s k j ts e _ he hj hs ih =>
    obtain ⟨f, hf⟩ := ih
    refine ⟨fun r i => (d.relabel r s ts i).bind (f r), fun construct m => ?_⟩
    have hstep : invoke construct (m + 1) d k ts args w =
        (invoke construct m s j (ts.map (·.take s.typeParams.length)) args w).andThen
          fun r => d.relabel r s ts := by
      simp only [invoke, invokeOr, he, runConstructor, hj, runGuide, hs]
    have hcount : n + 1 + m = n + (m + 1) := by omega
    rw [hcount, hf, hstep, Outcome.andThen_andThen]

end Registry

/-! ## Arguments that suit a constructor -/

/-- Where values match, those for a name are instances of what has that name, or of what is below. -/
theorem Graph.accepts_of_matchSlots {g : Graph} {s s' : Substitution} {slots : List (Field × Value)}
    (h : g.matchSlots s slots = .ok s') :
    ∀ x ∈ slots, ∀ n, x.1.ty = .named n → g.accepts n x.2 = true := by
  induction slots generalizing s with
  | nil => simp
  | cons y slots ih =>
    obtain ⟨f, v⟩ := y
    obtain ⟨s₁, hv, h⟩ := matchSlots_cons_eq_ok_iff.1 h
    intro x hx n hn
    rcases List.mem_cons.1 hx with rfl | hx
    · simp only at hn
      rw [hn, matchValue_named] at hv
      exact hv.1
    · exact ih h x hx n hn

namespace Registry

/-- **The arguments suit the constructor `e`** at the place `k` of the class `d`, with the type
arguments `ts`. -/
structure Suits (r : Registry β) (d : ClassDef β) (k : Nat) (ts : Option (List Ty))
    (args : List Value) (e : Constructor β) : Prop where
  instantiable : r.instantiable d.id = .ok d
  at_place : d.constructors[k]? = some e
  arity : e.arity = args.length
  parametrized : e.parametrized = ts.isSome
  count : ∀ us, ts = some us → us.length = d.typeParams.length
  named : ∀ x ∈ e.params.zip args, ∀ n, x.1.ty = .named n → r.graph.accepts n x.2 = true

variable {r : Registry β} {d s : ClassDef β} {e : Constructor β} {ts typeArgs : Option (List Ty)}
  {args : List Value} {k j n : Nat} {cls : TypeId}

/-- The arguments suit what is selected for them. -/
theorem OK.suits_of_select (hr : r.OK) (h : r.select cls typeArgs args = .ok (d, k)) :
    ∃ e, r.Suits d k typeArgs args e := by
  obtain ⟨hd, hadm, e, hbest⟩ := best_of_select h
  have hid : d.id = cls := hr.id_eq (instantiable_ok hd).1
  obtain ⟨σ, hm, -⟩ := hbest.applicable.fits
  exact ⟨e, by rw [hid, hd], hbest.at_place, hbest.applicable.arity,
    hbest.applicable.parametrized, fun ts hts => (hadm ts hts).1, Graph.accepts_of_matchSlots hm⟩

/-- **A guide has something to lead to, and the arguments suit that too.** -/
theorem Suits.guide (h : r.Suits d k ts args e) (hr : r.OK) (hj : e.kind = .guide j) :
    ∃ s x, d.superclass = some s.id ∧ d.guideTarget r = .ok s ∧ x.role ≠ .default ∧
      d.layout.fields.length = s.layout.fields.length ∧
      r.Suits s j (ts.map (·.take s.typeParams.length)) args x := by
  obtain ⟨decl, o, hd, hm⟩ := hr.made_of_instantiable h.instantiable
  obtain ⟨x, hx, hdef, rfl, hlocal, hsid⟩ := hm.guide hr (List.mem_of_getElem? h.at_place) hj
  have hinst := hr.instantiable hm.superDef hsid
  have harity := h.arity
  simp only [Constructor.arity, Constructor.toGuide, List.length_map] at harity
  have hfields : d.layout.fields.length = o.superDef.layout.fields.length := by
    rw [hm.localFields_eq_nil_iff.1 hlocal, hm.length_passed hr]
  refine ⟨o.superDef, x, hm.superclass, ?_, ?_, hfields, hinst, hx, harity, ?_, ?_, ?_⟩
  · rw [ClassDef.guideTarget, hm.superclass]
    exact hinst
  · simpa [Constructor.isDefault] using hdef
  · rw [Option.isSome_map]
    exact h.parametrized
  · intro us hus
    obtain ⟨vs, hvs, rfl⟩ := Option.map_eq_some_iff.1 hus
    obtain ⟨n, he⟩ := hm.extends hr
    exact List.length_take_of_le (he.length_le (h.count vs hvs))
  · -- a name is no type parameter, so the guide has it as it is
    intro y hy n hn
    refine h.named (⟨y.1.name, y.1.ty.subst hd.substitution⟩, y.2) ?_ n ?_
    · rw [Constructor.toGuide, List.zip_map_left]
      exact List.mem_map_of_mem (f := Prod.map _ id) hy
    · simp only [hn, Ty.subst_named]

/-- **The arguments suit whatever a call invokes.** -/
theorem Invoked.suits (h : r.Invoked cls typeArgs args n d k ts) (hr : r.OK) :
    ∃ e, r.Suits d k ts args e := by
  induction h with
  | selected hsel => exact hr.suits_of_select hsel
  | guided _ he hj hs ih =>
    obtain ⟨e', hsuits⟩ := ih
    obtain rfl := Option.some.inj (he.symm.trans hsuits.at_place)
    obtain ⟨s', x, -, htarget, -, -, hnext⟩ := hsuits.guide hr hj
    obtain rfl := Except.ok.inj (hs.symm.trans htarget)
    exact ⟨x, hnext⟩

/-- **A constructor that copies gets an instance of the superclass**, of that very class, and a value
for each local field. -/
theorem Suits.copyExtend (h : r.Suits d k ts args e) (hr : r.Reachable)
    (hk : e.kind = .copyExtend) : ∃ s p ws, d.superclass = some s.id ∧
      r.classDef? s.id = some s ∧ args = .object p :: ws ∧ p.cls = s.id ∧
      s.layout.fields.length + ws.length = d.layout.fields.length := by
  obtain ⟨decl, o, hd, hm⟩ := hr.ok.made_of_instantiable h.instantiable
  have hlen := h.arity
  have hnamed := h.named
  cases hm.origin hr.ok (List.mem_of_getElem? h.at_place) with
  | written _ | default _ | guide _ _ _ _ => cases hk
  | copyExtend hfields =>
    have hsid : o.superDef.id ≠ rootId := by
      intro hroot
      have hdef := hm.superDef
      rw [hroot, hr.ok.root, Option.some.injEq] at hdef
      rw [← hdef] at hfields
      exact hfields rfl
    cases args with
    | nil => simp [Constructor.arity] at hlen
    | cons v ws =>
      have haccepts := hnamed (⟨superParam, .named o.superDef.name⟩, v) (by simp) _ rfl
      obtain ⟨p, rfl⟩ : ∃ p, v = .object p := by
        cases v with
        | object p => exact ⟨p, rfl⟩
        | nothing | bool _ | int _ | float _ | str _ | list _ => cases haccepts
      have hcls := (hr.inStep.accepts_class_iff hm.superDef hsid).1 haccepts
      refine ⟨o.superDef, p, ws, hm.superclass, hm.superDef, rfl, hcls, ?_⟩
      have hle : o.superDef.layout.fields.length ≤ d.layout.fields.length := by
        rw [← hm.length_passed hr.ok, hm.fields, List.length_append]
        omega
      simp only [Constructor.arity, List.length_cons, Layout.localFields, List.length_drop,
        hm.inherited, hm.length_passed hr.ok] at hlen
      omega

end Registry

/-! ## Wrong numbers -/

/-- Does the error complain of a wrong number of values or of type arguments? -/
def Error.isCount : Error → Bool
  | .noMatchingConstructor _ _ _ => true
  | .typeArgumentCount _ _ _ => true
  | _ => false

/-- **Where the numbers are right** an instantiation does not complain of them. -/
theorem Graph.instantiate_counts {g : Graph} {l : Layout} {typeArgs : Option (List Ty)}
    {seed : Substitution} {values : List Value} {err : Error}
    (hlen : values.length = l.fields.length)
    (hcount : ∀ ts, typeArgs = some ts → ts.length = l.typeParams.length)
    (h : g.instantiate l typeArgs seed values = .error err) : err.isCount = false := by
  obtain ⟨σ, hstart⟩ : ∃ σ, startBindings l typeArgs seed = .ok σ := by
    cases typeArgs with
    | none => exact ⟨seed, rfl⟩
    | some ts => exact ⟨_, if_neg (not_not.2 (hcount ts rfl))⟩
  rw [instantiate, if_neg (not_not.2 hlen)] at h
  simp only [hstart] at h
  split at h
  · cases h
    rfl
  next σ' _ =>
    split at h
    next e herr =>
      cases h
      unfold bindingError? at herr
      split at herr
      · cases herr
        rfl
      · obtain ⟨x, -, rfl⟩ := Option.map_eq_some_iff.1 herr
        rfl
    · cases h

/-- A sound instance has as many values as its class has fields. -/
theorem Instance.Sound.length_fields {r : Registry β} {i : Instance} {s : ClassDef β}
    (h : i.Sound r) (hs : r.classDef? s.id = some s) (hcls : i.cls = s.id) :
    i.fields.length = s.layout.fields.length := by
  obtain ⟨d, hd, hlayout⟩ := Instance.classDef?_of_layout h.layout
  rw [hcls, hs, Option.some.injEq] at hd
  rw [h.fields, ← hlayout, hd]

namespace Registry

variable {r : Registry Body} {d s : ClassDef Body} {e : Constructor Body}
  {ts : Option (List Ty)} {args : List Value} {k j : Nat} {σ : Stage}

/-- A default constructor gets the right numbers. -/
theorem Suits.default_counts (h : r.Suits d k ts args e) (hr : r.OK) (hk : e.kind = .default)
    {err : Error} (herr : r.graph.instantiate d.layout ts ∅ args = .error err) :
    err.isCount = false := by
  have hrole : e.role = .default := by
    rw [Constructor.role, hk]
    rfl
  have hparams := hr.params_of_default h.instantiable (List.mem_of_getElem? h.at_place) hrole
  have hlen : args.length = d.layout.fields.length := by
    rw [← hparams]
    exact h.arity.symm
  exact Graph.instantiate_counts hlen h.count herr

/-- A constructor that copies a sound instance comes to the right numbers. -/
theorem Suits.copyExtend_counts {p : Instance} {ws : List Value}
    (h : r.Suits d k ts (.object p :: ws) e) (hr : r.Reachable) (hp : p.Sound r)
    (hk : e.kind = .copyExtend) {err : Error}
    (herr : d.copyExtend r (.object p :: ws) = .error err) : err.isCount = false := by
  obtain ⟨s, p', ws', -, hs, hsame, hcls, hlen⟩ := h.copyExtend hr hk
  cases hsame
  have hcopied := hp.length_fields hs hcls
  refine Graph.instantiate_counts ?_ (fun ts hts => by cases hts) herr
  rw [List.length_append]
  omega

/-- At every stage of a run, whatever a guide makes an instance of its class comes with the right
numbers. -/
theorem Suits.relabel_counts (h : σ.registry.Suits d k ts args e) (hσ : Live σ)
    (hts : ClosedArgs ts) (hargs : ∀ v ∈ args, v.From σ.known) (hj : e.kind = .guide j)
    (htarget : d.guideTarget σ.registry = .ok s) {budget m : Nat} {i : Instance} {w : World}
    (hi : invoke (constructWithin budget) m s j (ts.map (·.take s.typeParams.length)) args
      σ.world = some (.ok i, w)) {err : Error}
    (herr : d.relabel w.registry s ts i = .error err) : err.isCount = false := by
  obtain ⟨s', x, -, htarget', -, hfields, hnext⟩ := h.guide hσ.ok.reachable.ok hj
  obtain rfl := Except.ok.inj (htarget.symm.trans htarget')
  -- what is made an instance of the class has come up in a run, as one of the superclass
  obtain ⟨σ', hσ', hleads, hworld, hknown⟩ := invoke_faithful (constructWithin_faithful budget) m σ
    s.id s j _ args (.ok i, w) hσ hnext.instantiable (hts.take _) hargs hi
  obtain ⟨hmem, hcls, -⟩ := hknown i rfl
  have hs := hleads.registry.classDef? (instantiable_ok hnext.instantiable).1
  have hlen := (hσ'.ok.sound hmem).length_fields hs hcls
  exact Graph.instantiate_counts (hlen.trans hfields.symm) h.count herr

/-- **Constructors are where they are expected, and so are arguments.** In every reachable registry
the constructors of all classes but the root stand in blocks. So for each constructor that a call
invokes, behind however many guides: it is there, and has a parameter for each argument; if it is a
guide there is a superclass with a constructor for it to lead to; if it copies, the first argument is
an instance of the superclass, and where that is sound the numbers come out right; if it is a default
one they are right anyway. At every stage of a run, where all instances are sound, no copy and no
guide comes to wrong numbers. -/
theorem Reachable.constructors_wellFormed (hr : r.Reachable) :
    (∀ id d, r.classDef? id = some d → id ≠ rootId →
      ∃ s, d.superclass = some s.id ∧ r.classDef? s.id = some s ∧
        (∃ decl, r.DefinedBy id decl) ∧ ∀ decl, r.DefinedBy id decl → d.Tabled decl s) ∧
    (∀ cls typeArgs args n d k ts, r.Invoked cls typeArgs args n d k ts →
      (∀ w : World, w.registry = r → ∃ f, ∀ construct m,
        dispatch (invoke construct (n + m)) cls typeArgs args w =
          (invoke construct m d k ts args w).andThen f) ∧
      ∃ e, r.Suits d k ts args e ∧
        (∀ j, e.kind = .guide j → ∃ s x, d.superclass = some s.id ∧ d.guideTarget r = .ok s ∧
          s.constructors[j]? = some x ∧ x.role ≠ .default ∧
          r.Invoked cls typeArgs args (n + 1) s j (ts.map (·.take s.typeParams.length))) ∧
        (e.kind = .copyExtend → ∃ p ws, args = .object p :: ws ∧ d.superclass = some p.cls ∧
          (p.Sound r → ∀ err, d.copyExtend r args = .error err → err.isCount = false)) ∧
        (e.kind = .default → ∀ err,
          r.graph.instantiate d.layout ts ∅ args = .error err → err.isCount = false)) ∧
    ∀ σ : Stage, Live σ → σ.registry = r → ∀ cls typeArgs args, ClosedArgs typeArgs →
      (∀ v ∈ args, v.From σ.known) → ∀ n d k ts e, r.Invoked cls typeArgs args n d k ts →
        d.constructors[k]? = some e →
        (e.kind = .copyExtend → ∀ err, d.copyExtend r args = .error err → err.isCount = false) ∧
        ∀ j s, e.kind = .guide j → d.guideTarget r = .ok s → ∀ budget m i w,
          invoke (constructWithin budget) m s j (ts.map (·.take s.typeParams.length)) args
            σ.world = some (.ok i, w) →
          ∀ err, d.relabel w.registry s ts i = .error err → err.isCount = false := by
  refine ⟨fun id d => hr.tabled, ?_, ?_⟩
  · intro cls typeArgs args n d k ts h
    obtain ⟨e, hsuits⟩ := h.suits hr.ok
    refine ⟨?_, e, hsuits, ?_, ?_, fun hk err => hsuits.default_counts hr.ok hk⟩
    · rintro w rfl
      exact h.outcome
    · intro j hj
      obtain ⟨s, x, hsup, htarget, hx, -, hnext⟩ := hsuits.guide hr.ok hj
      exact ⟨s, x, hsup, htarget, hnext.at_place, hx, .guided h hsuits.at_place hj htarget⟩
    · intro hk
      obtain ⟨s, p, ws, hsup, -, rfl, hcls, -⟩ := hsuits.copyExtend hr hk
      exact ⟨p, ws, rfl, by rw [hsup, hcls], fun hp err => hsuits.copyExtend_counts hr hp hk⟩
  · rintro σ hσ rfl cls typeArgs args hclosed hargs n d k ts e h he
    obtain ⟨e', hsuits⟩ := h.suits hr.ok
    obtain rfl := Option.some.inj (he.symm.trans hsuits.at_place)
    have hts : ClosedArgs ts := h.closedArgs hclosed
    refine ⟨fun hk err => ?_, fun j s hj htarget budget m i w hi err =>
      hsuits.relabel_counts hσ hts hargs hj htarget hi⟩
    obtain ⟨s, p, ws, -, -, rfl, -, -⟩ := hsuits.copyExtend hr hk
    exact hsuits.copyExtend_counts hr (hσ.ok.sound (hargs _ List.mem_cons_self p .self)) hk

end Registry

/-! ## Boxes below boxes -/

/-- A class below the box that adds nothing. -/
def chest : ClassDecl Body := ⟨"Chest", some "Box", [], true, []⟩

/-- One below that. -/
def trunk : ClassDecl Body := ⟨"Trunk", some "Chest", [], true, []⟩

/-- The world of the three. -/
def attic : World :=
  .ofRegistry ((boxes.registry.after (.define chest)).after (.define trunk))

theorem live_attic : Live ⟨attic, ∅, ∅⟩ := by
  have hchest := live_boxes.request (q := .define chest) fun d hd => by
    cases hd
    intro c hc
    cases hc
  exact hchest.request (q := .define trunk) fun d hd => by
    cases hd
    intro c hc
    cases hc

/-- The place that a guide leads to. -/
def Constructor.target? (c : Constructor β) : Option Nat :=
  match c.kind with
  | .guide j => some j
  | _ => none

theorem Constructor.kind_of_target? {c : Constructor β} {j : Nat} (h : c.target? = some j) :
    c.kind = .guide j := by
  unfold target? at h
  split at h
  next k hk => rw [hk, Option.some.inj h]
  · cases h

/-- To construct a trunk from nothing is to go by way of two guides to the constructor of the box,
which the lack of arguments suits. The chest that comes of the second guide has what a trunk needs. -/
theorem constructors_wellFormed_attic : ∃ d s b e j k, attic.registry.Invoked 6 none [] 0 d j none ∧
    attic.registry.Invoked 6 none [] 1 s k none ∧ attic.registry.Invoked 6 none [] 2 b 0 none ∧
    attic.registry.Suits b 0 none [] e ∧ d.Tabled trunk s ∧
    ∀ budget m i w, invoke (constructWithin budget) m s k none [] attic = some (.ok i, w) →
      ∀ err, d.relabel w.registry s none i = .error err → err.isCount = false := by
  have hr : attic.registry.Reachable := live_attic.ok.reachable
  obtain ⟨htables, hinvoked, hnumbers⟩ := Registry.Reachable.constructors_wellFormed hr
  have hselected : ((attic.registry.select 6 none []).toOption.bind fun x =>
      x.1.constructors[x.2]?.bind (·.target?)) = some 3 := by decide +kernel
  have hchest : ((attic.registry.classDef? 4).bind fun s =>
      s.constructors[3]?.bind (·.target?)) = some 0 := by decide +kernel
  have htrunk : (attic.registry.classDef? 6).map (·.superclass) = some (some 4) := by
    decide +kernel
  have hdef : attic.registry.DefinedBy 6 trunk := by
    have hstart : (Registry.ofSettings .standard : Registry Body).Reachable :=
      ⟨.standard, _, rfl, .refl⟩
    have hboth : (boxes.registry.after (.define chest)).Reachable :=
      (hstart.after (.define box)).after (.define chest)
    exact hboth.definedBy_after (by decide +kernel)
  -- the guide that is selected
  obtain ⟨d, j, c, hsel, hc, hleads⟩ := Registry.exists_select hselected
  have hkind := Constructor.kind_of_target? hleads
  have h₀ : attic.registry.Invoked 6 none [] 0 d j none := .selected hsel
  obtain ⟨-, c', hsuits, hguide, -⟩ := hinvoked _ _ _ _ _ _ _ h₀
  obtain rfl := Option.some.inj (hc.symm.trans hsuits.at_place)
  obtain ⟨s, x, hsup, htarget, hx, -, h₁⟩ := hguide 3 hkind
  -- the guide that it leads to
  obtain ⟨hd, -⟩ := Registry.best_of_select hsel
  have hclass := (Registry.instantiable_ok hd).1
  obtain ⟨s', hsup', hs, -, htabled⟩ := htables 6 d hclass (by decide)
  have hsid : s.id = 4 := by
    rw [hclass, Option.map_some, Option.some.injEq, hsup, Option.some.injEq] at htrunk
    exact htrunk
  have hsame : s' = s := by
    obtain ⟨t, _, -, htarget', -, -, hnext⟩ := hsuits.guide hr.ok hkind
    obtain rfl := Except.ok.inj (htarget.symm.trans htarget')
    have hid : s'.id = s.id := Option.some.inj (hsup'.symm.trans hsup)
    rw [hid, (Registry.instantiable_ok hnext.instantiable).1] at hs
    exact (Option.some.inj hs).symm
  subst hsame
  rw [← hsid, hs, Option.bind_some, hx, Option.bind_some] at hchest
  have hkind' := Constructor.kind_of_target? hchest
  obtain ⟨-, x', hsuits', hguide', -⟩ := hinvoked _ _ _ _ _ _ _ h₁
  obtain rfl := Option.some.inj (hx.symm.trans hsuits'.at_place)
  obtain ⟨b, y, -, -, hy, -, h₂⟩ := hguide' 0 hkind'
  obtain ⟨-, y', hsuits'', -⟩ := hinvoked _ _ _ _ _ _ _ h₂
  have hlast := hnumbers _ live_attic rfl 6 none [] (fun ts hts => by cases hts)
    (fun v hv => by cases hv) 0 d j none c h₀ hc
  exact ⟨d, s', b, y', j, 3, h₀, h₁, h₂, hsuits'', htabled trunk hdef,
    fun budget m i w hi => hlast.2 3 s' hkind htarget budget m i w hi⟩

end ClassGraph
