import ClassGraph.Proofs.ConstructorTable

/-!
# Default constructors

A default constructor takes a value for every field. Its arguments are matched twice: with its
parameters when it is selected, and with the fields of the layout when the instance is made. Both
matches start from the type arguments of the call, so the second one comes to the bindings that the
first one came to, and the bounds have been checked against these.

* `Graph.instantiate_eq_of_matchFields`: **arguments that match within the bounds** are instantiated,
  unless a type parameter stands for nothing.
* `DefaultMade`: what a default constructor makes of arguments for which it has been selected.
* `World.default_makes`: **a default constructor that is selected succeeds**, but for a type
  parameter that is not given and cannot be read off the values.
-/

namespace ClassGraph

variable {β : Type}

namespace Graph

variable {g : Graph} {d : ClassDef β} {typeArgs : Option (List Ty)} {ts : List Ty}
  {args : List Value} {σ : Substitution}

/-- The type arguments of a call are what an instantiation starts from. -/
theorem Admits.startBindings (h : g.Admits d typeArgs) :
    startBindings d.layout typeArgs ∅ = .ok (d.givenBindings typeArgs) := by
  cases typeArgs with
  | none => rfl
  | some ts =>
    obtain ⟨hlen, -⟩ := h ts rfl
    have hcount : ¬ ts.length ≠ d.layout.typeParams.length := not_not.2 hlen
    rw [Graph.startBindings, if_neg hcount]
    rfl

/-- With type arguments no parameter stands for nothing, whatever is bound besides. -/
theorem Admits.contains (h : g.Admits d (some ts)) (he : (d.givenBindings (some ts)).Extends σ) :
    ∀ p ∈ d.typeParams, σ.contains p.name = true := by
  intro p hp
  obtain ⟨hlen, -⟩ := h ts rfl
  have hgiven : (d.givenBindings (some ts)).contains p.name = true :=
    Substitution.contains_bindAll hlen (List.mem_map_of_mem hp)
  obtain ⟨t, ht⟩ := Option.isSome_iff_exists.1 hgiven
  rw [Table.contains, he p.name t ht]
  rfl

/-- If no two parameters have one name, the type arguments are read off again. -/
theorem Admits.typeArgsOf_eq (h : g.Admits d (some ts))
    (he : (d.givenBindings (some ts)).Extends σ) (hnodup : d.layout.paramNames.Nodup) :
    typeArgsOf d.layout σ = ts := by
  obtain ⟨hlen, -⟩ := h ts rfl
  have hreads : σ.Reads d.layout.typeParams ts := fun k p t hp ht =>
    he p.name t (Substitution.reads_bindAll hnodup ts k p t hp ht)
  have htake := hreads.take_typeArgsOf (Nat.le_of_eq hlen)
  have hall : (typeArgsOf d.layout σ).length ≤ ts.length := by
    rw [typeArgsOf, List.length_map]
    exact Nat.le_of_eq hlen.symm
  rwa [List.take_of_length_le hall] at htake

/-- **Arguments that match the fields within the bounds** are instantiated, unless a type parameter
stands for nothing. -/
theorem instantiate_eq_of_matchFields (h : g.Admits d typeArgs)
    (hlen : args.length = d.layout.fields.length)
    (hm : g.matchFields (d.givenBindings typeArgs) d.layout.fields args = .ok σ)
    (hw : g.WithinBounds σ d.typeParams) :
    g.instantiate d.layout typeArgs ∅ args =
      match d.typeParams.find? fun p => !σ.contains p.name with
      | some p => .error (.unresolvedTypeParameter d.name p.name)
      | none => .ok ⟨d.layout, typeArgsOf d.layout σ, args⟩ := by
  have hviol : g.violated? σ d.layout.typeParams = none := violated?_eq_none_iff.2 hw
  rw [instantiate, if_neg (not_not.2 hlen)]
  simp only [h.startBindings, hm, bindingError?, hviol, Option.map_none, ClassDef.typeParams]
  cases d.layout.typeParams.find? fun p => !σ.contains p.name with
  | some p => rfl
  | none => rfl

end Graph

/-- **What a default constructor makes of the arguments** that it has been selected for. With type
arguments it makes an instance, with these type arguments if no two parameters have one name. Without
it makes an instance too, unless matching the arguments has left a type parameter without a type; the
first of these is the error then, and there is no other. -/
structure DefaultMade (g : Graph) (d : ClassDef β) (typeArgs : Option (List Ty))
    (args : List Value) (result : Except Error Instance) : Prop where
  given : ∀ ts, typeArgs = some ts → ∃ us, result = .ok ⟨d.layout, us, args⟩ ∧
    (d.layout.paramNames.Nodup → us = ts)
  inferred : typeArgs = none → ∃ σ, g.matchFields ∅ d.layout.fields args = .ok σ ∧
    (((∀ p ∈ d.typeParams, σ.contains p.name = true) ∧
        result = .ok ⟨d.layout, Graph.typeArgsOf d.layout σ, args⟩) ∨
      ∃ before p after, d.typeParams = before ++ p :: after ∧
        (∀ q ∈ before, σ.contains q.name = true) ∧ σ.contains p.name = false ∧
        result = .error (.unresolvedTypeParameter d.name p.name))
  error : ∀ e, result = .error e →
    typeArgs = none ∧ ∃ p ∈ d.typeParams, e = .unresolvedTypeParameter d.name p.name

/-- Arguments that match within the bounds are made an instance in this way. -/
theorem Graph.defaultMade {g : Graph} {d : ClassDef β} {typeArgs : Option (List Ty)}
    {args : List Value} {σ : Substitution} (h : g.Admits d typeArgs)
    (hlen : args.length = d.layout.fields.length)
    (hm : g.matchFields (d.givenBindings typeArgs) d.layout.fields args = .ok σ)
    (hw : g.WithinBounds σ d.typeParams) :
    DefaultMade g d typeArgs args (g.instantiate d.layout typeArgs ∅ args) := by
  have hinst := Graph.instantiate_eq_of_matchFields h hlen hm hw
  have hgrows := Graph.extends_of_matchSlots hm
  cases hfind : d.typeParams.find? fun p => !σ.contains p.name with
  | none =>
    have hresult : g.instantiate d.layout typeArgs ∅ args =
        .ok ⟨d.layout, Graph.typeArgsOf d.layout σ, args⟩ := by rw [hinst, hfind]
    have hall : ∀ p ∈ d.typeParams, σ.contains p.name = true := by
      simpa using List.find?_eq_none.1 hfind
    rw [hresult]
    refine ⟨?_, ?_, fun e he => by cases he⟩
    · rintro ts rfl
      exact ⟨_, rfl, h.typeArgsOf_eq hgrows⟩
    · rintro rfl
      exact ⟨σ, hm, .inl ⟨hall, rfl⟩⟩
  | some p =>
    have hresult : g.instantiate d.layout typeArgs ∅ args =
        .error (.unresolvedTypeParameter d.name p.name) := by rw [hinst, hfind]
    obtain ⟨hfree, before, after, hcut, hbefore⟩ := List.find?_eq_some_iff_append.1 hfind
    have hunbound : σ.contains p.name = false := by simpa using hfree
    have hmem : p ∈ d.typeParams := List.mem_of_find?_eq_some hfind
    -- type arguments would have bound it
    have hnone : typeArgs = none := by
      cases typeArgs with
      | none => rfl
      | some ts =>
        rw [h.contains hgrows p hmem] at hunbound
        cases hunbound
    subst hnone
    rw [hresult]
    refine ⟨?_, fun _ => ?_, ?_⟩
    · rintro ts ⟨⟩
    · exact ⟨σ, hm, .inr ⟨before, p, after, hcut, by simpa using hbefore, hunbound, rfl⟩⟩
    · rintro e ⟨⟩
      exact ⟨rfl, p, hmem, rfl⟩

/-- **A default constructor that is selected does not fail**, as long as the limit on constructor
calls is not reached. With explicit type arguments it always succeeds; without, it fails only where
the arguments leave a type parameter open. -/
theorem World.default_makes {w : World} (hr : w.registry.Reachable) {cls : TypeId}
    {typeArgs : Option (List Ty)} {args : List Value} {d : ClassDef Body} {k : Nat}
    {e : Constructor Body} (hsel : w.registry.select cls typeArgs args = .ok (d, k))
    (he : d.constructors[k]? = some e) (hrole : e.role = .default) (construct : Construction)
    {depth : Nat} (hdepth : depth < w.registry.settings.maxConstructorDepth) :
    ∃ result, dispatch (invokeAt construct depth) cls typeArgs args w = some (result, w) ∧
      DefaultMade w.registry.graph d typeArgs args result := by
  obtain ⟨hd, hadm, c, hbest⟩ := Registry.best_of_select hsel
  obtain rfl : e = c := Option.some.inj (he.symm.trans hbest.at_place)
  -- the parameters are the fields, so the arguments have matched the fields already
  have hparams := hr.ok.params_of_default hd (List.mem_of_getElem? he) hrole
  have hlen : args.length = d.layout.fields.length := by
    rw [← hparams]
    exact hbest.applicable.arity.symm
  obtain ⟨σ, hm, hw⟩ := hbest.applicable.fits
  rw [hparams] at hm
  have hkind := Constructor.kind_eq_default hrole
  refine ⟨_, ?_, Graph.defaultMade hadm hlen hm hw⟩
  rw [dispatch, hsel]
  simp only [invokeAt_eq construct hdepth he, runConstructor, hkind]

/-- A parcel with a number in it: with type arguments it is made, and without, nobody knows what the
second type parameter stands for. -/
theorem default_makes_depot : ∃ d, depot.registry.classDef? 4 = some d ∧
    dispatch (invokeAt nowhere 0) 4 (some [.prim .int, .prim .str]) [.int 1] depot =
      some (.ok ⟨d.layout, [.prim .int, .prim .str], [.int 1]⟩, depot) ∧
    dispatch (invokeAt nowhere 0) 4 none [.int 1] depot =
      some (.error (.unresolvedTypeParameter d.name "U"), depot) := by
  have hselects : ∀ typeArgs, typeArgs = some [.prim .int, .prim .str] ∨ typeArgs = none →
      ((depot.registry.select 4 typeArgs [.int 1]).toOption.bind fun x =>
        x.1.constructors[x.2]?.bind fun e => some e.role) = some .default := by
    rintro typeArgs (rfl | rfl)
    · decide +kernel
    · decide +kernel
  have hmade : ∀ typeArgs, typeArgs = some [.prim .int, .prim .str] ∨ typeArgs = none →
      ∃ d result, depot.registry.classDef? 4 = some d ∧
        dispatch (invokeAt nowhere 0) 4 typeArgs [.int 1] depot = some (result, depot) ∧
        DefaultMade depot.registry.graph d typeArgs [.int 1] result := by
    intro typeArgs hargs
    obtain ⟨d, k, e, hok, he, hrole⟩ := Registry.exists_select (hselects typeArgs hargs)
    obtain ⟨hd, -⟩ := Registry.best_of_select hok
    have hlimit : 0 < depot.registry.settings.maxConstructorDepth := by decide
    obtain ⟨result, hresult, hmade⟩ := World.default_makes reachable_depot hok he
      (Option.some.inj hrole) nowhere hlimit
    exact ⟨d, result, (Registry.instantiable_ok hd).1, hresult, hmade⟩
  obtain ⟨d, given, hd, hgiven, hmadeGiven⟩ := hmade _ (.inl rfl)
  obtain ⟨d', inferred, hd', hinferred, hmadeInferred⟩ := hmade _ (.inr rfl)
  obtain rfl : d = d' := Option.some.inj (hd.symm.trans hd')
  have hnames : (depot.registry.classDef? 4).map (·.layout.paramNames) = some ["T#1", "U"] := by
    decide +kernel
  have hbound : ((depot.registry.classDef? 4).bind fun d =>
      (depot.registry.graph.matchFields ∅ d.layout.fields [.int 1]).toOption.map fun σ =>
        (σ.contains "T#1", σ.contains "U")) = some (true, false) := by decide +kernel
  rw [hd, Option.map_some, Option.some.injEq] at hnames
  rw [hd, Option.bind_some] at hbound
  obtain ⟨us, rfl, hus⟩ := hmadeGiven.given _ rfl
  obtain rfl := hus (by rw [hnames]; decide)
  refine ⟨d, hd, hgiven, ?_⟩
  obtain ⟨σ, hm, hcase⟩ := hmadeInferred.inferred rfl
  rw [hm] at hbound
  simp only [Except.toOption, Option.map_some, Option.some.injEq, Prod.mk.injEq] at hbound
  obtain ⟨hT, hU⟩ := hbound
  have hopen : ∀ p ∈ d.typeParams, σ.contains p.name = false → p.name = "U" := by
    intro p hp hfree
    have hmem : p.name ∈ d.layout.paramNames := List.mem_map_of_mem hp
    rw [hnames] at hmem
    rcases List.mem_cons.1 hmem with hpT | hpU
    · rw [hpT, hT] at hfree
      cases hfree
    · exact List.mem_singleton.1 hpU
  rcases hcase with ⟨hall, -⟩ | ⟨before, p, after, hcut, -, hfree, rfl⟩
  · have hmem : "U" ∈ d.layout.paramNames := by simp [hnames]
    obtain ⟨p, hp, hpU⟩ := List.mem_map.1 hmem
    have hcontains := hall p hp
    rw [hpU, hU] at hcontains
    cases hcontains
  · have hp : p ∈ d.typeParams := by simp [hcut]
    rw [← hopen p hp hfree]
    exact hinferred

end ClassGraph
