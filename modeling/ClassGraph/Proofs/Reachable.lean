import ClassGraph.Proofs.Definition

/-!
# Reachable registries

The registries that a series of requests makes out of new ones, and what holds in all of them.

* `Registry.Reachable`: reached by definitions, blueprints, declarations and questions for a
  heritage, in any order and whether or not they succeed.
* `Registry.Ext`: a registry only grows. What it knows it knows for ever.
* `Registry.OK`: the invariant. Every class other than the root was made from a declaration and the
  heritage of its superclass (`Registry.Made`), mentions no type parameters but its own, and has a
  chain of superclasses within the limit.
* `Registry.Reachable.ok`: **every reachable registry satisfies the invariant.**
-/

namespace ClassGraph

variable {β : Type}

/-! ## Runs -/

/-- What can be asked of a registry. -/
inductive Request (β : Type)
  | define (d : ClassDecl β)
  | blueprint (d : ClassDecl β)
  | declare (n : Name) (kind : NodeKind) (supertype : Option TypeId)
  | heritage (id : TypeId)

namespace Registry

/-- The registry after a request, whether it was granted or refused. -/
def after (r : Registry β) : Request β → Registry β
  | .define d => (r.define d).2
  | .blueprint d => (r.blueprint d).2
  | .declare n kind sup => (r.declare n kind sup).2
  | .heritage id => (r.heritage id).2

/-- A series of requests makes the one registry into the other. -/
inductive Leads (r : Registry β) : Registry β → Prop
  | refl : Leads r r
  | step {r' : Registry β} (h : Leads r r') (q : Request β) : Leads r (r'.after q)

/-- The registry after several requests. -/
def afterAll (r : Registry β) (qs : List (Request β)) : Registry β := qs.foldl after r

/-- **Reachable**: made by requests out of a new registry. -/
def Reachable (r : Registry β) : Prop :=
  ∃ (s : Settings) (r₀ : Registry β), Registry.new s = .ok r₀ ∧ r₀.Leads r

theorem Leads.trans {r r' r'' : Registry β} (h : r.Leads r') (h' : r'.Leads r'') :
    r.Leads r'' := by
  induction h' with
  | refl => exact h
  | step _ q ih => exact ih.step q

theorem leads_afterAll (r : Registry β) (qs : List (Request β)) : r.Leads (r.afterAll qs) := by
  induction qs generalizing r with
  | nil => exact .refl
  | cons q qs ih => exact (Leads.refl.step q).trans (ih (r.after q))

theorem Reachable.leads {r r' : Registry β} (hr : r.Reachable) (h : r.Leads r') :
    r'.Reachable := by
  obtain ⟨s, r₀, hs, h₀⟩ := hr
  exact ⟨s, r₀, hs, h₀.trans h⟩

theorem Reachable.after {r : Registry β} (hr : r.Reachable) (q : Request β) :
    (r.after q).Reachable := hr.leads (Leads.refl.step q)

end Registry

/-! ## Growth -/

/-- A graph grows: no node changes its place, no name its meaning. -/
structure Graph.Ext (g g' : Graph) : Prop where
  size_le : g.size ≤ g'.size
  lookup : ∀ {n id}, g.lookup n = some id → g'.lookup n = some id
  supertype : ∀ {id}, id < g.size → g'.supertype id = g.supertype id

theorem Graph.Ext.refl (g : Graph) : g.Ext g := ⟨Nat.le_refl _, id, fun _ => rfl⟩

theorem Graph.Ext.trans {g g' g'' : Graph} (h : g.Ext g') (h' : g'.Ext g'') : g.Ext g'' where
  size_le := Nat.le_trans h.size_le h'.size_le
  lookup hn := h'.lookup (h.lookup hn)
  supertype hid := by
    rw [h'.supertype (Nat.lt_of_lt_of_le hid h.size_le), h.supertype hid]

/-- A node under a free name makes the graph grow. -/
theorem Graph.ext_add {g : Graph} {n : Name} (hn : g.lookup n = none) (kind : NodeKind)
    (sup : Option TypeId) : g.Ext (g.add n kind sup) where
  size_le := by
    rw [Graph.size_add]
    omega
  lookup {m id} hm := by
    have hne : n ≠ m := by
      rintro rfl
      rw [hn] at hm
      cases hm
    rw [Graph.lookup_add, if_neg hne, hm]
  supertype hid := Graph.supertype_add hid

namespace Registry

/-- A registry grows: classes stay as they were defined and heritages as they were worked out. -/
structure Ext (r r' : Registry β) : Prop where
  settings : r'.settings = r.settings
  graph : r.graph.Ext r'.graph
  classDef? : ∀ {id d}, r.classDef? id = some d → r'.classDef? id = some d
  heritage : ∀ {id h}, r.heritages.get? id = some h → r'.heritages.get? id = some h

theorem Ext.refl (r : Registry β) : r.Ext r := ⟨rfl, .refl _, id, id⟩

theorem Ext.trans {r r' r'' : Registry β} (h : r.Ext r') (h' : r'.Ext r'') : r.Ext r'' where
  settings := h'.settings.trans h.settings
  graph := h.graph.trans h'.graph
  classDef? hd := h'.classDef? (h.classDef? hd)
  heritage hh := h'.heritage (h.heritage hh)

end Registry

/-! ## How a class is made -/

/-- The types that a class writes down: those of its layout and of its constructors. -/
def ClassDef.types (d : ClassDef β) : List Ty :=
  d.layout.types ++ (d.constructors.flatMap (·.params)).map (·.ty)

/-- A class is **closed** if it mentions no type parameters but its own. -/
def ClassDef.Closed (d : ClassDef β) : Prop :=
  ∀ t ∈ d.types, ∀ n ∈ t.params, n ∈ d.layout.paramNames

theorem ClassDef.Closed.layout {d : ClassDef β} (h : d.Closed) : d.layout.Closed :=
  fun t ht => h t (List.mem_append_left _ ht)

theorem ClassDef.Closed.constructor {d : ClassDef β} (h : d.Closed) {c : Constructor β}
    (hc : c ∈ d.constructors) {f : Field} (hf : f ∈ c.params) :
    ∀ n ∈ f.ty.params, n ∈ d.layout.paramNames :=
  h _ (List.mem_append_right _ (List.mem_map_of_mem (List.mem_flatMap.2 ⟨c, hc, hf⟩)))

namespace Registry

/-- The class `d` was made from the declaration `decl`: `o` is the declaration taken apart, with
the superclass found, and `h` is the heritage of that superclass. -/
structure Made (r : Registry β) (decl : ClassDecl β) (o : Outline β) (h : Heritage)
    (d : ClassDef β) : Prop where
  name : d.name = decl.name
  superclass : d.superclass = some o.superDef.id
  superDef : r.classDef? o.superDef.id = some o.superDef
  heritage : r.heritages.get? o.superDef.id = some h
  localFields : o.localFields = decl.fields
  userConstructors : o.userConstructors = decl.ctors
  typeParams : d.layout.typeParams = h.params ++ decl.typeParams
  fields : d.layout.fields = h.fields ++ o.localFields
  inherited : d.layout.inherited = h.fields.length
  constructors : d.constructors =
    o.userConstructors.map (·.toConstructor) ++
      defaultConstructors d.layout.typeParams d.layout.fields ++
      copyExtendConstructors o.superDef.name d.layout.fields h.fields.length ++
      guideConstructors o.superDef h.substitution d.layout.fields h.fields.length
  identifiers : ∀ p ∈ decl.typeParams, isIdentifier p.name = true
  params_nodup : (decl.typeParams.map (·.name)).Nodup
  fields_nodup : (o.localFields.map (·.name)).Nodup
  fields_new : ∀ f ∈ o.localFields, f.name ∉ h.fields.map (·.name)
  declared : ∀ t ∈ declaredTypes decl o, ∀ n ∈ t.params, n ∈ d.layout.paramNames

theorem Made.ext {r r' : Registry β} {decl : ClassDecl β} {o : Outline β} {h : Heritage}
    {d : ClassDef β} (hm : r.Made decl o h d) (he : r.Ext r') : r'.Made decl o h d :=
  { hm with superDef := he.classDef? hm.superDef, heritage := he.heritage hm.heritage }

/-- The superclasses of a class, nearest first, the root class last. -/
inductive Chain (r : Registry β) : TypeId → List TypeId → Prop
  | root : Chain r rootId []
  | step {id sup : TypeId} {d : ClassDef β} {ids : List TypeId} (hid : id ≠ rootId)
      (hd : r.classDef? id = some d) (hs : d.superclass = some sup) (h : Chain r sup ids) :
      Chain r id (sup :: ids)

theorem Chain.ext {r r' : Registry β} {id : TypeId} {ids : List TypeId} (h : r.Chain id ids)
    (he : r.Ext r') : r'.Chain id ids := by
  induction h with
  | root => exact .root
  | step hid hd hs _ ih => exact .step hid (he.classDef? hd) hs ih

/-! ## The invariant -/

/-- **What holds in every reachable registry.** -/
structure OK (r : Registry β) : Prop where
  settings : r.settings.issue? = none
  root : r.classDef? rootId = some (.root r.settings.rootName)
  id_eq : ∀ {id d}, r.classDef? id = some d → d.id = id
  lookup : ∀ {id d}, r.classDef? id = some d → r.lookup d.name = some id
  lookup_lt : ∀ {n id}, r.lookup n = some id → id < r.graph.size
  marker_lt : ∀ {m c}, r.markers.get? m = some c → m < r.graph.size
  kept_lt : ∀ {id h}, r.heritages.get? id = some h → id < r.graph.size
  kept : ∀ {id h d}, r.heritages.get? id = some h → r.classDef? id = some d →
    ∃ g, h = d.layout.passOn d.superclass ⟨g, ∅⟩
  made : ∀ {id d}, r.classDef? id = some d → id ≠ rootId → ∃ decl o h, r.Made decl o h d
  closed : ∀ {id d}, r.classDef? id = some d → d.Closed
  chain : ∀ {id d}, r.classDef? id = some d →
    ∃ ids, r.Chain id ids ∧ ids.length ≤ r.settings.maxHierarchyDepth

variable {r r' : Registry β} {id : TypeId} {d : ClassDef β} {decl : ClassDecl β} {o : Outline β}
  {h : Heritage}

theorem OK.classDef?_lt (hr : r.OK) (hd : r.classDef? id = some d) : id < r.graph.size :=
  hr.lookup_lt (hr.lookup hd)

theorem OK.size_pos (hr : r.OK) : 0 < r.graph.size := hr.classDef?_lt hr.root

/-- A class that is not the root can have instances. -/
theorem OK.instantiable (hr : r.OK) (hd : r.classDef? id = some d) (hid : id ≠ rootId) :
    r.instantiable id = .ok d := by
  have hf : (r.classDef? id).filter (·.id ≠ rootId) = some d :=
    Option.filter_eq_some_iff.2 ⟨hd, by simpa [hr.id_eq hd] using hid⟩
  rw [Registry.instantiable, hf]

/-- What can have instances was made from a declaration. -/
theorem OK.made_of_instantiable (hr : r.OK) (hd : r.instantiable id = .ok d) :
    ∃ decl o h, r.Made decl o h d := by
  obtain ⟨hclass, hne⟩ := instantiable_ok hd
  rw [hr.id_eq hclass] at hne
  exact hr.made hclass hne

/-- The heritage of the superclass is the superclass's layout, renamed. -/
theorem Made.passOn (hm : r.Made decl o h d) (hr : r.OK) :
    ∃ g, h = o.superDef.layout.passOn o.superDef.superclass ⟨g, ∅⟩ :=
  hr.kept hm.heritage hm.superDef

theorem Made.superLayout (hm : r.Made decl o h d) (hr : r.OK) : o.superDef.layout.Closed :=
  (hr.closed hm.superDef).layout

/-- The class that another one was made on is its superclass. -/
theorem Made.classDef?_superclass (hm : r.Made decl o h d) {sup : TypeId}
    (hs : d.superclass = some sup) : r.classDef? sup = some o.superDef := by
  obtain rfl : o.superDef.id = sup := Option.some.inj (hm.superclass.symm.trans hs)
  exact hm.superDef

/-- The root class has no superclass. -/
theorem OK.ne_root_of_superclass (hr : r.OK) {sup : TypeId} (hd : r.classDef? id = some d)
    (hs : d.superclass = some sup) : id ≠ rootId := by
  rintro rfl
  rw [hr.root, Option.some.injEq] at hd
  rw [← hd] at hs
  cases hs

/-- A class with a superclass was made on it. -/
theorem OK.made_on (hr : r.OK) {sup : TypeId} (hd : r.classDef? id = some d)
    (hs : d.superclass = some sup) :
    ∃ decl o h, r.Made decl o h d ∧ r.classDef? sup = some o.superDef := by
  obtain ⟨decl, o, h, hm⟩ := hr.made hd (hr.ne_root_of_superclass hd hs)
  exact ⟨decl, o, h, hm, hm.classDef?_superclass hs⟩

/-- A class's own parameters come after those of its superclass, which have fresh names. -/
theorem Made.paramNames (hm : r.Made decl o h d) (hr : r.OK) :
    ∃ g, h = o.superDef.layout.passOn o.superDef.superclass ⟨g, ∅⟩ ∧
      d.layout.paramNames =
        o.superDef.layout.paramNames.map (freshName g) ++ decl.typeParams.map (·.name) := by
  obtain ⟨g, rfl⟩ := hm.passOn hr
  refine ⟨g, rfl, ?_⟩
  rw [Layout.paramNames, hm.typeParams, Layout.passOn_params (hm.superLayout hr), List.map_append,
    List.map_map, Layout.paramNames, List.map_map]
  rfl

/-- No parameter that a class declares goes by a fresh name. -/
theorem Made.freshName_not_mem (hm : r.Made decl o h d) (g : Nat) (n : Name) :
    freshName g n ∉ decl.typeParams.map (·.name) := by
  intro hmem
  obtain ⟨p, hp, he⟩ := List.mem_map.1 hmem
  have hident := hm.identifiers p hp
  rw [he, isIdentifier_freshName] at hident
  cases hident

/-- A type of the superclass, put into the parameters of the class, mentions only these. -/
theorem Made.params_subst (hm : r.Made decl o h d) (hr : r.OK) {t : Ty}
    (ht : ∀ n ∈ t.params, n ∈ o.superDef.layout.paramNames) :
    ∀ n ∈ (t.subst h.substitution).params, n ∈ d.layout.paramNames := by
  obtain ⟨g, rfl, hp⟩ := hm.paramNames hr
  intro n hn
  rw [Layout.subst_passOn ht, Ty.params_rename] at hn
  obtain ⟨m, hm', rfl⟩ := List.mem_map.1 hn
  rw [hp]
  exact List.mem_append_left _ (List.mem_map_of_mem (ht m hm'))

/-- A type that the superclass passes on is put into the parameters of the class. -/
theorem Made.inherited_types (hm : r.Made decl o h d) (hr : r.OK) {t : Ty}
    (ht : t ∈ h.params.map (·.bound) ++ h.fields.map (·.ty)) :
    ∃ t₀ ∈ o.superDef.types, t = t₀.subst h.substitution := by
  have hs := hm.superLayout hr
  obtain ⟨g, rfl⟩ := hm.passOn hr
  rw [Layout.passOn_params hs, Layout.passOn_fields hs, List.mem_append, List.mem_map,
    List.mem_map] at ht
  rcases ht with ⟨p, hp, rfl⟩ | ⟨f, hf, rfl⟩
  · obtain ⟨q, hq, rfl⟩ := List.mem_map.1 hp
    refine ⟨q.bound, ?_, (Layout.subst_passOn (hs.bound hq)).symm⟩
    exact List.mem_append_left _ (List.mem_append_left _ (List.mem_map_of_mem hq))
  · obtain ⟨x, hx, rfl⟩ := List.mem_map.1 hf
    refine ⟨x.ty, ?_, (Layout.subst_passOn (hs.field hx)).symm⟩
    exact List.mem_append_left _ (List.mem_append_right _ (List.mem_map_of_mem hx))

/-- **Where the types of a class come from**: they are declared with the class, or are types of the
superclass put into the parameters of the class, or one names the superclass. -/
theorem Made.types_cases (hm : r.Made decl o h d) (hr : r.OK) {t : Ty} (ht : t ∈ d.types) :
    t ∈ declaredTypes decl o ∨ (∃ t₀ ∈ o.superDef.types, t = t₀.subst h.substitution) ∨
      t = .named o.superDef.name := by
  have hfields : ∀ f ∈ d.layout.fields, f.ty ∈ declaredTypes decl o ∨
      ∃ t₀ ∈ o.superDef.types, f.ty = t₀.subst h.substitution := by
    intro f hf
    rw [hm.fields, List.mem_append] at hf
    rcases hf with hf | hf
    · exact .inr (hm.inherited_types hr (List.mem_append_right _ (List.mem_map_of_mem hf)))
    · exact .inl (List.mem_append_left _ (List.mem_append_right _ (List.mem_map_of_mem hf)))
  rcases List.mem_append.1 ht with ht | ht
  · rcases List.mem_append.1 ht with ht | ht <;> obtain ⟨x, hx, rfl⟩ := List.mem_map.1 ht
    · rw [hm.typeParams, List.mem_append] at hx
      rcases hx with hx | hx
      · exact .inr (.inl (hm.inherited_types hr
          (List.mem_append_left _ (List.mem_map_of_mem hx))))
      · exact .inl (List.mem_append_left _ (List.mem_append_left _ (List.mem_map_of_mem hx)))
    · exact (hfields x hx).imp_right .inl
  obtain ⟨f, hf, rfl⟩ := List.mem_map.1 ht
  obtain ⟨c, hc, hf⟩ := List.mem_flatMap.1 hf
  rw [hm.constructors] at hc
  simp only [List.mem_append, or_assoc] at hc
  rcases hc with hc | hc | hc | hc
  · -- written down
    obtain ⟨u, hu, rfl⟩ := List.mem_map.1 hc
    exact .inl (List.mem_append_right _ (List.mem_map_of_mem (List.mem_flatMap.2 ⟨u, hu, hf⟩)))
  · -- over all fields
    rw [(mem_defaultConstructors hc).1] at hf
    exact (hfields f hf).imp_right .inl
  · -- over an instance of the superclass and the local fields
    rw [mem_copyExtendConstructors hc] at hf
    rcases List.mem_cons.1 hf with rfl | hf
    · exact .inr (.inr rfl)
    · exact (hfields f (List.mem_of_mem_drop hf)).imp_right .inl
  · -- guides
    unfold guideConstructors at hc
    split at hc
    · obtain ⟨index, c₀, hi, -, rfl⟩ := mem_guides.1 hc
      obtain ⟨f₀, hf₀, rfl⟩ := List.mem_map.1 hf
      refine .inr (.inl ⟨f₀.ty, ?_, rfl⟩)
      exact List.mem_append_right _ (List.mem_map_of_mem
        (List.mem_flatMap.2 ⟨c₀, List.mem_of_getElem? hi, hf₀⟩))
    · cases hc

/-- A class that is made mentions only its own parameters. -/
theorem Made.closed (hm : r.Made decl o h d) (hr : r.OK) : d.Closed := by
  intro t ht
  rcases hm.types_cases hr ht with ht | ⟨t₀, ht₀, rfl⟩ | rfl
  · exact hm.declared t ht
  · exact hm.params_subst hr (hr.closed hm.superDef t₀ ht₀)
  · simp

/-- The user constructors of a class are those that are written for it. -/
theorem Made.user (hm : r.Made decl o h d) {c : Constructor β} {body : β}
    (hc : c ∈ d.constructors) (hk : c.kind = .user body) : ∃ u ∈ decl.ctors, u.body = body := by
  rw [hm.constructors, hm.userConstructors] at hc
  simp only [List.mem_append, or_assoc] at hc
  rcases hc with hc | hc | hc | hc
  · obtain ⟨u, hu, rfl⟩ := List.mem_map.1 hc
    cases hk
    exact ⟨u, hu, rfl⟩
  · rw [(mem_defaultConstructors hc).2] at hk
    cases hk
  · rw [mem_copyExtendConstructors hc] at hk
    cases hk
  · unfold guideConstructors at hc
    split at hc
    · obtain ⟨index, c₀, -, -, rfl⟩ := mem_guides.1 hc
      cases hk
    · cases hc

/-! ## Superclasses -/

theorem superclass_of_classDef? (hid : id ≠ rootId) (hd : r.classDef? id = some d) :
    r.superclass id = .ok d.superclass := by
  unfold superclass
  rw [if_neg hid, hd]

/-- The ancestors are told by the direct superclasses, and by what a message says of the limit. -/
theorem superclasses_congr {γ : Type} {r : Registry β} {r' : Registry γ}
    (hsettings : r'.settings = r.settings) (hname : ∀ id, r'.typeName id = r.typeName id)
    (hsup : ∀ id, r'.superclass id = r.superclass id) (cls : TypeId) :
    r'.superclasses cls = r.superclasses cls := by
  have hdeep : r'.tooDeep cls = r.tooDeep cls := by
    rw [tooDeep, tooDeep, hname, hsettings]
  have hfrom : ∀ fuel next,
      r'.superclassesFrom cls fuel next = r.superclassesFrom cls fuel next := by
    intro fuel
    induction fuel with
    | zero =>
      intro next
      rw [superclassesFrom, superclassesFrom, hdeep]
    | succ fuel ih =>
      intro next
      cases next with
      | none => rfl
      | some next =>
        rw [superclassesFrom, superclassesFrom, hsup]
        simp only [ih]
  rw [superclasses, superclasses, hsup, hsettings]
  simp only [hfrom]

/-- A chain within the limit is what the walk up the superclasses gives. -/
theorem Chain.superclassesFrom (cls : TypeId) {ids : List TypeId} (h : r.Chain id ids) :
    ∀ fuel, ids.length ≤ fuel →
      ∃ next, r.superclass id = .ok next ∧ r.superclassesFrom cls fuel next = .ok ids := by
  induction h with
  | root =>
    intro fuel _
    refine ⟨none, by simp [superclass], ?_⟩
    cases fuel <;> simp [Registry.superclassesFrom]
  | @step id sup d ids hid hd hs _ ih =>
    intro fuel hf
    -- each class of the chain takes one off the limit
    obtain ⟨fuel, rfl⟩ : ∃ n, fuel = n + 1 := ⟨fuel - 1, by simp at hf; omega⟩
    obtain ⟨next, hn, hw⟩ := ih fuel (by simpa using hf)
    refine ⟨some sup, by rw [superclass_of_classDef? hid hd, hs], ?_⟩
    simp [Registry.superclassesFrom, hn, hw, Except.map]

theorem Chain.superclasses {ids : List TypeId} (h : r.Chain id ids)
    (hl : ids.length ≤ r.settings.maxHierarchyDepth) : r.superclasses id = .ok ids := by
  obtain ⟨next, hn, hw⟩ := h.superclassesFrom id _ hl
  unfold Registry.superclasses
  rw [hn]
  exact hw

/-! ## One request -/

theorem new_eq {s : Settings} (h : Registry.new s = .ok r) :
    s.issue? = none ∧ r = ofSettings s := by
  unfold Registry.new Settings.check at h
  cases hi : s.issue? with
  | some issue => simp [hi, Except.map] at h
  | none =>
    simp only [hi, Except.map, Except.ok.injEq] at h
    exact ⟨rfl, h.symm⟩

/-- At first there is the root class alone. -/
theorem classDef?_ofSettings {s : Settings}
    (hd : (ofSettings s : Registry β).classDef? id = some d) :
    id = rootId ∧ d = .root s.rootName := by
  rw [Registry.classDef?, ofSettings, Table.get?_insert] at hd
  split at hd
  · next e => exact ⟨e.symm, (Option.some.inj hd).symm⟩
  · cases hd

/-- A new registry satisfies the invariant. -/
theorem new_ok {s : Settings} (h : Registry.new s = .ok r) : r.OK := by
  obtain ⟨hs, rfl⟩ := new_eq h
  have hlook : (ofSettings s : Registry β).lookup s.rootName = some rootId :=
    Table.get?_insert_self
  refine ⟨hs, Table.get?_insert_self, ?_, ?_, ?_, ?_, ?_, ?_, ?_, ?_, ?_⟩
  · -- the only class is the root
    intro id d hd
    obtain ⟨rfl, rfl⟩ := classDef?_ofSettings hd
    rfl
  · intro id d hd
    obtain ⟨rfl, rfl⟩ := classDef?_ofSettings hd
    exact hlook
  · -- the only name is that of the root
    intro n id hn
    rw [Registry.lookup, Graph.lookup, ofSettings, Graph.ofRoot, Table.get?_insert] at hn
    split at hn
    · cases hn
      exact Nat.zero_lt_one
    · cases hn
  · -- there are no markers
    intro m c hm
    cases hm
  · -- no heritage has been worked out
    intro id h hh
    cases hh
  · intro id h d hh
    cases hh
  · -- the root was not made from a declaration, and mentions no types
    intro id d hd hid
    exact absurd (classDef?_ofSettings hd).1 hid
  · intro id d hd t ht
    obtain ⟨-, rfl⟩ := classDef?_ofSettings hd
    simp [ClassDef.types, Layout.types, ClassDef.root] at ht
  · intro id d hd
    obtain ⟨rfl, -⟩ := classDef?_ofSettings hd
    exact ⟨[], .root, Nat.zero_le _⟩

/-- What is worked out for a class is its layout, renamed under some number. -/
theorem computeHeritage_ok {fresh fresh' : Fresh} (hr : r.OK)
    (hc : r.computeHeritage id fresh = (.ok h, fresh')) :
    id < r.graph.size ∧ ∀ d, r.classDef? id = some d →
      ∃ g, h = d.layout.passOn d.superclass ⟨g, ∅⟩ := by
  unfold computeHeritage at hc
  split at hc
  · next e =>
    simp only [Prod.mk.injEq, Except.ok.injEq] at hc
    obtain ⟨rfl, -⟩ := hc
    subst e
    refine ⟨hr.size_pos, fun d hd => ⟨0, ?_⟩⟩
    rw [hr.root] at hd
    cases hd
    rfl
  split at hc
  · next d hd =>
    simp only [Prod.mk.injEq, Except.ok.injEq] at hc
    obtain ⟨rfl, -⟩ := hc
    refine ⟨hr.classDef?_lt hd, fun d' hd' => ⟨fresh.next, ?_⟩⟩
    rw [hd] at hd'
    cases hd'
    rfl
  next hd =>
    split at hc
    · next owner hm =>
      refine ⟨hr.marker_lt hm, fun d' hd' => ?_⟩
      rw [hd] at hd'
      cases hd'
    · simp at hc

/-- Asking for a heritage keeps the invariant, and the registry grows. -/
theorem heritage_ok (hr : r.OK) (id : TypeId) :
    (r.heritage id).2.OK ∧ r.Ext (r.heritage id).2 := by
  obtain ⟨hs, he, hk⟩ := heritage_cases r id
  rw [he]
  -- what is kept now was kept before, or has just been worked out
  have hget : ∀ {k h}, hs.get? k = some h → r.heritages.get? k = some h ∨
      k < r.graph.size ∧ ∀ d, r.classDef? k = some d →
        ∃ g, h = d.layout.passOn d.superclass ⟨g, ∅⟩ := by
    intro k h hkh
    rcases hk with hk | ⟨h₀, fresh, -, hc, hk⟩
    · exact .inl (by rw [HeritageStore.get?, ← hk]; exact hkh)
    · rw [HeritageStore.get?, hk, Table.get?_insert] at hkh
      split at hkh
      · next e =>
        cases hkh
        exact .inr (e ▸ computeHeritage_ok hr hc)
      · exact .inl hkh
  -- and what was kept before is kept now
  have hext : r.Ext { r with heritages := hs } := by
    refine ⟨rfl, .refl _, fun h => h, fun {k h} hkh => ?_⟩
    rcases hk with hk | ⟨h₀, fresh, hn, -, hk⟩
    · simp only [HeritageStore.get?, hk]
      exact hkh
    · have hne : id ≠ k := by
        rintro rfl
        rw [hn] at hkh
        cases hkh
      simp only [HeritageStore.get?, hk, Table.get?_insert_of_ne hne]
      exact hkh
  refine ⟨{ hr with kept_lt := ?_, kept := ?_, made := ?_, chain := ?_ }, hext⟩
  · intro k h hkh
    rcases hget hkh with hkh | ⟨hlt, -⟩
    · exact hr.kept_lt hkh
    · exact hlt
  · intro k h d hkh hd
    rcases hget hkh with hkh | ⟨-, hc⟩
    · exact hr.kept hkh hd
    · exact hc d hd
  · intro k d hd hk
    obtain ⟨decl, o, h, hm⟩ := hr.made hd hk
    exact ⟨decl, o, h, hm.ext hext⟩
  · intro k d hd
    obtain ⟨ids, hc, hl⟩ := hr.chain hd
    exact ⟨ids, hc.ext hext, hl⟩

/-- Drawing up a blueprint keeps the invariant, and the registry grows. -/
theorem blueprint_snd_ok (hr : r.OK) (decl : ClassDecl β) :
    (r.blueprint decl).2.OK ∧ r.Ext (r.blueprint decl).2 := by
  rcases blueprint_snd (r := r) (d := decl) with h | ⟨id, h⟩
  · rw [h]
    exact ⟨hr, .refl r⟩
  · rw [h]
    exact heritage_ok hr id

/-- A declaration keeps the invariant, and the registry grows. -/
theorem declare_ok (hr : r.OK) (n : Name) (kind : NodeKind) (sup : Option TypeId) :
    (r.declare n kind sup).2.OK ∧ r.Ext (r.declare n kind sup).2 := by
  rcases declare_cases r n kind sup with h | ⟨hn, -, h⟩
  · rw [h]
    exact ⟨hr, .refl r⟩
  rw [h]
  have hg : r.graph.Ext (r.graph.add n kind sup) := Graph.ext_add hn kind sup
  have hext : r.Ext { r with graph := r.graph.add n kind sup } := ⟨rfl, hg, fun h => h, fun h => h⟩
  refine ⟨?_, hext⟩
  refine { hr with
    lookup := ?_, lookup_lt := ?_, marker_lt := ?_, kept_lt := ?_, made := ?_, chain := ?_ }
  · intro id d hd
    exact hg.lookup (hr.lookup hd)
  · -- the new name belongs to the new node
    intro m id hm
    rw [Registry.lookup, Graph.lookup_add] at hm
    rw [Graph.size_add]
    split at hm
    · cases hm
      exact Nat.lt_succ_self _
    · exact Nat.lt_succ_of_lt (hr.lookup_lt hm)
  · intro m c hm
    exact Nat.lt_of_lt_of_le (hr.marker_lt hm) hg.size_le
  · intro id h hh
    exact Nat.lt_of_lt_of_le (hr.kept_lt hh) hg.size_le
  · intro id d hd hid
    obtain ⟨decl, o, h, hm⟩ := hr.made hd hid
    exact ⟨decl, o, h, hm.ext hext⟩
  · intro id d hd
    obtain ⟨ids, hc, hl⟩ := hr.chain hd
    exact ⟨ids, hc.ext hext, hl⟩

/-- Entering a class under free names makes the registry grow. -/
theorem ext_enter {b : Blueprint β} (hr : r.OK) (hn : r.lookup b.name = none)
    (hm : r.lookup b.markerName = none) (hne : b.markerName ≠ b.name) : r.Ext (r.enter b) where
  settings := rfl
  graph := by
    refine (Graph.ext_add hm _ _).trans (Graph.ext_add ?_ _ _)
    rw [Graph.lookup_add, if_neg hne]
    exact hn
  classDef? {id d} hd := by
    have hlt := hr.classDef?_lt hd
    have hne : r.graph.size + 1 ≠ id := fun e =>
      Nat.not_succ_le_self _ (Nat.le_of_lt (e ▸ hlt))
    change (Table.insert _ _ _).get? id = _
    rw [Table.get?_insert_of_ne hne]
    exact hd
  heritage h := h

/-- The classes after a new one has been entered. -/
theorem classDef?_enter {b : Blueprint β} (hd : (r.enter b).classDef? id = some d) :
    (id = r.graph.size + 1 ∧ d = b.toDef r.graph.size (r.graph.size + 1)) ∨
      r.classDef? id = some d := by
  change (Table.insert _ _ _).get? id = _ at hd
  rw [Table.get?_insert] at hd
  split at hd
  · next e => exact .inl ⟨e.symm, (Option.some.inj hd).symm⟩
  · exact .inr hd

theorem size_enter (r : Registry β) (b : Blueprint β) :
    (r.enter b).graph.size = r.graph.size + 2 := by
  simp [enter]

/-- The names after a new class has been entered. -/
theorem lookup_enter {b : Blueprint β} {n : Name} (hn : (r.enter b).lookup n = some id) :
    id = r.graph.size ∨ id = r.graph.size + 1 ∨ r.lookup n = some id := by
  simp only [enter, Registry.lookup, Graph.lookup_add, Graph.size_add] at hn
  split at hn
  · exact .inr (.inl (Option.some.inj hn).symm)
  split at hn
  · exact .inl (Option.some.inj hn).symm
  · exact .inr (.inr hn)

/-- The markers after a new class has been entered. -/
theorem marker_enter {b : Blueprint β} {m c : TypeId}
    (hm : (r.enter b).markers.get? m = some c) :
    m = r.graph.size ∨ r.markers.get? m = some c := by
  change (Table.insert _ _ _).get? m = _ at hm
  rw [Table.get?_insert] at hm
  split at hm
  · next e => exact .inl e.symm
  · exact .inr hm

/-- Entering a class keeps the invariant, if the class was made from a declaration. -/
theorem enter_ok {b : Blueprint β} (hr : r.OK) (hn : r.lookup b.name = none)
    (hm : r.lookup b.markerName = none) (hne : b.markerName ≠ b.name)
    (hmade : r.Made decl o h (b.toDef r.graph.size (r.graph.size + 1)))
    (hids : ∃ ids, r.Chain o.superDef.id ids ∧ ids.length + 1 ≤ r.settings.maxHierarchyDepth) :
    (r.enter b).OK := by
  have hext := ext_enter hr hn hm hne
  have hmarker : r.graph.size < (r.enter b).graph.size := by
    rw [size_enter]
    omega
  have hclass : r.graph.size + 1 < (r.enter b).graph.size := by
    rw [size_enter]
    omega
  have hnew : (r.enter b).classDef? (r.graph.size + 1) =
      some (b.toDef r.graph.size (r.graph.size + 1)) := Table.get?_insert_self
  have hlook : (r.enter b).lookup b.name = some (r.graph.size + 1) := by
    simp [enter, Registry.lookup, Graph.lookup_add]
  refine ⟨hr.settings, hext.classDef? hr.root, ?_, ?_, ?_, ?_, ?_, ?_, ?_, ?_, ?_⟩
  · -- classes are kept under their ids and found under their names
    intro id d hd
    rcases classDef?_enter hd with ⟨rfl, rfl⟩ | hold
    · rfl
    · exact hr.id_eq hold
  · intro id d hd
    rcases classDef?_enter hd with ⟨rfl, rfl⟩ | hold
    · exact hlook
    · exact hext.graph.lookup (hr.lookup hold)
  · -- names, markers and heritages belong to nodes of the graph
    intro n id hl
    rcases lookup_enter hl with rfl | rfl | hold
    · exact hmarker
    · exact hclass
    · exact Nat.lt_trans (hr.lookup_lt hold) hmarker
  · intro m c hc
    rcases marker_enter hc with rfl | hold
    · exact hmarker
    · exact Nat.lt_trans (hr.marker_lt hold) hmarker
  · intro id h hh
    exact Nat.lt_trans (hr.kept_lt hh) hmarker
  · -- nothing was kept at the new node
    intro id h d hh hd
    rcases classDef?_enter hd with ⟨rfl, -⟩ | hold
    · exact absurd (hr.kept_lt hh) (Nat.not_lt.2 (Nat.le_succ _))
    · exact hr.kept hh hold
  · -- every class was made from a declaration, the new one by assumption
    intro id d hd hid
    rcases classDef?_enter hd with ⟨-, rfl⟩ | hold
    · exact ⟨decl, o, h, hmade.ext hext⟩
    · obtain ⟨decl', o', h', hm'⟩ := hr.made hold hid
      exact ⟨decl', o', h', hm'.ext hext⟩
  · intro id d hd
    rcases classDef?_enter hd with ⟨-, rfl⟩ | hold
    · exact hmade.closed hr
    · exact hr.closed hold
  · -- the chain of the new class is one longer than that of its superclass
    intro id d hd
    rcases classDef?_enter hd with ⟨rfl, rfl⟩ | hold
    · obtain ⟨ids, hc, hl⟩ := hids
      exact ⟨o.superDef.id :: ids,
        .step (Nat.succ_ne_zero _) hnew hmade.superclass (hc.ext hext), hl⟩
    · obtain ⟨ids, hc, hl⟩ := hr.chain hold
      exact ⟨ids, hc.ext hext, hl⟩

/-- The marker of a class does not have the name of the class: the prefix is not empty. -/
theorem markerName_ne (hr : r.OK) (decl : ClassDecl β) : r.markerName decl ≠ decl.name := by
  have hp : isIdentifier r.settings.markerPrefix = true := by
    have := hr.settings
    unfold Settings.issue? at this
    split at this
    · cases this
    split at this
    · cases this
    · next h => simpa using h
  intro e
  have hlen := congrArg String.length e
  rw [markerName, Settings.markerName, String.length_append] at hlen
  have : r.settings.markerPrefix.length = 0 := by omega
  exact ne_empty_of_isIdentifier hp (String.length_eq_zero_iff.1 this)

/-- **What a definition does**: it enters a class made from the declaration, and the invariant is
kept. -/
theorem define_made (hr : r.OK) (hd : r.define decl = (.ok id, r')) :
    r'.OK ∧ r.Ext r' ∧ id ≠ rootId ∧
      ∃ d o h, r'.classDef? id = some d ∧ r'.Made decl o h d := by
  obtain ⟨b, r₁, hb, hn, hm, rfl, rfl⟩ := define_ok hd
  obtain ⟨o, h, ho, hh, ha⟩ := blueprint_ok hb
  -- the blueprint is entered where the heritage of the superclass is kept already
  obtain ⟨hr₁, he₁⟩ := heritage_ok hr o.superDef.id
  rw [hh] at hr₁ he₁
  obtain ⟨hname, ⟨sid, hs⟩, ⟨ids, hids, hlen⟩, hbody⟩ := outline_ok ho
  obtain ⟨-, -, -, hident⟩ := nameError?_eq_none_iff.1 hname
  obtain ⟨rfl, hpn, hfn, hff, hdecl⟩ := assemble_ok ha
  have hsid := hr.id_eq hs
  rw [← hsid] at hs
  obtain ⟨hfields, hctors⟩ := splitBody_ok hbody
  have hmade : r₁.Made decl o h
      ((r₁.draw decl o h (h.params ++ decl.typeParams) (h.fields ++ o.localFields)).toDef
        r₁.graph.size (r₁.graph.size + 1)) :=
    ⟨rfl, rfl, he₁.classDef? hs, get?_of_heritage hh, hfields, hctors, rfl, rfl, rfl, rfl, hident,
      hpn, hfn, hff, hdecl⟩
  -- the chain of the superclass is the one whose depth was checked
  have hchain : ∃ ids, r₁.Chain o.superDef.id ids ∧
      ids.length + 1 ≤ r₁.settings.maxHierarchyDepth := by
    obtain ⟨ids', hc, hl⟩ := hr.chain hs
    have : ids' = ids := by
      have := hc.superclasses hl
      rw [hids] at this
      exact (Except.ok.inj this).symm
    exact ⟨ids', hc.ext he₁, by rw [he₁.settings, this]; exact hlen⟩
  have hne := markerName_ne hr₁ decl
  have hext := ext_enter hr₁ hn hm hne
  exact ⟨enter_ok hr₁ hn hm hne hmade hchain, he₁.trans hext, Nat.succ_ne_zero _, _, o, h,
    Table.get?_insert_self, hmade.ext hext⟩

/-- A definition keeps the invariant, and the registry grows. -/
theorem define_snd_ok (hr : r.OK) (decl : ClassDecl β) :
    (r.define decl).2.OK ∧ r.Ext (r.define decl).2 := by
  rcases define_cases r decl with ⟨e, hd⟩ | ⟨b, r₁, -, -, -, hd⟩
  · rw [hd]
    exact blueprint_snd_ok hr decl
  · obtain ⟨h, he, -⟩ := define_made hr hd
    rw [hd]
    exact ⟨h, he⟩

/-- **One request** keeps the invariant, and the registry grows. -/
theorem after_ok (hr : r.OK) (q : Request β) : (r.after q).OK ∧ r.Ext (r.after q) := by
  cases q with
  | define d => exact define_snd_ok hr d
  | blueprint d => exact blueprint_snd_ok hr d
  | declare n kind sup => exact declare_ok hr n kind sup
  | heritage id => exact heritage_ok hr id

/-! ## All requests -/

theorem Leads.ok (h : r.Leads r') (hr : r.OK) : r'.OK ∧ r.Ext r' := by
  induction h with
  | refl => exact ⟨hr, .refl r⟩
  | step _ q ih =>
    obtain ⟨h1, h2⟩ := after_ok ih.1 q
    exact ⟨h1, ih.2.trans h2⟩

/-- **Every reachable registry satisfies the invariant.** -/
theorem Reachable.ok (hr : r.Reachable) : r.OK := by
  obtain ⟨s, r₀, hs, h⟩ := hr
  exact (h.ok (new_ok hs)).1

/-! ## Where a class comes from -/

/-- The class at `id` was defined by the declaration. -/
def DefinedBy (r : Registry β) (id : TypeId) (decl : ClassDecl β) : Prop :=
  ∃ r₁ r₂ : Registry β, r₁.Reachable ∧ r₁.define decl = (.ok id, r₂) ∧ r₂.Leads r

theorem DefinedBy.leads (h : r.DefinedBy id decl) (hl : r.Leads r') : r'.DefinedBy id decl := by
  obtain ⟨r₁, r₂, hr₁, hd, h₂⟩ := h
  exact ⟨r₁, r₂, hr₁, hd, h₂.trans hl⟩

/-- After a definition, the class is there by its declaration. -/
theorem Reachable.definedBy_after (hr : r.Reachable) (h : (r.define decl).1 = .ok id) :
    (r.after (.define decl)).DefinedBy id decl :=
  ⟨r, _, hr, Prod.ext h rfl, .refl⟩

/-- A request adds no class but the one that it defines. -/
theorem classDef?_after {q : Request β} (hd : (r.after q).classDef? id = some d) :
    r.classDef? id = some d ∨ ∃ decl, q = .define decl ∧ (r.define decl).1 = .ok id := by
  -- a blueprint alone adds no class
  have hb : ∀ decl, (r.blueprint decl).2.classDef? id = r.classDef? id := by
    intro decl
    rcases blueprint_snd (r := r) (d := decl) with h | ⟨k, h⟩
    · rw [h]
    · obtain ⟨hs, he, -⟩ := heritage_cases r k
      rw [h, he]
      rfl
  cases q with
  | define decl =>
    rcases define_cases r decl with ⟨e, hdef⟩ | ⟨b, r₁, hbp, -, -, hdef⟩ <;> rw [after, hdef] at hd
    · exact .inl ((hb decl).symm.trans hd)
    · rcases classDef?_enter hd with ⟨rfl, -⟩ | hold
      · exact .inr ⟨decl, rfl, by rw [hdef]⟩
      · left
        rw [← hb decl, hbp]
        exact hold
  | blueprint decl => exact .inl ((hb decl).symm.trans hd)
  | declare n kind sup =>
    left
    rcases declare_cases r n kind sup with h | ⟨-, -, h⟩ <;> rw [after, h] at hd <;> exact hd
  | heritage k =>
    left
    obtain ⟨hs, he, -⟩ := heritage_cases r k
    rw [after, he] at hd
    exact hd

/-- A body that a class has after a request belonged to the class before, or was declared with it. -/
theorem user_after {q : Request β} {c : Constructor β} {body : β} (hr : r.OK)
    (hd : (r.after q).classDef? id = some d) (hc : c ∈ d.constructors) (hk : c.kind = .user body) :
    r.classDef? id = some d ∨ ∃ decl, q = .define decl ∧ ∃ u ∈ decl.ctors, u.body = body := by
  rcases classDef?_after hd with hold | ⟨decl, rfl, hdef⟩
  · exact .inl hold
  · have hdefine : r.define decl = (.ok id, r.after (.define decl)) := Prod.ext hdef rfl
    obtain ⟨-, -, -, d', o, h, hd', hm⟩ := define_made hr hdefine
    cases hd'.symm.trans hd
    exact .inr ⟨decl, rfl, hm.user hc hk⟩

/-- **Every class but the root was defined** by some declaration. -/
theorem Reachable.definedBy (hr : r.Reachable) (hd : r.classDef? id = some d)
    (hid : id ≠ rootId) : ∃ decl, r.DefinedBy id decl := by
  obtain ⟨s, r₀, hs, hl⟩ := hr
  induction hl with
  | refl =>
    obtain ⟨-, rfl⟩ := new_eq hs
    exact absurd (classDef?_ofSettings hd).1 hid
  | step hl q ih =>
    rcases classDef?_after hd with hd | ⟨decl, rfl, hok⟩
    · obtain ⟨decl, hdef⟩ := ih hd
      exact ⟨decl, hdef.leads (Leads.refl.step q)⟩
    · exact ⟨decl, Reachable.definedBy_after ⟨s, r₀, hs, hl⟩ hok⟩

/-- The definition of a class has made it from the declaration. -/
theorem DefinedBy.made (h : r.DefinedBy id decl) :
    id ≠ rootId ∧ ∃ d o h, r.classDef? id = some d ∧ r.Made decl o h d := by
  obtain ⟨r₁, r₂, hr₁, hd, hl⟩ := h
  obtain ⟨hr₂, -, hid, d, o, h, hc, hm⟩ := define_made hr₁.ok hd
  have he := (hl.ok hr₂).2
  exact ⟨hid, d, o, h, he.classDef? hc, hm.ext he⟩

/-- So it has made the class that is there. -/
theorem DefinedBy.made_classDef (h : r.DefinedBy id decl) (hd : r.classDef? id = some d) :
    ∃ o h, r.Made decl o h d := by
  obtain ⟨-, d', o, h', hd', hm⟩ := h.made
  obtain rfl : d = d' := Option.some.inj (hd.symm.trans hd')
  exact ⟨o, h', hm⟩

end Registry

end ClassGraph
