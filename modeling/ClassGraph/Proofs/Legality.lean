import ClassGraph.Proofs.Ancestry
import ClassGraph.Proofs.InheritedLayout
import ClassGraph.Proofs.KnownNames
import ClassGraph.Proofs.Refusal

/-!
# Legal declarations

A definition goes through a dozen checks, in an order that matters for the error alone. Here they
are put together as one condition on the declaration, which says nothing of the order and nothing
of how the checks are made.

* `splitBody_eq_ok_iff`, `Ty.issue?_eq_none_iff`, `Registry.resolveSuperclass_eq_ok_iff`,
  `Registry.checkDepth_eq_ok_iff`: when each of the steps succeeds.
* `Registry.Legal`: **the declaration is legal.**
* `Registry.Reachable.define_isOk_iff`: **a class is defined exactly when its declaration is legal.**
  That a declared type parameter might have the name of an inherited one is no part of it: the
  inherited ones have fresh names, and these are no identifiers.
-/

namespace ClassGraph

variable {β : Type}

/-! ## The parts of a declaration -/

/-- **The entry may stand in the body of the class**: it is a field, or a constructor that has the
name of the class and parameters with distinct names. -/
def BodyEntry.Belongs (cls : Name) : BodyEntry β → Prop
  | field _ => True
  | ctor c => c.name = cls ∧ (c.params.map (·.name)).Nodup
  | statement _ => False

/-- The types that are written down in a declaration: bounds, field types, parameter types. -/
def ClassDecl.types (d : ClassDecl β) : List Ty :=
  d.typeParams.map (·.bound) ++ d.fields.map (·.ty) ++ (d.ctors.flatMap (·.params)).map (·.ty)

/-- **A body can be taken apart** just when all its entries belong there. -/
theorem splitBody_eq_ok_iff {cls : Name} {body : List (BodyEntry β)} {fs : List Field}
    {cs : List (ConstructorDecl β)} : splitBody cls body = .ok (fs, cs) ↔
      (∀ e ∈ body, e.Belongs cls) ∧ fs = body.filterMap (·.field?) ∧
        cs = body.filterMap (·.ctor?) := by
  constructor
  · intro h
    refine ⟨?_, splitBody_ok h⟩
    induction body generalizing fs cs with
    | nil => simp
    | cons e body ih =>
      have hmap : ∀ {f : List Field × List (ConstructorDecl β) → _},
          (splitBody cls body).map f = .ok (fs, cs) → ∀ x ∈ body, x.Belongs cls := by
        intro f hf
        obtain ⟨parts, hb, -⟩ := map_eq_ok_iff.1 hf
        exact ih hb
      cases e with
      | statement text => cases h
      | field f => exact List.forall_mem_cons.2 ⟨trivial, hmap h⟩
      | ctor c =>
        unfold splitBody at h
        split at h
        · cases h
        next hname =>
          split at h
          · cases h
          next hnodup =>
            have hbelongs : (BodyEntry.ctor c).Belongs cls :=
              ⟨not_not.1 hname, not_not.1 hnodup⟩
            exact List.forall_mem_cons.2 ⟨hbelongs, hmap h⟩
  · rintro ⟨hall, rfl, rfl⟩
    induction body with
    | nil => rfl
    | cons e body ih =>
      obtain ⟨he, hrest⟩ := List.forall_mem_cons.1 hall
      cases e with
      | statement text => cases he
      | field f => rw [splitBody, ih hrest]; rfl
      | ctor c =>
        obtain ⟨hname, hnodup⟩ := he
        rw [splitBody, if_neg (not_not.2 hname), if_neg (not_not.2 hnodup), ih hrest]
        rfl

/-- A type raises no issue just when its names are known and its parameters are among the given. -/
theorem Ty.issue?_eq_none_iff {known : Name → Bool} {ps : List Name} {t : Ty} :
    t.issue? known ps = none ↔ (∀ n ∈ t.names, known n = true) ∧ ∀ n ∈ t.params, n ∈ ps := by
  refine ⟨fun h => ⟨known_of_issue?_eq_none h, params_of_issue?_eq_none h⟩, ?_⟩
  rintro ⟨hnames, hparams⟩
  induction t with
  | any | prim _ => rfl
  | named n => simp [issue?, hnames n (by simp)]
  | param n => simp [issue?, hparams n (by simp)]
  | list t ih => exact ih hnames hparams

namespace Registry

variable {r : Registry β} {decl : ClassDecl β} {o : Outline β} {s : ClassDef β} {h : Heritage}

/-! ## What is checked before the heritage is asked for -/

/-- **The class that a declaration extends**: the one that it names, or else the root class. -/
inductive Parent (r : Registry β) (decl : ClassDecl β) (s : ClassDef β) : Prop
  | root (hn : decl.superclass = none) (hs : r.classDef? rootId = some s)
  | named {n : Name} {id : TypeId} (hn : decl.superclass = some n) (hl : r.lookup n = some id)
      (hs : r.classDef? id = some s)

theorem resolveSuperclass_eq_ok_iff : r.resolveSuperclass decl = .ok s ↔ r.Parent decl s := by
  constructor
  · intro hok
    rcases resolveSuperclass_ok hok with ⟨hn, hs⟩ | ⟨n, id, hn, hl, hs⟩
    · exact .root hn hs
    · exact .named hn hl hs
  · rintro (⟨hn, hs⟩ | ⟨hn, hl, hs⟩)
    · simp [resolveSuperclass, hn, hs]
    · simp [resolveSuperclass, hn, hl, hs]

/-- A parent is a class of the registry. -/
theorem Parent.classDef? (hp : r.Parent decl s) (hr : r.OK) : r.classDef? s.id = some s := by
  rcases hp with ⟨-, hs⟩ | ⟨-, -, hs⟩
  · rw [hr.id_eq hs, hs]
  · rw [hr.id_eq hs, hs]

/-- The depth is in order just when the ancestors of the new class are within the limit. -/
theorem checkDepth_eq_ok_iff (hr : r.OK) (hs : r.classDef? s.id = some s) :
    r.checkDepth decl s = .ok () ↔
      ∃ ids, r.Chain s.id ids ∧ (s.id :: ids).length ≤ r.settings.maxHierarchyDepth := by
  obtain ⟨ids, hchain, hids⟩ := hr.superclasses hs
  unfold checkDepth
  rw [hids]
  simp only [List.length_cons]
  constructor
  · intro hok
    split at hok
    · cases hok
    · exact ⟨ids, hchain, by omega⟩
  · rintro ⟨ids', hchain', hle⟩
    obtain rfl := hchain.unique hchain'
    rw [if_neg (by omega)]

/-! ## What is checked against the heritage -/

/-- The types and the constructors raise no issue just when all types are in order, and no
constructor takes type arguments that there are no parameters for. -/
theorem typeIssue?_eq_none_iff {params : List TypeParam} :
    r.typeIssue? decl o params = none ↔
      (∀ t ∈ declaredTypes decl o, (∀ n ∈ t.names, r.knows decl n = true) ∧
        ∀ n ∈ t.params, n ∈ params.map (·.name)) ∧
      (params = [] → ∀ c ∈ o.userConstructors, c.parametrized = false) := by
  have htypes : (declaredTypes decl o).findSome?
      (Ty.issue? (r.knows decl) (params.map (·.name))) = none ↔
        ∀ t ∈ declaredTypes decl o, (∀ n ∈ t.names, r.knows decl n = true) ∧
          ∀ n ∈ t.params, n ∈ params.map (·.name) := by
    rw [List.findSome?_eq_none_iff]
    exact forall₂_congr fun t _ => Ty.issue?_eq_none_iff
  rw [← htypes]
  unfold typeIssue?
  cases hfind : (declaredTypes decl o).findSome?
      (Ty.issue? (r.knows decl) (params.map (·.name))) with
  | some issue => simp
  | none =>
    have hctors : (o.userConstructors.any (·.parametrized) = true) ↔
        ¬ ∀ c ∈ o.userConstructors, c.parametrized = false := by
      simp [List.any_eq_true]
    by_cases hp : params = []
    · simp [hp]
    · simp [hp]

/-- An outline can be joined with a heritage just when nothing is wrong with the names, the types and
the constructors. -/
theorem exists_assemble_eq_ok_iff : (∃ b, r.assemble decl o h = .ok b) ↔
    ((decl.typeParams.map (·.name)).Nodup ∧
      ∀ p ∈ decl.typeParams, p.name ∉ h.params.map (·.name)) ∧
    ((o.localFields.map (·.name)).Nodup ∧
      ∀ f ∈ o.localFields, f.name ∉ h.fields.map (·.name)) ∧
    r.typeIssue? decl o (h.params ++ decl.typeParams) = none := by
  simp only [assemble_eq_ok_iff, exists_eq_left]

/-! ## Legal declarations -/

/-- **The declaration is legal**, on top of the class `s` which passes on `h`. -/
structure Legal (r : Registry β) (decl : ClassDecl β) (s : ClassDef β) (h : Heritage) : Prop where
  parent : r.Parent decl s
  heritage : (r.heritage s.id).1 = .ok h
  identifier : isIdentifier decl.name = true
  name_free : ∀ id, r.graph.name? id ≠ some decl.name
  marker_free : ∀ id, r.graph.name? id ≠ some (r.settings.markerName decl.name)
  param_identifiers : ∀ p ∈ decl.typeParams, isIdentifier p.name = true
  /-- The ancestors, from `s` to the root class. -/
  depth : ∃ ids, r.Chain s.id ids ∧ (s.id :: ids).length ≤ r.settings.maxHierarchyDepth
  body : ∀ e ∈ decl.body, e.Belongs decl.name
  params_nodup : (decl.typeParams.map (·.name)).Nodup
  fields_nodup : (decl.fields.map (·.name)).Nodup
  fields_new : ∀ f ∈ decl.fields, f.name ∉ s.layout.fieldNames
  names : ∀ t ∈ decl.types, ∀ n ∈ t.names, n = decl.name ∨ n = r.settings.markerName decl.name ∨
    ∃ id, r.graph.name? id = some n
  params : ∀ t ∈ decl.types, ∀ n ∈ t.params, n ∈ (h.params ++ decl.typeParams).map (·.name)
  parametrized : h.params ++ decl.typeParams = [] → ∀ c ∈ decl.ctors, c.parametrized = false

/-- A name is free just when no node has it. -/
theorem InStep.lookup_eq_none_iff (hr : r.InStep) {n : Name} :
    r.lookup n = none ↔ ∀ id, r.graph.name? id ≠ some n := by
  constructor
  · intro hn id hid
    have hsome : r.lookup n = some id := hr.forest.lookup_iff.2 hid
    rw [hn] at hsome
    cases hsome
  · intro hall
    cases hn : r.lookup n with
    | none => rfl
    | some id => exact absurd (hr.forest.lookup_iff.1 hn) (hall id)

/-- A declaration knows the names of the nodes, and the two that the class is going to have. -/
theorem InStep.knows_iff (hr : r.InStep) {n : Name} : r.knows decl n = true ↔
    n = decl.name ∨ n = r.settings.markerName decl.name ∨ ∃ id, r.graph.name? id = some n := by
  have hnode : (r.lookup n).isSome = true ↔ ∃ id, r.graph.name? id = some n := by
    rw [Option.isSome_iff_exists]
    exact exists_congr fun id => hr.forest.lookup_iff
  rw [knows, Bool.or_eq_true, Bool.or_eq_true, decide_eq_true_eq, decide_eq_true_eq, hnode, or_assoc]
  rfl

/-- **What a class passes on** has the names of its fields, and no parameter with the name of an
identifier. -/
theorem OK.names_of_heritage (hr : r.OK) (hs : r.classDef? s.id = some s)
    (hh : (r.heritage s.id).1 = .ok h) : h.fields.map (·.name) = s.layout.fieldNames ∧
      ∀ n, isIdentifier n = true → n ∉ h.params.map (·.name) := by
  obtain ⟨h', g, hh', hpass⟩ := hr.heritage_eq hs
  obtain rfl : h' = h := Except.ok.inj (hh'.symm.trans hh)
  have hclosed : s.layout.Closed := (hr.closed hs).layout
  rw [hpass, Layout.passOn_fields hclosed, Layout.passOn_params hclosed]
  constructor
  · rw [List.map_map]
    rfl
  · intro n hn hmem
    rw [List.map_map] at hmem
    obtain ⟨p, -, rfl⟩ := List.mem_map.1 hmem
    have hfresh := isIdentifier_freshName g p.name
    simp only [Function.comp_apply, TypeParam.name_rename] at hn
    rw [hfresh] at hn
    cases hn

/-- A definition succeeds just when its blueprint can be drawn up: in between nothing takes a name. -/
theorem define_isOk_iff_blueprint :
    (∃ id, (r.define decl).1 = .ok id) ↔ ∃ b, (r.blueprint decl).1 = .ok b := by
  constructor
  · rintro ⟨id, hid⟩
    obtain ⟨b, r₁, hb, -⟩ := define_ok (Prod.ext hid rfl)
    exact ⟨b, by rw [hb]⟩
  · rintro ⟨b, hb⟩
    have hb' : r.blueprint decl = (.ok b, (r.blueprint decl).2) := Prod.ext hb rfl
    obtain ⟨hname, hmarker⟩ := lookup_of_blueprint hb'
    refine ⟨(r.blueprint decl).2.graph.size + 1, ?_⟩
    unfold define
    rw [hb']
    simp [commit, hname, hmarker]

/-- A blueprint can be drawn up just when there are an outline and a heritage that can be joined. -/
theorem blueprint_isOk_iff : (∃ b, (r.blueprint decl).1 = .ok b) ↔
    ∃ o h, r.outline decl = .ok o ∧ (r.heritage o.superDef.id).1 = .ok h ∧
      ∃ b, r.assemble decl o h = .ok b := by
  -- joining does not look at the heritages that are kept
  have hkept : ∀ hs o h, { r with heritages := hs }.assemble decl o h = r.assemble decl o h := by
    intro hs o h
    rfl
  have hsnd : ∀ id, ∃ hs, (r.heritage id).2 = { r with heritages := hs } := by
    intro id
    obtain ⟨hs, he, -⟩ := heritage_cases r id
    exact ⟨hs, he⟩
  constructor
  · rintro ⟨b, hb⟩
    obtain ⟨o, h, ho, hh, ha⟩ := blueprint_ok (Prod.ext hb rfl : r.blueprint decl = (.ok b, _))
    obtain ⟨hs, he⟩ := hsnd o.superDef.id
    rw [hh] at he
    simp only at he
    rw [he, hkept] at ha
    exact ⟨o, h, ho, by rw [hh], b, ha⟩
  · rintro ⟨o, h, ho, hh, b, ha⟩
    obtain ⟨hs, he⟩ := hsnd o.superDef.id
    have hpair : r.heritage o.superDef.id = (.ok h, { r with heritages := hs }) := Prod.ext hh he
    refine ⟨b, ?_⟩
    unfold blueprint
    simp only [ho, hpair, hkept, ha]

/-- **Legal declarations are those that pass all checks.** -/
theorem Reachable.exists_legal_iff (hr : r.Reachable) : (∃ s h, r.Legal decl s h) ↔
    ∃ o h, r.outline decl = .ok o ∧ (r.heritage o.superDef.id).1 = .ok h ∧
      ∃ b, r.assemble decl o h = .ok b := by
  have hstep := hr.inStep
  constructor
  · rintro ⟨s, h, hl⟩
    have hs := hl.parent.classDef? hr.ok
    obtain ⟨hfields, hparams⟩ := hr.ok.names_of_heritage hs hl.heritage
    refine ⟨⟨s, decl.fields, decl.ctors⟩, h, ?_, hl.heritage, ?_⟩
    · refine outline_eq_ok_iff.2 ⟨?_, resolveSuperclass_eq_ok_iff.2 hl.parent,
        (checkDepth_eq_ok_iff hr.ok hs).2 hl.depth, splitBody_eq_ok_iff.2 ⟨hl.body, rfl, rfl⟩⟩
      exact nameError?_eq_none_iff.2 ⟨hl.identifier, hstep.lookup_eq_none_iff.2 hl.name_free,
        hstep.lookup_eq_none_iff.2 hl.marker_free, hl.param_identifiers⟩
    · refine exists_assemble_eq_ok_iff.2 ⟨⟨hl.params_nodup, ?_⟩, ⟨hl.fields_nodup, ?_⟩, ?_⟩
      · intro p hp
        exact hparams p.name (hl.param_identifiers p hp)
      · intro f hf
        rw [hfields]
        exact hl.fields_new f hf
      · exact typeIssue?_eq_none_iff.2
          ⟨fun t ht => ⟨fun n hn => hstep.knows_iff.2 (hl.names t ht n hn), hl.params t ht⟩,
            hl.parametrized⟩
  · rintro ⟨o, h, ho, hh, hb⟩
    obtain ⟨hname, hsuper, hdepth, hbody⟩ := outline_eq_ok_iff.1 ho
    obtain ⟨hid, hfree, hmarker, hident⟩ := nameError?_eq_none_iff.1 hname
    have hparent := resolveSuperclass_eq_ok_iff.1 hsuper
    have hs := hparent.classDef? hr.ok
    obtain ⟨hbelongs, hlocal, huser⟩ := splitBody_eq_ok_iff.1 hbody
    obtain ⟨⟨hpn, -⟩, ⟨hfn, hff⟩, hissue⟩ := exists_assemble_eq_ok_iff.1 hb
    obtain ⟨htypes, hctors⟩ := typeIssue?_eq_none_iff.1 hissue
    obtain ⟨hfields, -⟩ := hr.ok.names_of_heritage hs hh
    have hsame : declaredTypes decl o = decl.types := by
      rw [declaredTypes, hlocal, huser]
      rfl
    rw [hsame] at htypes
    rw [hlocal] at hfn hff
    rw [huser] at hctors
    rw [hfields] at hff
    exact ⟨o.superDef, h, hparent, hh, hid, hstep.lookup_eq_none_iff.1 hfree,
      hstep.lookup_eq_none_iff.1 hmarker, hident, (checkDepth_eq_ok_iff hr.ok hs).1 hdepth,
      hbelongs, hpn, hfn, hff, fun t ht n hn => hstep.knows_iff.1 ((htypes t ht).1 n hn),
      fun t ht => (htypes t ht).2, hctors⟩

/-- **A class is defined exactly when its declaration is legal.** The class that it extends is then
the root class or a concrete one, and no marker or declared type; and it always passes on a heritage,
where no identifier is the name of a type parameter: the names that ancestors have used are there to
be declared again. -/
theorem Reachable.define_isOk_iff (hr : r.Reachable) (decl : ClassDecl β) :
    ((∃ id, (r.define decl).1 = .ok id) ↔ ∃ s h, r.Legal decl s h) ∧
    (∀ s, r.Parent decl s → s.id = rootId ∨ r.graph.isConcrete s.id = true) ∧
    ∀ s, r.Parent decl s → ∃ h, (r.heritage s.id).1 = .ok h ∧
      ∀ n, isIdentifier n = true → n ∉ h.params.map (·.name) := by
  refine ⟨?_, ?_, ?_⟩
  · rw [define_isOk_iff_blueprint, blueprint_isOk_iff, hr.exists_legal_iff]
  · intro s hp
    by_cases hroot : s.id = rootId
    · exact .inl hroot
    · exact .inr (hr.inStep.placed (hp.classDef? hr.ok) hroot).isConcrete
  · intro s hp
    have hs := hp.classDef? hr.ok
    obtain ⟨h, -, hh, -⟩ := hr.ok.heritage_eq hs
    exact ⟨h, hh, (hr.ok.names_of_heritage hs hh).2⟩

/-! ## A fourth class -/

/-- A class on top of the first one of the tower, which declares its parameter once more and mentions
both by name. -/
def annex : ClassDecl Unit :=
  ⟨"Annex", some "A", [⟨"T", .param "T#1"⟩], false,
    [.field ⟨"y", .list (.param "T")⟩, .field ⟨"next", .named "AbstractAnnex"⟩,
      .ctor ⟨"Annex", [⟨"y", .param "T#1"⟩], true, ()⟩]⟩

/-- The annex can be built, on the class and not on its marker. -/
theorem define_isOk_iff_tower : (∃ s h, tower.Legal annex s h) ∧
    ¬ ∃ s h, tower.Legal { annex with superclass := some "AbstractA" } s h := by
  have hok : (tower.define annex).1 = .ok 8 := by decide +kernel
  have herr : (tower.define { annex with superclass := some "AbstractA" }).1 =
      .error (.unknownSuperclass "Annex" "AbstractA") := by decide +kernel
  obtain ⟨hannex, -⟩ := reachable_tower.define_isOk_iff annex
  obtain ⟨hmarker, -⟩ :=
    reachable_tower.define_isOk_iff { annex with superclass := some "AbstractA" }
  refine ⟨hannex.1 ⟨8, hok⟩, fun hlegal => ?_⟩
  obtain ⟨id, hid⟩ := hmarker.2 hlegal
  rw [herr] at hid
  cases hid

end Registry

end ClassGraph
