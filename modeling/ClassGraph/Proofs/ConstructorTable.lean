import ClassGraph.Proofs.CopyExtend

/-!
# The constructors of a class

The constructors of a class stand in blocks: those written for it, the default ones, the one that
copies and extends, and the guides. What a constructor looks like follows from the block it is in.

* `Constructor.Origin`: what a constructor of a class can be; `Registry.Made.origin`: **there is
  nothing else.**
* `ClassDef.Tabled`: the blocks in their order, with when each of them is there;
  `Registry.Reachable.tabled`: **all classes but the root have their constructors like that.**
-/

namespace ClassGraph

variable {β : Type}

/-! ## One constructor -/

/-- **What a constructor of the class `d` can be**, if `decl` declares the class on top of `s`, and
`subst` puts types of `s` into the parameters of `d`. -/
inductive Constructor.Origin (decl : ClassDecl β) (s d : ClassDef β) (subst : Substitution) :
    Constructor β → Prop
  | written {u : ConstructorDecl β} (h : u ∈ decl.ctors) : Origin decl s d subst u.toConstructor
  | default {parametrized : Bool} (h : parametrized = true → d.typeParams ≠ []) :
      Origin decl s d subst ⟨d.layout.fields, parametrized, .default⟩
  | copyExtend (h : s.layout.fields ≠ []) :
      Origin decl s d subst
        ⟨⟨superParam, .named s.name⟩ :: d.layout.localFields, false, .copyExtend⟩
  | guide {x : Constructor β} {j : Nat} (h : s.constructors[j]? = some x)
      (hx : x.isDefault = false) (hd : d.layout.localFields = []) (hs : s.id ≠ rootId) :
      Origin decl s d subst (x.toGuide subst j)

/-- **The constructors of the class `d`**, declared by `decl` on top of `s`: those that are written,
in their order; the default ones; the one that copies, if there is something to copy; and if the
class adds no fields to a superclass other than the root, a guide to each constructor of the
superclass but its default ones. -/
structure ClassDef.Tabled (d : ClassDef β) (decl : ClassDecl β) (s : ClassDef β) : Prop where
  blocks : ∃ back, d.constructors =
    decl.ctors.map (fun u => ⟨u.params, u.parametrized, .user u.body⟩) ++
      (⟨d.layout.fields, false, .default⟩ ::
        if d.typeParams = [] then [] else [⟨d.layout.fields, true, .default⟩]) ++
      (if s.layout.fields = [] then []
        else [⟨⟨superParam, .named s.name⟩ :: d.layout.localFields, false, .copyExtend⟩]) ++
      back ∧
    if d.layout.localFields = [] ∧ s.id ≠ rootId then List.Forall₂ Constructor.LeadsTo back s.guided
    else back = []
  guide : ∀ e ∈ d.constructors, ∀ j, e.kind = .guide j → ∃ x, s.constructors[j]? = some x ∧
    x.role ≠ .default ∧ e.arity = x.arity ∧ e.parametrized = x.parametrized

namespace Registry

variable {r : Registry β} {decl : ClassDecl β} {o : Outline β} {h : Heritage} {s d : ClassDef β}
  {e : Constructor β} {id : TypeId}

/-- The superclass passes on as many fields as it has. -/
theorem Made.length_passed (hm : r.Made decl o h d) (hr : r.OK) :
    h.fields.length = o.superDef.layout.fields.length := by
  obtain ⟨n, he⟩ := hm.extends hr
  rw [he.renamed, List.length_map]

/-- The class adds no fields just when it has as many as it inherits. -/
theorem Made.localFields_eq_nil_iff (hm : r.Made decl o h d) :
    d.layout.localFields = [] ↔ d.layout.fields.length = h.fields.length := by
  have hle : h.fields.length ≤ d.layout.fields.length := by
    rw [hm.fields, List.length_append]
    omega
  rw [Layout.localFields, hm.inherited, List.drop_eq_nil_iff]
  omega

/-- **Each constructor of a class** is of one of these kinds. -/
theorem Made.origin (hm : r.Made decl o h d) (hr : r.OK) (he : e ∈ d.constructors) :
    e.Origin decl o.superDef d h.substitution := by
  rw [hm.constructors, hm.userConstructors] at he
  simp only [List.mem_append, or_assoc] at he
  rcases he with he | he | he | he
  · obtain ⟨u, hu, rfl⟩ := List.mem_map.1 he
    exact .written hu
  · unfold defaultConstructors at he
    rcases List.mem_cons.1 he with rfl | he
    · exact .default fun hp => by cases hp
    · split at he
      · cases he
      next hparams =>
        rw [List.mem_singleton.1 he]
        exact .default fun _ => hparams
  · have hcopied : o.superDef.layout.fields ≠ [] := by
      intro hnil
      have hzero := hm.length_passed hr
      rw [hnil, List.length_nil] at hzero
      rw [copyExtendConstructors, hzero, if_neg (by omega)] at he
      cases he
    rw [mem_copyExtendConstructors he, ← hm.inherited]
    exact .copyExtend hcopied
  · unfold guideConstructors at he
    split at he
    next hcond =>
      obtain ⟨j, x, hx, hdef, rfl⟩ := mem_guides.1 he
      exact .guide hx hdef (hm.localFields_eq_nil_iff.2 hcond.1) hcond.2
    · cases he

/-- A guide leads to a constructor of the superclass of the same shape. -/
theorem Made.guide (hm : r.Made decl o h d) (hr : r.OK) (he : e ∈ d.constructors) {j : Nat}
    (hk : e.kind = .guide j) : ∃ x, o.superDef.constructors[j]? = some x ∧
      x.isDefault = false ∧ e = x.toGuide h.substitution j ∧ d.layout.localFields = [] ∧
      o.superDef.id ≠ rootId := by
  cases hm.origin hr he with
  | written _ | default _ | copyExtend _ => cases hk
  | guide hx hdef hd hs =>
    cases hk
    exact ⟨_, hx, hdef, rfl, hd, hs⟩

/-- **The constructors stand in blocks.** -/
theorem Made.tabled (hm : r.Made decl o h d) (hr : r.OK) : d.Tabled decl o.superDef where
  blocks := by
    refine ⟨guideConstructors o.superDef h.substitution d.layout.fields h.fields.length, ?_, ?_⟩
    · have hcopy : copyExtendConstructors o.superDef.name d.layout.fields h.fields.length =
          if o.superDef.layout.fields = [] then ([] : List (Constructor β))
          else [⟨⟨superParam, .named o.superDef.name⟩ :: d.layout.localFields, false,
            .copyExtend⟩] := by
        rw [copyExtendConstructors, ← hm.inherited, Layout.localFields]
        have hlen := hm.length_passed hr
        rw [← hm.inherited] at hlen
        by_cases hnil : o.superDef.layout.fields = []
        · rw [hnil, List.length_nil] at hlen
          rw [if_pos hnil, if_neg (by omega)]
        · have hpos := List.length_pos_iff.2 hnil
          rw [if_neg hnil, if_pos (by omega)]
      rw [hm.constructors, hm.userConstructors, hcopy]
      rfl
    · by_cases hcond : d.layout.localFields = [] ∧ o.superDef.id ≠ rootId
      · rw [if_pos hcond, guideConstructors,
          if_pos ⟨hm.localFields_eq_nil_iff.1 hcond.1, hcond.2⟩]
        exact guides_leadTo _ _
      · rw [if_neg hcond, guideConstructors, if_neg]
        rw [← hm.localFields_eq_nil_iff]
        exact hcond
  guide := by
    intro e he j hk
    obtain ⟨x, hx, hdef, rfl, -, -⟩ := hm.guide hr he hk
    refine ⟨x, hx, ?_, Constructor.arity_toGuide x h.substitution j, rfl⟩
    simpa [Constructor.isDefault] using hdef

/-- **The constructors of all classes stand in blocks**: whatever declaration a class was defined by,
its constructors come from that and from its superclass. -/
theorem Reachable.tabled (hr : r.Reachable) (hd : r.classDef? id = some d) (hid : id ≠ rootId) :
    ∃ s, d.superclass = some s.id ∧ r.classDef? s.id = some s ∧
      (∃ decl, r.DefinedBy id decl) ∧ ∀ decl, r.DefinedBy id decl → d.Tabled decl s := by
  obtain ⟨_, o, _, hm⟩ := hr.ok.made hd hid
  refine ⟨o.superDef, hm.superclass, hm.superDef, hr.definedBy hd hid, fun decl hdef => ?_⟩
  obtain ⟨o', h', hm'⟩ := hdef.made_classDef hd
  have hsame : o.superDef = o'.superDef := by
    have hsup := hm'.classDef?_superclass hm.superclass
    exact Option.some.inj (hm.superDef.symm.trans hsup)
  rw [hsame]
  exact hm'.tabled hr.ok

/-- **A default constructor** has a parameter for each field. -/
theorem OK.params_of_default (hr : r.OK) (hd : r.instantiable id = .ok d)
    (he : e ∈ d.constructors) (hrole : e.role = .default) : e.params = d.layout.fields := by
  obtain ⟨decl, o, h, hm⟩ := hr.made_of_instantiable hd
  cases hm.origin hr he with
  | default _ => rfl
  | written _ | copyExtend _ | guide _ _ _ _ => cases hrole

end Registry

end ClassGraph
