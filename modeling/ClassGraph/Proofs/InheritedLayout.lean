import ClassGraph.Proofs.Reachable

/-!
# Layouts along a chain of superclasses

What a class takes over from its superclass, and from all its ancestors.

* `Registry.Extends`: the layout of a class is that of its superclass under fresh names, then what
  the class declares.
* `Chain.fieldNames_prefix`: the fields of an ancestor, at whatever distance, keep their places.
* `Registry.Reachable.layout_extends`: **the algebra of layouts**, in every reachable registry.
-/

namespace ClassGraph

variable {β : Type}

/-- A field keeps its place when further ones are appended. -/
theorem Layout.fieldIndex?_of_prefix {l l' : Layout} (h : l.fieldNames <+: l'.fieldNames) {n : Name}
    {k : Nat} (hk : l.fieldIndex? n = some k) : l'.fieldIndex? n = some k := by
  have hnames : ∀ l : Layout, l.fieldIndex? n = l.fieldNames.findIdx? (· = n) := by
    intro l
    rw [fieldNames, List.findIdx?_map]
    rfl
  rw [hnames] at hk ⊢
  exact h.findIdx?_eq_some hk

namespace Registry

variable {r : Registry β} {id : TypeId} {d s : ClassDef β} {decl : ClassDecl β} {o : Outline β}
  {h : Heritage} {g : Nat} {ids : List TypeId}

/-! ## One level -/

/-- A class that is registered passes something on: its layout, renamed in one scope. -/
theorem OK.heritage_eq (hr : r.OK) (hd : r.classDef? id = some d) :
    ∃ h g, (r.heritage id).1 = .ok h ∧ h = d.layout.passOn d.superclass ⟨g, ∅⟩ := by
  -- there is an answer
  obtain ⟨h, hh⟩ : ∃ h, (r.heritage id).1 = .ok h := by
    unfold heritage HeritageStore.getOrCompute computeHeritage
    cases r.heritages.get? id with
    | some h => exact ⟨h, rfl⟩
    | none =>
      by_cases hid : id = rootId
      · simp [hid]
      · simp [hid, hd]
  -- it is kept from now on, and the invariant tells what is kept
  obtain ⟨hr', he⟩ := heritage_ok hr id
  have hk : (r.heritage id).2.heritages.get? id = some h :=
    get?_of_heritage (Prod.ext hh rfl)
  obtain ⟨g, hg⟩ := hr'.kept hk (he.classDef? hd)
  exact ⟨h, g, hh, hg⟩

/-- **The layout of `d` extends that of its superclass `s`.** The class `d` was declared by `decl`,
`h` is what `s` passes on, and `g` the number under which its parameters were renamed. -/
structure Extends (r : Registry β) (decl : ClassDecl β) (d s : ClassDef β) (h : Heritage)
    (g : Nat) : Prop where
  superclass : d.superclass = some s.id
  superDef : r.classDef? s.id = some s
  heritage : (r.heritage s.id).1 = .ok h
  params : h.params = s.layout.typeParams.map (·.rename (freshName g))
  renamed : h.fields = s.layout.fields.map (·.rename (freshName g))
  typeParams : d.layout.typeParams = h.params ++ decl.typeParams
  fields : d.layout.fields = h.fields ++ decl.fields
  inherited : d.layout.inherited = s.layout.fields.length

/-- A class made from a declaration extends its superclass, under the number that the heritage has
been worked out under. -/
theorem Made.extends_of_passOn (hm : r.Made decl o h d) (hr : r.OK)
    (hg : h = o.superDef.layout.passOn o.superDef.superclass ⟨g, ∅⟩) :
    r.Extends decl d o.superDef h g := by
  have hs := hm.superLayout hr
  refine ⟨hm.superclass, hm.superDef, ?_, ?_, ?_, hm.typeParams, ?_, ?_⟩
  · rw [heritage_of_get? hm.heritage]
  · rw [hg, Layout.passOn_params hs]
  · rw [hg, Layout.passOn_fields hs]
  · rw [hm.fields, hm.localFields]
  · rw [hm.inherited, hg, Layout.passOn_fields hs, List.length_map]

theorem Made.extends (hm : r.Made decl o h d) (hr : r.OK) :
    ∃ g, r.Extends decl d o.superDef h g := by
  obtain ⟨g, hg⟩ := hm.passOn hr
  exact ⟨g, hm.extends_of_passOn hr hg⟩

/-- Renaming leaves the names of the fields alone. -/
theorem Extends.fieldNames (he : r.Extends decl d s h g) :
    d.layout.fieldNames = s.layout.fieldNames ++ decl.fields.map (·.name) := by
  rw [Layout.fieldNames, he.fields, he.renamed, List.map_append, List.map_map]
  rfl

/-! ## All levels -/

/-- **The fields of an ancestor** come first, at whatever distance it is. -/
theorem Chain.fieldNames_prefix (hr : r.OK) (hc : r.Chain id ids) :
    ∀ {d : ClassDef β}, r.classDef? id = some d →
      ∀ a ∈ ids, ∃ da, r.classDef? a = some da ∧ da.layout.fieldNames <+: d.layout.fieldNames := by
  induction hc with
  | root => simp
  | @step id sup d ids hid hd hs _ ih =>
    intro d' hd' a ha
    cases hd.symm.trans hd'
    obtain ⟨decl, o, h, hm, hsup⟩ := hr.made_on hd hs
    obtain ⟨g, he⟩ := hm.extends hr
    -- one step down the chain appends the declared fields
    have hstep : o.superDef.layout.fieldNames <+: d.layout.fieldNames := by
      rw [he.fieldNames]
      exact List.prefix_append _ _
    rcases List.mem_cons.1 ha with rfl | ha
    · exact ⟨o.superDef, hsup, hstep⟩
    · obtain ⟨da, hda, hp⟩ := ih hsup a ha
      exact ⟨da, hda, hp.trans hstep⟩

/-- No two fields of a class have one name, wherever they were declared. -/
theorem Chain.fieldNames_nodup (hr : r.OK) (hc : r.Chain id ids) :
    ∀ {d : ClassDef β}, r.classDef? id = some d → d.layout.fieldNames.Nodup := by
  induction hc with
  | root =>
    intro d hd
    rw [hr.root] at hd
    cases hd
    exact List.nodup_nil
  | @step id sup d ids hid hd hs _ ih =>
    intro d' hd'
    cases hd.symm.trans hd'
    obtain ⟨decl, o, h, hm, hsup⟩ := hr.made_on hd hs
    obtain ⟨g, he⟩ := hm.extends hr
    have hnames : h.fields.map (·.name) = o.superDef.layout.fieldNames := by
      rw [he.renamed, List.map_map]
      rfl
    have hnew : ∀ n ∈ o.superDef.layout.fieldNames, ∀ m ∈ decl.fields.map (·.name), n ≠ m := by
      intro n hn m hm' hnm
      obtain ⟨f, hf, rfl⟩ := List.mem_map.1 hm'
      have hf' := hm.fields_new f (hm.localFields ▸ hf)
      rw [hnames] at hf'
      exact hf' (hnm ▸ hn)
    rw [he.fieldNames]
    exact List.nodup_append.2 ⟨ih hsup, hm.localFields ▸ hm.fields_nodup, hnew⟩

/-- The chain of a class, as the registry gives it. -/
theorem OK.superclasses (hr : r.OK) (hd : r.classDef? id = some d) :
    ∃ ids, r.Chain id ids ∧ r.superclasses id = .ok ids := by
  obtain ⟨ids, hc, hl⟩ := hr.chain hd
  exact ⟨ids, hc, hc.superclasses hl⟩

/-- **The algebra of layouts.** Every class but the root extends its superclass by what its
declaration declares, no two of its fields have one name, the fields of every ancestor come first
and keep their places, and no type in the class mentions a parameter that the class does not
have. -/
theorem Reachable.layout_extends (hr : r.Reachable) (hd : r.classDef? id = some d)
    (hid : id ≠ rootId) :
    (∃ decl, r.DefinedBy id decl) ∧ ∀ decl, r.DefinedBy id decl →
      (∃ s h g, r.Extends decl d s h g) ∧
      d.layout.fieldNames.Nodup ∧
      (∃ ids, r.superclasses id = .ok ids ∧ ∀ a ∈ ids, ∃ da, r.classDef? a = some da ∧
        da.layout.fieldNames <+: d.layout.fieldNames ∧
        ∀ n k, da.layout.fieldIndex? n = some k → d.layout.fieldIndex? n = some k) ∧
      d.Closed := by
  refine ⟨hr.definedBy hd hid, fun decl hdef => ?_⟩
  have hok := hr.ok
  obtain ⟨-, d', o, h, hd', hm⟩ := hdef.made
  cases hd.symm.trans hd'
  obtain ⟨g, he⟩ := hm.extends hok
  obtain ⟨ids, hc, hids⟩ := hok.superclasses hd
  refine ⟨⟨o.superDef, h, g, he⟩, hc.fieldNames_nodup hok hd, ⟨ids, hids, fun a ha => ?_⟩,
    hok.closed hd⟩
  obtain ⟨da, hda, hp⟩ := hc.fieldNames_prefix hok hd a ha
  exact ⟨da, hda, hp, fun n k hk => Layout.fieldIndex?_of_prefix hp hk⟩

/-! ## Three levels -/

/-- Three classes, each below the one before it; the first two declare a parameter `T` each. -/
def tower : Registry Unit :=
  (ofSettings .standard).afterAll [
    .define ⟨"A", none, [⟨"T", .any⟩], false, [.field ⟨"x", .param "T"⟩]⟩,
    .define ⟨"B", some "A", [⟨"T", .any⟩], false, [.field ⟨"y", .list (.param "T")⟩]⟩,
    .define ⟨"C", some "B", [], false, []⟩]

theorem reachable_tower : tower.Reachable := ⟨.standard, _, rfl, leads_afterAll _ _⟩

/-- The lowest of the three classes extends the middle one, and holds the fields of all three. -/
theorem layout_extends_tower : ∃ d, tower.classDef? 6 = some d ∧
    d.layout.fieldNames = ["x", "y"] ∧ (∃ decl s h g, tower.Extends decl d s h g) ∧
    (∃ ids, tower.superclasses 6 = .ok ids) ∧ d.Closed := by
  have hnames : (tower.classDef? 6).map (·.layout.fieldNames) = some ["x", "y"] := by
    decide +kernel
  obtain ⟨d, hd, hn⟩ := Option.map_eq_some_iff.1 hnames
  obtain ⟨⟨decl, hdef⟩, hall⟩ := reachable_tower.layout_extends hd (by decide)
  obtain ⟨⟨s, h, g, he⟩, -, ⟨ids, hids, -⟩, hclosed⟩ := hall decl hdef
  exact ⟨d, hd, hn, ⟨decl, s, h, g, he⟩, ⟨ids, hids⟩, hclosed⟩

end Registry

end ClassGraph
