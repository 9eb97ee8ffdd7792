import ClassGraph.Proofs.InheritedLayout

/-!
# Which type parameters stay apart

A scope renames all parameters that a class passes on under one number, and drops the number that
a name had before. The parameters declared in one class, and those passed on to it, stay apart
that way. Parameters of one name that come from two different ancestors do not: they have lost
their numbers and get the same one.

* `Registry.ownParams`: the parameters that a class has declared itself.
* `Chain.baseNames`: under their numbers, the parameters of a class are those declared along its
  chain.
* `Registry.Reachable.paramNames_nodup_iff`: **the parameters of a class are distinct exactly when
  its ancestors have declared distinct ones**; the like for what the class passes on.
* `Registry.not_paramNames_nodup`: three levels are enough for two parameters to become one.
-/

namespace ClassGraph

variable {β : Type}

namespace Registry

/-- The type parameters that a class has beyond those of its superclass. -/
def ownParams (r : Registry β) (id : TypeId) : List Name :=
  match r.classDef? id with
  | none => []
  | some d =>
    let sup := d.superclass.bind r.classDef?
    d.layout.paramNames.drop ((sup.map fun s => s.layout.paramNames.length).getD 0)

variable {r : Registry β} {id : TypeId} {d : ClassDef β} {decl : ClassDecl β} {o : Outline β}
  {h : Heritage} {ids : List TypeId}

/-- The parameters of its own are the ones that the class declares. -/
theorem Made.ownParams (hm : r.Made decl o h d) (hr : r.OK) (hd : r.classDef? id = some d) :
    r.ownParams id = decl.typeParams.map (·.name) := by
  obtain ⟨g, -, hp⟩ := hm.paramNames hr
  have hs : (d.superclass.bind r.classDef?) = some o.superDef := by
    rw [hm.superclass, Option.bind_some, hm.superDef]
  unfold Registry.ownParams
  rw [hd]
  simp only [hs, hp, Option.map_some, Option.getD_some]
  rw [List.drop_append_of_le_length (by simp)]
  simp

theorem ownParams_root (hr : r.OK) : r.ownParams rootId = [] := by
  unfold Registry.ownParams
  rw [hr.root]
  rfl

/-- Declared names are identifiers, and so their own base names. -/
theorem Made.map_baseName (hm : r.Made decl o h d) :
    (decl.typeParams.map (·.name)).map baseName = decl.typeParams.map (·.name) := by
  rw [List.map_map]
  exact List.map_congr_left fun p hp => baseName_of_isIdentifier (hm.identifiers p hp)

/-- **Under their numbers** the parameters of a class are those declared along its chain. -/
theorem Chain.baseNames (hr : r.OK) (hc : r.Chain id ids) :
    ∀ {d : ClassDef β}, r.classDef? id = some d →
      d.layout.paramNames.map baseName = (id :: ids).reverse.flatMap r.ownParams := by
  induction hc with
  | root =>
    intro d hd
    rw [hr.root] at hd
    cases hd
    simp [ownParams_root hr, ClassDef.root, Layout.paramNames]
  | @step id sup d ids hid hd hs _ ih =>
    intro d' hd'
    cases hd.symm.trans hd'
    obtain ⟨decl, o, h, hm, hsup⟩ := hr.made_on hd hs
    obtain ⟨g, -, hp⟩ := hm.paramNames hr
    -- the number that a name gets on its way down is no part of its base name
    have hrenamed : (o.superDef.layout.paramNames.map (freshName g)).map baseName =
        o.superDef.layout.paramNames.map baseName := by
      rw [List.map_map]
      exact List.map_congr_left fun n _ => baseName_freshName g n
    calc d.layout.paramNames.map baseName
        = o.superDef.layout.paramNames.map baseName ++ decl.typeParams.map (·.name) := by
          rw [hp, List.map_append, hrenamed, hm.map_baseName]
      _ = (sup :: ids).reverse.flatMap r.ownParams ++ r.ownParams id := by
          rw [ih hsup, hm.ownParams hr hd]
      _ = (id :: sup :: ids).reverse.flatMap r.ownParams := by
          simp only [List.reverse_cons, List.flatMap_append, List.flatMap_singleton]

/-- The base names are distinct exactly when what the classes of the chain declare is. -/
theorem Chain.baseNames_nodup_iff (hr : r.OK) (hc : r.Chain id ids)
    (hd : r.classDef? id = some d) :
    (d.layout.paramNames.map baseName).Nodup ↔ ((id :: ids).flatMap r.ownParams).Nodup := by
  rw [hc.baseNames hr hd]
  exact ((List.reverse_perm (id :: ids)).flatMap_right r.ownParams).nodup_iff

/-- What a class declares itself stays apart from all that it inherits, which is numbered. -/
theorem Made.nodup_paramNames (hm : r.Made decl o h d) (hr : r.OK) :
    d.layout.paramNames.Nodup ↔ (o.superDef.layout.paramNames.map baseName).Nodup := by
  obtain ⟨g, -, hp⟩ := hm.paramNames hr
  rw [hp, List.nodup_append, nodup_map_freshName]
  constructor
  · exact fun hn => hn.1
  · intro hn
    refine ⟨hn, hm.params_nodup, fun n hin m hown hnm => ?_⟩
    obtain ⟨n₀, -, rfl⟩ := List.mem_map.1 hin
    exact hm.freshName_not_mem g n₀ (hnm ▸ hown)

/-- **When parameters are distinct.** The parameters of a class are distinct exactly when its
ancestors have declared no two parameters of one name. What it passes on is distinct exactly when
that holds of the class and its ancestors together. -/
theorem Reachable.paramNames_nodup_iff (hr : r.Reachable) (hd : r.classDef? id = some d) :
    ∃ ids, r.superclasses id = .ok ids ∧
      (d.layout.paramNames.Nodup ↔ (ids.flatMap r.ownParams).Nodup) ∧
      (∃ h, (r.heritage id).1 = .ok h ∧
        ((h.params.map (·.name)).Nodup ↔ ((id :: ids).flatMap r.ownParams).Nodup)) ∧
      ∀ decl, r.DefinedBy id decl → r.ownParams id = decl.typeParams.map (·.name) := by
  have hok := hr.ok
  obtain ⟨ids, hc, hids⟩ := hok.superclasses hd
  refine ⟨ids, hids, ?_, ?_, ?_⟩
  · cases hc with
    | root =>
      rw [hok.root] at hd
      cases hd
      simp [ClassDef.root, Layout.paramNames]
    | step hid hd' hs hc =>
      cases hd.symm.trans hd'
      obtain ⟨decl, o, h, hm, hsup⟩ := hok.made_on hd hs
      rw [hm.nodup_paramNames hok, hc.baseNames_nodup_iff hok hsup]
  · obtain ⟨h, g, hh, hg⟩ := hok.heritage_eq hd
    refine ⟨h, hh, ?_⟩
    have hnames : h.params.map (·.name) = d.layout.paramNames.map (freshName g) := by
      rw [hg, Layout.passOn_params (hok.closed hd).layout, List.map_map, Layout.paramNames,
        List.map_map]
      rfl
    rw [hnames, nodup_map_freshName, hc.baseNames_nodup_iff hok hd]
  · intro decl hdef
    obtain ⟨-, d', o, h, hd', hm⟩ := hdef.made
    cases hd.symm.trans hd'
    exact hm.ownParams hok hd

/-- Of the three levels, the middle one has distinct parameters: only the class above it has
declared any. -/
theorem paramNames_nodup_tower : ∃ d, tower.classDef? 4 = some d ∧ d.layout.paramNames.Nodup ∧
    ∃ h, (tower.heritage 4).1 = .ok h ∧ ¬ (h.params.map (·.name)).Nodup := by
  have hnames : (tower.classDef? 4).isSome := by decide +kernel
  obtain ⟨d, hd⟩ := Option.isSome_iff_exists.1 hnames
  obtain ⟨ids, hids, hiff, ⟨h, hh, hhiff⟩, -⟩ := reachable_tower.paramNames_nodup_iff hd
  have hids' : tower.superclasses 4 = .ok [2, 0] := by decide +kernel
  obtain rfl : ids = [2, 0] := Except.ok.inj (hids.symm.trans hids')
  exact ⟨d, hd, hiff.2 (by decide +kernel), h, hh, fun hn =>
    absurd (hhiff.1 hn) (by decide +kernel)⟩

/-- The lowest of the three levels has two parameters with one name. -/
theorem not_paramNames_nodup : ¬ ∀ (r : Registry Unit) (id : TypeId) (d : ClassDef Unit),
    r.Reachable → r.classDef? id = some d → d.layout.paramNames.Nodup := by
  intro hall
  have hnames : (tower.classDef? 6).map (·.layout.paramNames) = some ["T#2", "T#2"] := by
    decide +kernel
  obtain ⟨d, hd, hn⟩ := Option.map_eq_some_iff.1 hnames
  have hnodup := hall tower 6 d reachable_tower hd
  rw [hn] at hnodup
  exact absurd hnodup (by decide)

end Registry

end ClassGraph
