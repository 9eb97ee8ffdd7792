import ClassGraph.Proofs.Relabelling

/-!
# Instances as instances of an ancestor

The layout of a class begins with the layout of each of its ancestors, under a renaming of the type
parameters that is made up of one renaming for each level in between. Two parameters of an ancestor
may have one name in the class, where the levels give them the same fresh name. In an instance that
is well-typed they then have one type argument, so that its type arguments can still be read off by
place, under the names of the ancestor and under those of the class.

* `Instance.Complete.reads`: **the type arguments are read off by place**, repeated names or not.
* `Instance.upcast`: an instance cut down to what an ancestor knows of it;
  `Instance.Complete.upcast`: **cut down, a complete instance is complete.**
* `Registry.Reachable.upcast_wellTyped`: **an instance that is well-typed for a class is well-typed
  for all its ancestors.**
-/

namespace ClassGraph

variable {β : Type}

/-! ## Cutting down an instance -/

namespace Instance

variable {i : Instance} {g : Graph} {l : Layout} {f : Name → Name}

/-- **The instance cut down to a layout**: as many type arguments and values as the layout has type
parameters and fields. -/
def upcast (i : Instance) (l : Layout) : Instance :=
  ⟨l, i.typeArgs.take l.typeParams.length, i.fields.take l.fields.length⟩

/-- In a complete instance the type arguments are bound by place, even where two parameters have one
name. -/
theorem Complete.reads (hc : i.Complete g) (hs : i.Shaped) :
    i.substitution.Reads i.layout.typeParams i.typeArgs := by
  intro k p t hp ht
  obtain ⟨u, hu⟩ := Option.isSome_iff_exists.1
    (hs.contains (List.mem_map_of_mem (List.mem_of_getElem? hp)))
  have hplace : (Graph.typeArgsOf i.layout i.substitution)[k]? = some u := by
    rw [Graph.typeArgsOf, List.getElem?_map, hp, Option.map_some, hu, Option.getD_some]
  rw [hc.coherent, ht, Option.some.injEq] at hplace
  rw [hu, hplace]

theorem Shaped.upcast (hs : i.Shaped) (hl : l.Closed) (hb : l.Begins f i.layout) :
    (i.upcast l).Shaped where
  typeArgs := by
    simp [Instance.upcast, hs.typeArgs, hb.length_typeParams_le]
  fields := by
    simp [Instance.upcast, hs.fields, hb.length_fields_le]
  closed t ht := hs.closed t (List.mem_of_mem_take ht)
  layout_closed := hl

/-- What the type parameters stand for is carried over from the instance that is cut down. -/
theorem Complete.carries (hc : i.Complete g) (hs : i.Shaped) (hb : l.Begins f i.layout) :
    Substitution.Carries f l (i.upcast l).substitution i.substitution := by
  have hle : l.typeParams.length ≤ i.typeArgs.length := by
    rw [hs.typeArgs]
    exact hb.length_typeParams_le
  exact (hc.reads hs).carries hb.typeParams hle

/-- **Cut down to a layout that its own begins with**, a complete instance is complete. -/
theorem Complete.upcast (hc : i.Complete g) (hs : i.Shaped) (hl : l.Closed)
    (hb : l.Begins f i.layout) : (i.upcast l).Complete g := by
  have hs' := hs.upcast hl hb
  have hcarries := hc.carries hs hb
  refine ⟨?_, ?_, fun k x v hx hv => ?_⟩
  · -- type arguments: what the class reads, the ancestor reads
    have hreads : (i.upcast l).substitution.Reads l.typeParams (i.upcast l).typeArgs := by
      intro k p t hp ht
      have hk : k < l.typeParams.length := (List.getElem?_eq_some_iff.1 hp).1
      obtain ⟨u, hu, hu'⟩ := hcarries p.name (List.mem_map_of_mem (List.mem_of_getElem? hp))
      rw [Instance.upcast, List.getElem?_take_of_lt hk] at ht
      have hread := hc.reads hs k _ t (hb.getElem?_typeParams hp) ht
      rw [TypeParam.name_rename, hu', Option.some.injEq] at hread
      rw [hu, hread]
    have htake := hreads.take_typeArgsOf (Nat.le_of_eq hs'.typeArgs)
    rwa [hs'.typeArgs, List.take_of_length_le] at htake
    simp [Graph.typeArgsOf, Instance.upcast]
  · -- bounds
    exact Graph.violated?_eq_none_iff.2
      (hcarries.withinBounds hb hl (Graph.violated?_eq_none_iff.1 hc.bounds))
  · -- fields
    have hk : k < l.fields.length := (List.getElem?_eq_some_iff.1 hx).1
    have hx' := hb.getElem?_fields hx
    have hv' : i.fields[k]? = some v := by
      rwa [Instance.upcast, List.getElem?_take_of_lt hk] at hv
    have hfit := (hs.matches_iff hx' v).1 (hc.values k _ v hx' hv')
    rw [Field.ty_rename, hcarries.subst_eq (hl.field (List.mem_of_getElem? hx))] at hfit
    exact (hs'.matches_iff hx v).2 hfit

/-- **To be well-typed for a class** is to have its layout, to be of the shape that it demands, and
to be complete. -/
theorem wellTyped_iff {s : ClassDef β} (hl : s.layout.Closed) :
    i.WellTyped g s ↔ i.layout = s.layout ∧ i.Shaped ∧ i.Complete g := by
  constructor
  · intro hi
    obtain ⟨hlen, hf⟩ := hi.fills hl
    have hσ : (Substitution.ofArgs s.layout.typeParams i.typeArgs).Closed :=
      Substitution.Closed.empty.bindAll _ hi.closed
    -- the instance is what the instantiation makes of its own type arguments
    obtain ⟨-, heq⟩ := (Graph.instantiate_eq_ok_iff hl hσ
      (by simp [Graph.startBindings, hlen, Substitution.ofArgs]) hf.bound).1 hi.again
    have hshape := shaped_typeArgsOf hl hσ hf.length
    have hcomplete := complete_typeArgsOf hl hσ hf.length hf.bound
      (Graph.violated?_eq_none_iff.2 hf.within) hf.fits
    rw [← heq] at hshape hcomplete
    exact ⟨congrArg Instance.layout heq, hshape, hcomplete⟩
  · rintro ⟨hlayout, hs, hc⟩
    exact ⟨hs.closed, hlayout ▸ hs.instantiate_eq hc⟩

end Instance

namespace Registry

variable {r : Registry β} {id : TypeId} {c : ClassDef β}

/-- **Upcasts are sound.** An instance that is well-typed for a class is, cut down to the type
parameters and the fields of any ancestor, well-typed for that ancestor: it can be instantiated
from these type arguments and values, and comes out with just these. -/
theorem Reachable.upcast_wellTyped (hr : r.Reachable) (hc : r.classDef? id = some c) :
    ∃ ids, r.superclasses id = .ok ids ∧ ∀ a ∈ ids, ∃ s, r.classDef? a = some s ∧
      (a ≠ rootId → r.instantiable a = .ok s) ∧
      ∀ i : Instance, i.WellTyped r.graph c →
        (i.upcast s.layout).WellTyped r.graph s ∧
        r.graph.instantiate s.layout (some (i.typeArgs.take s.typeParams.length)) ∅
            (i.fields.take s.layout.fields.length) =
          .ok ⟨s.layout, i.typeArgs.take s.typeParams.length,
            i.fields.take s.layout.fields.length⟩ := by
  have hok := hr.ok
  obtain ⟨ids, hchain, hids⟩ := hok.superclasses hc
  refine ⟨ids, hids, fun a ha => ?_⟩
  obtain ⟨s, f, hs, hb⟩ := hchain.begins hok hc a ha
  refine ⟨s, hs, fun hroot => hok.instantiable hs hroot, fun i hi => ?_⟩
  have hcl : c.layout.Closed := (hok.closed hc).layout
  have hsl : s.layout.Closed := (hok.closed hs).layout
  obtain ⟨hlayout, hshape, hcomplete⟩ := (Instance.wellTyped_iff hcl).1 hi
  rw [← hlayout] at hb
  have hup : (i.upcast s.layout).WellTyped r.graph s :=
    (Instance.wellTyped_iff hsl).2
      ⟨rfl, hshape.upcast hsl hb, hcomplete.upcast hshape hsl hb⟩
  exact ⟨hup, hup.again⟩

/-! ## A tanker is a vessel -/

/-- Three classes, each below the one before it. The first two declare a parameter `T` each, and the
third has both of them under one name. -/
def harbour : Registry Unit :=
  (ofSettings .standard).afterAll [
    .define ⟨"Vessel", none, [⟨"T", .prim .number⟩], false, [.field ⟨"load", .param "T"⟩]⟩,
    .define ⟨"Ship", some "Vessel", [⟨"T", .any⟩], false, []⟩,
    .define ⟨"Tanker", some "Ship", [], false, []⟩]

theorem reachable_harbour : harbour.Reachable := ⟨.standard, _, rfl, leads_afterAll _ _⟩

/-- Two levels up, a tanker of integers is a vessel of integers, with the same load. -/
theorem upcast_wellTyped_harbour : ∃ c s, harbour.classDef? 6 = some c ∧
    harbour.classDef? 2 = some s ∧
    c.layout.paramNames = ["T#2", "T#2"] ∧ s.layout.paramNames = ["T"] ∧
    Instance.WellTyped harbour.graph c ⟨c.layout, [.prim .int, .prim .int], [.int 7]⟩ ∧
    harbour.graph.instantiate s.layout (some [.prim .int]) ∅ [.int 7] =
      .ok ⟨s.layout, [.prim .int], [.int 7]⟩ := by
  have hnames : (harbour.classDef? 6).map (·.layout.paramNames) = some ["T#2", "T#2"] := by
    decide +kernel
  have hagain : (harbour.classDef? 6).map (fun c => isOfInt c.layout [.prim .int, .prim .int] 7
      (harbour.graph.instantiate c.layout (some [.prim .int, .prim .int]) ∅ [.int 7])) =
      some true := by decide +kernel
  have hvessel : (harbour.classDef? 2).map (fun s =>
      (s.layout.paramNames, s.typeParams.length, s.layout.fields.length)) =
      some (["T"], 1, 1) := by decide +kernel
  obtain ⟨c, hc, hnames⟩ := Option.map_eq_some_iff.1 hnames
  obtain ⟨ids, hids, hall⟩ := reachable_harbour.upcast_wellTyped hc
  have hids' : harbour.superclasses 6 = .ok [4, 2, 0] := by decide +kernel
  obtain rfl : ids = [4, 2, 0] := Except.ok.inj (hids.symm.trans hids')
  obtain ⟨s, hs, -, hup⟩ := hall 2 (by decide)
  rw [hc, Option.map_some, Option.some.injEq] at hagain
  rw [hs, Option.map_some, Option.some.injEq, Prod.mk.injEq, Prod.mk.injEq] at hvessel
  obtain ⟨hparams, hone, hfield⟩ := hvessel
  have hwell : Instance.WellTyped harbour.graph c
      ⟨c.layout, [.prim .int, .prim .int], [.int 7]⟩ :=
    ⟨by simp [Ty.isClosed], eq_ok_of_isOfInt hagain⟩
  have hnew := (hup _ hwell).2
  simp only [hone, hfield, List.take_succ_cons, List.take_zero] at hnew
  exact ⟨c, s, hc, hs, hnames, hparams, hwell, hnew⟩

end Registry

end ClassGraph
