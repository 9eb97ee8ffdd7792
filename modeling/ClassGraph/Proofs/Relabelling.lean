import ClassGraph.Construct.Run
import ClassGraph.Proofs.Carrying
import ClassGraph.Proofs.Specificity

/-!
# Guides relabel

A class that adds no fields to its superclass takes over the constructors of the superclass
through guides. A guide has the constructor of the superclass called once, one deeper and with the
type arguments that belong to the superclass, and makes the result an instance of the class.

That this can be done needs a comparison of the two layouts. The fields and the bounds of the
superclass come back in the class with the parameters renamed. If no two parameters of the class
have one name, a type argument is bound under the old name and under the new one alike, so what
fitted the one layout fits the other.

* `Graph.Fills`: values fill a layout under some bindings; `Graph.instantiate_eq_ok_iff`: then, and
  only then, they can be instantiated.
* `Registry.Extends.fills`: **what fills the superclass fills the class.**
* `Registry.Extends.relabel_inferred`, `Registry.Extends.relabel_given`: so the relabelling succeeds,
  with the same field values.
* `Registry.Made.guides`: the guides of a class, one by one.
* `World.guides_relabel`: **the guides of a class in a reachable registry**, and what they do.
-/

namespace ClassGraph

variable {β : Type}

/-! ## Filling a layout -/

namespace Graph

variable {g : Graph} {l : Layout} {σ σ' : Substitution} {values : List Value}

/-- **The values fill the layout** under the bindings `σ`: there is one for each field and it fits,
and all parameters are bound within their bounds. -/
structure Fills (g : Graph) (l : Layout) (σ : Substitution) (values : List Value) : Prop where
  length : values.length = l.fields.length
  fits : ∀ x ∈ l.fields.zip values, g.fits (x.1.ty.subst σ) x.2 = true
  bound : ∀ n ∈ l.paramNames, σ.contains n = true
  within : g.WithinBounds σ l.typeParams

/-- **Values can be instantiated just when they fill the layout**, if the bindings to start from bind
all parameters. -/
theorem instantiate_eq_ok_iff {typeArgs : Option (List Ty)} {seed : Substitution} {i : Instance}
    (hl : l.Closed) (hσ : σ.Closed) (hstart : startBindings l typeArgs seed = .ok σ)
    (hb : ∀ n ∈ l.paramNames, σ.contains n = true) :
    g.instantiate l typeArgs seed values = .ok i ↔
      g.Fills l σ values ∧ i = ⟨l, typeArgsOf l σ, values⟩ := by
  have hslots : ∀ x ∈ l.fields.zip values, ∀ n ∈ x.1.ty.params, σ.contains n = true :=
    fun x hx n hn => hb n (hl.field (List.of_mem_zip hx).1 n hn)
  constructor
  · intro h
    obtain ⟨hlen, s, s', hs, hm, he, rfl⟩ := instantiate_ok h
    cases hstart.symm.trans hs
    obtain ⟨rfl, hfits⟩ := (matchSlots_bound hσ hslots).1 hm
    obtain ⟨-, hviol⟩ := bindingError?_eq_none_iff.1 he
    exact ⟨⟨hlen, hfits, hb, violated?_eq_none_iff.1 hviol⟩, rfl⟩
  · rintro ⟨hf, rfl⟩
    have hmatch : g.matchFields σ l.fields values = .ok σ :=
      (matchSlots_bound hσ hslots).2 ⟨rfl, hf.fits⟩
    have herr : g.bindingError? l σ = none :=
      bindingError?_eq_none_iff.2 ⟨hb, violated?_eq_none_iff.2 hf.within⟩
    rw [instantiate, if_neg (by simp [hf.length])]
    simp only [hstart, hmatch, herr]

/-- Only what stands for the parameters counts. -/
theorem WithinBounds.congr (h : g.WithinBounds σ l.typeParams) (hl : l.Closed)
    (hσ : ∀ n ∈ l.paramNames, σ'.get? n = σ.get? n) : g.WithinBounds σ' l.typeParams := by
  intro p hp t ht
  rw [hσ p.name (List.mem_map_of_mem hp)] at ht
  rw [Ty.subst_congr fun n hn => hσ n (hl.bound hp n hn)]
  exact h p hp t ht

end Graph

/-! ## From the superclass to the class -/

/-- **Values that fill a layout** fit its fields under the new names too. -/
theorem Graph.Fills.fits_renamed {g : Graph} {l : Layout} {f : Name → Name} {σ σ' : Substitution}
    {values : List Value} (hf : g.Fills l σ values) (hl : l.Closed)
    (hc : Substitution.Carries f l σ σ') :
    ∀ x ∈ (l.fields.map (·.rename f)).zip values, g.fits (x.1.ty.subst σ') x.2 = true := by
  rw [List.zip_map_left]
  intro x hx
  obtain ⟨y, hy, rfl⟩ := List.mem_map.1 hx
  have hsame := hc.subst_eq (hl.field (List.of_mem_zip hy).1)
  have hfit := hf.fits y hy
  rw [← hsame] at hfit
  exact hfit

/-- **The bounds of a layout** include those of a layout that it begins with. -/
theorem Substitution.Carries.withinBounds {g : Graph} {l l' : Layout} {f : Name → Name}
    {σ σ' : Substitution} (hc : Substitution.Carries f l σ σ') (hb : l.Begins f l')
    (hl : l.Closed) (hw : g.WithinBounds σ' l'.typeParams) : g.WithinBounds σ l.typeParams := by
  intro p hp t ht
  have hp' : p.rename f ∈ l'.typeParams := hb.typeParams.subset (List.mem_map_of_mem hp)
  obtain ⟨u, hu, hu'⟩ := hc p.name (List.mem_map_of_mem hp)
  obtain rfl : u = t := Option.some.inj (hu.symm.trans ht)
  have hbound := hw _ hp' u hu'
  rwa [TypeParam.bound_rename, hc.subst_eq (hl.bound hp)] at hbound

namespace Registry

variable {r : Registry β} {c s : ClassDef β} {decl : ClassDecl β} {h : Heritage} {n : Nat}
  {g : Graph} {σ σ' : Substitution} {us ts : List Ty} {values : List Value}

/-- **An inherited parameter** stands for a type within its bound. -/
theorem Extends.inherited_within (he : r.Extends decl c s h n) (hs : s.layout.Closed)
    (hc : Substitution.Carries (freshName n) s.layout σ σ')
    (hw : g.WithinBounds σ s.layout.typeParams) {q : TypeParam} (hq : q ∈ h.params) :
    ∃ t, σ'.get? q.name = some t ∧ g.isSubtypeOf t (q.bound.subst σ') = true := by
  rw [he.params] at hq
  obtain ⟨p, hp, rfl⟩ := List.mem_map.1 hq
  obtain ⟨t, ht, ht'⟩ := hc p.name (List.mem_map_of_mem hp)
  refine ⟨t, ht', ?_⟩
  rw [TypeParam.bound_rename, hc.subst_eq (hs.bound hp)]
  exact hw p hp t ht

/-- The type arguments of the class suffice for the superclass. -/
theorem Extends.length_le (he : r.Extends decl c s h n)
    (hus : us.length = c.layout.typeParams.length) : s.layout.typeParams.length ≤ us.length := by
  rw [hus]
  exact he.begins.length_typeParams_le

/-- **What fills the superclass fills the class**, if the class declares no fields of its own and
the type arguments keep within its bounds. -/
theorem Extends.fills (he : r.Extends decl c s h n) (hs : s.layout.Closed)
    (hnodup : c.layout.paramNames.Nodup) (hlocal : decl.fields = [])
    (hus : us.length = c.layout.typeParams.length)
    (hf : g.Fills s.layout (.ofArgs s.layout.typeParams (us.take s.layout.typeParams.length)) values)
    (hbounds : g.WithinBounds (σ.bindAll c.layout.typeParams us) c.layout.typeParams) :
    g.Fills c.layout (σ.bindAll c.layout.typeParams us) values where
  length := by
    rw [he.fields, hlocal, List.append_nil, he.renamed, List.length_map, hf.length]
  fits := by
    rw [he.fields, hlocal, List.append_nil, he.renamed]
    exact hf.fits_renamed hs (he.carries hnodup (he.length_le hus) ∅ σ)
  bound _ hm := Substitution.contains_bindAll hus hm
  within := hbounds

/-- The bounds of a class without parameters of its own are those of the superclass. -/
theorem Extends.withinBounds (he : r.Extends decl c s h n) (hs : s.layout.Closed)
    (hnodup : c.layout.paramNames.Nodup) (hown : decl.typeParams = [])
    (hus : us.length = c.layout.typeParams.length)
    (hb : g.WithinBounds (.ofArgs s.layout.typeParams (us.take s.layout.typeParams.length))
      s.layout.typeParams) :
    g.WithinBounds (σ.bindAll c.layout.typeParams us) c.layout.typeParams := by
  intro p hp t ht
  rw [he.typeParams, hown, List.append_nil] at hp
  obtain ⟨u, hu, hwithin⟩ :=
    he.inherited_within hs (he.carries hnodup (he.length_le hus) ∅ σ) hb hp
  obtain rfl : u = t := Option.some.inj (hu.symm.trans ht)
  exact hwithin

end Registry

/-! ## Relabelling -/

namespace Graph

variable {g : Graph} {σ σ' : Substitution} {l : Layout} {us : List Ty}

/-- Whatever was bound before, the parameters are bound to the new types. -/
theorem WithinBounds.bindAll (h : g.WithinBounds (σ.bindAll l.typeParams us) l.typeParams)
    (hl : l.Closed) (hnodup : l.paramNames.Nodup) (hus : us.length = l.typeParams.length)
    (σ' : Substitution) : g.WithinBounds (σ'.bindAll l.typeParams us) l.typeParams := by
  refine h.congr hl fun n hn => ?_
  obtain ⟨p, hp, rfl⟩ := List.mem_map.1 hn
  obtain ⟨k, hk⟩ := List.mem_iff_getElem?.1 hp
  have hlt : k < l.typeParams.length := (List.getElem?_eq_some_iff.1 hk).1
  have hu : us[k]? = some us[k] := List.getElem?_eq_getElem (by omega)
  rw [Substitution.get?_bindAll_of_nodup hnodup hk hu,
    Substitution.get?_bindAll_of_nodup hnodup hk hu]

end Graph

/-- **The instance is well-typed for the class `s`**: its type arguments are closed, and together
with its fields they make it an instance of `s` once more. -/
structure Instance.WellTyped (g : Graph) (s : ClassDef β) (i : Instance) : Prop where
  closed : ∀ t ∈ i.typeArgs, t.isClosed = true
  again : g.instantiate s.layout (some i.typeArgs) ∅ i.fields = .ok i

theorem Instance.WellTyped.fills {g : Graph} {s : ClassDef β} {i : Instance} (h : i.WellTyped g s)
    (hs : s.layout.Closed) :
    i.typeArgs.length = s.layout.typeParams.length ∧
      g.Fills s.layout (.ofArgs s.layout.typeParams i.typeArgs) i.fields := by
  obtain ⟨-, σ, -, hstart, -⟩ := Graph.instantiate_ok h.again
  have hlen : i.typeArgs.length = s.layout.typeParams.length := by
    by_contra hne
    simp [Graph.startBindings, hne] at hstart
  have hstart' : Graph.startBindings s.layout (some i.typeArgs) ∅ =
      .ok (.ofArgs s.layout.typeParams i.typeArgs) := by
    simp [Graph.startBindings, hlen, Substitution.ofArgs]
  have hclosed : (Substitution.ofArgs s.layout.typeParams i.typeArgs).Closed :=
    Substitution.Closed.empty.bindAll _ h.closed
  have hbound : ∀ n ∈ s.layout.paramNames,
      (Substitution.ofArgs s.layout.typeParams i.typeArgs).contains n = true :=
    fun n hn => Substitution.contains_bindAll hlen hn
  exact ⟨hlen, ((Graph.instantiate_eq_ok_iff hs hclosed hstart' hbound).1 h.again).1⟩

namespace Registry

variable {r r' : Registry β} {c s : ClassDef β} {decl : ClassDecl β} {h : Heritage} {n : Nat}
  {i : Instance} {us : List Ty}

/-- **Without type arguments** an instance of the superclass becomes one of a class that has no
parameters of its own: with the same type arguments and the same values. -/
theorem Extends.relabel_inferred (he : r.Extends decl c s h n) (hc : c.layout.Closed)
    (hs : s.layout.Closed) (hnodup : c.layout.paramNames.Nodup) (hlocal : decl.fields = [])
    (hown : c.typeParams.length = s.typeParams.length) (hi : i.WellTyped r'.graph s) :
    c.relabel r' s none i = .ok ⟨c.layout, i.typeArgs, i.fields⟩ := by
  obtain ⟨hlen, hfills⟩ := hi.fills hs
  have hlenc : i.typeArgs.length = c.layout.typeParams.length := hlen.trans hown.symm
  have hparams : decl.typeParams = [] := by
    have hsum : c.layout.typeParams.length = s.layout.typeParams.length := hown
    rw [he.typeParams, he.params, List.length_append, List.length_map] at hsum
    exact List.length_eq_zero_iff.1 (by omega)
  have htake : i.typeArgs.take s.layout.typeParams.length = i.typeArgs :=
    List.take_of_length_le (by omega)
  rw [← htake] at hfills
  -- the result of the superclass's constructor gives all bindings to start from
  have hseed : c.typeParams.take s.typeParams.length = c.layout.typeParams :=
    List.take_of_length_le (Nat.le_of_eq hown)
  have hbounds := he.withinBounds (σ := ∅) hs hnodup hparams hlenc hfills.within
  have hnew := he.fills hs hnodup hlocal hlenc hfills hbounds
  rw [ClassDef.relabel, hseed]
  refine (Graph.instantiate_eq_ok_iff hc (Substitution.Closed.empty.bindAll _ hi.closed) rfl
    hnew.bound).2 ⟨hnew, ?_⟩
  rw [Substitution.typeArgsOf_bindAll hnodup hlenc]

/-- **With type arguments** that begin with those of the instance and keep within the bounds, it
becomes an instance of the class with these type arguments, and with the same values. -/
theorem Extends.relabel_given (he : r.Extends decl c s h n) (hc : c.layout.Closed)
    (hs : s.layout.Closed) (hnodup : c.layout.paramNames.Nodup) (hlocal : decl.fields = [])
    (hus : ∀ t ∈ us, t.isClosed = true) (htake : us.take s.typeParams.length = i.typeArgs)
    (hadm : r'.graph.Admits c (some us)) (hi : i.WellTyped r'.graph s) :
    c.relabel r' s (some us) i = .ok ⟨c.layout, us, i.fields⟩ := by
  obtain ⟨-, hfills⟩ := hi.fills hs
  obtain ⟨hlen, hwithin⟩ := hadm us rfl
  rw [← htake] at hfills
  -- the type arguments win over what the result gives
  have hbounds := hwithin.bindAll hc hnodup hlen
    (.ofArgs (c.typeParams.take s.typeParams.length) i.typeArgs)
  have hnew := he.fills hs hnodup hlocal hlen hfills hbounds
  have hclosed := ((Substitution.Closed.empty.bindAll
    (c.typeParams.take s.typeParams.length) hi.closed).bindAll c.layout.typeParams hus)
  have hstart : Graph.startBindings c.layout (some us)
      (.ofArgs (c.typeParams.take s.typeParams.length) i.typeArgs) =
        .ok (Substitution.bindAll (.ofArgs (c.typeParams.take s.typeParams.length) i.typeArgs)
          c.layout.typeParams us) := by
    have hlen' : us.length = c.layout.typeParams.length := hlen
    simp [Graph.startBindings, hlen']
  rw [ClassDef.relabel]
  refine (Graph.instantiate_eq_ok_iff hc hclosed hstart hnew.bound).2 ⟨hnew, ?_⟩
  rw [Substitution.typeArgsOf_bindAll hnodup hlen]

end Registry

/-! ## The guides of a class -/

/-- The constructors that guides lead to, with their places: all but the default ones. -/
def ClassDef.guided (s : ClassDef β) : List (Constructor β × Nat) :=
  s.constructors.zipIdx.filter fun x => !x.1.isDefault

/-- The constructor `e` is a guide to the constructor `x.1` at the place `x.2`, of the same shape. -/
structure Constructor.LeadsTo (e : Constructor β) (x : Constructor β × Nat) : Prop where
  kind : e.kind = .guide x.2
  arity : e.arity = x.1.arity
  parametrized : e.parametrized = x.1.parametrized

theorem guides_eq (s : ClassDef β) (subst : Substitution) :
    guides s subst = s.guided.map fun x => x.1.toGuide subst x.2 := by
  rw [guides, ClassDef.guided]
  induction s.constructors.zipIdx with
  | nil => rfl
  | cons x xs ih =>
    obtain ⟨c, k⟩ := x
    cases hd : c.isDefault <;> simp [hd, ih]

theorem Constructor.arity_toGuide (c : Constructor β) (subst : Substitution) (k : Nat) :
    (c.toGuide subst k).arity = c.arity := List.length_map _

theorem Constructor.toGuide_leadsTo (x : Constructor β × Nat) (subst : Substitution) :
    (x.1.toGuide subst x.2).LeadsTo x where
  kind := rfl
  arity := arity_toGuide x.1 subst x.2
  parametrized := rfl

/-- The guides lead to what they can lead to, in that order. -/
theorem guides_leadTo (s : ClassDef β) (subst : Substitution) :
    List.Forall₂ Constructor.LeadsTo (guides s subst) s.guided := by
  rw [guides_eq, List.forall₂_map_left_iff, List.forall₂_same]
  exact fun x _ => Constructor.toGuide_leadsTo x _

/-- **A class without fields of its own** has guides behind its other constructors, one for each
constructor of the superclass that is no default one. -/
theorem Registry.Made.guides {r : Registry β} {decl : ClassDecl β} {o : Outline β} {h : Heritage}
    {c : ClassDef β} (hm : r.Made decl o h c) (hlocal : c.layout.localFields = [])
    (hs : o.superDef.id ≠ rootId) :
    ∃ front back, c.constructors = front ++ back ∧ (∀ e ∈ front, e.role ≠ .guide) ∧
      List.Forall₂ Constructor.LeadsTo back o.superDef.guided := by
  have hfields : c.layout.fields.length = h.fields.length := by
    rw [Layout.localFields, hm.fields, hm.inherited, List.drop_left] at hlocal
    rw [hm.fields, hlocal, List.append_nil]
  refine ⟨o.userConstructors.map (·.toConstructor) ++
    defaultConstructors c.layout.typeParams c.layout.fields ++
    copyExtendConstructors o.superDef.name c.layout.fields h.fields.length,
    ClassGraph.guides o.superDef h.substitution, ?_, fun e he hrole => ?_, guides_leadTo _ _⟩
  · rw [hm.constructors, guideConstructors, if_pos ⟨hfields, hs⟩]
  · rw [Constructor.role] at hrole
    rw [List.mem_append, List.mem_append] at he
    rcases he with (he | he) | he
    · obtain ⟨u, -, rfl⟩ := List.mem_map.1 he
      cases hrole
    · rw [(mem_defaultConstructors he).2] at hrole
      cases hrole
    · rw [mem_copyExtendConstructors he] at hrole
      cases hrole

/-! ## Invoking a guide -/

/-- Invokes a constructor while so many are at work. -/
def invokeAt (construct : Construction) (depth : Nat) : Invocation := fun d index typeArgs args w =>
  invoke construct (w.registry.settings.maxConstructorDepth - depth) d index typeArgs args w

/-- **Below the limit** the constructor does what it is there for, and one more is at work. -/
theorem invokeAt_eq (construct : Construction) {depth : Nat} {w : World}
    (hdepth : depth < w.registry.settings.maxConstructorDepth) {c : ClassDef Body} {k : Nat}
    {e : Constructor Body} (he : c.constructors[k]? = some e) (typeArgs : Option (List Ty))
    (args : List Value) :
    invokeAt construct depth c k typeArgs args w =
      runConstructor construct
        (invoke construct (w.registry.settings.maxConstructorDepth - (depth + 1))) (depth + 1) c e
        typeArgs args w := by
  obtain ⟨rest, hrest⟩ : ∃ n, w.registry.settings.maxConstructorDepth - depth = n + 1 :=
    ⟨w.registry.settings.maxConstructorDepth - depth - 1, by omega⟩
  have hleft : w.registry.settings.maxConstructorDepth - (depth + 1) = rest := by omega
  have hwork : w.registry.settings.maxConstructorDepth - rest = depth + 1 := by omega
  simp only [invokeAt, hrest, invoke, invokeOr, he, hleft, hwork]

/-- **The guide hands on.** Below the limit, its constructor of the superclass is invoked once, one
deeper, and the result relabelled. -/
theorem invokeAt_guide (construct : Construction) {depth : Nat} {w : World}
    (hdepth : depth < w.registry.settings.maxConstructorDepth) {c s : ClassDef Body} {j k : Nat}
    {e : Constructor Body} (he : c.constructors[j]? = some e) (hk : e.kind = .guide k)
    (ht : c.guideTarget w.registry = .ok s) (typeArgs : Option (List Ty)) (args : List Value) :
    invokeAt construct depth c j typeArgs args w =
      (invokeAt construct (depth + 1) s k (typeArgs.map (·.take s.typeParams.length)) args
        w).andThen fun r => c.relabel r s typeArgs := by
  rw [invokeAt_eq construct hdepth he]
  simp only [runConstructor, hk, runGuide, ht, invokeAt]

/-- **What a guide of `c` to a constructor of `s` comes to**, in terms of what that constructor comes
to, with the type arguments of the call. The world, and so the log, is the one that the constructor
leaves. -/
structure Guided (c s : ClassDef Body) (typeArgs : Option (List Ty)) (inner outer : Outcome) :
    Prop where
  once : outer = inner.andThen fun r => c.relabel r s typeArgs
  error : ∀ e w, inner = some (.error e, w) → outer = some (.error e, w)
  inferred : ∀ i w, inner = some (.ok i, w) → i.WellTyped w.registry.graph s →
    c.layout.paramNames.Nodup → typeArgs = none → c.typeParams.length = s.typeParams.length →
    outer = some (.ok ⟨c.layout, i.typeArgs, i.fields⟩, w)
  given : ∀ i w us, inner = some (.ok i, w) → i.WellTyped w.registry.graph s →
    c.layout.paramNames.Nodup → typeArgs = some us → (∀ t ∈ us, t.isClosed = true) →
    us.take s.typeParams.length = i.typeArgs → w.registry.graph.Admits c typeArgs →
    outer = some (.ok ⟨c.layout, us, i.fields⟩, w)

/-- **Guides relabel, exactly once.** A class without fields of its own, below another one than the
root, has a guide to each constructor of the superclass that is no default one, in their order and
behind its other constructors. Invoked below the limit, a guide has its constructor invoked one
deeper with the type arguments that belong to the superclass. It passes on errors, and makes an
instance that is well-typed for the superclass an instance of the class. -/
theorem World.guides_relabel {w : World} (hr : w.registry.Reachable) {c s : ClassDef Body}
    (hc : w.registry.classDef? c.id = some c) (hs : w.registry.classDef? s.id = some s)
    (hsup : c.superclass = some s.id) (hsid : s.id ≠ rootId) (hlocal : c.layout.localFields = []) :
    (∃ front back, c.constructors = front ++ back ∧ (∀ e ∈ front, e.role ≠ .guide) ∧
      List.Forall₂ Constructor.LeadsTo back s.guided) ∧
    ∀ j e k, c.constructors[j]? = some e → e.kind = .guide k →
      ∀ construct depth typeArgs args, depth < w.registry.settings.maxConstructorDepth →
        Guided c s typeArgs
          (invokeAt construct (depth + 1) s k (typeArgs.map (·.take s.typeParams.length)) args w)
          (invokeAt construct depth c j typeArgs args w) := by
  obtain ⟨decl, o, h, hm, hsuper⟩ := hr.ok.made_on hc hsup
  obtain rfl : s = o.superDef := Option.some.inj (hs.symm.trans hsuper)
  obtain ⟨n, he⟩ := hm.extends hr.ok
  have hclosed : c.layout.Closed := (hr.ok.closed hc).layout
  have hsclosed : o.superDef.layout.Closed := (hr.ok.closed hs).layout
  have hfields : decl.fields = [] := by
    rw [Layout.localFields, hm.fields, hm.inherited, List.drop_left, hm.localFields] at hlocal
    exact hlocal
  have htarget : c.guideTarget w.registry = .ok o.superDef := by
    rw [ClassDef.guideTarget, hsup]
    exact hr.ok.instantiable hs hsid
  refine ⟨hm.guides hlocal hsid, fun j e k hj hk construct depth typeArgs args hdepth => ?_⟩
  have honce := invokeAt_guide construct hdepth hj hk htarget typeArgs args
  refine ⟨honce, fun err w' hinner => ?_, ?_, ?_⟩
  · rw [honce, hinner]
    rfl
  · rintro i w' hinner hi hnodup rfl hown
    have hrel := he.relabel_inferred hclosed hsclosed hnodup hfields hown hi
    rw [honce, hinner]
    simp only [Outcome.andThen, Option.map_some, Except.bind, hrel]
  · rintro i w' us hinner hi hnodup rfl hus htake hadm
    have hrel := he.relabel_given hclosed hsclosed hnodup hfields hus htake hadm hi
    rw [honce, hinner]
    simp only [Outcome.andThen, Option.map_some, Except.bind, hrel]

/-! ## A parcel is a crate -/

/-- A class of one field, whose constructor takes two values and keeps the first. -/
def crate : ClassDecl Body :=
  ⟨"Crate", none, [⟨"T", .prim .number⟩], false, [
    .field ⟨"x", .param "T"⟩,
    .ctor ⟨"Crate", [⟨"x", .param "T"⟩, ⟨"y", .param "T"⟩], true,
      fun _ args => .log (.str "packed") (.newInstance (args.take 1) .done)⟩]⟩

/-- A class below it with one more type parameter and no field. -/
def parcel : ClassDecl Body := ⟨"Parcel", some "Crate", [⟨"U", .any⟩], false, []⟩

/-- A world with the two classes. -/
def depot : World :=
  .ofRegistry (((Registry.ofSettings .standard).after (.define crate)).after (.define parcel))

theorem reachable_depot : depot.registry.Reachable := by
  have hstart : (Registry.ofSettings .standard : Registry Body).Reachable :=
    ⟨.standard, _, rfl, .refl⟩
  exact (hstart.after (.define crate)).after (.define parcel)

/-- The number, if the value is one. -/
def Value.int? : Value → Option Int64
  | .int n => some n
  | _ => none

theorem Value.int?_eq_some {v : Value} {n : Int64} (h : v.int? = some n) : v = .int n := by
  cases v with
  | int m => exact congrArg Value.int (Option.some.inj h)
  | nothing | bool _ | float _ | str _ | list _ | object _ => cases h

/-- The result is an instance with this layout, these type arguments and this number as its only
field. -/
def isOfInt (l : Layout) (ts : List Ty) (n : Int64) : Except Error Instance → Bool
  | .error _ => false
  | .ok i => i.layout = l ∧ i.typeArgs = ts ∧ i.fields.map Value.int? = [some n]

theorem eq_ok_of_isOfInt {x : Except Error Instance} {l : Layout} {ts : List Ty} {n : Int64}
    (h : isOfInt l ts n x = true) : x = .ok ⟨l, ts, [.int n]⟩ := by
  cases x with
  | error e => cases h
  | ok i =>
    obtain ⟨layout, typeArgs, fields⟩ := i
    obtain ⟨rfl, rfl, hfields⟩ := of_decide_eq_true h
    obtain ⟨v, rfl, hv⟩ := List.map_eq_singleton_iff.1 hfields
    rw [Value.int?_eq_some hv]

/-- No construction from outside. -/
def nowhere : Construction := fun _ _ _ _ => none

/-- The first constructor of the crate packs two numbers into an instance that is well-typed. It is
the only one that guides lead to. -/
theorem packed_depot : ∃ s w', depot.registry.classDef? 2 = some s ∧ s.typeParams.length = 1 ∧
    s.guided.map (·.2) = [0] ∧
    invokeAt nowhere 1 s 0 (some [.prim .int]) [.int 1, .int 2] depot =
      some (.ok ⟨s.layout, [.prim .int], [.int 1]⟩, w') ∧
    Instance.WellTyped w'.registry.graph s ⟨s.layout, [.prim .int], [.int 1]⟩ ∧
    w'.registry.graph = depot.registry.graph ∧ w'.log.length = 1 := by
  have hclass : (depot.registry.classDef? 2).map (fun s =>
      (s.typeParams.length, s.guided.map (·.2))) = some (1, [0]) := by decide +kernel
  have hrun : ((depot.registry.classDef? 2).bind fun s => (invokeAt nowhere 1 s 0
      (some [.prim .int]) [.int 1, .int 2] depot).map fun x =>
        (isOfInt s.layout [.prim .int] 1 x.1,
          decide (x.2.registry.graph = depot.registry.graph), x.2.log.length)) =
      some (true, true, 1) := by decide +kernel
  have hagain : ((depot.registry.classDef? 2).map fun s => isOfInt s.layout [.prim .int] 1
      (depot.registry.graph.instantiate s.layout (some [.prim .int]) ∅ [.int 1])) = some true := by
    decide +kernel
  obtain ⟨s, hs, hclass⟩ := Option.map_eq_some_iff.1 hclass
  rw [hs, Option.bind_some] at hrun
  rw [hs, Option.map_some, Option.some.injEq] at hagain
  obtain ⟨⟨result, w'⟩, hinner, hresult⟩ := Option.map_eq_some_iff.1 hrun
  simp only [Prod.mk.injEq, decide_eq_true_eq] at hclass hresult
  obtain ⟨hpacked, hgraph, hlog⟩ := hresult
  obtain rfl := eq_ok_of_isOfInt hpacked
  refine ⟨s, w', hs, hclass.1, hclass.2, hinner, ⟨by simp [Ty.isClosed], ?_⟩, hgraph, hlog⟩
  rw [hgraph]
  exact eq_ok_of_isOfInt hagain

/-- The parcel has a guide in the fourth place, and admits an integer and a string. -/
theorem parcel_depot : ∃ c e, depot.registry.classDef? 4 = some c ∧ c.superclass = some 2 ∧
    c.layout.localFields = [] ∧ c.layout.paramNames.Nodup ∧ c.constructors[3]? = some e ∧
    e.role = .guide ∧ depot.registry.graph.Admits c (some [.prim .int, .prim .str]) := by
  have hclass : (depot.registry.classDef? 4).map (fun c =>
      (c.superclass, c.layout.localFields, c.layout.paramNames, c.typeParams.length)) =
      some (some 2, [], ["T#1", "U"], 2) := by decide +kernel
  have hguide : ((depot.registry.classDef? 4).bind (·.constructors[3]?)).map (·.role) =
      some .guide := by decide +kernel
  have hwithin : (depot.registry.classDef? 4).map (fun c => (depot.registry.graph.violated?
      (.ofArgs c.typeParams [.prim .int, .prim .str]) c.typeParams).isNone) = some true := by
    decide +kernel
  obtain ⟨c, hc, hclass⟩ := Option.map_eq_some_iff.1 hclass
  rw [hc, Option.bind_some] at hguide
  rw [hc, Option.map_some, Option.some.injEq, Option.isNone_iff_eq_none] at hwithin
  obtain ⟨e, he, hrole⟩ := Option.map_eq_some_iff.1 hguide
  simp only [Prod.mk.injEq] at hclass
  obtain ⟨hsup, hlocal, hnames, hlen⟩ := hclass
  refine ⟨c, e, hc, hsup, hlocal, by rw [hnames]; decide, he, hrole, ?_⟩
  rintro ts ⟨⟩
  exact ⟨hlen.symm, Graph.violated?_eq_none_iff.1 hwithin⟩

/-- The guide of the parcel has the crate packed and makes a parcel of it. The second type argument
is none of the crate's business. -/
theorem guides_relabel_depot : ∃ c w', depot.registry.classDef? 4 = some c ∧
    invokeAt nowhere 0 c 3 (some [.prim .int, .prim .str]) [.int 1, .int 2] depot =
      some (.ok ⟨c.layout, [.prim .int, .prim .str], [.int 1]⟩, w') ∧ w'.log.length = 1 := by
  obtain ⟨s, w', hs, hone, hplaces, hinner, hwell, hgraph, hlog⟩ := packed_depot
  obtain ⟨c, e, hc, hsup, hlocal, hnodup, he, hrole, hadm⟩ := parcel_depot
  have hcid : c.id = 4 := reachable_depot.ok.id_eq hc
  have hsid : s.id = 2 := reachable_depot.ok.id_eq hs
  obtain ⟨⟨front, back, hctors, hfront, hback⟩, hguided⟩ :=
    World.guides_relabel reachable_depot (c := c) (s := s) (by rw [hcid, hc]) (by rw [hsid, hs])
      (by rw [hsid, hsup]) (by rw [hsid]; decide) hlocal
  -- a guide is behind the other constructors, and leads to the only one that it can
  have hk : e.kind = .guide 0 := by
    obtain ⟨x, hguides, hx⟩ := List.map_eq_singleton_iff.1 hplaces
    rw [hguides] at hback
    obtain ⟨e', _, hleads, hnil, rfl⟩ := List.forall₂_cons_right_iff.1 hback
    obtain rfl := List.forall₂_nil_right_iff.1 hnil
    have hmem : e ∈ front ++ [e'] := hctors ▸ List.mem_of_getElem? he
    have hin : e ∈ [e'] := (List.mem_append.1 hmem).resolve_left fun hf => hfront e hf hrole
    rw [List.mem_singleton.1 hin, hleads.kind, hx]
  have hcall := hguided 3 e 0 he hk nowhere 0 (some [.prim .int, .prim .str]) [.int 1, .int 2]
    (by decide)
  rw [hone] at hcall
  have hprefix : [Ty.prim .int, .prim .str].take s.typeParams.length = [.prim .int] := by
    rw [hone]
    rfl
  exact ⟨c, w', hc, hcall.given _ _ _ hinner hwell hnodup rfl (by simp [Ty.isClosed]) hprefix
    (hgraph ▸ hadm), hlog⟩

end ClassGraph
