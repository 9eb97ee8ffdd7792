import ClassGraph.Proofs.Binding

/-!
# What an inferred type says

The type inferred of a value is one that the value matches, and if the lists in the value are
uniform there is nothing else to say about the value: it matches just the types that the inferred
one is below. Three recursions come together here: the type is inferred along the value, a match
goes along the type and the value, and types are compared along both of them. They meet at names,
where a class has to be found again by the name that its instances carry.

* `Value.Uniform`: no list inside is empty or mixed.
* `Graph.fits_eq_isSubtypeOf`: **a uniform value fits just what its type is below.**
* `Registry.Reachable.infer_principal`: inferred types are sound, and **principal for uniform
  values.**
-/

namespace ClassGraph

variable {β : Type}

/-! ## Uniform values -/

namespace Value

/-- The list of these items is the value, or it lies inside an item of it. -/
inductive Nested (items : List Value) : Value → Prop
  | self : Nested items (.list items)
  | item {v : Value} {vs : List Value} (hv : v ∈ vs) (h : Nested items v) : Nested items (.list vs)

/-- **A uniform value**: all lists in it have items, and these have one type. -/
def Uniform (v : Value) : Prop :=
  ∀ items, Nested items v → items ≠ [] ∧ ∀ x ∈ items, ∀ y ∈ items, x.infer = y.infer

variable {v : Value} {items : List Value}

theorem Uniform.item (h : (Value.list items).Uniform) (hv : v ∈ items) : v.Uniform :=
  fun vs hvs => h vs (.item hv hvs)

theorem Uniform.list (hne : items ≠ []) (hsame : ∀ x ∈ items, ∀ y ∈ items, x.infer = y.infer)
    (hall : ∀ x ∈ items, x.Uniform) : (Value.list items).Uniform := by
  intro vs hvs
  cases hvs with
  | self => exact ⟨hne, hsame⟩
  | item hv h => exact hall _ hv vs h

/-- There is no list in an instance. What it holds in its fields does not count. -/
theorem uniform_object (i : Instance) : (Value.object i).Uniform := by
  intro vs hvs
  cases hvs

/-- The type of a list is a list type. -/
theorem exists_infer_list (items : List Value) : ∃ t, (Value.list items).infer = .list t := by
  rw [infer]
  cases inferAll items with
  | nil => exact ⟨.any, rfl⟩
  | cons t ts =>
    rw [uniform]
    split
    · exact ⟨t, rfl⟩
    · exact ⟨.any, rfl⟩

/-- The type of a uniform list is told by any of its items. -/
theorem Uniform.infer_list (h : (Value.list items).Uniform) (hv : v ∈ items) :
    (Value.list items).infer = .list v.infer := by
  obtain ⟨-, hsame⟩ := h items .self
  rw [infer, inferAll_eq_map]
  cases items with
  | nil => cases hv
  | cons w ws =>
    have hall : (ws.map infer).all (· = w.infer) = true := by
      simp only [List.all_map, List.all_eq_true, Function.comp_apply, decide_eq_true_eq]
      intro x hx
      exact hsame x (List.mem_cons_of_mem w hx) w List.mem_cons_self
    rw [List.map_cons, uniform, if_pos hall, hsame v hv w List.mem_cons_self]

end Value

/-! ## Fitting and subtypes -/

namespace Graph

variable {g : Graph} {v : Value} {n : Name} {t : Ty}

/-- A value is of a primitive type if its own type is below that. -/
theorem accepts_eq_isSubtypeOf (q : Prim) (v : Value) :
    q.accepts v = g.isSubtypeOf v.infer (.prim q) := by
  cases v with
  | list items =>
    obtain ⟨t, ht⟩ := Value.exists_infer_list items
    rw [ht]
    cases q <;> rfl
  | nothing | bool _ | int _ | float _ | str _ | object _ => cases q <;> rfl

/-- **At a name** the class of an instance is found again by its own name. -/
theorem Names.accepts_eq (h : g.Names v) : g.accepts n v = g.isSubtypeOf v.infer (.named n) := by
  cases v with
  | list items =>
    obtain ⟨t, ht⟩ := Value.exists_infer_list items
    rw [ht]
    rfl
  | nothing | bool _ | int _ | float _ | str _ => rfl
  | object i =>
    have hcls : g.lookup i.className = some i.cls := h i .self
    rw [Value.infer, isSubtypeOf, isNameBelow, hcls]
    cases hn : g.lookup n with
    | some id => simp [accepts, hn]
    | none =>
      -- a name without a node is not that of the class
      have hne : i.className ≠ n := by
        rintro rfl
        rw [hcls] at hn
        cases hn
      simp [accepts, hn, hne]

/-- **A uniform value fits just what its type is below.** -/
theorem fits_eq_isSubtypeOf (ht : t.isClosed = true) : ∀ v : Value, g.Names v → v.Uniform →
    g.fits t v = g.isSubtypeOf v.infer t := by
  induction t with
  | any =>
    intro v hn hu
    rw [fits, isSubtypeOf]
  | prim q =>
    intro v hn hu
    exact accepts_eq_isSubtypeOf q v
  | named n =>
    intro v hn hu
    exact hn.accepts_eq
  | param n => cases ht
  | list u ih =>
    intro v hn hu
    cases v with
    | list items =>
      obtain ⟨w, hw⟩ := List.exists_mem_of_ne_nil items (hu items .self).1
      have hitem : ∀ x ∈ items, g.fits u x = g.isSubtypeOf w.infer u := by
        intro x hx
        rw [ih ht x (hn.item hx) (hu.item hx), (hu items .self).2 x hx w hw]
      rw [hu.infer_list hw, fits, isSubtypeOf]
      -- the items stand or fall together
      cases hsub : g.isSubtypeOf w.infer u with
      | true =>
        apply List.all_eq_true.2
        intro x hx
        rw [hitem x hx, hsub]
      | false =>
        apply List.all_eq_false.2
        refine ⟨w, hw, ?_⟩
        rw [hitem w hw, hsub]
        decide
    | nothing | bool _ | int _ | float _ | str _ | object _ => rfl

end Graph

namespace Registry

variable {r : Registry β} {v : Value}

/-- **Inference is sound, and principal for uniform values.** A value made of the instances of a
reachable registry matches the type inferred of it. If it is uniform, the types without parameters
that it matches are those that this one is below. No match binds anything. -/
theorem Reachable.infer_principal (hr : r.Reachable) (hv : r.Owns v) :
    (∀ s, r.graph.matchValue s v.infer v = .ok s) ∧
    (v.Uniform → ∀ t : Ty, t.isClosed = true → ∀ s s',
      r.graph.matchValue s t v = .ok s' ↔ r.graph.isSubtypeOf v.infer t = true ∧ s' = s) := by
  have hnames : r.graph.Names v := hr.ok.names_of_owns hv
  constructor
  · intro s
    rw [Graph.matchValue_of_isClosed (Value.isClosed_infer v), Graph.fits_infer v hnames]
    rfl
  · intro hu t ht s s'
    rw [Graph.matchValue_of_isClosed ht, Graph.verdict_eq_ok_iff,
      Graph.fits_eq_isSubtypeOf ht v hnames hu]

/-! ## Two rows of horses -/

/-- Two lists of horses. -/
def horses : Value := .list [.list [.object horse, .object horse], .list [.object horse]]

theorem owns_horses : stable.Owns horses :=
  owns_list (List.forall_mem_cons.2 ⟨owns_list (by simp [owns_horse]),
    List.forall_mem_singleton.2 (owns_list (by simp [owns_horse]))⟩)

theorem uniform_horses : horses.Uniform := by
  have hrow : ∀ k, (Value.list (List.replicate (k + 1) (.object horse))).Uniform := by
    intro k
    apply Value.Uniform.list (by simp)
    · intro x hx y hy
      rw [List.eq_of_mem_replicate hx, List.eq_of_mem_replicate hy]
    · intro x hx
      rw [List.eq_of_mem_replicate hx]
      exact Value.uniform_object horse
  apply Value.Uniform.list (by simp)
  · simp [Value.infer, Value.inferAll, Value.uniform]
  · exact List.forall_mem_cons.2 ⟨hrow 1, List.forall_mem_singleton.2 (hrow 0)⟩

/-- The rows match what the marker of `Horse` makes of their type, and not what that of `Stable`
does. -/
theorem infer_principal_horses : horses.infer = .list (.list (.named "Horse")) ∧
    stable.graph.matchValue ∅ horses.infer horses = .ok ∅ ∧
    stable.graph.matchValue ∅ (.list (.list (.named "AbstractHorse"))) horses = .ok ∅ ∧
    ∀ s, stable.graph.matchValue ∅ (.list (.list (.named "AbstractStable"))) horses ≠ .ok s := by
  obtain ⟨hself, hall⟩ := reachable_stable.infer_principal owns_horses
  have hinfer : horses.infer = .list (.list (.named "Horse")) := by decide +kernel
  have hhorse : stable.graph.isSubtypeOf horses.infer (.list (.list (.named "AbstractHorse"))) =
      true := by decide +kernel
  have hstable : stable.graph.isSubtypeOf horses.infer (.list (.list (.named "AbstractStable"))) =
      false := by decide +kernel
  refine ⟨hinfer, hself ∅, (hall uniform_horses _ rfl ∅ ∅).2 ⟨hhorse, rfl⟩, fun s hs => ?_⟩
  obtain ⟨hsub, -⟩ := (hall uniform_horses _ rfl ∅ s).1 hs
  rw [hstable] at hsub
  cases hsub

end Registry

end ClassGraph
