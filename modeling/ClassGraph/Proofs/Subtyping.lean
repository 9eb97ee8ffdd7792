import ClassGraph.Proofs.Inference

/-!
# The order on types

Types are compared along their form: names through the type graph if it knows both of them, and
by their letters if not. All the same the comparison is an order, since no two nodes have one name
and no node is above itself. Values keep to it: what matches a type without parameters matches every
type above it.

* `Graph.Forest.isNameBelow_trans`, `Graph.Forest.isNameBelow_antisymm`: names are ordered,
  whether the graph knows them or not.
* `Graph.Forest.isSubtypeOf_trans`, `Graph.Forest.isSubtypeOf_antisymm`: **subtyping is an order.**
* `Graph.Forest.fits_of_isSubtypeOf`: **values keep to it.**
* `Registry.Reachable.subtyping_ordered`: all of this, in every reachable registry.
-/

namespace ClassGraph

variable {β : Type}

/-! ## Primitive types -/

namespace Prim

variable {p q o : Prim}

theorem isSubtype_self (p : Prim) : p.isSubtype p = true := by cases p <;> rfl

/-- The two ways in which a primitive type is below another. -/
theorem isSubtype_iff : p.isSubtype q = true ↔ p = q ∨ (q = .number ∧ (p = .int ∨ p = .float)) := by
  simp [isSubtype]

/-- Nothing but `Number` is above other types. -/
theorem isSubtype_antisymm (hpq : p.isSubtype q = true) (hqp : q.isSubtype p = true) : p = q := by
  rcases isSubtype_iff.1 hpq with rfl | ⟨rfl, rfl | rfl⟩
  · rfl
  · cases hqp
  · cases hqp

theorem isSubtype_trans (hpq : p.isSubtype q = true) (hqo : q.isSubtype o = true) :
    p.isSubtype o = true := by
  rcases isSubtype_iff.1 hpq with rfl | ⟨rfl, hp⟩
  · exact hqo
  · rcases isSubtype_iff.1 hqo with rfl | ⟨-, ho | ho⟩
    · exact hpq
    · cases ho
    · cases ho

/-- A value of a primitive type is one of every type above. -/
theorem accepts_of_isSubtype {v : Value} (hpq : p.isSubtype q = true) (hv : p.accepts v = true) :
    q.accepts v = true := by
  rcases isSubtype_iff.1 hpq with rfl | ⟨rfl, rfl | rfl⟩
  · exact hv
  · cases v with
    | int n => rfl
    | nothing | bool _ | float _ | str _ | list _ | object _ => cases hv
  · cases v with
    | float x => rfl
    | nothing | bool _ | int _ | str _ | list _ | object _ => cases hv

end Prim

namespace Graph

variable {g : Graph} {a b c : Name} {s t u : Ty} {v : Value}

/-! ## Names -/

theorem Forest.isNameBelow_trans (h : g.Forest) (hab : g.isNameBelow a b = true)
    (hbc : g.isNameBelow b c = true) : g.isNameBelow a c = true := by
  rcases isNameBelow_iff.1 hab with rfl | ⟨i, j, hi, hj, hij⟩
  · exact hbc
  rcases isNameBelow_iff.1 hbc with rfl | ⟨j', k, hj', hk, hjk⟩
  · exact hab
  -- the name in the middle has one node
  obtain rfl : j = j' := Option.some.inj (hj.symm.trans hj')
  exact isNameBelow_iff.2 (.inr ⟨i, k, hi, hk, h.isSubtype_trans hij hjk⟩)

/-- Two nodes that are below each other are one, and it has one name. -/
theorem Forest.isNameBelow_antisymm (h : g.Forest) (hab : g.isNameBelow a b = true)
    (hba : g.isNameBelow b a = true) : a = b := by
  rcases isNameBelow_iff.1 hab with rfl | ⟨i, j, hi, hj, hij⟩
  · rfl
  rcases isNameBelow_iff.1 hba with rfl | ⟨j', i', hj', hi', hji⟩
  · rfl
  obtain rfl : j = j' := Option.some.inj (hj.symm.trans hj')
  obtain rfl : i = i' := Option.some.inj (hi.symm.trans hi')
  obtain rfl : i = j := h.isSubtype_antisymm hij hji
  have hname : some a = some b := (h.lookup_iff.1 hi).symm.trans (h.lookup_iff.1 hj)
  exact Option.some.inj hname

/-- What is an instance from a node or below is one from every node above. -/
theorem Forest.accepts_of_isNameBelow (h : g.Forest) (hab : g.isNameBelow a b = true)
    (hv : g.accepts a v = true) : g.accepts b v = true := by
  rcases isNameBelow_iff.1 hab with rfl | ⟨i, j, hi, hj, hij⟩
  · exact hv
  cases v with
  | object x =>
    rw [accepts, hi, Option.any_some] at hv
    rw [accepts, hj, Option.any_some]
    exact h.isSubtype_trans hv hij
  | nothing | bool _ | int _ | float _ | str _ | list _ => cases hv

/-! ## Types -/

theorem isSubtypeOf_self (g : Graph) (t : Ty) : g.isSubtypeOf t t = true := by
  induction t with
  | any => rw [isSubtypeOf]
  | prim p => exact p.isSubtype_self
  | named n => exact isNameBelow_iff.2 (.inl rfl)
  | param n => rw [isSubtypeOf, decide_eq_true rfl]
  | list t ih => exact ih

theorem isSubtypeOf_any_right (g : Graph) (t : Ty) : g.isSubtypeOf t .any = true := by
  rw [isSubtypeOf]

theorem isSubtypeOf_param_iff {n : Name} : g.isSubtypeOf t (.param n) = true ↔ t = .param n := by
  rw [isSubtypeOf, decide_eq_true_eq]

/-- Nothing else is above the type of all values. -/
theorem eq_any_of_isSubtypeOf (h : g.isSubtypeOf .any t = true) : t = .any := by
  cases t with
  | any => rfl
  | prim _ | named _ | param _ | list _ => cases h

/-- **A chain of subtypes** can be cut short. The induction is on the type in the end; what is below
it has the same form, all the way down the chain. -/
theorem Forest.isSubtypeOf_trans (h : g.Forest) (hst : g.isSubtypeOf s t = true)
    (htu : g.isSubtypeOf t u = true) : g.isSubtypeOf s u = true := by
  induction u generalizing s t with
  | any => exact isSubtypeOf_any_right g s
  | prim o =>
    cases t with
    | prim q =>
      cases s with
      | prim p => exact Prim.isSubtype_trans hst htu
      | any | named _ | param _ | list _ => cases hst
    | any | named _ | param _ | list _ => cases htu
  | named c =>
    cases t with
    | named b =>
      cases s with
      | named a => exact h.isNameBelow_trans hst htu
      | any | prim _ | param _ | list _ => cases hst
    | any | prim _ | param _ | list _ => cases htu
  | param n =>
    obtain rfl : t = .param n := isSubtypeOf_param_iff.1 htu
    exact hst
  | list u ih =>
    cases t with
    | list t =>
      cases s with
      | list s => exact ih hst htu
      | any | prim _ | named _ | param _ => cases hst
    | any | prim _ | named _ | param _ => cases htu

/-- **Types below each other** are equal. -/
theorem Forest.isSubtypeOf_antisymm (h : g.Forest) (hst : g.isSubtypeOf s t = true)
    (hts : g.isSubtypeOf t s = true) : s = t := by
  induction t generalizing s with
  | any => exact eq_any_of_isSubtypeOf hts
  | prim q =>
    cases s with
    | prim p => rw [Prim.isSubtype_antisymm hst hts]
    | any | named _ | param _ | list _ => cases hst
  | named b =>
    cases s with
    | named a => rw [h.isNameBelow_antisymm hst hts]
    | any | prim _ | param _ | list _ => cases hst
  | param n => exact isSubtypeOf_param_iff.1 hst
  | list t ih =>
    cases s with
    | list s => rw [ih hst hts]
    | any | prim _ | named _ | param _ => cases hst

/-- **What fits a type fits every type above it.** -/
theorem Forest.fits_of_isSubtypeOf (h : g.Forest) (ht : t.isClosed = true)
    (hst : g.isSubtypeOf s t = true) (hv : g.fits s v = true) : g.fits t v = true := by
  induction t generalizing s v with
  | any => rw [fits]
  | prim q =>
    cases s with
    | prim p => exact Prim.accepts_of_isSubtype hst hv
    | any | named _ | param _ | list _ => cases hst
  | named b =>
    cases s with
    | named a => exact h.accepts_of_isNameBelow hst hv
    | any | prim _ | param _ | list _ => cases hst
  | param n => cases ht
  | list t ih =>
    cases s with
    | list s =>
      cases v with
      | list items =>
        rw [fits, List.all_eq_true] at hv ⊢
        intro w hw
        exact ih ht hst (hv w hw)
      | nothing | bool _ | int _ | float _ | str _ | object _ => cases hv
    | any | prim _ | named _ | param _ => cases hst

end Graph

namespace Registry

variable {r : Registry β}

/-- **Subtyping is a partial order that values keep to.** In every reachable registry the comparison
of types, of names without a node and of parameters too, is reflexive, transitive and antisymmetric,
and `Any` is above all types. A value that matches a type without parameters, under whatever
bindings, matches every such type above it under all bindings, and binds nothing. -/
theorem Reachable.subtyping_ordered (hr : r.Reachable) :
    (∀ t, r.graph.isSubtypeOf t t = true) ∧
    (∀ s t u, r.graph.isSubtypeOf s t = true → r.graph.isSubtypeOf t u = true →
      r.graph.isSubtypeOf s u = true) ∧
    (∀ s t, r.graph.isSubtypeOf s t = true → r.graph.isSubtypeOf t s = true → s = t) ∧
    (∀ t, r.graph.isSubtypeOf t .any = true) ∧
    ∀ s t, s.isClosed = true → t.isClosed = true → r.graph.isSubtypeOf s t = true →
      ∀ v b b', r.graph.matchValue b s v = .ok b' → ∀ c, r.graph.matchValue c t v = .ok c := by
  have hforest := hr.inStep.forest
  refine ⟨r.graph.isSubtypeOf_self, fun s t u => hforest.isSubtypeOf_trans,
    fun s t => hforest.isSubtypeOf_antisymm, r.graph.isSubtypeOf_any_right, ?_⟩
  intro s t hs ht hst v b b' hv c
  rw [Graph.matchValue_of_isClosed hs, Graph.verdict_eq_ok_iff] at hv
  rw [Graph.matchValue_of_isClosed ht, Graph.verdict_eq_ok_iff]
  exact ⟨hforest.fits_of_isSubtypeOf ht hst hv.1, rfl⟩

/-- Rows of horses are rows of what is below the marker, and of anything; there are no unicorns, but
these are comparable with themselves. -/
theorem subtyping_ordered_horses :
    stable.graph.isSubtypeOf (.list (.named "Unicorn")) (.list (.named "Unicorn")) = true ∧
    stable.graph.isSubtypeOf (.list (.named "Horse")) (.list .any) = true ∧
    stable.graph.isSubtypeOf (.named "AbstractHorse") (.named "Horse") = false ∧
    ∀ c, stable.graph.matchValue c (.list (.list (.named "AbstractHorse"))) horses = .ok c := by
  obtain ⟨hself, htrans, hanti, -, hmatch⟩ := reachable_stable.subtyping_ordered
  have hbelow : stable.graph.isSubtypeOf (.named "Horse") (.named "AbstractHorse") = true := by
    decide +kernel
  refine ⟨hself _, htrans _ (.list (.named "AbstractHorse")) _ hbelow rfl, ?_, ?_⟩
  · -- the two would be one type
    rw [← Bool.not_eq_true]
    intro habove
    exact absurd (hanti _ _ hbelow habove) (by decide)
  · have hown : stable.graph.matchValue ∅ horses.infer horses = .ok ∅ :=
      (reachable_stable.infer_principal owns_horses).1 ∅
    have hinfer : horses.infer = .list (.list (.named "Horse")) := by decide +kernel
    rw [hinfer] at hown
    exact hmatch _ (.list (.list (.named "AbstractHorse"))) rfl rfl hbelow horses ∅ ∅ hown

end Registry

end ClassGraph
