import ClassGraph.Proofs.Upcast

/-!
# Copying an instance of the superclass

The constructor that copies and extends takes an instance of the superclass and a value for each
field that the class itself declares. It binds the parameters of the superclass, under their new
names, to the type arguments of the instance. If no two parameters of the class have one name, the
copied values fit under these bindings, and the bounds of the superclass are kept; no later binding
changes that. So whatever goes wrong has to do with what the class itself declares.

* `Graph.matchSlots_append`: fields are matched in two parts;
  `Graph.extends_of_matchSlots`: a match adds bindings and changes none.
* `Graph.Fills.matchSlots_renamed`: **the copied half matches and binds nothing.**
* `Registry.Extends.declared_of_bindingError?`: a parameter that is found wrong at the end is one
  that the class declares.
* `World.copy_extends`: **the copy is extended, or what the class declares is at fault.**
-/

namespace ClassGraph

variable {β : Type}

/-! ## Matching in two parts -/

namespace Graph

variable {g : Graph} {s s' : Substitution}

/-- Fields are matched in two parts, the second from the bindings that the first has left. -/
theorem matchSlots_append (s : Substitution) (xs ys : List (Field × Value)) :
    g.matchSlots s (xs ++ ys) = (g.matchSlots s xs).bind (g.matchSlots · ys) := by
  induction xs generalizing s with
  | nil => rfl
  | cons x xs ih =>
    obtain ⟨f, v⟩ := x
    rw [List.cons_append, matchSlots, matchSlots]
    cases g.matchValue s f.ty v with
    | error s' => rfl
    | ok s' => exact ih s'

/-- A misfit is one of the values, with its field. -/
theorem mem_of_matchSlots_error {slots : List (Field × Value)} {m : Misfit}
    (h : g.matchSlots s slots = .error m) : (m.field, m.value) ∈ slots := by
  induction slots generalizing s with
  | nil => cases h
  | cons x slots ih =>
    obtain ⟨f, v⟩ := x
    rw [matchSlots] at h
    cases hv : g.matchValue s f.ty v with
    | error s' =>
      simp only [hv, Except.error.injEq] at h
      rw [← h]
      exact List.mem_cons_self
    | ok s' =>
      simp only [hv] at h
      exact List.mem_cons_of_mem _ (ih h)

theorem extends_of_matchResolved {v : Value} {onItems : Ty → Except Substitution Substitution}
    (hitems : ∀ u, onItems u = .ok s' → s.Extends s') {t : Ty}
    (h : g.matchResolved s v onItems t = .ok s') : s.Extends s' := by
  cases t with
  | any =>
    cases h
    exact .refl s
  | prim p =>
    obtain ⟨-, rfl⟩ := verdict_eq_ok_iff.1 h
    exact .refl _
  | named n =>
    obtain ⟨-, rfl⟩ := verdict_eq_ok_iff.1 h
    exact .refl _
  | list u => exact hitems u h
  | param n =>
    rw [matchResolved] at h
    split at h
    · cases h
    next hfree =>
      cases h
      intro m t hm
      have hne : n ≠ m := by
        rintro rfl
        simp [Table.contains, hm] at hfree
      rw [Table.get?_insert_of_ne hne, hm]

mutual

/-- A match adds bindings and changes none. -/
theorem extends_of_matchValue {s s' : Substitution} : ∀ (v : Value) (t : Ty),
    g.matchValue s t v = .ok s' → s.Extends s'
  | .list items, t, h => by
    rw [matchValue] at h
    exact extends_of_matchResolved (fun u hu => extends_of_matchItems items u hu) h
  | .nothing, t, h | .bool _, t, h | .int _, t, h | .float _, t, h | .str _, t, h
  | .object _, t, h => by
    rw [matchValue] at h
    · exact extends_of_matchResolved (fun u hu => by cases hu) h
    · intro items hitems
      cases hitems

theorem extends_of_matchItems {s s' : Substitution} : ∀ (items : List Value) (t : Ty),
    g.matchItems s t items = .ok s' → s.Extends s'
  | [], t, h => by
    cases h
    exact .refl s
  | v :: vs, t, h => by
    obtain ⟨s₁, hv, h⟩ := matchItems_cons_eq_ok_iff.1 h
    exact (extends_of_matchValue v t hv).trans (extends_of_matchItems vs t h)

end

theorem extends_of_matchSlots {slots : List (Field × Value)}
    (h : g.matchSlots s slots = .ok s') : s.Extends s' := by
  induction slots generalizing s with
  | nil =>
    cases h
    exact .refl _
  | cons x slots ih =>
    obtain ⟨f, v⟩ := x
    obtain ⟨s₁, hv, h⟩ := matchSlots_cons_eq_ok_iff.1 h
    exact (extends_of_matchValue v f.ty hv).trans (ih h)

/-- A parameter that is found to violate its bound is one of the parameters, and does. -/
theorem violated?_eq_some {ps : List TypeParam} {p : TypeParam} {t : Ty}
    (h : g.violated? s ps = some (p, t)) :
    p ∈ ps ∧ s.get? p.name = some t ∧ g.isSubtypeOf t (p.bound.subst s) = false := by
  induction ps with
  | nil => cases h
  | cons q ps ih =>
    rw [violated?] at h
    cases hq : s.get? q.name with
    | none =>
      simp only [hq] at h
      exact (ih h).imp_left (List.mem_cons_of_mem _)
    | some u =>
      simp only [hq] at h
      split at h
      · exact (ih h).imp_left (List.mem_cons_of_mem _)
      next hbound =>
        cases h
        exact ⟨List.mem_cons_self, hq, by simpa using hbound⟩

end Graph

/-! ## The copied half -/

/-- **Values that fill a layout** match its fields under the new names too, and bind nothing. -/
theorem Graph.Fills.matchSlots_renamed {g : Graph} {l : Layout} {f : Name → Name}
    {σ σ' : Substitution} {values : List Value} (hf : g.Fills l σ values) (hl : l.Closed)
    (hc : Substitution.Carries f l σ σ') (hσ' : σ'.Closed) :
    g.matchSlots σ' ((l.fields.map (·.rename f)).zip values) = .ok σ' := by
  refine (Graph.matchSlots_bound hσ' fun x hx m hm => ?_).2 ⟨rfl, hf.fits_renamed hl hc⟩
  obtain ⟨y, hy, hxy⟩ := List.mem_map.1 (List.of_mem_zip hx).1
  rw [← hxy, Field.ty_rename, Ty.params_rename] at hm
  obtain ⟨k, hk, rfl⟩ := List.mem_map.1 hm
  obtain ⟨u, -, hu⟩ := hc k (hl.field hy k hk)
  simp [Table.contains, hu]

namespace Registry

variable {r : Registry β} {c s : ClassDef β} {decl : ClassDecl β} {h : Heritage} {n : Nat}
  {g : Graph} {σ σ' : Substitution} {ts : List Ty}

/-- The fields that the class itself declares come after the inherited ones. -/
theorem Extends.localFields (he : r.Extends decl c s h n) : c.layout.localFields = decl.fields := by
  rw [Layout.localFields, he.inherited, he.fields]
  exact List.drop_left' (by rw [he.renamed, List.length_map])

/-- Type arguments of the superclass, bound to the parameters of the class, are carried over. -/
theorem Extends.carries_ofArgs (he : r.Extends decl c s h n) (hnodup : c.layout.paramNames.Nodup)
    (hlen : ts.length = s.layout.typeParams.length) :
    Substitution.Carries (freshName n) s.layout (.ofArgs s.layout.typeParams ts)
      (.ofArgs c.layout.typeParams ts) := by
  have hcarries := he.carries hnodup (Nat.le_of_eq hlen.symm) ∅ ∅
  rwa [List.take_of_length_le (Nat.le_of_eq hlen)] at hcarries

/-- **A parameter that is found wrong at the end** is one that the class itself declares. -/
theorem Extends.declared_of_bindingError? (he : r.Extends decl c s h n) (hs : s.layout.Closed)
    (hc : Substitution.Carries (freshName n) s.layout σ σ')
    (hw : g.WithinBounds σ s.layout.typeParams) {e : Error}
    (herr : g.bindingError? c.layout σ' = some e) :
    ∃ q ∈ decl.typeParams, e = .unresolvedTypeParameter c.name q.name ∨
      ∃ t, e = .boundViolation c.name q.name t q.bound := by
  have hdeclared : ∀ q ∈ c.layout.typeParams, q ∉ h.params → q ∈ decl.typeParams := by
    intro q hq hin
    rw [he.typeParams] at hq
    exact (List.mem_append.1 hq).resolve_left hin
  unfold Graph.bindingError? at herr
  split at herr
  next q hfind =>
    cases herr
    have hfree := List.find?_some hfind
    refine ⟨q, hdeclared q (List.mem_of_find?_eq_some hfind) fun hin => ?_, .inl rfl⟩
    obtain ⟨t, ht, -⟩ := he.inherited_within hs hc hw hin
    simp [Table.contains, ht] at hfree
  next =>
    obtain ⟨⟨q, t⟩, hviol, rfl⟩ := Option.map_eq_some_iff.1 herr
    obtain ⟨hq, ht, hbeyond⟩ := Graph.violated?_eq_some hviol
    refine ⟨q, hdeclared q hq fun hin => ?_, .inr ⟨t, rfl⟩⟩
    obtain ⟨u, hu, hwithin⟩ := he.inherited_within hs hc hw hin
    obtain rfl : u = t := Option.some.inj (hu.symm.trans ht)
    rw [hwithin] at hbeyond
    cases hbeyond

end Registry

/-! ## What it comes to -/

/-- **The error names something that the class itself declares**: one of its fields, for which the
value given does not match, or one of its type parameters, which stands for nothing or for a type
beyond its bound. -/
inductive ClassDef.LocalFault (c : ClassDef β) (decl : ClassDecl β) (ws : List Value) :
    Error → Prop
  | misfit {f : Field} {v : Value} (expected : Ty) (h : (f, v) ∈ c.layout.localFields.zip ws) :
      c.LocalFault decl ws (.typeMismatch c.name f.name expected v.describe)
  | unresolved {q : TypeParam} (h : q ∈ decl.typeParams) :
      c.LocalFault decl ws (.unresolvedTypeParameter c.name q.name)
  | beyond {q : TypeParam} (t : Ty) (h : q ∈ decl.typeParams) :
      c.LocalFault decl ws (.boundViolation c.name q.name t q.bound)

/-- **What copying `p` and extending it by `ws` comes to**, where `decl` declares the class `c` and
`p` is an instance of its superclass `s`. -/
structure CopyExtended (g : Graph) (c s : ClassDef β) (decl : ClassDecl β) (p : Instance)
    (ws : List Value) (result : Except Error Instance) : Prop where
  ok : ∀ i, result = .ok i → i.layout = c.layout ∧ i.fields = p.fields ++ ws ∧
    i.typeArgs.take s.typeParams.length = p.typeArgs
  error : ∀ e, result = .error e → c.LocalFault decl ws e
  exact_of_no_params : decl.typeParams = [] → ((∃ i, result = .ok i) ↔
    ∀ x ∈ c.layout.localFields.zip ws, ∃ σ,
      g.matchValue (.ofArgs c.typeParams p.typeArgs) x.1.ty x.2 = .ok σ)

namespace Registry

variable {r : Registry β} {c s : ClassDef β} {decl : ClassDecl β} {h : Heritage} {n : Nat}
  {p : Instance} {ws : List Value} {σ : Substitution}

/-- What is left to do once the copied half has matched. -/
theorem Extends.copyExtend_eq (he : r.Extends decl c s h n) (hs : s.layout.Closed)
    (hnodup : c.layout.paramNames.Nodup) (hp : p.WellTyped r.graph s)
    (hws : ws.length = c.layout.localFields.length) :
    c.copyExtend r (.object p :: ws) =
      match r.graph.matchSlots (.ofArgs c.typeParams p.typeArgs) (c.layout.localFields.zip ws) with
      | .error m => .error (m.toError c.name)
      | .ok σ =>
        match r.graph.bindingError? c.layout σ with
        | some e => .error e
        | none => .ok ⟨c.layout, Graph.typeArgsOf c.layout σ, p.fields ++ ws⟩ := by
  obtain ⟨hlen, hfills⟩ := hp.fills hs
  have hcopied : h.fields.length = p.fields.length := by
    rw [he.renamed, List.length_map, hfills.length]
  have hall : (p.fields ++ ws).length = c.layout.fields.length := by
    rw [he.localFields] at hws
    rw [he.fields, List.length_append, List.length_append, hcopied, hws]
  have hslots : c.layout.fields.zip (p.fields ++ ws) =
      h.fields.zip p.fields ++ c.layout.localFields.zip ws := by
    rw [he.fields, he.localFields, List.zip_append hcopied]
  have hmatch : r.graph.matchSlots (.ofArgs c.typeParams p.typeArgs) (h.fields.zip p.fields) =
      .ok (.ofArgs c.typeParams p.typeArgs) := by
    rw [he.renamed]
    exact hfills.matchSlots_renamed hs (he.carries_ofArgs hnodup hlen)
      (Substitution.Closed.empty.bindAll _ hp.closed)
  rw [ClassDef.copyExtend, Graph.instantiate, if_neg (by simp [hall])]
  simp only [Graph.startBindings, Graph.matchFields, hslots, Graph.matchSlots_append, hmatch,
    Except.bind]
  rfl

/-- The copy comes first, in the values and in the type arguments. -/
theorem Extends.copyExtend_ok (he : r.Extends decl c s h n) (hs : s.layout.Closed)
    (hnodup : c.layout.paramNames.Nodup) (hp : p.WellTyped r.graph s)
    (hws : ws.length = c.layout.localFields.length) {i : Instance}
    (hi : c.copyExtend r (.object p :: ws) = .ok i) :
    i.layout = c.layout ∧ i.fields = p.fields ++ ws ∧
      i.typeArgs.take s.typeParams.length = p.typeArgs := by
  obtain ⟨hlen, -⟩ := hp.fills hs
  rw [he.copyExtend_eq hs hnodup hp hws] at hi
  split at hi
  · cases hi
  next σ hm =>
    split at hi
    · cases hi
    · cases hi
      -- the parameters of the superclass are bound by place, and stay so
      have hreads : σ.Reads c.layout.typeParams p.typeArgs := fun k q t hq ht =>
        Graph.extends_of_matchSlots hm _ _ (Substitution.reads_bindAll hnodup _ k q t hq ht)
      have hle : p.typeArgs.length ≤ c.layout.typeParams.length := by
        rw [hlen]
        exact he.begins.length_typeParams_le
      have htake := hreads.take_typeArgsOf hle
      rw [hlen] at htake
      exact ⟨rfl, rfl, htake⟩

/-- An error has to do with what the class itself declares. -/
theorem Extends.localFault_of_copyExtend (he : r.Extends decl c s h n) (hs : s.layout.Closed)
    (hnodup : c.layout.paramNames.Nodup) (hp : p.WellTyped r.graph s)
    (hws : ws.length = c.layout.localFields.length) {e : Error}
    (herr : c.copyExtend r (.object p :: ws) = .error e) : c.LocalFault decl ws e := by
  obtain ⟨hlen, hfills⟩ := hp.fills hs
  rw [he.copyExtend_eq hs hnodup hp hws] at herr
  split at herr
  next m hm =>
    cases herr
    exact .misfit _ (Graph.mem_of_matchSlots_error hm)
  next σ hm =>
    split at herr
    next e' hbind =>
      cases herr
      have hcarries := (he.carries_ofArgs hnodup hlen).mono (Graph.extends_of_matchSlots hm)
      obtain ⟨q, hq, rfl | ⟨t, rfl⟩⟩ :=
        he.declared_of_bindingError? hs hcarries hfills.within hbind
      · exact .unresolved hq
      · exact .beyond t hq
    · cases herr

/-- **In a class without type parameters of its own** the values of its fields decide, each by
itself, since all parameters are bound from the start. -/
theorem Extends.copyExtend_isOk_iff (he : r.Extends decl c s h n) (hc : c.layout.Closed)
    (hs : s.layout.Closed) (hnodup : c.layout.paramNames.Nodup) (hp : p.WellTyped r.graph s)
    (hws : ws.length = c.layout.localFields.length) (hown : decl.typeParams = []) :
    (∃ i, c.copyExtend r (.object p :: ws) = .ok i) ↔
      ∀ x ∈ c.layout.localFields.zip ws, ∃ σ,
        r.graph.matchValue (.ofArgs c.typeParams p.typeArgs) x.1.ty x.2 = .ok σ := by
  obtain ⟨hlen, hfills⟩ := hp.fills hs
  have hlenc : p.typeArgs.length = c.layout.typeParams.length := by
    rw [he.typeParams, hown, List.append_nil, he.params, List.length_map, hlen]
  have hσ : (Substitution.ofArgs c.typeParams p.typeArgs).Closed :=
    Substitution.Closed.empty.bindAll _ hp.closed
  have hbound : ∀ x ∈ c.layout.localFields.zip ws, ∀ m ∈ x.1.ty.params,
      (Substitution.ofArgs c.typeParams p.typeArgs).contains m = true := fun x hx m hm =>
    Substitution.contains_bindAll hlenc
      (hc.field (List.mem_of_mem_drop (List.of_mem_zip hx).1) m hm)
  have hmatch : ∀ x ∈ c.layout.localFields.zip ws,
      (∃ σ, r.graph.matchValue (.ofArgs c.typeParams p.typeArgs) x.1.ty x.2 = .ok σ) ↔
        r.graph.fits (x.1.ty.subst (.ofArgs c.typeParams p.typeArgs)) x.2 = true := by
    intro x hx
    rw [Graph.matchValue_bound hσ x.2 x.1.ty (hbound x hx)]
    simp [Graph.verdict_eq_ok_iff]
  -- no parameter is left that could be found wrong
  have hnone : r.graph.bindingError? c.layout (.ofArgs c.typeParams p.typeArgs) = none := by
    by_contra hsome
    obtain ⟨e, hbind⟩ := Option.ne_none_iff_exists'.1 hsome
    obtain ⟨q, hq, -⟩ :=
      he.declared_of_bindingError? hs (he.carries_ofArgs hnodup hlen) hfills.within hbind
    rw [hown] at hq
    cases hq
  rw [he.copyExtend_eq hs hnodup hp hws, forall₂_congr hmatch]
  constructor
  · rintro ⟨i, hi⟩
    split at hi
    · cases hi
    next σ hm => exact ((Graph.matchSlots_bound hσ hbound).1 hm).2
  · intro hall
    rw [(Graph.matchSlots_bound hσ hbound).2 ⟨rfl, hall⟩]
    simp only [hnone]
    exact ⟨_, rfl⟩

end Registry

/-- The constructor that copies and extends is there if the superclass has fields. -/
theorem Registry.Made.copyExtend_mem {r : Registry β} {decl : ClassDecl β} {o : Outline β}
    {h : Heritage} {c : ClassDef β} (hm : r.Made decl o h c) (hfields : 0 < h.fields.length) :
    ∃ (k : Nat) (e : Constructor β), c.constructors[k]? = some e ∧ e.role = .copyExtend := by
  have hmem : ⟨⟨superParam, .named o.superDef.name⟩ :: c.layout.fields.drop h.fields.length, false,
      .copyExtend⟩ ∈ c.constructors := by
    rw [hm.constructors, copyExtendConstructors, if_pos hfields]
    simp
  obtain ⟨k, hk⟩ := List.mem_iff_getElem?.1 hmem
  exact ⟨k, _, hk, rfl⟩

/-- Below the limit the constructor copies and extends, whatever the type arguments of the call. -/
theorem invokeAt_copyExtend (construct : Construction) {depth : Nat} {w : World}
    (hdepth : depth < w.registry.settings.maxConstructorDepth) {c : ClassDef Body} {k : Nat}
    {e : Constructor Body} (he : c.constructors[k]? = some e) (hrole : e.role = .copyExtend)
    (typeArgs : Option (List Ty)) (args : List Value) :
    invokeAt construct depth c k typeArgs args w = some (c.copyExtend w.registry args, w) := by
  have hkind := Constructor.kind_eq_copyExtend hrole
  rw [invokeAt_eq construct hdepth he]
  simp only [runConstructor, hkind]

/-- **Copying an instance of the superclass neither loses nor rejects anything of it.** A class
below one that has fields has a constructor that copies and extends. If no two parameters of the
class have one name, the constructor makes of every well-typed instance of the superclass, and of a
value for each field that the class declares, an instance of the class with the values and the type
arguments of the copy in front; where it does not, what the class itself declares is at fault. -/
theorem World.copy_extends {w : World} (hr : w.registry.Reachable) {c s : ClassDef Body}
    (hc : w.registry.classDef? c.id = some c) (hs : w.registry.classDef? s.id = some s)
    (hsup : c.superclass = some s.id) (hfields : s.layout.fields ≠ [])
    (hnodup : c.layout.paramNames.Nodup) :
    (∃ (k : Nat) (e : Constructor Body), c.constructors[k]? = some e ∧ e.role = .copyExtend) ∧
    (∃ decl, w.registry.DefinedBy c.id decl) ∧ ∀ decl, w.registry.DefinedBy c.id decl →
      ∀ (k : Nat) (e : Constructor Body), c.constructors[k]? = some e → e.role = .copyExtend →
        ∀ construct depth typeArgs p ws, depth < w.registry.settings.maxConstructorDepth →
          p.WellTyped w.registry.graph s → ws.length = c.layout.localFields.length →
          ∃ result,
            invokeAt construct depth c k typeArgs (.object p :: ws) w = some (result, w) ∧
            CopyExtended w.registry.graph c s decl p ws result := by
  have hok := hr.ok
  have hcl : c.layout.Closed := (hok.closed hc).layout
  have hsl : s.layout.Closed := (hok.closed hs).layout
  have hcid : c.id ≠ rootId := by
    intro hroot
    rw [hroot, hok.root, Option.some.injEq] at hc
    rw [← hc] at hsup
    cases hsup
  -- whatever declaration defined the class, it was made on `s`
  have hextends : ∀ decl, w.registry.DefinedBy c.id decl → ∃ o h n, w.registry.Made decl o h c ∧
      w.registry.Extends decl c s h n := by
    intro decl hdef
    obtain ⟨-, d, o, h, hd, hm⟩ := hdef.made
    obtain rfl : c = d := Option.some.inj (hc.symm.trans hd)
    obtain rfl : s = o.superDef :=
      Option.some.inj (hs.symm.trans (hm.classDef?_superclass hsup))
    obtain ⟨n, he⟩ := hm.extends hok
    exact ⟨o, h, n, hm, he⟩
  obtain ⟨decl, hdef⟩ := hr.definedBy hc hcid
  refine ⟨?_, ⟨decl, hdef⟩, ?_⟩
  · obtain ⟨o, h, n, hm, he⟩ := hextends decl hdef
    refine hm.copyExtend_mem ?_
    rw [he.renamed, List.length_map]
    exact List.length_pos_iff.2 hfields
  · intro decl hdef k e hk hrole construct depth typeArgs p ws hdepth hp hws
    obtain ⟨o, h, n, -, he⟩ := hextends decl hdef
    refine ⟨_, invokeAt_copyExtend construct hdepth hk hrole typeArgs _, ?_⟩
    exact ⟨fun i hi => he.copyExtend_ok hsl hnodup hp hws hi,
      fun e herr => he.localFault_of_copyExtend hsl hnodup hp hws herr,
      he.copyExtend_isOk_iff hcl hsl hnodup hp hws⟩

/-! ## A crate on the scales -/

/-- A class below the crate with a field of its own. -/
def weighed : ClassDecl Body :=
  ⟨"Weighed", some "Crate", [], false, [.field ⟨"weight", .prim .number⟩]⟩

/-- The depot with this class. -/
def weighbridge : World := .ofRegistry (depot.registry.after (.define weighed))

theorem reachable_weighbridge : weighbridge.registry.Reachable :=
  reachable_depot.after (.define weighed)

/-- A crate with a number in it, weighed. -/
theorem copy_extends_weighbridge : ∃ c s i, weighbridge.registry.classDef? 6 = some c ∧
    weighbridge.registry.classDef? 2 = some s ∧
    invokeAt nowhere 0 c 2 none [.object ⟨s.layout, [.prim .int], [.int 1]⟩, .int 5] weighbridge =
      some (.ok i, weighbridge) ∧
    i.layout = c.layout ∧ i.fields = [.int 1, .int 5] ∧ i.typeArgs.take 1 = [.prim .int] := by
  have hclass : (weighbridge.registry.classDef? 6).map (fun c =>
      (c.superclass, c.layout.paramNames, c.layout.localFields)) =
      some (some 2, ["T#1"], [⟨"weight", .prim .number⟩]) := by decide +kernel
  have hrole : ((weighbridge.registry.classDef? 6).bind (·.constructors[2]?)).map (·.role) =
      some .copyExtend := by decide +kernel
  have hcrate : (weighbridge.registry.classDef? 2).map (fun s =>
      (s.typeParams.length, s.layout.fieldNames)) = some (1, ["x"]) := by decide +kernel
  have hagain : ((weighbridge.registry.classDef? 2).map fun s => isOfInt s.layout [.prim .int] 1
      (weighbridge.registry.graph.instantiate s.layout (some [.prim .int]) ∅ [.int 1])) =
      some true := by decide +kernel
  obtain ⟨c, hc, hclass⟩ := Option.map_eq_some_iff.1 hclass
  obtain ⟨s, hs, hcrate⟩ := Option.map_eq_some_iff.1 hcrate
  rw [hc, Option.bind_some] at hrole
  rw [hs, Option.map_some, Option.some.injEq] at hagain
  obtain ⟨e, he, hrole⟩ := Option.map_eq_some_iff.1 hrole
  simp only [Prod.mk.injEq] at hclass hcrate
  obtain ⟨hsup, hnames, hlocal⟩ := hclass
  obtain ⟨hone, hx⟩ := hcrate
  have hcid : c.id = 6 := reachable_weighbridge.ok.id_eq hc
  have hsid : s.id = 2 := reachable_weighbridge.ok.id_eq hs
  have hfields : s.layout.fields ≠ [] := by
    intro hnil
    simp [Layout.fieldNames, hnil] at hx
  have hdef : weighbridge.registry.DefinedBy c.id weighed := by
    rw [hcid]
    exact reachable_depot.definedBy_after (by decide +kernel)
  have hwell : Instance.WellTyped weighbridge.registry.graph s ⟨s.layout, [.prim .int], [.int 1]⟩ :=
    ⟨by simp [Ty.isClosed], eq_ok_of_isOfInt hagain⟩
  obtain ⟨-, -, hcopies⟩ := World.copy_extends reachable_weighbridge (c := c) (s := s)
    (by rw [hcid, hc]) (by rw [hsid, hs]) (by rw [hsid, hsup]) hfields (by rw [hnames]; decide)
  obtain ⟨result, hresult, hcopied⟩ := hcopies weighed hdef 2 e he hrole nowhere 0 none _ [.int 5]
    (by decide) hwell (by rw [hlocal]; rfl)
  -- a weight is a number
  obtain ⟨i, rfl⟩ := (hcopied.exact_of_no_params rfl).2 (by
    rw [hlocal]
    rintro x hx
    obtain rfl := List.mem_singleton.1 hx
    exact ⟨_, rfl⟩)
  obtain ⟨hlayout, hvalues, hargs⟩ := hcopied.ok i rfl
  rw [hone] at hargs
  exact ⟨c, s, i, hc, hs, hresult, hlayout, hvalues, hargs⟩

end ClassGraph
