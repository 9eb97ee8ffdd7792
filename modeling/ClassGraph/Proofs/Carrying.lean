import ClassGraph.Proofs.Fitting
import ClassGraph.Proofs.InheritedLayout

/-!
# Types carried from a layout to one that begins with it

The layout of a class begins with the layout of each of its ancestors, under a renaming of the type
parameters. What the type parameters stand for is given by place, so it can be read off under the
names of the ancestor and under those of the class.

* `Layout.Begins`: a layout begins with another one, renamed; `Chain.begins`: **a layout begins with
  those of all ancestors.**
* `Substitution.Reads`: the bindings give each parameter the type at its place.
* `Substitution.Carries`: what a parameter stands for under its old name, it stands for under the
  new one; `Carries.subst_eq`: **types mean the same under both.**
-/

namespace ClassGraph

variable {β : Type}

/-! ## Layouts that begin with another one -/

theorem Ty.rename_rename (f f' : Name → Name) (t : Ty) :
    (t.rename f).rename f' = t.rename (f' ∘ f) := by
  induction t with
  | list t ih => rw [rename, rename, rename, ih]
  | any | prim _ | named _ | param _ => rfl

theorem TypeParam.rename_rename (f f' : Name → Name) (p : TypeParam) :
    (p.rename f).rename f' = p.rename (f' ∘ f) := by
  simp [TypeParam.rename, Ty.rename_rename]

theorem Field.rename_rename (f f' : Name → Name) (x : Field) :
    (x.rename f).rename f' = x.rename (f' ∘ f) := by
  simp [Field.rename, Ty.rename_rename]

/-- What a list begins with has its place in it. -/
theorem getElem?_of_prefix_map {α γ : Type} {F : α → γ} {xs : List α} {ys : List γ}
    (h : xs.map F <+: ys) {k : Nat} {x : α} (hx : xs[k]? = some x) : ys[k]? = some (F x) := by
  obtain ⟨hk, rfl⟩ := List.getElem?_eq_some_iff.1 hx
  rw [List.prefix_iff_getElem?.1 h k (by simpa using hk), List.getElem_map]

/-- **The layout `l'` begins with `l`**, the type parameters of which it has renamed by `f`. -/
structure Layout.Begins (f : Name → Name) (l l' : Layout) : Prop where
  typeParams : l.typeParams.map (·.rename f) <+: l'.typeParams
  fields : l.fields.map (·.rename f) <+: l'.fields

namespace Layout.Begins

variable {f f' : Name → Name} {l l' l'' : Layout}

theorem trans (h : l.Begins f l') (h' : l'.Begins f' l'') : l.Begins (f' ∘ f) l'' where
  typeParams := by
    have hmap := (h.typeParams.map (·.rename f')).trans h'.typeParams
    rw [List.map_map] at hmap
    rwa [List.map_congr_left fun p _ => (TypeParam.rename_rename f f' p).symm]
  fields := by
    have hmap := (h.fields.map (·.rename f')).trans h'.fields
    rw [List.map_map] at hmap
    rwa [List.map_congr_left fun x _ => (Field.rename_rename f f' x).symm]

/-- A parameter of the one layout has its place in the other. -/
theorem getElem?_typeParams (h : l.Begins f l') {k : Nat} {p : TypeParam}
    (hp : l.typeParams[k]? = some p) : l'.typeParams[k]? = some (p.rename f) :=
  getElem?_of_prefix_map h.typeParams hp

/-- So has a field. -/
theorem getElem?_fields (h : l.Begins f l') {k : Nat} {x : Field}
    (hx : l.fields[k]? = some x) : l'.fields[k]? = some (x.rename f) :=
  getElem?_of_prefix_map h.fields hx

theorem length_typeParams_le (h : l.Begins f l') :
    l.typeParams.length ≤ l'.typeParams.length := by
  simpa using h.typeParams.length_le

theorem length_fields_le (h : l.Begins f l') : l.fields.length ≤ l'.fields.length := by
  simpa using h.fields.length_le

end Layout.Begins

namespace Registry

variable {r : Registry β} {id : TypeId} {c s : ClassDef β} {decl : ClassDecl β} {h : Heritage}
  {n : Nat} {ids : List TypeId}

/-- A layout begins with that of the superclass. -/
theorem Extends.begins (he : r.Extends decl c s h n) : s.layout.Begins (freshName n) c.layout where
  typeParams := by
    rw [he.typeParams, he.params]
    exact List.prefix_append _ _
  fields := by
    rw [he.fields, he.renamed]
    exact List.prefix_append _ _

/-- **A layout begins with those of all ancestors**, at whatever distance they are. -/
theorem Chain.begins (hr : r.OK) (hc : r.Chain id ids) :
    ∀ {c : ClassDef β}, r.classDef? id = some c →
      ∀ a ∈ ids, ∃ s f, r.classDef? a = some s ∧ s.layout.Begins f c.layout := by
  induction hc with
  | root => simp
  | @step id sup d ids hid hd hs _ ih =>
    intro c hc a ha
    cases hd.symm.trans hc
    obtain ⟨decl, o, h, hm, hsup⟩ := hr.made_on hd hs
    obtain ⟨n, he⟩ := hm.extends hr
    rcases List.mem_cons.1 ha with rfl | ha
    · exact ⟨o.superDef, _, hsup, he.begins⟩
    · -- one more level, one more renaming
      obtain ⟨s, f, hs, hf⟩ := ih hsup a ha
      exact ⟨s, _, hs, hf.trans he.begins⟩

end Registry

/-! ## Type arguments by place -/

namespace Substitution

variable {σ σ' σ'' : Substitution} {ps : List TypeParam} {ts : List Ty} {f : Name → Name}

/-- A name that no parameter has is bound as before. -/
theorem get?_bindAll_of_not_mem {n : Name} (hn : n ∉ ps.map (·.name)) :
    (σ.bindAll ps ts).get? n = σ.get? n := by
  induction ps generalizing σ ts with
  | nil => rfl
  | cons p ps ih =>
    cases ts with
    | nil => rfl
    | cons t ts =>
      have hp : p.name ≠ n := fun e => hn (by simp [e])
      have hps : n ∉ ps.map (·.name) := fun h => hn (List.mem_cons_of_mem _ h)
      rw [bindAll_cons, ih hps, Table.get?_insert_of_ne hp]

/-- Parameters that all have different names are bound to the types at the same places. -/
theorem get?_bindAll_of_nodup (hps : (ps.map (·.name)).Nodup) {k : Nat} {p : TypeParam} {t : Ty}
    (hp : ps[k]? = some p) (ht : ts[k]? = some t) : (σ.bindAll ps ts).get? p.name = some t := by
  induction ps generalizing σ ts k with
  | nil => simp at hp
  | cons q ps ih =>
    cases ts with
    | nil => simp at ht
    | cons u ts =>
      rw [List.map_cons, List.nodup_cons] at hps
      rw [bindAll_cons]
      cases k with
      | zero =>
        obtain rfl : q = p := by simpa using hp
        obtain rfl : u = t := by simpa using ht
        rw [get?_bindAll_of_not_mem hps.1, Table.get?_insert_self]
      | succ k => exact ih hps.2 (by simpa using hp) (by simpa using ht)

/-- **The bindings read the types at the parameters**: each parameter is bound to the type at its
place. -/
def Reads (σ : Substitution) (ps : List TypeParam) (ts : List Ty) : Prop :=
  ∀ (k : Nat) p t, ps[k]? = some p → ts[k]? = some t → σ.get? p.name = some t

/-- Parameters that all have different names are bound by place. -/
theorem reads_bindAll (hps : (ps.map (·.name)).Nodup) (ts : List Ty) :
    (σ.bindAll ps ts).Reads ps ts := fun _ _ _ hp ht => get?_bindAll_of_nodup hps hp ht

/-- In any case a name is bound to the type at the place of some parameter with that name. -/
theorem exists_get?_bindAll (hlen : ts.length = ps.length) {n : Name}
    (hn : n ∈ ps.map (·.name)) : ∃ (k : Nat) (p : TypeParam) (t : Ty),
      ps[k]? = some p ∧ p.name = n ∧ ts[k]? = some t ∧
        ∀ σ : Substitution, (σ.bindAll ps ts).get? n = some t := by
  induction ps generalizing ts with
  | nil => cases hn
  | cons q ps ih =>
    cases ts with
    | nil => cases hlen
    | cons u ts =>
      by_cases hlater : n ∈ ps.map (·.name)
      · -- a later parameter of that name counts
        obtain ⟨k, p, t, hp, hpn, ht, hget⟩ := ih (by simpa using hlen) hlater
        exact ⟨k + 1, p, t, hp, hpn, ht, fun σ => hget (σ.insert q.name u)⟩
      · have hq : q.name = n := by
          rw [List.map_cons, List.mem_cons] at hn
          exact (hn.resolve_right hlater).symm
        refine ⟨0, q, u, rfl, hq, rfl, fun σ => ?_⟩
        rw [bindAll_cons, get?_bindAll_of_not_mem hlater, hq, Table.get?_insert_self]

/-- Types that are bound by place come first among the type arguments. -/
theorem Reads.take_typeArgsOf {l : Layout} (h : σ.Reads l.typeParams ts)
    (hlen : ts.length ≤ l.typeParams.length) : (Graph.typeArgsOf l σ).take ts.length = ts := by
  refine List.ext_getElem (by simp [Graph.typeArgsOf, hlen]) fun k hk hk' => ?_
  have hget := h k _ _ (List.getElem?_eq_getElem (by omega)) (List.getElem?_eq_getElem hk')
  simp [Graph.typeArgsOf, hget]

/-- Types for all parameters, bound by place, are the type arguments. -/
theorem typeArgsOf_bindAll {l : Layout} (hl : l.paramNames.Nodup)
    (hlen : ts.length = l.typeParams.length) :
    Graph.typeArgsOf l (σ.bindAll l.typeParams ts) = ts := by
  have htake := (reads_bindAll (σ := σ) hl ts).take_typeArgsOf (Nat.le_of_eq hlen)
  rwa [List.take_of_length_le] at htake
  simp [Graph.typeArgsOf, hlen]

/-- **The bindings `σ'` carry over `σ`**: they give each parameter of the layout under its new name
the type that `σ` gives it under the old one. -/
def Carries (f : Name → Name) (l : Layout) (σ σ' : Substitution) : Prop :=
  ∀ m ∈ l.paramNames, ∃ u, σ.get? m = some u ∧ σ'.get? (f m) = some u

/-- What is read under the new names is carried over, if the types are bound to the old ones by
place. -/
theorem Reads.carries {l : Layout} (h : σ'.Reads ps ts)
    (hpre : l.typeParams.map (·.rename f) <+: ps) (hlen : l.typeParams.length ≤ ts.length) :
    Carries f l (σ.bindAll l.typeParams (ts.take l.typeParams.length)) σ' := by
  intro m hm
  have htake : (ts.take l.typeParams.length).length = l.typeParams.length := by simp [hlen]
  obtain ⟨k, p, t, hp, rfl, ht, hget⟩ := exists_get?_bindAll htake hm
  have hk : k < l.typeParams.length := (List.getElem?_eq_some_iff.1 hp).1
  rw [List.getElem?_take_of_lt hk] at ht
  exact ⟨t, hget σ, h k _ t (getElem?_of_prefix_map hpre hp) ht⟩

/-- What is carried over stays so under more bindings. -/
theorem Carries.mono {l : Layout} (h : Carries f l σ σ') (he : σ'.Extends σ'') :
    Carries f l σ σ'' := by
  intro m hm
  obtain ⟨u, hu, hu'⟩ := h m hm
  exact ⟨u, hu, he _ _ hu'⟩

/-- A type over the old names means the same as under the new names. -/
theorem Carries.subst_eq {l : Layout} (h : Carries f l σ σ') {t : Ty}
    (ht : ∀ m ∈ t.params, m ∈ l.paramNames) : (t.rename f).subst σ' = t.subst σ :=
  Ty.subst_rename fun m hm => h m (ht m hm)

end Substitution

namespace Registry

/-- **Type arguments of a class** carry over those among them that belong to the superclass. -/
theorem Extends.carries {r : Registry β} {c s : ClassDef β} {decl : ClassDecl β} {h : Heritage}
    {n : Nat} {us : List Ty} (he : r.Extends decl c s h n) (hnodup : c.layout.paramNames.Nodup)
    (hus : s.layout.typeParams.length ≤ us.length) (σ σ' : Substitution) :
    Substitution.Carries (freshName n) s.layout
      (σ.bindAll s.layout.typeParams (us.take s.layout.typeParams.length))
      (σ'.bindAll c.layout.typeParams us) :=
  (Substitution.reads_bindAll hnodup us).carries he.begins.typeParams hus

end Registry

end ClassGraph
