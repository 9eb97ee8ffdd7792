import ClassGraph.Construct.Writing
import ClassGraph.Proofs.Fitting
import ClassGraph.Proofs.Reachable

/-!
# Sound instances

What holds of every instance, and what holds besides of the instances that the checks of an
instantiation have let through.

* `Instance.Sound`: the layout of its class, closed type arguments, and fields that are nothing or
  match.
* `Instance.Complete`: all fields match, and the type arguments keep within their bounds.
* `Registry.instantiate_sound`: **an instantiation gives a sound and complete instance.**
* `Instance.Shaped.instantiate_eq`: **a complete instance comes out again** if it is instantiated
  from what it consists of.
-/

namespace ClassGraph

variable {β : Type}

/-! ## Growth -/

namespace Graph

variable {g g' : Graph}

/-- A way up in a graph is a way up in every graph that it grows to. -/
theorem Ext.reaches (h : g.Ext g') {target : TypeId} {fuel fuel' : Nat} (hf : fuel ≤ fuel')
    {current : Option TypeId} (hr : g.reaches target fuel current = true) :
    g'.reaches target fuel' current = true := by
  induction fuel generalizing fuel' current with
  | zero => cases hr
  | succ fuel ih =>
    obtain ⟨fuel', rfl⟩ : ∃ k, fuel' = k + 1 := ⟨fuel' - 1, by omega⟩
    cases current with
    | none => cases hr
    | some id =>
      rw [reaches_succ, Bool.or_eq_true] at hr ⊢
      rcases hr with hr | hr
      · exact .inl hr
      · right
        have hid : id < g.size := by
          by_contra hge
          -- a number without a node has nothing above it
          have hnone : g.node? id = none := node?_eq_none_iff.2 (Nat.not_lt.1 hge)
          rw [Graph.supertype, hnone, Option.bind_none, reaches_none] at hr
          cases hr
        rw [h.supertype hid]
        exact ih (by omega) hr

theorem Ext.isSubtype (h : g.Ext g') {sub sup : TypeId} (hs : g.isSubtype sub sup = true) :
    g'.isSubtype sub sup = true :=
  h.reaches (Nat.succ_le_succ h.size_le) hs

theorem Ext.accepts (h : g.Ext g') {n : Name} {v : Value} (ha : g.accepts n v = true) :
    g'.accepts n v = true := by
  cases v with
  | object i =>
    obtain ⟨id, hid, hs⟩ := (Option.any_eq_true _ _).1 ha
    exact (Option.any_eq_true _ _).2 ⟨id, h.lookup hid, h.isSubtype hs⟩
  | nothing | bool _ | int _ | float _ | str _ | list _ => cases ha

theorem Ext.fits (h : g.Ext g') {t : Ty} {v : Value} (hf : g.fits t v = true) :
    g'.fits t v = true := by
  induction t generalizing v with
  | any => simp [Graph.fits]
  | prim p => exact hf
  | named n => exact h.accepts hf
  | param n => cases hf
  | list t ih =>
    cases v with
    | list items =>
      simp only [Graph.fits, List.all_eq_true] at hf ⊢
      exact fun v hv => ih (hf v hv)
    | nothing | bool _ | int _ | float _ | str _ | object _ => cases hf

/-- **A name is below another** if it is the same one, or if both have nodes and the one node is
below the other. -/
theorem isNameBelow_iff {a b : Name} : g.isNameBelow a b = true ↔
    a = b ∨ ∃ i j, g.lookup a = some i ∧ g.lookup b = some j ∧ g.isSubtype i j = true := by
  unfold isNameBelow
  cases ha : g.lookup a with
  | none => simp
  | some i =>
    cases hb : g.lookup b with
    | none => simp
    | some j =>
      constructor
      · exact fun h => .inr ⟨i, j, rfl, rfl, h⟩
      · rintro (rfl | ⟨i', j', hi, hj, h⟩)
        · obtain rfl : i = j := Option.some.inj (ha.symm.trans hb)
          exact isSubtype_self
        · cases hi
          cases hj
          exact h

theorem Ext.isNameBelow (h : g.Ext g') {a b : Name} (hb : g.isNameBelow a b = true) :
    g'.isNameBelow a b = true := by
  rcases isNameBelow_iff.1 hb with hab | ⟨i, j, hi, hj, hij⟩
  · exact isNameBelow_iff.2 (.inl hab)
  · exact isNameBelow_iff.2 (.inr ⟨i, j, h.lookup hi, h.lookup hj, h.isSubtype hij⟩)

theorem Ext.isSubtypeOf (h : g.Ext g') {sub sup : Ty} (hs : g.isSubtypeOf sub sup = true) :
    g'.isSubtypeOf sub sup = true := by
  induction sup generalizing sub with
  | any => simp [Graph.isSubtypeOf]
  | prim q => cases sub <;> exact hs
  | named b =>
    cases sub with
    | named a => exact h.isNameBelow hs
    | any | prim _ | param _ | list _ => cases hs
  | param n =>
    simp only [Graph.isSubtypeOf] at hs ⊢
    exact hs
  | list u ih =>
    cases sub with
    | list t => exact ih hs
    | any | prim _ | named _ | param _ => cases hs

/-- No bound is violated if every parameter keeps within its own. -/
theorem violated?_eq_none_iff {s : Substitution} {ps : List TypeParam} :
    g.violated? s ps = none ↔
      ∀ p ∈ ps, ∀ t, s.get? p.name = some t → g.isSubtypeOf t (p.bound.subst s) = true := by
  induction ps with
  | nil => simp [violated?]
  | cons p ps ih =>
    rw [violated?, List.forall_mem_cons]
    cases hp : s.get? p.name with
    | none => simp [ih]
    | some t =>
      by_cases ht : g.isSubtypeOf t (p.bound.subst s) = true
      · simp [ht, ih]
      · simp [ht]

end Graph

/-! ## Type arguments -/

namespace Substitution

variable {s : Substitution} {n : Name}

theorem contains_bindAll_of_contains (ps : List TypeParam) (ts : List Ty)
    (h : s.contains n = true) : (s.bindAll ps ts).contains n = true := by
  induction ps generalizing s ts with
  | nil => exact h
  | cons p ps ih =>
    cases ts with
    | nil => exact h
    | cons t ts =>
      rw [bindAll_cons]
      exact ih ts (by rw [Table.contains_insert, h, Bool.or_true])

/-- With a type for each parameter, each parameter is bound. -/
theorem contains_bindAll {ps : List TypeParam} {ts : List Ty} (hl : ts.length = ps.length)
    (hn : n ∈ ps.map (·.name)) : (s.bindAll ps ts).contains n = true := by
  induction ps generalizing s ts with
  | nil => cases hn
  | cons p ps ih =>
    cases ts with
    | nil => cases hl
    | cons t ts =>
      rw [bindAll_cons]
      rcases List.mem_cons.1 hn with rfl | hn
      · exact contains_bindAll_of_contains ps ts (by simp [Table.contains_insert])
      · exact ih (by simpa using hl) hn

/-- Parameters bound to types that depend on their names alone, repeated names or not. -/
theorem get?_bindAll_map (F : Name → Ty) (ps : List TypeParam) :
    (s.bindAll ps (ps.map fun p => F p.name)).get? n =
      if n ∈ ps.map (·.name) then some (F n) else s.get? n := by
  induction ps generalizing s with
  | nil => simp
  | cons p ps ih =>
    rw [List.map_cons, bindAll_cons, ih, Table.get?_insert]
    by_cases hps : n ∈ ps.map (·.name)
    · simp [hps]
    · by_cases hp : p.name = n
      · simp [hp]
      · have hp' : ¬ n = p.name := fun e => hp e.symm
        simp only [if_neg hps, if_neg hp, List.map_cons, List.mem_cons, hp', false_or]

end Substitution

/-! ## Soundness -/

namespace Instance

/-- The predicate holds of every value together with its field. -/
def Each (i : Instance) (P : Field → Value → Prop) : Prop :=
  ∀ (k : Nat) f v, i.layout.fields[k]? = some f → i.fields[k]? = some v → P f v

/-- The value matches the type of the field under the instance's own type arguments. -/
def Matches (g : Graph) (i : Instance) (f : Field) (v : Value) : Prop :=
  g.matchValue i.substitution f.ty v = .ok i.substitution

/-- One closed type argument for each parameter and one value for each field, of a layout that is
closed. -/
structure Shaped (i : Instance) : Prop where
  typeArgs : i.typeArgs.length = i.layout.typeParams.length
  fields : i.fields.length = i.layout.fields.length
  closed : ∀ t ∈ i.typeArgs, t.isClosed = true
  layout_closed : i.layout.Closed

/-- **A sound instance**: it has the layout of its class, is of the shape that the layout demands,
and each of its fields is nothing or matches. -/
structure Sound (r : Registry β) (i : Instance) : Prop extends i.Shaped where
  layout : r.layout i.cls = .ok i.layout
  values : i.Each fun f v => v = .nothing ∨ i.Matches r.graph f v

/-- **A complete instance**: each of its fields matches, its type arguments keep within their
bounds, and parameters of one name have one argument. -/
structure Complete (g : Graph) (i : Instance) : Prop where
  coherent : Graph.typeArgsOf i.layout i.substitution = i.typeArgs
  bounds : g.violated? i.substitution i.layout.typeParams = none
  values : i.Each (i.Matches g)

variable {i : Instance} {g g' : Graph}

theorem Shaped.substitution_closed (h : i.Shaped) : i.substitution.Closed :=
  Substitution.Closed.empty.bindAll _ h.closed

theorem Shaped.contains (h : i.Shaped) {n : Name} (hn : n ∈ i.layout.paramNames) :
    i.substitution.contains n = true := Substitution.contains_bindAll h.typeArgs hn

theorem Shaped.field_bound (h : i.Shaped) {k : Nat} {f : Field}
    (hf : i.layout.fields[k]? = some f) :
    ∀ n ∈ f.ty.params, i.substitution.contains n = true := fun n hn =>
  h.contains (h.layout_closed.field (List.mem_of_getElem? hf) n hn)

/-- In an instance of the right shape, to match is to fit. -/
theorem Shaped.matches_iff (h : i.Shaped) {k : Nat} {f : Field}
    (hf : i.layout.fields[k]? = some f) (v : Value) :
    i.Matches g f v ↔ g.fits (f.ty.subst i.substitution) v = true := by
  rw [Matches, Graph.matchValue_bound h.substitution_closed v f.ty (h.field_bound hf),
    Graph.verdict_eq_ok_iff]
  simp

/-- What passes the check of a field matches it. -/
theorem Shaped.matches_of_ok (h : i.Shaped) {k : Nat} {f : Field}
    (hf : i.layout.fields[k]? = some f) {v : Value} {s : Substitution}
    (hv : g.matchValue i.substitution f.ty v = .ok s) : i.Matches g f v := by
  have hb := Graph.matchValue_bound (g := g) h.substitution_closed v f.ty (h.field_bound hf)
  obtain ⟨-, rfl⟩ := Graph.verdict_eq_ok_iff.1 (hb ▸ hv)
  exact hv

theorem Shaped.matches_ext (h : i.Shaped) (he : g.Ext g') {k : Nat} {f : Field}
    (hf : i.layout.fields[k]? = some f) {v : Value} (hv : i.Matches g f v) : i.Matches g' f v :=
  (h.matches_iff hf v).2 (he.fits ((h.matches_iff hf v).1 hv))

theorem Sound.ext {r r' : Registry β} (h : i.Sound r) (he : r.Ext r') : i.Sound r' where
  toShaped := h.toShaped
  layout := by
    have hl := h.layout
    unfold Registry.layout at hl ⊢
    cases hd : r.classDef? i.cls with
    | none => simp [hd] at hl
    | some d =>
      rw [he.classDef? hd]
      simpa [hd] using hl
  values k f v hf hv := (h.values k f v hf hv).imp_right (h.matches_ext he.graph hf)

theorem Complete.ext (hs : i.Shaped) (h : i.Complete g) (he : g.Ext g') : i.Complete g' where
  coherent := h.coherent
  bounds := by
    have hb := h.bounds
    rw [Graph.violated?_eq_none_iff] at hb ⊢
    exact fun p hp t ht => he.isSubtypeOf (hb p hp t ht)
  values k f v hf hv := hs.matches_ext he hf (h.values k f v hf hv)

/-- An instance with the layout of its class is of a class of the registry. -/
theorem classDef?_of_layout {r : Registry β} (hl : r.layout i.cls = .ok i.layout) :
    ∃ d, r.classDef? i.cls = some d ∧ d.layout = i.layout := by
  unfold Registry.layout at hl
  cases hd : r.classDef? i.cls with
  | none => simp [hd] at hl
  | some d =>
    simp only [hd, Except.ok.injEq] at hl
    exact ⟨d, rfl, hl⟩

/-- It has the name that leads to the class. -/
theorem lookup_of_layout {r : Registry β} (hr : r.OK) (hl : r.layout i.cls = .ok i.layout) :
    r.graph.lookup i.className = some i.cls := by
  obtain ⟨d, hd, hlayout⟩ := classDef?_of_layout hl
  have hname := hr.lookup hd
  rwa [ClassDef.name, hlayout] at hname

/-- The class of a sound instance is the one that its name leads to. -/
theorem Sound.lookup {r : Registry β} (h : i.Sound r) (hr : r.OK) :
    r.graph.lookup i.className = some i.cls := lookup_of_layout hr h.layout

end Instance

/-! ## Instantiation -/

/-- Type arguments, if there are any, without parameters in them. -/
def ClosedArgs (typeArgs : Option (List Ty)) : Prop :=
  ∀ ts, typeArgs = some ts → ∀ t ∈ ts, t.isClosed = true

theorem ClosedArgs.take {typeArgs : Option (List Ty)} (h : ClosedArgs typeArgs) (n : Nat) :
    ClosedArgs (typeArgs.map (·.take n)) := by
  intro ts hts t ht
  obtain ⟨us, hus, rfl⟩ := Option.map_eq_some_iff.1 hts
  exact h us hus t (List.mem_of_mem_take ht)

namespace Graph

variable {g : Graph} {l : Layout} {typeArgs : Option (List Ty)} {seed s s' : Substitution}
  {values : List Value} {i : Instance}

theorem startBindings_closed (hts : ClosedArgs typeArgs) (hseed : seed.Closed)
    (h : startBindings l typeArgs seed = .ok s) : s.Closed := by
  cases typeArgs with
  | none =>
    cases h
    exact hseed
  | some ts =>
    simp only [startBindings] at h
    split at h
    · cases h
    · simp only [Except.ok.injEq] at h
      rw [← h]
      exact hseed.bindAll _ (hts ts rfl)

/-- Nothing is wrong with bindings that bind every parameter within its bound. -/
theorem bindingError?_eq_none_iff : g.bindingError? l s = none ↔
    (∀ n ∈ l.paramNames, s.contains n = true) ∧ g.violated? s l.typeParams = none := by
  have hfind : l.typeParams.find? (fun p => !s.contains p.name) = none ↔
      ∀ n ∈ l.paramNames, s.contains n = true := by
    simp [Layout.paramNames]
  unfold bindingError?
  cases hp : l.typeParams.find? fun p => !s.contains p.name with
  | none =>
    rw [hp] at hfind
    simpa using fun _ => hfind.1 rfl
  | some p =>
    rw [hp] at hfind
    constructor
    · intro h
      cases h
    · intro h
      cases hfind.2 h.1

/-- An instantiation comes from bindings that have passed all checks. -/
theorem instantiate_ok (h : g.instantiate l typeArgs seed values = .ok i) :
    values.length = l.fields.length ∧ ∃ s s', startBindings l typeArgs seed = .ok s ∧
      g.matchFields s l.fields values = .ok s' ∧ g.bindingError? l s' = none ∧
      i = ⟨l, typeArgsOf l s', values⟩ := by
  unfold instantiate at h
  split at h
  · cases h
  next hlen =>
    cases hs : startBindings l typeArgs seed with
    | error e => simp [hs] at h
    | ok s =>
    cases hm : g.matchFields s l.fields values with
    | error m => simp [hs, hm] at h
    | ok s' =>
    cases hb : g.bindingError? l s' with
    | some e => simp [hs, hm, hb] at h
    | none =>
    simp only [hs, hm, hb, Except.ok.injEq] at h
    exact ⟨by simpa using hlen, s, s', rfl, hm, hb, h.symm⟩

end Graph

namespace Instance

variable {g : Graph} {l : Layout} {s : Substitution} {values : List Value}

/-- Type arguments that are read off some bindings bind the parameters as these do. -/
theorem get?_substitution_typeArgsOf (hb : ∀ n ∈ l.paramNames, s.contains n = true) {n : Name}
    (hn : n ∈ l.paramNames) :
    (Instance.mk l (Graph.typeArgsOf l s) values).substitution.get? n = s.get? n := by
  have hget := Substitution.get?_bindAll_map (s := ∅) (n := n)
    (fun m => (s.get? m).getD .any) l.typeParams
  rw [if_pos (show n ∈ l.typeParams.map (·.name) from hn)] at hget
  obtain ⟨t, ht⟩ := Option.isSome_iff_exists.1 (hb n hn)
  rw [ht] at hget ⊢
  exact hget

/-- An instance with such type arguments has the right shape. -/
theorem shaped_typeArgsOf (hl : l.Closed) (hs : s.Closed)
    (hlen : values.length = l.fields.length) :
    (Instance.mk l (Graph.typeArgsOf l s) values).Shaped := by
  refine ⟨by simp [Graph.typeArgsOf], hlen, fun t ht => ?_, hl⟩
  obtain ⟨p, -, rfl⟩ := List.mem_map.1 ht
  cases hp : s.get? p.name with
  | none => rfl
  | some t => exact hs p.name t hp

/-- It is complete, if under the bindings all bounds are kept and all values fit. -/
theorem complete_typeArgsOf (hl : l.Closed) (hs : s.Closed)
    (hlen : values.length = l.fields.length) (hb : ∀ n ∈ l.paramNames, s.contains n = true)
    (hviol : g.violated? s l.typeParams = none)
    (hfit : ∀ x ∈ l.fields.zip values, g.fits (x.1.ty.subst s) x.2 = true) :
    (Instance.mk l (Graph.typeArgsOf l s) values).Complete g := by
  have hsub : ∀ n ∈ l.paramNames,
      (Instance.mk l (Graph.typeArgsOf l s) values).substitution.get? n = s.get? n :=
    fun _ hn => get?_substitution_typeArgsOf hb hn
  refine ⟨List.map_congr_left fun p hp => ?_, ?_, fun k f v hf hv => ?_⟩
  · -- read off again, the type arguments are the same
    rw [hsub p.name (List.mem_map_of_mem hp)]
  · -- bounds
    rw [Graph.violated?_eq_none_iff] at hviol ⊢
    intro p hp t ht
    rw [hsub p.name (List.mem_map_of_mem hp)] at ht
    rw [Ty.subst_congr fun n hn => hsub n (hl.bound hp n hn)]
    exact hviol p hp t ht
  · -- fields
    have hmem : (f, v) ∈ l.fields.zip values :=
      List.mem_of_getElem? (List.getElem?_zip_eq_some.2 ⟨hf, hv⟩)
    rw [(shaped_typeArgsOf hl hs hlen).matches_iff hf]
    rw [Ty.subst_congr fun n hn => hsub n (hl.field (List.mem_of_getElem? hf) n hn)]
    exact hfit (f, v) hmem

end Instance

namespace Registry

variable {r : Registry β} {d : ClassDef β} {id : TypeId} {typeArgs : Option (List Ty)}
  {seed : Substitution} {values : List Value} {i : Instance}

/-- **An instantiation** of a class, from closed type arguments and from values whose classes are
known, gives a sound and complete instance. -/
theorem instantiate_sound (hr : r.OK) (hd : r.instantiable id = .ok d) (hts : ClosedArgs typeArgs)
    (hseed : seed.Closed) (hv : ∀ v ∈ values, r.graph.Names v)
    (h : r.graph.instantiate d.layout typeArgs seed values = .ok i) :
    i.layout = d.layout ∧ i.fields = values ∧ i.Sound r ∧ i.Complete r.graph := by
  obtain ⟨hlen, s, s', hs, hm, hb, rfl⟩ := Graph.instantiate_ok h
  obtain ⟨hbound, hviol⟩ := Graph.bindingError?_eq_none_iff.1 hb
  obtain ⟨hc, -⟩ := instantiable_ok hd
  have hl : d.layout.Closed := (hr.closed hc).layout
  have hleaves := Graph.matchSlots_ok (Graph.startBindings_closed hts hseed hs)
    (fun x hx => hv _ (List.of_mem_zip hx).2) hm
  have hfit : ∀ x ∈ d.layout.fields.zip values,
      r.graph.fits (x.1.ty.subst s') x.2 = true := by
    -- the match binds all parameters, and so those in the types of the fields
    refine hleaves.later s' (.refl s') fun n hn => ?_
    obtain ⟨x, hx, hn⟩ := List.mem_flatMap.1 hn
    exact hbound n (hl.field (List.of_mem_zip hx).1 n hn)
  have hshape := Instance.shaped_typeArgsOf hl hleaves.closed hlen
  have hcomplete := Instance.complete_typeArgsOf hl hleaves.closed hlen hbound hviol hfit
  have hlayout : r.layout d.layout.cls = .ok d.layout := by
    have hid : r.classDef? d.layout.cls = some d := by
      rw [← hr.id_eq hc] at hc
      exact hc
    rw [Registry.layout, hid]
  exact ⟨rfl, rfl, ⟨hshape, hlayout, fun k f v hf hv => .inr (hcomplete.values k f v hf hv)⟩,
    hcomplete⟩

end Registry

/-- **A complete instance comes out again**, if its class is instantiated from its type arguments
and its fields. -/
theorem Instance.Shaped.instantiate_eq {g : Graph} {i : Instance} (hs : i.Shaped)
    (hc : i.Complete g) : g.instantiate i.layout (some i.typeArgs) ∅ i.fields = .ok i := by
  have hstart : Graph.startBindings i.layout (some i.typeArgs) ∅ = .ok i.substitution := by
    simp [Graph.startBindings, hs.typeArgs, substitution, Substitution.ofArgs]
  have hmatch : g.matchFields i.substitution i.layout.fields i.fields = .ok i.substitution := by
    have hslot : ∀ x ∈ i.layout.fields.zip i.fields, ∃ k : Nat,
        i.layout.fields[k]? = some x.1 ∧ i.fields[k]? = some x.2 := by
      intro x hx
      obtain ⟨k, hk⟩ := List.mem_iff_getElem?.1 hx
      exact ⟨k, List.getElem?_zip_eq_some.1 hk⟩
    refine (Graph.matchSlots_bound hs.substitution_closed fun x hx => ?_).2
      ⟨rfl, fun x hx => ?_⟩
    · obtain ⟨k, hf, -⟩ := hslot x hx
      exact hs.field_bound hf
    · obtain ⟨k, hf, hv⟩ := hslot x hx
      exact (hs.matches_iff hf _).1 (hc.values k _ _ hf hv)
  have hbind : g.bindingError? i.layout i.substitution = none :=
    Graph.bindingError?_eq_none_iff.2 ⟨fun n hn => hs.contains hn, hc.bounds⟩
  rw [Graph.instantiate, if_neg (by simp [hs.fields])]
  simp only [hstart, hmatch, hbind, hc.coherent]
  cases i
  rfl

end ClassGraph
