import ClassGraph.Proofs.Ancestry
import ClassGraph.Proofs.Writes

/-!
# Filling and instantiating

To fill an instance of a mutable class is to check the values against its fields, under its own type
arguments. To instantiate the class from these type arguments and values is to check the same, and
then the bounds. So the two agree for an instance that keeps within its bounds. An instance that has
been allocated has the type argument `Any` throughout, which may be beyond its bounds, and that is
not noticed when it is filled.

* `Instance.Shaped.checkSlots_eq`: checking fields one by one is matching them.
* `Registry.instantiate_eq_fill`: **an instantiation is a filling and a check of the bounds.**
* `Ty.admitsAny`: the bounds that `Any` is within; `Graph.bindingError?_anyArgs`: what is wrong if
  all type arguments are `Any`.
* `Registry.Written`: the instances that have been allocated and written to.
* `Registry.Reachable.fill_written`: **what has been allocated is filled with just the values that
  it could be instantiated from, but for the bounds that do not admit `Any`.**
-/

namespace ClassGraph

variable {β : Type}

/-! ## Checking and matching -/

namespace Instance

variable {i : Instance} {g : Graph} {start : Nat} {values : List Value}

/-- **To check fields one by one is to match them**, since all parameters are bound. -/
theorem Shaped.checkSlots_eq (hs : i.Shaped)
    (hlen : start + values.length ≤ i.layout.fields.length) :
    g.checkSlots i start values =
      match g.matchFields i.substitution (i.layout.fields.drop start) values with
      | .ok _ => .ok ()
      | .error m => .error (m.toError i.className) := by
  induction values generalizing start with
  | nil =>
    rw [Graph.matchFields, List.zip_nil_right]
    rfl
  | cons v vs ih =>
    have hstart : start < i.layout.fields.length := by
      rw [List.length_cons] at hlen
      omega
    have hf : i.layout.fields[start]? = some i.layout.fields[start] :=
      List.getElem?_eq_getElem hstart
    have hmatch := Graph.matchValue_bound (g := g) hs.substitution_closed v _ (hs.field_bound hf)
    rw [List.drop_eq_getElem_cons hstart, Graph.matchFields, List.zip_cons_cons, Graph.matchSlots,
      Graph.checkSlots, Graph.checkSlot, hf]
    simp only [hmatch]
    cases g.fits (i.layout.fields[start].ty.subst i.substitution) v with
    | false => rfl
    | true =>
      -- the match has bound nothing, so the rest is checked under the same bindings
      refine ih ?_
      rw [List.length_cons] at hlen
      omega

/-- A field for each value: nothing of the old values is left. -/
theorem overwrite_all (hlen : values.length = i.fields.length) :
    i.overwrite 0 values = ⟨i.layout, i.typeArgs, values⟩ := by
  simp [overwrite, hlen]

end Instance

namespace Registry

variable {r r' : Registry β} {c : ClassDef β} {id : TypeId} {i : Instance} {values : List Value}

/-- Filling an instance of the very class. -/
theorem fill_eq (hc : r.instantiable id = .ok c) (hcls : c.id = id)
    (hlayout : i.layout = c.layout) (hmut : c.layout.isMutable = true) (hs : i.Shaped) :
    r.fill i id values =
      if values.length ≠ c.layout.fields.length then
        .error (.noMatchingConstructor c.name (values.length + 1) false)
      else
        match r.graph.matchFields i.substitution c.layout.fields values with
        | .ok _ => .ok ⟨c.layout, i.typeArgs, values⟩
        | .error m => .error (m.toError c.name) := by
  have hdesc : r.descendsFrom i.cls id = true := by
    have hid : i.cls = id := by
      rw [Instance.cls, hlayout]
      exact hcls
    rw [hid]
    exact descendsFrom_refl r id
  have htarget : r.fillTarget i id = .ok c := by
    simp [fillTarget, hc, hdesc, hlayout, hmut]
  simp only [fill, htarget, fillFrom, Nat.sub_zero]
  split
  · rfl
  next hlen =>
    have hlen' : values.length = i.layout.fields.length := by
      rw [hlayout]
      simpa using hlen
    rw [hs.checkSlots_eq (Nat.le_of_eq (by rw [Nat.zero_add, hlen'])), List.drop_zero, hlayout,
      Instance.overwrite_all (by rw [hlen', hs.fields])]
    cases r.graph.matchFields i.substitution c.layout.fields values with
    | ok σ => simp only [Except.map, hlayout]
    | error m => simp only [Except.map, Instance.className, hlayout, ClassDef.name]

/-- **An instantiation is a filling and a check of the bounds**, where type arguments can be read
off as they are. -/
theorem instantiate_eq_fill (hc : r.instantiable id = .ok c) (hcls : c.id = id)
    (hlayout : i.layout = c.layout) (hmut : c.layout.isMutable = true) (hs : i.Shaped)
    (hread : Graph.typeArgsOf i.layout i.substitution = i.typeArgs)
    (hlen : values.length = c.layout.fields.length) :
    r.graph.instantiate c.layout (some i.typeArgs) ∅ values =
      (r.fill i id values).bind fun j =>
        match r.graph.bindingError? c.layout i.substitution with
        | some e => .error e
        | none => .ok j := by
  have hstart : Graph.startBindings c.layout (some i.typeArgs) ∅ = .ok i.substitution := by
    have hargs := hs.typeArgs
    rw [hlayout] at hargs
    simp [Graph.startBindings, hargs, Instance.substitution, Substitution.ofArgs, hlayout]
  rw [hlayout] at hread
  have hbound : ∀ x ∈ c.layout.fields.zip values, ∀ n ∈ x.1.ty.params,
      i.substitution.contains n = true := by
    intro x hx n hn
    obtain ⟨k, hk⟩ := List.mem_iff_getElem?.1 (List.of_mem_zip hx).1
    exact hs.field_bound (hlayout ▸ hk) n hn
  rw [fill_eq hc hcls hlayout hmut hs, if_neg (not_not.2 hlen), Graph.instantiate,
    if_neg (not_not.2 hlen), hstart]
  cases hm : r.graph.matchFields i.substitution c.layout.fields values with
  | error m =>
    simp only [hm]
    rfl
  | ok σ =>
    obtain ⟨rfl, -⟩ := (Graph.matchSlots_bound hs.substitution_closed hbound).1 hm
    simp only [hm, hread]
    rfl

/-- So an instance that keeps within its bounds is filled with just what it could be instantiated
from. -/
theorem fill_eq_instantiate (hc : r.instantiable id = .ok c) (hcls : c.id = id)
    (hlayout : i.layout = c.layout) (hmut : c.layout.isMutable = true) (hs : i.Shaped)
    (hi : i.Complete r.graph) (hlen : values.length = c.layout.fields.length) :
    r.fill i id values = r.graph.instantiate c.layout (some i.typeArgs) ∅ values := by
  have hnone : r.graph.bindingError? c.layout i.substitution = none := by
    rw [← hlayout]
    exact Graph.bindingError?_eq_none_iff.2 ⟨fun n hn => hs.contains hn, hi.bounds⟩
  rw [instantiate_eq_fill hc hcls hlayout hmut hs hi.coherent hlen, hnone]
  cases r.fill i id values <;> rfl

end Registry

/-! ## `Any` for every parameter -/

/-- **The bound admits `Any`.** Parameters stand for `Any` themselves. -/
def Ty.admitsAny : Ty → Bool
  | .any | .param _ => true
  | .prim _ | .named _ | .list _ => false

namespace Layout

/-- The type argument `Any` for each parameter. -/
def anyArgs (l : Layout) : List Ty := l.typeParams.map fun _ => .any

/-- Lets the instance pass, unless a bound of the layout does not admit `Any`. -/
def checkAny (l : Layout) (i : Instance) : Except Error Instance :=
  match l.typeParams.find? (!·.bound.admitsAny) with
  | none => .ok i
  | some p => .error (.boundViolation l.name p.name .any p.bound)

end Layout

namespace Graph

variable {g : Graph} {l : Layout} {σ : Substitution}

/-- Bounds that admit `Any` are those that it is within. -/
theorem isSubtypeOf_any {t : Ty} (h : ∀ n ∈ t.params, σ.get? n = some .any) :
    g.isSubtypeOf .any (t.subst σ) = t.admitsAny := by
  cases t with
  | any | prim _ | named _ | list _ => rfl
  | param n =>
    rw [Ty.subst_param, h n (by simp)]
    rfl

/-- Where all parameters stand for `Any`, the bounds alone decide. -/
theorem violated?_of_any {ps : List TypeParam} (hps : ∀ p ∈ ps, σ.get? p.name = some .any)
    (hbounds : ∀ p ∈ ps, ∀ n ∈ p.bound.params, σ.get? n = some .any) :
    g.violated? σ ps = (ps.find? (!·.bound.admitsAny)).map fun p => (p, .any) := by
  induction ps with
  | nil => rfl
  | cons p ps ih =>
    have hrest := ih (fun q hq => hps q (List.mem_cons_of_mem _ hq))
      fun q hq => hbounds q (List.mem_cons_of_mem _ hq)
    rw [violated?, hps p List.mem_cons_self, List.find?_cons]
    simp only [isSubtypeOf_any (hbounds p List.mem_cons_self)]
    cases p.bound.admitsAny with
    | true => simpa using hrest
    | false => rfl

/-- `Any` for every parameter is what each of them is bound to, whatever their names are. -/
theorem get?_ofArgs_anyArgs {n : Name} (hn : n ∈ l.paramNames) :
    (Substitution.ofArgs l.typeParams l.anyArgs).get? n = some .any := by
  have hget := Substitution.get?_bindAll_map (s := ∅) (n := n) (fun _ => .any) l.typeParams
  rwa [if_pos (show n ∈ l.typeParams.map (·.name) from hn)] at hget

/-- **With `Any` for every parameter**, the first bound that does not admit it is all that can be
wrong. -/
theorem bindingError?_anyArgs (hl : l.Closed) :
    g.bindingError? l (.ofArgs l.typeParams l.anyArgs) =
      (l.typeParams.find? (!·.bound.admitsAny)).map fun p =>
        .boundViolation l.name p.name .any p.bound := by
  have hall : l.typeParams.find?
      (fun p => !(Substitution.ofArgs l.typeParams l.anyArgs).contains p.name) = none := by
    rw [List.find?_eq_none]
    intro p hp
    simp [Table.contains, get?_ofArgs_anyArgs (List.mem_map_of_mem hp)]
  have hviolated := violated?_of_any (g := g)
    (fun p hp => get?_ofArgs_anyArgs (l := l) (List.mem_map_of_mem hp))
    fun p hp n hn => get?_ofArgs_anyArgs (hl.bound hp n hn)
  rw [bindingError?, hall]
  simp only [hviolated, Option.map_map]
  rfl

end Graph

/-! ## Instances that have been allocated -/

namespace Registry

/-- **The instance has been allocated** for the class, and written to since; in between other
requests may have been made of the registry. -/
inductive Written (id : TypeId) : Registry β → Instance → Prop
  | allocated {r : Registry β} {i : Instance} (hr : r.Reachable) (h : r.allocate id = .ok i) :
      Written id r i
  | write {r : Registry β} {i i' : Instance} (h : Written id r i) (q : Write)
      (hq : r.write i q = .ok i') : Written id r i'
  | later {r r' : Registry β} {i : Instance} (h : Written id r i) (hl : r.Leads r') :
      Written id r' i

variable {r r' : Registry β} {c : ClassDef β} {id : TypeId} {i i' : Instance} {q : Write}
  {values : List Value}

/-- An instance of the class with `Any` for every parameter. -/
structure OfAny (c : ClassDef β) (i : Instance) : Prop where
  layout : i.layout = c.layout
  typeArgs : i.typeArgs = c.layout.anyArgs
  shaped : i.Shaped

/-- An allocation gives one. -/
theorem ofAny_allocate (hr : r.OK) (h : r.allocate id = .ok i) :
    ∃ c, r.classDef? id = some c ∧ OfAny c i := by
  have hshape := (allocate_sound hr h).1.toShaped
  unfold allocate at h
  cases hinst : r.instantiable id with
  | error e => simp [hinst] at h
  | ok c =>
    simp only [hinst] at h
    split at h
    · cases h
    · simp only [Except.ok.injEq] at h
      subst h
      exact ⟨c, (instantiable_ok hinst).1, rfl, rfl, hshape⟩

/-- No write changes that. -/
theorem OfAny.write (hi : OfAny c i) (h : r.write i q = .ok i') : OfAny c i' := by
  obtain ⟨start, rfl, hchecked⟩ := write_ok h
  exact ⟨hi.layout, hi.typeArgs, hi.shaped.overwrite hchecked⟩

/-- **Whatever is written**, it stays an instance of the class with `Any` for every parameter. -/
theorem Written.ofAny (h : Written id r i) :
    r.Reachable ∧ ∃ c, r.classDef? id = some c ∧ OfAny c i := by
  induction h with
  | allocated hr h => exact ⟨hr, ofAny_allocate hr.ok h⟩
  | write _ q hq ih =>
    obtain ⟨hr, c, hc, hi⟩ := ih
    exact ⟨hr, c, hc, hi.write hq⟩
  | later _ hl ih =>
    obtain ⟨hr, c, hc, hi⟩ := ih
    exact ⟨hr.leads hl, c, (hl.ok hr.ok).2.classDef? hc, hi⟩

/-- Its type arguments can be read off as they are. -/
theorem OfAny.typeArgsOf_eq (hi : OfAny c i) :
    Graph.typeArgsOf i.layout i.substitution = i.typeArgs := by
  rw [hi.typeArgs, Instance.substitution, hi.typeArgs, hi.layout, Layout.anyArgs, Graph.typeArgsOf]
  refine List.map_congr_left fun p hp => ?_
  have hget := Graph.get?_ofArgs_anyArgs (List.mem_map_of_mem (f := (·.name)) hp)
  rw [Layout.anyArgs] at hget
  rw [hget]
  rfl

/-- **What filling an instance comes to** beside instantiating the class `c`: the wrong number of
values is refused by both; any others the instantiation treats alike, and looks at the bounds in
the end. -/
structure FilledUpToBounds (r : Registry β) (c : ClassDef β) (i : Instance) : Prop where
  typeArgs : i.typeArgs = c.layout.anyArgs
  refused : ∀ values : List Value, values.length ≠ c.layout.fields.length →
    r.fill i c.id values = .error (.noMatchingConstructor c.name (values.length + 1) false) ∧
    r.graph.instantiate c.layout (some c.layout.anyArgs) ∅ values =
      .error (.noMatchingConstructor c.name values.length true)
  instantiate : ∀ values : List Value, values.length = c.layout.fields.length →
    r.graph.instantiate c.layout (some c.layout.anyArgs) ∅ values =
      (r.fill i c.id values).bind c.layout.checkAny
  same : (∀ p ∈ c.typeParams, p.bound.admitsAny = true) → ∀ (values : List Value) j,
    r.fill i c.id values = .ok j ↔
      r.graph.instantiate c.layout (some c.layout.anyArgs) ∅ values = .ok j

/-- An instance that has been allocated and written to, filled with as many values as there are
fields. -/
theorem Written.instantiate_eq (h : Written id r i) (hc : r.classDef? id = some c)
    (hid : id ≠ rootId) (hmut : c.layout.isMutable = true)
    (hlen : values.length = c.layout.fields.length) :
    r.graph.instantiate c.layout (some c.layout.anyArgs) ∅ values =
      (r.fill i id values).bind c.layout.checkAny := by
  obtain ⟨hr, c₀, hc₀, hi⟩ := h.ofAny
  obtain rfl : c₀ = c := Option.some.inj (hc₀.symm.trans hc)
  have hσ : i.substitution = .ofArgs c₀.layout.typeParams c₀.layout.anyArgs := by
    rw [Instance.substitution, hi.layout, hi.typeArgs]
  have hfill := instantiate_eq_fill (hr.ok.instantiable hc hid) (hr.ok.id_eq hc) hi.layout hmut
    hi.shaped hi.typeArgsOf_eq hlen
  rw [hi.typeArgs, hσ, Graph.bindingError?_anyArgs (hr.ok.closed hc).layout] at hfill
  rw [hfill]
  congr 1
  funext j
  unfold Layout.checkAny
  cases c₀.layout.typeParams.find? (!·.bound.admitsAny) <;> rfl

/-- **Filling is instantiating with `Any` for every parameter, up to the bounds.** An instance of a
mutable class that has been allocated, and possibly written to, is filled with just the values that
the class could be instantiated from with its type arguments, and the results are the same; but
where a bound does not admit `Any`, the instantiation is refused in the end whatever the values are,
and the filling is not. -/
theorem Reachable.fill_written (hr : r.Reachable) (hc : r.classDef? c.id = some c)
    (hid : c.id ≠ rootId) (hmut : c.layout.isMutable = true) :
    (∃ i, r.allocate c.id = .ok i) ∧ ∀ i, Written c.id r i → FilledUpToBounds r c i := by
  have hinst : r.instantiable c.id = .ok c := hr.ok.instantiable hc hid
  refine ⟨⟨_, by simp only [allocate, hinst, hmut]; rfl⟩, fun i hi => ?_⟩
  obtain ⟨-, c₀, hc₀, hany⟩ := hi.ofAny
  obtain rfl : c₀ = c := Option.some.inj (hc₀.symm.trans hc)
  have hrefused : ∀ values : List Value, values.length ≠ c₀.layout.fields.length →
      r.fill i c₀.id values = .error (.noMatchingConstructor c₀.name (values.length + 1) false) ∧
      r.graph.instantiate c₀.layout (some c₀.layout.anyArgs) ∅ values =
        .error (.noMatchingConstructor c₀.name values.length true) := by
    intro values hlen
    rw [fill_eq hinst rfl hany.layout hmut hany.shaped, if_pos hlen, Graph.instantiate, if_pos hlen]
    exact ⟨rfl, rfl⟩
  refine ⟨hany.typeArgs, hrefused, fun values hlen => hi.instantiate_eq hc hid hmut hlen,
    fun hadmits values j => ?_⟩
  by_cases hlen : values.length = c₀.layout.fields.length
  · have hnone : c₀.layout.typeParams.find? (!·.bound.admitsAny) = none := by
      rw [List.find?_eq_none]
      intro p hp
      simp [hadmits p hp]
    rw [hi.instantiate_eq hc hid hmut hlen]
    cases r.fill i c₀.id values with
    | error e => exact iff_of_false (fun h => by cases h) fun h => by cases h
    | ok j' => simp only [Except.bind, Layout.checkAny, hnone]
  · obtain ⟨hfill, hnew⟩ := hrefused values hlen
    rw [hfill, hnew]
    exact iff_of_false (fun h => by cases h) fun h => by cases h

/-! ## Gauges and labels -/

/-- Two mutable classes with a parameter each, for numbers and for anything. -/
def gauges : Registry Unit :=
  (ofSettings .standard).afterAll [
    .define ⟨"Gauge", none, [⟨"T", .prim .number⟩], true, [.field ⟨"reading", .param "T"⟩]⟩,
    .define ⟨"Label", none, [⟨"T", .any⟩], true, [.field ⟨"text", .param "T"⟩]⟩]

theorem reachable_gauges : gauges.Reachable := ⟨.standard, _, rfl, leads_afterAll _ _⟩

/-- A label takes a string, allocated and filled or instantiated. -/
theorem fill_written_gauges : ∃ c i j, gauges.classDef? 4 = some c ∧ gauges.allocate 4 = .ok i ∧
    gauges.fill i 4 [.str "high"] = .ok j ∧
    gauges.graph.instantiate c.layout (some c.layout.anyArgs) ∅ [.str "high"] = .ok j := by
  have hlabel : (gauges.classDef? 4).map (fun c => (c.layout.isMutable, c.typeParams)) =
      some (true, [⟨"T", .any⟩]) := by decide +kernel
  have hfilled : ((gauges.allocate 4).toOption.bind fun i =>
      (gauges.fill i 4 [.str "high"]).toOption).isSome = true := by decide +kernel
  obtain ⟨c, hc, hlabel⟩ := Option.map_eq_some_iff.1 hlabel
  simp only [Prod.mk.injEq] at hlabel
  have hcid : c.id = 4 := reachable_gauges.ok.id_eq hc
  obtain ⟨⟨i, hi⟩, hall⟩ := reachable_gauges.fill_written (c := c) (by rw [hcid, hc])
    (by rw [hcid]; decide) hlabel.1
  have hsame := (hall i (.allocated reachable_gauges hi)).same
    (by rw [hlabel.2]; decide) [.str "high"]
  rw [hcid] at hi hsame
  rw [hi, Except.toOption, Option.bind_some] at hfilled
  cases hj : gauges.fill i 4 [.str "high"] with
  | error e => simp [hj, Except.toOption] at hfilled
  | ok j => exact ⟨c, i, j, hc, hi, hj, (hsame j).1 hj⟩

/-- A gauge is filled with a string, though it is for numbers, and no gauge could be instantiated
from it. -/
theorem not_fill_iff_instantiate : ¬ ∀ (r : Registry Unit) (c : ClassDef Unit) (i : Instance)
    (values : List Value), r.Reachable → r.classDef? c.id = some c → r.allocate c.id = .ok i →
      ∀ j, r.fill i c.id values = .ok j ↔
        r.graph.instantiate c.layout (some c.layout.anyArgs) ∅ values = .ok j := by
  intro hall
  have hgauge : (gauges.classDef? 2).map (fun c =>
      (gauges.graph.instantiate c.layout (some c.layout.anyArgs) ∅ [.str "high"]).toOption.isSome) =
      some false := by decide +kernel
  have hfilled : ((gauges.allocate 2).toOption.bind fun i =>
      (gauges.fill i 2 [.str "high"]).toOption).isSome = true := by decide +kernel
  obtain ⟨c, hc, hgauge⟩ := Option.map_eq_some_iff.1 hgauge
  have hcid : c.id = 2 := reachable_gauges.ok.id_eq hc
  cases hi : gauges.allocate 2 with
  | error e => simp [hi, Except.toOption] at hfilled
  | ok i =>
    rw [hi, Except.toOption, Option.bind_some] at hfilled
    cases hj : gauges.fill i 2 [.str "high"] with
    | error e => simp [hj, Except.toOption] at hfilled
    | ok j =>
      have hnew := (hall gauges c i [.str "high"] reachable_gauges (by rw [hcid, hc])
        (by rw [hcid, hi]) j).1 (by rw [hcid, hj])
      simp [hnew, Except.toOption] at hgauge

end Registry

end ClassGraph
