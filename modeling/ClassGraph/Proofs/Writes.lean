import ClassGraph.Proofs.Instances

/-!
# Writing keeps instances sound

The three ways to write to an instance differ in which fields they write to. All of them check
each value against its field first, and leave the layout and the type arguments alone.

* `Registry.write_ok`: a write overwrites some fields with values that match.
* `Registry.write_sound`, `Registry.write_complete`: **a write keeps an instance sound, and
  complete if it was.**
* `Registry.allocate_sound`: an instance that has been allocated is sound.
* `Registry.forget_write`, `Registry.forget_allocate`: constructor bodies do not matter for this.
-/

namespace ClassGraph

variable {β : Type}

/-- What can be written to an instance: one field, or all fields of a class of the hierarchy, or
those that the class itself declares. -/
inductive Write
  | setField (field : Name) (v : Value)
  | fill (cls : TypeId) (values : List Value)
  | fillLocal (cls : TypeId) (values : List Value)

/-- The values that are written. -/
def Write.values : Write → List Value
  | setField _ v => [v]
  | fill _ values => values
  | fillLocal _ values => values

/-- The instance after a write. -/
def Registry.write (r : Registry β) (i : Instance) : Write → Except Error Instance
  | .setField field v => r.graph.setField i field v
  | .fill cls values => r.fill i cls values
  | .fillLocal cls values => r.fillLocal i cls values

/-! ## Overwriting -/

/-- Values pass if each of them passes at its place. -/
theorem Graph.checkSlots_eq_ok_iff {g : Graph} {i : Instance} {start : Nat} {vs : List Value} :
    g.checkSlots i start vs = .ok () ↔
      ∀ k v, vs[k]? = some v → g.checkSlot i (start + k) v = .ok () := by
  induction vs generalizing start with
  | nil => simp [checkSlots]
  | cons v vs ih =>
    rw [checkSlots]
    constructor
    · intro h k w hw
      cases hv : g.checkSlot i start v with
      | error e => simp [hv] at h
      | ok _ =>
        simp only [hv] at h
        cases k with
        | zero =>
          obtain rfl : v = w := by simpa using hw
          exact hv
        | succ k =>
          have hk := ih.1 h k w (by simpa using hw)
          rwa [show start + 1 + k = start + (k + 1) by omega] at hk
    · intro h
      have hv : g.checkSlot i start v = .ok () := h 0 v rfl
      simp only [hv]
      apply ih.2
      intro k w hw
      rw [show start + 1 + k = start + (k + 1) by omega]
      exact h (k + 1) w (by simpa using hw)

namespace Instance

variable {i : Instance} {g : Graph} {start : Nat} {values : List Value}

theorem length_overwrite (h : start + values.length ≤ i.fields.length) :
    (i.overwrite start values).fields.length = i.fields.length := by
  simp only [overwrite, List.length_append, List.length_take, List.length_drop]
  omega

/-- The slots from `start` on hold the new values, and all others what they have held. -/
theorem getElem?_overwrite (h : start + values.length ≤ i.fields.length) (k : Nat) :
    (i.overwrite start values).fields[k]? =
      if start ≤ k ∧ k < start + values.length then values[k - start]? else i.fields[k]? := by
  have hfront : (i.fields.take start).length = start := by
    rw [List.length_take]
    omega
  simp only [overwrite, List.append_assoc]
  rcases Nat.lt_or_ge k start with hk | hk
  · rw [List.getElem?_append_left (by omega), List.getElem?_take_of_lt hk, if_neg (by omega)]
  rw [List.getElem?_append_right (by omega), hfront]
  rcases Nat.lt_or_ge (k - start) values.length with hk' | hk'
  · rw [List.getElem?_append_left hk', if_pos (by omega)]
  · rw [List.getElem?_append_right hk', List.getElem?_drop, if_neg (by omega)]
    congr 1
    omega

/-- Values that pass their checks match fields of the instance. -/
theorem Shaped.checkSlots_ok (hs : i.Shaped) (h : g.checkSlots i start values = .ok ()) :
    ∀ (k : Nat) v, values[k]? = some v →
      ∃ f, i.layout.fields[start + k]? = some f ∧ i.Matches g f v := by
  intro k v hv
  have hslot := Graph.checkSlots_eq_ok_iff.1 h k v hv
  unfold Graph.checkSlot at hslot
  split at hslot
  · cases hslot
  next f hf =>
    split at hslot
    next s hm => exact ⟨f, hf, hs.matches_of_ok hf hm⟩
    · cases hslot

/-- What fits into the fields does not reach beyond them. -/
theorem Shaped.overwrite_le (hs : i.Shaped) (h : g.checkSlots i start values = .ok ())
    (hne : values ≠ []) : start + values.length ≤ i.fields.length := by
  obtain ⟨v, hv⟩ : ∃ v, values[values.length - 1]? = some v := by
    have hpos : 0 < values.length := List.length_pos_iff.2 hne
    exact ⟨values[values.length - 1], List.getElem?_eq_getElem (by omega)⟩
  obtain ⟨f, hf, -⟩ := hs.checkSlots_ok h _ v hv
  have hlt := (List.getElem?_eq_some_iff.1 hf).1
  have hpos : 0 < values.length := List.length_pos_iff.2 hne
  rw [hs.fields]
  omega

/-- A value of the instance after an overwriting was there before, or is one of those written and
matches its field. -/
theorem Shaped.overwrite_cases (hs : i.Shaped) (h : g.checkSlots i start values = .ok ())
    {k : Nat} {f : Field} {v : Value} (hf : i.layout.fields[k]? = some f)
    (hv : (i.overwrite start values).fields[k]? = some v) :
    i.fields[k]? = some v ∨ i.Matches g f v := by
  by_cases hne : values = []
  · left
    simpa [overwrite, hne] using hv
  rw [getElem?_overwrite (hs.overwrite_le h hne)] at hv
  split at hv
  next hk =>
    obtain ⟨f', hf', hm⟩ := hs.checkSlots_ok h _ v hv
    rw [Nat.add_sub_of_le hk.1, hf] at hf'
    cases hf'
    exact .inr hm
  · exact .inl hv

theorem Shaped.overwrite (hs : i.Shaped) (h : g.checkSlots i start values = .ok ()) :
    (i.overwrite start values).Shaped := by
  refine ⟨hs.typeArgs, ?_, hs.closed, hs.layout_closed⟩
  have hfields := hs.fields
  by_cases hne : values = []
  · simpa [Instance.overwrite, hne] using hfields
  · exact (length_overwrite (hs.overwrite_le h hne)).trans hfields

/-- The values of the instance after an overwriting come from it or from what is written. -/
theorem mem_overwrite {v : Value} (hv : v ∈ (i.overwrite start values).fields) :
    v ∈ i.fields ∨ v ∈ values := by
  simp only [overwrite, List.mem_append] at hv
  rcases hv with (hv | hv) | hv
  · exact .inl (List.mem_of_mem_take hv)
  · exact .inr hv
  · exact .inl (List.mem_of_mem_drop hv)

end Instance

/-! ## The writes -/

/-- The fields that a class itself declares are the last ones. Where nothing is inherited, they are
all of them. -/
theorem ClassDef.localStart (d : ClassDef β) :
    (if d.hasLocalFill then d.layout.inherited else 0) = d.layout.inherited := by
  unfold ClassDef.hasLocalFill
  split
  · rfl
  next hzero =>
    simp only [decide_eq_true_eq] at hzero
    omega

/-- **One field is written** to a mutable instance, with a value that has passed its check. -/
theorem Graph.setField_ok {g : Graph} {i i' : Instance} {field : Name} {v : Value}
    (h : g.setField i field v = .ok i') : i.layout.isMutable = true ∧
      ∃ k, i.fieldIndex field = .ok k ∧ g.checkSlot i k v = .ok () ∧ i' = i.overwrite k [v] := by
  unfold setField at h
  split at h
  · cases h
  next hmut =>
    cases hindex : i.fieldIndex field with
    | error e => simp [hindex] at h
    | ok k =>
      simp only [hindex] at h
      obtain ⟨_, hcheck, rfl⟩ := map_eq_ok_iff.1 h
      exact ⟨by simpa using hmut, k, rfl, hcheck, rfl⟩

namespace Registry

variable {r : Registry β} {i i' : Instance} {q : Write} {cls : TypeId} {d : ClassDef β}

/-- What can be filled is a class that a mutable instance descends from. -/
theorem fillTarget_ok (h : r.fillTarget i cls = .ok d) :
    r.instantiable cls = .ok d ∧ r.descendsFrom i.cls cls = true ∧ i.layout.isMutable = true := by
  unfold fillTarget at h
  cases hd : r.instantiable cls with
  | error e => simp [hd] at h
  | ok d' =>
    simp only [hd] at h
    split at h
    · cases h
    next hdesc =>
      split at h
      · cases h
      next hmut =>
        cases h
        exact ⟨rfl, by simpa using hdesc, by simpa using hmut⟩

/-- Fields are filled by overwriting their slots, of which there are as many as values, with values
that have passed their checks. -/
theorem fillFrom_ok {start : Nat} {values : List Value}
    (h : r.fillFrom i d start values = .ok i') :
    i' = i.overwrite start values ∧ values.length = d.layout.fields.length - start ∧
      r.graph.checkSlots i start values = .ok () := by
  unfold fillFrom at h
  split at h
  · cases h
  next hlen =>
    obtain ⟨_, hcheck, rfl⟩ := map_eq_ok_iff.1 h
    exact ⟨rfl, not_not.1 hlen, hcheck⟩

theorem fill_ok {values : List Value} (h : r.fill i cls values = .ok i') :
    ∃ d, r.fillTarget i cls = .ok d ∧ r.fillFrom i d 0 values = .ok i' := by
  unfold fill at h
  cases ht : r.fillTarget i cls with
  | error e => simp [ht] at h
  | ok d =>
    simp only [ht] at h
    exact ⟨d, rfl, h⟩

theorem fillLocal_ok {values : List Value} (h : r.fillLocal i cls values = .ok i') :
    ∃ d, r.fillTarget i cls = .ok d ∧ r.fillFrom i d d.layout.inherited values = .ok i' := by
  unfold fillLocal at h
  cases ht : r.fillTarget i cls with
  | error e => simp [ht] at h
  | ok d =>
    simp only [ht, d.localStart] at h
    exact ⟨d, rfl, h⟩

/-- **A write that is granted** overwrites fields from some place on, and has checked them. -/
theorem write_ok (h : r.write i q = .ok i') :
    ∃ start, i' = i.overwrite start q.values ∧ r.graph.checkSlots i start q.values = .ok () := by
  cases q with
  | setField field v =>
    obtain ⟨-, k, -, hc, rfl⟩ := Graph.setField_ok h
    refine ⟨k, rfl, ?_⟩
    simp [Write.values, Graph.checkSlots, hc]
  | fill cls values =>
    obtain ⟨d, -, hd⟩ := fill_ok h
    obtain ⟨rfl, -, hc⟩ := fillFrom_ok hd
    exact ⟨_, rfl, hc⟩
  | fillLocal cls values =>
    obtain ⟨d, -, hd⟩ := fillLocal_ok h
    obtain ⟨rfl, -, hc⟩ := fillFrom_ok hd
    exact ⟨_, rfl, hc⟩

/-- **A write keeps an instance sound.** -/
theorem write_sound (hs : i.Sound r) (h : r.write i q = .ok i') : i'.Sound r := by
  obtain ⟨start, rfl, hc⟩ := write_ok h
  refine ⟨hs.toShaped.overwrite hc, hs.layout, fun k f v hf hv => ?_⟩
  rcases hs.overwrite_cases hc hf hv with hold | hm
  · exact hs.values k f v hf hold
  · exact .inr hm

/-- **A write keeps an instance complete.** -/
theorem write_complete (hs : i.Shaped) (hi : i.Complete r.graph) (h : r.write i q = .ok i') :
    i'.Complete r.graph := by
  obtain ⟨start, rfl, hc⟩ := write_ok h
  refine ⟨hi.coherent, hi.bounds, fun k f v hf hv => ?_⟩
  rcases hs.overwrite_cases hc hf hv with hold | hm
  · exact hi.values k f v hf hold
  · exact hm

/-- The values after a write were there before or are written. -/
theorem mem_write (h : r.write i q = .ok i') {v : Value} (hv : v ∈ i'.fields) :
    v ∈ i.fields ∨ v ∈ q.values := by
  obtain ⟨start, rfl, -⟩ := write_ok h
  exact Instance.mem_overwrite hv

/-- An instance that has been allocated is sound, and all its fields are nothing. -/
theorem allocate_sound (hr : r.OK) (h : r.allocate cls = .ok i) :
    i.Sound r ∧ i.cls = cls ∧ ∀ v ∈ i.fields, v = .nothing := by
  unfold allocate at h
  cases hd : r.instantiable cls with
  | error e => simp [hd] at h
  | ok d =>
    simp only [hd] at h
    split at h
    · cases h
    · simp only [Except.ok.injEq] at h
      subst h
      obtain ⟨hc, -⟩ := instantiable_ok hd
      have hcls : d.layout.cls = cls := hr.id_eq hc
      have hnothing : ∀ v ∈ d.layout.fields.map fun _ => Value.nothing, v = .nothing := by simp
      refine ⟨⟨⟨by simp [ClassDef.typeParams], by simp, ?_, (hr.closed hc).layout⟩, ?_, ?_⟩, hcls,
        hnothing⟩
      · intro t ht
        obtain ⟨p, -, rfl⟩ := List.mem_map.1 ht
        rfl
      · rw [Instance.cls, hcls, layout, hc]
      · exact fun k f v _ hv => .inl (hnothing v (List.mem_of_getElem? hv))

/-! ## Without the bodies -/

theorem forget_classDef? (r : Registry β) (id : TypeId) :
    r.forget.classDef? id = (r.classDef? id).map (·.map fun _ => ()) :=
  Table.get?_mapValues _

theorem forget_superclass (r : Registry β) (id : TypeId) :
    r.forget.superclass id = r.superclass id := by
  unfold superclass
  rw [forget_classDef?]
  cases r.classDef? id <;> rfl

theorem forget_superclasses (r : Registry β) (id : TypeId) :
    r.forget.superclasses id = r.superclasses id := by
  have hsettings : r.forget.settings = r.settings := rfl
  exact superclasses_congr hsettings (fun _ => rfl) (forget_superclass r) id

theorem forget_descendsFrom (r : Registry β) (cls ancestor : TypeId) :
    r.forget.descendsFrom cls ancestor = r.descendsFrom cls ancestor := by
  rw [descendsFrom, descendsFrom, forget_superclasses]

theorem forget_instantiable (r : Registry β) (id : TypeId) :
    r.forget.instantiable id = (r.instantiable id).map (·.map fun _ => ()) := by
  have hfilter : (r.forget.classDef? id).filter (·.id ≠ rootId) =
      ((r.classDef? id).filter (·.id ≠ rootId)).map (·.map fun _ => ()) := by
    rw [forget_classDef?]
    cases r.classDef? id with
    | none => rfl
    | some d =>
      have hid : (d.map fun _ => ()).id = d.id := rfl
      simp only [Option.map_some, Option.filter_some, hid]
      split <;> rfl
  unfold instantiable
  rw [hfilter]
  cases (r.classDef? id).filter (·.id ≠ rootId) with
  | some d => rfl
  | none =>
    simp only [Option.map_none]
    by_cases ha : r.graph.isAbstract id = true
    · simp [forget, ha, typeName, Except.map]
    · simp [forget, ha, typeName, Except.map]

theorem forget_fillTarget (r : Registry β) (i : Instance) (cls : TypeId) :
    r.forget.fillTarget i cls = (r.fillTarget i cls).map (·.map fun _ => ()) := by
  unfold fillTarget
  rw [forget_instantiable, forget_descendsFrom]
  cases r.instantiable cls with
  | error e => rfl
  | ok d =>
    simp only [Except.map]
    split
    · rfl
    · split <;> rfl

/-- **Constructor bodies do not matter** for a write. -/
theorem forget_write (r : Registry β) (i : Instance) (q : Write) :
    r.forget.write i q = r.write i q := by
  cases q with
  | setField field v => rfl
  | fill cls values =>
    simp only [write, fill, forget_fillTarget]
    cases r.fillTarget i cls <;> rfl
  | fillLocal cls values =>
    simp only [write, fillLocal, forget_fillTarget]
    cases r.fillTarget i cls <;> rfl

/-- Nor do they for an allocation. -/
theorem forget_allocate (r : Registry β) (cls : TypeId) :
    r.forget.allocate cls = r.allocate cls := by
  unfold allocate
  rw [forget_instantiable]
  cases r.instantiable cls <;> rfl

end Registry

end ClassGraph
