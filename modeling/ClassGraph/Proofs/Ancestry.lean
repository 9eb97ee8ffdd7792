import ClassGraph.Proofs.Fitting
import ClassGraph.Proofs.Markers

/-!
# Ancestors and markers

The ancestors of a class are found through the superclasses that are recorded with classes, and,
apart from that, on the way up from its node. Both tell the same.

* `Chain.unique`, `Chain.nodup`: the superclasses of a class are one list, in which nothing is
  repeated.
* `Chain.up_marker`: **the way up from a marker** leads through the markers of the superclasses, in
  their order, and through no declared type.
* `Registry.InStep.isSubtype_marker_iff`: below the marker of a class are its descendants.
* `Registry.Reachable.ancestry`: **the two representations of the hierarchy agree**, and so do the
  types that go by the names of classes and of markers.
-/

namespace ClassGraph

variable {β : Type}

/-- A value matches the name of a node if it is an instance from there or below, and nothing is
bound. -/
theorem Graph.matchValue_named {g : Graph} {s s' : Substitution} {n : Name} {v : Value} :
    g.matchValue s (.named n) v = .ok s' ↔ g.accepts n v = true ∧ s' = s := by
  have hverdict : g.matchValue s (.named n) v = verdict (g.accepts n v) s := by
    cases v <;> rfl
  rw [hverdict, verdict_eq_ok_iff]

namespace Registry

variable {r : Registry β} {a b id : TypeId} {d : ClassDef β} {ids ids' : List TypeId}

/-! ## The chain of superclasses -/

theorem Chain.unique (hc : r.Chain id ids) (hc' : r.Chain id ids') : ids = ids' := by
  induction hc generalizing ids' with
  | root =>
    cases hc' with
    | root => rfl
    | step hid _ _ _ => exact absurd rfl hid
  | step hid hd hs _ ih =>
    cases hc' with
    | root => exact absurd rfl hid
    | step _ hd' hs' hc' =>
      cases hd.symm.trans hd'
      cases hs.symm.trans hs'
      rw [ih hc']

/-- The chain of an ancestor is what comes after it. -/
theorem Chain.tail (hc : r.Chain id ids) (ha : a ∈ ids) :
    ∃ front back, ids = front ++ a :: back ∧ r.Chain a back := by
  induction hc with
  | root => cases ha
  | @step id sup d ids _ _ _ hc ih =>
    rcases List.mem_cons.1 ha with rfl | ha
    · exact ⟨[], ids, rfl, hc⟩
    · obtain ⟨front, back, rfl, hback⟩ := ih ha
      exact ⟨sup :: front, back, rfl, hback⟩

/-- **No class is its own ancestor**, and none is met twice. -/
theorem Chain.nodup (hc : r.Chain id ids) : (id :: ids).Nodup := by
  induction hc with
  | root => simp
  | @step id sup d ids hid hd hs hc ih =>
    refine List.nodup_cons.2 ⟨fun hm => ?_, ih⟩
    -- the chain of `id` would be a part of itself
    have hc' : r.Chain id (sup :: ids) := .step hid hd hs hc
    obtain ⟨front, back, he, hback⟩ := hc'.tail hm
    have hlen := congrArg List.length he
    rw [hback.unique hc'] at hlen
    simp only [List.length_append, List.length_cons] at hlen
    omega

theorem Chain.getLast? (hc : r.Chain id ids) (hid : id ≠ rootId) :
    ids.getLast? = some rootId := by
  induction hc with
  | root => exact absurd rfl hid
  | @step id sup d ids _ _ _ hc ih =>
    by_cases hsup : sup = rootId
    · subst hsup
      rw [hc.unique .root]
      rfl
    · rw [List.getLast?_cons, ih hsup]
      rfl

/-- All ancestors of a class are classes. -/
theorem Chain.classDef? (hr : r.OK) (hc : r.Chain id ids) :
    ∀ a ∈ id :: ids, ∃ d, r.classDef? a = some d := by
  induction hc with
  | root => simpa using ⟨_, hr.root⟩
  | @step id sup d ids _ hd _ _ ih =>
    intro a ha
    rcases List.mem_cons.1 ha with rfl | ha
    · exact ⟨d, hd⟩
    · exact ih a ha

/-- A class descends from itself and from the classes of its chain. -/
theorem Chain.descendsFrom_iff (hc : r.Chain b ids)
    (hl : ids.length ≤ r.settings.maxHierarchyDepth) :
    r.descendsFrom b a = true ↔ a ∈ b :: ids := by
  simp [descendsFrom, hc.superclasses hl]

/-- What is no class descends from itself alone. -/
theorem descendsFrom_of_classDef?_eq_none (hr : r.OK) (hb : r.classDef? b = none) :
    r.descendsFrom b a = true ↔ a = b := by
  have hne : b ≠ rootId := fun e => by
    rw [e, hr.root] at hb
    cases hb
  simp [descendsFrom, Registry.superclasses, superclass, hne, hb]

/-- What a class descends from, said by its chain. -/
theorem OK.descendsFrom_cases (hr : r.OK) (hba : r.descendsFrom b a = true) :
    a = b ∨ ∃ ids, r.Chain b ids ∧ ids.length ≤ r.settings.maxHierarchyDepth ∧ a ∈ ids := by
  cases hb : r.classDef? b with
  | none => exact .inl ((descendsFrom_of_classDef?_eq_none hr hb).1 hba)
  | some d =>
    obtain ⟨ids, hc, hl⟩ := hr.chain hb
    rcases List.mem_cons.1 ((hc.descendsFrom_iff hl).1 hba) with h | h
    · exact .inl h
    · exact .inr ⟨ids, hc, hl, h⟩

theorem descendsFrom_refl (r : Registry β) (a : TypeId) : r.descendsFrom a a = true := by
  simp [descendsFrom]

theorem OK.descendsFrom_trans (hr : r.OK) {c : TypeId} (hcb : r.descendsFrom c b = true)
    (hba : r.descendsFrom b a = true) : r.descendsFrom c a = true := by
  rcases hr.descendsFrom_cases hcb with rfl | ⟨ids, hc, hl, hb⟩
  · exact hba
  rcases hr.descendsFrom_cases hba with rfl | ⟨ids', hc', -, ha⟩
  · exact hcb
  -- the ancestors of `b` are among those of `c`
  obtain ⟨front, back, rfl, hback⟩ := hc.tail hb
  rw [hc'.unique hback] at ha
  exact (hc.descendsFrom_iff hl).2
    (List.mem_cons_of_mem _ (List.mem_append_right _ (List.mem_cons_of_mem _ ha)))

theorem OK.descendsFrom_antisymm (hr : r.OK) (hab : r.descendsFrom a b = true)
    (hba : r.descendsFrom b a = true) : a = b := by
  rcases hr.descendsFrom_cases hab with rfl | ⟨ids, hc, -, hb⟩
  · rfl
  rcases hr.descendsFrom_cases hba with rfl | ⟨ids', hc', -, ha⟩
  · rfl
  -- else `a` would be an ancestor of itself
  obtain ⟨front, back, rfl, hback⟩ := hc.tail hb
  rw [hc'.unique hback] at ha
  exact absurd (List.mem_append_right _ (List.mem_cons_of_mem _ ha)) (List.nodup_cons.1 hc.nodup).1

/-! ## The way up from a marker -/

theorem superMarker_root (hr : r.OK) : r.superMarker rootId = rootId := superMarker_eq hr.root

/-- **The way up from the marker of a class** leads through the markers of its superclasses. -/
theorem Chain.up_marker (hr : r.OK) (h : r.InStep) (hc : r.Chain b ids) (k : Nat) :
    r.graph.up k (r.superMarker b) = ((b :: ids)[k]?).map r.superMarker := by
  induction hc generalizing k with
  | root =>
    cases k with
    | zero => rfl
    | succ k =>
      rw [superMarker_root hr, Graph.up_succ, h.supertype_root]
      rfl
  | @step id sup d ids hid hd hs _ ih =>
    cases k with
    | zero => rfl
    | succ k =>
      -- one step up is the marker of the superclass
      obtain ⟨sup', s, hsup, hs', habove⟩ := (h.placed hd hid).above
      cases hs.symm.trans hsup
      rw [superMarker_eq hd, Graph.up_succ_of_supertype habove, ← superMarker_eq hs', ih k]
      rfl

/-- **Below the marker of a class** are the markers of its descendants. -/
theorem InStep.isSubtype_superMarker_iff (h : r.InStep) (hr : r.OK) (hc : r.Chain b ids)
    {m : TypeId} : r.graph.isSubtype (r.superMarker b) m = true ↔
      ∃ c ∈ b :: ids, r.superMarker c = m := by
  rw [h.forest.isSubtype_iff]
  constructor
  · rintro ⟨k, hk⟩
    rw [hc.up_marker hr h] at hk
    obtain ⟨c, hcm, rfl⟩ := Option.map_eq_some_iff.1 hk
    exact ⟨c, List.mem_of_getElem? hcm, rfl⟩
  · rintro ⟨c, hcm, rfl⟩
    obtain ⟨k, hk⟩ := List.mem_iff_getElem?.1 hcm
    exact ⟨k, by rw [hc.up_marker hr h, hk, Option.map_some]⟩

/-- A class is below a marker if its own marker is. -/
theorem InStep.isSubtype_class_iff (h : r.InStep) (hr : r.OK) {db : ClassDef β}
    (hb : r.classDef? b = some db) {m : TypeId} (hm : r.graph.isAbstract m = true) :
    r.graph.isSubtype b m = true ↔ r.graph.isSubtype (r.superMarker b) m = true := by
  by_cases hid : b = rootId
  · rw [hid, superMarker_root hr]
  · have hp := h.placed hb hid
    rw [h.forest.isSubtype_of_supertype hp.marker, superMarker_eq hb]
    refine ⟨fun hor => hor.resolve_left fun e => ?_, .inr⟩
    -- the node of a class other than the root is concrete
    exact Graph.not_isConcrete hm (e ▸ hp.isConcrete)

/-- **A class is below the marker of another one** exactly when it descends from that class. -/
theorem InStep.isSubtype_marker_iff (h : r.InStep) (hr : r.OK) {da db : ClassDef β}
    (ha : r.classDef? a = some da) (hb : r.classDef? b = some db) :
    r.graph.isSubtype b da.marker = true ↔ r.descendsFrom b a = true := by
  obtain ⟨ids, hc, hl⟩ := hr.chain hb
  rw [h.isSubtype_class_iff hr hb (h.isAbstract_marker hr ha), h.isSubtype_superMarker_iff hr hc,
    hc.descendsFrom_iff hl]
  constructor
  · rintro ⟨c, hcm, hmark⟩
    obtain ⟨dc, hdc⟩ := hc.classDef? hr c hcm
    rw [superMarker_eq hdc] at hmark
    rwa [← h.marker_inj hr hdc ha hmark]
  · exact fun hm => ⟨a, hm, superMarker_eq ha⟩

/-! ## Types that go by the name of a class -/

/-- **The name of a marker** is the type of the instances of all descendants. -/
theorem InStep.accepts_marker_iff (h : r.InStep) (hr : r.OK) {da : ClassDef β} {n : Name}
    (ha : r.classDef? a = some da) (hn : r.graph.name? da.marker = some n) {i : Instance}
    {di : ClassDef β} (hi : r.classDef? i.cls = some di) :
    r.graph.accepts n (.object i) = true ↔ r.descendsFrom i.cls a = true := by
  rw [← h.isSubtype_marker_iff hr ha hi, Graph.accepts, h.forest.lookup_iff.2 hn, Option.any_some]

/-- **The name of a class** is the type of its own instances alone. -/
theorem InStep.accepts_class_iff (h : r.InStep) (ha : r.classDef? a = some d) (hid : a ≠ rootId)
    {i : Instance} : r.graph.accepts d.name (.object i) = true ↔ i.cls = a := by
  have hp := h.placed ha hid
  rw [Graph.accepts, h.forest.lookup_iff.2 hp.name, Option.any_some,
    h.forest.isSubtype_of_isConcrete hp.isConcrete]

/-- **Superclasses and markers tell the same.** In every reachable registry: the superclasses of a
class are its iterated superclasses up to the root, within the limit and without repetition; to
descend is a partial order; a class descends from another one just when it is below the marker of
that class; and so the name of a marker is the type of the instances of all descendants, while the
name of a class other than the root is the type of its own instances alone. -/
theorem Reachable.ancestry (hr : r.Reachable) :
    (∀ b d, r.classDef? b = some d → ∃ ids, r.superclasses b = .ok ids ∧ r.Chain b ids ∧
      (b ≠ rootId → ids.getLast? = some rootId) ∧
      ids.length ≤ r.settings.maxHierarchyDepth ∧ b ∉ ids ∧ ids.Nodup) ∧
    (∀ a, r.descendsFrom a a = true) ∧
    (∀ a b c, r.descendsFrom c b = true → r.descendsFrom b a = true →
      r.descendsFrom c a = true) ∧
    (∀ a b, r.descendsFrom a b = true → r.descendsFrom b a = true → a = b) ∧
    (∀ a b da db, r.classDef? a = some da → r.classDef? b = some db →
      (r.descendsFrom b a = true ↔ r.graph.isSubtype b da.marker = true)) ∧
    (∀ a da n, r.classDef? a = some da → r.graph.name? da.marker = some n → ∀ s s' v,
      (∀ i, v = .object i → ∃ di, r.classDef? i.cls = some di) →
      (r.graph.matchValue s (.named n) v = .ok s' ↔
        s' = s ∧ ∃ i, v = .object i ∧ r.descendsFrom i.cls a = true)) ∧
    ∀ a da, r.classDef? a = some da → a ≠ rootId → ∀ s s' v,
      (r.graph.matchValue s (.named da.name) v = .ok s' ↔
        s' = s ∧ ∃ i, v = .object i ∧ i.cls = a) := by
  have hok := hr.ok
  have hin := hr.inStep
  refine ⟨fun b d hd => ?_, r.descendsFrom_refl, fun _ _ _ => hok.descendsFrom_trans,
    fun _ _ => hok.descendsFrom_antisymm, fun a b da db ha hb => ?_,
    fun a da n ha hn s s' v hv => ?_, fun a da ha hid s s' v => ?_⟩
  · obtain ⟨ids, hc, hl⟩ := hok.chain hd
    exact ⟨ids, hc.superclasses hl, hc, hc.getLast?, hl, List.nodup_cons.1 hc.nodup⟩
  · exact (hin.isSubtype_marker_iff hok ha hb).symm
  · rw [Graph.matchValue_named, and_comm]
    refine and_congr_right fun _ => ?_
    cases v with
    | object i =>
      obtain ⟨di, hi⟩ := hv i rfl
      simpa using hin.accepts_marker_iff hok ha hn hi
    | nothing | bool _ | int _ | float _ | str _ | list _ => simp [Graph.accepts]
  · rw [Graph.matchValue_named, and_comm]
    refine and_congr_right fun _ => ?_
    cases v with
    | object i => simpa using hin.accepts_class_iff ha hid
    | nothing | bool _ | int _ | float _ | str _ | list _ => simp [Graph.accepts]

/-- An instance of the lowest class of `pound`. -/
def puppy : Instance := ⟨⟨8, "Puppy", false, [], [], 0⟩, [], []⟩

/-- A puppy is below the marker of `Animal`, as its class descends from that class; it is no
instance of `Dog`. -/
theorem ancestry_pound : (∃ ids, pound.superclasses 8 = .ok ids ∧ pound.Chain 8 ids) ∧
    pound.descendsFrom 8 2 = true ∧ pound.graph.isSubtype 8 1 = true ∧
    pound.graph.matchValue ∅ (.named "AbstractAnimal") (.object puppy) = .ok ∅ ∧
    pound.graph.matchValue ∅ (.named "Dog") (.object puppy) ≠ .ok ∅ := by
  obtain ⟨hchain, -, -, -, hmarkers, hbelow, hown⟩ := reachable_pound.ancestry
  have hanimal : (pound.classDef? 2).map (·.marker) = some 1 := by decide +kernel
  have hdog : (pound.classDef? 5).map (·.name) = some "Dog" := by decide +kernel
  have hpuppy : (pound.classDef? 8).isSome := by decide +kernel
  obtain ⟨da, ha, hma⟩ := Option.map_eq_some_iff.1 hanimal
  obtain ⟨dd, hdd, hnd⟩ := Option.map_eq_some_iff.1 hdog
  obtain ⟨dp, hp⟩ := Option.isSome_iff_exists.1 hpuppy
  obtain ⟨ids, hids, hc, -⟩ := hchain 8 dp hp
  have hdesc : pound.descendsFrom 8 2 = true := by decide +kernel
  refine ⟨⟨ids, hids, hc⟩, hdesc, hma ▸ (hmarkers 2 8 da dp ha hp).1 hdesc, ?_, fun hm => ?_⟩
  · refine (hbelow 2 da _ ha (by rw [hma]; decide +kernel) ∅ ∅ _ fun i hi => ?_).2
      ⟨rfl, puppy, rfl, hdesc⟩
    cases hi
    exact ⟨dp, hp⟩
  · rw [← hnd] at hm
    obtain ⟨-, i, hi, hcls⟩ := (hown 5 dd hdd (by decide) ∅ ∅ _).1 hm
    cases hi
    exact absurd hcls (by decide)

end Registry

end ClassGraph
