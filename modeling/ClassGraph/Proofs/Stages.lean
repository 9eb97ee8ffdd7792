import ClassGraph.Proofs.Honesty

/-!
# Stages of a run

What clients and constructor bodies do with a registry is a series of single steps: requests, log
entries, instantiations and writes. A stage is what there is after some of these steps: a world,
the instances that have come up so far, and those among them that an instantiation has let
through, perhaps written to since.

* `Live`: the stages that can be reached by steps.
* `Live.ok`: **at every such stage** all instances are sound, and those that an instantiation has
  let through are complete.
-/

namespace ClassGraph

/-- A point in a run: the world, the instances that have come up, and those among them that have
been built from values that were checked. -/
structure Stage where
  world : World
  known : Set Instance
  built : Set Instance

namespace Stage

/-- The registry at a stage. -/
def registry (σ : Stage) : Registry Body := σ.world.registry

/-- The stage with a new world. -/
def withWorld (σ : Stage) (w : World) : Stage := { σ with world := w }

end Stage

/-- **The stages that can be reached.** Bodies that are defined are honest about the instances that
there are, and type arguments have no parameters in them. -/
inductive Live : Stage → Prop
  | start {s : Settings} {r : Registry Body} (h : Registry.new s = .ok r) :
      Live ⟨.ofRegistry r, ∅, ∅⟩
  | log {σ : Stage} {v : Value} (h : Live σ) (hv : v.From σ.known) :
      Live (σ.withWorld (σ.world.push v))
  | request {σ : Stage} {q : Request Body} (h : Live σ)
      (hq : ∀ d, q = .define d → ∀ c ∈ d.ctors, Body.Honest σ.known c.body) :
      Live (σ.withWorld { σ.world with registry := σ.registry.after q })
  | instantiate {σ : Stage} {id : TypeId} {d : ClassDef Body} {typeArgs : Option (List Ty)}
      {seed : Substitution} {values : List Value} {i : Instance} (h : Live σ)
      (hd : σ.registry.instantiable id = .ok d) (ht : ClosedArgs typeArgs) (hs : seed.Closed)
      (hv : ∀ v ∈ values, v.From σ.known)
      (hi : σ.registry.graph.instantiate d.layout typeArgs seed values = .ok i) :
      Live ⟨σ.world, insert i σ.known, insert i σ.built⟩
  | write {σ : Stage} (h : Live σ) :
      Live ⟨σ.world, {i | Derives σ.registry σ.known i},
        {i | Rewrites σ.registry {i | Derives σ.registry σ.known i} σ.built i}⟩

/-! ## What holds at every stage -/

/-- **The invariant.** -/
structure Stage.OK (σ : Stage) : Prop where
  reachable : σ.registry.Reachable
  honest : ∀ {id d c body}, σ.registry.classDef? id = some d → c ∈ d.constructors →
    c.kind = .user body → body.Honest σ.known
  sound : ∀ {i}, i ∈ σ.known → i.Sound σ.registry
  inside : ∀ {i}, i ∈ σ.known → ∀ {j : Instance}, j.Inside (.object i) → j ∈ σ.known
  built_known : ∀ {i}, i ∈ σ.built → i ∈ σ.known
  complete : ∀ {i}, i ∈ σ.built → i.Complete σ.registry.graph

namespace Stage.OK

variable {σ : Stage} {i : Instance} {v : Value}

/-- Values made of known instances go by the names of their classes. -/
theorem names (h : σ.OK) (hv : v.From σ.known) : σ.registry.graph.Names v := fun i hi =>
  (h.sound (hv i hi)).lookup h.reachable.ok

/-- The fields of an instance that is known are values made of what is known. -/
theorem field_from (h : σ.OK) (hi : i ∈ σ.known) (hv : v ∈ i.fields) : v.From σ.known :=
  fun _ hj => h.inside hi (.field hv hj)

end Stage.OK

namespace Live

variable {σ : Stage}

theorem start_ok {s : Settings} {r : Registry Body} (h : Registry.new s = .ok r) :
    Stage.OK ⟨.ofRegistry r, ∅, ∅⟩ := by
  refine ⟨⟨s, r, h, .refl⟩, ?_, ?_, ?_, ?_, ?_⟩
  · intro id d c body hd hc
    obtain ⟨-, rfl⟩ := Registry.new_eq h
    obtain ⟨-, rfl⟩ := Registry.classDef?_ofSettings hd
    cases hc
  all_goals exact fun hi => absurd hi (Set.notMem_empty _)

theorem request_ok {q : Request Body} (h : σ.OK)
    (hq : ∀ d, q = .define d → ∀ c ∈ d.ctors, Body.Honest σ.known c.body) :
    (σ.withWorld { σ.world with registry := σ.registry.after q }).OK := by
  have hok := h.reachable.ok
  obtain ⟨-, hext⟩ := Registry.after_ok hok q
  refine ⟨h.reachable.after q, ?_, fun hi => (h.sound hi).ext hext, h.inside, h.built_known,
    fun hi => (h.complete hi).ext (h.sound (h.built_known hi)).toShaped hext.graph⟩
  intro id d c body hd hc hk
  rcases Registry.user_after hok hd hc hk with hd | ⟨decl, hdefine, u, hu, rfl⟩
  · exact h.honest hd hc hk
  · exact hq decl hdefine u hu

/-- A new instance, made of what is known. -/
theorem instantiate_ok {id : TypeId} {d : ClassDef Body} {typeArgs : Option (List Ty)}
    {seed : Substitution} {values : List Value} {i : Instance} (h : σ.OK)
    (hd : σ.registry.instantiable id = .ok d) (ht : ClosedArgs typeArgs) (hs : seed.Closed)
    (hv : ∀ v ∈ values, v.From σ.known)
    (hi : σ.registry.graph.instantiate d.layout typeArgs seed values = .ok i) :
    Stage.OK ⟨σ.world, insert i σ.known, insert i σ.built⟩ := by
  obtain ⟨-, hfields, hsound, hcomplete⟩ := Registry.instantiate_sound h.reachable.ok hd ht hs
    (fun v hv' => h.names (hv v hv')) hi
  refine ⟨h.reachable, fun hd hc hk => (h.honest hd hc hk).mono (Set.subset_insert _ _), ?_, ?_,
    ?_, ?_⟩
  · rintro j (rfl | hj)
    · exact hsound
    · exact h.sound hj
  · -- what is inside the new instance was known before
    rintro j (rfl | hj) k hk
    · cases hk with
      | self => exact .inl rfl
      | field hmem hk => exact .inr (hv _ (hfields ▸ hmem) _ hk)
    · exact .inr (h.inside hj hk)
  · rintro j (rfl | hj)
    · exact .inl rfl
    · exact .inr (h.built_known hj)
  · rintro j (rfl | hj)
    · exact hcomplete
    · exact h.complete hj

/-- What comes of sound instances by looking inside, allocating and writing is sound throughout. -/
theorem derives_sound (h : σ.OK) {i : Instance} (hi : Derives σ.registry σ.known i) :
    ∀ j : Instance, j.Inside (.object i) → j.Sound σ.registry := by
  induction hi with
  | given hi => exact fun j hj => h.sound (h.inside hi hj)
  | inside _ hi ih => exact fun j hj => ih j (hi.trans hj)
  | allocate ha =>
    obtain ⟨hs, -, hn⟩ := Registry.allocate_sound h.reachable.ok ha
    intro j hj
    cases hj with
    | self => exact hs
    | field hv hj =>
      -- there is nothing in its fields
      rw [hn _ hv] at hj
      cases hj
  | write _ hq hw ih ihq =>
    intro j hj
    cases hj with
    | self => exact Registry.write_sound (ih _ .self) hw
    | field hv hj =>
      rcases Registry.mem_write hw hv with hold | hnew
      · exact ih j (.field hold hj)
      · exact ihq _ hnew j hj j .self

theorem write_ok (h : σ.OK) : Stage.OK ⟨σ.world, {i | Derives σ.registry σ.known i},
    {i | Rewrites σ.registry {i | Derives σ.registry σ.known i} σ.built i}⟩ := by
  -- by induction on the writes since the instance was built
  have hbuilt : ∀ {i}, Rewrites σ.registry {i | Derives σ.registry σ.known i} σ.built i →
      Derives σ.registry σ.known i ∧ i.Complete σ.registry.graph := by
    intro i hi
    induction hi with
    | given hi => exact ⟨.given (h.built_known hi), h.complete hi⟩
    | write _ hq hw ih =>
      have hs := derives_sound h ih.1 _ .self
      exact ⟨.write ih.1 hq hw, Registry.write_complete hs.toShaped ih.2 hw⟩
  exact ⟨h.reachable, fun hd hc hk => (h.honest hd hc hk).mono fun _ => .given,
    fun hi => derives_sound h hi _ .self, fun hi _ hj => .inside hi hj, fun hi => (hbuilt hi).1,
    fun hi => (hbuilt hi).2⟩

/-- **The invariant holds at every stage.** -/
theorem ok (h : Live σ) : σ.OK := by
  induction h with
  | start h => exact start_ok h
  | log _ _ ih => exact ⟨ih.reachable, ih.honest, ih.sound, ih.inside, ih.built_known, ih.complete⟩
  | request _ hq ih => exact request_ok ih hq
  | instantiate _ hd ht hs hv hi ih => exact instantiate_ok ih hd ht hs hv hi
  | write _ ih => exact write_ok ih

end Live

end ClassGraph
