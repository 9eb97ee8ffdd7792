import ClassGraph.Proofs.Forest
import ClassGraph.Proofs.Reachable

/-!
# Classes and their nodes

Each class has two nodes in the type graph, and the registry keeps the way from one to the other
three times over: in the graph, with the class and in the table of markers. The three are in step,
whatever types are declared in between.

* `Graph.Persists`: a graph grows below its nodes only.
* `Registry.Placed`: the class has a concrete node below a marker of its own, and the marker stands
  below that of the superclass.
* `Registry.InStep`: the invariant. The graph is a forest, all classes are placed, and the table of
  markers leads from the markers of classes back to these.
* `Registry.after_inStep`: **one request keeps it**; `Reachable.nodes_and_classes`: **it holds of
  every reachable registry.**
-/

namespace ClassGraph

variable {β : Type}

/-! ## Growth -/

/-- A graph grows, and its nodes stay what they are. -/
structure Graph.Persists (g g' : Graph) : Prop extends g.Ext g' where
  name? : ∀ {id}, id < g.size → g'.name? id = g.name? id
  isAbstract : ∀ {id}, id < g.size → g'.isAbstract id = g.isAbstract id
  isConcrete : ∀ {id}, id < g.size → g'.isConcrete id = g.isConcrete id

theorem Graph.Persists.refl (g : Graph) : g.Persists g :=
  ⟨.refl g, fun _ => rfl, fun _ => rfl, fun _ => rfl⟩

theorem Graph.Persists.trans {g g' g'' : Graph} (h : g.Persists g') (h' : g'.Persists g'') :
    g.Persists g'' where
  toExt := h.toExt.trans h'.toExt
  name? hid := (h'.name? (Nat.lt_of_lt_of_le hid h.size_le)).trans (h.name? hid)
  isAbstract hid := (h'.isAbstract (Nat.lt_of_lt_of_le hid h.size_le)).trans (h.isAbstract hid)
  isConcrete hid := (h'.isConcrete (Nat.lt_of_lt_of_le hid h.size_le)).trans (h.isConcrete hid)

/-- A node under a free name leaves the others what they are. -/
theorem Graph.persists_add {g : Graph} {n : Name} (hn : g.lookup n = none) (kind : NodeKind)
    (sup : Option TypeId) : g.Persists (g.add n kind sup) where
  toExt := Graph.ext_add hn kind sup
  name? hid := by rw [Graph.name?_add, if_neg (Nat.ne_of_lt hid)]
  isAbstract hid := Graph.isAbstract_add hid
  isConcrete hid := Graph.isConcrete_add hid

namespace Registry

variable {r r' : Registry β} {id : TypeId} {d s : ClassDef β} {decl : ClassDecl β}
  {b : Blueprint β}

/-! ## The invariant -/

/-- **The class `d` is placed in the type graph.** Its concrete node has its number and its name,
and stands directly below its marker; the marker is an abstract node with the name that the
settings give it, and stands directly below the marker of the superclass. -/
structure Placed (r : Registry β) (id : TypeId) (d : ClassDef β) : Prop where
  id_eq : d.id = id
  isConcrete : r.graph.isConcrete id = true
  name : r.graph.name? id = some d.name
  marker : r.graph.supertype id = some d.marker
  isAbstract : r.graph.isAbstract d.marker = true
  markerName : r.graph.name? d.marker = some (r.settings.markerName d.name)
  above : ∃ sup s, d.superclass = some sup ∧ r.classDef? sup = some s ∧
    r.graph.supertype d.marker = some s.marker

/-- **Graph, classes and markers are in step.** -/
structure InStep (r : Registry β) : Prop where
  forest : r.graph.Forest
  rootName : r.graph.name? rootId = some r.settings.rootName
  isAbstract_root : r.graph.isAbstract rootId = true
  placed : ∀ {id d}, r.classDef? id = some d → id ≠ rootId → r.Placed id d
  marker_iff : ∀ {m c}, r.markers.get? m = some c ↔
    c ≠ rootId ∧ ∃ d, r.classDef? c = some d ∧ d.marker = m

theorem Placed.lt (hp : r.Placed id d) : id < r.graph.size :=
  Graph.lt_size_of_isConcrete hp.isConcrete

theorem Placed.marker_lt (hp : r.Placed id d) : d.marker < r.graph.size :=
  Graph.lt_size_of_isAbstract hp.isAbstract

/-- A class keeps its place. -/
theorem Placed.ext (hp : r.Placed id d) (he : r.Ext r') (hg : r.graph.Persists r'.graph) :
    r'.Placed id d where
  id_eq := hp.id_eq
  isConcrete := (hg.isConcrete hp.lt).trans hp.isConcrete
  name := (hg.name? hp.lt).trans hp.name
  marker := (hg.supertype hp.lt).trans hp.marker
  isAbstract := (hg.isAbstract hp.marker_lt).trans hp.isAbstract
  markerName := by rw [hg.name? hp.marker_lt, hp.markerName, he.settings]
  above := by
    obtain ⟨sup, s, hsup, hs, hm⟩ := hp.above
    exact ⟨sup, s, hsup, he.classDef? hs, (hg.supertype hp.marker_lt).trans hm⟩

/-- Nothing stands above the first node. -/
theorem InStep.supertype_root (h : r.InStep) : r.graph.supertype rootId = none := by
  cases hs : r.graph.supertype rootId with
  | none => rfl
  | some s => exact absurd (h.forest.above hs).1 (Nat.not_lt_zero s)

/-- The marker of a class is abstract, the root's own node included. -/
theorem InStep.isAbstract_marker (h : r.InStep) (hr : r.OK) (hd : r.classDef? id = some d) :
    r.graph.isAbstract d.marker = true := by
  by_cases hid : id = rootId
  · rw [hid, hr.root, Option.some.injEq] at hd
    exact hd ▸ h.isAbstract_root
  · exact (h.placed hd hid).isAbstract

/-- **Different classes have different markers.** -/
theorem InStep.marker_inj (h : r.InStep) (hr : r.OK) {id' : TypeId} {d' : ClassDef β}
    (hd : r.classDef? id = some d) (hd' : r.classDef? id' = some d') (hm : d.marker = d'.marker) :
    id = id' := by
  -- a marker that has something above it is not the root
  have hroot : ∀ {c : TypeId} {e : ClassDef β}, r.classDef? c = some e → c ≠ rootId →
      e.marker ≠ rootId := by
    intro c e he hc hm
    obtain ⟨sup, s, -, -, hs⟩ := (h.placed he hc).above
    rw [hm, h.supertype_root] at hs
    cases hs
  by_cases hid : id = rootId <;> by_cases hid' : id' = rootId
  · rw [hid, hid']
  · rw [hid, hr.root, Option.some.injEq] at hd
    exact absurd (hm ▸ hd ▸ rfl) (hroot hd' hid')
  · rw [hid', hr.root, Option.some.injEq] at hd'
    exact absurd (hm.trans (hd' ▸ rfl)) (hroot hd hid)
  · -- the table of markers leads from the marker to one class
    have hc := h.marker_iff.2 ⟨hid, d, hd, rfl⟩
    rw [hm, h.marker_iff.2 ⟨hid', d', hd', rfl⟩, Option.some.injEq] at hc
    exact hc.symm

/-! ## One request -/

theorem new_inStep {settings : Settings} (hn : Registry.new settings = .ok r) : r.InStep := by
  obtain ⟨-, rfl⟩ := new_eq hn
  refine ⟨.ofRoot _, rfl, rfl, fun hd hid => absurd (classDef?_ofSettings hd).1 hid, ?_⟩
  intro m c
  refine ⟨fun hm => ?_, fun ⟨hc, _, hd, _⟩ => absurd (classDef?_ofSettings hd).1 hc⟩
  cases hm

/-- To ask for a heritage touches neither the graph nor the classes. -/
theorem InStep.heritage (h : r.InStep) (hr : r.OK) (id : TypeId) : (r.heritage id).2.InStep := by
  have hext := (heritage_ok hr id).2
  obtain ⟨hs, he, -⟩ := heritage_cases r id
  rw [he] at hext ⊢
  exact ⟨h.forest, h.rootName, h.isAbstract_root,
    fun hd hid => (h.placed hd hid).ext hext (.refl _), h.marker_iff⟩

theorem InStep.blueprint (h : r.InStep) (hr : r.OK) (decl : ClassDecl β) :
    (r.blueprint decl).2.InStep := by
  rcases blueprint_snd (r := r) (d := decl) with he | ⟨id, he⟩
  · rwa [he]
  · rw [he]
    exact h.heritage hr id

/-- A declared type changes neither the place of a class nor its marker. -/
theorem InStep.declare (h : r.InStep) (hr : r.OK) (n : Name) (kind : NodeKind)
    (sup : Option TypeId) : (r.declare n kind sup).2.InStep := by
  rcases declare_cases r n kind sup with he | ⟨hn, hs, he⟩
  · rwa [he]
  have hext := (declare_ok hr n kind sup).2
  rw [he] at hext ⊢
  have hg : r.graph.Persists (r.graph.add n kind sup) := Graph.persists_add hn kind sup
  exact ⟨h.forest.add hn hs, (hg.name? hr.size_pos).trans h.rootName,
    (hg.isAbstract hr.size_pos).trans h.isAbstract_root,
    fun hd hid => (h.placed hd hid).ext hext hg, h.marker_iff⟩

theorem superMarker_eq (hd : r.classDef? id = some d) : r.superMarker id = d.marker := by
  rw [superMarker, hd]

/-- The graph with the marker of a new class, before the class itself is added. -/
def markerGraph (r : Registry β) (b : Blueprint β) : Graph :=
  r.graph.add b.markerName .abstract (some (r.superMarker b.superclass))

theorem graph_enter (r : Registry β) (b : Blueprint β) :
    (r.enter b).graph = (r.markerGraph b).add b.name .concrete (some r.graph.size) := rfl

theorem size_markerGraph (r : Registry β) (b : Blueprint β) :
    (r.markerGraph b).size = r.graph.size + 1 := Graph.size_add

theorem isAbstract_markerGraph (r : Registry β) (b : Blueprint β) :
    (r.markerGraph b).isAbstract r.graph.size = true := by
  rw [markerGraph, Graph.isAbstract_add_new]
  rfl

theorem lookup_markerGraph (hn : r.lookup b.name = none) (hne : b.markerName ≠ b.name) :
    (r.markerGraph b).lookup b.name = none := by
  rw [markerGraph, Graph.lookup_add, if_neg hne]
  exact hn

/-- Entering a class leaves all nodes what they are. -/
theorem persists_enter (hn : r.lookup b.name = none) (hm : r.lookup b.markerName = none)
    (hne : b.markerName ≠ b.name) : r.graph.Persists (r.enter b).graph :=
  (Graph.persists_add hm _ _).trans (Graph.persists_add (lookup_markerGraph hn hne) _ _)

/-- **A class is placed when it is entered**, below its superclass. -/
theorem placed_enter (hr : r.OK) (hs : r.classDef? b.superclass = some s)
    (hn : r.lookup b.name = none) (hm : r.lookup b.markerName = none)
    (hname : b.markerName = r.settings.markerName b.name) (hne : b.markerName ≠ b.name) :
    (r.enter b).Placed (r.graph.size + 1) (b.toDef r.graph.size (r.graph.size + 1)) := by
  have hp : (r.markerGraph b).Persists (r.enter b).graph :=
    Graph.persists_add (lookup_markerGraph hn hne) _ _
  have hsize := size_markerGraph r b
  have hlt : r.graph.size < (r.markerGraph b).size := hsize ▸ Nat.lt_succ_self _
  refine ⟨rfl, ?_, ?_, ?_, ?_, ?_, b.superclass, s, rfl, (ext_enter hr hn hm hne).classDef? hs, ?_⟩
  · -- the class itself
    rw [graph_enter, ← hsize, Graph.isConcrete_add_new]
    rfl
  · rw [graph_enter, Graph.name?_add, if_pos hsize.symm]
    rfl
  · rw [graph_enter, ← hsize, Graph.supertype_add_new]
    rfl
  · -- its marker
    exact (hp.isAbstract hlt).trans (isAbstract_markerGraph r b)
  · refine (hp.name? hlt).trans ?_
    rw [markerGraph, Graph.name?_add, if_pos rfl, hname]
    rfl
  · refine (hp.supertype hlt).trans ?_
    rw [markerGraph, Graph.supertype_add_new, superMarker_eq hs]

/-- **Entering a class** keeps graph, classes and markers in step. -/
theorem InStep.enter (h : r.InStep) (hr : r.OK) (hs : r.classDef? b.superclass = some s)
    (hn : r.lookup b.name = none) (hm : r.lookup b.markerName = none)
    (hname : b.markerName = r.settings.markerName b.name) (hne : b.markerName ≠ b.name) :
    (r.enter b).InStep := by
  have hext := ext_enter hr hn hm hne
  have hp := persists_enter hn hm hne
  refine ⟨?_, (hp.name? hr.size_pos).trans h.rootName,
    (hp.isAbstract hr.size_pos).trans h.isAbstract_root, ?_, ?_⟩
  · -- both nodes are put under abstract ones
    have habs : r.graph.isAbstract (r.superMarker b.superclass) = true :=
      superMarker_eq hs ▸ h.isAbstract_marker hr hs
    have hmarker : (r.markerGraph b).Forest := h.forest.add hm fun t ht => by cases ht; exact habs
    exact hmarker.add (lookup_markerGraph hn hne) fun t ht => by
      cases ht
      exact isAbstract_markerGraph r b
  · intro id d hd hid
    rcases classDef?_enter hd with ⟨rfl, rfl⟩ | hold
    · exact placed_enter hr hs hn hm hname hne
    · exact (h.placed hold hid).ext hext hp
  · intro m c
    constructor
    · intro hmc
      change (Table.insert _ _ _).get? m = _ at hmc
      rw [Table.get?_insert] at hmc
      split at hmc
      · next e =>
        cases hmc
        exact ⟨Nat.succ_ne_zero _, _, Table.get?_insert_self, e⟩
      · obtain ⟨hc, d, hd, hdm⟩ := h.marker_iff.1 hmc
        exact ⟨hc, d, hext.classDef? hd, hdm⟩
    · rintro ⟨hc, d, hd, rfl⟩
      rcases classDef?_enter hd with ⟨rfl, rfl⟩ | hold
      · exact Table.get?_insert_self
      · -- the new marker is none of those there were
        have hdm := h.marker_iff.2 ⟨hc, d, hold, rfl⟩
        have hmarker : r.graph.size ≠ d.marker := (Nat.ne_of_lt (hr.marker_lt hdm)).symm
        exact (Table.get?_insert_of_ne hmarker).trans hdm

/-- What a definition enters, if anything, and where. -/
theorem define_enter (hr : r.OK) (decl : ClassDecl β) :
    (r.define decl).2 = (r.blueprint decl).2 ∨
    ∃ (b : Blueprint β) (r₁ : Registry β) (s : ClassDef β), (r.blueprint decl).2 = r₁ ∧ r₁.OK ∧
      r₁.classDef? b.superclass = some s ∧ r₁.lookup b.name = none ∧
      r₁.lookup b.markerName = none ∧ b.markerName = r₁.settings.markerName b.name ∧
      b.markerName ≠ b.name ∧ (r.define decl).2 = r₁.enter b := by
  rcases define_cases r decl with ⟨e, hd⟩ | ⟨b, r₁, hb, hn, hm, hd⟩
  · exact .inl (by rw [hd])
  right
  obtain ⟨o, h, ho, hh, ha⟩ := blueprint_ok hb
  obtain ⟨hr₁, he₁⟩ := blueprint_snd_ok hr decl
  rw [hb] at hr₁ he₁
  obtain ⟨-, ⟨sid, hs⟩, -, -⟩ := outline_ok ho
  have hsid := hr.id_eq hs
  rw [← hsid] at hs
  obtain ⟨rfl, -⟩ := assemble_ok ha
  exact ⟨_, r₁, o.superDef, by rw [hb], hr₁, he₁.classDef? hs, hn, hm, rfl, markerName_ne hr₁ decl,
    by rw [hd]⟩

theorem InStep.define (h : r.InStep) (hr : r.OK) (decl : ClassDecl β) :
    (r.define decl).2.InStep := by
  rcases define_enter hr decl with hd | ⟨b, r₁, s, hb, hr₁, hs, hn, hm, hname, hne, hd⟩ <;> rw [hd]
  · exact h.blueprint hr decl
  · exact InStep.enter (hb ▸ h.blueprint hr decl) hr₁ hs hn hm hname hne

/-- **One request keeps graph, classes and markers in step.** -/
theorem after_inStep (h : r.InStep) (hr : r.OK) (q : Request β) : (r.after q).InStep := by
  cases q with
  | define decl => exact h.define hr decl
  | blueprint decl => exact h.blueprint hr decl
  | declare n kind sup => exact h.declare hr n kind sup
  | heritage id => exact h.heritage hr id

/-! ## All requests -/

theorem Leads.inStep (hl : r.Leads r') (hr : r.OK) (h : r.InStep) : r'.InStep := by
  induction hl with
  | refl => exact h
  | step hl q ih => exact after_inStep ih (hl.ok hr).1 q

theorem Reachable.inStep (hr : r.Reachable) : r.InStep := by
  obtain ⟨s, r₀, hs, hl⟩ := hr
  exact hl.inStep (new_ok hs) (new_inStep hs)

/-- **Nodes and classes.** In every reachable registry names and nodes correspond, every node stands
under an abstract one that was there before it, the nodes below it are listed in the order in which
they came, each class has its two nodes, and these lead back to it. -/
theorem Reachable.nodes_and_classes (hr : r.Reachable) :
    r.InStep ∧ r.graph.supertype rootId = none ∧
      (∀ n i j, r.graph.name? i = some n → r.graph.name? j = some n → i = j) ∧
      (∀ i, r.graph.isConcrete i = true → r.graph.subtypes i = []) ∧
      ∀ i j c d, r.classDef? i = some c → r.classDef? j = some d → c.marker = d.marker → i = j := by
  have h := hr.inStep
  refine ⟨h, h.supertype_root, fun n i j hi hj => ?_,
    fun i hi => h.forest.subtypes_of_isConcrete hi,
    fun i j c d hc hd hm => h.marker_inj hr.ok hc hd hm⟩
  have hl := h.forest.lookup_iff.2 hi
  rw [h.forest.lookup_iff.2 hj, Option.some.injEq] at hl
  exact hl.symm

/-! ## Declared types among classes -/

/-- Three classes, one below the other, and types declared among them. `Pet` and `Rex` are put
under the marker of `Animal`; the name of the marker of `Cat` is used up, so `Cat` is refused. -/
def pound : Registry Unit :=
  (ofSettings .standard).afterAll [
    .define ⟨"Animal", none, [], false, []⟩,
    .declare "Pet" .abstract (some 1),
    .define ⟨"Dog", some "Animal", [], false, []⟩,
    .declare "Rex" .concrete (some 3),
    .define ⟨"Puppy", some "Dog", [], false, []⟩,
    .declare "AbstractCat" .abstract none,
    .define ⟨"Cat", some "Animal", [], false, []⟩]

theorem reachable_pound : pound.Reachable := ⟨.standard, _, rfl, leads_afterAll _ _⟩

/-- `Dog` has its two nodes. Its marker is the last of the three nodes below that of `Animal`, and
nothing is below its own node. -/
theorem nodes_and_classes_pound : ∃ d, pound.classDef? 5 = some d ∧ pound.Placed 5 d ∧
    d.marker = 4 ∧ pound.markers.get? 4 = some 5 ∧ pound.markers.get? 9 = none ∧
    pound.graph.subtypes 1 = [2, 3, 4] ∧ pound.graph.subtypes 5 = [] := by
  obtain ⟨hin, -, -, hfinal, -⟩ := reachable_pound.nodes_and_classes
  have hd : (pound.classDef? 5).map (·.marker) = some 4 := by decide +kernel
  obtain ⟨d, hd, hm⟩ := Option.map_eq_some_iff.1 hd
  exact ⟨d, hd, hin.placed hd (by decide), hm, hin.marker_iff.2 ⟨by decide, d, hd, hm⟩,
    by decide +kernel, by decide +kernel, hfinal 5 (by decide +kernel)⟩

end Registry

end ClassGraph
