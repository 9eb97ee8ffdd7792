import ClassGraph.Proofs.Growth
import ClassGraph.Proofs.Subclasses
import Mathlib.Data.List.Induction

/-!
# What a marker stands for

A marker stands for the one concrete node directly below it. A class puts its own node there when it
is defined, before anything else can be; later only declarations of concrete types add to these
nodes, one each, and these are told from the requests that have been made. Markers of subclasses
stand in the same list of nodes and do not count.

* `Registry.declaredBelow`: the concrete types that a series of requests declares directly below a
  node.
* `Registry.realizationNames_after`: **one request adds to the realizations of a node what it
  declares there**; `Registry.realizationNames_afterAll`: what a whole run makes of the marker of a
  class.
* `Registry.afterAll_standsFor`: **the marker of a class stands for it as long as nothing else is
  declared there**, and is ambiguous from then on.
-/

namespace ClassGraph

variable {β : Type}

/-! ## Realizations after an addition -/

namespace Graph

variable {g : Graph} {n : Name} {kind : NodeKind} {sup : Option TypeId} {m : TypeId}

theorem realizations_of_size_le (h : g.size ≤ m) : g.realizations m = [] := by
  rw [realizations, subtypes, node?_eq_none_iff.2 h]
  rfl

/-- A concrete node is listed last among the realizations of its supertype. -/
theorem Forest.realizations_add (h : g.Forest) (hs : ∀ s, sup = some s → s < g.size) (m : TypeId) :
    (g.add n kind sup).realizations m =
      g.realizations m ++ if sup = some m ∧ kind = .concrete then [g.size] else [] := by
  have hold : (g.subtypes m).filter (g.add n kind sup).isConcrete = g.realizations m := by
    apply List.filter_congr
    intro c hc
    exact isConcrete_add (lt_size_of_supertype (h.mem_subtypes_iff.1 hc))
  rw [realizations, subtypes_add hs, List.filter_append, hold]
  by_cases hm : sup = some m
  · rw [if_pos hm, List.filter_singleton, isConcrete_add_new]
    simp [hm]
  · rw [if_neg hm, if_neg fun hc => hm hc.1]
    rfl

end Graph

namespace Registry

variable {r r₀ : Registry β} {id m : TypeId} {d : ClassDef β} {b : Blueprint β}

/-- A new class leaves the realizations of other nodes alone, and is that of its marker. -/
theorem InStep.realizations_enter (h : r.InStep) (hr : r.OK) {s : ClassDef β}
    (hs : r.classDef? b.superclass = some s) (hm : r.lookup b.markerName = none) (m : TypeId) :
    (r.enter b).graph.realizations m =
      r.graph.realizations m ++ if m = r.graph.size then [r.graph.size + 1] else [] := by
  have habs : r.graph.isAbstract (r.superMarker b.superclass) = true :=
    superMarker_eq hs ▸ h.isAbstract_marker hr hs
  have hlt : ∀ t, some (r.superMarker b.superclass) = some t → t < r.graph.size := by
    intro t ht
    cases ht
    exact Graph.lt_size_of_isAbstract habs
  have hforest : (r.markerGraph b).Forest := h.forest.add hm fun t ht => by cases ht; exact habs
  have hmarker : (r.markerGraph b).realizations m = r.graph.realizations m := by
    rw [markerGraph, h.forest.realizations_add hlt]
    simp
  have hsize := size_markerGraph r b
  have hlt' : ∀ t, some r.graph.size = some t → t < (r.markerGraph b).size := by
    intro t ht
    cases ht
    omega
  rw [graph_enter, hforest.realizations_add hlt', hmarker, hsize]
  simp [eq_comm]

/-! ## What is declared below a node -/

/-- The type that a request declares directly below the node, if it is a concrete one and the
request is granted. -/
def declaredBy (r : Registry β) (m : TypeId) : Request β → List Name
  | .declare n kind sup =>
    if (r.declare n kind sup).1.isOk ∧ sup = some m ∧ kind = .concrete then [n] else []
  | _ => []

/-- **The concrete types that requests declare directly below a node**, in the order of their
declaration. -/
def declaredBelow (m : TypeId) : Registry β → List (Request β) → List Name
  | _, [] => []
  | r, q :: qs => r.declaredBy m q ++ declaredBelow m (r.after q) qs

/-- The names of the realizations of a node, in the order in which they were added. -/
def realizationNames (r : Registry β) (m : TypeId) : List Name :=
  (r.graph.realizations m).map r.typeName

theorem declaredBelow_append (m : TypeId) (r : Registry β) (qs qs' : List (Request β)) :
    declaredBelow m r (qs ++ qs') =
      declaredBelow m r qs ++ declaredBelow m (r.afterAll qs) qs' := by
  induction qs generalizing r with
  | nil => rfl
  | cons q qs ih =>
    rw [List.cons_append, declaredBelow, declaredBelow, ih, List.append_assoc]
    rfl

/-- Requests that declare no concrete type directly below the node add nothing to the list. -/
theorem declaredBelow_eq_nil {qs : List (Request β)}
    (h : ∀ q ∈ qs, ∀ n, q ≠ .declare n .concrete (some m)) : declaredBelow m r qs = [] := by
  induction qs generalizing r with
  | nil => rfl
  | cons q qs ih =>
    have hq : r.declaredBy m q = [] := by
      unfold declaredBy
      split
      next n kind sup =>
        apply if_neg
        rintro ⟨-, rfl, rfl⟩
        exact h _ List.mem_cons_self n rfl
      · rfl
    rw [declaredBelow, hq, List.nil_append]
    exact ih fun q' hq' => h q' (List.mem_cons_of_mem q hq')

/-- A refused declaration adds nothing. -/
theorem declaredBy_of_error {n : Name} {kind : NodeKind} {sup : Option TypeId} {e : Error}
    (h : r.declare n kind sup = (.error e, r)) : r.declaredBy m (.declare n kind sup) = [] := by
  simp [declaredBy, h, Except.isOk, Except.toBool]

/-- A granted one adds its type if that is concrete and directly below the node. -/
theorem declaredBy_of_ok {n : Name} {kind : NodeKind} {sup : Option TypeId} {k : TypeId}
    {r' : Registry β} (h : r.declare n kind sup = (.ok k, r')) :
    r.declaredBy m (.declare n kind sup) =
      if sup = some m ∧ kind = .concrete then [n] else [] := by
  simp [declaredBy, h, Except.isOk, Except.toBool]

/-! ## One request -/

/-- **One request adds to the realizations of a node** the type that it declares there, if any. -/
theorem InStep.realizationNames_after (h : r.InStep) (hr : r.OK) (hm : m < r.graph.size)
    (q : Request β) :
    (r.after q).realizationNames m = r.realizationNames m ++ r.declaredBy m q := by
  -- names stay, so the two lists may be compared by their nodes
  have hnames : ∀ new, (r.after q).graph.realizations m = r.graph.realizations m ++ new →
      (r.after q).realizationNames m = r.realizationNames m ++ new.map (r.after q).typeName := by
    intro new hnew
    rw [realizationNames, hnew, List.map_append]
    congr 1
    apply List.map_congr_left
    intro c hc
    exact (after_persists hr q).typeName_eq (Graph.lt_size_of_isConcrete
      (h.forest.mem_realizations_iff.1 hc).1)
  have hsame : r.declaredBy m q = [] → (r.after q).graph.realizations m = r.graph.realizations m →
      (r.after q).realizationNames m = r.realizationNames m ++ r.declaredBy m q := by
    intro hq hgraph
    rw [hq, hnames [] (by rw [hgraph, List.append_nil])]
    rfl
  cases q with
  | define decl =>
    apply hsame rfl
    rcases define_enter hr decl with hd | ⟨b, r₁, s, hb, hr₁, hs, -, hmarker, -, -, hd⟩
    · rw [after, hd, (leavesNoTrace_blueprint r decl).graph]
    · -- the nodes of the new class are none of those that there have been
      have hgraph : r₁.graph = r.graph := hb ▸ (leavesNoTrace_blueprint r decl).graph
      have hin : r₁.InStep := hb ▸ h.blueprint hr decl
      rw [after, hd, hin.realizations_enter hr₁ hs hmarker, hgraph, if_neg (Nat.ne_of_lt hm),
        List.append_nil]
  | blueprint decl =>
    apply hsame rfl
    rw [after, (leavesNoTrace_blueprint r decl).graph]
  | heritage id =>
    apply hsame rfl
    obtain ⟨hs, he, -⟩ := heritage_cases r id
    rw [after, he]
  | declare n kind sup =>
    rcases declare_eq r n kind sup with ⟨e, he⟩ | ⟨hn, hs, he⟩
    · apply hsame (declaredBy_of_error he)
      rw [after, he]
    · have hlt : ∀ s, sup = some s → s < r.graph.size :=
        fun s hsup => Graph.lt_size_of_isAbstract (hs s hsup)
      have hgraph : (r.after (.declare n kind sup)).graph = r.graph.add n kind sup := by
        rw [after, he]
      have hname : (r.after (.declare n kind sup)).typeName r.graph.size = n := by
        rw [typeName, hgraph, Graph.name?_add, if_pos rfl]
        rfl
      rw [hnames _ (by rw [hgraph, h.forest.realizations_add hlt]), declaredBy_of_ok he]
      split
      · rw [List.map_singleton, hname]
      · rfl

/-! ## A whole run -/

/-- Nothing can have been declared below a node that there is not yet. -/
theorem declaredBelow_of_size_le (hr : r.OK) {qs : List (Request β)}
    (hm : (r.afterAll qs).graph.size ≤ m) : declaredBelow m r qs = [] := by
  induction qs generalizing r with
  | nil => rfl
  | cons q qs ih =>
    have hnext : (r.after q).OK := (after_ok hr q).1
    have hle : r.graph.size ≤ m :=
      Nat.le_trans ((leads_afterAll r (q :: qs)).ok hr).2.graph.size_le hm
    have hq : r.declaredBy m q = [] := by
      cases q with
      | declare n kind sup =>
        rcases declare_eq r n kind sup with ⟨e, he⟩ | ⟨-, hs, -⟩
        · exact declaredBy_of_error he
        · apply if_neg
          rintro ⟨-, hsup, -⟩
          exact absurd (Graph.lt_size_of_isAbstract (hs m hsup)) (Nat.not_lt.2 hle)
      | define _ => rfl
      | blueprint _ => rfl
      | heritage _ => rfl
    rw [declaredBelow, hq, List.nil_append]
    exact ih hnext hm

/-- A class that a request has defined has a new marker, and nothing else realizes that. -/
theorem InStep.realizationNames_of_defined (h : r.InStep) (hr : r.OK) {q : Request β}
    (hd : (r.after q).classDef? id = some d) (hnew : r.classDef? id = none) :
    d.marker = r.graph.size ∧ (r.after q).realizationNames d.marker = [d.name] ∧
      ∀ m, r.declaredBy m q = [] := by
  have hp : id ≠ rootId → (r.after q).Placed id d := (after_inStep h hr q).placed hd
  rcases classDef?_after hd with hold | ⟨decl, rfl, -⟩
  · rw [hnew] at hold
    cases hold
  have htrace := leavesNoTrace_blueprint r decl
  have hbefore : (r.blueprint decl).2.classDef? id = none := by
    rw [classDef?, htrace.classes]
    exact hnew
  rcases define_enter hr decl with he | ⟨b, r₁, s, hb, hr₁, hs, -, hmarker, -, -, he⟩
  · rw [after, he, hbefore] at hd
    cases hd
  have hin : r₁.InStep := hb ▸ h.blueprint hr decl
  rw [hb] at hbefore htrace
  rw [after, he] at hd hp ⊢
  rcases classDef?_enter hd with ⟨rfl, rfl⟩ | hold
  · have hname := (hp (Nat.succ_ne_zero _)).name
    have hrealizes : (r₁.enter b).graph.realizations r₁.graph.size = [r₁.graph.size + 1] := by
      rw [hin.realizations_enter hr₁ hs hmarker, if_pos rfl,
        Graph.realizations_of_size_le (Nat.le_refl _), List.nil_append]
    have hnames : (r₁.enter b).realizationNames r₁.graph.size = [b.name] := by
      rw [realizationNames, hrealizes, List.map_singleton, typeName, hname]
      rfl
    exact ⟨congrArg Graph.size htrace.graph, hnames, fun m => rfl⟩
  · rw [hbefore] at hold
    cases hold

/-- **What a run makes of the marker of a class**: the class realizes it, and after it all types
that have been declared there. -/
theorem realizationNames_afterAll {settings : Settings} (hn : Registry.new settings = .ok r₀)
    (qs : List (Request β)) (hd : (r₀.afterAll qs).classDef? id = some d) (hid : id ≠ rootId) :
    (r₀.afterAll qs).realizationNames d.marker = d.name :: declaredBelow d.marker r₀ qs := by
  -- by induction on the run, the last request apart
  induction qs using List.reverseRecOn generalizing id d with
  | nil =>
    obtain ⟨-, rfl⟩ := new_eq hn
    exact absurd (classDef?_ofSettings hd).1 hid
  | append_singleton qs q ih =>
    have hlast : ∀ r : Registry β, r.afterAll (qs ++ [q]) = (r.afterAll qs).after q := by
      intro r
      rw [afterAll, afterAll, List.foldl_append]
      rfl
    have hl : r₀.Leads (r₀.afterAll qs) := leads_afterAll r₀ qs
    have hr : (r₀.afterAll qs).OK := (hl.ok (new_ok hn)).1
    have h : (r₀.afterAll qs).InStep := hl.inStep (new_ok hn) (new_inStep hn)
    have hdecl : declaredBelow d.marker r₀ (qs ++ [q]) =
        declaredBelow d.marker r₀ qs ++ (r₀.afterAll qs).declaredBy d.marker q := by
      rw [declaredBelow_append, declaredBelow, declaredBelow, List.append_nil]
    rw [hlast] at hd ⊢
    rw [hdecl]
    cases hbefore : (r₀.afterAll qs).classDef? id with
    | some d' =>
      -- the class was there before
      have hsame : d' = d := Option.some.inj (((after_ok hr q).2.classDef? hbefore).symm.trans hd)
      rw [hsame] at hbefore
      have hlt : d.marker < (r₀.afterAll qs).graph.size := (h.placed hbefore hid).marker_lt
      rw [h.realizationNames_after hr hlt, ih hbefore hid]
      rfl
    | none =>
      obtain ⟨hmarker, hnames, hq⟩ := h.realizationNames_of_defined hr hd hbefore
      have hnone : declaredBelow d.marker r₀ qs = [] :=
        declaredBelow_of_size_le (new_ok hn) (Nat.le_of_eq hmarker.symm)
      rw [hnames, hq, hnone]
      rfl

/-! ## What the marker stands for -/

/-- What an abstract node stands for is told by its realizations. -/
theorem classOf_of_isAbstract {n : Name} (hm : r.graph.isAbstract m = true)
    (hn : r.graph.name? m = some n) : r.classOf m = match r.graph.realizations m with
      | [only] => .ok only
      | candidates => .error (.ambiguousConcreteClass n (candidates.map r.typeName)) := by
  rw [classOf, Graph.realizations, Graph.subtypes]
  unfold Graph.isAbstract at hm
  unfold Graph.name? at hn
  cases hnode : r.graph.node? m with
  | none => simp [hnode] at hm
  | some node =>
    have habs : node.isAbstract = true := by simpa [hnode] using hm
    have hname : node.name = n := by simpa [hnode] using hn
    simp only [habs, Bool.not_true, Bool.false_eq_true, if_false, Option.map_some,
      Option.getD_some]
    rcases node.subtypes.filter r.graph.isConcrete with _ | ⟨c, _ | ⟨c', cs⟩⟩
    · rw [hname]
    · rfl
    · rw [hname]

/-- A concrete node stands for itself. -/
theorem classOf_of_isConcrete (hm : r.graph.isConcrete m = true) : r.classOf m = .ok m := by
  rw [classOf]
  unfold Graph.isConcrete at hm
  cases hnode : r.graph.node? m with
  | none => simp [hnode] at hm
  | some node =>
    have hkind : node.kind = .concrete := by simpa [hnode, Node.isConcrete] using hm
    simp [Node.isAbstract, hkind]

theorem name?_of_lt (h : m < r.graph.size) : r.graph.name? m = some (r.typeName m) := by
  unfold typeName Graph.name?
  cases hnode : r.graph.node? m with
  | none => exact absurd (Graph.node?_eq_none_iff.1 hnode) (Nat.not_le.2 h)
  | some node => rfl

/-- No other class realizes the marker of a class. -/
theorem InStep.eq_of_realizes (h : r.InStep) (hr : r.OK) (hd : r.classDef? id = some d)
    {t : TypeId} (ht : r.graph.Realizes t d.marker) {e : ClassDef β}
    (he : r.classDef? t = some e) : t = id := by
  have hroot : t ≠ rootId := by
    rintro rfl
    exact Graph.not_isConcrete h.isAbstract_root ht.1
  have hmarker := ht.2
  rw [(h.placed he hroot).marker, Option.some.injEq] at hmarker
  exact h.marker_inj hr he hd hmarker

/-- Where the names of its realizations start with that of the class, the nodes start with that of
the class, and the names of the others are theirs. -/
theorem InStep.realizations_marker (h : r.InStep) (hd : r.classDef? id = some d)
    (hid : id ≠ rootId) {others : List Name}
    (hnames : r.realizationNames d.marker = d.name :: others) :
    ∃ ts, r.graph.realizations d.marker = id :: ts ∧ ts.map r.graph.name? = others.map some := by
  have hname : ∀ t, t ∈ r.graph.realizations d.marker → r.graph.name? t = some (r.typeName t) := by
    intro t ht
    exact name?_of_lt (Graph.lt_size_of_isConcrete (h.forest.mem_realizations_iff.1 ht).1)
  obtain ⟨first, ts, hlist, hfirst, hts⟩ := List.map_eq_cons_iff.1 hnames
  rw [hlist] at hname
  -- no two nodes have one name
  have hclass : first = id := by
    have hlookup := hname first List.mem_cons_self
    rw [hfirst, ← h.forest.lookup_iff, h.forest.lookup_iff.2 (h.placed hd hid).name,
      Option.some.injEq] at hlookup
    exact hlookup.symm
  refine ⟨ts, hclass ▸ hlist, ?_⟩
  rw [← hts, List.map_map]
  apply List.map_congr_left
  intro t ht
  exact hname t (List.mem_cons_of_mem first ht)

/-- **What a class and its marker stand for**, where `others` are the names of the concrete types
that have been declared directly below the marker. -/
structure StandsFor (r : Registry β) (id : TypeId) (d : ClassDef β) (others : List Name) :
    Prop where
  classOf_class : r.classOf id = .ok id
  markerOf_class : r.markerOf id = .ok d.marker
  classOf_marker_iff : r.classOf d.marker = .ok id ↔ others = []
  ambiguous : others ≠ [] → r.classOf d.marker =
    .error (.ambiguousConcreteClass (r.settings.markerName d.name) (d.name :: others))
  /-- The names belong to the concrete nodes directly below the marker that are no classes. -/
  declared : ∃ ts : List TypeId, ts.Pairwise (· < ·) ∧ ts.map r.graph.name? = others.map some ∧
    ∀ t, t ∈ ts ↔ r.graph.Realizes t d.marker ∧ r.classDef? t = none

/-- The names of the realizations of its marker tell what a class and the marker stand for. -/
theorem InStep.standsFor (h : r.InStep) (hr : r.OK) (hd : r.classDef? id = some d)
    (hid : id ≠ rootId) {others : List Name}
    (hnames : r.realizationNames d.marker = d.name :: others) : r.StandsFor id d others := by
  have hp := h.placed hd hid
  obtain ⟨ts, hlist, hts⟩ := h.realizations_marker hd hid hnames
  have hordered : (id :: ts).Pairwise (· < ·) := by
    rw [← hlist]
    exact (h.forest.subtypes_pairwise d.marker).filter _
  obtain ⟨hfirst, hordered⟩ := List.pairwise_cons.1 hordered
  have hmarker := classOf_of_isAbstract hp.isAbstract hp.markerName
  have hmap : r.realizationNames d.marker = (id :: ts).map r.typeName := by
    rw [realizationNames, hlist]
  rw [hlist] at hmarker
  refine ⟨classOf_of_isConcrete hp.isConcrete, ?_, ⟨?_, ?_⟩, ?_, ts, hordered, hts, ?_⟩
  · have habs : ¬ r.graph.isAbstract id = true :=
      fun habs => Graph.not_isConcrete habs hp.isConcrete
    simp [markerOf, habs, hd]
  · intro hone
    rw [hmarker] at hone
    cases ts with
    | nil => exact List.map_eq_nil_iff.1 hts.symm
    | cons t ts => cases hone
  · rintro rfl
    rw [hmarker, List.map_eq_nil_iff.1 hts]
  · intro hne
    cases ts with
    | nil => exact absurd (List.map_eq_nil_iff.1 hts.symm) hne
    | cons t ts =>
      rw [hmarker, ← hnames, hmap]
  · intro t
    rw [← h.forest.mem_realizations_iff, hlist, List.mem_cons]
    constructor
    · intro ht
      refine ⟨.inr ht, ?_⟩
      cases he : r.classDef? t with
      | none => rfl
      | some e =>
        have hreal : r.graph.Realizes t d.marker :=
          h.forest.mem_realizations_iff.1 (hlist ▸ List.mem_cons_of_mem id ht)
        have hsame := h.eq_of_realizes hr hd hreal he
        exact absurd (hfirst t ht) (hsame ▸ Nat.lt_irrefl t)
    · rintro ⟨rfl | ht, hnone⟩
      · rw [hd] at hnone
        cases hnone
      · exact ht

/-- **A marker stands for its class as long as nothing else is declared there.** After whatever
requests, each class but the root stands for itself, and so does its marker if none of the requests
has declared a concrete type directly below it; else the marker is ambiguous between the class and
these types, in the order of their declaration. Nothing but such declarations changes what it stands
for. -/
theorem afterAll_standsFor {settings : Settings} (hn : Registry.new settings = .ok r₀)
    {qs : List (Request β)} (hqs : r₀.afterAll qs = r) (hd : r.classDef? id = some d)
    (hid : id ≠ rootId) :
    r.StandsFor id d (declaredBelow d.marker r₀ qs) ∧
      ∀ qs' : List (Request β), (∀ q ∈ qs', ∀ n, q ≠ .declare n .concrete (some d.marker)) →
        (r.afterAll qs').StandsFor id d (declaredBelow d.marker r₀ qs) ∧
        (r.afterAll qs').classOf d.marker = r.classOf d.marker := by
  have hstands : ∀ (qs : List (Request β)) (r : Registry β), r₀.afterAll qs = r →
      r.classDef? id = some d → r.StandsFor id d (declaredBelow d.marker r₀ qs) := by
    rintro qs r rfl hd
    have hl : r₀.Leads (r₀.afterAll qs) := leads_afterAll r₀ qs
    exact (hl.inStep (new_ok hn) (new_inStep hn)).standsFor (hl.ok (new_ok hn)).1 hd hid
      (realizationNames_afterAll hn qs hd hid)
  have hnow := hstands qs r hqs hd
  refine ⟨hnow, fun qs' hqs' => ?_⟩
  have hr : r.OK := hqs ▸ ((leads_afterAll r₀ qs).ok (new_ok hn)).1
  have hext : r.Ext (r.afterAll qs') := ((leads_afterAll r qs').ok hr).2
  -- the later requests continue the run, and add nothing to what it has declared there
  have hrun : r₀.afterAll (qs ++ qs') = r.afterAll qs' := by
    rw [afterAll, List.foldl_append, ← hqs]
    rfl
  have hlater := hstands (qs ++ qs') _ hrun (hext.classDef? hd)
  rw [declaredBelow_append, hqs, declaredBelow_eq_nil hqs', List.append_nil] at hlater
  refine ⟨hlater, ?_⟩
  by_cases hnone : declaredBelow d.marker r₀ qs = []
  · rw [hlater.classOf_marker_iff.2 hnone, hnow.classOf_marker_iff.2 hnone]
  · rw [hlater.ambiguous hnone, hnow.ambiguous hnone, hext.settings]

/-! ## Strays -/

/-- Types declared around a class and a class below it: two concrete ones and an abstract one below
the marker of `Dog`, and a concrete one below that of `Puppy`. -/
def strayRequests : List (Request Unit) := [
  .define ⟨"Dog", none, [], false, []⟩,
  .declare "Stray" .concrete (some 1),
  .define ⟨"Puppy", some "Dog", [], false, []⟩,
  .declare "Breed" .abstract (some 1),
  .declare "Whelp" .concrete (some 4),
  .declare "Wolf" .concrete (some 1)]

/-- The registry of the strays. -/
def strays : Registry Unit := (ofSettings .standard).afterAll strayRequests

/-- The marker of `Dog` is ambiguous, also after the definition of another class below `Dog`. -/
theorem standsFor_strays : ∃ d, strays.classDef? 2 = some d ∧ d.marker = 1 ∧
    strays.StandsFor 2 d ["Stray", "Wolf"] ∧
    (strays.after (.define ⟨"Hound", some "Dog", [], false, []⟩)).classOf 1 =
      .error (.ambiguousConcreteClass "AbstractDog" ["Dog", "Stray", "Wolf"]) := by
  have hnew : Registry.new .standard = .ok (ofSettings .standard : Registry Unit) := rfl
  have hd : (strays.classDef? 2).map (fun d => (d.marker, d.name)) = some (1, "Dog") := by
    decide +kernel
  have hdeclared : declaredBelow 1 (ofSettings .standard) strayRequests = ["Stray", "Wolf"] := by
    decide +kernel
  obtain ⟨d, hd, hpair⟩ := Option.map_eq_some_iff.1 hd
  obtain ⟨hm, hname⟩ := Prod.mk.inj hpair
  have hrun : (ofSettings .standard).afterAll strayRequests = strays := rfl
  obtain ⟨hnow, hlater⟩ := afterAll_standsFor hnew hrun hd (by decide)
  rw [hm, hdeclared] at hnow hlater
  have hhound := (hlater [.define ⟨"Hound", some "Dog", [], false, []⟩] (by simp)).2
  have hamb := hnow.ambiguous (by simp)
  rw [hm, hname] at hamb
  exact ⟨d, hd, hm, hnow, hhound.trans hamb⟩

end Registry

end ClassGraph
