import ClassGraph.Proofs.Ancestry
import ClassGraph.Proofs.InheritedLayout
import ClassGraph.Proofs.Preorder
import Mathlib.Data.List.Forall2

/-!
# Subclasses

The subclasses of a class are found by a walk over the markers below its own, which takes from each
of them the one concrete node that stands directly below it. Declared types may get into the way:
a marker without such a node, or with several, makes the walk fail, and so does one too deep down.

* `Graph.Realizes`: a concrete node directly below an abstract one.
* `InStep.classOf_eq_ok_iff`: a node stands for its realization if it has just one.
* `InStep.classesBelow_ok`, `InStep.exists_classesBelow`: **the walk gives the realizations** of all
  abstract nodes below, in the order of the visits, and it does so whenever each has just one.
* `Registry.OnlyClasses`: every node belongs to a class; kept by all requests but declarations.
* `Registry.Reachable.subclasses_exact`: **subclasses are exact.**
-/

namespace ClassGraph

variable {β : Type}

/-! ## Series of questions -/

section

variable {ε α γ : Type}

/-- A list of questions is answered if each of them is. -/
theorem mapM_eq_ok_iff {f : α → Except ε γ} {xs : List α} {ys : List γ} :
    xs.mapM f = .ok ys ↔ List.Forall₂ (fun x y => f x = .ok y) xs ys := by
  induction xs generalizing ys with
  | nil => simp [pure, Except.pure, eq_comm]
  | cons x xs ih =>
    rw [List.mapM_cons, bind_eq_ok_iff, List.forall₂_cons_left_iff]
    constructor
    · rintro ⟨y, hy, h⟩
      obtain ⟨zs, hzs, hpure⟩ := bind_eq_ok_iff.1 h
      cases hpure
      exact ⟨y, zs, hy, ih.1 hzs, rfl⟩
    · rintro ⟨y, zs, hy, hzs, rfl⟩
      exact ⟨y, hy, bind_eq_ok_iff.2 ⟨zs, ih.2 hzs, rfl⟩⟩

theorem exists_mapM_eq_ok {f : α → Except ε γ} {xs : List α} (h : ∀ x ∈ xs, ∃ y, f x = .ok y) :
    ∃ ys, xs.mapM f = .ok ys := by
  simp only [mapM_eq_ok_iff]
  induction xs with
  | nil => exact ⟨[], .nil⟩
  | cons x xs ih =>
    obtain ⟨y, hy⟩ := h x List.mem_cons_self
    obtain ⟨ys, hys⟩ := ih fun z hz => h z (List.mem_cons_of_mem _ hz)
    exact ⟨y :: ys, .cons hy hys⟩

/-- In two lists that correspond, every entry of the one has its partner in the other. -/
theorem exists_of_mem_right {R : α → γ → Prop} {xs : List α} {ys : List γ}
    (h : List.Forall₂ R xs ys) {y : γ} (hy : y ∈ ys) : ∃ x ∈ xs, R x y := by
  induction h with
  | nil => cases hy
  | @cons x z xs ys hR _ ih =>
    rcases List.mem_cons.1 hy with rfl | hy
    · exact ⟨x, List.mem_cons_self, hR⟩
    · obtain ⟨x', hx', hR'⟩ := ih hy
      exact ⟨x', List.mem_cons_of_mem _ hx', hR'⟩

theorem exists_of_mem_left {R : α → γ → Prop} {xs : List α} {ys : List γ}
    (h : List.Forall₂ R xs ys) {x : α} (hx : x ∈ xs) : ∃ y ∈ ys, R x y :=
  exists_of_mem_right (List.Forall₂.flip h) hx

end

/-! ## Realizations -/

namespace Graph

variable {g : Graph} {c n : TypeId}

/-- **The concrete node `c` realizes `n`**: it stands directly below `n`. -/
def Realizes (g : Graph) (c n : TypeId) : Prop :=
  g.isConcrete c = true ∧ g.supertype c = some n

/-- The realizations of a node, in the order in which they were added. -/
def realizations (g : Graph) (n : TypeId) : List TypeId := (g.subtypes n).filter g.isConcrete

theorem Forest.mem_realizations_iff (h : g.Forest) : c ∈ g.realizations n ↔ g.Realizes c n := by
  rw [realizations, List.mem_filter, h.mem_subtypes_iff, and_comm]
  rfl

theorem Forest.realizations_nodup (h : g.Forest) (n : TypeId) : (g.realizations n).Nodup :=
  List.nodup_iff_pairwise_ne.2
    (((h.subtypes_pairwise n).imp fun hlt => Nat.ne_of_lt hlt).filter _)

theorem Forest.realizations_eq_singleton_iff (h : g.Forest) :
    g.realizations n = [c] ↔ ∀ c', g.Realizes c' n ↔ c' = c := by
  rw [← List.perm_singleton,
    List.perm_ext_iff_of_nodup (h.realizations_nodup n) (List.nodup_singleton c)]
  simp only [h.mem_realizations_iff, List.mem_singleton]

/-- Different nodes have different realizations. -/
theorem nodup_of_realizes {cs ns : List TypeId} (h : List.Forall₂ g.Realizes cs ns)
    (hns : ns.Nodup) : cs.Nodup := by
  have hmap : cs.map g.supertype = ns.map some := by
    rw [← List.forall₂_eq_eq_eq, List.forall₂_map_left_iff, List.forall₂_map_right_iff]
    exact h.imp fun _ _ hc => hc.2
  refine List.Nodup.of_map g.supertype ?_
  rw [hmap]
  exact hns.map fun _ _ e => Option.some.inj e

end Graph

namespace Registry

variable {r r' : Registry β} {id n m c : TypeId} {d : ClassDef β} {ids : List TypeId}
  {k fuel : Nat}

/-- An abstract node stands for its realization if it has just one. -/
theorem InStep.classOf_eq_ok_iff (h : r.InStep) (hn : r.graph.isAbstract n = true) :
    r.classOf n = .ok c ↔ ∀ c', r.graph.Realizes c' n ↔ c' = c := by
  rw [← h.forest.realizations_eq_singleton_iff, classOf, Graph.realizations, Graph.subtypes]
  unfold Graph.isAbstract at hn
  cases hnode : r.graph.node? n with
  | none => simp [hnode] at hn
  | some node =>
    have habs : node.isAbstract = true := by simpa [hnode] using hn
    simp only [habs, Bool.not_true, Bool.false_eq_true, if_false, Option.map_some, Option.getD_some]
    cases hl : node.subtypes.filter r.graph.isConcrete with
    | nil => simp
    | cons a rest => cases rest <;> simp

/-! ## The walk -/

theorem InStep.mem_submarkers_iff (h : r.InStep) {child : TypeId} :
    child ∈ r.submarkers m ↔ r.graph.supertype child = some m ∧ r.graph.isAbstract child = true :=
  h.forest.mem_children_iff

theorem InStep.up_succ_iff (h : r.InStep) (hn : r.graph.isAbstract n = true) :
    r.graph.up (k + 1) n = some m ↔ ∃ child ∈ r.submarkers m, r.graph.up k n = some child :=
  h.forest.up_succ_iff hn

/-- The family of a child: what it stands for, and what comes of the walk from it on. -/
def family (r : Registry β) (fuel : Nat) (child : TypeId) : Except Error (List TypeId) := do
  let cls ← r.classOf child
  let below ← r.classesBelow fuel child
  return cls :: below

theorem family_eq_ok_iff {child : TypeId} : r.family fuel child = .ok ids ↔
    ∃ cls below, r.classOf child = .ok cls ∧ r.classesBelow fuel child = .ok below ∧
      ids = cls :: below := by
  rw [family, bind_eq_ok_iff]
  constructor
  · rintro ⟨cls, hcls, h⟩
    obtain ⟨below, hbelow, hpure⟩ := bind_eq_ok_iff.1 h
    cases hpure
    exact ⟨cls, below, hcls, hbelow, rfl⟩
  · rintro ⟨cls, below, hcls, hbelow, rfl⟩
    exact ⟨cls, hcls, bind_eq_ok_iff.2 ⟨below, hbelow, rfl⟩⟩

/-- One level of the walk: the families of the children, one after the other. -/
theorem classesBelow_succ_eq_ok_iff : r.classesBelow (fuel + 1) m = .ok ids ↔
    ∃ families, (r.submarkers m).mapM (r.family fuel) = .ok families ∧ families.flatten = ids := by
  refine bind_eq_ok_iff.trans (exists_congr fun families => and_congr_right fun _ => ?_)
  exact ⟨fun h => Except.ok.inj h, fun h => congrArg Except.ok h⟩

/-- At the limit there may be nothing further below. -/
theorem classesBelow_zero_eq_ok_iff : r.classesBelow 0 m = .ok ids ↔
    r.submarkers m = [] ∧ ids = [] := by
  rw [classesBelow]
  cases r.submarkers m <;> simp [eq_comm]

/-- **What the walk gives**: the realizations of the abstract nodes below, in the order of the
visits; each of the nodes has just one, and none is deeper down than the walk goes. -/
theorem InStep.classesBelow_ok (h : r.InStep) (hw : r.classesBelow fuel m = .ok ids) :
    List.Forall₂ (fun c n => ∀ c', r.graph.Realizes c' n ↔ c' = c) ids
        (r.graph.abstractBelow fuel m) ∧
      ∀ n k, r.graph.isAbstract n = true → r.graph.up k n = some m → k ≤ fuel := by
  induction fuel generalizing m ids with
  | zero =>
    obtain ⟨hnone, rfl⟩ := classesBelow_zero_eq_ok_iff.1 hw
    refine ⟨.nil, fun n k hn hk => Nat.le_zero.2 ?_⟩
    cases k with
    | zero => rfl
    | succ k =>
      obtain ⟨child, hchild, -⟩ := (h.up_succ_iff hn).1 hk
      rw [hnone] at hchild
      cases hchild
  | succ fuel ih =>
    obtain ⟨families, hfam, rfl⟩ := classesBelow_succ_eq_ok_iff.1 hw
    rw [mapM_eq_ok_iff] at hfam
    constructor
    · -- family by family, the child first
      refine List.rel_flatten (List.forall₂_map_right_iff.2 (List.Forall₂.flip ?_))
      have hall := (List.forall₂_and_left _ _).2 ⟨fun _ hc => hc, hfam⟩
      refine hall.imp fun child family ⟨hchild, hf⟩ => ?_
      obtain ⟨cls, below, hcls, hbelow, rfl⟩ := family_eq_ok_iff.1 hf
      have habs := (h.mem_submarkers_iff.1 hchild).2
      exact .cons ((h.classOf_eq_ok_iff habs).1 hcls) (ih hbelow).1
    · intro n k hn hk
      cases k with
      | zero => exact Nat.zero_le _
      | succ k =>
        obtain ⟨child, hchild, hup⟩ := (h.up_succ_iff hn).1 hk
        obtain ⟨family, -, hf⟩ := exists_of_mem_left hfam hchild
        obtain ⟨cls, below, -, hbelow, -⟩ := family_eq_ok_iff.1 hf
        exact Nat.succ_le_succ ((ih hbelow).2 n k hn hup)

/-- **When the walk has an answer**: if each abstract node below has just one realization, and none
is deeper down than the walk goes. -/
theorem InStep.exists_classesBelow (h : r.InStep)
    (hone : ∀ n k, r.graph.isAbstract n = true → 0 < k → r.graph.up k n = some m →
      k ≤ fuel ∧ ∃! c, r.graph.Realizes c n) :
    ∃ ids, r.classesBelow fuel m = .ok ids := by
  induction fuel generalizing m with
  | zero =>
    refine ⟨[], classesBelow_zero_eq_ok_iff.2 ⟨List.eq_nil_iff_forall_not_mem.2 ?_, rfl⟩⟩
    intro child hchild
    obtain ⟨hs, ha⟩ := h.mem_submarkers_iff.1 hchild
    have hup : r.graph.up 1 child = some m := Graph.up_succ_of_supertype hs 0
    exact absurd (hone child 1 ha Nat.one_pos hup).1 (by decide)
  | succ fuel ih =>
    obtain ⟨families, hfam⟩ : ∃ families, (r.submarkers m).mapM (r.family fuel) = .ok families := by
      refine exists_mapM_eq_ok fun child hchild => ?_
      obtain ⟨hs, ha⟩ := h.mem_submarkers_iff.1 hchild
      obtain ⟨c, hc, huniq⟩ := (hone child 1 ha Nat.one_pos (Graph.up_succ_of_supertype hs 0)).2
      obtain ⟨below, hbelow⟩ := ih fun n k hn hpos hup => by
        -- what is below the child is one level further below the node
        obtain ⟨hle, hex⟩ := hone n (k + 1) hn (Nat.succ_pos k) ((h.up_succ_iff hn).2
          ⟨child, hchild, hup⟩)
        exact ⟨Nat.le_of_succ_le_succ hle, hex⟩
      have hcls : r.classOf child = .ok c :=
        (h.classOf_eq_ok_iff ha).2 fun c' => ⟨huniq c', fun e => e ▸ hc⟩
      exact ⟨c :: below, family_eq_ok_iff.2 ⟨c, below, hcls, hbelow, rfl⟩⟩
    exact ⟨families.flatten, classesBelow_succ_eq_ok_iff.2 ⟨families, hfam, rfl⟩⟩

/-- The walk for a class starts at its marker. -/
theorem InStep.subclasses_eq (h : r.InStep) (hr : r.OK) (hd : r.classDef? id = some d) :
    r.subclasses id = r.classesBelow r.settings.maxHierarchyDepth d.marker := by
  rw [subclasses]
  by_cases hid : id = rootId
  · have hm := superMarker_eq hd
    rw [hid, superMarker_root hr] at hm
    simp [hid, hm]
  · have habs : ¬ r.graph.isAbstract id = true := fun ha =>
      Graph.not_isConcrete ha (h.placed hd hid).isConcrete
    simp [hid, markerOf, habs, hd]

/-- What realizes the marker of a class. -/
theorem Placed.realizes (hp : r.Placed id d) : r.graph.Realizes id d.marker :=
  ⟨hp.isConcrete, hp.marker⟩

/-- The marker of a class is properly below that of another one, exactly when this is one of its
ancestors. -/
theorem InStep.marker_below_iff (h : r.InStep) (hr : r.OK) (hd : r.classDef? id = some d)
    {e : ClassDef β} (he : r.classDef? c = some e) {as : List TypeId} (hc : r.Chain c as)
    (hl : as.length ≤ r.settings.maxHierarchyDepth) :
    (e.marker ≠ d.marker ∧ r.graph.isSubtype e.marker d.marker = true) ↔ id ∈ as := by
  rw [← superMarker_eq he, ← h.isSubtype_class_iff hr he (h.isAbstract_marker hr hd),
    h.isSubtype_marker_iff hr hd he, hc.descendsFrom_iff hl, superMarker_eq he, List.mem_cons]
  constructor
  · rintro ⟨hne, rfl | hmem⟩
    · exact absurd (Option.some.inj (he.symm.trans hd) ▸ rfl) hne
    · exact hmem
  · intro hmem
    refine ⟨fun hm => ?_, .inr hmem⟩
    rw [h.marker_inj hr he hd hm] at hc
    exact (List.nodup_cons.1 hc.nodup).1 hmem

/-- **The subclasses that are listed** are realizations of all abstract nodes properly below the
marker, each of which has no other one. -/
structure Lists (r : Registry β) (marker : TypeId) (ids ns : List TypeId) : Prop where
  ordered : ns.Pairwise r.graph.Precedes
  mem_iff : ∀ n, n ∈ ns ↔
    r.graph.isAbstract n = true ∧ n ≠ marker ∧ r.graph.isSubtype n marker = true
  realized : List.Forall₂ (fun c n => ∀ c', r.graph.Realizes c' n ↔ c' = c) ids ns

theorem Lists.realizes {marker : TypeId} {ns : List TypeId} (hl : r.Lists marker ids ns) :
    List.Forall₂ r.graph.Realizes ids ns :=
  hl.realized.imp fun c _ huniq => (huniq c).2 rfl

/-- An answer of the walk is such a list, and the walk has met no node beyond its limit. -/
theorem InStep.lists (h : r.InStep) (hw : r.classesBelow fuel m = .ok ids) :
    r.Lists m ids (r.graph.abstractBelow fuel m) ∧
      ∀ n k, r.graph.isAbstract n = true → r.graph.up k n = some m → k ≤ fuel := by
  obtain ⟨hreal, hdeep⟩ := h.classesBelow_ok hw
  refine ⟨⟨h.forest.abstractBelow_pairwise fuel m, fun n => ?_, hreal⟩, hdeep⟩
  rw [h.forest.mem_abstractBelow_iff, h.forest.properly_below_iff]
  refine and_congr_right fun hn => exists_congr fun k => and_congr_right fun _ => ?_
  exact and_iff_right_of_imp (hdeep n k hn)

/-- Each abstract node properly below has a realization in the list, and no other one. -/
theorem Lists.existsUnique {marker : TypeId} {ns : List TypeId} (hl : r.Lists marker ids ns)
    (hn : n ∈ ns) : ∃! c, r.graph.Realizes c n := by
  obtain ⟨c, -, huniq⟩ := exists_of_mem_right hl.realized hn
  exact ⟨c, (huniq c).2 rfl, fun c' hc' => (huniq c').1 hc'⟩

/-- **A class is among the realizations** of the markers below that of another one, exactly when
this is one of its ancestors. -/
theorem InStep.mem_lists_iff (h : r.InStep) (hr : r.OK) (hd : r.classDef? id = some d)
    {ns : List TypeId} (hlist : r.Lists d.marker ids ns) {e : ClassDef β}
    (he : r.classDef? c = some e) :
    c ∈ ids ↔ ∃ as, r.superclasses c = .ok as ∧ id ∈ as := by
  obtain ⟨as, hc, hl⟩ := hr.chain he
  have hgoal : (∃ as, r.superclasses c = .ok as ∧ id ∈ as) ↔ id ∈ as := by
    simp [hc.superclasses hl]
  have hmarker : e.marker ∈ ns ↔ id ∈ as := by
    rw [hlist.mem_iff, ← h.marker_below_iff hr hd he hc hl]
    exact and_iff_right (h.isAbstract_marker hr he)
  rw [hgoal]
  by_cases hcid : c = rootId
  · -- the root class realizes nothing, and has no ancestors
    subst hcid
    rw [hc.unique .root]
    refine iff_of_false (fun hmem => ?_) List.not_mem_nil
    obtain ⟨n, -, hn⟩ := exists_of_mem_left hlist.realized hmem
    exact Graph.not_isConcrete h.isAbstract_root ((hn rootId).2 rfl).1
  · -- any other class realizes its marker, and nothing else does
    have hp := (h.placed he hcid).realizes
    rw [← hmarker]
    constructor
    · intro hmem
      obtain ⟨n, hn, huniq⟩ := exists_of_mem_left hlist.realized hmem
      have hs := ((huniq c).2 rfl).2
      rw [hp.2, Option.some.injEq] at hs
      exact hs ▸ hn
    · intro hm
      obtain ⟨c', hc', huniq⟩ := exists_of_mem_right hlist.realized hm
      rw [(huniq c).1 hp]
      exact hc'

/-! ## Registries of classes alone -/

/-- **Every node belongs to a class**: it is the root, the node of a class or the marker of one. -/
def OnlyClasses (r : Registry β) : Prop :=
  ∀ n < r.graph.size, n = rootId ∨
    ∃ c e, c ≠ rootId ∧ r.classDef? c = some e ∧ (n = c ∨ n = e.marker)

end Registry

/-- Does the request declare a type that is no class? -/
def Request.declares : Request β → Bool
  | .declare _ _ _ => true
  | _ => false

namespace Registry

/-- **Built of classes alone**: made out of a new registry without a declaration. -/
def BuiltOfClasses (r : Registry β) : Prop :=
  ∃ (s : Settings) (r₀ : Registry β) (qs : List (Request β)), Registry.new s = .ok r₀ ∧
    (∀ q ∈ qs, q.declares = false) ∧ r = r₀.afterAll qs

variable {r r' : Registry β} {id n m c : TypeId} {d : ClassDef β} {ids : List TypeId}
  {k : Nat} {b : Blueprint β}

theorem OnlyClasses.heritage (h : r.OnlyClasses) (id : TypeId) : (r.heritage id).2.OnlyClasses := by
  obtain ⟨hs, he, -⟩ := heritage_cases r id
  rw [he]
  exact h

theorem OnlyClasses.blueprint (h : r.OnlyClasses) (decl : ClassDecl β) :
    (r.blueprint decl).2.OnlyClasses := by
  rcases blueprint_snd (r := r) (d := decl) with he | ⟨id, he⟩
  · rwa [he]
  · rw [he]
    exact h.heritage id

/-- The two nodes that a definition adds belong to the class that it defines. -/
theorem OnlyClasses.enter (h : r.OnlyClasses) (hext : r.Ext (r.enter b)) :
    (r.enter b).OnlyClasses := by
  intro n hn
  have hnew : (r.enter b).classDef? (r.graph.size + 1) =
      some (b.toDef r.graph.size (r.graph.size + 1)) := Table.get?_insert_self
  rw [size_enter] at hn
  by_cases hlt : n < r.graph.size
  · refine (h n hlt).imp_right fun ⟨c, e, hc, he, hor⟩ => ⟨c, e, hc, hext.classDef? he, hor⟩
  · refine .inr ⟨_, _, Nat.succ_ne_zero _, hnew, ?_⟩
    rcases Nat.eq_or_lt_of_le (Nat.le_of_lt_succ hn) with e | hlt'
    · exact .inl e
    · exact .inr (Nat.le_antisymm (Nat.le_of_lt_succ hlt') (Nat.not_lt.1 hlt))

/-- A request that declares nothing adds no nodes but those of a class. -/
theorem after_onlyClasses (h : r.OnlyClasses) (hr : r.OK) {q : Request β}
    (hq : q.declares = false) : (r.after q).OnlyClasses := by
  cases q with
  | define decl =>
    rcases define_enter hr decl with hd | ⟨b, r₁, s, hb, hr₁, -, hn, hm, -, hne, hd⟩ <;>
      rw [after, hd]
    · exact h.blueprint decl
    · exact OnlyClasses.enter (hb ▸ h.blueprint decl) (ext_enter hr₁ hn hm hne)
  | blueprint decl => exact h.blueprint decl
  | declare n kind sup => cases hq
  | heritage id => exact h.heritage id

theorem afterAll_onlyClasses {qs : List (Request β)} (h : r.OnlyClasses) (hr : r.OK)
    (hqs : ∀ q ∈ qs, q.declares = false) : (r.afterAll qs).OnlyClasses := by
  induction qs generalizing r with
  | nil => exact h
  | cons q qs ih =>
    exact ih (after_onlyClasses h hr (hqs q List.mem_cons_self)) (after_ok hr q).1
      fun q' hq' => hqs q' (List.mem_cons_of_mem _ hq')

theorem BuiltOfClasses.onlyClasses (hb : r.BuiltOfClasses) : r.OnlyClasses := by
  obtain ⟨s, r₀, qs, hs, hqs, rfl⟩ := hb
  refine afterAll_onlyClasses ?_ (new_ok hs) hqs
  obtain ⟨-, rfl⟩ := new_eq hs
  exact fun n hn => .inl (Nat.lt_one_iff.1 hn)

/-- Where there are only classes, the concrete nodes are those of classes. -/
theorem OnlyClasses.classDef?_of_isConcrete (ho : r.OnlyClasses) (h : r.InStep)
    (hc : r.graph.isConcrete c = true) : c ≠ rootId ∧ ∃ e, r.classDef? c = some e := by
  have habs : ∀ {n}, r.graph.isAbstract n = true → n ≠ c := fun hn e =>
    Graph.not_isConcrete hn (e ▸ hc)
  refine ⟨(habs h.isAbstract_root).symm, ?_⟩
  rcases ho c (Graph.lt_size_of_isConcrete hc) with e | ⟨c', e, hc', he, rfl | hm⟩
  · exact absurd e.symm (habs h.isAbstract_root)
  · exact ⟨e, he⟩
  · exact absurd hm.symm (habs (h.placed he hc').isAbstract)

/-- And the abstract ones are the root and the markers. -/
theorem OnlyClasses.marker_of_isAbstract (ho : r.OnlyClasses) (h : r.InStep)
    (hn : r.graph.isAbstract n = true) :
    n = rootId ∨ ∃ c e, c ≠ rootId ∧ r.classDef? c = some e ∧ e.marker = n := by
  rcases ho n (Graph.lt_size_of_isAbstract hn) with e | ⟨c, e, hc, he, rfl | rfl⟩
  · exact .inl e
  · exact absurd (h.placed he hc).isConcrete (Graph.not_isConcrete hn)
  · exact .inr ⟨c, e, hc, he, rfl⟩

/-- **Where there are only classes** each marker has just one realization, and none is deeper down
than the limit allows. -/
theorem OnlyClasses.realized (ho : r.OnlyClasses) (h : r.InStep) (hr : r.OK)
    (hn : r.graph.isAbstract n = true) (hpos : 0 < k) (hup : r.graph.up k n = some m) :
    k ≤ r.settings.maxHierarchyDepth ∧ ∃! c, r.graph.Realizes c n := by
  obtain ⟨k, rfl⟩ : ∃ j, k = j + 1 := ⟨k - 1, by omega⟩
  rcases ho.marker_of_isAbstract h hn with rfl | ⟨c, e, hc, he, rfl⟩
  · -- nothing is above the root
    rw [Graph.up_succ, h.supertype_root] at hup
    cases hup
  constructor
  · -- the way up is as long as the chain of superclasses at most
    obtain ⟨ids, hchain, hl⟩ := hr.chain he
    rw [← superMarker_eq he, hchain.up_marker hr h] at hup
    obtain ⟨a, ha, -⟩ := Option.map_eq_some_iff.1 hup
    obtain ⟨hlt, -⟩ := List.getElem?_eq_some_iff.1 ha
    rw [List.length_cons] at hlt
    omega
  · refine ⟨c, (h.placed he hc).realizes, fun c' hc' => ?_⟩
    obtain ⟨hid, e', he'⟩ := ho.classDef?_of_isConcrete h hc'.1
    have hm := hc'.2
    rw [(h.placed he' hid).marker, Option.some.injEq] at hm
    exact h.marker_inj hr he' he hm

/-- What has superclasses is a class. -/
theorem OK.classDef?_of_superclasses (hr : r.OK) {as : List TypeId}
    (hc : r.superclasses c = .ok as) : ∃ e, r.classDef? c = some e := by
  by_cases hid : c = rootId
  · exact ⟨_, hid ▸ hr.root⟩
  · cases he : r.classDef? c with
    | some e => exact ⟨e, rfl⟩
    | none => simp [Registry.superclasses, superclass, hid, he] at hc

/-- **Subclasses are exact.** In every reachable registry the subclasses of a class can be listed
just when each abstract node properly below its marker has one realization and is within the limit;
then they are these realizations, in pre-order with siblings in the order of their creation, none is
listed twice, and the classes among them are those that have the class among their superclasses.
Where nothing was declared apart from classes, the proper descendants of the class are listed. -/
theorem Reachable.subclasses_exact (hr : r.Reachable) (hd : r.classDef? id = some d) :
    ((∃ ids, r.subclasses id = .ok ids) ↔
      ∀ n k, r.graph.isAbstract n = true → 0 < k → r.graph.up k n = some d.marker →
        k ≤ r.settings.maxHierarchyDepth ∧ ∃! c, r.graph.Realizes c n) ∧
    (∀ ids, r.subclasses id = .ok ids →
      (∃ ns, ns.Pairwise r.graph.Precedes ∧
        (∀ n, n ∈ ns ↔ r.graph.isAbstract n = true ∧ n ≠ d.marker ∧
          r.graph.isSubtype n d.marker = true) ∧
        List.Forall₂ r.graph.Realizes ids ns) ∧
      ids.Nodup ∧
      ∀ c e, r.classDef? c = some e → (c ∈ ids ↔ ∃ as, r.superclasses c = .ok as ∧ id ∈ as)) ∧
    (r.BuiltOfClasses → ∃ ids, r.subclasses id = .ok ids ∧
      ∀ c, c ∈ ids ↔ ∃ as, r.superclasses c = .ok as ∧ id ∈ as) := by
  have hok := hr.ok
  have h := hr.inStep
  rw [h.subclasses_eq hok hd]
  refine ⟨⟨?_, h.exists_classesBelow⟩, fun ids hids => ?_, fun hb => ?_⟩
  · rintro ⟨ids, hids⟩ n k hn hpos hup
    obtain ⟨hlist, hdeep⟩ := h.lists hids
    refine ⟨hdeep n k hn hup, hlist.existsUnique ((hlist.mem_iff n).2 ⟨hn, ?_⟩)⟩
    exact h.forest.properly_below_iff.2 ⟨k, hpos, hup⟩
  · obtain ⟨hlist, -⟩ := h.lists hids
    exact ⟨⟨_, hlist.ordered, hlist.mem_iff, hlist.realizes⟩,
      Graph.nodup_of_realizes hlist.realizes (h.forest.abstractBelow_nodup _ _),
      fun c e he => h.mem_lists_iff hok hd hlist he⟩
  · have ho := hb.onlyClasses
    obtain ⟨ids, hids⟩ := h.exists_classesBelow fun n k => ho.realized h hok
    obtain ⟨hlist, -⟩ := h.lists hids
    refine ⟨ids, hids, fun c => ⟨fun hc => ?_, fun ⟨as, has, hmem⟩ => ?_⟩⟩
    · -- what is listed is concrete, and so a class
      obtain ⟨n, -, hn⟩ := exists_of_mem_left hlist.realizes hc
      obtain ⟨-, e, he⟩ := ho.classDef?_of_isConcrete h hn.1
      exact (h.mem_lists_iff hok hd hlist he).1 hc
    · obtain ⟨e, he⟩ := hok.classDef?_of_superclasses has
      exact (h.mem_lists_iff hok hd hlist he).2 ⟨as, has, hmem⟩

theorem builtOfClasses_tower : tower.BuiltOfClasses := by
  refine ⟨.standard, _, _, rfl, fun q hq => ?_, rfl⟩
  simp only [List.mem_cons, List.not_mem_nil, or_false] at hq
  rcases hq with rfl | rfl | rfl <;> rfl

/-- Below `Animal` there are `Rex` for `Pet`, then `Dog` and `Puppy`. Only the last two are classes.
Where nothing was declared, the root class has all others for its subclasses. -/
theorem subclasses_exact_pound :
    (∃ ids, pound.subclasses 2 = .ok ids ∧ ids = [6, 5, 8] ∧ ids.Nodup ∧
      ∃ as, pound.superclasses 8 = .ok as ∧ 2 ∈ as) ∧
    ∃ ids, tower.subclasses 0 = .ok ids ∧
      ∀ c, c ∈ ids ↔ ∃ as, tower.superclasses c = .ok as ∧ 0 ∈ as := by
  have hanimal : (pound.classDef? 2).isSome := by decide +kernel
  have hpuppy : (pound.classDef? 8).isSome := by decide +kernel
  obtain ⟨d, hd⟩ := Option.isSome_iff_exists.1 hanimal
  obtain ⟨e, he⟩ := Option.isSome_iff_exists.1 hpuppy
  have hids : pound.subclasses 2 = .ok [6, 5, 8] := by decide +kernel
  obtain ⟨-, hall, -⟩ := reachable_pound.subclasses_exact hd
  obtain ⟨-, hnodup, hmem⟩ := hall _ hids
  have hroot : tower.classDef? 0 = some (.root "Class") := reachable_tower.ok.root
  exact ⟨⟨_, hids, rfl, hnodup, (hmem 8 e he).1 (by decide)⟩,
    (reachable_tower.subclasses_exact hroot).2.2 builtOfClasses_tower⟩

end Registry

end ClassGraph
