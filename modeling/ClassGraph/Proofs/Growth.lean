import ClassGraph.Construct.Selection
import ClassGraph.Proofs.Instances
import ClassGraph.Proofs.KnownNames
import ClassGraph.Proofs.Refusal

/-!
# Growth is conservative

Requests only add: nodes below the nodes that there are, classes, heritages. Whatever can be asked
about the classes that there were is answered as before.

Matching does not see the growth at all. A new name may come to stand for a node, but this node is
above none of the old ones, so no old instance belongs to it. To compare two types is another
matter: a name that stands for nothing is below itself alone, and may come to stand below another
one. There the names have to be known beforehand, and in the types of classes they are.

* `Graph.Grows`: a forest that has grown; the ways up from the old nodes are the old ones.
* `Graph.Grows.matchValue_eq`: **matching is as before**, with any type and any bindings.
* `Graph.Grows.isSubtypeOf_eq`, `Graph.Grows.score_eq`: with known names, comparing is too.
* `Registry.after_persists`: **one request** leaves the old nodes and their classes alone.
* `Registry.Conserves`: what a registry keeps of another one.
* `Registry.Reachable.conserves`: **whatever is requested, all of it is kept.**
-/

namespace ClassGraph

variable {β : Type}

/-! ## A forest that grows -/

namespace Graph

/-- **A forest grows** to a forest: its nodes stay what they are. -/
structure Grows (g g' : Graph) : Prop extends g.Persists g' where
  forest : g.Forest
  forest' : g'.Forest

variable {g g' : Graph} {s : Substitution} {t u : Ty} {n : Name} {sub : TypeId}

theorem Forest.lt_size_of_lookup (h : g.Forest) {id : TypeId} (hn : g.lookup n = some id) :
    id < g.size := lt_size_of_name? (h.lookup_iff.1 hn)

/-- No name has been taken over to or from an old node. -/
theorem Grows.lookup_iff (h : g.Grows g') {id : TypeId} (hid : id < g.size) :
    g'.lookup n = some id ↔ g.lookup n = some id := by
  rw [h.forest'.lookup_iff, h.forest.lookup_iff, h.name? hid]

/-- The ways up from the old nodes are the old ones. -/
theorem Grows.up_eq (h : g.Grows g') (k : Nat) {id : TypeId} (hid : id < g.size) :
    g'.up k id = g.up k id := by
  induction k generalizing id with
  | zero => rfl
  | succ k ih =>
    rw [up_succ, up_succ, h.supertype hid]
    cases hs : g.supertype id with
    | none => rfl
    | some s => exact ih (Nat.lt_trans (h.forest.above hs).1 hid)

/-- What an old node is below, it is below as before. -/
theorem Grows.isSubtype_eq (h : g.Grows g') (hsub : sub < g.size) (sup : TypeId) :
    g'.isSubtype sub sup = g.isSubtype sub sup := by
  have hup : ∀ k, g'.up k sub = g.up k sub := fun k => h.up_eq k hsub
  rw [Bool.eq_iff_iff, h.forest'.isSubtype_iff, h.forest.isSubtype_iff]
  simp only [hup]

/-! ## Matching -/

/-- **An old instance belongs to no name that is new**: a node stands below older ones only. -/
theorem Grows.accepts_eq (h : g.Grows g') (n : Name) {v : Value} (hv : g.Names v) :
    g'.accepts n v = g.accepts n v := by
  cases v with
  | nothing | bool _ | int _ | float _ | str _ | list _ => rfl
  | object i =>
    have hi : i.cls < g.size := h.forest.lt_size_of_lookup (hv i .self)
    rw [Bool.eq_iff_iff]
    constructor
    · intro hacc
      obtain ⟨id, hid, hsub⟩ := (Option.any_eq_true _ _).1 hacc
      rw [h.isSubtype_eq hi] at hsub
      have hlt : id < g.size := Nat.lt_of_le_of_lt (h.forest.le_of_isSubtype hsub) hi
      exact (Option.any_eq_true _ _).2 ⟨id, (h.lookup_iff hlt).1 hid, hsub⟩
    · exact h.accepts

theorem Grows.matchResolved_eq (h : g.Grows g') {v : Value} (hv : g.Names v)
    {onItems onItems' : Ty → Except Substitution Substitution}
    (hitems : ∀ u, onItems' u = onItems u) :
    g'.matchResolved s v onItems' t = g.matchResolved s v onItems t := by
  cases t with
  | any | prim _ | param _ => rfl
  | named n => rw [matchResolved, matchResolved, h.accepts_eq n hv]
  | list u => exact hitems u

mutual

/-- **Matching is as before**, in the bindings that it leaves too. -/
theorem Grows.matchValue_eq (h : g.Grows g') {s : Substitution} {t : Ty} :
    ∀ v : Value, g.Names v → g'.matchValue s t v = g.matchValue s t v
  | .list items, hv => by
    rw [matchValue, matchValue]
    exact h.matchResolved_eq hv fun u => matchItems_eq h items fun v => hv.item
  | .nothing, hv | .bool _, hv | .int _, hv | .float _, hv | .str _, hv | .object _, hv => by
    rw [matchValue, matchValue]
    · exact h.matchResolved_eq hv fun u => rfl
    all_goals
      intro items hitems
      cases hitems

theorem Grows.matchItems_eq (h : g.Grows g') {s : Substitution} {t : Ty} :
    ∀ items : List Value, (∀ v ∈ items, g.Names v) →
      g'.matchItems s t items = g.matchItems s t items
  | [], _ => rfl
  | v :: vs, hv => by
    have hrest : ∀ s', g'.matchItems s' t vs = g.matchItems s' t vs := fun s' =>
      matchItems_eq h vs fun w hw => hv w (List.mem_cons_of_mem _ hw)
    rw [matchItems, matchItems, matchValue_eq h v (hv v List.mem_cons_self)]
    simp only [hrest]

end

theorem Grows.matchSlots_eq (h : g.Grows g') {slots : List (Field × Value)}
    (hv : ∀ x ∈ slots, g.Names x.2) : g'.matchSlots s slots = g.matchSlots s slots := by
  induction slots generalizing s with
  | nil => rfl
  | cons x slots ih =>
    obtain ⟨f, v⟩ := x
    have hrest : ∀ s', g'.matchSlots s' slots = g.matchSlots s' slots := fun s' =>
      ih fun y hy => hv y (List.mem_cons_of_mem _ hy)
    rw [matchSlots, matchSlots, h.matchValue_eq v (hv _ List.mem_cons_self)]
    simp only [hrest]

/-! ## Comparing types -/

theorem Grows.isNameBelow_eq (h : g.Grows g') {a b : Name} (ha : ∃ i, g.lookup a = some i)
    (hb : ∃ j, g.lookup b = some j) : g'.isNameBelow a b = g.isNameBelow a b := by
  obtain ⟨i, hi⟩ := ha
  obtain ⟨j, hj⟩ := hb
  have hlt := h.forest.lt_size_of_lookup hi
  simp only [isNameBelow, hi, hj, h.lookup hi, h.lookup hj, h.isSubtype_eq hlt]

/-- **Types whose names are known** compare as before. -/
theorem Grows.isSubtypeOf_eq (h : g.Grows g') (ht : g.Knows t) (hu : g.Knows u) :
    g'.isSubtypeOf t u = g.isSubtypeOf t u := by
  induction u generalizing t with
  | any | prim _ | param _ => cases t <;> rfl
  | named b =>
    cases t with
    | named a => exact h.isNameBelow_eq (ht a (by simp)) (hu b (by simp))
    | any | prim _ | param _ | list _ => rfl
  | list u ih =>
    cases t with
    | list t => exact ih ht hu
    | any | prim _ | named _ | param _ => rfl

/-- The first parameter beyond its bound is the same one. -/
theorem Grows.violated?_eq (h : g.Grows g') (hs : g.KnowsAll s) {ps : List TypeParam}
    (hps : ∀ p ∈ ps, g.Knows p.bound) : g'.violated? s ps = g.violated? s ps := by
  induction ps with
  | nil => rfl
  | cons p ps ih =>
    have hrest := ih fun q hq => hps q (List.mem_cons_of_mem _ hq)
    have hbound : g.Knows (p.bound.subst s) := hs.subst (hps p List.mem_cons_self)
    rw [violated?, violated?]
    cases hp : s.get? p.name with
    | none => simpa using hrest
    | some t =>
      simp only [hrest]
      rw [h.isSubtypeOf_eq (hs p.name t hp) hbound]

/-- A type whose names are known says as much as before. -/
theorem Grows.specificity_eq (h : g.Grows g') (ht : g.Knows t) :
    g'.specificity t = g.specificity t := by
  induction t with
  | named n =>
    obtain ⟨i, hi⟩ := ht n (by simp)
    have hlt := h.forest.lt_size_of_lookup hi
    simp only [specificity, hi, h.lookup hi, Option.any_some, h.isAbstract hlt]
  | list t ih => rw [specificity, specificity, ih ht]
  | any | prim _ | param _ => rfl

/-! ## Selecting -/

variable {ps : List TypeParam} {explicit : Option Substitution} {args : List Value}
  {c : Constructor β} {cs : List (Constructor β)}

/-- A constructor of known types is applicable as before. -/
theorem Grows.isApplicable_eq (h : g.Grows g') (hps : ∀ p ∈ ps, g.Knows p.bound)
    (he : g.KnowsAll (explicit.getD ∅)) (hargs : ∀ v ∈ args, g.Names v) :
    g'.isApplicable ps explicit args c = g.isApplicable ps explicit args c := by
  have hslots : ∀ x ∈ c.params.zip args, g.Names x.2 := fun x hx =>
    hargs x.2 (List.of_mem_zip hx).2
  have hmatch : g'.matchFields (explicit.getD ∅) c.params args =
      g.matchFields (explicit.getD ∅) c.params args := h.matchSlots_eq hslots
  rw [isApplicable, isApplicable, hmatch]
  cases hm : g.matchFields (explicit.getD ∅) c.params args with
  | error m => rfl
  | ok s => simp only [h.violated?_eq (he.matchSlots hslots hm) hps]

theorem Grows.score_eq (h : g.Grows g') (hc : ∀ f ∈ c.params, g.Knows f.ty) :
    g'.score c = g.score c := by
  have hfold : ∀ (fs : List Field) (n : Nat), (∀ f ∈ fs, g.Knows f.ty) →
      fs.foldl (· + g'.specificity ·.ty) n = fs.foldl (· + g.specificity ·.ty) n := by
    intro fs
    induction fs with
    | nil => intro n _; rfl
    | cons f fs ih =>
      intro n hfs
      rw [List.foldl_cons, List.foldl_cons, h.specificity_eq (hfs f List.mem_cons_self)]
      exact ih _ fun x hx => hfs x (List.mem_cons_of_mem _ hx)
  exact hfold c.params 0 hc

/-- **The candidates for a call are the same**, with the same scores. -/
theorem Grows.candidates_eq (h : g.Grows g') (hps : ∀ p ∈ ps, g.Knows p.bound)
    (hcs : ∀ c ∈ cs, ∀ f ∈ c.params, g.Knows f.ty) (he : g.KnowsAll (explicit.getD ∅))
    (hargs : ∀ v ∈ args, g.Names v) :
    g'.candidates ps explicit args cs = g.candidates ps explicit args cs := by
  refine List.filterMap_congr fun x hx => ?_
  obtain ⟨c, k⟩ := x
  have hc : c ∈ cs := List.mem_of_getElem? (List.mem_zipIdx_iff_getElem?.1 hx)
  simp only [h.isApplicable_eq hps he hargs, h.score_eq (hcs c hc)]

end Graph

/-! ## A registry that grows -/

namespace Registry

variable {r r' r'' : Registry β} {id : TypeId} {d : ClassDef β} {decl : ClassDecl β}

/-- **A registry persists**: at the nodes that there were nothing changes. -/
structure Persists (r r' : Registry β) : Prop where
  graph : r.graph.Persists r'.graph
  classDef?_eq : ∀ {id}, id < r.graph.size → r'.classDef? id = r.classDef? id

theorem Persists.refl (r : Registry β) : r.Persists r := ⟨.refl _, fun _ => rfl⟩

theorem Persists.trans (h : r.Persists r') (h' : r'.Persists r'') : r.Persists r'' where
  graph := h.graph.trans h'.graph
  classDef?_eq hid := by
    rw [h'.classDef?_eq (Nat.lt_of_lt_of_le hid h.graph.size_le), h.classDef?_eq hid]

theorem LeavesNoTrace.persists (h : r.LeavesNoTrace decl r') : r.Persists r' where
  graph := h.graph ▸ .refl _
  classDef?_eq _ := by rw [classDef?, classDef?, h.classes]

/-- A class is entered at new nodes. -/
theorem Persists.enter {b : Blueprint β} (hn : r.lookup b.name = none)
    (hm : r.lookup b.markerName = none) (hne : b.markerName ≠ b.name) : r.Persists (r.enter b) where
  graph := persists_enter hn hm hne
  classDef?_eq {id} hid := by
    have hnew : r.graph.size + 1 ≠ id := by omega
    exact Table.get?_insert_of_ne hnew

theorem Persists.define (hr : r.OK) (decl : ClassDecl β) : r.Persists (r.define decl).2 := by
  have hblueprint := (leavesNoTrace_blueprint r decl).persists
  rcases define_enter hr decl with hd | ⟨b, r₁, s, hb, -, -, hn, hm, -, hne, hd⟩ <;> rw [hd]
  · exact hblueprint
  · exact (hb ▸ hblueprint).trans (.enter hn hm hne)

/-- **One request** leaves the nodes that there are, and their classes, alone. -/
theorem after_persists (hr : r.OK) (q : Request β) : r.Persists (r.after q) := by
  cases q with
  | define decl => exact .define hr decl
  | blueprint decl => exact (leavesNoTrace_blueprint r decl).persists
  | declare n kind sup =>
    rcases declare_cases r n kind sup with h | ⟨hn, -, h⟩ <;> rw [after, h]
    · exact .refl r
    · exact ⟨Graph.persists_add hn kind sup, fun _ => rfl⟩
  | heritage id =>
    obtain ⟨hs, h, -⟩ := heritage_cases r id
    rw [after, h]
    exact ⟨.refl _, fun _ => rfl⟩

/-- So do all requests. -/
theorem Leads.persists (hl : r.Leads r') (hr : r.OK) : r.Persists r' := by
  induction hl with
  | refl => exact .refl r
  | step hl q ih => exact ih.trans (after_persists (hl.ok hr).1 q)

/-! ## What is asked of the nodes -/

theorem Persists.typeName_eq (h : r.Persists r') (hid : id < r.graph.size) :
    r'.typeName id = r.typeName id := by
  rw [typeName, typeName, h.graph.name? hid]

theorem Persists.superclass_eq (h : r.Persists r') (hid : id < r.graph.size) :
    r'.superclass id = r.superclass id := by
  rw [superclass, superclass, h.classDef?_eq hid, h.typeName_eq hid]

theorem Persists.markerOf_eq (h : r.Persists r') (hid : id < r.graph.size) :
    r'.markerOf id = r.markerOf id := by
  rw [markerOf, markerOf, h.graph.isAbstract hid, h.classDef?_eq hid, h.typeName_eq hid]

theorem Persists.instantiable_eq (h : r.Persists r') (hid : id < r.graph.size) :
    r'.instantiable id = r.instantiable id := by
  rw [instantiable, instantiable, h.graph.isAbstract hid, h.classDef?_eq hid, h.typeName_eq hid]

theorem superclasses_of_superclass_error {e : Error} (he : r.superclass id = .error e) :
    r.superclasses id = .error e := by
  rw [superclasses, he]

/-- The ancestors of a class are the same; what is no class has none, as before. -/
theorem Persists.superclasses_eq (h : r.Persists r') (hr : r.OK) (he : r.Ext r')
    (hid : id < r.graph.size) : r'.superclasses id = r.superclasses id := by
  cases hd : r.classDef? id with
  | some d =>
    obtain ⟨ids, hc, hl⟩ := hr.chain hd
    rw [hc.superclasses hl]
    exact (hc.ext he).superclasses (he.settings ▸ hl)
  | none =>
    have hroot : id ≠ rootId := by
      rintro rfl
      rw [hr.root] at hd
      cases hd
    have herr : r.superclass id = .error (.notAClass (r.typeName id)) := by
      rw [superclass, if_neg hroot, hd]
    rw [superclasses_of_superclass_error herr,
      superclasses_of_superclass_error ((h.superclass_eq hid).trans herr)]

/-! ## What is asked of values and calls -/

/-- **The value is made of instances of the registry**: each instance inside it has the layout that
the registry gives to its class. -/
def Owns (r : Registry β) (v : Value) : Prop :=
  ∀ i : Instance, i.Inside v → r.layout i.cls = .ok i.layout

theorem OK.names_of_owns (hr : r.OK) {v : Value} (hv : r.Owns v) : r.graph.Names v :=
  fun i hi => Instance.lookup_of_layout hr (hv i hi)

/-- The type arguments of a call name nodes of the registry only. -/
def KnowsArgs (r : Registry β) (typeArgs : Option (List Ty)) : Prop :=
  ∀ ts, typeArgs = some ts → ∀ t ∈ ts, r.graph.Knows t

theorem KnowsArgs.explicitBindings {typeArgs : Option (List Ty)} {explicit : Option Substitution}
    (ht : r.KnowsArgs typeArgs) (he : d.explicitBindings typeArgs = .ok explicit) :
    r.graph.KnowsAll (explicit.getD ∅) := by
  cases typeArgs with
  | none =>
    cases he
    exact .empty
  | some ts =>
    simp only [ClassDef.explicitBindings] at he
    split at he
    · cases he
    · cases he
      exact Graph.KnowsAll.empty.bindAll _ (ht ts rfl)

/-- **A class of known types selects as before**, or fails to for the same reason. -/
theorem selectIn_eq (hg : r.graph.Grows r'.graph) (hd : ∀ t ∈ d.types, r.graph.Knows t)
    {typeArgs : Option (List Ty)} (ht : r.KnowsArgs typeArgs) {args : List Value}
    (hargs : ∀ v ∈ args, r.graph.Names v) :
    r'.selectIn d typeArgs args = r.selectIn d typeArgs args := by
  have hbounds : ∀ p ∈ d.typeParams, r.graph.Knows p.bound := fun p hp =>
    hd _ (List.mem_append_left _ (List.mem_append_left _ (List.mem_map_of_mem hp)))
  have hctors : ∀ c ∈ d.constructors, ∀ f ∈ c.params, r.graph.Knows f.ty := fun c hc f hf =>
    hd _ (List.mem_append_right _ (List.mem_map_of_mem (List.mem_flatMap.2 ⟨c, hc, hf⟩)))
  rw [selectIn, selectIn]
  cases he : d.explicitBindings typeArgs with
  | error e => rfl
  | ok explicit =>
    have hknown := ht.explicitBindings he
    have hviolated : explicit.bind (r'.graph.violated? · d.typeParams) =
        explicit.bind (r.graph.violated? · d.typeParams) := by
      cases explicit with
      | none => rfl
      | some s => exact hg.violated?_eq hknown hbounds
    simp only [hviolated, hg.candidates_eq hbounds hctors hknown hargs]

/-! ## Everything together -/

/-- **What `r'` keeps of `r`**: the meaning of names, the classes with all that belongs to them, the
order of the nodes, and what becomes of matches and calls with values made of instances of `r`. -/
structure Conserves (r r' : Registry β) : Prop where
  lookup : ∀ {n id}, r.lookup n = some id → r'.lookup n = some id
  classDef? : ∀ {id d}, r.classDef? id = some d → id < r.graph.size ∧ r'.classDef? id = some d
  superclass : ∀ {id}, id < r.graph.size → r'.superclass id = r.superclass id
  superclasses : ∀ {id}, id < r.graph.size → r'.superclasses id = r.superclasses id
  markerOf : ∀ {id}, id < r.graph.size → r'.markerOf id = r.markerOf id
  descendsFrom : ∀ {cls}, cls < r.graph.size → ∀ ancestor,
    r'.descendsFrom cls ancestor = r.descendsFrom cls ancestor
  isSubtype : ∀ {sub}, sub < r.graph.size → ∀ sup,
    r'.graph.isSubtype sub sup = r.graph.isSubtype sub sup
  /-- Whether the match succeeds or fails, and whatever the type and the bindings. -/
  matchValue : ∀ {v}, r.Owns v → ∀ s t,
    r'.graph.matchValue s t v = r.graph.matchValue s t v
  /-- The class with the place of the constructor, or the error. -/
  select : ∀ {cls d typeArgs args}, r.classDef? cls = some d → r.KnowsArgs typeArgs →
    (∀ v ∈ args, r.Owns v) → r'.select cls typeArgs args = r.select cls typeArgs args

/-- **Growth is conservative**: whatever is requested of a reachable registry, all that it told about
its classes, its types and the values made of its instances it tells afterwards. -/
theorem Reachable.conserves (hr : r.Reachable) (hl : r.Leads r') : r.Conserves r' := by
  have hext : r.Ext r' := (hl.ok hr.ok).2
  have hp : r.Persists r' := hl.persists hr.ok
  have hg : r.graph.Grows r'.graph :=
    { hp.graph with forest := hr.inStep.forest, forest' := (hr.leads hl).inStep.forest }
  refine
    { lookup := hext.graph.lookup
      classDef? := fun hd => ⟨hr.ok.classDef?_lt hd, hext.classDef? hd⟩
      superclass := hp.superclass_eq
      superclasses := hp.superclasses_eq hr.ok hext
      markerOf := hp.markerOf_eq
      descendsFrom := ?_
      isSubtype := hg.isSubtype_eq
      matchValue := fun hv s t => hg.matchValue_eq _ (hr.ok.names_of_owns hv)
      select := ?_ }
  · intro cls hcls ancestor
    rw [Registry.descendsFrom, Registry.descendsFrom, hp.superclasses_eq hr.ok hext hcls]
  · intro cls d typeArgs args hd ht hargs
    have hnames : ∀ v ∈ args, r.graph.Names v := fun v hv => hr.ok.names_of_owns (hargs v hv)
    rw [Registry.select, Registry.select, hp.instantiable_eq (hr.ok.classDef?_lt hd)]
    cases hi : r.instantiable cls with
    | error e => rfl
    | ok c =>
      obtain ⟨hc, -⟩ := instantiable_ok hi
      simp only [selectIn_eq hg (hr.knows hc) ht hnames]

/-! ## A stable and a new kind of horse -/

/-- Horses, and stables for one kind of horse. -/
def stable : Registry Unit := (ofSettings .standard).afterAll [
  .define ⟨"Horse", none, [], false, []⟩,
  .define ⟨"Stable", none, [⟨"T", .named "AbstractHorse"⟩], false, [.field ⟨"guest", .param "T"⟩]⟩]

theorem reachable_stable : stable.Reachable := ⟨.standard, _, rfl, leads_afterAll _ _⟩

/-- The same with ponies. -/
def ponies : Registry Unit := stable.after (.define ⟨"Pony", some "Horse", [], false, []⟩)

/-- A horse. -/
def horse : Instance := ⟨⟨2, "Horse", false, [], [], 0⟩, [], []⟩

theorem owns_horse : stable.Owns (.object horse) := by
  intro i hi
  cases hi with
  | self => rfl
  | field hv _ => cases hv

/-- A stable for horses takes the horse in by its parametrized default constructor, whether there
are ponies or not. A stable for ponies is another matter: as long as there are none `Pony` is below
no bound, and the reason why the horse is not taken in changes. -/
theorem conserves_stable :
    (stable.select 4 (some [.named "Horse"]) [.object horse]).map (·.2) = .ok 1 ∧
    (ponies.select 4 (some [.named "Horse"]) [.object horse]).map (·.2) = .ok 1 ∧
    (stable.select 4 (some [.named "Pony"]) [.object horse]).map (·.2) =
      .error (.boundViolation "Stable" "T" (.named "Pony") (.named "AbstractHorse")) ∧
    (ponies.select 4 (some [.named "Pony"]) [.object horse]).map (·.2) =
      .error (.noMatchingConstructor "Stable" 1 true) := by
  have hkeeps : stable.Conserves ponies := reachable_stable.conserves (Leads.refl.step _)
  have hclass : (stable.classDef? 4).isSome = true := by decide +kernel
  obtain ⟨d, hd⟩ := Option.isSome_iff_exists.1 hclass
  have hargs : stable.KnowsArgs (some [.named "Horse"]) := by
    rintro ts ⟨⟩ t ht n hn
    rw [List.mem_singleton] at ht
    subst ht
    rw [Ty.names_named, List.mem_singleton] at hn
    exact ⟨2, hn ▸ by decide +kernel⟩
  have hsame := hkeeps.select hd hargs (List.forall_mem_singleton.2 owns_horse)
  have hsel : (stable.select 4 (some [.named "Horse"]) [.object horse]).map (·.2) = .ok 1 := by
    decide +kernel
  exact ⟨hsel, by rw [hsame, hsel], by decide +kernel, by decide +kernel⟩

end Registry

end ClassGraph
