import ClassGraph.Proofs.Markers

/-!
# Requests that are refused

A definition draws up a blueprint first, and a blueprint is only a question: it asks the
superclass for what it passes on, and the answer is kept for the next one who asks. Nothing else
is written before all checks are done, so this answer is all that a refused definition can leave
behind. A blueprint that has been drawn up can be entered: the names it was checked against are
still free.

* `Registry.LeavesNoTrace`: nothing has changed but that the heritage of the superclass may now
  be kept.
* `Registry.blueprint_again`: a blueprint comes out the same when it is drawn up again.
* `Registry.Registers`: the registry has the class that a blueprint describes.
* `Registry.no_trace`: **what fails leaves no trace, and what was drawn up can be defined.**
-/

namespace ClassGraph

namespace Registry

variable {β : Type} {r r' : Registry β} {id : TypeId} {decl : ClassDecl β} {b : Blueprint β}

/-! ## What a question leaves behind -/

/-- **No trace of the declaration.** Settings, type graph, classes and markers are as before, and
so are the heritages, except that the one of the superclass may be kept now. It is then the answer
that asking for it in the first place would have given and kept. -/
structure LeavesNoTrace (r : Registry β) (decl : ClassDecl β) (r' : Registry β) : Prop where
  settings : r'.settings = r.settings
  graph : r'.graph = r.graph
  classes : r'.classes = r.classes
  markers : r'.markers = r.markers
  heritages : r'.heritages = r.heritages ∨
    ∃ sup h, r.resolveSuperclass decl = .ok sup ∧ r.heritages.get? sup.id = none ∧
      r.heritage sup.id = (.ok h, r') ∧ r'.heritages.kept = r.heritages.kept.insert sup.id h

theorem LeavesNoTrace.refl (r : Registry β) (decl : ClassDecl β) : r.LeavesNoTrace decl r :=
  ⟨rfl, rfl, rfl, rfl, .inl rfl⟩

/-- To ask the superclass of a declaration for its heritage leaves no trace of the declaration. -/
theorem leavesNoTrace_heritage {sup : ClassDef β} (hs : r.resolveSuperclass decl = .ok sup) :
    r.LeavesNoTrace decl (r.heritage sup.id).2 := by
  rcases heritage_snd r sup.id with h | ⟨h, fresh, hk, -, he⟩
  · rw [h]
    exact .refl r decl
  · rw [he]
    exact ⟨rfl, rfl, rfl, rfl, .inr ⟨sup, h, hs, hk, he, rfl⟩⟩

/-! ## Refusals -/

/-- **A blueprint leaves no trace**, whether it can be drawn up or not. -/
theorem leavesNoTrace_blueprint (r : Registry β) (decl : ClassDecl β) :
    r.LeavesNoTrace decl (r.blueprint decl).2 := by
  unfold blueprint
  split
  · exact .refl r decl
  next o ho =>
    have htrace := leavesNoTrace_heritage (outline_eq_ok_iff.1 ho).2.1
    split
    · next hh => rwa [hh] at htrace
    · next hh =>
      rw [hh] at htrace
      split <;> exact htrace

/-- A declaration of a type that is refused changes nothing. -/
theorem declare_error {n : Name} {kind : NodeKind} {sup : Option TypeId} {e : Error}
    (h : (r.declare n kind sup).1 = .error e) : (r.declare n kind sup).2 = r := by
  rcases declare_eq r n kind sup with ⟨e', hd⟩ | ⟨-, -, hd⟩
  · rw [hd]
  · rw [hd] at h
    cases h

/-! ## From the blueprint to the class -/

/-- Nothing that is checked before the heritage is asked for looks at the heritages that are kept. -/
theorem outline_heritages (r : Registry β) (hs : HeritageStore) (decl : ClassDecl β) :
    { r with heritages := hs }.outline decl = r.outline decl := by
  have hsup : ∀ cls, { r with heritages := hs }.superclasses cls = r.superclasses cls :=
    superclasses_congr rfl (fun _ => rfl) fun _ => rfl
  have hdepth : ∀ sup, { r with heritages := hs }.checkDepth decl sup = r.checkDepth decl sup := by
    intro sup
    simp only [checkDepth, hsup]
  simp only [outline, hdepth]
  rfl

/-- A blueprint that has been drawn up comes out the same the next time, and nothing changes. -/
theorem blueprint_again (h : r.blueprint decl = (.ok b, r')) :
    r'.blueprint decl = (.ok b, r') := by
  obtain ⟨o, hd, ho, hh, ha⟩ := blueprint_ok h
  have ho' : r'.outline decl = .ok o := by
    obtain ⟨hs, he, -⟩ := heritage_cases r o.superDef.id
    rw [hh] at he
    subst he
    rw [outline_heritages, ho]
  unfold blueprint
  rw [ho']
  simp only [heritage_of_get? (get?_of_heritage hh), ha]

/-- The names of a blueprint are free. -/
theorem lookup_of_blueprint (h : r.blueprint decl = (.ok b, r')) :
    r'.lookup b.name = none ∧ r'.lookup b.markerName = none := by
  obtain ⟨o, hd, ho, -, ha⟩ := blueprint_ok (blueprint_again h)
  obtain ⟨-, hname, hmarker, -⟩ := nameError?_eq_none_iff.1 (outline_ok ho).1
  obtain ⟨rfl, -⟩ := assemble_ok ha
  exact ⟨hname, hmarker⟩

/-- A declaration whose blueprint has been drawn up is accepted. -/
theorem define_of_blueprint (h : r.blueprint decl = (.ok b, r')) :
    r'.define decl = (.ok (r'.graph.size + 1), r'.enter b) := by
  obtain ⟨hname, hmarker⟩ := lookup_of_blueprint h
  unfold define
  rw [blueprint_again h]
  simp [commit, hname, hmarker]

/-- **The registry has the class that the blueprint describes** at the node `id`, as `d`. -/
structure Registers (r : Registry β) (b : Blueprint β) (id : TypeId) (d : ClassDef β) : Prop where
  classDef? : r.classDef? id = some d
  id_eq : d.id = id
  lookup : r.lookup b.name = some id
  marker : r.markers.get? d.marker = some id
  markerName : r.graph.name? d.marker = some b.markerName
  name : d.name = b.name
  superclass : d.superclass = some b.superclass
  isMutable : d.layout.isMutable = b.isMutable
  typeParams : d.layout.typeParams = b.typeParams
  fields : d.layout.fields = b.fields
  inherited : d.layout.inherited = b.inherited
  hasLocalFill : d.hasLocalFill = b.hasLocalFill
  constructors : d.constructors = b.constructors

/-- What is entered is the class that the blueprint describes. -/
theorem registers_enter (r : Registry β) (b : Blueprint β) :
    (r.enter b).Registers b (r.graph.size + 1) (b.toDef r.graph.size (r.graph.size + 1)) where
  classDef? := Table.get?_insert_self
  id_eq := rfl
  lookup := by simp [enter, Registry.lookup, Graph.lookup_add]
  marker := Table.get?_insert_self
  markerName := by
    have hne : ¬ r.graph.size = (r.markerGraph b).size := by
      rw [size_markerGraph]
      omega
    change (r.enter b).graph.name? r.graph.size = _
    rw [graph_enter, Graph.name?_add, if_neg hne, markerGraph, Graph.name?_add, if_pos rfl]
  name := rfl
  superclass := rfl
  isMutable := rfl
  typeParams := rfl
  fields := rfl
  inherited := rfl
  hasLocalFill := rfl
  constructors := rfl

/-- **What fails leaves no trace.** A blueprint, whatever comes of it, and a definition that is
refused change nothing but that the heritage of the superclass may be kept; a declaration that is
refused changes nothing at all. After a blueprint has been drawn up the definition is accepted,
enters just what the blueprint describes, and touches no other class. -/
theorem no_trace (r : Registry β) (decl : ClassDecl β) :
    r.LeavesNoTrace decl (r.blueprint decl).2 ∧
    (∀ e, (r.define decl).1 = .error e → r.LeavesNoTrace decl (r.define decl).2) ∧
    (∀ n kind sup e, (r.declare n kind sup).1 = .error e → (r.declare n kind sup).2 = r) ∧
    ∀ b r₁, r.blueprint decl = (.ok b, r₁) → ∃ id d r₂, r₁.define decl = (.ok id, r₂) ∧
      r₂.Registers b id d ∧ ∀ k, k ≠ id → r₂.classDef? k = r₁.classDef? k := by
  refine ⟨leavesNoTrace_blueprint r decl, fun e he => ?_, fun n kind sup e he => declare_error he,
    fun b r₁ hb => ?_⟩
  · rw [define_error he]
    exact leavesNoTrace_blueprint r decl
  · exact ⟨_, _, _, define_of_blueprint hb, registers_enter r₁ b,
      fun k hk => Table.get?_insert_of_ne hk.symm⟩

/-! ## A field that is there already -/

/-- A class of one field, whose type is a parameter. -/
def shelf : Registry Unit := (ofSettings .standard).after
  (.define ⟨"Shelf", none, [⟨"T", .any⟩], false, [.field ⟨"top", .param "T"⟩]⟩)

/-- A class below it that declares the field once more. -/
def topShelf : ClassDecl Unit :=
  ⟨"TopShelf", some "Shelf", [], false, [.field ⟨"top", .prim .int⟩]⟩

/-- The class is refused only after the heritage of its superclass has been worked out. That is
kept, with the parameter under a fresh name, and nothing else is left. -/
theorem no_trace_topShelf :
    (shelf.define topShelf).1 = .error (.definition "TopShelf" .duplicateField) ∧
    (shelf.define topShelf).2.graph = shelf.graph ∧
    (shelf.define topShelf).2.classDef? 2 = shelf.classDef? 2 ∧
    ∃ h, h.params = [⟨"T#1", .any⟩] ∧
      (shelf.define topShelf).2.heritages.kept = shelf.heritages.kept.insert 2 h := by
  have herr : (shelf.define topShelf).1 = .error (.definition "TopShelf" .duplicateField) := by
    decide +kernel
  obtain ⟨-, hdef, -⟩ := shelf.no_trace topShelf
  have htrace := hdef _ herr
  have hkept : (shelf.define topShelf).2.heritages ≠ shelf.heritages := by decide +kernel
  obtain ⟨sup, h, hsup, -, hh, hins⟩ := htrace.heritages.resolve_left hkept
  have hid : sup.id = 2 := by
    have : (shelf.resolveSuperclass topShelf).map (·.id) = .ok 2 := by decide +kernel
    rw [hsup] at this
    exact Except.ok.inj this
  have hparams : (shelf.heritage 2).1.map (·.params) = .ok [⟨"T#1", .any⟩] := by decide +kernel
  rw [hid] at hh hins
  rw [hh] at hparams
  refine ⟨herr, htrace.graph, ?_, h, Except.ok.inj hparams, hins⟩
  rw [classDef?, classDef?, htrace.classes]

end Registry

end ClassGraph
