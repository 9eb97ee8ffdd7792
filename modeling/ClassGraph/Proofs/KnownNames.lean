import ClassGraph.Proofs.Fitting
import ClassGraph.Proofs.Reachable

/-!
# Names that stand for a node

A declaration may name only what there is: the nodes of the type graph and the two nodes that the
class itself is going to have. So every name in a type of a class stands for a node, in the types
that the class takes over from its superclass too.

* `Ty.names`: the names of nodes that occur in a type; `Graph.Knows`: all of them are known.
* `Graph.KnowsAll`: the same of all types that are bound; matching keeps it.
* `Registry.Reachable.knows`: **a registry knows the types of its classes.**
-/

namespace ClassGraph

/-! ## Names in a type -/

namespace Ty

/-- The names of nodes that occur in a type. -/
def names : Ty → List Name
  | named n => [n]
  | list t => t.names
  | _ => []

@[simp] theorem names_any : names any = [] := rfl
@[simp] theorem names_prim (p : Prim) : names (prim p) = [] := rfl
@[simp] theorem names_named (n : Name) : names (named n) = [n] := rfl
@[simp] theorem names_param (n : Name) : names (param n) = [] := rfl
@[simp] theorem names_list (t : Ty) : names (list t) = t.names := rfl

/-- The names after a substitution come from the type or from what is bound. -/
theorem mem_names_subst {s : Substitution} {t : Ty} {n : Name} (hn : n ∈ (t.subst s).names) :
    n ∈ t.names ∨ ∃ m u, s.get? m = some u ∧ n ∈ u.names := by
  induction t with
  | param m =>
    rw [subst_param] at hn
    cases hm : s.get? m with
    | none => simp [hm] at hn
    | some u => exact .inr ⟨m, u, hm, by simpa [hm] using hn⟩
  | list t ih => exact ih hn
  | any | prim _ | named _ => exact .inl hn

/-- A type that raises no issue names only what is known. -/
theorem known_of_issue?_eq_none {known : Name → Bool} {ps : List Name} {t : Ty}
    (h : t.issue? known ps = none) : ∀ n ∈ t.names, known n = true := by
  induction t with
  | named n =>
    intro m hm
    rw [names_named, List.mem_singleton] at hm
    subst hm
    by_contra hn
    simp [issue?, hn] at h
  | list t ih => exact ih h
  | any | prim _ | param _ => simp

end Ty

/-! ## Names that a graph knows -/

namespace Graph

variable {g g' : Graph} {s s' : Substitution} {t : Ty} {v : Value}

/-- Every name in the type stands for a node. -/
def Knows (g : Graph) (t : Ty) : Prop := ∀ n ∈ t.names, ∃ id, g.lookup n = some id

/-- Every name in a type that is bound stands for a node. -/
def KnowsAll (g : Graph) (s : Substitution) : Prop := ∀ n t, s.get? n = some t → g.Knows t

/-- A graph that has grown knows what it knew before. -/
theorem Ext.knows (h : g.Ext g') (ht : g.Knows t) : g'.Knows t := by
  intro n hn
  obtain ⟨id, hid⟩ := ht n hn
  exact ⟨id, h.lookup hid⟩

theorem KnowsAll.empty : g.KnowsAll ∅ := fun n t h => by
  rw [Table.get?_empty] at h
  cases h

theorem KnowsAll.insert (hs : g.KnowsAll s) (n : Name) (ht : g.Knows t) :
    g.KnowsAll (s.insert n t) := by
  intro m u hu
  rw [Table.get?_insert] at hu
  split at hu
  · cases hu
    exact ht
  · exact hs m u hu

theorem KnowsAll.bindAll (hs : g.KnowsAll s) (ps : List TypeParam) {ts : List Ty}
    (hts : ∀ t ∈ ts, g.Knows t) : g.KnowsAll (s.bindAll ps ts) := by
  induction ps generalizing s ts with
  | nil => exact hs
  | cons p ps ih =>
    cases ts with
    | nil => exact hs
    | cons t ts =>
      rw [Substitution.bindAll_cons]
      exact ih (hs.insert p.name (hts t List.mem_cons_self)) fun u hu =>
        hts u (List.mem_cons_of_mem _ hu)

theorem KnowsAll.subst (hs : g.KnowsAll s) (ht : g.Knows t) : g.Knows (t.subst s) := fun n hn => by
  rcases Ty.mem_names_subst hn with hn | ⟨m, u, hu, hn⟩
  · exact ht n hn
  · exact hs m u hu n hn

/-- Only class names occur in the type of a value. -/
theorem knows_uniform {ts : List Ty} (h : ∀ t ∈ ts, g.Knows t) : g.Knows (Value.uniform ts) := by
  have hany : g.Knows (.list .any) := fun n hn => by cases hn
  cases ts with
  | nil => exact hany
  | cons t ts =>
    rw [Value.uniform]
    split
    · exact h t List.mem_cons_self
    · exact hany

mutual

/-- The type of a value names the classes of its instances. -/
theorem Names.knows_infer : ∀ v : Value, g.Names v → g.Knows v.infer
  | .nothing, _ | .bool _, _ | .int _, _ | .float _, _ | .str _, _ => fun n hn => by cases hn
  | .object i, h => fun n hn => by
    rw [Value.infer, Ty.names_named, List.mem_singleton] at hn
    exact ⟨i.cls, hn ▸ h i .self⟩
  | .list items, h => by
    rw [Value.infer]
    exact knows_uniform (knows_inferAll items fun v hv => h.item hv)

theorem Names.knows_inferAll : ∀ vs : List Value, (∀ v ∈ vs, g.Names v) →
    ∀ t ∈ Value.inferAll vs, g.Knows t
  | [], _ => fun t ht => by cases ht
  | v :: vs, h => by
    have hfirst := knows_infer v (h v List.mem_cons_self)
    have hrest := knows_inferAll vs fun w hw => h w (List.mem_cons_of_mem _ hw)
    exact List.forall_mem_cons.2 ⟨hfirst, hrest⟩

end

theorem knowsAll_of_verdict {b : Bool} (hs : g.KnowsAll s) (h : verdict b s = .ok s') :
    g.KnowsAll s' := by
  obtain ⟨-, rfl⟩ := verdict_eq_ok_iff.1 h
  exact hs

theorem KnowsAll.matchResolved (hs : g.KnowsAll s) (hv : g.Names v)
    {onItems : Ty → Except Substitution Substitution}
    (hitems : ∀ u, onItems u = .ok s' → g.KnowsAll s')
    (h : g.matchResolved s v onItems t = .ok s') : g.KnowsAll s' := by
  cases t with
  | any =>
    cases h
    exact hs
  | prim p => exact knowsAll_of_verdict hs h
  | named n => exact knowsAll_of_verdict hs h
  | list u => exact hitems u h
  | param n =>
    rw [Graph.matchResolved] at h
    split at h
    · cases h
    · cases h
      exact hs.insert n (hv.knows_infer v)

mutual

/-- **A match binds parameters to known types only.** -/
theorem KnowsAll.matchValue {s s' : Substitution} {t : Ty} (hs : g.KnowsAll s) :
    ∀ v : Value, g.Names v → g.matchValue s t v = .ok s' → g.KnowsAll s'
  | .list items, hv, h => by
    rw [Graph.matchValue] at h
    exact hs.matchResolved hv (fun u hu => matchItems hs items (fun v => hv.item) hu) h
  | .nothing, hv, h | .bool _, hv, h | .int _, hv, h | .float _, hv, h | .str _, hv, h
  | .object _, hv, h => by
    rw [Graph.matchValue] at h
    · exact hs.matchResolved hv (fun u hu => by cases hu) h
    · intro items hitems
      cases hitems

theorem KnowsAll.matchItems {s s' : Substitution} {t : Ty} (hs : g.KnowsAll s) :
    ∀ items : List Value, (∀ v ∈ items, g.Names v) → g.matchItems s t items = .ok s' →
      g.KnowsAll s'
  | [], _, h => by
    cases h
    exact hs
  | v :: vs, hv, h => by
    obtain ⟨s₁, hm, h⟩ := matchItems_cons_eq_ok_iff.1 h
    have hs₁ := matchValue hs v (hv v List.mem_cons_self) hm
    exact matchItems hs₁ vs (fun w hw => hv w (List.mem_cons_of_mem _ hw)) h

end

theorem KnowsAll.matchSlots (hs : g.KnowsAll s) {slots : List (Field × Value)}
    (hv : ∀ x ∈ slots, g.Names x.2) (h : g.matchSlots s slots = .ok s') : g.KnowsAll s' := by
  induction slots generalizing s with
  | nil =>
    cases h
    exact hs
  | cons x slots ih =>
    obtain ⟨f, v⟩ := x
    obtain ⟨s₁, hm, h⟩ := matchSlots_cons_eq_ok_iff.1 h
    exact ih (hs.matchValue v (hv _ List.mem_cons_self) hm)
      (fun y hy => hv y (List.mem_cons_of_mem _ hy)) h

end Graph

/-! ## Names in the types of a class -/

namespace Registry

variable {β : Type} {r r' : Registry β} {id : TypeId} {d : ClassDef β} {decl : ClassDecl β}
  {o : Outline β} {h : Heritage} {b : Blueprint β}

/-- What is joined to the heritage names only what is known. -/
theorem knows_of_assemble (hb : r.assemble decl o h = .ok b) :
    ∀ t ∈ declaredTypes decl o, ∀ n ∈ t.names, r.knows decl n = true := by
  obtain ⟨-, -, -, hissue⟩ := assemble_eq_ok_iff.1 hb
  exact fun t ht => Ty.known_of_issue?_eq_none (issue?_of_typeIssue? hissue t ht)

/-- What a declaration knew stands for a node once the class has been entered. -/
theorem lookup_enter_of_knows {n : Name} (hname : b.name = decl.name)
    (hmarker : b.markerName = r.markerName decl) (hn : r.knows decl n = true) :
    ∃ id, (r.enter b).lookup n = some id := by
  have hlookup : (r.enter b).lookup n = if b.name = n then some (r.graph.size + 1) else
      if b.markerName = n then some r.graph.size else r.lookup n := by
    simp [enter, Registry.lookup, Graph.lookup_add]
  rw [hlookup]
  split
  · exact ⟨_, rfl⟩
  next h1 =>
    split
    · exact ⟨_, rfl⟩
    next h2 =>
      -- neither of the two new names, so one that there was
      have h1' : ¬ n = decl.name := fun e => h1 (hname.trans e.symm)
      have h2' : ¬ n = r.markerName decl := fun e => h2 (hmarker.trans e.symm)
      exact Option.isSome_iff_exists.1 (by simpa [knows, h1', h2'] using hn)

/-- Once a class has been entered, the graph knows the types that have been declared with it. -/
theorem knows_enter (hb : r.assemble decl o h = .ok b) :
    ∀ t ∈ declaredTypes decl o, (r.enter b).graph.Knows t := by
  intro t ht n hn
  obtain ⟨hdraw, -⟩ := assemble_ok hb
  have hname : b.name = decl.name := congrArg (·.name) hdraw
  have hmarker : b.markerName = r.markerName decl := congrArg (·.markerName) hdraw
  exact lookup_enter_of_knows hname hmarker (knows_of_assemble hb t ht n hn)

/-- A registry knows the types that have been declared with a class: it has known them since the
class was entered. -/
theorem DefinedBy.knows (hdef : r.DefinedBy id decl) (hm : r.Made decl o h d) :
    ∀ t ∈ declaredTypes decl o, r.graph.Knows t := by
  obtain ⟨r₁, r₂, hr₁, hd, hl⟩ := hdef
  obtain ⟨hr₂, -⟩ := define_made hr₁.ok hd
  obtain ⟨b, r₁', hb, -, -, -, rfl⟩ := define_ok hd
  obtain ⟨o₁, h₁, ho, -, ha⟩ := blueprint_ok hb
  -- a declaration can be taken apart in one way
  obtain ⟨hfields, hctors⟩ := splitBody_ok (outline_ok ho).2.2.2
  have hsame : declaredTypes decl o = declaredTypes decl o₁ := by
    simp only [declaredTypes, hm.localFields, hm.userConstructors, hfields, hctors]
    rfl
  intro t ht
  exact (hl.ok hr₂).2.graph.knows (knows_enter ha t (hsame ▸ ht))

/-- The heritage of the superclass brings in no names. -/
theorem Made.names_subst (hm : r.Made decl o h d) (hr : r.OK) {t : Ty} {n : Name}
    (hn : n ∈ (t.subst h.substitution).names) : n ∈ t.names := by
  obtain ⟨g, rfl⟩ := hm.passOn hr
  rcases Ty.mem_names_subst hn with hn | ⟨m, u, hu, hn⟩
  · exact hn
  · -- parameters are bound to parameters
    rw [Layout.get?_passOn_substitution] at hu
    split at hu <;> cases hu
    cases hn

/-- **A registry knows the types of its classes**: by induction on the superclasses, a class adds
only types that name nodes. -/
theorem Reachable.knows (hr : r.Reachable) (hd : r.classDef? id = some d) :
    ∀ t ∈ d.types, r.graph.Knows t := by
  obtain ⟨ids, hc, -⟩ := hr.ok.chain hd
  induction hc generalizing d with
  | root =>
    rw [hr.ok.root, Option.some.injEq] at hd
    subst hd
    simp [ClassDef.types, Layout.types, ClassDef.root]
  | @step id sup _ ids hid hd' hs _ ih =>
    cases hd.symm.trans hd'
    obtain ⟨decl, hdef⟩ := hr.definedBy hd hid
    obtain ⟨-, d', o, h, hd', hm⟩ := hdef.made
    cases hd.symm.trans hd'
    obtain rfl : sup = o.superDef.id := Option.some.inj (hs.symm.trans hm.superclass)
    intro t ht
    rcases hm.types_cases hr.ok ht with ht | ⟨t₀, ht₀, rfl⟩ | rfl
    · exact hdef.knows hm t ht
    · exact fun n hn => ih hm.superDef t₀ ht₀ n (hm.names_subst hr.ok hn)
    · intro n hn
      rw [Ty.names_named, List.mem_singleton] at hn
      exact ⟨o.superDef.id, hn ▸ hr.ok.lookup hm.superDef⟩

end Registry

end ClassGraph
