import ClassGraph.Registry.Define
import ClassGraph.Proofs.Renaming

/-!
# What a definition does

Each operation that changes a registry, read backwards: what must have held if it succeeded, and
which parts of the registry it can have touched. Nothing below unfolds these operations again.

* `Registry.outline_eq_ok_iff`, `Registry.assemble_eq_ok_iff`: when a declaration can be taken apart,
  and joined with a heritage.
* `Registry.blueprint_ok`, `Registry.define_ok`: a blueprint, or a class, comes from an outline, a
  heritage and what they were joined to.
* `Registry.heritage_cases`: asking for a heritage keeps at most one more.
* `Registry.declare_eq`: a declaration adds one node under a free name, or nothing.
-/

namespace ClassGraph

variable {β : Type}

/-! ## Taking a declaration apart -/

/-- What can be appended has new names, each used once. -/
theorem extend_ok {α : Type} {name : α → Name} {issue : DefinitionIssue} {xs ys zs : List α}
    (h : extend name issue xs ys = .ok zs) :
    zs = xs ++ ys ∧ (ys.map name).Nodup ∧ ∀ y ∈ ys, name y ∉ xs.map name := by
  induction ys generalizing xs with
  | nil =>
    cases h
    simp
  | cons y ys ih =>
    unfold extend at h
    split at h
    · cases h
    · next hy =>
      -- for the rest of the list, `y` is one of the names that are there
      obtain ⟨h1, h2, h3⟩ := ih h
      have hy' : name y ∉ xs.map name := by simpa using hy
      have hnew : ∀ z ∈ ys, name z ∉ xs.map name ∧ name z ≠ name y := fun z hz => by
        simpa using h3 z hz
      refine ⟨by simp [h1], ?_, ?_⟩
      · rw [List.map_cons, List.nodup_cons]
        refine ⟨fun hm => ?_, h2⟩
        obtain ⟨z, hz, e⟩ := List.mem_map.1 hm
        exact (hnew z hz).2 e
      · intro z hz
        rcases List.mem_cons.1 hz with rfl | hz
        · exact hy'
        · exact (hnew z hz).1

/-- Entries can be appended just when their names are new, and used once. -/
theorem extend_eq_ok_iff {α : Type} {name : α → Name} {issue : DefinitionIssue}
    {xs ys zs : List α} : extend name issue xs ys = .ok zs ↔
      zs = xs ++ ys ∧ (ys.map name).Nodup ∧ ∀ y ∈ ys, name y ∉ xs.map name := by
  refine ⟨extend_ok, ?_⟩
  rintro ⟨rfl, hnodup, hnew⟩
  induction ys generalizing xs with
  | nil => simp [extend]
  | cons y ys ih =>
    rw [List.map_cons, List.nodup_cons] at hnodup
    obtain ⟨hy, hys⟩ := hnodup
    have hfree : xs.any (name · = name y) = false := by
      simpa using hnew y List.mem_cons_self
    -- the rest is appended to a list that has `y` at its end
    have hrest : ∀ z ∈ ys, name z ∉ (xs ++ [y]).map name := by
      intro z hz hmem
      rw [List.map_append, List.mem_append] at hmem
      rcases hmem with hmem | hmem
      · exact hnew z (List.mem_cons_of_mem _ hz) hmem
      · have hzy : name z = name y := by simpa using hmem
        exact hy (hzy ▸ List.mem_map_of_mem hz)
    have happend := ih hys hrest
    rw [List.append_assoc] at happend
    rw [extend, hfree]
    exact happend

/-- The field that a body entry declares. -/
def BodyEntry.field? : BodyEntry β → Option Field
  | field f => some f
  | _ => none

/-- The constructor that a body entry declares. -/
def BodyEntry.ctor? : BodyEntry β → Option (ConstructorDecl β)
  | ctor c => some c
  | _ => none

/-- The fields that a class declares, in order. -/
def ClassDecl.fields (d : ClassDecl β) : List Field := d.body.filterMap (·.field?)

/-- The constructors that are written for a class, in order. -/
def ClassDecl.ctors (d : ClassDecl β) : List (ConstructorDecl β) := d.body.filterMap (·.ctor?)

/-- A body that can be taken apart falls into its fields and its constructors. -/
theorem splitBody_ok {cls : Name} {body : List (BodyEntry β)} {fs : List Field}
    {cs : List (ConstructorDecl β)} (h : splitBody cls body = .ok (fs, cs)) :
    fs = body.filterMap (·.field?) ∧ cs = body.filterMap (·.ctor?) := by
  induction body generalizing fs cs with
  | nil =>
    cases h
    exact ⟨rfl, rfl⟩
  | cons e body ih =>
    cases e with
    | statement text => cases h
    | field f =>
      rw [splitBody] at h
      obtain ⟨parts, hb, he⟩ := map_eq_ok_iff.1 h
      obtain ⟨rfl, rfl⟩ := Prod.mk.inj he
      obtain ⟨hf, hc⟩ := ih hb
      exact ⟨by simp [BodyEntry.field?, hf], by simp [BodyEntry.ctor?, hc]⟩
    | ctor c =>
      unfold splitBody at h
      split at h
      · cases h
      split at h
      · cases h
      obtain ⟨parts, hb, he⟩ := map_eq_ok_iff.1 h
      obtain ⟨rfl, rfl⟩ := Prod.mk.inj he
      obtain ⟨hf, hc⟩ := ih hb
      exact ⟨by simp [BodyEntry.field?, hf], by simp [BodyEntry.ctor?, hc]⟩

/-- The role tells what a default constructor does. -/
theorem Constructor.kind_eq_default {c : Constructor β} (h : c.role = .default) :
    c.kind = .default := by
  cases hk : c.kind with
  | default => rfl
  | user _ | copyExtend | guide _ => simp [role, hk, ConstructorKind.role] at h

/-- The role tells what a constructor that copies does. -/
theorem Constructor.kind_eq_copyExtend {c : Constructor β} (h : c.role = .copyExtend) :
    c.kind = .copyExtend := by
  cases hk : c.kind with
  | copyExtend => rfl
  | user _ | default | guide _ => simp [role, hk, ConstructorKind.role] at h

/-- The guides lead to the constructors of the superclass that are no default ones. -/
theorem mem_guides {sup : ClassDef β} {s : Substitution} {c : Constructor β} :
    c ∈ guides sup s ↔ ∃ (index : Nat) (c₀ : Constructor β),
      sup.constructors[index]? = some c₀ ∧ c₀.isDefault = false ∧
      c = c₀.toGuide s index := by
  simp only [guides, List.mem_filterMap, Prod.exists, List.mem_zipIdx_iff_getElem?]
  constructor
  · rintro ⟨c₀, index, hi, hg⟩
    by_cases hd : c₀.isDefault = true
    · simp [hd] at hg
    · rw [if_neg hd, Option.some.injEq] at hg
      exact ⟨index, c₀, hi, by simpa using hd, hg.symm⟩
  · rintro ⟨index, c₀, hi, hd, rfl⟩
    exact ⟨c₀, index, hi, by simp [hd]⟩

/-- The default constructors take a value for every field. -/
theorem mem_defaultConstructors {params : List TypeParam} {fields : List Field} {c : Constructor β}
    (hc : c ∈ defaultConstructors params fields) : c.params = fields ∧ c.kind = .default := by
  unfold defaultConstructors at hc
  split at hc <;> simp only [List.mem_cons, List.not_mem_nil, or_false] at hc
  · subst hc
    exact ⟨rfl, rfl⟩
  · rcases hc with rfl | rfl <;> exact ⟨rfl, rfl⟩

/-- There is one constructor that copies at most. -/
theorem mem_copyExtendConstructors {superName : Name} {fields : List Field} {inherited : Nat}
    {c : Constructor β} (hc : c ∈ copyExtendConstructors superName fields inherited) :
    c = ⟨⟨superParam, .named superName⟩ :: fields.drop inherited, false, .copyExtend⟩ := by
  unfold copyExtendConstructors at hc
  split at hc
  · exact List.mem_singleton.1 hc
  · cases hc

/-- A type that raises no issue mentions only the given parameters. -/
theorem Ty.params_of_issue?_eq_none {known : Name → Bool} {ps : List Name} {t : Ty}
    (h : t.issue? known ps = none) : ∀ n ∈ t.params, n ∈ ps := by
  induction t with
  | param n =>
    intro m hm
    rw [Ty.params_param, List.mem_singleton] at hm
    subst hm
    by_contra hn
    simp [Ty.issue?, hn] at h
  | list t ih => exact ih h
  | any | prim _ | named _ => simp

namespace Registry

variable {r r' : Registry β} {d : ClassDecl β} {o : Outline β} {b : Blueprint β} {id : TypeId}

/-- What can have instances is a class, and not the root. -/
theorem instantiable_ok {c : ClassDef β} (h : r.instantiable id = .ok c) :
    r.classDef? id = some c ∧ c.id ≠ rootId := by
  unfold instantiable at h
  split at h
  · next c' hc =>
    cases h
    obtain ⟨hc, hne⟩ := Option.filter_eq_some_iff.1 hc
    exact ⟨hc, by simpa using hne⟩
  · split at h <;> cases h

/-- Nothing is wrong with the names just when they are identifiers, and the two of the class are
free. -/
theorem nameError?_eq_none_iff : r.nameError? d = none ↔
    isIdentifier d.name = true ∧ r.lookup d.name = none ∧
      r.lookup (r.markerName d) = none ∧
      ∀ p ∈ d.typeParams, isIdentifier p.name = true := by
  unfold nameError?
  constructor
  · intro hn
    split at hn
    · cases hn
    next hid =>
      split at hn
      · cases hn
      next hfree =>
        split at hn
        · cases hn
        next hmarker =>
          simp only [Option.map_eq_none_iff, List.find?_eq_none] at hn
          exact ⟨by simpa using hid, by simpa using hfree, by simpa using hmarker,
            fun p hp => by simpa using hn p hp⟩
  · rintro ⟨hid, hfree, hmarker, hparams⟩
    have hfind : d.typeParams.find? (!isIdentifier ·.name) = none := by
      rw [List.find?_eq_none]
      intro p hp
      simp [hparams p hp]
    simp [hid, hfree, hmarker, hfind]

/-- The superclass of a declaration is the class that it names, or else the root class. -/
theorem resolveSuperclass_ok {s : ClassDef β} (h : r.resolveSuperclass d = .ok s) :
    (d.superclass = none ∧ r.classDef? rootId = some s) ∨
      ∃ n id, d.superclass = some n ∧ r.lookup n = some id ∧ r.classDef? id = some s := by
  unfold resolveSuperclass at h
  split at h
  next hn =>
    cases hroot : r.classDef? rootId with
    | none => simp [hroot] at h
    | some root =>
      simp only [hroot, Except.ok.injEq] at h
      exact .inl ⟨hn, by rw [h]⟩
  next n hn =>
    cases hsup : (r.lookup n).bind r.classDef? with
    | none => simp [hsup] at h
    | some sup =>
      simp only [hsup, Except.ok.injEq] at h
      obtain ⟨id, hl, hid⟩ := Option.bind_eq_some_iff.1 hsup
      exact .inr ⟨n, id, hn, hl, by rw [hid, h]⟩

/-- **An outline can be drawn** just when the names, the superclass, the depth and the body are in
order. -/
theorem outline_eq_ok_iff : r.outline d = .ok o ↔
    r.nameError? d = none ∧ r.resolveSuperclass d = .ok o.superDef ∧
      r.checkDepth d o.superDef = .ok () ∧
      splitBody d.name d.body = .ok (o.localFields, o.userConstructors) := by
  constructor
  · intro h
    unfold outline at h
    cases hn : r.nameError? d with
    | some e => simp [hn] at h
    | none =>
    cases hs : r.resolveSuperclass d with
    | error e => simp [hn, hs] at h
    | ok s =>
    cases hd : r.checkDepth d s with
    | error e => simp [hn, hs, hd] at h
    | ok _ =>
    cases hb : splitBody d.name d.body with
    | error e => simp [hn, hs, hd, hb] at h
    | ok parts =>
    simp only [hn, hs, hd, hb, Except.ok.injEq] at h
    subst h
    exact ⟨rfl, rfl, hd, rfl⟩
  · rintro ⟨hn, hs, hd, hb⟩
    unfold outline
    simp only [hn, hs, hd, hb]

/-- What an outline tells about the declaration. -/
theorem outline_ok (h : r.outline d = .ok o) :
    r.nameError? d = none ∧ (∃ id, r.classDef? id = some o.superDef) ∧
      (∃ ids, r.superclasses o.superDef.id = .ok ids ∧
        ids.length + 1 ≤ r.settings.maxHierarchyDepth) ∧
      splitBody d.name d.body = .ok (o.localFields, o.userConstructors) := by
  obtain ⟨hn, hs, hd, hb⟩ := outline_eq_ok_iff.1 h
  have hclass : ∃ id, r.classDef? id = some o.superDef := by
    rcases resolveSuperclass_ok hs with ⟨-, hc⟩ | ⟨-, id, -, -, hc⟩
    · exact ⟨rootId, hc⟩
    · exact ⟨id, hc⟩
  refine ⟨hn, hclass, ?_, hb⟩
  -- the chain that the depth check has measured
  unfold checkDepth at hd
  split at hd
  · cases hd
  next ids hids =>
    split at hd
    · cases hd
    · exact ⟨ids, hids, by omega⟩

/-- A blueprint comes from an outline and the heritage of the superclass. -/
theorem blueprint_ok (h : r.blueprint d = (.ok b, r')) :
    ∃ o hd, r.outline d = .ok o ∧ r.heritage o.superDef.id = (.ok hd, r') ∧
      r'.assemble d o hd = .ok b := by
  unfold blueprint at h
  cases ho : r.outline d with
  | error e => simp [ho] at h
  | ok o =>
  rcases hh : r.heritage o.superDef.id with ⟨_ | hd, r₁⟩
  · simp [ho, hh] at h
  cases ha : r₁.assemble d o hd with
  | error e => simp [ho, hh, ha] at h
  | ok b₁ =>
  simp only [ho, hh, ha, Prod.mk.injEq, Except.ok.injEq] at h
  obtain ⟨rfl, rfl⟩ := h
  exact ⟨o, hd, rfl, hh, ha⟩

/-- Drawing up a blueprint asks for one heritage at most. -/
theorem blueprint_snd : (r.blueprint d).2 = r ∨ ∃ id, (r.blueprint d).2 = (r.heritage id).2 := by
  unfold blueprint
  split
  · exact .inl rfl
  next o _ =>
  refine .inr ⟨o.superDef.id, ?_⟩
  split
  · next hh => rw [hh]
  · next hh =>
    split <;> rw [hh]

/-- **An outline can be joined with a heritage** just when the declared names are new and used once,
and the types and constructors raise no issue. -/
theorem assemble_eq_ok_iff {h : Heritage} : r.assemble d o h = .ok b ↔
    b = r.draw d o h (h.params ++ d.typeParams) (h.fields ++ o.localFields) ∧
    ((d.typeParams.map (·.name)).Nodup ∧
      ∀ p ∈ d.typeParams, p.name ∉ h.params.map (·.name)) ∧
    ((o.localFields.map (·.name)).Nodup ∧
      ∀ f ∈ o.localFields, f.name ∉ h.fields.map (·.name)) ∧
    r.typeIssue? d o (h.params ++ d.typeParams) = none := by
  constructor
  · intro hb
    unfold assemble at hb
    cases hp : extendParams h.params d.typeParams with
    | error issue => simp [hp] at hb
    | ok ps =>
    cases hf : extendFields h.fields o.localFields with
    | error issue => simp [hp, hf] at hb
    | ok fs =>
    cases ht : r.typeIssue? d o ps with
    | some issue => simp [hp, hf, ht] at hb
    | none =>
    simp only [hp, hf, ht, Except.ok.injEq] at hb
    obtain ⟨rfl, hparams⟩ := extend_eq_ok_iff.1 hp
    obtain ⟨rfl, hfields⟩ := extend_eq_ok_iff.1 hf
    exact ⟨hb.symm, hparams, hfields, ht⟩
  · rintro ⟨rfl, hparams, hfields, ht⟩
    have hp : extendParams h.params d.typeParams = .ok (h.params ++ d.typeParams) :=
      extend_eq_ok_iff.2 ⟨rfl, hparams⟩
    have hf : extendFields h.fields o.localFields = .ok (h.fields ++ o.localFields) :=
      extend_eq_ok_iff.2 ⟨rfl, hfields⟩
    unfold assemble
    simp only [hp, hf, ht]

/-- Every declared type is looked through. -/
theorem issue?_of_typeIssue? {params : List TypeParam} (h : r.typeIssue? d o params = none) :
    ∀ t ∈ declaredTypes d o, t.issue? (r.knows d) (params.map (·.name)) = none := by
  unfold typeIssue? at h
  split at h
  · cases h
  next hissue => exact List.findSome?_eq_none_iff.1 hissue

/-- What is joined to the heritage: names are used once, and all types mention known parameters
only. -/
theorem assemble_ok {h : Heritage} (hb : r.assemble d o h = .ok b) :
    b = r.draw d o h (h.params ++ d.typeParams) (h.fields ++ o.localFields) ∧
      (d.typeParams.map (·.name)).Nodup ∧
      (o.localFields.map (·.name)).Nodup ∧
      (∀ f ∈ o.localFields, f.name ∉ h.fields.map (·.name)) ∧
      ∀ t ∈ declaredTypes d o, ∀ n ∈ t.params, n ∈ (h.params ++ d.typeParams).map (·.name) := by
  obtain ⟨hdraw, ⟨hnd, -⟩, ⟨hfd, hff⟩, ht⟩ := assemble_eq_ok_iff.1 hb
  exact ⟨hdraw, hnd, hfd, hff,
    fun t htm => Ty.params_of_issue?_eq_none (issue?_of_typeIssue? ht t htm)⟩

/-- A class that is defined was drawn up first, both its names were free, and it was entered. -/
theorem define_ok (h : r.define d = (.ok id, r')) :
    ∃ b r₁, r.blueprint d = (.ok b, r₁) ∧ r₁.lookup b.name = none ∧
      r₁.lookup b.markerName = none ∧ id = r₁.graph.size + 1 ∧ r' = r₁.enter b := by
  unfold define at h
  rcases hb : r.blueprint d with ⟨_ | b, r₁⟩
  · simp [hb] at h
  simp only [hb] at h
  unfold commit at h
  split at h
  · simp at h
  next hfree =>
    simp only [Prod.mk.injEq, Except.ok.injEq] at h
    obtain ⟨rfl, rfl⟩ := h
    simp only [List.find?_eq_none, List.mem_cons, List.not_mem_nil, or_false, forall_eq_or_imp,
      forall_eq, Option.not_isSome_iff_eq_none] at hfree
    exact ⟨b, r₁, rfl, hfree.1, hfree.2, rfl, rfl⟩

/-- A definition that is refused leaves what drawing up the blueprint left. -/
theorem define_error {e : Error} (h : (r.define d).1 = .error e) :
    (r.define d).2 = (r.blueprint d).2 := by
  unfold define at h ⊢
  rcases hb : r.blueprint d with ⟨_ | b, r₁⟩
  · rfl
  simp only [hb] at h ⊢
  unfold commit at h ⊢
  split
  · rfl
  · next hf =>
    rw [hf] at h
    cases h

/-- **What a definition leaves** is what drawing up the blueprint left, with the class entered if it
is accepted. -/
theorem define_cases (r : Registry β) (d : ClassDecl β) :
    (∃ e, r.define d = (.error e, (r.blueprint d).2)) ∨
    ∃ b r₁, r.blueprint d = (.ok b, r₁) ∧ r₁.lookup b.name = none ∧
      r₁.lookup b.markerName = none ∧ r.define d = (.ok (r₁.graph.size + 1), r₁.enter b) := by
  rcases hd : r.define d with ⟨e | id, r'⟩
  · have herr : (r.define d).2 = (r.blueprint d).2 := define_error (by rw [hd])
    rw [hd] at herr
    exact .inl ⟨e, by rw [← herr]⟩
  · obtain ⟨b, r₁, hb, hn, hm, rfl, rfl⟩ := define_ok hd
    exact .inr ⟨b, r₁, hb, hn, hm, rfl⟩

/-- A heritage that cannot be worked out uses up no number. -/
theorem computeHeritage_error {e : Error} {fresh fresh' : Fresh}
    (hc : r.computeHeritage id fresh = (.error e, fresh')) : fresh' = fresh := by
  unfold computeHeritage at hc
  split at hc
  · cases hc
  split at hc
  · cases hc
  split at hc <;> exact (congrArg Prod.snd hc).symm

/-- To ask for a heritage changes nothing, or it is answered and the answer is kept. -/
theorem heritage_snd (r : Registry β) (id : TypeId) :
    (r.heritage id).2 = r ∨ ∃ h fresh, r.heritages.get? id = none ∧
      r.computeHeritage id r.heritages.fresh = (.ok h, fresh) ∧
      r.heritage id =
        (.ok h, { r with heritages := ⟨r.heritages.kept.insert id h, fresh⟩ }) := by
  unfold heritage HeritageStore.getOrCompute
  cases hk : r.heritages.get? id with
  | some h => exact .inl rfl
  | none =>
    rcases hc : r.computeHeritage id r.heritages.fresh with ⟨e | h, fresh⟩
    · left
      rw [computeHeritage_error hc]
    · exact .inr ⟨h, fresh, rfl, rfl, rfl⟩

/-- Asking for a heritage changes nothing but what is kept, and there it adds the answer at most. -/
theorem heritage_cases (r : Registry β) (id : TypeId) :
    ∃ hs, (r.heritage id).2 = { r with heritages := hs } ∧
      (hs.kept = r.heritages.kept ∨
        ∃ h fresh, r.heritages.get? id = none ∧
          r.computeHeritage id r.heritages.fresh = (.ok h, fresh) ∧
          hs.kept = r.heritages.kept.insert id h) := by
  rcases heritage_snd r id with hr | ⟨h, fresh, hk, hc, hh⟩
  · exact ⟨r.heritages, hr, .inl rfl⟩
  · exact ⟨_, by rw [hh], .inr ⟨h, fresh, hk, hc, rfl⟩⟩

/-- A heritage that is kept is the answer, and nothing changes. -/
theorem heritage_of_get? {h : Heritage} (hk : r.heritages.get? id = some h) :
    r.heritage id = (.ok h, r) := by
  unfold heritage HeritageStore.getOrCompute
  rw [hk]

/-- After the question, the answer is kept. -/
theorem get?_of_heritage {h : Heritage} (hh : r.heritage id = (.ok h, r')) :
    r'.heritages.get? id = some h := by
  unfold heritage HeritageStore.getOrCompute at hh
  cases hk : r.heritages.get? id with
  | some h₁ =>
    simp only [hk, Prod.mk.injEq, Except.ok.injEq] at hh
    obtain ⟨rfl, rfl⟩ := hh
    exact hk
  | none =>
    rcases hc : r.computeHeritage id r.heritages.fresh with ⟨_ | h₁, fresh⟩
    · simp [hk, hc] at hh
    · simp only [hk, hc, Prod.mk.injEq, Except.ok.injEq] at hh
      obtain ⟨rfl, rfl⟩ := hh
      exact Table.get?_insert_self

/-- A declaration is refused and changes nothing, or it is granted and adds a node under a free
name, below an abstract node at most. -/
theorem declare_eq (r : Registry β) (n : Name) (kind : NodeKind) (sup : Option TypeId) :
    (∃ e, r.declare n kind sup = (.error e, r)) ∨
      (r.lookup n = none ∧ (∀ s, sup = some s → r.graph.isAbstract s = true) ∧
        r.declare n kind sup = (.ok r.graph.size, { r with graph := r.graph.add n kind sup })) := by
  unfold declare
  split
  · exact .inl ⟨_, rfl⟩
  split
  · exact .inl ⟨_, rfl⟩
  next hn =>
    split
    · exact .inl ⟨_, rfl⟩
    next hsup =>
      refine .inr ⟨by simpa using hn, fun s hs => ?_, rfl⟩
      rw [hs, Option.filter_eq_none_iff] at hsup
      simpa using hsup s rfl

/-- What a declaration makes of the registry. -/
theorem declare_cases (r : Registry β) (n : Name) (kind : NodeKind) (sup : Option TypeId) :
    (r.declare n kind sup).2 = r ∨
      (r.lookup n = none ∧ (∀ s, sup = some s → r.graph.isAbstract s = true) ∧
        (r.declare n kind sup).2 = { r with graph := r.graph.add n kind sup }) := by
  rcases declare_eq r n kind sup with ⟨e, h⟩ | ⟨hn, hs, h⟩
  · exact .inl (by rw [h])
  · exact .inr ⟨hn, hs, by rw [h]⟩

end Registry

end ClassGraph
