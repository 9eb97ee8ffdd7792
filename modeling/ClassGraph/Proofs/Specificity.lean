import ClassGraph.Construct.Run
import ClassGraph.Proofs.Choice
import ClassGraph.Proofs.Instances
import ClassGraph.Proofs.Markers
import Mathlib.Data.List.Forall2

/-!
# The most specific constructor

What a call selects, said without a look at how the constructors are gone through: of those that
are applicable, each one taken on its own, the first among the highest scores. A score grows as
the types of the parameters narrow.

* `Graph.Applicable`: the constructor accepts the arguments; `Graph.Best`: no applicable
  constructor has a higher score, and none before it the same.
* `World.Invokes`, `World.Fails`: what becomes of a call, before anything is run.
* `Graph.Forest.specificity_antitone`: **a narrower type is no less specific**, as nothing else is
  below a concrete node.
* `Registry.Reachable.most_specific`: **a call invokes the best of the applicable constructors**,
  and fails if there are none.
-/

namespace ClassGraph

variable {β : Type}

/-! ## Applicable constructors -/

/-- The type arguments of a call bound to the parameters of the class; nothing if it has none. -/
def ClassDef.givenBindings (d : ClassDef β) (typeArgs : Option (List Ty)) : Substitution :=
  (typeArgs.map (.ofArgs d.typeParams)).getD ∅

namespace Graph

variable {g : Graph} {d : ClassDef β} {typeArgs : Option (List Ty)} {args : List Value}
  {c c' : Constructor β} {k k' : Nat}

/-- Each parameter that stands for a type keeps within its bound. -/
def WithinBounds (g : Graph) (s : Substitution) (params : List TypeParam) : Prop :=
  ∀ p ∈ params, ∀ t, s.get? p.name = some t → g.isSubtypeOf t (p.bound.subst s) = true

/-- The type arguments of a call are in order: one for each parameter and within the bounds. -/
def Admits (g : Graph) (d : ClassDef β) (typeArgs : Option (List Ty)) : Prop :=
  ∀ ts, typeArgs = some ts →
    ts.length = d.typeParams.length ∧ g.WithinBounds (.ofArgs d.typeParams ts) d.typeParams

/-- **The constructor is applicable**: it takes type arguments just when some are given, it has a
parameter for each argument, and from the type arguments on, the arguments match with bindings
within all bounds. -/
structure Applicable (g : Graph) (d : ClassDef β) (typeArgs : Option (List Ty))
    (args : List Value) (c : Constructor β) : Prop where
  parametrized : c.parametrized = typeArgs.isSome
  arity : c.arity = args.length
  fits : ∃ s, g.matchFields (d.givenBindings typeArgs) c.params args = .ok s ∧
    g.WithinBounds s d.typeParams

/-- **The constructor `c` at place `k` is the best** of the applicable ones: none has a higher
score, and none before it the same. -/
structure Best (g : Graph) (d : ClassDef β) (typeArgs : Option (List Ty)) (args : List Value)
    (k : Nat) (c : Constructor β) : Prop where
  at_place : d.constructors[k]? = some c
  applicable : g.Applicable d typeArgs args c
  best : ∀ j x, d.constructors[j]? = some x → g.Applicable d typeArgs args x →
    g.score x < g.score c ∨ (g.score x = g.score c ∧ k ≤ j)

/-- There is one best constructor at most. -/
theorem Best.place_unique (h : g.Best d typeArgs args k c) (h' : g.Best d typeArgs args k' c') :
    k = k' := by
  have hle := h.best k' c' h'.at_place h'.applicable
  have hge := h'.best k c h.at_place h.applicable
  omega

/-- Admitted type arguments are bound, and no bound is violated. -/
theorem Admits.explicitBindings (h : g.Admits d typeArgs) :
    d.explicitBindings typeArgs = .ok (typeArgs.map (.ofArgs d.typeParams)) ∧
      (typeArgs.map (.ofArgs d.typeParams)).bind (g.violated? · d.typeParams) = none := by
  cases typeArgs with
  | none => exact ⟨rfl, rfl⟩
  | some ts =>
    obtain ⟨hl, hb⟩ := h ts rfl
    exact ⟨by simp [ClassDef.explicitBindings, hl], violated?_eq_none_iff.2 hb⟩

/-- The check of a constructor says whether it is applicable. -/
theorem isApplicable_iff :
    g.isApplicable d.typeParams (typeArgs.map (.ofArgs d.typeParams)) args c = true ↔
      g.Applicable d typeArgs args c := by
  unfold isApplicable
  rw [Bool.and_eq_true, Bool.and_eq_true, decide_eq_true_eq, decide_eq_true_eq, Option.isSome_map]
  constructor
  · rintro ⟨⟨hp, ha⟩, hm⟩
    refine ⟨hp, ha, ?_⟩
    split at hm
    · next s hs => exact ⟨s, hs, violated?_eq_none_iff.1 (Option.isNone_iff_eq_none.1 hm)⟩
    · cases hm
  · rintro ⟨hp, ha, s, hs, hb⟩
    unfold ClassDef.givenBindings at hs
    refine ⟨⟨hp, ha⟩, ?_⟩
    rw [hs]
    exact Option.isNone_iff_eq_none.2 (violated?_eq_none_iff.2 hb)

/-- What is preferred is the best. -/
theorem Prefers.best_at {before after : List (Constructor β)}
    (h : g.Prefers d.typeParams (typeArgs.map (.ofArgs d.typeParams)) args before c after)
    (hcs : d.constructors = before ++ c :: after) :
    g.Best d typeArgs args before.length c where
  at_place := by rw [hcs, List.getElem?_append_right (Nat.le_refl _), Nat.sub_self]; rfl
  applicable := isApplicable_iff.1 h.applicable
  best j x hj hx := by
    have happ := isApplicable_iff.2 hx
    have hmem : x ∈ before ++ c :: after := hcs ▸ List.mem_of_getElem? hj
    rcases Nat.lt_or_ge j before.length with hlt | hge
    · rw [hcs, List.getElem?_append_left hlt] at hj
      exact .inl (h.before x (List.mem_of_getElem? hj) happ)
    · rcases Nat.lt_or_eq_of_le (h.score_le x hmem happ) with hlt | heq
      · exact .inl hlt
      · exact .inr ⟨heq, hge⟩

end Graph

/-! ## What becomes of a call -/

namespace World

/-- **The call invokes** the constructor at that place of the class, and what comes of it comes of
the call. -/
def Invokes (w : World) (cls : TypeId) (typeArgs : Option (List Ty)) (args : List Value)
    (d : ClassDef Body) (k : Nat) : Prop :=
  ∀ invoke, dispatch invoke cls typeArgs args w = invoke d k typeArgs args w

/-- **The call fails**, and no constructor is invoked. -/
def Fails (w : World) (cls : TypeId) (typeArgs : Option (List Ty)) (args : List Value)
    (e : Error) : Prop :=
  ∀ invoke, dispatch invoke cls typeArgs args w = some (.error e, w)

variable {w : World} {cls : TypeId} {typeArgs : Option (List Ty)} {args : List Value}
  {d : ClassDef Body} {k : Nat} {e : Error}

theorem fails_iff :
    w.Fails cls typeArgs args e ↔ w.registry.select cls typeArgs args = .error e := by
  constructor
  · intro h
    -- an invocation without an outcome is not what the call comes to
    have hnone := h fun _ _ _ _ _ => none
    unfold dispatch at hnone
    cases hs : w.registry.select cls typeArgs args with
    | error e' =>
      rw [hs] at hnone
      cases hnone
      rfl
    | ok dk =>
      rw [hs] at hnone
      cases hnone
  · intro h invoke
    rw [dispatch, h]

theorem invokes_iff (hd : w.registry.instantiable cls = .ok d) :
    w.Invokes cls typeArgs args d k ↔ w.registry.select cls typeArgs args = .ok (d, k) := by
  constructor
  · intro h
    have hnone := h fun _ _ _ _ _ => none
    -- an invocation that tells the place
    have hplace := h fun _ k _ _ w => some (.error (.constructorDepthExceeded k), w)
    unfold dispatch at hnone hplace
    cases hs : w.registry.select cls typeArgs args with
    | error e =>
      rw [hs] at hnone
      cases hnone
    | ok dk =>
      obtain ⟨d', k'⟩ := dk
      have hd' := Registry.instantiable_of_select hs
      rw [hd, Except.ok.injEq] at hd'
      rw [hs] at hplace
      cases hplace
      rw [hd']
  · intro h invoke
    rw [dispatch, h]

end World

namespace Registry

variable {r : Registry β} {cls : TypeId} {d : ClassDef β} {typeArgs : Option (List Ty)}
  {args : List Value} {c : Constructor β} {k : Nat}

theorem select_eq_error_iff_of_instantiable {e : Error} (hd : r.instantiable cls = .ok d) :
    r.select cls typeArgs args = .error e ↔ r.selectIn d typeArgs args = .error e := by
  rw [select_of_instantiable hd]
  cases r.selectIn d typeArgs args <;> simp [Except.map]

/-- With type arguments in order, a selection comes to the best constructor, or there is none that
is applicable. -/
theorem selectIn_cases (h : r.graph.Admits d typeArgs) (args : List Value) :
    (∃ k c, r.graph.Best d typeArgs args k c ∧ r.selectIn d typeArgs args = .ok k) ∨
      ((∀ c ∈ d.constructors, ¬ r.graph.Applicable d typeArgs args c) ∧
        r.selectIn d typeArgs args =
          .error (.noMatchingConstructor d.name args.length typeArgs.isSome)) := by
  obtain ⟨he, hv⟩ := h.explicitBindings
  unfold selectIn
  rw [he]
  simp only [hv]
  cases hb : best? (r.graph.candidates d.typeParams (typeArgs.map (.ofArgs d.typeParams)) args
      d.constructors) with
  | none =>
    have hnil := eq_nil_of_best?_eq_none hb
    have hnone := Graph.not_applicable_of_candidatesFrom_eq_nil (n := 0) hnil
    exact .inr ⟨fun c hc happ => hnone c hc (Graph.isApplicable_iff.2 happ), rfl⟩
  | some best =>
    obtain ⟨k, score⟩ := best
    obtain ⟨before, c, after, hcs, rfl, -, hp⟩ := Graph.prefers_of_best? (n := 0) hb
    rw [Nat.zero_add]
    exact .inl ⟨_, c, hp.best_at hcs, rfl⟩

/-- With type arguments in order, the best constructor is selected. -/
theorem selectIn_eq_ok_iff (h : r.graph.Admits d typeArgs) :
    r.selectIn d typeArgs args = .ok k ↔ ∃ c, r.graph.Best d typeArgs args k c := by
  rcases selectIn_cases h args with ⟨k', c', hbest, hk'⟩ | ⟨hnone, hk'⟩
  · rw [hk', Except.ok.injEq]
    constructor
    · rintro rfl
      exact ⟨c', hbest⟩
    · rintro ⟨c, hc⟩
      exact hbest.place_unique hc
  · rw [hk']
    constructor
    · rintro ⟨⟩
    · rintro ⟨c, hc⟩
      exact absurd hc.applicable (hnone c (List.mem_of_getElem? hc.at_place))

/-- Where something is selected, the type arguments are in order. -/
theorem admits_of_selectIn (h : r.selectIn d typeArgs args = .ok k) :
    r.graph.Admits d typeArgs := by
  intro ts hts
  subst hts
  unfold selectIn ClassDef.explicitBindings at h
  by_cases hlen : ts.length = d.typeParams.length
  · refine ⟨hlen, Graph.violated?_eq_none_iff.1 ?_⟩
    by_contra hsome
    obtain ⟨x, hx⟩ := Option.ne_none_iff_exists'.1 hsome
    simp [hlen, hx] at h
  · simp [hlen] at h

/-- **What is selected** is the best constructor of a class that can have instances, and the type
arguments are in order. -/
theorem best_of_select (h : r.select cls typeArgs args = .ok (d, k)) :
    r.instantiable cls = .ok d ∧ r.graph.Admits d typeArgs ∧
      ∃ c, r.graph.Best d typeArgs args k c := by
  have hd := instantiable_of_select h
  have hk := (select_eq_ok_iff_of_instantiable hd).1 h
  have hadm := admits_of_selectIn hk
  exact ⟨hd, hadm, (selectIn_eq_ok_iff hadm).1 hk⟩

/-- What can be told of the constructor that is selected, if there is one. -/
theorem exists_select {α : Type} {f : Constructor β → Option α} {a : α}
    (h : ((r.select cls typeArgs args).toOption.bind fun x =>
      x.1.constructors[x.2]?.bind f) = some a) :
    ∃ d k c, r.select cls typeArgs args = .ok (d, k) ∧ d.constructors[k]? = some c ∧
      f c = some a := by
  obtain ⟨⟨d, k⟩, hsel, h⟩ := Option.bind_eq_some_iff.1 h
  obtain ⟨c, hc, hf⟩ := Option.bind_eq_some_iff.1 h
  refine ⟨d, k, c, ?_, hc, hf⟩
  cases hs : r.select cls typeArgs args with
  | error e => simp [hs, Except.toOption] at hsel
  | ok x =>
    rw [hs] at hsel
    exact congrArg Except.ok (Option.some.inj hsel)

/-- With type arguments in order, nothing is selected just when nothing is applicable. -/
theorem selectIn_eq_noMatching_iff (h : r.graph.Admits d typeArgs) :
    r.selectIn d typeArgs args =
        .error (.noMatchingConstructor d.name args.length typeArgs.isSome) ↔
      ∀ c ∈ d.constructors, ¬ r.graph.Applicable d typeArgs args c := by
  rcases selectIn_cases h args with ⟨k, c, hbest, hk⟩ | ⟨hnone, hk⟩
  · rw [hk]
    constructor
    · rintro ⟨⟩
    · intro hnone
      exact absurd hbest.applicable (hnone c (List.mem_of_getElem? hbest.at_place))
  · exact ⟨fun _ => hnone, fun _ => hk⟩

/-- **Each constructor is tried on its own**: what is applicable among others is what would be
selected if there were no others. -/
theorem applicable_iff_selectIn_alone (h : r.graph.Admits d typeArgs) :
    r.graph.Applicable d typeArgs args c ↔
      r.selectIn { d with constructors := [c] } typeArgs args = .ok 0 := by
  have halone : r.graph.Admits { d with constructors := [c] } typeArgs := h
  rw [selectIn_eq_ok_iff halone]
  constructor
  · intro hc
    refine ⟨c, rfl, ⟨hc.parametrized, hc.arity, hc.fits⟩, fun j x hj _ => .inr ?_⟩
    obtain rfl : x = c := List.mem_singleton.1 (List.mem_of_getElem? hj)
    exact ⟨rfl, Nat.zero_le _⟩
  · rintro ⟨c', hplace, hc', -⟩
    obtain rfl : c = c' := Option.some.inj hplace
    exact ⟨hc'.parametrized, hc'.arity, hc'.fits⟩

end Registry

/-! ## Specificity -/

/-- Nothing but itself is above the abstract primitive type. -/
theorem Prim.isAbstract_of_isSubtype {p q : Prim} (h : p.isSubtype q = true)
    (hp : p.isAbstract = true) : q.isAbstract = true := by
  obtain rfl : p = .number := of_decide_eq_true hp
  cases q <;> first | rfl | cases h

namespace Graph

variable {g : Graph} {s t : Ty} {a b : Name}

/-- Of two names, one below the other, the lower one stands for an abstract node only if the upper
one does. -/
theorem Forest.isAbstract_of_isNameBelow (h : g.Forest) (hab : g.isNameBelow a b = true)
    (ha : (g.lookup a).any g.isAbstract = true) : (g.lookup b).any g.isAbstract = true := by
  rcases isNameBelow_iff.1 hab with rfl | ⟨i, j, hi, hj, hij⟩
  · exact ha
  rw [hi, Option.any_some] at ha
  rw [hj, Option.any_some]
  rcases isAbstract_or_isConcrete (lt_size_of_name? (h.lookup_iff.1 hj)) with hj' | hj'
  · exact hj'
  · -- nothing else is below a concrete node
    rw [← (h.isSubtype_of_isConcrete hj').1 hij]
    exact ha

/-- What is abstract has the lower rank. -/
theorem rank_le {lower upper : Bool} (h : lower = true → upper = true) :
    (if upper then 2 else 3) ≤ if lower then 2 else 3 := by
  cases lower with
  | false => split <;> decide
  | true => simp [h rfl]

/-- **A narrower type is no less specific.** -/
theorem Forest.specificity_antitone (h : g.Forest) (hst : g.isSubtypeOf s t = true) :
    g.specificity t ≤ g.specificity s := by
  induction t generalizing s with
  | any => exact Nat.zero_le _
  | prim q =>
    cases s with
    | prim p => exact rank_le (Prim.isAbstract_of_isSubtype hst)
    | any | named _ | param _ | list _ => cases hst
  | named b =>
    cases s with
    | named a => exact rank_le (h.isAbstract_of_isNameBelow hst)
    | any | prim _ | param _ | list _ => cases hst
  | param n =>
    simp only [isSubtypeOf, decide_eq_true_eq] at hst
    subst hst
    exact Nat.le_refl _
  | list u ih =>
    cases s with
    | list t => exact Nat.add_le_add_left (ih hst) 1
    | any | prim _ | named _ | param _ => cases hst

/-- Parameter by parameter, the types of `a` are subtypes of those of `b`. -/
def Narrower (g : Graph) (a b : Constructor β) : Prop :=
  List.Forall₂ (fun p q => g.isSubtypeOf p.ty q.ty = true) a.params b.params

/-- The sums keep the order of what is summed up. -/
theorem Forest.foldl_specificity_le (h : g.Forest) {ps qs : List Field}
    (hpq : List.Forall₂ (fun p q => g.isSubtypeOf p.ty q.ty = true) ps qs) {m n : Nat}
    (hmn : m ≤ n) :
    qs.foldl (· + g.specificity ·.ty) m ≤ ps.foldl (· + g.specificity ·.ty) n := by
  induction hpq generalizing m n with
  | nil => exact hmn
  | cons hty _ ih => exact ih (Nat.add_le_add hmn (h.specificity_antitone hty))

/-- What is narrower has no lower score. -/
theorem Forest.score_antitone (h : g.Forest) {a b : Constructor β} (hab : g.Narrower a b) :
    g.score b ≤ g.score a := h.foldl_specificity_le hab (Nat.le_refl 0)

/-- The best constructor is wider than another applicable one only if it comes first of two that
score the same. -/
theorem Forest.tie_of_narrower (h : g.Forest) {d : ClassDef β} {typeArgs : Option (List Ty)}
    {args : List Value} {i j : Nat} {a b : Constructor β} (hb : g.Best d typeArgs args j b)
    (hi : d.constructors[i]? = some a) (ha : g.Applicable d typeArgs args a)
    (hab : g.Narrower a b) (hne : i ≠ j) : g.score a = g.score b ∧ j < i := by
  have hle := h.score_antitone hab
  have hbest := hb.best i a hi ha
  omega

end Graph

namespace Registry

variable {w : World} {cls : TypeId} {d : ClassDef Body}

/-- **The most specific constructor.** In every reachable registry, once the type arguments are in
order, a call fails just when no constructor of the class is applicable, and else it invokes the
first of those with the highest score; whether a constructor is applicable does not depend on the
others. Scores grow as types narrow, so of two applicable constructors the wider one is invoked only
if it scores the same and comes first. -/
theorem Reachable.most_specific (hr : w.registry.Reachable)
    (hd : w.registry.instantiable cls = .ok d) (typeArgs : Option (List Ty)) (args : List Value) :
    (∀ ts, typeArgs = some ts → ts.length ≠ d.typeParams.length →
      w.Fails cls typeArgs args (.typeArgumentCount d.name d.typeParams.length ts.length)) ∧
    (∀ ts p t, typeArgs = some ts → ts.length = d.typeParams.length →
      w.registry.graph.violated? (.ofArgs d.typeParams ts) d.typeParams = some (p, t) →
      w.Fails cls typeArgs args (.boundViolation d.name p.name t p.bound)) ∧
    (w.registry.graph.Admits d typeArgs →
      (w.Fails cls typeArgs args (.noMatchingConstructor d.name args.length typeArgs.isSome) ↔
        ∀ c ∈ d.constructors, ¬ w.registry.graph.Applicable d typeArgs args c) ∧
      ((∃ c ∈ d.constructors, w.registry.graph.Applicable d typeArgs args c) →
        ∃ k, w.Invokes cls typeArgs args d k) ∧
      (∀ k, w.Invokes cls typeArgs args d k ↔
        ∃ c, w.registry.graph.Best d typeArgs args k c) ∧
      (∀ c, w.registry.graph.Applicable d typeArgs args c ↔
        w.registry.selectIn { d with constructors := [c] } typeArgs args = .ok 0) ∧
      ∀ i j a b, d.constructors[i]? = some a → d.constructors[j]? = some b → i ≠ j →
        w.registry.graph.Applicable d typeArgs args a → w.registry.graph.Narrower a b →
        w.Invokes cls typeArgs args d j →
        w.registry.graph.score a = w.registry.graph.score b ∧ j < i) ∧
    ∀ s t, w.registry.graph.isSubtypeOf s t = true →
      w.registry.graph.specificity t ≤ w.registry.graph.specificity s := by
  have hforest := hr.inStep.forest
  refine ⟨fun ts hts hl => ?_, fun ts p t hts hl hv => ?_, fun h => ?_,
    fun s t => hforest.specificity_antitone⟩
  · rw [World.fails_iff, select_eq_error_iff_of_instantiable hd, selectIn, hts]
    simp [ClassDef.explicitBindings, hl]
  · rw [World.fails_iff, select_eq_error_iff_of_instantiable hd, selectIn, hts]
    simp [ClassDef.explicitBindings, hl, hv]
  · have hinvokes : ∀ k, w.Invokes cls typeArgs args d k ↔
        ∃ c, w.registry.graph.Best d typeArgs args k c := by
      intro k
      rw [World.invokes_iff hd, select_eq_ok_iff_of_instantiable hd, selectIn_eq_ok_iff h]
    refine ⟨?_, ?_, hinvokes, fun c => applicable_iff_selectIn_alone h, ?_⟩
    · rw [World.fails_iff, select_eq_error_iff_of_instantiable hd, selectIn_eq_noMatching_iff h]
    · rintro ⟨c, hc, happ⟩
      rcases selectIn_cases h args with ⟨k, c', hbest, -⟩ | ⟨hnone, -⟩
      · exact ⟨k, (hinvokes k).2 ⟨c', hbest⟩⟩
      · exact absurd happ (hnone c hc)
    · intro i j a b hi hj hne ha hab hinv
      obtain ⟨b', hbest⟩ := (hinvokes j).1 hinv
      obtain rfl : b = b' := Option.some.inj (hj.symm.trans hbest.at_place)
      exact hforest.tie_of_narrower hbest hi ha hab hne

/-! ## A class to pick from -/

/-- A class with a constructor for any value and, after it, one for numbers and one for integers. -/
def pick : ClassDecl Body :=
  ⟨"Pick", none, [], false, [
    .field ⟨"chosen", .prim .str⟩,
    .ctor ⟨"Pick", [⟨"n", .any⟩], false, fun _ _ => .newInstance [.str "any"] .done⟩,
    .ctor ⟨"Pick", [⟨"n", .prim .number⟩], false, fun _ _ => .newInstance [.str "number"] .done⟩,
    .ctor ⟨"Pick", [⟨"n", .prim .int⟩], false, fun _ _ => .newInstance [.str "int"] .done⟩]⟩

/-- The world of the registry of this class. -/
def picking : World := .ofRegistry ((ofSettings .standard).afterAll [.define pick])

theorem reachable_picking : picking.registry.Reachable := ⟨.standard, _, rfl, leads_afterAll _ _⟩

/-- An integer picks the last of the three, which is the best; two arguments and type arguments are
refused. -/
theorem most_specific_picking : ∃ d, picking.registry.instantiable 2 = .ok d ∧
    picking.Invokes 2 none [.int 1] d 2 ∧
    (∃ c, picking.registry.graph.Best d none [.int 1] 2 c) ∧
    picking.Fails 2 none [.int 1, .int 2] (.noMatchingConstructor d.name 2 false) ∧
    picking.Fails 2 (some [.any]) [.int 1] (.typeArgumentCount d.name 0 1) := by
  have hclass : (picking.registry.classDef? 2).map (·.typeParams) = some [] := by decide +kernel
  obtain ⟨d, hd, hparams⟩ := Option.map_eq_some_iff.1 hclass
  have hinst := reachable_picking.ok.instantiable hd (by decide)
  have hadmits : picking.registry.graph.Admits d none := fun _ hts => nomatch hts
  have hint : picking.Invokes 2 none [.int 1] d 2 := by
    rw [World.invokes_iff hinst, select_eq_ok_iff_of_instantiable hinst]
    have hsel : (picking.registry.classDef? 2).map
        (picking.registry.selectIn · none [.int 1]) = some (.ok 2) := by
      decide +kernel
    rwa [hd, Option.map_some, Option.some.injEq] at hsel
  have htwo : (picking.registry.classDef? 2).map (fun d => d.constructors.all fun c =>
      c.arity ≠ 2) = some true := by
    decide +kernel
  rw [hd, Option.map_some, Option.some.injEq, List.all_eq_true] at htwo
  have hfits := reachable_picking.most_specific hinst none [.int 1]
  have hnone := reachable_picking.most_specific hinst none [.int 1, .int 2]
  have hcount := reachable_picking.most_specific hinst (some [.any]) [.int 1]
  refine ⟨d, hinst, hint, ((hfits.2.2.1 hadmits).2.2.1 2).1 hint, ?_, ?_⟩
  · refine (hnone.2.2.1 hadmits).1.2 fun c hc happ => ?_
    exact absurd happ.arity (of_decide_eq_true (htwo c hc))
  · have := hcount.1 [.any] rfl (by simp [hparams])
    simpa [hparams] using this

end Registry

end ClassGraph
