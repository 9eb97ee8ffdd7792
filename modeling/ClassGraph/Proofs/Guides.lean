import ClassGraph.Proofs.Choice
import ClassGraph.Proofs.InheritedLayout
import ClassGraph.Proofs.Limit

/-!
# Classes that only inherit

A class that declares nothing, below a class without type parameters, has its superclass's fields,
the default constructor over them, and a guide to each other constructor of the superclass. The
guides accept what the constructors behind them accept and say as much.

* `Registry.Made.heir_constructors`: the constructors of such a class.
* `World.SharesBody`: two constructions come down to one run of a constructor body.
* `Registry.Reachable.select_guide`: **where the superclass selects a user constructor, the class
  selects the guide to it** and runs the same body; only where its default constructor says as much
  that one, which comes first, is selected instead.
* `Registry.not_select_guide`: that does happen.
-/

namespace ClassGraph

variable {β : Type}

/-! ## Guides -/

/-- A guide to a constructor whose types mention no parameters has the same types. -/
theorem Constructor.toGuide_of_closed {c : Constructor β} (hc : ∀ p ∈ c.params, p.ty.params = [])
    (s : Substitution) (index : Nat) :
    c.toGuide s index = ⟨c.params, c.parametrized, .guide index⟩ := by
  have hsame : c.params.map (fun p => (⟨p.name, p.ty.subst s⟩ : Field)) = c.params.map id := by
    refine List.map_congr_left fun p hp => ?_
    rw [Ty.subst_of_isClosed s (Ty.isClosed_iff_params.2 (hc p hp))]
    rfl
  rw [toGuide, hsame, List.map_id]

/-- The guides to those of some constructors that are no default ones, if places are counted from
`n` on. -/
def guidesFrom (subst : Substitution) (n : Nat) (cs : List (Constructor β)) :
    List (Constructor β) :=
  (cs.zipIdx n).filterMap fun x => if x.1.isDefault then none else some (x.1.toGuide subst x.2)

theorem mem_guidesFrom {subst : Substitution} {n : Nat} {cs : List (Constructor β)}
    {a : Constructor β} (ha : a ∈ guidesFrom subst n cs) :
    ∃ x ∈ cs, ∃ i, a = x.toGuide subst i := by
  obtain ⟨x, hx, hg⟩ := List.mem_filterMap.1 ha
  by_cases hd : x.1.isDefault = true
  · rw [if_pos hd] at hg
    cases hg
  · rw [if_neg hd, Option.some.injEq] at hg
    exact ⟨x.1, List.fst_mem_of_mem_zipIdx hx, x.2, hg.symm⟩

/-- The guides, cut where the guide to one constructor stands. -/
theorem guides_cut {s : ClassDef β} {before after : List (Constructor β)} {u : Constructor β}
    (hcut : s.constructors = before ++ u :: after) (hu : u.isDefault = false)
    (subst : Substitution) :
    ∃ l₁ l₂, guides s subst = l₁ ++ u.toGuide subst before.length :: l₂ ∧
      (∀ a ∈ l₁, ∃ x ∈ before, ∃ i, a = x.toGuide subst i) ∧
      ∀ a ∈ l₂, ∃ x ∈ after, ∃ i, a = x.toGuide subst i := by
  have hfrom : guides s subst = guidesFrom subst 0 s.constructors := rfl
  refine ⟨guidesFrom subst 0 before, guidesFrom subst (before.length + 1) after, ?_,
    fun _ => mem_guidesFrom, fun _ => mem_guidesFrom⟩
  rw [hfrom, hcut, guidesFrom, List.zipIdx_append, List.filterMap_append, List.zipIdx_cons,
    List.filterMap_cons]
  simp [hu, guidesFrom]

/-! ## Selection -/

/-- The constructor `v` is as good a choice for the arguments as `u`. -/
def Graph.Rivals (g : Graph) (params : List TypeParam) (args : List Value)
    (v u : Constructor β) : Prop :=
  g.isApplicable params none args v = true ∧ g.score v = g.score u

section

variable {g : Graph} {params : List TypeParam} {args : List Value} {s : ClassDef β}
  {before after extend l₁ l₂ : List (Constructor β)} {u v : Constructor β} {subst : Substitution}

/-- Guides to constructors that say no more than `u` say no more than it either. -/
theorem guides_score_le (hcl : ∀ x ∈ s.constructors, ∀ p ∈ x.params, p.ty.params = [])
    (hle : ∀ x ∈ s.constructors, g.isApplicable params none args x = true →
      g.score x ≤ g.score u) :
    ∀ e ∈ guides s subst, g.isApplicable params none args e = true → g.score e ≤ g.score u := by
  intro e he happ
  obtain ⟨i, x, hx, -, rfl⟩ := mem_guides.1 he
  have hxs := List.mem_of_getElem? hx
  rw [Constructor.toGuide_of_closed (hcl x hxs)] at happ ⊢
  exact hle x hxs happ

/-- **The guide to the preferred constructor is preferred**, behind a default constructor that
says less. -/
theorem prefers_guide (hcut : s.constructors = before ++ u :: after)
    (hp : g.Prefers params none args before u after)
    (hcl : ∀ x ∈ s.constructors, ∀ p ∈ x.params, p.ty.params = [])
    (h₁ : ∀ a ∈ l₁, ∃ x ∈ before, ∃ i, a = x.toGuide subst i)
    (h₂ : ∀ a ∈ l₂, ∃ x ∈ after, ∃ i, a = x.toGuide subst i)
    (hv : v ∈ s.constructors) (hriv : ¬ g.Rivals params args v u)
    (hext : ∀ e ∈ extend, ¬ g.isApplicable params none args e = true) :
    g.Prefers params none args (v :: (extend ++ l₁)) (u.toGuide subst before.length) l₂ := by
  have hbefore : ∀ x ∈ before, x ∈ s.constructors := fun x hx =>
    hcut ▸ List.mem_append_left _ hx
  have hafter : ∀ x ∈ after, x ∈ s.constructors := fun x hx =>
    hcut ▸ List.mem_append_right _ (List.mem_cons_of_mem _ hx)
  have hus : u ∈ s.constructors := hcut ▸ List.mem_append_right _ List.mem_cons_self
  rw [Constructor.toGuide_of_closed (hcl u hus)]
  refine ⟨hp.applicable, fun x hx happ => ?_, fun x hx happ => ?_⟩
  · rcases List.mem_cons.1 hx with rfl | hx
    · -- the default constructor: as a constructor of `s` it says no more, and not as much
      have hle := hp.score_le x (hcut ▸ hv) happ
      exact Nat.lt_of_le_of_ne hle fun he => hriv ⟨happ, he⟩
    rcases List.mem_append.1 hx with hx | hx
    · exact absurd happ (hext x hx)
    · obtain ⟨y, hy, i, rfl⟩ := h₁ x hx
      rw [Constructor.toGuide_of_closed (hcl y (hbefore y hy))] at happ ⊢
      exact hp.before y hy happ
  · obtain ⟨y, hy, i, rfl⟩ := h₂ x hx
    rw [Constructor.toGuide_of_closed (hcl y (hafter y hy))] at happ ⊢
    exact hp.after y hy happ

/-- A default constructor that says as much is preferred to the guide. -/
theorem prefers_default (subst : Substitution) (hcut : s.constructors = before ++ u :: after)
    (hp : g.Prefers params none args before u after)
    (hcl : ∀ x ∈ s.constructors, ∀ p ∈ x.params, p.ty.params = [])
    (hriv : g.Rivals params args v u)
    (hext : ∀ e ∈ extend, ¬ g.isApplicable params none args e = true) :
    g.Prefers params none args [] v (extend ++ guides s subst) := by
  refine ⟨hriv.1, by simp, fun x hx happ => ?_⟩
  rcases List.mem_append.1 hx with hx | hx
  · exact absurd happ (hext x hx)
  · rw [hriv.2]
    exact guides_score_le hcl (hcut ▸ hp.score_le) x hx happ

end

namespace Registry

variable {r : Registry β} {c : ClassDef β} {decl : ClassDecl β} {o : Outline β} {h : Heritage}

/-- **The constructors of a class that only inherits**, below a class without parameters: the
default one over the inherited fields, perhaps one that copies, and the guides. -/
theorem Made.heir_constructors (hm : r.Made decl o h c) (hr : r.OK) (hf : decl.fields = [])
    (hk : decl.ctors = []) (hp : decl.typeParams = []) (hs : o.superDef.id ≠ rootId)
    (hsp : o.superDef.typeParams = []) :
    c.typeParams = [] ∧ ∃ extend,
      c.constructors = ⟨o.superDef.layout.fields, false, .default⟩ ::
        (extend ++ guides o.superDef h.substitution) ∧
      ∀ e ∈ extend, e.role = .copyExtend := by
  obtain ⟨g, he⟩ := hm.extends hr
  have hparams : c.layout.typeParams = [] := by
    rw [he.typeParams, he.params, show o.superDef.layout.typeParams = [] from hsp, hp]
    rfl
  have hfields : h.fields = o.superDef.layout.fields := by
    rw [he.renamed, ← List.map_id o.superDef.layout.fields, List.map_map]
    refine List.map_congr_left fun f hf' => ?_
    have hnil : f.ty.params = [] := List.eq_nil_iff_forall_not_mem.2 fun n hn => by
      have := (hm.superLayout hr).field hf' n hn
      rw [Layout.paramNames, show o.superDef.layout.typeParams = [] from hsp] at this
      cases this
    simp [Field.rename, Ty.rename_of_params_eq_nil hnil]
  have hall : c.layout.fields = o.superDef.layout.fields := by
    rw [he.fields, hf, List.append_nil, hfields]
  refine ⟨hparams, copyExtendConstructors o.superDef.name c.layout.fields h.fields.length, ?_, ?_⟩
  · rw [hm.constructors, hm.userConstructors, hk, hparams, hall, hfields, guideConstructors,
      if_pos ⟨rfl, hs⟩]
    simp [defaultConstructors]
  · intro e he
    rw [mem_copyExtendConstructors he]
    rfl

/-- Every class but the root can be constructed from a value for every field. -/
theorem Made.default_mem (hm : r.Made decl o h c) :
    ⟨c.layout.fields, false, .default⟩ ∈ c.constructors := by
  rw [hm.constructors]
  simp [defaultConstructors]

/-- No parameters occur in the constructors of a class that has none. -/
theorem params_eq_nil_of_closed (hcl : c.Closed) (hp : c.typeParams = []) :
    ∀ x ∈ c.constructors, ∀ p ∈ x.params, p.ty.params = [] := by
  intro x hx p hpx
  refine List.eq_nil_iff_forall_not_mem.2 fun n hn => ?_
  have hmem := hcl.constructor hx hpx n hn
  rw [Layout.paramNames, show c.layout.typeParams = [] from hp] at hmem
  cases hmem

end Registry

/-! ## Running -/

/-- **Two constructions share a body.** The body, run as one of the class `s`, gives a result and a
world, whether the constructor alone or also a guide to it counts against the limit. That is what
the construction of `s` comes to, and the construction of `c` comes to the same world, with the
result made an instance of `c`. -/
def World.SharesBody (w : World) (budget : Nat) (c s : ClassDef Body) (body : Body)
    (args : List Value) : Prop :=
  ∃ result w',
    (∀ depth, depth = 1 ∨ depth = 2 →
      runBody (dispatch (invoke (constructWithin (budget - 1))
          (w.registry.settings.maxConstructorDepth - depth)))
        (constructWithin (budget - 1)) s body ⟨⟨s.id, none⟩, depth⟩ args w = some (result, w')) ∧
    w.construct budget s.id none args = some (result, w') ∧
    w.construct budget c.id none args = some (result.bind (c.relabel w'.registry s none), w')

/-- A guide that is invoked with an outcome runs the body behind it. With more left of the limit
the body comes to the same, and so does the constructor that it is the body of. -/
theorem runBody_of_invokeOr {construct : Construction} {n : Nat} {c s : ClassDef Body} {j k : Nat}
    {e u : Constructor Body} {body : Body} {args : List Value} {w : World}
    {x : Except Error Instance × World} (he : c.constructors[k]? = some e)
    (hguide : e.kind = .guide j) (htarget : c.guideTarget w.registry = .ok s)
    (hu : s.constructors[j]? = some u) (hbody : u.kind = .user body)
    (hx : invokeOr giveUp construct n c k none args w = some x) :
    ∃ m result w', n = m + 2 ∧ x = (result.bind (c.relabel w'.registry s none), w') ∧
      ∀ left, m ≤ left → invoke construct (left + 1) s j none args w = some (result, w') ∧
        ∀ depth, runBody (dispatch (invoke construct left)) construct s body
          ⟨⟨s.id, none⟩, depth⟩ args w = some (result, w') := by
  match n with
  | 0 => cases hx
  | n + 1 =>
    simp only [invokeOr, he, runConstructor, hguide, runGuide, htarget, Option.map_none] at hx
    obtain ⟨⟨result, w'⟩, hinv, rfl⟩ := Option.map_eq_some_iff.1 hx
    match n with
    | 0 => cases hinv
    | m + 1 =>
      refine ⟨m, result, w', rfl, rfl, fun left hleft => ⟨?_, fun depth => ?_⟩⟩
      · exact invokeOr_mono refuse construct (by omega) _ _ _ _ _ _ hinv
      · simp only [invokeOr, hu, runConstructor, hbody] at hinv
        exact runBody_mono (invokeOr_mono refuse construct hleft) construct _ depth _ _ _ _ _ _ hinv

/-- Where the class selects a guide, and the superclass the constructor behind it, the two
constructions share its body, unless the limit on constructor calls comes between. -/
theorem World.sharesBody_of_select {w : World} {budget : Nat} {c s : ClassDef Body} {j k : Nat}
    {e u : Constructor Body} {body : Body} {args : List Value} {x : Except Error Instance × World}
    (he : c.constructors[k]? = some e) (hguide : e.kind = .guide j)
    (htarget : c.guideTarget w.registry = .ok s) (hu : s.constructors[j]? = some u)
    (hbody : u.kind = .user body) (hselC : w.registry.select c.id none args = .ok (c, k))
    (hselS : w.registry.select s.id none args = .ok (s, j))
    (hx : w.constructStrictly budget c.id none args = some x) :
    w.SharesBody budget c s body args := by
  match budget with
  | 0 => cases hx
  | budget + 1 =>
    have hfull := w.constructStrictly_within _ _ _ _ x hx
    simp only [constructStrictly, dispatch, hselC] at hx
    obtain ⟨m, result, w', hm, rfl, hrun⟩ := runBody_of_invokeOr he hguide htarget hu hbody hx
    obtain ⟨hinv, -⟩ := hrun (m + 1) (Nat.le_succ m)
    have hS : w.construct (budget + 1) s.id none args = some (result, w') := by
      simp only [World.construct, constructWithin, dispatch, hselS, hm]
      exact hinv
    refine ⟨result, w', fun depth hdepth => ?_, hS, hfull⟩
    exact (hrun (w.registry.settings.maxConstructorDepth - depth) (by omega)).2 depth

namespace Registry

/-- **The class `c` only inherits, and its superclass selects a user constructor**: `c` was declared
by `decl`, which declares nothing; the superclass `s` is not the root and has no type parameters; it
selects its user constructor `u` at the place `j` for the arguments, and `c` cannot copy from
these. -/
structure Inherits (r : Registry Body) (decl : ClassDecl Body) (c s : ClassDef Body)
    (args : List Value) (j : Nat) (u : Constructor Body) : Prop where
  defined : r.DefinedBy c.id decl
  fields : decl.fields = []
  typeParams : decl.typeParams = []
  ctors : decl.ctors = []
  classDef? : r.classDef? c.id = some c
  superclass : c.superclass = some s.id
  super_ne : s.id ≠ rootId
  superDef : r.classDef? s.id = some s
  super_params : s.typeParams = []
  ctor : s.constructors[j]? = some u
  user : u.role = .user
  selected : r.select s.id none args = .ok (s, j)
  not_copied : ∀ e ∈ c.constructors, e.role = .copyExtend →
    ¬ r.graph.isApplicable c.typeParams none args e = true

variable {r : Registry Body} {c s : ClassDef Body} {decl : ClassDecl Body} {args : List Value}
  {j : Nat} {u : Constructor Body}

/-- The class that inherits was made on top of its superclass. -/
theorem Inherits.made (hi : r.Inherits decl c s args j u) :
    c.id ≠ rootId ∧ ∃ o h, r.Made decl o h c ∧ o.superDef = s := by
  obtain ⟨hcid, -⟩ := hi.defined.made
  obtain ⟨o, h, hm⟩ := hi.defined.made_classDef hi.classDef?
  have hsuper := hm.classDef?_superclass hi.superclass
  exact ⟨hcid, o, h, hm, Option.some.inj (hsuper.symm.trans hi.superDef)⟩

/-- What the superclass selects has a body, and is preferred among its constructors. -/
theorem Inherits.prefers (hi : r.Inherits decl c s args j u) :
    ∃ before after body, s.constructors = before ++ u :: after ∧ before.length = j ∧
      u.kind = .user body ∧ r.graph.Prefers [] none args before u after := by
  have huser := hi.user
  obtain ⟨body, hbody⟩ : ∃ body, u.kind = .user body := by
    cases hk : u.kind with
    | user body => exact ⟨body, rfl⟩
    | default | copyExtend | guide _ => simp [Constructor.role, hk, ConstructorKind.role] at huser
  obtain ⟨-, explicit, hexpl, -, before, u', after, hcut, rfl, hp⟩ := select_eq_ok_iff.1 hi.selected
  cases hexpl
  have hu := hi.ctor
  obtain rfl : u = u' := by
    rw [hcut, List.getElem?_append_right (Nat.le_refl _), Nat.sub_self] at hu
    exact (Option.some.inj hu).symm
  rw [hi.super_params] at hp
  exact ⟨before, after, body, hcut, rfl, hbody, hp⟩

/-- **Constructors are inherited.** Where a class only inherits and its superclass selects a user
constructor, the class selects its guide to that constructor, and the two constructions share its
body as long as they stay within the limit on constructor calls. Only if the default constructor of
the class is as good a choice, that one is selected, as it comes before the guides. -/
theorem Reachable.select_guide (hr : r.Reachable) (hi : r.Inherits decl c s args j u) :
    ∃ v k e body, c.constructors[0]? = some v ∧ v.role = .default ∧
      c.constructors[k]? = some e ∧ e.kind = .guide j ∧ u.kind = .user body ∧
      (r.graph.Rivals c.typeParams args v u → r.select c.id none args = .ok (c, 0)) ∧
      (¬ r.graph.Rivals c.typeParams args v u → r.select c.id none args = .ok (c, k) ∧
        ∀ (w : World) budget x, w.registry = r →
          w.constructStrictly budget c.id none args = some x →
          w.SharesBody budget c s body args) := by
  have hok := hr.ok
  obtain ⟨hcid, o, h, hm, rfl⟩ := hi.made
  obtain ⟨before, after, body, hcut, rfl, hbody, hp⟩ := hi.prefers
  -- what the two classes have for constructors
  obtain ⟨hcp, extend, hcs, hext⟩ :=
    hm.heir_constructors hok hi.fields hi.ctors hi.typeParams hi.super_ne hi.super_params
  obtain ⟨declS, oS, hS, hmS⟩ := hok.made hi.superDef hi.super_ne
  have hv := hmS.default_mem
  have hcl := params_eq_nil_of_closed (hok.closed hi.superDef) hi.super_params
  have hext' : ∀ e ∈ extend, ¬ r.graph.isApplicable [] none args e = true := by
    intro e he
    have hmem : e ∈ c.constructors := by
      rw [hcs]
      exact List.mem_cons_of_mem _ (List.mem_append_left _ he)
    rw [← hcp]
    exact hi.not_copied e hmem (hext e he)
  have hud : u.isDefault = false := by
    rw [Constructor.isDefault, hi.user]
    rfl
  -- the guide to it, and where it stands
  obtain ⟨l₁, l₂, hg, h₁, h₂⟩ := guides_cut hcut hud h.substitution
  obtain ⟨front, hfront⟩ : ∃ front : List (Constructor Body),
      front = ⟨o.superDef.layout.fields, false, .default⟩ :: (extend ++ l₁) := ⟨_, rfl⟩
  have hk : c.constructors = front ++ u.toGuide h.substitution before.length :: l₂ := by
    rw [hcs, hg, hfront, List.cons_append, List.append_assoc]
  have he : c.constructors[front.length]? = some (u.toGuide h.substitution before.length) := by
    rw [hk, List.getElem?_append_right (Nat.le_refl _), Nat.sub_self]
    rfl
  have hinst := hok.instantiable hi.classDef? hcid
  refine ⟨_, _, _, body, by rw [hcs]; rfl, rfl, he, rfl, hbody, ?_, ?_⟩
  · intro hriv
    rw [hcp] at hriv
    have hpref := prefers_default h.substitution hcut hp hcl hriv hext'
    exact select_eq_ok_iff.2 ⟨hinst, none, rfl, rfl, _, _, _, hcs, rfl, hcp ▸ hpref⟩
  · intro hriv
    rw [hcp] at hriv
    have hpref := prefers_guide hcut hp hcl h₁ h₂ hv hriv hext'
    rw [← hfront] at hpref
    have hselC : r.select c.id none args = .ok (c, front.length) :=
      select_eq_ok_iff.2 ⟨hinst, none, rfl, rfl, _, _, _, hk, rfl, hcp ▸ hpref⟩
    refine ⟨hselC, fun w budget x hw hx => ?_⟩
    subst hw
    have htarget : c.guideTarget w.registry = .ok o.superDef := by
      rw [ClassDef.guideTarget, hm.superclass]
      exact hok.instantiable hi.superDef hi.super_ne
    exact World.sharesBody_of_select he rfl htarget hi.ctor hbody hselC hi.selected hx

/-! ## A kennel -/

/-- A class of one field with two constructors of its own, which write into the log. -/
def animal : ClassDecl Body :=
  ⟨"Animal", none, [], false, [
    .field ⟨"x", .prim .int⟩,
    .ctor ⟨"Animal", [⟨"x", .prim .int⟩], false, fun _ _ =>
      .log (.str "one") (.newInstance [.int 2] .done)⟩,
    .ctor ⟨"Animal", [⟨"x", .prim .int⟩, ⟨"y", .any⟩], false, fun _ _ =>
      .log (.str "two") (.newInstance [.int 3] .done)⟩]⟩

/-- A class that only inherits. -/
def dog : ClassDecl Body := ⟨"Dog", some "Animal", [], false, []⟩

/-- The registry of these two classes. -/
def kennel : Registry Body := ((ofSettings .standard).after (.define animal)).after (.define dog)

theorem reachable_kennel : kennel.Reachable := ⟨.standard, _, rfl, (Leads.refl.step _).step _⟩

/-- What is left to check before the dog inherits a constructor of the animal. -/
theorem inherits_kennel (args : List Value) (j : Nat)
    (hsel : (kennel.select 2 none args).map (·.2) = .ok j)
    (huser : ((kennel.classDef? 2).bind (·.constructors[j]?)).map (·.role) = some .user)
    (hcopy : (kennel.classDef? 4).all (fun c => c.constructors.all fun e =>
      !(e.role = .copyExtend ∧ kennel.graph.isApplicable c.typeParams none args e = true)) = true) :
    ∃ c s u, c.id = 4 ∧ s.id = 2 ∧ kennel.Inherits dog c s args j u := by
  have hok := reachable_kennel.ok
  have hanimals : ((ofSettings .standard).after (.define animal)).Reachable :=
    ⟨.standard, _, rfl, Leads.refl.step _⟩
  have hdef : kennel.DefinedBy 4 dog := hanimals.definedBy_after (by decide +kernel)
  have hdog : (kennel.classDef? 4).map (·.superclass) = some (some 2) := by decide +kernel
  obtain ⟨c, hc, hsup⟩ := Option.map_eq_some_iff.1 hdog
  have hanimal : (kennel.classDef? 2).map (·.typeParams) = some [] := by decide +kernel
  obtain ⟨s, hs, hsp⟩ := Option.map_eq_some_iff.1 hanimal
  have hcid := hok.id_eq hc
  have hsid := hok.id_eq hs
  rw [hs] at huser
  obtain ⟨u, hu, hrole⟩ := Option.map_eq_some_iff.1 huser
  have hinst := hok.instantiable hs (by decide)
  have hselS : kennel.select 2 none args = .ok (s, j) := by
    cases hk : kennel.select 2 none args with
    | error e => simp [hk, Except.map] at hsel
    | ok dk =>
      obtain ⟨d, k⟩ := dk
      have hd := instantiable_of_select hk
      cases hinst.symm.trans hd
      simpa [hk, Except.map] using hsel
  refine ⟨c, s, u, hcid, hsid, hcid ▸ hdef, rfl, rfl, rfl, hcid ▸ hc, hsid ▸ hsup, ?_, hsid ▸ hs,
    hsp, hu, hrole, hsid ▸ hselS, ?_⟩
  · rw [hsid]
    decide
  · intro e he hce happ
    rw [hc] at hcopy
    have := List.all_eq_true.1 hcopy e he
    simp [hce, happ] at this

/-- With two arguments the dog selects its guide to the animal's second constructor, and runs its
body. -/
theorem select_guide_kennel : ∃ c s u body, kennel.Inherits dog c s [.int 1, .int 2] 1 u ∧
    u.kind = .user body ∧ (World.ofRegistry kennel).SharesBody 1 c s body [.int 1, .int 2] := by
  obtain ⟨c, s, u, hc, hs, hi⟩ := inherits_kennel [.int 1, .int 2] 1 (by decide +kernel)
    (by decide +kernel) (by decide +kernel)
  obtain ⟨v, k, e, body, hv, -, -, -, hbody, -, hguide⟩ := reachable_kennel.select_guide hi
  have hfirst : ((kennel.classDef? 4).bind fun c => c.constructors[0]?.map fun v =>
      kennel.graph.isApplicable c.typeParams none [.int 1, .int 2] v) = some false := by
    decide +kernel
  have hriv : ¬ kennel.graph.Rivals c.typeParams [.int 1, .int 2] v u := by
    rintro ⟨happ, -⟩
    rw [← hc, hi.classDef?, Option.bind_some, hv, Option.map_some, happ] at hfirst
    cases hfirst
  have hrun : ((World.ofRegistry kennel).constructStrictly 1 4 none [.int 1, .int 2]).isSome := by
    decide +kernel
  obtain ⟨x, hx⟩ := Option.isSome_iff_exists.1 hrun
  exact ⟨c, s, u, body, hi, hbody, (hguide hriv).2 _ 1 x rfl (hc ▸ hx)⟩

/-- With one argument it does not: its default constructor says as much, and comes first. -/
theorem not_select_guide : ¬ ∀ (r : Registry Body) (decl : ClassDecl Body) (c s : ClassDef Body)
    (args : List Value) (j : Nat) (u : Constructor Body), r.Reachable →
    r.Inherits decl c s args j u → ∃ k e, c.constructors[k]? = some e ∧ e.kind = .guide j ∧
      r.select c.id none args = .ok (c, k) := by
  intro hall
  obtain ⟨c, s, u, hc, hs, hi⟩ := inherits_kennel [.int 1] 0 (by decide +kernel)
    (by decide +kernel) (by decide +kernel)
  obtain ⟨k, e, he, hguide, hsel⟩ := hall kennel dog c s [.int 1] 0 u reachable_kennel hi
  have hdog : (kennel.select 4 none [.int 1]).map (fun x => x.1.constructors[x.2]?.map (·.role)) =
      .ok (some .default) := by
    decide +kernel
  rw [← hc, hsel] at hdog
  simp [Except.map, he, Constructor.role, hguide, ConstructorKind.role] at hdog

end Registry

end ClassGraph
