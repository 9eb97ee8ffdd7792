import ClassGraph.Proofs.Refusal

/-!
# Heritages are written once

A heritage that has been worked out is kept, and with it the fresh names in it. Whatever is requested
afterwards, granted or refused, the node is answered for from what is kept; so all subclasses of a
class start from the same names. A question that cannot be answered leaves nothing behind, and the
node may be one that passes something on later.

* `Registry.PassesOn`: the nodes that pass something on.
* `Registry.addsHeritage_after`: a request leaves the heritages as they are or adds one that has just
  been worked out; `Registry.Reachable.heritage_isOk_iff`: **just these nodes are answered for.**
* `Registry.Final`: the answer stands, and all direct subclasses start with it.
* `Registry.Reachable.write_once`: **an answer is final from the first time on.**
-/

namespace ClassGraph

variable {β : Type}

/-- **The class starts with what the heritage passes on**: its type parameters and its fields, the
latter being all that the class has inherited. -/
structure ClassDef.StartsWith (d : ClassDef β) (h : Heritage) : Prop where
  params : h.params <+: d.layout.typeParams
  fields : h.fields <+: d.layout.fields
  inherited : d.layout.inherited = h.fields.length

/-- The names in front are those of the heritage. -/
theorem ClassDef.StartsWith.names {d : ClassDef β} {h : Heritage} (hd : d.StartsWith h) :
    d.layout.paramNames.take h.params.length = h.params.map (·.name) ∧
      d.layout.fieldNames.take h.fields.length = h.fields.map (·.name) := by
  have hp := List.prefix_iff_eq_take.1 hd.params
  have hf := List.prefix_iff_eq_take.1 hd.fields
  rw [Layout.paramNames, Layout.fieldNames, ← List.map_take, ← List.map_take, ← hp, ← hf]
  exact ⟨rfl, rfl⟩

/-- A heritage that is kept is not worked out again, and no number is drawn. -/
theorem HeritageStore.getOrCompute_of_get? {s : HeritageStore} {id : TypeId} {h : Heritage}
    (hk : s.get? id = some h) (compute : Fresh → Except Error Heritage × Fresh) :
    s.getOrCompute id compute = (.ok h, s) := by
  rw [getOrCompute, hk]

namespace Registry

variable {r r' : Registry β} {id : TypeId} {d : ClassDef β} {decl : ClassDecl β} {h : Heritage}

/-! ## Who passes something on -/

/-- **The node passes something on**: it is a class or the marker of one. -/
def PassesOn (r : Registry β) (id : TypeId) : Prop :=
  ∃ c d, r.classDef? c = some d ∧ (c = id ∨ d.marker = id)

theorem PassesOn.ext (hp : r.PassesOn id) (he : r.Ext r') : r'.PassesOn id := by
  obtain ⟨c, d, hd, hid⟩ := hp
  exact ⟨c, d, he.classDef? hd, hid⟩

/-- Both nodes of a class have their places in the graph. -/
theorem PassesOn.lt (hp : r.PassesOn id) (hr : r.OK) (h : r.InStep) : id < r.graph.size := by
  obtain ⟨c, d, hd, rfl | rfl⟩ := hp
  · exact hr.classDef?_lt hd
  · exact Graph.lt_size_of_isAbstract (h.isAbstract_marker hr hd)

/-- **What a node passes on can be worked out** just if it passes something on. -/
theorem InStep.computeHeritage_isOk_iff (hin : r.InStep) (hr : r.OK) (fresh : Fresh) :
    (∃ h, (r.computeHeritage id fresh).1 = .ok h) ↔ r.PassesOn id := by
  unfold computeHeritage
  by_cases hroot : id = rootId
  · rw [if_pos hroot]
    exact iff_of_true ⟨_, rfl⟩ ⟨rootId, _, hr.root, .inl hroot.symm⟩
  rw [if_neg hroot]
  cases hd : r.classDef? id with
  | some d => exact iff_of_true ⟨_, rfl⟩ ⟨id, d, hd, .inl rfl⟩
  | none =>
    cases hm : r.markers.get? id with
    | some owner =>
      -- the marker of a class answers with the superclass
      obtain ⟨howner, d, hd, hmark⟩ := hin.marker_iff.1 hm
      refine iff_of_true ?_ ⟨owner, d, hd, .inr hmark⟩
      simp [superclass, howner, hd, Except.map]
    | none =>
      refine iff_of_false ?_ ?_
      · rintro ⟨h, hh⟩
        cases hh
      · rintro ⟨c, d, hc, rfl | rfl⟩
        · rw [hc] at hd
          cases hd
        · have hcroot : c ≠ rootId := by
            rintro rfl
            rw [hr.root, Option.some.injEq] at hc
            exact hroot (hc ▸ rfl)
          rw [hin.marker_iff.2 ⟨hcroot, d, hc, rfl⟩] at hm
          cases hm

/-! ## What is kept -/

/-- The heritages stay as they are, or one that has just been worked out is added. -/
def AddsHeritage (r : Registry β) (s : HeritageStore) : Prop :=
  s = r.heritages ∨ ∃ id h fresh, r.computeHeritage id r.heritages.fresh = (.ok h, fresh) ∧
    s = ⟨r.heritages.kept.insert id h, fresh⟩

/-- A question adds one heritage at most, -/
theorem addsHeritage_heritage (r : Registry β) (id : TypeId) :
    r.AddsHeritage (r.heritage id).2.heritages := by
  rcases heritage_snd r id with he | ⟨h, fresh, -, hc, he⟩
  · exact .inl (by rw [he])
  · exact .inr ⟨id, h, fresh, hc, by rw [he]⟩

theorem addsHeritage_blueprint (r : Registry β) (decl : ClassDecl β) :
    r.AddsHeritage (r.blueprint decl).2.heritages := by
  rcases blueprint_snd (r := r) (d := decl) with he | ⟨id, he⟩ <;> rw [he]
  · exact .inl rfl
  · exact addsHeritage_heritage r id

/-- and so does any other request. -/
theorem addsHeritage_after (r : Registry β) (q : Request β) :
    r.AddsHeritage (r.after q).heritages := by
  cases q with
  | define decl =>
    rw [after]
    rcases define_cases r decl with ⟨e, hd⟩ | ⟨b, r₁, hb, -, -, hd⟩ <;> rw [hd]
    · exact addsHeritage_blueprint r decl
    · have hadds := addsHeritage_blueprint r decl
      rwa [hb] at hadds
  | blueprint decl => exact addsHeritage_blueprint r decl
  | declare n kind sup =>
    rw [after]
    rcases declare_cases r n kind sup with he | ⟨-, -, he⟩ <;> rw [he] <;> exact .inl rfl
  | heritage id => exact addsHeritage_heritage r id

/-- **What is kept after a request** was kept before, or could be worked out before. -/
theorem kept_after (q : Request β) (hk : (r.after q).heritages.get? id = some h) :
    r.heritages.get? id = some h ∨ (r.computeHeritage id r.heritages.fresh).1 = .ok h := by
  rcases addsHeritage_after r q with he | ⟨k, h', fresh, hc, he⟩ <;> rw [he] at hk
  · exact .inl hk
  rw [HeritageStore.get?, Table.get?_insert] at hk
  split at hk
  next hid =>
    cases hk
    rw [← hid, hc]
    exact .inr rfl
  · exact .inl hk

/-- Only what passes something on is kept. -/
def KeptPassOn (r : Registry β) : Prop :=
  ∀ id h, r.heritages.get? id = some h → r.PassesOn id

/-- One request keeps to that. -/
theorem KeptPassOn.after (hk : r.KeptPassOn) (hr : r.OK) (hin : r.InStep) (q : Request β) :
    (r.after q).KeptPassOn := by
  intro id h hget
  have he := (after_ok hr q).2
  rcases kept_after q hget with hold | hnew
  · exact (hk id h hold).ext he
  · exact ((hin.computeHeritage_isOk_iff hr _).1 ⟨h, hnew⟩).ext he

/-- All requests do. -/
theorem Reachable.keptPassOn (hr : r.Reachable) : r.KeptPassOn := by
  obtain ⟨s, r₀, hs, hl⟩ := hr
  induction hl with
  | refl =>
    obtain ⟨-, rfl⟩ := new_eq hs
    intro id h hget
    cases hget
  | step hl q ih =>
    have hreach : Reachable _ := ⟨s, r₀, hs, hl⟩
    exact ih.after hreach.ok hreach.inStep q

/-- **A node is answered for just if it passes something on**, whatever was asked before. -/
theorem Reachable.heritage_isOk_iff (hr : r.Reachable) :
    (∃ h, (r.heritage id).1 = .ok h) ↔ r.PassesOn id := by
  cases hk : r.heritages.get? id with
  | some h =>
    rw [heritage_of_get? hk]
    exact iff_of_true ⟨h, rfl⟩ (hr.keptPassOn id h hk)
  | none =>
    rw [← hr.inStep.computeHeritage_isOk_iff hr.ok r.heritages.fresh]
    unfold heritage HeritageStore.getOrCompute
    rw [hk]
    rcases r.computeHeritage id r.heritages.fresh with ⟨_ | h, fresh⟩ <;> rfl

/-! ## Once and for all -/

/-- **The answer `h` for the node is final**: it is given again and nothing changes, nothing is
worked out for it, and all direct subclasses start with it. -/
structure Final (r : Registry β) (id : TypeId) (h : Heritage) : Prop where
  answer : r.heritage id = (.ok h, r)
  store : ∀ compute, r.heritages.getOrCompute id compute = (.ok h, r.heritages)
  startsWith : ∀ i d, r.classDef? i = some d → d.superclass = some id → d.StartsWith h
  siblings : ∀ i j c d, r.classDef? i = some c → r.classDef? j = some d →
    c.superclass = some id → d.superclass = some id →
      c.layout.paramNames.take h.params.length = d.layout.paramNames.take h.params.length ∧
      c.layout.fieldNames.take h.fields.length = d.layout.fieldNames.take h.fields.length

/-- The heritage that a class was made from is the one that is kept. -/
theorem OK.startsWith (hr : r.OK) (hk : r.heritages.get? id = some h) {i : TypeId}
    (hd : r.classDef? i = some d) (hs : d.superclass = some id) : d.StartsWith h := by
  obtain ⟨decl, o, h', hm, -⟩ := hr.made_on hd hs
  obtain rfl : o.superDef.id = id := Option.some.inj (hm.superclass.symm.trans hs)
  obtain rfl : h' = h := Option.some.inj (hm.heritage.symm.trans hk)
  refine ⟨?_, ?_, hm.inherited⟩
  · rw [hm.typeParams]
    exact List.prefix_append _ _
  · rw [hm.fields]
    exact List.prefix_append _ _

/-- What is kept is final. -/
theorem OK.final (hr : r.OK) (hk : r.heritages.get? id = some h) : r.Final id h where
  answer := heritage_of_get? hk
  store := HeritageStore.getOrCompute_of_get? hk
  startsWith _ _ hd hs := hr.startsWith hk hd hs
  siblings i j c d hc hd hcs hds := by
    have hcn := (hr.startsWith hk hc hcs).names
    have hdn := (hr.startsWith hk hd hds).names
    exact ⟨hcn.1.trans hdn.1.symm, hcn.2.trans hdn.2.symm⟩

/-- The node that a definition is going to give is not there before. -/
theorem Reachable.not_passesOn (hr : r.Reachable) (hd : (r.define decl).1 = .ok id) :
    ¬ r.PassesOn id := by
  intro hp
  obtain ⟨b, r₁, hb, -, -, rfl, -⟩ := define_ok (Prod.ext hd rfl)
  have hgraph := (leavesNoTrace_blueprint r decl).graph
  rw [hb] at hgraph
  have hlt := hp.lt hr.ok hr.inStep
  rw [hgraph] at hlt
  exact Nat.not_lt.2 (Nat.le_succ _) hlt

/-- **Heritages are written once.** The first answer for a node is final, whatever is requested
afterwards. A question that is refused changes nothing and keeps nothing. Any time, a node is
answered for just if it passes something on then; so the node of a class is refused before the
class is defined, and answered for from then on. -/
theorem Reachable.write_once (hr : r.Reachable) (id : TypeId) :
    (∀ h, (r.heritage id).1 = .ok h → ∀ r', (r.heritage id).2.Leads r' → r'.Final id h) ∧
    (∀ e, (r.heritage id).1 = .error e →
      (r.heritage id).2 = r ∧ r.heritages.get? id = none) ∧
    (∀ r', r.Leads r' → ((∃ h, (r'.heritage id).1 = .ok h) ↔ r'.PassesOn id)) ∧
    ∀ decl, (r.define decl).1 = .ok id → (∃ e, (r.heritage id).1 = .error e) ∧
      ∀ r', (r.after (.define decl)).Leads r' → ∃ h, (r'.heritage id).1 = .ok h := by
  have hok := hr.ok
  refine ⟨fun h hh r' hl => ?_, fun e he => ?_, fun r' hl => (hr.leads hl).heritage_isOk_iff,
    fun decl hd => ⟨?_, fun r' hl => ?_⟩⟩
  · -- the answer is kept, and stays so
    have hk : (r.heritage id).2.heritages.get? id = some h := get?_of_heritage (Prod.ext hh rfl)
    obtain ⟨hok', hext⟩ := hl.ok (heritage_ok hok id).1
    exact hok'.final (hext.heritage hk)
  · have hnone : r.heritages.get? id = none := by
      cases hk : r.heritages.get? id with
      | none => rfl
      | some h =>
        rw [heritage_of_get? hk] at he
        cases he
    rcases heritage_snd r id with hsame | ⟨h, fresh, -, -, hnew⟩
    · exact ⟨hsame, hnone⟩
    · rw [hnew] at he
      cases he
  · have hno := mt hr.heritage_isOk_iff.1 (hr.not_passesOn hd)
    cases hh : (r.heritage id).1 with
    | error e => exact ⟨e, rfl⟩
    | ok h => exact absurd ⟨h, hh⟩ hno
  · have hreach : r'.Reachable := (hr.after (.define decl)).leads hl
    obtain ⟨-, d, o, h, hc, -⟩ := ((hr.definedBy_after hd).leads hl).made
    exact hreach.heritage_isOk_iff.2 ⟨id, d, hc, .inl rfl⟩

/-! ## Two kinds of tree -/

/-- One class with a type parameter. -/
def sapling : Registry Unit :=
  (ofSettings .standard).after
    (.define ⟨"Tree", none, [⟨"T", .any⟩], false, [.field ⟨"age", .param "T"⟩]⟩)

/-- The class is asked what it passes on, and gets two subclasses. In between, a definition, a
declaration and a question are refused. -/
def grove : Registry Unit :=
  (sapling.heritage 2).2.afterAll [
    .define ⟨"Oak", some "Tree", [], false, []⟩,
    .define ⟨"Oak", some "Tree", [⟨"T", .any⟩], false, []⟩,
    .declare "Tree" .abstract none,
    .heritage 9,
    .define ⟨"Elm", some "Tree", [⟨"T", .any⟩], false, [.field ⟨"height", .param "T"⟩]⟩]

theorem reachable_sapling : sapling.Reachable := ⟨.standard, _, rfl, Leads.refl.step _⟩

/-- Both subclasses start with the answer that was given first. The node of the first one was
refused when it was not there yet. -/
theorem write_once_grove : ∃ h c d, (sapling.heritage 2).1 = .ok h ∧
    h.params = [⟨"T#1", .any⟩] ∧ grove.heritage 2 = (.ok h, grove) ∧
    grove.classDef? 4 = some c ∧ c.StartsWith h ∧ c.layout.paramNames = ["T#1"] ∧
    grove.classDef? 6 = some d ∧ d.StartsWith h ∧ d.layout.paramNames = ["T#1", "T"] ∧
    (sapling.heritage 4).2.heritages.get? 4 = none ∧ ∃ h', (grove.heritage 4).1 = .ok h' := by
  have hfirst : (sapling.heritage 2).1.toOption.map (·.params) = some [⟨"T#1", .any⟩] := by
    decide +kernel
  have hoak : (grove.classDef? 4).map (fun c => (c.superclass, c.layout.paramNames)) =
      some (some 2, ["T#1"]) := by decide +kernel
  have helm : (grove.classDef? 6).map (fun d => (d.superclass, d.layout.paramNames)) =
      some (some 2, ["T#1", "T"]) := by decide +kernel
  obtain ⟨h, hh, hparams⟩ := Option.map_eq_some_iff.1 hfirst
  obtain ⟨c, hc, hoak⟩ := Option.map_eq_some_iff.1 hoak
  obtain ⟨d, hd, helm⟩ := Option.map_eq_some_iff.1 helm
  simp only [Prod.mk.injEq] at hoak helm
  have hh' : (sapling.heritage 2).1 = .ok h := by
    cases hx : (sapling.heritage 2).1 with
    | error e => simp [hx, Except.toOption] at hh
    | ok h₁ => simpa [hx, Except.toOption] using hh
  have hfinal := (reachable_sapling.write_once 2).1 h hh' grove (leads_afterAll _ _)
  obtain ⟨-, hrefused, hanswered, -⟩ := reachable_sapling.write_once 4
  have hleads : sapling.Leads grove := (Leads.refl.step (.heritage 2)).trans (leads_afterAll _ _)
  have hno : (sapling.heritage 4).1 = .error (.notAClass "<type 4>") := by decide +kernel
  obtain ⟨hsame, hnone⟩ := hrefused _ hno
  have hunkept : (sapling.heritage 4).2.heritages.get? 4 = none := by
    rw [hsame]
    exact hnone
  exact ⟨h, c, d, hh', hparams, hfinal.answer, hc, hfinal.startsWith _ _ hc hoak.1, hoak.2, hd,
    hfinal.startsWith _ _ hd helm.1, helm.2, hunkept,
    (hanswered grove hleads).2 ⟨4, c, hc, .inl rfl⟩⟩

end Registry

end ClassGraph
