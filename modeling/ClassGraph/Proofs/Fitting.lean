import ClassGraph.Construct.Instantiation
import ClassGraph.Proofs.Renaming

/-!
# Matching and fitting

Matching a value with a type binds type parameters on the way. Once all parameters are bound,
nothing is left but the question whether the value fits a type without parameters.

* `Graph.fits`: does a value fit a type without parameters?
* `Graph.matchValue_bound`, `Graph.matchSlots_bound`: **where all parameters are bound**, matching
  is fitting and binds nothing.
* `Graph.matchValue_ok`, `Graph.matchSlots_ok`: **a match that succeeds** only adds bindings, and
  under all bindings that come of it later the values fit.
-/

namespace ClassGraph

/-! ## Bindings -/

namespace Substitution

/-- Nothing is bound to a type with parameters in it. -/
def Closed (s : Substitution) : Prop := ∀ n t, s.get? n = some t → t.isClosed = true

/-- All that is bound stays bound to the same types. -/
def Extends (s s' : Substitution) : Prop := ∀ n t, s.get? n = some t → s'.get? n = some t

theorem Extends.refl (s : Substitution) : s.Extends s := fun _ _ h => h

theorem Extends.trans {s s' s'' : Substitution} (h : s.Extends s') (h' : s'.Extends s'') :
    s.Extends s'' := fun n t hn => h' n t (h n t hn)

variable {s s' : Substitution} {t : Ty}

theorem Closed.empty : Closed ∅ := by
  intro n t h
  rw [Table.get?_empty] at h
  cases h

theorem Closed.insert (hs : s.Closed) {n : Name} {u : Ty} (hu : u.isClosed = true) :
    Substitution.Closed (s.insert n u) := by
  intro m t h
  rw [Table.get?_insert] at h
  split at h
  · cases h
    exact hu
  · exact hs m t h

theorem Closed.bindAll (hs : s.Closed) (ps : List TypeParam) {ts : List Ty}
    (hts : ∀ t ∈ ts, t.isClosed = true) : (s.bindAll ps ts).Closed := by
  induction ps generalizing s ts with
  | nil => exact hs
  | cons p ps ih =>
    cases ts with
    | nil => exact hs
    | cons t ts =>
      rw [bindAll_cons]
      exact ih (hs.insert (hts t List.mem_cons_self)) fun u hu =>
        hts u (List.mem_cons_of_mem _ hu)

/-- A type whose parameters are bound does not change under more bindings. -/
theorem Extends.subst_eq (h : s.Extends s') (ht : ∀ n ∈ t.params, s.contains n = true) :
    t.subst s' = t.subst s := by
  refine Ty.subst_congr fun n hn => ?_
  obtain ⟨u, hu⟩ := Option.isSome_iff_exists.1 (ht n hn)
  rw [hu, h n u hu]

/-- Where nothing is bound to a parameter, one step tells what a type comes down to. -/
theorem Closed.resolve_eq (hs : s.Closed) (t : Ty) :
    s.resolve t = match t with
      | .param n => (s.get? n).getD (.param n)
      | t => t := by
  -- a type that is closed is not followed any further
  have hstop : ∀ fuel (u : Ty), u.isClosed = true → s.follow fuel u = u := by
    intro fuel u hu
    cases fuel with
    | zero => rfl
    | succ fuel => cases u with
      | param n => cases hu
      | any | prim _ | named _ | list _ => rfl
  cases t with
  | param n =>
    unfold resolve follow
    cases hn : s.get? n with
    | none => simp [hn]
    | some u => simp [hn, hstop _ u (hs n u hn)]
  | any | prim _ | named _ | list _ => rfl

end Substitution

/-! ## Fitting -/

namespace Graph

/-- Does the value fit the type? A type parameter fits nothing. -/
def fits (g : Graph) : Ty → Value → Bool
  | .any, _ => true
  | .prim p, v => p.accepts v
  | .named n, v => g.accepts n v
  | .param _, _ => false
  | .list t, .list items => items.all (g.fits t)
  | .list _, _ => false

variable {g : Graph} {s s' : Substitution}

/-- A verdict in favour is the bindings. -/
theorem verdict_eq_ok_iff {b : Bool} : verdict b s = .ok s' ↔ b = true ∧ s' = s := by
  cases b <;> simp [verdict, eq_comm]

/-- What is bound, matches as what it is bound to does; so all depends on the items of a list. -/
theorem matchResolved_bound (hs : s.Closed) {v : Value}
    {onItems : Ty → Except Substitution Substitution}
    (hitems : ∀ u, (∀ n ∈ u.params, s.contains n = true) →
      onItems u = verdict (g.fits (.list (u.subst s)) v) s)
    {t : Ty} (ht : ∀ n ∈ t.params, s.contains n = true) :
    g.matchResolved s v onItems (s.resolve t) = verdict (g.fits (t.subst s) v) s := by
  rw [hs.resolve_eq]
  cases t with
  | any => cases v <;> rfl
  | prim p => rfl
  | named n => rfl
  | list u => exact hitems u ht
  | param n =>
    -- what `n` is bound to is closed, so there is nothing more to look up in it
    obtain ⟨u, hu⟩ := Option.isSome_iff_exists.1 (ht n (by simp))
    have hclosed := hs n u hu
    simp only [hu, Option.getD_some, Ty.subst_param]
    cases u with
    | any => cases v <;> rfl
    | prim p => rfl
    | named m => rfl
    | param m => cases hclosed
    | list u =>
      have hparams : u.params = [] := Ty.isClosed_iff_params.1 hclosed
      have := hitems u (by simp [hparams])
      rwa [Ty.subst_of_isClosed s (Ty.isClosed_iff_params.2 hparams)] at this

mutual

/-- **Where all parameters are bound** a value matches if it fits. -/
theorem matchValue_bound (hs : s.Closed) : ∀ (v : Value) (t : Ty),
    (∀ n ∈ t.params, s.contains n = true) → g.matchValue s t v = verdict (g.fits (t.subst s) v) s
  | .list items, _, ht => by
    rw [matchValue]
    exact matchResolved_bound hs (fun u hu => matchItems_bound hs items u hu) ht
  | .nothing, _, ht | .bool _, _, ht | .int _, _, ht | .float _, _, ht | .str _, _, ht
  | .object _, _, ht => by
    rw [matchValue]
    · exact matchResolved_bound hs (fun _ _ => rfl) ht
    · intro items h
      cases h

theorem matchItems_bound (hs : s.Closed) : ∀ (items : List Value) (t : Ty),
    (∀ n ∈ t.params, s.contains n = true) →
      g.matchItems s t items = verdict (items.all (g.fits (t.subst s))) s
  | [], _, _ => rfl
  | v :: vs, t, ht => by
    rw [matchItems, matchValue_bound hs v t ht, List.all_cons]
    cases hv : g.fits (t.subst s) v with
    | false => rfl
    | true => exact matchItems_bound hs vs t ht

end

/-- Where all parameters of the fields are bound, values match if each fits, and not else. -/
theorem matchSlots_bound (hs : s.Closed) {slots : List (Field × Value)}
    (hp : ∀ x ∈ slots, ∀ n ∈ x.1.ty.params, s.contains n = true) :
    g.matchSlots s slots = .ok s' ↔
      s' = s ∧ ∀ x ∈ slots, g.fits (x.1.ty.subst s) x.2 = true := by
  induction slots with
  | nil =>
    rw [matchSlots, Except.ok.injEq, eq_comm]
    simp
  | cons x slots ih =>
    obtain ⟨f, v⟩ := x
    have hrest := ih fun x hx => hp x (List.mem_cons_of_mem _ hx)
    rw [matchSlots, matchValue_bound hs v f.ty (hp _ List.mem_cons_self), List.forall_mem_cons]
    cases hv : g.fits (f.ty.subst s) v with
    | false => simp [verdict]
    | true => simp [verdict, hrest]

/-! ## Instances inside a value -/

end Graph

/-- The instance is the value, or inside an item of it, or inside a field of it. -/
inductive Instance.Inside (i : Instance) : Value → Prop
  | self : Inside i (.object i)
  | item {v : Value} {items : List Value} (hv : v ∈ items) (h : Inside i v) :
      Inside i (.list items)
  | field {v : Value} {j : Instance} (hv : v ∈ j.fields) (h : Inside i v) : Inside i (.object j)

namespace Graph

variable {g : Graph} {s s' : Substitution}

/-- The instances inside the value go by the names of their classes. -/
def Names (g : Graph) (v : Value) : Prop :=
  ∀ i : Instance, i.Inside v → g.lookup i.className = some i.cls

theorem Names.item {v : Value} {items : List Value} (h : g.Names (.list items)) (hv : v ∈ items) :
    g.Names v := fun i hi => h i (.item hv hi)

theorem fits_uniform {items : List Value} (h : ∀ v ∈ items, g.fits v.infer v = true) :
    g.fits (Value.uniform (items.map Value.infer)) (.list items) = true := by
  cases items with
  | nil => rfl
  | cons v vs =>
    rw [List.map_cons, Value.uniform]
    split
    · next hall =>
      have hsame : ∀ w ∈ vs, w.infer = v.infer := by simpa using hall
      simp only [fits, List.all_eq_true]
      intro w hw
      rcases List.mem_cons.1 hw with rfl | hw'
      · exact h w List.mem_cons_self
      · rw [← hsame w hw']
        exact h w hw
    · simp [fits]

mutual

/-- **Every value fits its own type.** -/
theorem fits_infer : ∀ v : Value, g.Names v → g.fits v.infer v = true
  | .nothing, _ | .bool _, _ | .int _, _ | .float _, _ | .str _, _ => rfl
  | .object i, h => by
    simp [Value.infer, fits, accepts, h i .self, isSubtype_self]
  | .list items, h => by
    rw [Value.infer, Value.inferAll_eq_map]
    exact fits_uniform (fits_inferAll items fun v hv => h.item hv)

theorem fits_inferAll : ∀ vs : List Value, (∀ v ∈ vs, g.Names v) →
    ∀ v ∈ vs, g.fits v.infer v = true
  | [], _ => by simp
  | v :: vs, h => by
    have hfirst := fits_infer v (h v List.mem_cons_self)
    have hrest := fits_inferAll vs fun w hw => h w (List.mem_cons_of_mem _ hw)
    exact List.forall_mem_cons.2 ⟨hfirst, hrest⟩

end

/-! ## What a match leaves -/

/-- The bindings `s'` have come of `s`, and under all bindings that come of `s'` and bind the names
`ns`, `P` holds. -/
structure Leaves (s s' : Substitution) (ns : List Name) (P : Substitution → Prop) : Prop where
  grows : s.Extends s'
  closed : s'.Closed
  later : ∀ s'', s'.Extends s'' → (∀ n ∈ ns, s''.contains n = true) → P s''

/-- A value that fits already leaves the bindings alone. -/
theorem leaves_of_fits (hs : s.Closed) {t : Ty} {v : Value}
    (ht : ∀ n ∈ t.params, s.contains n = true) (hv : g.fits (t.subst s) v = true) :
    Leaves s s t.params fun s'' => g.fits (t.subst s'') v = true where
  grows := .refl s
  closed := hs
  later s'' he _ := by rwa [he.subst_eq ht]

theorem matchResolved_ok (hs : s.Closed) {v : Value} (hn : g.Names v)
    {onItems : Ty → Except Substitution Substitution}
    (hitems : ∀ u, onItems u = .ok s' →
      Leaves s s' u.params fun s'' => g.fits (.list (u.subst s'')) v = true)
    {t : Ty} (ht : ¬ ∀ n ∈ t.params, s.contains n = true)
    (h : g.matchResolved s v onItems (s.resolve t) = .ok s') :
    Leaves s s' t.params fun s'' => g.fits (t.subst s'') v = true := by
  rw [hs.resolve_eq] at h
  cases t with
  | any | prim _ | named _ => simp at ht
  | list u => exact hitems u h
  | param n =>
    -- the parameter takes the type of the value
    have hfree : s.contains n = false := by simpa using ht
    have hnone : s.get? n = none := by simpa [Table.contains] using hfree
    simp only [hnone, Option.getD_none, matchResolved, hfree, Bool.false_eq_true, if_false,
      Except.ok.injEq] at h
    subst h
    refine ⟨fun m u hm => ?_, hs.insert (Value.isClosed_infer v), fun s'' he _ => ?_⟩
    · have hne : n ≠ m := by
        rintro rfl
        rw [hnone] at hm
        cases hm
      rw [Table.get?_insert_of_ne hne, hm]
    · rw [Ty.subst_param, he n _ Table.get?_insert_self]
      exact fits_infer v hn

/-- The first item is matched, and then the others, with the bindings that this has left. -/
theorem matchItems_cons_eq_ok_iff {v : Value} {vs : List Value} :
    g.matchItems s t (v :: vs) = .ok s' ↔
      ∃ s₁, g.matchValue s t v = .ok s₁ ∧ g.matchItems s₁ t vs = .ok s' := by
  rw [matchItems]
  cases g.matchValue s t v with
  | error e => simp
  | ok s₁ => simp

/-- Fields are matched one after the other in the same way. -/
theorem matchSlots_cons_eq_ok_iff {f : Field} {v : Value} {slots : List (Field × Value)} :
    g.matchSlots s ((f, v) :: slots) = .ok s' ↔
      ∃ s₁, g.matchValue s f.ty v = .ok s₁ ∧ g.matchSlots s₁ slots = .ok s' := by
  rw [matchSlots]
  cases g.matchValue s f.ty v with
  | error e => simp
  | ok s₁ => simp

mutual

/-- **A value that matches** only adds bindings, and fits under all that come of them. -/
theorem matchValue_ok {s s' : Substitution} (hs : s.Closed) : ∀ (v : Value) (t : Ty), g.Names v →
    g.matchValue s t v = .ok s' →
      Leaves s s' t.params fun s'' => g.fits (t.subst s'') v = true
  | .list items, t, hn, h => by
    by_cases ht : ∀ n ∈ t.params, s.contains n = true
    · -- nothing is bound by this match
      rw [matchValue_bound hs _ t ht, verdict_eq_ok_iff] at h
      obtain ⟨hv, rfl⟩ := h
      exact leaves_of_fits hs ht hv
    · rw [matchValue] at h
      exact matchResolved_ok hs hn (fun u hu => matchItems_ok hs items u (fun v => hn.item) hu) ht h
  | .nothing, t, hn, h | .bool _, t, hn, h | .int _, t, hn, h | .float _, t, hn, h
  | .str _, t, hn, h | .object _, t, hn, h => by
    by_cases ht : ∀ n ∈ t.params, s.contains n = true
    · rw [matchValue_bound hs _ t ht, verdict_eq_ok_iff] at h
      obtain ⟨hv, rfl⟩ := h
      exact leaves_of_fits hs ht hv
    · rw [matchValue] at h
      · exact matchResolved_ok hs hn (fun u hu => by cases hu) ht h
      · intro items hitems
        cases hitems

theorem matchItems_ok {s s' : Substitution} (hs : s.Closed) : ∀ (items : List Value) (t : Ty),
    (∀ v ∈ items, g.Names v) → g.matchItems s t items = .ok s' →
      Leaves s s' t.params fun s'' => items.all (g.fits (t.subst s'')) = true
  | [], t, _, h => by
    cases h
    exact ⟨.refl s, hs, fun _ _ _ => rfl⟩
  | v :: vs, t, hn, h => by
    obtain ⟨s₁, hv, h⟩ := matchItems_cons_eq_ok_iff.1 h
    have hfirst := matchValue_ok hs v t (hn v List.mem_cons_self) hv
    have hrest := matchItems_ok hfirst.closed vs t
      (fun w hw => hn w (List.mem_cons_of_mem _ hw)) h
    refine ⟨hfirst.grows.trans hrest.grows, hrest.closed, fun s'' he hb => ?_⟩
    rw [List.all_cons, hfirst.later s'' (hrest.grows.trans he) hb, hrest.later s'' he hb]
    rfl

end

/-- **Fields that match** only add bindings, and their values fit under all that come of them. -/
theorem matchSlots_ok {s s' : Substitution} (hs : s.Closed) {slots : List (Field × Value)}
    (hn : ∀ x ∈ slots, g.Names x.2) (h : g.matchSlots s slots = .ok s') :
    Leaves s s' (slots.flatMap fun x => x.1.ty.params) fun s'' =>
      ∀ x ∈ slots, g.fits (x.1.ty.subst s'') x.2 = true := by
  induction slots generalizing s with
  | nil =>
    cases h
    exact ⟨.refl _, hs, by simp⟩
  | cons x slots ih =>
    obtain ⟨f, v⟩ := x
    obtain ⟨s₁, hv, h⟩ := matchSlots_cons_eq_ok_iff.1 h
    have hfirst := matchValue_ok hs v f.ty (hn _ List.mem_cons_self) hv
    have hrest := ih hfirst.closed (fun y hy => hn y (List.mem_cons_of_mem _ hy)) h
    refine ⟨hfirst.grows.trans hrest.grows, hrest.closed, fun s'' he hb x hx => ?_⟩
    rw [List.flatMap_cons] at hb
    rcases List.mem_cons.1 hx with rfl | hx
    · exact hfirst.later s'' (hrest.grows.trans he) fun n hn => hb n (List.mem_append_left _ hn)
    · exact hrest.later s'' he (fun n hn => hb n (List.mem_append_right _ hn)) x hx

end Graph

end ClassGraph
