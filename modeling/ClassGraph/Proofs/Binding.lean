import ClassGraph.Proofs.Growth

/-!
# What a match binds

A match goes through the arguments from left to right, and through the items of each list before
what comes after it. On this way it meets values at type parameters. The first value that is met at
a parameter settles what the parameter stands for, unless it has stood for something before; the
values met later are only checked. So a second match of the same arguments finds everything settled.

* `Ty.meetings`: the values that are met at parameters, in their order; `Substitution.Binds`: what
  they bind.
* `Graph.binds_of_matchValue`, `Graph.binds_of_matchSlots`: **a match that succeeds binds just what
  it meets.**
* `Graph.matchValue_again`, `Graph.matchSlots_again`: **matched again, values bind nothing.**
* `Graph.matchWithin`: the recursion that follows a parameter into what it stands for, within a
  depth of calls; `Graph.matchWithin_eq`: **it ends**, whatever the parameters stand for, if they
  do not stand for each other.
* `Registry.Reachable.binds_first_met`: all of this, for arguments made of the instances of a
  registry.
-/

namespace ClassGraph

variable {β : Type}

/-! ## Meetings -/

/-- The values that stand at type parameters when a value is matched with the type, in the order in
which they are met. -/
def Ty.meetings : Ty → Value → List (Name × Value)
  | .param n, v => [(n, v)]
  | .list t, .list items => items.flatMap t.meetings
  | _, _ => []

/-- The same for the values of several fields. -/
def slotMeetings (slots : List (Field × Value)) : List (Name × Value) :=
  slots.flatMap fun x => x.1.ty.meetings x.2

/-- The first value that is met at the parameter. -/
def firstMet (ms : List (Name × Value)) (n : Name) : Option Value :=
  (ms.find? (·.1 = n)).map (·.2)

theorem firstMet_append (ms ms' : List (Name × Value)) (n : Name) :
    firstMet (ms ++ ms') n = (firstMet ms n).or (firstMet ms' n) := by
  unfold firstMet
  rw [List.find?_append]
  cases ms.find? (·.1 = n) <;> rfl

namespace Substitution

variable {s s₁ s' : Substitution} {ms ms' : List (Name × Value)} {n : Name} {v : Value}

/-- **Meetings bind** each parameter that is not bound yet to the type of the first value met at it,
and nothing else. -/
def Binds (s : Substitution) (ms : List (Name × Value)) (s' : Substitution) : Prop :=
  ∀ n, s'.get? n = (s.get? n).or ((firstMet ms n).map Value.infer)

theorem Binds.nil (s : Substitution) : s.Binds [] s := by
  intro n
  simp [firstMet]

/-- What has been met before counts first. -/
theorem Binds.append (h : s.Binds ms s₁) (h' : s₁.Binds ms' s') : s.Binds (ms ++ ms') s' := by
  intro n
  rw [h' n, h n, firstMet_append, Option.map_or, Option.or_assoc]

/-- A parameter that is bound already keeps its binding. -/
theorem Binds.bound (h : s.contains n = true) (v : Value) : s.Binds [(n, v)] s := by
  intro m
  by_cases hnm : n = m
  · obtain ⟨t, ht⟩ := Option.isSome_iff_exists.1 h
    rw [← hnm, ht]
    rfl
  · simp [firstMet, hnm]

/-- A parameter that is not bound yet is bound at once. -/
theorem Binds.free (h : s.get? n = none) (v : Value) : s.Binds [(n, v)] (s.insert n v.infer) := by
  intro m
  by_cases hnm : n = m
  · rw [← hnm, Table.get?_insert_self, h]
    simp [firstMet]
  · rw [Table.get?_insert_of_ne hnm]
    simp [firstMet, hnm]

theorem Binds.extends (h : s.Binds ms s') : s.Extends s' := by
  intro n t hn
  rw [h n, hn]
  rfl

/-- Inferred types have no parameters in them. -/
theorem Binds.closed (h : s.Binds ms s') (hs : s.Closed) : s'.Closed := by
  intro n t hn
  rw [h n, Option.or_eq_some_iff] at hn
  rcases hn with hn | ⟨-, hn⟩
  · exact hs n t hn
  · obtain ⟨v, -, rfl⟩ := Option.map_eq_some_iff.1 hn
    exact Value.isClosed_infer v

end Substitution

/-! ## Matching by the type -/

namespace Graph

variable {g : Graph} {s s' s'' : Substitution} {n : Name} {v : Value}

theorem matchValue_any : g.matchValue s .any v = .ok s := by
  cases v <;> rfl

theorem matchValue_prim {p : Prim} : g.matchValue s (.prim p) v = verdict (p.accepts v) s := by
  cases v <;> rfl

theorem matchValue_node : g.matchValue s (.named n) v = verdict (g.accepts n v) s := by
  cases v <;> rfl

theorem matchValue_list {t : Ty} {items : List Value} :
    g.matchValue s (.list t) (.list items) = g.matchItems s t items := by
  rw [matchValue]
  rfl

theorem matchValue_list_of_ne {t : Ty} (hv : ∀ items, v ≠ .list items) :
    g.matchValue s (.list t) v = .error s := by
  cases v with
  | list items => exact absurd rfl (hv items)
  | nothing | bool _ | int _ | float _ | str _ | object _ => rfl

/-- **Without parameters** a value matches if it fits, and nothing is bound. -/
theorem matchValue_of_isClosed {t : Ty} (ht : t.isClosed = true) :
    g.matchValue s t v = verdict (g.fits t v) s := by
  induction t generalizing v with
  | any => exact matchValue_any
  | prim p => exact matchValue_prim
  | named n => exact matchValue_node
  | param n => cases ht
  | list t ih =>
    cases v with
    | list items =>
      rw [matchValue_list, fits]
      induction items with
      | nil => rfl
      | cons w ws ihws =>
        rw [matchItems, ih ht, List.all_cons]
        cases hw : g.fits t w with
        | false => rfl
        | true => exact ihws
    | nothing | bool _ | int _ | float _ | str _ | object _ => rfl

/-- A parameter that stands for a type matches what that type matches. -/
theorem matchValue_bound_param (hs : s.Closed) {u : Ty} (hn : s.get? n = some u) :
    g.matchValue s (.param n) v = verdict (g.fits u v) s := by
  have hbound : ∀ m ∈ (Ty.param n).params, s.contains m = true := by
    intro m hm
    rw [Ty.params_param, List.mem_singleton] at hm
    rw [hm, Table.contains, hn]
    rfl
  rw [matchValue_bound hs v (.param n) hbound, Ty.subst_param, hn]
  rfl

/-- A parameter that stands for nothing takes the type of the value. -/
theorem matchValue_free_param (hn : s.get? n = none) :
    g.matchValue s (.param n) v = .ok (s.insert n v.infer) := by
  have hfree : s.contains n = false := by
    rw [Table.contains, hn]
    rfl
  have hresolve : s.resolve (.param n) = .param n := by
    simp [Substitution.resolve, Substitution.follow, hn]
  have hresolved : ∀ onItems,
      g.matchResolved s v onItems (.param n) = .ok (s.insert n v.infer) := by
    intro onItems
    simp [matchResolved, hfree]
  cases v with
  | list items => rw [matchValue, hresolve, hresolved]
  | nothing | bool _ | int _ | float _ | str _ | object _ =>
    rw [matchValue, hresolve, hresolved]
    intro items h
    cases h

/-! ## What is bound -/

theorem binds_of_matchItems {t : Ty}
    (ht : ∀ {s s' : Substitution} (v : Value), s.Closed → g.matchValue s t v = .ok s' →
      s.Binds (t.meetings v) s')
    (items : List Value) (hs : s.Closed) (h : g.matchItems s t items = .ok s') :
    s.Binds (items.flatMap t.meetings) s' := by
  induction items generalizing s with
  | nil =>
    cases h
    exact .nil _
  | cons v vs ih =>
    obtain ⟨s₁, hv, h⟩ := matchItems_cons_eq_ok_iff.1 h
    have hfirst := ht v hs hv
    exact hfirst.append (ih (hfirst.closed hs) h)

/-- **A value that matches binds what is met in it**, where no parameter stands for another one. -/
theorem binds_of_matchValue (t : Ty) : ∀ {s s' : Substitution} (v : Value), s.Closed →
    g.matchValue s t v = .ok s' → s.Binds (t.meetings v) s' := by
  induction t with
  | any =>
    intro s s' v hs h
    rw [matchValue_any] at h
    cases h
    exact .nil _
  | prim p =>
    intro s s' v hs h
    rw [matchValue_prim] at h
    obtain ⟨-, rfl⟩ := verdict_eq_ok_iff.1 h
    exact .nil _
  | named n =>
    intro s s' v hs h
    rw [matchValue_node] at h
    obtain ⟨-, rfl⟩ := verdict_eq_ok_iff.1 h
    exact .nil _
  | param n =>
    intro s s' v hs h
    cases hn : s.get? n with
    | none =>
      rw [matchValue_free_param hn] at h
      cases h
      exact .free hn v
    | some u =>
      rw [matchValue_bound_param hs hn] at h
      obtain ⟨-, rfl⟩ := verdict_eq_ok_iff.1 h
      exact .bound (by rw [Table.contains, hn]; rfl) v
  | list t ih =>
    intro s s' v hs h
    by_cases hv : ∃ items, v = .list items
    · obtain ⟨items, rfl⟩ := hv
      rw [matchValue_list] at h
      exact binds_of_matchItems ih items hs h
    · rw [matchValue_list_of_ne fun items e => hv ⟨items, e⟩] at h
      cases h

theorem binds_of_matchSlots {slots : List (Field × Value)} (hs : s.Closed)
    (h : g.matchSlots s slots = .ok s') : s.Binds (slotMeetings slots) s' := by
  induction slots generalizing s with
  | nil =>
    cases h
    exact .nil _
  | cons x slots ih =>
    obtain ⟨f, v⟩ := x
    obtain ⟨s₁, hv, h⟩ := matchSlots_cons_eq_ok_iff.1 h
    have hfirst := binds_of_matchValue f.ty v hs hv
    exact hfirst.append (ih (hfirst.closed hs) h)

/-! ## Matching again -/

theorem matchItems_again {t : Ty}
    (ht : ∀ {s s' s'' : Substitution} (v : Value), s.Closed → g.Names v →
      g.matchValue s t v = .ok s' → s''.Closed → s'.Extends s'' → g.matchValue s'' t v = .ok s'')
    (items : List Value) (hs : s.Closed) (hn : ∀ v ∈ items, g.Names v)
    (h : g.matchItems s t items = .ok s') (hs'' : s''.Closed) (he : s'.Extends s'') :
    g.matchItems s'' t items = .ok s'' := by
  induction items generalizing s with
  | nil => rfl
  | cons v vs ih =>
    obtain ⟨s₁, hv, h⟩ := matchItems_cons_eq_ok_iff.1 h
    have hclosed : s₁.Closed := (binds_of_matchValue t v hs hv).closed hs
    have hgrows : s₁.Extends s' :=
      (binds_of_matchItems (binds_of_matchValue t) vs hclosed h).extends
    rw [matchItems, ht v hs (hn v List.mem_cons_self) hv hs'' (hgrows.trans he)]
    exact ih hclosed (fun w hw => hn w (List.mem_cons_of_mem v hw)) h

/-- **Matched again, a value binds nothing**, whatever more is bound then. Where nothing has been
met, as in an empty list, parameters may still be free. -/
theorem matchValue_again (t : Ty) : ∀ {s s' s'' : Substitution} (v : Value), s.Closed → g.Names v →
    g.matchValue s t v = .ok s' → s''.Closed → s'.Extends s'' →
      g.matchValue s'' t v = .ok s'' := by
  induction t with
  | any =>
    intro s s' s'' v hs hn h hs'' he
    exact matchValue_any
  | prim p =>
    intro s s' s'' v hs hn h hs'' he
    rw [matchValue_prim] at h ⊢
    exact verdict_eq_ok_iff.2 ⟨(verdict_eq_ok_iff.1 h).1, rfl⟩
  | named n =>
    intro s s' s'' v hs hn h hs'' he
    rw [matchValue_node] at h ⊢
    exact verdict_eq_ok_iff.2 ⟨(verdict_eq_ok_iff.1 h).1, rfl⟩
  | param n =>
    intro s s' s'' v hs hnames h hs'' he
    cases hn : s.get? n with
    | none =>
      -- the parameter stands for the type of this very value
      rw [matchValue_free_param hn] at h
      cases h
      rw [matchValue_bound_param hs'' (he n _ Table.get?_insert_self), fits_infer v hnames]
      rfl
    | some u =>
      rw [matchValue_bound_param hs hn] at h
      obtain ⟨hv, rfl⟩ := verdict_eq_ok_iff.1 h
      rw [matchValue_bound_param hs'' (he n u hn), hv]
      rfl
  | list t ih =>
    intro s s' s'' v hs hn h hs'' he
    by_cases hv : ∃ items, v = .list items
    · obtain ⟨items, rfl⟩ := hv
      rw [matchValue_list] at h ⊢
      exact matchItems_again ih items hs (fun w => hn.item) h hs'' he
    · rw [matchValue_list_of_ne fun items e => hv ⟨items, e⟩] at h
      cases h

/-- **Matched again, fields bind nothing**, neither one by one nor all in turn. -/
theorem matchSlots_again {slots : List (Field × Value)} (hs : s.Closed)
    (hn : ∀ x ∈ slots, g.Names x.2) (h : g.matchSlots s slots = .ok s') (hs'' : s''.Closed)
    (he : s'.Extends s'') :
    (∀ x ∈ slots, g.matchValue s'' x.1.ty x.2 = .ok s'') ∧ g.matchSlots s'' slots = .ok s'' := by
  induction slots generalizing s with
  | nil => exact ⟨by simp, rfl⟩
  | cons x slots ih =>
    obtain ⟨f, v⟩ := x
    obtain ⟨s₁, hv, h⟩ := matchSlots_cons_eq_ok_iff.1 h
    have hclosed : s₁.Closed := (binds_of_matchValue f.ty v hs hv).closed hs
    have hgrows : s₁.Extends s' := (binds_of_matchSlots hclosed h).extends
    have hfirst : g.matchValue s'' f.ty v = .ok s'' :=
      matchValue_again f.ty v hs (hn _ List.mem_cons_self) hv hs'' (hgrows.trans he)
    obtain ⟨hall, hrest⟩ := ih hclosed (fun y hy => hn y (List.mem_cons_of_mem _ hy)) h
    rw [matchSlots, hfirst]
    exact ⟨List.forall_mem_cons.2 ⟨hfirst, hall⟩, hrest⟩

end Graph

/-! ## The depth of the recursion -/

mutual

/-- How many lists lie inside one another in the value. -/
def Value.nesting : Value → Nat
  | .list items => Value.nestingAll items + 1
  | _ => 0

/-- The same for the deepest of several values. -/
def Value.nestingAll : List Value → Nat
  | [] => 0
  | v :: vs => max v.nesting (Value.nestingAll vs)

end

theorem Value.nesting_le {v : Value} {vs : List Value} (hv : v ∈ vs) :
    v.nesting ≤ Value.nestingAll vs := by
  induction vs with
  | nil => cases hv
  | cons w vs ih =>
    rw [nestingAll]
    rcases List.mem_cons.1 hv with rfl | hv
    · exact Nat.le_max_left _ _
    · exact Nat.le_trans (ih hv) (Nat.le_max_right _ _)

/-- One step after the other, as long as they succeed. There is no outcome if one of them has
none. -/
def inTurn {α ε : Type} (step : Substitution → α → Option (Except ε Substitution)) :
    Substitution → List α → Option (Except ε Substitution)
  | s, [] => some (.ok s)
  | s, x :: xs =>
    match step s x with
    | some (.ok s) => inTurn step s xs
    | outcome => outcome

namespace Graph

/-- Matching by a recursion that follows a parameter into what it stands for, as far as the calls
lie no deeper inside one another than `depth`; beyond it there is no outcome. -/
def matchWithin (g : Graph) : Nat → Substitution → Ty → Value →
    Option (Except Substitution Substitution)
  | 0, _, _, _ => none
  | depth + 1, s, t, v =>
    match t with
    | .any => some (.ok s)
    | .prim p => some (verdict (p.accepts v) s)
    | .named n => some (verdict (g.accepts n v) s)
    | .param n =>
      match s.get? n with
      | some u => g.matchWithin depth s u v
      | none => some (.ok (s.insert n v.infer))
    | .list u =>
      match v with
      | .list items => inTurn (fun s w => g.matchWithin depth s u w) s items
      | _ => some (.error s)

/-- The same for the values of several fields. -/
def matchFieldsWithin (g : Graph) (depth : Nat) (s : Substitution) (fields : List Field)
    (values : List Value) : Option (Except Misfit Substitution) :=
  inTurn (fun s x => (g.matchWithin depth s x.1.ty x.2).map (·.mapError (⟨x.1, x.2, ·⟩))) s
    (fields.zip values)

variable {g : Graph} {s : Substitution} {n : Name} {depth : Nat}

/-- A parameter that stands for itself is followed for ever. -/
theorem matchWithin_circle (hn : s.get? n = some (.param n)) (v : Value) (depth : Nat) :
    g.matchWithin depth s (.param n) v = none := by
  induction depth with
  | zero => rfl
  | succ depth ih =>
    rw [matchWithin]
    simp only [hn, ih]

theorem inTurn_items {step : Substitution → Value → Option (Except Substitution Substitution)}
    {t : Ty} {items : List Value}
    (hstep : ∀ s : Substitution, s.Closed → ∀ v ∈ items, step s v = some (g.matchValue s t v))
    (hs : s.Closed) : inTurn step s items = some (g.matchItems s t items) := by
  induction items generalizing s with
  | nil => rfl
  | cons v vs ih =>
    rw [inTurn, matchItems, hstep s hs v List.mem_cons_self]
    cases hv : g.matchValue s t v with
    | error e => rfl
    | ok s₁ =>
      have hclosed : s₁.Closed := (binds_of_matchValue t v hs hv).closed hs
      exact ih (fun s hs w hw => hstep s hs w (List.mem_cons_of_mem v hw)) hclosed

/-- One more list needs one more call. -/
theorem matchWithin_list {t : Ty} {k : Nat}
    (ht : ∀ {s : Substitution}, s.Closed → ∀ (v : Value) (depth : Nat), v.nesting + k < depth →
      g.matchWithin depth s t v = some (g.matchValue s t v))
    (hs : s.Closed) (v : Value) (hd : v.nesting + k < depth) :
    g.matchWithin depth s (.list t) v = some (g.matchValue s (.list t) v) := by
  obtain ⟨depth, rfl⟩ : ∃ d, depth = d + 1 := ⟨depth - 1, by omega⟩
  by_cases hv : ∃ items, v = .list items
  · obtain ⟨items, rfl⟩ := hv
    rw [matchWithin, matchValue_list]
    apply inTurn_items _ hs
    intro s hs w hw
    have hle : w.nesting ≤ Value.nestingAll items := Value.nesting_le hw
    rw [Value.nesting] at hd
    exact ht hs w depth (by omega)
  · rw [matchValue_list_of_ne fun items e => hv ⟨items, e⟩, matchWithin]
    intro items e
    exact hv ⟨items, e⟩

/-- At a type without parameters each call lies inside one more list than the one before it. -/
theorem matchWithin_of_isClosed {t : Ty} (ht : t.isClosed = true) : ∀ {s : Substitution},
    s.Closed → ∀ (v : Value) (depth : Nat), v.nesting < depth →
      g.matchWithin depth s t v = some (g.matchValue s t v) := by
  induction t with
  | any =>
    intro s hs v depth hd
    obtain ⟨depth, rfl⟩ : ∃ d, depth = d + 1 := ⟨depth - 1, by omega⟩
    rw [matchWithin, matchValue_any]
  | prim p =>
    intro s hs v depth hd
    obtain ⟨depth, rfl⟩ : ∃ d, depth = d + 1 := ⟨depth - 1, by omega⟩
    rw [matchWithin, matchValue_prim]
  | named n =>
    intro s hs v depth hd
    obtain ⟨depth, rfl⟩ : ∃ d, depth = d + 1 := ⟨depth - 1, by omega⟩
    rw [matchWithin, matchValue_node]
  | param n => cases ht
  | list t ih =>
    intro s hs v depth hd
    exact matchWithin_list (k := 0) (ih ht) hs v hd

/-- **The recursion ends**, at most one call deeper than at a type without parameters: no parameter
leads on to another one. -/
theorem matchWithin_eq (t : Ty) : ∀ {s : Substitution}, s.Closed → ∀ (v : Value) (depth : Nat),
    v.nesting + 1 < depth → g.matchWithin depth s t v = some (g.matchValue s t v) := by
  induction t with
  | any | prim _ | named _ =>
    intro s hs v depth hd
    exact matchWithin_of_isClosed rfl hs v depth (by omega)
  | param n =>
    intro s hs v depth hd
    obtain ⟨depth, rfl⟩ : ∃ d, depth = d + 1 := ⟨depth - 1, by omega⟩
    rw [matchWithin]
    cases hn : s.get? n with
    | none => simp only [matchValue_free_param hn]
    | some u =>
      have hu : u.isClosed = true := hs n u hn
      have hfollow : g.matchWithin depth s u v = some (g.matchValue s u v) :=
        matchWithin_of_isClosed hu hs v depth (by omega)
      simp only [hfollow]
      rw [matchValue_bound_param hs hn, matchValue_of_isClosed hu]
  | list t ih =>
    intro s hs v depth hd
    exact matchWithin_list ih hs v hd

theorem matchFieldsWithin_eq {fields : List Field} {values : List Value} (hs : s.Closed)
    (hd : ∀ v ∈ values, v.nesting + 1 < depth) :
    g.matchFieldsWithin depth s fields values = some (g.matchFields s fields values) := by
  unfold matchFieldsWithin matchFields
  have hslots : ∀ x ∈ fields.zip values, x.2.nesting + 1 < depth :=
    fun x hx => hd x.2 (List.of_mem_zip hx).2
  generalize fields.zip values = slots at hslots ⊢
  induction slots generalizing s with
  | nil => rfl
  | cons x slots ih =>
    obtain ⟨f, v⟩ := x
    rw [inTurn, matchSlots, matchWithin_eq f.ty hs v depth (hslots (f, v) List.mem_cons_self)]
    cases hv : g.matchValue s f.ty v with
    | error e => rfl
    | ok s₁ =>
      have hclosed : s₁.Closed := (binds_of_matchValue f.ty v hs hv).closed hs
      exact ih hclosed fun y hy => hslots y (List.mem_cons_of_mem _ hy)

/-! ## Arguments of a registry -/

/-- **What a match of arguments has bound**, from `b` to `b'`. -/
structure Binding (g : Graph) (params : List Field) (args : List Value) (b b' : Substitution) :
    Prop where
  kept : b.Extends b'
  /-- Everything else is bound to the type of the first value met there. -/
  first : ∀ n, b.get? n = none →
    b'.get? n = (firstMet (slotMeetings (params.zip args)) n).map Value.infer
  closed : b'.Closed
  /-- Each argument matches again, whatever else is bound, and binds nothing. -/
  again : ∀ b'' : Substitution, b''.Closed → b'.Extends b'' → ∀ x ∈ params.zip args,
    g.matchValue b'' x.1.ty x.2 = .ok b''
  twice : ∀ b'' : Substitution, b''.Closed → b'.Extends b'' →
    g.matchFields b'' params args = .ok b''

end Graph

namespace Registry

variable {r : Registry β} {args : List Value} {b : Substitution}

/-- A list is made of the instances of a registry if its items are. -/
theorem owns_list {items : List Value} (h : ∀ v ∈ items, r.Owns v) : r.Owns (.list items) := by
  intro i hi
  cases hi with
  | item hv hi => exact h _ hv i hi

/-- **Binding goes by first occurrence, adds only and stays.** A match of arguments that are made of
the instances of a reachable registry ends, as far as no parameter stands for another one at the
start. It keeps all bindings, binds the other parameters to the types of the first values met at
them, and nothing changes when it is made again. -/
theorem Reachable.binds_first_met (hr : r.Reachable) (params : List Field)
    (hargs : ∀ v ∈ args, r.Owns v) (hb : b.Closed) :
    (∀ depth, (∀ v ∈ args, v.nesting + 1 < depth) →
      r.graph.matchFieldsWithin depth b params args = some (r.graph.matchFields b params args)) ∧
    ∀ b', r.graph.matchFields b params args = .ok b' → r.graph.Binding params args b b' := by
  refine ⟨fun depth hd => Graph.matchFieldsWithin_eq hb hd, fun b' h => ?_⟩
  have hnames : ∀ x ∈ params.zip args, r.graph.Names x.2 :=
    fun x hx => hr.ok.names_of_owns (hargs x.2 (List.of_mem_zip hx).2)
  have hbinds : b.Binds (slotMeetings (params.zip args)) b' := Graph.binds_of_matchSlots hb h
  have hagain : ∀ b'' : Substitution, b''.Closed → b'.Extends b'' →
      (∀ x ∈ params.zip args, r.graph.matchValue b'' x.1.ty x.2 = .ok b'') ∧
        r.graph.matchSlots b'' (params.zip args) = .ok b'' :=
    fun b'' hc he => Graph.matchSlots_again hb hnames h hc he
  refine ⟨hbinds.extends, fun n hn => ?_, hbinds.closed hb, fun b'' hc he => (hagain b'' hc he).1,
    fun b'' hc he => (hagain b'' hc he).2⟩
  rw [hbinds n, hn]
  rfl

/-! ## Horses, a number and nobody -/

/-- Parameters of three types, the first of which comes up twice. -/
def guestParams : List Field := [⟨"guests", .list (.param "T")⟩, ⟨"host", .param "T"⟩,
  ⟨"stalls", .param "U"⟩, ⟨"waiting", .list (.param "V")⟩]

/-- Arguments for them; nobody is waiting. -/
def guestArgs : List Value :=
  [.list [.object horse, .object horse], .object horse, .int 3, .list []]

/-- `U` is bound at the start. -/
def guestBindings : Substitution := Table.empty.insert "U" (.prim .number)

theorem owns_guestArgs : ∀ v ∈ guestArgs, stable.Owns v := by
  intro v hv
  simp only [guestArgs, List.mem_cons, List.not_mem_nil, or_false] at hv
  rcases hv with rfl | rfl | rfl | rfl
  · exact owns_list (by simp [owns_horse])
  · exact owns_horse
  · intro i hi
    cases hi
  · exact owns_list (by simp)

/-- The horses settle what `T` stands for, `U` stands for `Number` all along, and nothing settles
`V`. -/
theorem binds_first_met_stable : ∃ b',
    stable.graph.matchFieldsWithin 3 guestBindings guestParams guestArgs = some (.ok b') ∧
    stable.graph.Binding guestParams guestArgs guestBindings b' ∧
    b'.get? "T" = some (.named "Horse") ∧ b'.get? "U" = some (.prim .number) ∧
    b'.get? "V" = none := by
  have hb : guestBindings.Closed := Substitution.Closed.empty.insert rfl
  obtain ⟨hends, hbinds⟩ := reachable_stable.binds_first_met guestParams owns_guestArgs hb
  have hdepth : ∀ v ∈ guestArgs, v.nesting + 1 < 3 := by
    simp [guestArgs, Value.nesting, Value.nestingAll]
  have hmatch : (stable.graph.matchFields guestBindings guestParams guestArgs).toOption.isSome =
      true := by decide +kernel
  cases hm : stable.graph.matchFields guestBindings guestParams guestArgs with
  | error m =>
    rw [hm] at hmatch
    cases hmatch
  | ok b' =>
    have hbinding := hbinds b' hm
    refine ⟨b', (hends 3 hdepth).trans (congrArg some hm), hbinding, ?_, ?_, ?_⟩
    · exact hbinding.first "T" rfl
    · exact hbinding.kept "U" _ rfl
    · exact hbinding.first "V" rfl

end Registry

end ClassGraph
