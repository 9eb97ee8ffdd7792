import ClassGraph.Proofs.Binding
import ClassGraph.Proofs.CopyExtend
import Mathlib.Data.Set.Function

/-!
# Matching under other names

Type parameters are told apart by their names, and nothing else depends on these. If parameters are
renamed in types, bounds and bindings alike, and no two of them fall together, then a match comes to
the same: it succeeds where it did, fails where it did, and binds under the new names what it bound
under the old ones. What a name is bound to, and whether it is bound at all, would get mixed up if
different parameters came to have one name.

* `Table.mapKeys`: a table under other keys.
* `Graph.matchValue_rename`, `Graph.matchSlots_rename`: **a renamed match is the match, renamed.**
* `Graph.violated?_rename`: so is a violated bound, and it stands at the same place.
* `Registry.Made.actsAs`: **a guide accepts what the constructor behind it accepts**, and infers
  the same type arguments.
* `Registry.Reachable.matching_renamed`: all of this, in every reachable registry.
-/

namespace ClassGraph

universe u v w

variable {β : Type}

/-! ## Tables under other keys -/

namespace Table

variable {κ : Type u} {κ' : Type w} {α : Type v} [DecidableEq κ'] {f : κ → κ'} {t : Table κ α}
  {ks : List κ} {k : κ} {a : α}

/-- Applies `f` to every key. Of the values of keys that fall together the last one counts. -/
def mapKeys (f : κ → κ') (t : Table κ α) : Table κ' α :=
  t.entries.foldl (fun u e => u.insert (f e.1) e.2) ∅

/-- A new key comes last. -/
theorem write_of_not_mem {k : κ'} {es : List (κ' × α)} (hk : k ∉ es.map Prod.fst) :
    write k a es = es ++ [(k, a)] := by
  induction es with
  | nil => rfl
  | cons e es ih =>
    rw [List.map_cons, List.mem_cons, not_or] at hk
    rw [write, if_neg (Ne.symm hk.1), ih hk.2, List.cons_append]

theorem entries_foldl_insert (es : List (κ × α)) (u : Table κ' α)
    (h : (u.keys ++ es.map fun e => f e.1).Nodup) :
    (es.foldl (fun u e => u.insert (f e.1) e.2) u).entries =
      u.entries ++ es.map (Prod.map f id) := by
  induction es generalizing u with
  | nil => simp
  | cons e es ih =>
    have hnew : f e.1 ∉ u.keys := fun hm =>
      (List.nodup_append.1 h).2.2 _ hm _ (List.mem_map_of_mem List.mem_cons_self) rfl
    have hentries : (u.insert (f e.1) e.2).entries = u.entries ++ [(f e.1, e.2)] :=
      write_of_not_mem hnew
    have hkeys : (u.insert (f e.1) e.2).keys = u.keys ++ [f e.1] := by
      rw [keys_insert, if_neg hnew]
    rw [List.foldl_cons, ih, hentries, List.append_assoc]
    · rfl
    · rw [hkeys, List.append_assoc]
      exact h

/-- **Keys that stay apart** keep their order and their values. -/
theorem entries_mapKeys (hf : Set.InjOn f {x | x ∈ ks}) (ht : ∀ x ∈ t.keys, x ∈ ks) :
    (t.mapKeys f).entries = t.entries.map (Prod.map f id) := by
  have hnodup : (t.keys.map f).Nodup :=
    t.nodup_keys.map_on fun x hx y hy => hf (ht x hx) (ht y hy)
  rw [keys, List.map_map] at hnodup
  exact entries_foldl_insert t.entries ∅ hnodup

theorem keys_mapKeys (hf : Set.InjOn f {x | x ∈ ks}) (ht : ∀ x ∈ t.keys, x ∈ ks) :
    (t.mapKeys f).keys = t.keys.map f := by
  rw [keys, entries_mapKeys hf ht, List.map_map, keys, List.map_map]
  rfl

variable [DecidableEq κ]

theorem find_map_keys {es : List (κ × α)} (hk : ∀ x ∈ es.map Prod.fst, f x = f k → x = k) :
    find (f k) (es.map (Prod.map f id)) = find k es := by
  induction es with
  | nil => rfl
  | cons e es ih =>
    obtain ⟨l, b⟩ := e
    rw [List.map_cons, List.forall_mem_cons] at hk
    by_cases hl : l = k
    · simp [find, hl]
    · have hne : ¬ f l = f k := fun h => hl (hk.1 h)
      simp [find, hl, hne, ih hk.2]

theorem write_map_keys {es : List (κ × α)} (hk : ∀ x ∈ es.map Prod.fst, f x = f k → x = k) :
    write (f k) a (es.map (Prod.map f id)) = (write k a es).map (Prod.map f id) := by
  induction es with
  | nil => rfl
  | cons e es ih =>
    obtain ⟨l, b⟩ := e
    rw [List.map_cons, List.forall_mem_cons] at hk
    by_cases hl : l = k
    · simp [write, hl]
    · have hne : ¬ f l = f k := fun h => hl (hk.1 h)
      simp [write, hl, hne, ih hk.2]

/-- A key that stays apart has the same value under its new name. -/
theorem get?_mapKeys (hf : Set.InjOn f {x | x ∈ ks}) (ht : ∀ x ∈ t.keys, x ∈ ks)
    (hk : k ∈ ks) : (t.mapKeys f).get? (f k) = t.get? k := by
  rw [get?, entries_mapKeys hf ht]
  exact find_map_keys fun x hx => hf (ht x hx) hk

/-- A value written under the old name stands under the new one. -/
theorem mapKeys_insert (hf : Set.InjOn f {x | x ∈ ks}) (ht : ∀ x ∈ t.keys, x ∈ ks)
    (hk : k ∈ ks) : (t.insert k a).mapKeys f = (t.mapKeys f).insert (f k) a := by
  have hkeys : ∀ x ∈ (t.insert k a).keys, x ∈ ks := by
    intro x hx
    rw [← contains_iff_mem_keys, contains_insert, Bool.or_eq_true, decide_eq_true_eq,
      contains_iff_mem_keys] at hx
    rcases hx with rfl | hx
    · exact hk
    · exact ht x hx
  have hentries : ((t.mapKeys f).insert (f k) a).entries = write (f k) a (t.mapKeys f).entries :=
    rfl
  apply Table.ext
  rw [entries_mapKeys hf hkeys, hentries, entries_mapKeys hf ht]
  exact (write_map_keys fun x hx => hf (ht x hx) hk).symm

end Table

/-! ## Renamed bindings -/

namespace Substitution

/-- Binds the renamed parameters to what the parameters stand for. -/
def rekey (f : Name → Name) (s : Substitution) : Substitution := s.mapKeys f

/-- Only these parameters are bound. -/
def Over (s : Substitution) (ns : List Name) : Prop := ∀ n ∈ s.keys, n ∈ ns

variable {f : Name → Name} {ns : List Name} {b b' : Substitution} {n : Name} {t : Ty}

theorem Over.empty : Over ∅ ns := by
  intro n hn
  cases hn

theorem Over.mem (hb : b.Over ns) (hn : b.get? n = some t) : n ∈ ns :=
  hb n (Table.contains_iff_mem_keys.1 (by rw [Table.contains, hn]; rfl))

theorem over_iff : b.Over ns ↔ ∀ n t, b.get? n = some t → n ∈ ns := by
  refine ⟨fun h n t hn => h.mem hn, fun h n hn => ?_⟩
  obtain ⟨t, ht⟩ := Option.isSome_iff_exists.1 (Table.contains_iff_mem_keys.2 hn)
  exact h n t ht

/-- What has been bound by meetings was met at some parameter. -/
theorem Binds.over {ms : List (Name × Value)} (h : b.Binds ms b') (hb : b.Over ns)
    (hms : ∀ x ∈ ms, x.1 ∈ ns) : b'.Over ns := by
  rw [over_iff]
  intro n t hn
  rw [h n, Option.or_eq_some_iff] at hn
  rcases hn with hn | ⟨-, hn⟩
  · exact hb.mem hn
  · obtain ⟨v, hv, -⟩ := Option.map_eq_some_iff.1 hn
    obtain ⟨x, hx, -⟩ := Option.map_eq_some_iff.1 hv
    obtain rfl : x.1 = n := by simpa using List.find?_some hx
    exact hms x (List.mem_of_find?_eq_some hx)

theorem get?_rekey (hf : Set.InjOn f {n | n ∈ ns}) (hb : b.Over ns) (hn : n ∈ ns) :
    (b.rekey f).get? (f n) = b.get? n := Table.get?_mapKeys hf hb hn

theorem rekey_insert (hf : Set.InjOn f {n | n ∈ ns}) (hb : b.Over ns) (hn : n ∈ ns) :
    rekey f (b.insert n t) = (b.rekey f).insert (f n) t := Table.mapKeys_insert hf hb hn

theorem keys_rekey (hf : Set.InjOn f {n | n ∈ ns}) (hb : b.Over ns) :
    (b.rekey f).keys = b.keys.map f :=
  Table.keys_mapKeys hf hb

/-- What is bound under a new name was bound under an old one. -/
theorem exists_of_get?_rekey (hf : Set.InjOn f {n | n ∈ ns}) (hb : b.Over ns) {m : Name}
    (hm : (b.rekey f).get? m = some t) : ∃ n ∈ ns, m = f n ∧ b.get? n = some t := by
  have hkey : m ∈ (b.rekey f).keys :=
    Table.contains_iff_mem_keys.1 (by rw [Table.contains, hm]; rfl)
  rw [keys_rekey hf hb] at hkey
  obtain ⟨n, hn, rfl⟩ := List.mem_map.1 hkey
  exact ⟨n, hb n hn, rfl, by rw [← get?_rekey hf hb (hb n hn), hm]⟩

theorem Closed.rekey (hc : b.Closed) (hf : Set.InjOn f {n | n ∈ ns}) (hb : b.Over ns) :
    (b.rekey f).Closed := by
  intro m t hm
  obtain ⟨n, -, -, hn⟩ := exists_of_get?_rekey hf hb hm
  exact hc n t hn

/-- Types bound by place to the renamed parameters are the types bound by place, renamed. -/
theorem rekey_bindAll (hf : Set.InjOn f {n | n ∈ ns}) (hb : b.Over ns) {ps : List TypeParam}
    (hps : ∀ p ∈ ps, p.name ∈ ns) (ts : List Ty) :
    (b.bindAll ps ts).rekey f = (b.rekey f).bindAll (ps.map (·.rename f)) ts := by
  induction ps generalizing b ts with
  | nil => rfl
  | cons p ps ih =>
    cases ts with
    | nil => rfl
    | cons t ts =>
      rw [List.forall_mem_cons] at hps
      have hover : Over (b.insert p.name t) ns := by
        rw [over_iff]
        intro n u hn
        rw [Table.get?_insert] at hn
        split at hn
        · next e => exact e ▸ hps.1
        · exact hb.mem hn
      rw [bindAll_cons, ih hover hps.2, rekey_insert hf hb hps.1]
      rfl

end Substitution

/-- A match, read under the new names. -/
def rekeyed (f : Name → Name) (m : Except Substitution Substitution) :
    Except Substitution Substitution := (m.map (·.rekey f)).mapError (·.rekey f)

theorem rekeyed_verdict (f : Name → Name) (fits : Bool) (b : Substitution) :
    rekeyed f (Graph.verdict fits b) = Graph.verdict fits (b.rekey f) := by
  cases fits <;> rfl

/-! ## A renamed match -/

/-- A value is met at the parameters of the type only. -/
theorem Ty.mem_params_of_mem_meetings {t : Ty} {v : Value} {x : Name × Value}
    (hx : x ∈ t.meetings v) : x.1 ∈ t.params := by
  induction t generalizing v with
  | any | prim _ | named _ => simp [meetings] at hx
  | param n =>
    rw [meetings, List.mem_singleton] at hx
    simp [hx]
  | list t ih =>
    cases v with
    | list items =>
      rw [meetings, List.mem_flatMap] at hx
      obtain ⟨w, -, hx⟩ := hx
      exact ih hx
    | nothing | bool _ | int _ | float _ | str _ | object _ => simp [meetings] at hx

namespace Graph

variable {g : Graph} {f : Name → Name} {ns : List Name} {b b' : Substitution} {t : Ty} {v : Value}

/-- A match binds parameters of the type only. -/
theorem over_of_matchValue (hc : b.Closed) (hb : b.Over ns) (ht : ∀ n ∈ t.params, n ∈ ns)
    (h : g.matchValue b t v = .ok b') : b'.Over ns :=
  (binds_of_matchValue t v hc h).over hb fun _ hx => ht _ (Ty.mem_params_of_mem_meetings hx)

theorem over_of_matchFields {fields : List Field} {values : List Value} (hc : b.Closed)
    (hb : b.Over ns) (ht : ∀ x ∈ fields, ∀ n ∈ x.ty.params, n ∈ ns)
    (h : g.matchFields b fields values = .ok b') : b'.Over ns := by
  refine (binds_of_matchSlots hc h).over hb fun x hx => ?_
  obtain ⟨y, hy, hx⟩ := List.mem_flatMap.1 hx
  exact ht y.1 (List.of_mem_zip hy).1 _ (Ty.mem_params_of_mem_meetings hx)

theorem matchItems_rename
    (ih : ∀ {b : Substitution} (v : Value), b.Closed → b.Over ns → (∀ n ∈ t.params, n ∈ ns) →
      g.matchValue (b.rekey f) (t.rename f) v = rekeyed f (g.matchValue b t v))
    (items : List Value) (hc : b.Closed) (hb : b.Over ns) (ht : ∀ n ∈ t.params, n ∈ ns) :
    g.matchItems (b.rekey f) (t.rename f) items = rekeyed f (g.matchItems b t items) := by
  induction items generalizing b with
  | nil => rfl
  | cons v vs ihvs =>
    rw [matchItems, matchItems, ih v hc hb ht]
    cases hv : g.matchValue b t v with
    | error e => rfl
    | ok b₁ =>
      exact ihvs ((binds_of_matchValue t v hc hv).closed hc) (over_of_matchValue hc hb ht hv)

/-- **A renamed match is the match, renamed**, whether it succeeds or fails. -/
theorem matchValue_rename (hf : Set.InjOn f {n | n ∈ ns}) (t : Ty) :
    ∀ {b : Substitution} (v : Value), b.Closed → b.Over ns → (∀ n ∈ t.params, n ∈ ns) →
      g.matchValue (b.rekey f) (t.rename f) v = rekeyed f (g.matchValue b t v) := by
  induction t with
  | any =>
    intro b v hc hb ht
    rw [Ty.rename, matchValue_any, matchValue_any]
    rfl
  | prim p =>
    intro b v hc hb ht
    rw [Ty.rename, matchValue_prim, matchValue_prim, rekeyed_verdict]
  | named n =>
    intro b v hc hb ht
    rw [Ty.rename, matchValue_node, matchValue_node, rekeyed_verdict]
  | param n =>
    intro b v hc hb ht
    have hn : n ∈ ns := ht n (by simp)
    have hget := Substitution.get?_rekey hf hb hn
    rw [Ty.rename]
    cases hbound : b.get? n with
    | none =>
      -- the new name is free if the old one is, as nothing else goes by it
      rw [matchValue_free_param hbound, matchValue_free_param (hget.trans hbound),
        ← Substitution.rekey_insert hf hb hn]
      rfl
    | some u =>
      rw [matchValue_bound_param hc hbound,
        matchValue_bound_param (hc.rekey hf hb) (hget.trans hbound), rekeyed_verdict]
  | list t ih =>
    intro b v hc hb ht
    rw [Ty.rename]
    by_cases hv : ∃ items, v = .list items
    · obtain ⟨items, rfl⟩ := hv
      rw [matchValue_list, matchValue_list]
      exact matchItems_rename ih items hc hb ht
    · have hne : ∀ items, v ≠ .list items := fun items e => hv ⟨items, e⟩
      rw [matchValue_list_of_ne hne, matchValue_list_of_ne hne]
      rfl

/-- **Fields match under the new names as under the old ones**, up to the same misfit. -/
theorem matchSlots_rename (hf : Set.InjOn f {n | n ∈ ns}) {slots : List (Field × Value)}
    (hc : b.Closed) (hb : b.Over ns) (ht : ∀ x ∈ slots, ∀ n ∈ x.1.ty.params, n ∈ ns) :
    g.matchSlots (b.rekey f) (slots.map fun x => (x.1.rename f, x.2)) =
      ((g.matchSlots b slots).map (·.rekey f)).mapError fun m =>
        ⟨m.field.rename f, m.value, m.bindings.rekey f⟩ := by
  induction slots generalizing b with
  | nil => rfl
  | cons x slots ih =>
    obtain ⟨y, v⟩ := x
    rw [List.forall_mem_cons] at ht
    rw [List.map_cons, matchSlots, matchSlots]
    simp only [Field.ty_rename, matchValue_rename hf y.ty v hc hb ht.1]
    cases hv : g.matchValue b y.ty v with
    | error e => rfl
    | ok b₁ =>
      exact ih ((binds_of_matchValue y.ty v hc hv).closed hc)
        (over_of_matchValue hc hb ht.1 hv) ht.2

theorem matchFields_rename (hf : Set.InjOn f {n | n ∈ ns}) {fields : List Field}
    (values : List Value) (hc : b.Closed) (hb : b.Over ns)
    (ht : ∀ x ∈ fields, ∀ n ∈ x.ty.params, n ∈ ns) :
    g.matchFields (b.rekey f) (fields.map (·.rename f)) values =
      ((g.matchFields b fields values).map (·.rekey f)).mapError fun m =>
        ⟨m.field.rename f, m.value, m.bindings.rekey f⟩ := by
  rw [matchFields, List.zip_map_left]
  exact matchSlots_rename hf hc hb fun x hx => ht x.1 (List.of_mem_zip hx).1

/-! ## Renamed bounds -/

/-- A bound that is not settled by the bindings is above no type without parameters, under either
name. -/
theorem isSubtypeOf_subst_rename (hf : Set.InjOn f {n | n ∈ ns}) (hb : b.Over ns) {s : Ty}
    (hs : s.isClosed = true) (ht : ∀ n ∈ t.params, n ∈ ns) :
    g.isSubtypeOf s ((t.rename f).subst (b.rekey f)) = g.isSubtypeOf s (t.subst b) := by
  induction t generalizing s with
  | any | prim _ | named _ => rfl
  | param n =>
    have hget := Substitution.get?_rekey hf hb (ht n (by simp))
    rw [Ty.rename, Ty.subst_param, Ty.subst_param, hget]
    cases b.get? n with
    | some u => rfl
    | none =>
      have hne : ∀ m, s ≠ .param m := by
        rintro m rfl
        cases hs
      simp [isSubtypeOf, hne]
  | list t ih =>
    rw [Ty.rename, Ty.subst_list, Ty.subst_list]
    cases s with
    | list s => exact ih hs ht
    | any | prim _ | named _ | param _ => rfl

/-- Does the parameter stand for a type beyond its bound? -/
def violates (g : Graph) (b : Substitution) (p : TypeParam) : Bool :=
  (b.get? p.name).any fun t => !g.isSubtypeOf t (p.bound.subst b)

/-- What is reported is the first parameter that violates its bound. -/
theorem violated?_fst (g : Graph) (b : Substitution) (ps : List TypeParam) :
    (g.violated? b ps).map Prod.fst = ps.find? (g.violates b) := by
  induction ps with
  | nil => rfl
  | cons p ps ih =>
    rw [violated?, List.find?_cons, violates]
    cases b.get? p.name with
    | none => exact ih
    | some t =>
      cases hsub : g.isSubtypeOf t (p.bound.subst b) with
      | true => simpa [hsub] using ih
      | false => simp [hsub]

theorem violates_rename (hf : Set.InjOn f {n | n ∈ ns}) (hc : b.Closed) (hb : b.Over ns)
    {p : TypeParam} (hp : p.name ∈ ns) (hbound : ∀ n ∈ p.bound.params, n ∈ ns) :
    g.violates (b.rekey f) (p.rename f) = g.violates b p := by
  rw [violates, violates, TypeParam.name_rename, Substitution.get?_rekey hf hb hp]
  cases hn : b.get? p.name with
  | none => rfl
  | some t =>
    rw [Option.any_some, Option.any_some, TypeParam.bound_rename,
      isSubtypeOf_subst_rename hf hb (hc p.name t hn) hbound]

/-- The violated bound stands at the same place. -/
theorem findIdx?_violates_rename (hf : Set.InjOn f {n | n ∈ ns}) (hc : b.Closed) (hb : b.Over ns)
    {ps : List TypeParam} (hps : ∀ p ∈ ps, p.name ∈ ns ∧ ∀ n ∈ p.bound.params, n ∈ ns) :
    (ps.map (·.rename f)).findIdx? (g.violates (b.rekey f)) = ps.findIdx? (g.violates b) := by
  rw [List.findIdx?_map]
  induction ps with
  | nil => rfl
  | cons p ps ih =>
    rw [List.forall_mem_cons] at hps
    rw [List.findIdx?_cons, List.findIdx?_cons, ih hps.2, Function.comp_apply,
      violates_rename hf hc hb hps.1.1 hps.1.2]

/-- **The violated bound of the renamed parameters** is the violated bound, renamed. -/
theorem violated?_rename (hf : Set.InjOn f {n | n ∈ ns}) (hc : b.Closed) (hb : b.Over ns)
    {ps : List TypeParam} (hps : ∀ p ∈ ps, p.name ∈ ns ∧ ∀ n ∈ p.bound.params, n ∈ ns) :
    g.violated? (b.rekey f) (ps.map (·.rename f)) =
      (g.violated? b ps).map fun x => (x.1.rename f, x.2) := by
  induction ps with
  | nil => rfl
  | cons p ps ih =>
    rw [List.forall_mem_cons] at hps
    rw [List.map_cons, violated?, violated?, TypeParam.name_rename,
      Substitution.get?_rekey hf hb hps.1.1]
    cases hn : b.get? p.name with
    | none => exact ih hps.2
    | some t =>
      simp only [TypeParam.bound_rename,
        isSubtypeOf_subst_rename hf hb (hc p.name t hn) hps.1.2]
      split
      · exact ih hps.2
      · rfl

theorem withinBounds_rename (hf : Set.InjOn f {n | n ∈ ns}) (hc : b.Closed) (hb : b.Over ns)
    {ps : List TypeParam} (hps : ∀ p ∈ ps, p.name ∈ ns ∧ ∀ n ∈ p.bound.params, n ∈ ns) :
    g.WithinBounds (b.rekey f) (ps.map (·.rename f)) ↔ g.WithinBounds b ps := by
  unfold WithinBounds
  rw [← violated?_eq_none_iff, ← violated?_eq_none_iff, violated?_rename hf hc hb hps,
    Option.map_eq_none_iff]

/-- A parameter says as little under one name as under another. -/
theorem specificity_rename (g : Graph) (f : Name → Name) (t : Ty) :
    g.specificity (t.rename f) = g.specificity t := by
  induction t with
  | list t ih => rw [Ty.rename, specificity, specificity, ih]
  | any | prim _ | named _ | param _ => rfl

end Graph

/-! ## Renamings as substitutions -/

namespace Substitution

/-- **A renaming**: each parameter that it knows stands for a parameter, and no two for the same. -/
structure IsRenaming (ρ : Substitution) : Prop where
  param : ∀ n t, ρ.get? n = some t → ∃ m, t = .param m
  inj : ∀ n n' t, ρ.get? n = some t → ρ.get? n' = some t → n = n'

/-- The name of the parameter that a parameter stands for. -/
def newName (ρ : Substitution) (n : Name) : Name :=
  match ρ.get? n with
  | some (.param m) => m
  | _ => n

variable {ρ : Substitution}

theorem IsRenaming.get?_eq (h : ρ.IsRenaming) {n : Name} (hn : n ∈ ρ.keys) :
    ρ.get? n = some (.param (ρ.newName n)) := by
  obtain ⟨t, ht⟩ := Option.isSome_iff_exists.1 (Table.contains_iff_mem_keys.2 hn)
  obtain ⟨m, rfl⟩ := h.param n t ht
  rw [newName, ht]

/-- One parameter alone cannot fall together with another one. -/
theorem isRenaming_single (n m : Name) : IsRenaming (Table.insert ∅ n (.param m)) where
  param k t hk := by
    rw [Table.get?_insert] at hk
    split at hk
    · exact ⟨m, (Option.some.inj hk).symm⟩
    · cases hk
  inj k k' t hk hk' := by
    rw [Table.get?_insert] at hk hk'
    split at hk
    · split at hk'
      next e e' => exact e.symm.trans e'
      · cases hk'
    · cases hk

theorem IsRenaming.injOn (h : ρ.IsRenaming) : Set.InjOn ρ.newName {n | n ∈ ρ.keys} := by
  intro m hm n hn he
  refine h.inj m n _ (h.get?_eq hm) ?_
  rw [he, h.get?_eq hn]

/-- In a type over the parameters that it knows, a renaming renames. -/
theorem IsRenaming.subst_eq (h : ρ.IsRenaming) {t : Ty} (ht : ∀ n ∈ t.params, n ∈ ρ.keys) :
    t.subst ρ = t.rename ρ.newName :=
  Ty.subst_eq_rename fun n hn => h.get?_eq (ht n hn)

end Substitution

namespace Graph

/-- **Matching from the bindings `b` does not depend on names**: the renaming `ρ` of types, bounds
and bindings changes nothing but names. -/
structure Invariant (g : Graph) (ρ b : Substitution) : Prop where
  value : ∀ t v, (∀ n ∈ t.params, n ∈ ρ.keys) →
    g.matchValue (b.rekey ρ.newName) (t.subst ρ) v = rekeyed ρ.newName (g.matchValue b t v)
  /-- What is bound by then is bound under the new names, key by key. -/
  bindings : ∀ t v b', (∀ n ∈ t.params, n ∈ ρ.keys) → g.matchValue b t v = .ok b' →
    (b'.rekey ρ.newName).keys = b'.keys.map ρ.newName ∧
      ∀ n ∈ ρ.keys, (b'.rekey ρ.newName).get? (ρ.newName n) = b'.get? n
  fields : ∀ (fields : List Field) values, (∀ x ∈ fields, ∀ n ∈ x.ty.params, n ∈ ρ.keys) →
    (g.matchFields (b.rekey ρ.newName) (fields.map fun x => ⟨x.name, x.ty.subst ρ⟩)
        values).toOption =
      (g.matchFields b fields values).toOption.map (·.rekey ρ.newName)
  /-- What is reported of some parameters is the first one that violates its bound, -/
  reported : ∀ s ps, (g.violated? s ps).map Prod.fst = ps.find? (g.violates s)
  /-- and it stands at the same place among the renamed ones, if there is one. -/
  bounds : ∀ ps : List TypeParam,
    (∀ p ∈ ps, p.name ∈ ρ.keys ∧ ∀ n ∈ p.bound.params, n ∈ ρ.keys) →
    g.violated? (b.rekey ρ.newName) (ps.map fun p => ⟨ρ.newName p.name, p.bound.subst ρ⟩) =
        (g.violated? b ps).map (fun x => (⟨ρ.newName x.1.name, x.1.bound.subst ρ⟩, x.2)) ∧
      (ps.map fun p => ⟨ρ.newName p.name, p.bound.subst ρ⟩).findIdx?
        (g.violates (b.rekey ρ.newName)) = ps.findIdx? (g.violates b)
  specificity : ∀ t, (∀ n ∈ t.params, n ∈ ρ.keys) → g.specificity (t.subst ρ) = g.specificity t

variable {g : Graph} {ρ b : Substitution}

/-- **A renaming changes nothing but names.** -/
theorem invariant (hρ : ρ.IsRenaming) (hc : b.Closed) (hb : b.Over ρ.keys) : g.Invariant ρ b where
  value t v ht := by
    rw [hρ.subst_eq ht]
    exact matchValue_rename hρ.injOn t v hc hb ht
  bindings t v b' ht h := by
    have hb' : b'.Over ρ.keys := over_of_matchValue hc hb ht h
    exact ⟨Substitution.keys_rekey hρ.injOn hb', fun n => Substitution.get?_rekey hρ.injOn hb'⟩
  fields fields values ht := by
    have hrenamed : (fields.map fun x => (⟨x.name, x.ty.subst ρ⟩ : Field)) =
        fields.map (·.rename ρ.newName) :=
      List.map_congr_left fun x hx => by rw [hρ.subst_eq (ht x hx), Field.rename]
    rw [hrenamed, matchFields_rename hρ.injOn values hc hb ht]
    cases g.matchFields b fields values <;> rfl
  reported := g.violated?_fst
  bounds ps hps := by
    have hrename : ∀ p ∈ ps,
        (⟨ρ.newName p.name, p.bound.subst ρ⟩ : TypeParam) = p.rename ρ.newName :=
      fun p hp => by rw [hρ.subst_eq (hps p hp).2, TypeParam.rename]
    rw [List.map_congr_left hrename, violated?_rename hρ.injOn hc hb hps]
    refine ⟨?_, findIdx?_violates_rename hρ.injOn hc hb hps⟩
    refine Option.map_congr fun x hx => ?_
    rw [hrename x.1 (violated?_eq_some hx).1]
  specificity t ht := by rw [hρ.subst_eq ht, specificity_rename]

end Graph

/-! ## Guides -/

/-- **The constructor `e` of the class `d` acts as `c` of the class `s` does**: it accepts the same
arguments and infers the same type arguments from them. -/
structure Graph.ActsAs (g : Graph) (d s : ClassDef β) (e c : Constructor β) : Prop where
  accepts : ∀ args, g.Applicable d none args e ↔ g.Applicable s none args c
  /-- The parameters at the same place of the two classes stand for the same type, or for none. -/
  infers : ∀ args σ, g.matchFields ∅ c.params args = .ok σ →
    ∃ σ', g.matchFields ∅ e.params args = .ok σ' ∧ ∀ (k : Nat) p q, s.typeParams[k]? = some p →
      d.typeParams[k]? = some q → σ'.get? q.name = σ.get? p.name
  /-- With type arguments those of them count that belong to `s`. -/
  accepts_given : ∀ ts args, (∀ t ∈ ts, t.isClosed = true) → g.Admits d (some ts) →
    (g.Applicable d (some ts) args e ↔
      g.Applicable s (some (ts.take s.typeParams.length)) args c)

theorem Substitution.bindAll_append (σ : Substitution) (ps qs : List TypeParam) (ts : List Ty) :
    σ.bindAll (ps ++ qs) ts =
      (σ.bindAll ps (ts.take ps.length)).bindAll qs (ts.drop ps.length) := by
  induction ps generalizing σ ts with
  | nil => rfl
  | cons p ps ih =>
    cases ts with
    | nil => simp
    | cons t ts =>
      simp only [List.cons_append, List.length_cons, List.take_succ_cons, List.drop_succ_cons,
        bindAll_cons]
      exact ih (σ.insert p.name t) ts

namespace Registry

variable {r : Registry β} {id : TypeId} {d s : ClassDef β} {decl : ClassDecl β} {o : Outline β}
  {h : Heritage} {n k : Nat} {c : Constructor β} {g : Graph} {args : List Value}

/-- The heritage renames if, and only if, the fresh names stay apart. -/
theorem injOn_freshName {sup : Option TypeId}
    (hρ : (s.layout.passOn sup ⟨n, ∅⟩).substitution.IsRenaming) :
    Set.InjOn (freshName n) {m | m ∈ s.layout.paramNames} := by
  have hget : ∀ m ∈ s.layout.paramNames,
      (s.layout.passOn sup ⟨n, ∅⟩).substitution.get? m = some (.param (freshName n m)) := by
    intro m hm
    rw [Layout.get?_passOn_substitution, if_pos hm]
  intro m hm m' hm' he
  refine hρ.inj m m' _ (hget m hm) ?_
  rw [he, hget m' hm']

/-- The parameters of a guide are those of the constructor behind it, renamed. -/
theorem params_toGuide (hs : s.Closed) (hc : c ∈ s.constructors) {sup : Option TypeId} :
    (c.toGuide (s.layout.passOn sup ⟨n, ∅⟩).substitution k).params =
      c.params.map (·.rename (freshName n)) :=
  List.map_congr_left fun p hp => by
    rw [Layout.subst_passOn (hs.constructor hc hp), Field.rename]

/-- The parameters of the class are those of the superclass, renamed, and its own. -/
theorem Extends.typeParams_eq (he : r.Extends decl d s h n) :
    d.typeParams = s.typeParams.map (·.rename (freshName n)) ++ decl.typeParams := by
  rw [ClassDef.typeParams, he.typeParams, he.params]
  rfl

/-- Type arguments bound to the parameters of the class are bound to those of the superclass, under
their fresh names. -/
theorem Made.get?_ofArgs (hm : r.Made decl o h d) (he : r.Extends decl d s h n)
    (hf : Set.InjOn (freshName n) {m | m ∈ s.layout.paramNames}) (ts : List Ty) {m : Name}
    (hmem : m ∈ s.layout.paramNames) :
    (Substitution.ofArgs d.typeParams ts).get? (freshName n m) =
      (Substitution.ofArgs s.typeParams (ts.take s.typeParams.length)).get? m := by
  have hnames : ∀ p ∈ s.typeParams, p.name ∈ s.layout.paramNames := fun p => List.mem_map_of_mem
  have hover : (Substitution.ofArgs s.typeParams (ts.take s.typeParams.length)).Over
      s.layout.paramNames := by
    rw [Substitution.over_iff]
    intro m t hm
    by_contra hne
    have hfree : m ∉ s.typeParams.map (·.name) := hne
    rw [Substitution.ofArgs, Substitution.get?_bindAll_of_not_mem hfree] at hm
    cases hm
  rw [Substitution.ofArgs, he.typeParams_eq, Substitution.bindAll_append,
    Substitution.get?_bindAll_of_not_mem (hm.freshName_not_mem n m), List.length_map,
    ← Substitution.get?_rekey hf hover hmem, Substitution.ofArgs,
    Substitution.rekey_bindAll hf .empty hnames]
  rfl

/-- So they are carried over, whatever else is declared. -/
theorem Made.carries_ofArgs (hm : r.Made decl o h d) (he : r.Extends decl d s h n)
    (hf : Set.InjOn (freshName n) {m | m ∈ s.layout.paramNames}) {ts : List Ty}
    (hlen : ts.length = d.typeParams.length) :
    Substitution.Carries (freshName n) s.layout
      (.ofArgs s.typeParams (ts.take s.typeParams.length)) (.ofArgs d.typeParams ts) := by
  intro m hmem
  obtain ⟨u, hu⟩ := Option.isSome_iff_exists.1
    (Substitution.contains_bindAll (s := ∅) (List.length_take_of_le (he.length_le hlen)) hmem)
  exact ⟨u, hu, (hm.get?_ofArgs he hf ts hmem).trans hu⟩

/-- The bounds of the class hold under the new names just when those of the superclass do: nothing
is bound to the parameters that the class declares itself. -/
theorem Made.withinBounds_rekey (hm : r.Made decl o h d) (he : r.Extends decl d s h n)
    (hf : Set.InjOn (freshName n) {m | m ∈ s.layout.paramNames}) (hs : s.layout.Closed)
    {σ : Substitution} (hc : σ.Closed) (ho : σ.Over s.layout.paramNames) :
    g.WithinBounds (σ.rekey (freshName n)) d.typeParams ↔ g.WithinBounds σ s.typeParams := by
  have hps : ∀ p ∈ s.typeParams, p.name ∈ s.layout.paramNames ∧
      ∀ m ∈ p.bound.params, m ∈ s.layout.paramNames :=
    fun p hp => ⟨List.mem_map_of_mem hp, hs.bound hp⟩
  rw [← Graph.withinBounds_rename hf hc ho hps, Graph.WithinBounds, he.typeParams_eq,
    List.forall_mem_append]
  refine and_iff_left fun p hp t ht => ?_
  obtain ⟨m, -, hname, -⟩ := Substitution.exists_of_get?_rekey hf ho ht
  exact absurd (hname ▸ List.mem_map_of_mem hp) (hm.freshName_not_mem n m)

/-- Without type arguments a guide matches what the constructor behind it matches, and binds the
same under the new names. -/
theorem matchFields_toGuide (hs : s.Closed) (hc : c ∈ s.constructors) {sup : Option TypeId}
    (hf : Set.InjOn (freshName n) {m | m ∈ s.layout.paramNames}) {σ' : Substitution} :
    g.matchFields ∅ (c.toGuide (s.layout.passOn sup ⟨n, ∅⟩).substitution k).params args = .ok σ' ↔
      ∃ σ, g.matchFields ∅ c.params args = .ok σ ∧ σ' = σ.rekey (freshName n) := by
  have hrename : g.matchFields ∅ (c.params.map (·.rename (freshName n))) args = _ :=
    Graph.matchFields_rename hf args .empty .empty fun x hx => hs.constructor hc hx
  rw [params_toGuide hs hc, hrename]
  cases g.matchFields ∅ c.params args with
  | error m => simp [Except.map, Except.mapError]
  | ok σ => simp [Except.map, Except.mapError, eq_comm]

/-- With all parameters bound beforehand the arguments match just when each fits. -/
theorem matchFields_ofArgs {fields : List Field}
    (hp : ∀ x ∈ fields, ∀ m ∈ x.ty.params, m ∈ s.layout.paramNames) {ts : List Ty}
    (hts : ∀ t ∈ ts, t.isClosed = true) (hlen : ts.length = s.typeParams.length)
    {σ : Substitution} :
    g.matchFields (.ofArgs s.typeParams ts) fields args = .ok σ ↔
      σ = .ofArgs s.typeParams ts ∧ ∀ x ∈ fields.zip args,
        g.fits (x.1.ty.subst (.ofArgs s.typeParams ts)) x.2 = true :=
  Graph.matchSlots_bound (Substitution.Closed.empty.bindAll _ hts) fun _ hx _ hm =>
    Substitution.contains_bindAll hlen (hp _ (List.of_mem_zip hx).1 _ hm)

/-- **With type arguments** a guide accepts what the constructor behind it accepts with those of
them that belong to the superclass. -/
theorem Made.applicable_given (hm : r.Made decl o h d) (hr : r.OK)
    (hg : h = o.superDef.layout.passOn o.superDef.superclass ⟨n, ∅⟩)
    (hf : Set.InjOn (freshName n) {m | m ∈ o.superDef.layout.paramNames})
    (hc : c ∈ o.superDef.constructors) {ts : List Ty} (hts : ∀ t ∈ ts, t.isClosed = true)
    (hadm : g.Admits d (some ts)) :
    g.Applicable d (some ts) args (c.toGuide h.substitution k) ↔
      g.Applicable o.superDef (some (ts.take o.superDef.typeParams.length)) args c := by
  have he := hm.extends_of_passOn hr hg
  have hs := hr.closed hm.superDef
  obtain ⟨hlen, hwithin⟩ := hadm ts rfl
  have hlens : (ts.take o.superDef.typeParams.length).length = o.superDef.typeParams.length :=
    List.length_take_of_le (he.length_le hlen)
  have hcarries := hm.carries_ofArgs he hf hlen
  have hparams : ∀ x ∈ c.params, ∀ m ∈ x.ty.params, m ∈ o.superDef.layout.paramNames :=
    fun x hx => hs.constructor hc hx
  have hguide : ∀ x ∈ (c.toGuide h.substitution k).params, ∀ m ∈ x.ty.params,
      m ∈ d.layout.paramNames := by
    intro x hx
    obtain ⟨y, hy, rfl⟩ := List.mem_map.1 hx
    exact hm.params_subst hr (hparams y hy)
  have hclosed : ∀ t ∈ ts.take o.superDef.typeParams.length, t.isClosed = true :=
    fun t ht => hts t (List.mem_of_mem_take ht)
  -- on both sides everything is bound, and the same types have to be fitted
  have hfits : (∀ x ∈ (c.toGuide h.substitution k).params.zip args,
      g.fits (x.1.ty.subst (.ofArgs d.typeParams ts)) x.2 = true) ↔
      ∀ x ∈ c.params.zip args, g.fits (x.1.ty.subst
        (.ofArgs o.superDef.typeParams (ts.take o.superDef.typeParams.length))) x.2 = true := by
    rw [hg, params_toGuide hs hc, List.zip_map_left, List.forall_mem_map]
    refine forall₂_congr fun x hx => ?_
    rw [Prod.map_fst, Prod.map_snd, Field.ty_rename,
      hcarries.subst_eq (hparams x.1 (List.of_mem_zip hx).1), id]
  constructor
  · intro happ
    obtain ⟨σ, hσ, -⟩ := happ.fits
    have hall := ((matchFields_ofArgs hguide hts hlen).1 hσ).2
    exact ⟨happ.parametrized, (c.arity_toGuide _ k).symm.trans happ.arity, _,
      (matchFields_ofArgs hparams hclosed hlens).2 ⟨rfl, hfits.1 hall⟩,
      hcarries.withinBounds he.begins hs.layout hwithin⟩
  · intro happ
    obtain ⟨σ, hσ, -⟩ := happ.fits
    have hall := ((matchFields_ofArgs hparams hclosed hlens).1 hσ).2
    exact ⟨happ.parametrized, (c.arity_toGuide _ k).trans happ.arity, _,
      (matchFields_ofArgs hguide hts hlen).2 ⟨rfl, hfits.2 hall⟩, hwithin⟩

/-- **A guide acts as the constructor behind it**, if no two inherited parameters fall together. -/
theorem Made.actsAs (hm : r.Made decl o h d) (hr : r.OK) (hρ : h.substitution.IsRenaming)
    (hc : c ∈ o.superDef.constructors) (k : Nat) :
    g.ActsAs d o.superDef (c.toGuide h.substitution k) c := by
  obtain ⟨n, hg⟩ := hm.passOn hr
  have he := hm.extends_of_passOn hr hg
  have hf : Set.InjOn (freshName n) {m | m ∈ o.superDef.layout.paramNames} :=
    injOn_freshName (hg ▸ hρ)
  have hs := hr.closed hm.superDef
  have hover {args : List Value} {σ : Substitution} (hσ : g.matchFields ∅ c.params args = .ok σ) :
      σ.Over o.superDef.layout.paramNames :=
    Graph.over_of_matchFields .empty .empty (fun x hx => hs.constructor hc hx) hσ
  have hmatch {args : List Value} {σ' : Substitution} :
      g.matchFields ∅ (c.toGuide h.substitution k).params args = .ok σ' ↔
        ∃ σ, g.matchFields ∅ c.params args = .ok σ ∧ σ' = σ.rekey (freshName n) := by
    rw [hg]
    exact matchFields_toGuide hs hc hf
  refine ⟨fun args => ⟨fun happ => ?_, fun happ => ?_⟩, fun args σ hσ => ?_,
    fun ts args hts hadm => hm.applicable_given hr hg hf hc hts hadm⟩
  · obtain ⟨σ', hσ', hw⟩ := happ.fits
    obtain ⟨σ, hσ, rfl⟩ := hmatch.1 hσ'
    have hclosed : σ.Closed := (Graph.binds_of_matchSlots .empty hσ).closed .empty
    exact ⟨happ.parametrized, (c.arity_toGuide _ k).symm.trans happ.arity, σ,
      hσ, (hm.withinBounds_rekey he hf hs.layout hclosed (hover hσ)).1 hw⟩
  · obtain ⟨σ, hσ, hw⟩ := happ.fits
    have hclosed : σ.Closed := (Graph.binds_of_matchSlots .empty hσ).closed .empty
    exact ⟨happ.parametrized, (c.arity_toGuide _ k).trans happ.arity, _,
      hmatch.2 ⟨σ, hσ, rfl⟩, (hm.withinBounds_rekey he hf hs.layout hclosed (hover hσ)).2 hw⟩
  · refine ⟨_, hmatch.2 ⟨σ, hσ, rfl⟩, fun i p q hp hq => ?_⟩
    have hq' : d.typeParams[i]? = some (p.rename (freshName n)) := he.begins.getElem?_typeParams hp
    obtain rfl : p.rename (freshName n) = q := Option.some.inj (hq'.symm.trans hq)
    exact Substitution.get?_rekey hf (hover hσ) (List.mem_map_of_mem (List.mem_of_getElem? hp))

/-- **Matching does not depend on the names of parameters.** In every reachable registry a renaming
of types, bounds and closed bindings changes nothing but names. So a constructor of the superclass,
put into the parameters that the class has inherited, acts as before, unless two of these have
fallen together. -/
theorem Reachable.matching_renamed (hr : r.Reachable) :
    (∀ ρ b : Substitution, ρ.IsRenaming → b.Closed → b.Over ρ.keys → r.graph.Invariant ρ b) ∧
      ∀ id sup d s h, r.classDef? id = some d → d.superclass = some sup →
        r.classDef? sup = some s → (r.heritage sup).1 = .ok h → h.substitution.IsRenaming →
        ∀ c ∈ s.constructors, ∀ k, r.graph.ActsAs d s (c.toGuide h.substitution k) c := by
  refine ⟨fun ρ b => Graph.invariant, ?_⟩
  intro id sup d s h hd hsup hs hh hρ c hc k
  obtain ⟨decl, o, h', hm, hsup'⟩ := hr.ok.made_on hd hsup
  obtain rfl : s = o.superDef := Option.some.inj (hs.symm.trans hsup')
  -- the class has inherited what is still passed on
  obtain rfl : h' = h := by
    have hkept := heritage_of_get? hm.heritage
    rw [hr.ok.id_eq hs] at hkept
    rw [hkept] at hh
    exact Except.ok.inj hh
  exact hm.actsAs hr.ok hρ hc k

end Registry

/-! ## Parcels -/

/-- The first constructor of the crate, with `Int` as type argument, takes two integers and no
string. -/
theorem applicable_depot : ∃ s e, depot.registry.classDef? 2 = some s ∧ s.typeParams.length = 1 ∧
    s.constructors[0]? = some e ∧
    depot.registry.graph.Applicable s (some [.prim .int]) [.int 1, .int 2] e ∧
    ¬ depot.registry.graph.Applicable s (some [.prim .int]) [.int 1, .str "two"] e := by
  have hcheck : ((depot.registry.classDef? 2).bind fun s => s.constructors[0]?.map fun e =>
      [[Value.int 1, .int 2], [.int 1, .str "two"]].map fun args =>
        depot.registry.graph.isApplicable s.typeParams (some (.ofArgs s.typeParams [.prim .int]))
          args e) = some [true, false] := by decide +kernel
  obtain ⟨s, w', hs, hlen, -⟩ := packed_depot
  rw [hs, Option.bind_some] at hcheck
  obtain ⟨e, he, hcheck⟩ := Option.map_eq_some_iff.1 hcheck
  simp only [List.map_cons, List.map_nil, List.cons.injEq, and_true, ← Bool.not_eq_true] at hcheck
  exact ⟨s, e, hs, hlen, he, Graph.isApplicable_iff.1 hcheck.1,
    fun happ => hcheck.2 (Graph.isApplicable_iff.2 happ)⟩

/-- A parcel takes what a crate takes and refuses what a crate refuses; and the string that stands
for `T` is beyond the bound under the other name too. -/
theorem matching_renamed_depot : ∃ (c : ClassDef Body) (h : Heritage) (e : Constructor Body),
    depot.registry.classDef? 4 = some c ∧
    (depot.registry.heritage 2).1 = .ok h ∧
    depot.registry.graph.Applicable c (some [.prim .int, .prim .str]) [.int 1, .int 2]
      (e.toGuide h.substitution 0) ∧
    ¬ depot.registry.graph.Applicable c (some [.prim .int, .prim .str]) [.int 1, .str "two"]
      (e.toGuide h.substitution 0) ∧
    depot.registry.graph.violated? (Table.insert ∅ "T#1" (.prim .str))
      [⟨"T#1", .prim .number⟩] = some (⟨"T#1", .prim .number⟩, .prim .str) := by
  obtain ⟨hinv, hacts⟩ := reachable_depot.matching_renamed
  obtain ⟨s, e, hs, hlen, he, hok, hno⟩ := applicable_depot
  obtain ⟨c, -, hc, hsup, -, -, -, -, hadm⟩ := parcel_depot
  have hsub : (depot.registry.heritage 2).1.map (·.substitution) =
      .ok (Table.insert ∅ "T" (.param "T#1")) := by decide +kernel
  obtain ⟨h, hh, hsub⟩ : ∃ h, (depot.registry.heritage 2).1 = .ok h ∧
      h.substitution = Table.insert ∅ "T" (.param "T#1") := by
    cases hh : (depot.registry.heritage 2).1 with
    | error err => simp [hh, Except.map] at hsub
    | ok h => exact ⟨h, rfl, by simpa [hh, Except.map] using hsub⟩
  have hρ : h.substitution.IsRenaming := hsub ▸ Substitution.isRenaming_single "T" "T#1"
  have hguide := hacts 4 2 c s h hc hsup hs hh hρ e (List.mem_of_getElem? he) 0
  have htake : [Ty.prim .int, .prim .str].take s.typeParams.length = [.prim .int] := by
    rw [hlen]
    rfl
  have hsame (args : List Value) :=
    hguide.accepts_given [.prim .int, .prim .str] args (by simp [Ty.isClosed]) hadm
  simp only [htake] at hsame
  -- what violates the bound of `T` violates the bound of `T#1`
  have hbound := (hinv _ (Table.insert ∅ "T" (.prim .str))
    (Substitution.isRenaming_single "T" "T#1")
    (Substitution.Closed.empty.insert rfl) (by unfold Substitution.Over; decide)).bounds
      [⟨"T", .prim .number⟩] (by decide)
  exact ⟨c, h, e, hc, hh, (hsame _).2 hok, fun happ => hno ((hsame _).1 happ), hbound.1⟩

end ClassGraph
