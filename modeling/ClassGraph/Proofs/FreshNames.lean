import ClassGraph.Proofs.WriteOnce
import Mathlib.Logic.Function.Iterate

/-!
# Fresh names stay fresh

A fresh name is made of the base name, the separator and the number of the scope. It can be read
back: what stands before the first separator is the base name, and what stands behind it the number,
as the digits of different numbers differ. So names from different scopes differ, whatever is
renamed, names that are fresh already included; and within a scope base names decide.

* `freshName_eq_iff`: **a fresh name tells its scope and its base name.**
* `Naming`: scopes opened one after the other, and names renamed in any of them, in any order;
  `Naming.run_spec`: **what a whole run calls fresh** is named after its scope.
* `HeritageStore.NamedApart`: heritages that are kept do not share names;
  `HeritageStore.NamedApart.heritage`: one question keeps to that.
* `Registry.fresh_names_apart`: **no name is made fresh twice**, in a run of calls and in a
  registry.
-/

namespace ClassGraph

variable {β : Type}

/-! ## The text of a fresh name -/

theorem separator_not_mem_repr (g : Nat) : separator ∉ (Nat.repr g).toList := by
  intro h
  rw [Nat.toList_repr] at h
  exact absurd (Nat.isDigit_of_mem_toDigits (by decide) (by decide) h) (by decide)

/-- Different numbers have different digits. -/
theorem repr_inj {g g' : Nat} (h : (Nat.repr g).toList = (Nat.repr g').toList) : g = g' := by
  rw [Nat.toList_repr, Nat.toList_repr] at h
  have hread := congrArg (fun ds => Nat.ofDigitChars 10 ds 0) h
  simpa using hread

/-- **A fresh name tells its scope and its base name.** -/
theorem freshName_eq_iff {g g' : Nat} {m n : Name} :
    freshName g m = freshName g' n ↔ g = g' ∧ baseName m = baseName n := by
  constructor
  · intro h
    have hbase : baseName m = baseName n := by
      rw [← baseName_freshName g m, h, baseName_freshName]
    -- what is left behind the base name and the separator are the digits
    rw [← String.toList_inj, toList_freshName, toList_freshName, hbase] at h
    have hdigits : (Nat.repr g).toList = (Nat.repr g').toList :=
      (List.cons.inj (List.append_cancel_left h)).2
    exact ⟨repr_inj hdigits, hbase⟩
  · rintro ⟨rfl, h⟩
    exact freshName_inj_iff.2 h

/-- **The separator stands in a fresh name once**, also if the name was fresh before. -/
theorem count_separator_freshName (g : Nat) (n : Name) :
    (freshName g n).toList.count separator = 1 := by
  rw [toList_freshName, List.count_append, List.count_cons_self,
    List.count_eq_zero.2 (separator_not_mem_baseName n),
    List.count_eq_zero.2 (separator_not_mem_repr g)]

/-- A fresh name is none that does without the separator. -/
theorem freshName_ne {n : Name} (hn : separator ∉ n.toList) (g : Nat) (m : Name) :
    freshName g m ≠ n := by
  rintro rfl
  rw [← List.count_eq_zero, count_separator_freshName] at hn
  cases hn

/-! ## Runs of calls -/

/-- What can be asked of a source of fresh names. -/
inductive NamingCall
  | openScope
  /-- Renames the name in the scope that was opened as number `k`, counted from 0. -/
  | rename (k : Nat) (n : Name)

/-- Does the call open a scope? -/
def NamingCall.opens : NamingCall → Bool
  | openScope => true
  | rename _ _ => false

/-- A name that has been made fresh in one of the scopes. -/
structure Renamed where
  scope : Nat
  name : Name
  fresh : Name

/-- A source of fresh names and the scopes that it has opened, in their order. -/
structure Naming where
  source : Fresh
  scopes : List Scope

namespace Naming

/-- No scope has been opened. -/
def start : Naming := ⟨.start, []⟩

/-- One call, with the name that it makes fresh. Nothing is renamed in a scope that has not been
opened. -/
def step (s : Naming) : NamingCall → List Renamed × Naming
  | .openScope =>
    let (scope, source) := s.source.openScope
    ([], ⟨source, s.scopes ++ [scope]⟩)
  | .rename k n =>
    match s.scopes[k]? with
    | none => ([], s)
    | some scope =>
      let (m, scope) := scope.rename n
      ([⟨k, n, m⟩], { s with scopes := s.scopes.set k scope })

/-- Calls one after the other, with all names that they make fresh. -/
def run (s : Naming) : List NamingCall → List Renamed × Naming
  | [] => ([], s)
  | c :: cs =>
    let (xs, s) := s.step c
    let (ys, s) := s.run cs
    (xs ++ ys, s)

/-- **The scopes are in order**: they are numbered from 1 in the order in which they were opened,
and each remembers only what it has made fresh itself. -/
structure InOrder (s : Naming) : Prop where
  next : s.source.next = s.scopes.length + 1
  scope : ∀ k scope, s.scopes[k]? = some scope → scope.generation = k + 1 ∧ scope.Uniform

theorem inOrder_start : start.InOrder := ⟨rfl, by simp [start]⟩

variable {s : Naming}

/-- One call leaves the scopes in order, and what it makes fresh is named after its scope. -/
theorem InOrder.step (h : s.InOrder) (c : NamingCall) :
    (s.step c).2.InOrder ∧ (∀ x ∈ (s.step c).1, x.fresh = freshName (x.scope + 1) x.name) ∧
      (s.step c).2.scopes.length = s.scopes.length + if c.opens then 1 else 0 := by
  cases c with
  | openScope =>
    refine ⟨⟨?_, fun k scope hk => ?_⟩, ?_, ?_⟩
    · simp [Naming.step, Fresh.openScope, h.next]
    · simp only [Naming.step, List.getElem?_append] at hk
      split at hk
      · exact h.scope k scope hk
      next hlt =>
        obtain ⟨hk', rfl⟩ := List.getElem?_eq_some_iff.1 hk
        have hlast : k = s.scopes.length := by simp at hk'; omega
        simp only [List.getElem_singleton]
        rw [hlast, ← h.next]
        exact ⟨rfl, Scope.uniform_open _⟩
    · intro x hx
      cases hx
    · simp [Naming.step, NamingCall.opens]
  | rename k n =>
    rw [Naming.step]
    cases hk : s.scopes[k]? with
    | none => exact ⟨h, by simp, rfl⟩
    | some scope =>
      obtain ⟨hgen, huniform⟩ := h.scope k scope hk
      refine ⟨⟨by simp [h.next], fun j other hj => ?_⟩, ?_, by simp [NamingCall.opens]⟩
      · rw [List.getElem?_set] at hj
        split at hj
        next hkj =>
          obtain ⟨-, rfl⟩ : _ ∧ (scope.rename n).2 = other := by simpa using hj
          exact ⟨by rw [Scope.rename_generation, hgen, hkj], Scope.rename_uniform huniform n⟩
        · exact h.scope j other hj
      · simp only [List.mem_singleton]
        rintro x rfl
        rw [Scope.rename_fst huniform, hgen]

/-- **What a whole run makes fresh** is named after its scope. -/
theorem InOrder.run (h : s.InOrder) (cs : List NamingCall) :
    (s.run cs).2.InOrder ∧ (∀ x ∈ (s.run cs).1, x.fresh = freshName (x.scope + 1) x.name) ∧
      (s.run cs).2.scopes.length = s.scopes.length + cs.countP (·.opens) := by
  induction cs generalizing s with
  | nil => exact ⟨h, by simp [Naming.run], rfl⟩
  | cons c cs ih =>
    obtain ⟨hstep, hfresh, hlen⟩ := h.step c
    obtain ⟨hrun, hrest, hlen'⟩ := ih hstep
    refine ⟨hrun, fun x hx => ?_, ?_⟩
    · rcases List.mem_append.1 hx with hx | hx
      · exact hfresh x hx
      · exact hrest x hx
    · rw [Naming.run, hlen', hlen, List.countP_cons]
      omega

end Naming

/-- **The names keep apart** that have been made fresh. -/
structure KeepApart (xs : List Renamed) : Prop where
  /-- Names from different scopes never coincide. -/
  scopes : ∀ x ∈ xs, ∀ y ∈ xs, x.scope ≠ y.scope → x.fresh ≠ y.fresh
  /-- Within a scope they do if the base names do. -/
  bases : ∀ x ∈ xs, ∀ y ∈ xs, x.scope = y.scope →
    (x.fresh = y.fresh ↔ baseName x.name = baseName y.name)
  stable : ∀ x ∈ xs, ∀ y ∈ xs, x.scope = y.scope → x.name = y.name → x.fresh = y.fresh
  base : ∀ x ∈ xs, baseName x.fresh = baseName x.name
  once : ∀ x ∈ xs, x.fresh.toList.count separator = 1
  new : ∀ x ∈ xs, ∀ n : Name, separator ∉ n.toList → x.fresh ≠ n

theorem keepApart {xs : List Renamed} (h : ∀ x ∈ xs, x.fresh = freshName (x.scope + 1) x.name) :
    KeepApart xs where
  scopes x hx y hy hne := by
    rw [h x hx, h y hy]
    intro he
    exact hne (Nat.succ.inj (freshName_eq_iff.1 he).1)
  bases x hx y hy hs := by
    rw [h x hx, h y hy, hs]
    exact freshName_inj_iff
  stable x hx y hy hs hn := by rw [h x hx, h y hy, hs, hn]
  base x hx := by rw [h x hx, baseName_freshName]
  once x hx := by rw [h x hx, count_separator_freshName]
  new x hx n hn := by
    rw [h x hx]
    exact freshName_ne hn _ _

/-- A counter of 32 bits that starts at 1, until it turns over. -/
theorem toNat_iterate_add_one {k : Nat} (hk : k + 1 < UInt32.size) :
    ((· + 1)^[k] (1 : UInt32)).toNat = k + 1 := by
  induction k with
  | zero => rfl
  | succ k ih =>
    rw [Function.iterate_succ_apply', UInt32.toNat_add, ih (by omega)]
    exact Nat.mod_eq_of_lt hk

/-! ## Heritages -/

/-- **The heritages that are kept do not share names**: all their parameters go by fresh names, with
numbers that have been given out, and no two heritages have one in common. -/
structure HeritageStore.NamedApart (s : HeritageStore) : Prop where
  given : ∀ id h, s.get? id = some h → ∀ p ∈ h.params, ∃ g m, g < s.fresh.next ∧
    p.name = freshName g m
  apart : ∀ c d h h', c ≠ d → s.get? c = some h → s.get? d = some h' →
    ∀ p ∈ h.params, ∀ q ∈ h'.params, p.name ≠ q.name

/-- One more heritage is named apart if it has a number of its own. -/
theorem HeritageStore.NamedApart.insert {s : HeritageStore} (hs : s.NamedApart) {id : TypeId}
    {h : Heritage} {fresh : Fresh} (hle : s.fresh.next ≤ fresh.next)
    (hnew : ∀ p ∈ h.params, s.fresh.next < fresh.next ∧ ∃ m, p.name = freshName s.fresh.next m) :
    HeritageStore.NamedApart ⟨s.kept.insert id h, fresh⟩ := by
  have hcases : ∀ {c k}, HeritageStore.get? ⟨s.kept.insert id h, fresh⟩ c = some k →
      (c = id ∧ k = h) ∨ s.get? c = some k := by
    intro c k hk
    rw [HeritageStore.get?, Table.get?_insert] at hk
    split at hk
    next e => exact .inl ⟨e.symm, (Option.some.inj hk).symm⟩
    · exact .inr hk
  -- an older heritage has smaller numbers
  have hold : ∀ {c k}, s.get? c = some k → ∀ p ∈ k.params, ∀ q ∈ h.params, p.name ≠ q.name := by
    intro c k hk p hp q hq he
    obtain ⟨g, m, hg, hpm⟩ := hs.given c k hk p hp
    obtain ⟨-, m', hqm⟩ := hnew q hq
    rw [hpm, hqm] at he
    exact Nat.ne_of_lt hg (freshName_eq_iff.1 he).1
  refine ⟨fun c k hk p hp => ?_, fun c d k k' hne hk hk' p hp q hq => ?_⟩
  · rcases hcases hk with ⟨-, rfl⟩ | hk
    · obtain ⟨hlt, m, hm⟩ := hnew p hp
      exact ⟨_, m, hlt, hm⟩
    · obtain ⟨g, m, hg, hm⟩ := hs.given c k hk p hp
      exact ⟨g, m, Nat.lt_of_lt_of_le hg hle, hm⟩
  · rcases hcases hk with ⟨hc, hkh⟩ | hk <;> rcases hcases hk' with ⟨hd, hkh'⟩ | hk'
    · exact absurd (hc.trans hd.symm) hne
    · exact (hold hk' q hq p (hkh ▸ hp)).symm
    · exact hold hk p hp q (hkh' ▸ hq)
    · exact hs.apart c d k k' hne hk hk' p hp q hq

namespace Registry

variable {r r' : Registry β} {id : TypeId} {h : Heritage} {fresh fresh' : Fresh}

/-- **A heritage is worked out under a number of its own**, or it has no parameters. -/
theorem computeHeritage_params (hr : r.OK) (hc : r.computeHeritage id fresh = (.ok h, fresh')) :
    fresh.next ≤ fresh'.next ∧
      ∀ p ∈ h.params, fresh.next < fresh'.next ∧ ∃ m, p.name = freshName fresh.next m := by
  unfold computeHeritage at hc
  split at hc
  · obtain ⟨rfl, rfl⟩ : Heritage.empty = h ∧ fresh = fresh' := by simpa using hc
    exact ⟨Nat.le_refl _, by simp [Heritage.empty]⟩
  split at hc
  next d hd =>
    obtain ⟨rfl, rfl⟩ : d.layout.passOn d.superclass ⟨fresh.next, ∅⟩ = h ∧
        ⟨fresh.next + 1⟩ = fresh' := by simpa [Fresh.openScope] using hc
    refine ⟨Nat.le_succ _, fun p hp => ⟨Nat.lt_succ_self _, ?_⟩⟩
    rw [Layout.passOn_params (hr.closed hd).layout] at hp
    obtain ⟨q, -, rfl⟩ := List.mem_map.1 hp
    exact ⟨q.name, rfl⟩
  split at hc
  next owner _ =>
    obtain ⟨hh, rfl⟩ := Prod.mk.inj hc
    obtain ⟨sup, -, rfl⟩ := map_eq_ok_iff.1 hh
    exact ⟨Nat.le_refl _, by simp [Heritage.empty]⟩
  · cases hc

/-- One request leaves the heritages named apart. -/
theorem namedApart_after (hr : r.OK) (hn : r.heritages.NamedApart) (q : Request β) :
    (r.after q).heritages.NamedApart := by
  rcases addsHeritage_after r q with he | ⟨id, h, fresh, hc, he⟩ <;> rw [he]
  · exact hn
  · obtain ⟨hle, hnew⟩ := computeHeritage_params hr hc
    exact hn.insert hle hnew

/-- All requests do. -/
theorem Reachable.namedApart (hr : r.Reachable) : r.heritages.NamedApart := by
  obtain ⟨s, r₀, hs, hl⟩ := hr
  induction hl with
  | refl =>
    obtain ⟨-, rfl⟩ := new_eq hs
    exact ⟨fun id h hget => (by cases hget), fun c d h h' _ hget => (by cases hget)⟩
  | step hl q ih =>
    have hreach : Reachable _ := ⟨s, r₀, hs, hl⟩
    exact namedApart_after hreach.ok ih q

/-- A class declares no fresh name. -/
theorem DefinedBy.ne_freshName {decl : ClassDecl β} (hd : r.DefinedBy id decl) {q : TypeParam}
    (hq : q ∈ decl.typeParams) (g : Nat) (m : Name) : freshName g m ≠ q.name := by
  obtain ⟨-, d, o, h, -, hm⟩ := hd.made
  exact fun he => hm.freshName_not_mem g m (he ▸ List.mem_map_of_mem hq)

/-- **Two classes do not pass on the same names**, in whatever order and at whatever distance they
are asked, and what they pass on goes by no name that has been declared. -/
theorem Reachable.heritages_apart (hr : r.Reachable) {c d : TypeId} {h h' : Heritage}
    (hne : c ≠ d) (hc : (r.heritage c).1 = .ok h) (hl : (r.heritage c).2.Leads r')
    (hd : (r'.heritage d).1 = .ok h') :
    (∀ p ∈ h.params, ∀ q ∈ h'.params, p.name ≠ q.name) ∧
      ∀ p ∈ h.params, ∀ id decl, r'.DefinedBy id decl → ∀ q ∈ decl.typeParams,
        p.name ≠ q.name := by
  have hreach : r'.Reachable := (hr.after (.heritage c)).leads hl
  -- both answers are kept after the second question
  have hkept : r'.heritages.get? c = some h :=
    (hl.ok (heritage_ok hr.ok c).1).2.heritage (get?_of_heritage (Prod.ext hc rfl))
  have hkept' : (r'.heritage d).2.heritages.get? c = some h :=
    (heritage_ok hreach.ok d).2.heritage hkept
  refine ⟨(hreach.after (.heritage d)).namedApart.apart c d h h' hne hkept'
    (get?_of_heritage (Prod.ext hd rfl)), fun p hp id decl hdef q hq => ?_⟩
  obtain ⟨g, m, -, hpm⟩ := hreach.namedApart.given c h hkept p hp
  rw [hpm]
  exact hdef.ne_freshName hq g m

/-- **No name is made fresh twice.** Whatever is renamed in whatever scopes, the names of different
scopes differ from each other and from all names without the separator, and within a scope base
names decide; as long as there are fewer than `2 ^ 32` scopes, their numbers are those of a counter
of 32 bits. So the names that a class of a registry passes on are those of no other class. -/
theorem fresh_names_apart :
    (∀ calls : List NamingCall, KeepApart (Naming.start.run calls).1 ∧
      (calls.countP (·.opens) < UInt32.size → ∀ k scope,
        (Naming.start.run calls).2.scopes[k]? = some scope →
          scope.generation = ((· + 1)^[k] (1 : UInt32)).toNat)) ∧
    ∀ r r' : Registry β, r.Reachable → ∀ c d h h', c ≠ d → (r.heritage c).1 = .ok h →
      (r.heritage c).2.Leads r' → (r'.heritage d).1 = .ok h' →
        (∀ p ∈ h.params, ∀ q ∈ h'.params, p.name ≠ q.name) ∧
          ∀ p ∈ h.params, ∀ id decl, r'.DefinedBy id decl → ∀ q ∈ decl.typeParams,
            p.name ≠ q.name := by
  refine ⟨fun calls => ?_, fun r r' hr c d h h' hne hc hl hd => hr.heritages_apart hne hc hl hd⟩
  obtain ⟨hscopes, hfresh, hlen⟩ := Naming.inOrder_start.run calls
  refine ⟨keepApart hfresh, fun hcount k scope hk => ?_⟩
  have hlt : k < calls.countP (·.opens) := by
    have hk' := (List.getElem?_eq_some_iff.1 hk).1
    rwa [hlen, Naming.start, List.length_nil, Nat.zero_add] at hk'
  rw [(hscopes.scope k scope hk).1, toNat_iterate_add_one (by omega)]

/-- Two scopes at work in turn; the second one also meets a name that the first one has made. -/
def inTwoScopes : List NamingCall := [
  .openScope, .rename 0 "T", .openScope, .rename 1 "T#1", .rename 0 "U", .rename 1 "U",
  .rename 1 "T"]

/-- The names of the two scopes differ, and `T` is the same to the second one as `T#1`. In the grove
elms pass on two parameters called `T`, which fall together, but not with that of all trees. -/
theorem fresh_names_apart_grove :
    (Naming.start.run inTwoScopes).1.map (·.fresh) = ["T#1", "T#2", "U#1", "U#2", "T#2"] ∧
    KeepApart (Naming.start.run inTwoScopes).1 ∧
    (∀ k scope, (Naming.start.run inTwoScopes).2.scopes[k]? = some scope →
      scope.generation = ((· + 1)^[k] (1 : UInt32)).toNat) ∧
    ∃ h h', (sapling.heritage 2).1 = .ok h ∧ (grove.heritage 6).1 = .ok h' ∧
      h.params.map (·.name) = ["T#1"] ∧ h'.params.map (·.name) = ["T#2", "T#2"] ∧
      ∀ p ∈ h.params, ∀ q ∈ h'.params, p.name ≠ q.name := by
  obtain ⟨hcalls, hregistry⟩ := fresh_names_apart (β := Unit)
  obtain ⟨hkeep, hcounted⟩ := hcalls inTwoScopes
  have htree : (sapling.heritage 2).1.toOption.map (·.params.map (·.name)) = some ["T#1"] := by
    decide +kernel
  have helm : (grove.heritage 6).1.toOption.map (·.params.map (·.name)) =
      some ["T#2", "T#2"] := by decide +kernel
  cases hh : (sapling.heritage 2).1 with
  | error e => simp [hh, Except.toOption] at htree
  | ok h =>
    cases hh' : (grove.heritage 6).1 with
    | error e => simp [hh', Except.toOption] at helm
    | ok h' =>
      rw [hh] at htree
      rw [hh'] at helm
      exact ⟨by decide +kernel, hkeep, hcounted (by decide), h, h', rfl, rfl,
        Option.some.inj htree, Option.some.inj helm,
        (hregistry sapling grove reachable_sapling 2 6 h h' (by decide) hh (leads_afterAll _ _)
          hh').1⟩

end Registry

end ClassGraph
