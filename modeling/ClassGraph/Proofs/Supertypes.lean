import ClassGraph.Proofs.Markers
import Mathlib.Logic.Relation
import Mathlib.Order.Defs.Unbundled

/-!
# The supertypes of a node

The walk of `isSubtype` is cut off after one node more than there are in the graph. No way up meets
that many: the numbers of its nodes go down. So the walk tells what the single steps tell, from
whatever number it starts.

* `Graph.Under`: one step up; `Graph.exists_up_iff`: any number of steps.
* `Graph.Ascent`: a way up from its start to where nothing stands above. `Ascent.getElem?` tells its
  places, so there is one at most, and in a forest it repeats nothing and is no longer than there are
  nodes. `Forest.exists_ascent`: **every way up ends.**
* `Forest.reaches_eq`: **no way up is cut off** by a limit of as many nodes as there are, or more.
* `Graph.Ordered`: what the walk makes of the graph, an order in which the supertypes of one node
  form a chain.
* `Registry.Reachable.graph_ordered`: **it does so in every reachable registry.**
-/

namespace ClassGraph

variable {β : Type}

namespace Graph

variable {g : Graph} {id s sub : TypeId} {ids ids' : List TypeId}

/-! ## Steps up -/

/-- `s` stands directly above `sub`. -/
def Under (g : Graph) (sub s : TypeId) : Prop := g.supertype sub = some s

/-- Zero or more steps up. -/
theorem exists_up_iff : (∃ k, g.up k sub = some s) ↔ Relation.ReflTransGen g.Under sub s := by
  constructor
  · rintro ⟨k, hk⟩
    induction k generalizing sub with
    | zero =>
      obtain rfl : sub = s := Option.some.inj hk
      exact .refl
    | succ k ih =>
      obtain ⟨t, ht, hup⟩ := Option.bind_eq_some_iff.1 hk
      exact .head ht (ih hup)
  · intro h
    induction h using Relation.ReflTransGen.head_induction_on with
    | refl => exact ⟨0, rfl⟩
    | head hstep _ ih =>
      obtain ⟨k, hk⟩ := ih
      exact ⟨k + 1, by rw [up_succ_of_supertype hstep, hk]⟩

/-- **Two supertypes of one node are comparable**: the one that is met first is below the other. -/
theorem Forest.comparable (h : g.Forest) {a b : TypeId} (ha : g.isSubtype id a = true)
    (hb : g.isSubtype id b = true) : g.isSubtype a b = true ∨ g.isSubtype b a = true := by
  obtain ⟨j, hj⟩ := h.isSubtype_iff.1 ha
  obtain ⟨k, hk⟩ := h.isSubtype_iff.1 hb
  rw [h.isSubtype_iff, h.isSubtype_iff]
  rcases Nat.le_total j k with hle | hle
  · exact .inl ⟨k - j, (up_sub hle hj).trans hk⟩
  · exact .inr ⟨j - k, (up_sub hle hk).trans hj⟩

/-- To be below anything else takes two nodes. -/
theorem Forest.lt_size_of_isSubtype (h : g.Forest) (hsub : g.isSubtype sub s = true)
    (hne : sub ≠ s) : sub < g.size ∧ s < g.size := by
  obtain ⟨k, hk⟩ := h.isSubtype_iff.1 hsub
  cases k with
  | zero => exact absurd (Option.some.inj hk) hne
  | succ k =>
    have hlt := lt_size_of_up_succ hk
    exact ⟨hlt, Nat.lt_of_le_of_lt (h.le_of_isSubtype hsub) hlt⟩

/-! ## The limit of the walk -/

theorem Forest.up_lt_size (h : g.Forest) (hpos : 0 < g.size) {k : Nat} (hk : g.up k id = some s) :
    k < g.size := by
  cases k with
  | zero => exact hpos
  | succ k => exact h.steps_lt_size hk

/-- **No way up is cut off**, if as many nodes may be met as there are. -/
theorem Forest.reaches_eq (h : g.Forest) (hpos : 0 < g.size) {fuel : Nat} (hf : g.size ≤ fuel)
    (id s : TypeId) : g.reaches s fuel (some id) = g.isSubtype id s := by
  rw [Bool.eq_iff_iff, reaches_iff, h.isSubtype_iff]
  constructor
  · rintro ⟨k, -, hk⟩
    exact ⟨k, hk⟩
  · rintro ⟨k, hk⟩
    exact ⟨k, Nat.lt_of_lt_of_le (h.up_lt_size hpos hk) hf, hk⟩

/-! ## A way up and its end -/

/-- **A way up**: all that is met from `id` on, itself first, to where nothing stands above. -/
inductive Ascent (g : Graph) : TypeId → List TypeId → Prop
  | top {id : TypeId} (hs : g.supertype id = none) : Ascent g id [id]
  | step {id s : TypeId} {ids : List TypeId} (hs : g.supertype id = some s) (h : Ascent g s ids) :
      Ascent g id (id :: ids)

/-- The place of a node on the way up is the number of steps that lead to it. -/
theorem Ascent.getElem? (h : g.Ascent id ids) (k : Nat) : ids[k]? = g.up k id := by
  induction h generalizing k with
  | top hs =>
    cases k with
    | zero => rfl
    | succ k =>
      rw [up_succ, hs]
      rfl
  | step hs _ ih =>
    cases k with
    | zero => rfl
    | succ k =>
      rw [up_succ_of_supertype hs, ← ih k]
      rfl

theorem Ascent.mem_iff (h : g.Ascent id ids) : s ∈ ids ↔ ∃ k, g.up k id = some s := by
  simp only [List.mem_iff_getElem?, h.getElem?]

/-- There is one way up from a node. -/
theorem Ascent.unique (h : g.Ascent id ids) (h' : g.Ascent id ids') : ids = ids' :=
  List.ext_getElem? fun k => (h.getElem? k).trans (h'.getElem? k).symm

/-- The last on the way up is the one with nothing above it. -/
theorem Ascent.getLast?_eq_some_iff (h : g.Ascent id ids) :
    ids.getLast? = some s ↔ s ∈ ids ∧ g.supertype s = none := by
  induction h with
  | top hs =>
    rw [List.getLast?_singleton, Option.some.injEq, List.mem_singleton]
    constructor
    · rintro rfl
      exact ⟨rfl, hs⟩
    · exact fun h => h.1.symm
  | @step id t ids hs h ih =>
    have hlast : (id :: ids).getLast? = ids.getLast? := by
      cases h <;> rfl
    rw [hlast, ih, List.mem_cons]
    refine and_congr_left fun hnone => ⟨.inr, fun hor => hor.resolve_left ?_⟩
    -- something stands above the first
    rintro rfl
    rw [hs] at hnone
    cases hnone

/-- Nothing is met twice on the way up. -/
theorem Ascent.nodup (h : g.Ascent id ids) (hg : g.Forest) : ids.Nodup := by
  rw [List.nodup_iff_getElem?_ne_getElem?]
  intro i j hij hj he
  have hs := List.getElem?_eq_getElem hj
  rw [← he, h.getElem?] at hs
  rw [h.getElem?, h.getElem?, hs] at he
  exact absurd (hg.up_inj hs he.symm) (Nat.ne_of_lt hij)

/-- A way up is no longer than there are nodes. -/
theorem Ascent.length_le (h : g.Ascent id ids) (hg : g.Forest) (hpos : 0 < g.size) :
    ids.length ≤ g.size := by
  -- as many steps as there are nodes lead nowhere
  rw [← List.getElem?_eq_none_iff, h.getElem?, Option.eq_none_iff_forall_ne_some]
  exact fun s hs => Nat.lt_irrefl _ (hg.up_lt_size hpos hs)

/-- **Every way up ends**, from numbers without a node too. -/
theorem Forest.exists_ascent (h : g.Forest) (id : TypeId) : ∃ ids, g.Ascent id ids := by
  induction id using Nat.strongRecOn with
  | ind id ih =>
    cases hs : g.supertype id with
    | none => exact ⟨[id], .top hs⟩
    | some s =>
      obtain ⟨ids, hids⟩ := ih s (h.above hs).1
      exact ⟨id :: ids, .step hs hids⟩

/-- A node is below one that nothing stands above if the way up from it ends there. -/
theorem Forest.isSubtype_top_iff (h : g.Forest) (hs : g.supertype s = none) :
    g.isSubtype id s = true ↔ ∃ ids, g.Ascent id ids ∧ ids.getLast? = some s := by
  rw [h.isSubtype_iff]
  constructor
  · intro hup
    obtain ⟨ids, hids⟩ := h.exists_ascent id
    exact ⟨ids, hids, hids.getLast?_eq_some_iff.2 ⟨hids.mem_iff.2 hup, hs⟩⟩
  · rintro ⟨ids, hids, hlast⟩
    exact hids.mem_iff.1 (hids.getLast?_eq_some_iff.1 hlast).1

/-! ## The order -/

/-- **What the walk up tells** of a graph, whatever numbers it is asked about. -/
structure Ordered (g : Graph) : Prop where
  isSubtype_iff : ∀ sub s, g.isSubtype sub s = true ↔ Relation.ReflTransGen g.Under sub s
  /-- A limit of as many nodes as there are cuts off no way up, and no higher limit does. -/
  uncut : ∀ id s fuel, g.size ≤ fuel → g.reaches s fuel (some id) = g.isSubtype id s
  ascent : ∀ id, ∃ ids, g.Ascent id ids ∧ ids.Nodup ∧ ids.length ≤ g.size
  isPartialOrder : IsPartialOrder TypeId fun sub s => g.isSubtype sub s = true
  comparable : ∀ id a b, g.isSubtype id a = true → g.isSubtype id b = true →
    g.isSubtype a b = true ∨ g.isSubtype b a = true
  /-- A number without a node is below itself alone, and nothing else is below it. -/
  apart : ∀ sub s, g.node? sub = none ∨ g.node? s = none → (g.isSubtype sub s = true ↔ sub = s)
  reachesRoot_iff : ∀ id, g.reachesRoot id = true ↔
    (g.node? id).isSome = true ∧ ∃ ids, g.Ascent id ids ∧ ids.getLast? = some rootId

end Graph

namespace Registry

/-- **The walk up is exact** in every reachable registry: a number is below those that steps up lead
to and below no others, this is a partial order in which the supertypes of one node are comparable,
and a node reaches the root class if the way up from it ends there. -/
theorem Reachable.graph_ordered {r : Registry β} (hr : r.Reachable) : r.graph.Ordered := by
  have hin := hr.inStep
  have hg := hin.forest
  have hpos := hr.ok.size_pos
  refine ⟨fun sub s => hg.isSubtype_iff.trans Graph.exists_up_iff,
    fun id s fuel hf => hg.reaches_eq hpos hf id s, fun id => ?_, ?_,
    fun id a b => hg.comparable, fun sub s hnode => ?_, fun id => ?_⟩
  · obtain ⟨ids, hids⟩ := hg.exists_ascent id
    exact ⟨ids, hids, hids.nodup hg, hids.length_le hg hpos⟩
  · exact { refl := fun _ => Graph.isSubtype_self, trans := fun _ _ _ => hg.isSubtype_trans,
            antisymm := fun _ _ => hg.isSubtype_antisymm }
  · refine ⟨fun hsub => ?_, fun he => he ▸ Graph.isSubtype_self⟩
    by_contra hne
    obtain ⟨hlt, hlt'⟩ := hg.lt_size_of_isSubtype hsub hne
    rcases hnode with hn | hn
    · exact Nat.not_le.2 hlt (Graph.node?_eq_none_iff.1 hn)
    · exact Nat.not_le.2 hlt' (Graph.node?_eq_none_iff.1 hn)
  · rw [Graph.reachesRoot, Bool.and_eq_true, hg.isSubtype_top_iff hin.supertype_root]

/-! ## A way up through all nodes -/

/-- Types declared one below the other, under the root class. -/
def reeds : Registry Unit := (ofSettings .standard).afterAll [
  .declare "Plant" .abstract (some rootId),
  .declare "Grass" .abstract (some 1),
  .declare "Reed" .concrete (some 2)]

/-- Two types more, apart from the root class. -/
def pebbles : Registry Unit := reeds.afterAll [
  .declare "Stone" .abstract none,
  .declare "Pebble" .concrete (some 4)]

theorem reachable_reeds : reeds.Reachable := ⟨.standard, _, rfl, leads_afterAll _ _⟩

/-- The way up from `Reed` meets all four nodes, so a limit of three would cut it off. The way up
from `Pebble` ends at `Stone`. -/
theorem graph_ordered_reeds : Relation.ReflTransGen reeds.graph.Under 3 0 ∧
    reeds.graph.Ascent 3 [3, 2, 1, 0] ∧ reeds.graph.size = 4 ∧
    reeds.graph.reaches 0 4 (some 3) = true ∧ reeds.graph.reaches 0 3 (some 3) = false ∧
    reeds.graph.reachesRoot 3 = true ∧ ¬ reeds.graph.isSubtype 4 0 = true ∧
    pebbles.graph.Ascent 5 [5, 4] ∧ ¬ pebbles.graph.reachesRoot 5 = true := by
  have h := reachable_reeds.graph_ordered
  have h' := (reachable_reeds.leads (leads_afterAll _ _) : pebbles.Reachable).graph_ordered
  have hsub : reeds.graph.isSubtype 3 0 = true := by decide +kernel
  have hreed : reeds.graph.Ascent 3 [3, 2, 1, 0] :=
    .step (by decide +kernel) (.step (by decide +kernel)
      (.step (by decide +kernel) (.top (by decide +kernel))))
  have hpebble : pebbles.graph.Ascent 5 [5, 4] :=
    .step (by decide +kernel) (.top (by decide +kernel))
  have hsize : reeds.graph.size = 4 := by decide +kernel
  refine ⟨(h.isSubtype_iff 3 0).1 hsub, hreed, hsize,
    (h.uncut 3 0 4 (Nat.le_of_eq hsize)).trans hsub, by decide +kernel,
    (h.reachesRoot_iff 3).2 ⟨by decide +kernel, _, hreed, rfl⟩,
    fun hs => absurd ((h.apart 4 0 (.inl (by decide +kernel))).1 hs) (by decide), hpebble,
    fun hroot => ?_⟩
  obtain ⟨-, ids, hids, hlast⟩ := (h'.reachesRoot_iff 5).1 hroot
  rw [hids.unique hpebble] at hlast
  exact absurd hlast (by decide)

end Registry

end ClassGraph
