import ClassGraph.Graph
import Mathlib.Data.List.Nodup

/-!
# The type graph is a forest

Names lead to nodes, nodes to the node above and to the nodes below. The three agree with one
another, and the ways up end.

* `Graph.Forest`: the invariant. Names and nodes correspond, what stands above a node is abstract
  and was there before it, and the nodes listed below a node are those that it stands above.
* `Graph.Forest.add`: **an addition keeps it**, if the name is free and the supertype abstract.
* `Graph.up`: so many steps up from a node; `Forest.isSubtype_iff`: **the walk of `isSubtype`
  leaves out nothing**, it meets just the nodes that some number of steps leads to.
-/

namespace ClassGraph

namespace Graph

variable {g : Graph} {n m : Name} {kind : NodeKind} {sup : Option TypeId} {id sub s : TypeId}

/-! ## Nodes and numbers -/

theorem lt_size_of_node? (h : g.node? id ≠ none) : id < g.size :=
  Nat.not_le.1 fun hle => h (node?_eq_none_iff.2 hle)

theorem lt_size_of_name? (h : g.name? id = some n) : id < g.size :=
  lt_size_of_node? fun hn => by simp [name?, hn] at h

theorem lt_size_of_isAbstract (h : g.isAbstract id = true) : id < g.size :=
  lt_size_of_node? fun hn => by simp [isAbstract, hn] at h

theorem lt_size_of_isConcrete (h : g.isConcrete id = true) : id < g.size :=
  lt_size_of_node? fun hn => by simp [isConcrete, hn] at h

theorem lt_size_of_supertype (h : g.supertype id = some s) : id < g.size :=
  lt_size_of_node? fun hn => by simp [supertype, hn] at h

/-- A node is of one of the two kinds. -/
theorem isAbstract_or_isConcrete (h : id < g.size) :
    g.isAbstract id = true ∨ g.isConcrete id = true := by
  unfold isAbstract isConcrete
  cases hn : g.node? id with
  | none => exact absurd (node?_eq_none_iff.1 hn) (Nat.not_le.2 h)
  | some node =>
    simp only [Option.any_some, Node.isAbstract, Node.isConcrete, decide_eq_true_eq]
    cases node.kind with
    | abstract => exact .inl rfl
    | concrete => exact .inr rfl

/-- No node is of both kinds. -/
theorem not_isConcrete (h : g.isAbstract id = true) : ¬ g.isConcrete id = true := by
  unfold isAbstract at h
  unfold isConcrete
  cases hn : g.node? id with
  | none => simp
  | some node =>
    rw [hn, Option.any_some, Node.isAbstract, decide_eq_true_eq] at h
    simp [Node.isConcrete, h]

/-- **The type graph is a forest**, and everything that it says twice agrees. -/
structure Forest (g : Graph) : Prop where
  lookup_iff : ∀ {n id}, g.lookup n = some id ↔ g.name? id = some n
  above : ∀ {id s}, g.supertype id = some s → s < id ∧ g.isAbstract s = true
  subtypes_eq : ∀ id,
    g.subtypes id = (List.range g.size).filter fun sub => g.supertype sub = some id

/-! ## One addition -/

theorem name?_add : (g.add n kind sup).name? id = if id = g.size then some n else g.name? id := by
  unfold name?
  rw [node?_add, Option.map_map]
  have hname : ((·.name) ∘ fun node : Node =>
      if sup = some id then { node with subtypes := node.subtypes ++ [g.size] } else node) =
        (·.name) := by
    funext node
    by_cases hs : sup = some id <;> simp [hs]
  rw [hname]
  split <;> rfl

theorem isConcrete_add (h : id < g.size) : (g.add n kind sup).isConcrete id = g.isConcrete id := by
  have h' : ¬ id = g.size := Nat.ne_of_lt h
  rw [isConcrete, isConcrete, node?_add, if_neg h']
  cases g.node? id with
  | none => rfl
  | some node => by_cases hs : sup = some id <;> simp [hs, Node.isConcrete]

theorem isAbstract_add_new : (g.add n kind sup).isAbstract g.size = decide (kind = .abstract) := by
  rw [isAbstract, node?_add, if_pos rfl]
  by_cases hs : sup = some g.size <;> simp [hs, Node.isAbstract]

theorem isConcrete_add_new : (g.add n kind sup).isConcrete g.size = decide (kind = .concrete) := by
  rw [isConcrete, node?_add, if_pos rfl]
  by_cases hs : sup = some g.size <;> simp [hs, Node.isConcrete]

/-- The new node is listed last below its supertype. -/
theorem subtypes_add (hs : ∀ s, sup = some s → s < g.size) :
    (g.add n kind sup).subtypes id = g.subtypes id ++ if sup = some id then [g.size] else [] := by
  rw [subtypes, subtypes, node?_add]
  by_cases hid : id = g.size
  · -- nothing is below the new node itself
    have hne : sup ≠ some id := fun e => Nat.lt_irrefl _ (hid ▸ hs id e)
    have hnone : g.node? id = none := node?_eq_none_iff.2 (Nat.le_of_eq hid.symm)
    simp [hid ▸ hne, hid, hid ▸ hnone]
  · rw [if_neg hid]
    cases hn : g.node? id with
    | none =>
      have hne : sup ≠ some id := fun e => Nat.not_le.2 (hs id e) (node?_eq_none_iff.1 hn)
      simp [hne]
    | some node => by_cases he : sup = some id <;> simp [he]

/-- What stands above a node after an addition. -/
theorem supertype_add_cases (h : (g.add n kind sup).supertype id = some s) :
    (id = g.size ∧ sup = some s) ∨ g.supertype id = some s := by
  have hlt := lt_size_of_supertype h
  rw [size_add] at hlt
  by_cases hid : id = g.size
  · rw [hid, supertype_add_new] at h
    exact .inl ⟨hid, h⟩
  · rw [supertype_add (Nat.lt_of_le_of_ne (Nat.le_of_lt_succ hlt) hid)] at h
    exact .inr h

/-- At first there is one node. -/
theorem Forest.ofRoot (rootName : Name) : (Graph.ofRoot rootName).Forest where
  lookup_iff {n id} := by
    rw [lookup, Graph.ofRoot, Table.get?_insert, name?, node?]
    have hempty : (Table.empty : Table Name TypeId).get? n = none := rfl
    cases id with
    | zero => by_cases h : rootName = n <;> simp [rootId, hempty, h]
    | succ id => by_cases h : rootName = n <;> simp [rootId, hempty, h]
  above {id s} h := by
    have hid : id < 1 := lt_size_of_supertype h
    obtain rfl : id = 0 := Nat.lt_one_iff.1 hid
    cases h
  subtypes_eq id := by
    cases id with
    | zero => rfl
    | succ id => rfl

/-- **An addition keeps the forest**, if the name is free and what the node is put under is
abstract. -/
theorem Forest.add (h : g.Forest) (hn : g.lookup n = none)
    (hs : ∀ s, sup = some s → g.isAbstract s = true) : (g.add n kind sup).Forest where
  lookup_iff {m id} := by
    rw [lookup_add, name?_add]
    by_cases hid : id = g.size
    · -- the new node goes by the new name alone
      have hnone : g.lookup m ≠ some id := fun e =>
        Nat.lt_irrefl _ (hid ▸ lt_size_of_name? (h.lookup_iff.1 e))
      rw [if_pos hid, hid]
      split
      · next e => simp [e]
      · next e => simp [e, hid ▸ hnone]
    · rw [if_neg hid, ← h.lookup_iff]
      split
      · next e =>
        subst e
        simp [hn, Ne.symm hid]
      · rfl
  above {id s} hid := by
    have habs : g.isAbstract s = true → (g.add n kind sup).isAbstract s = true := fun ha => by
      rw [isAbstract_add (lt_size_of_isAbstract ha), ha]
    rcases supertype_add_cases hid with ⟨rfl, e⟩ | hold
    · exact ⟨lt_size_of_isAbstract (hs s e), habs (hs s e)⟩
    · exact ⟨(h.above hold).1, habs (h.above hold).2⟩
  subtypes_eq id := by
    rw [subtypes_add fun s e => lt_size_of_isAbstract (hs s e), size_add, List.range_succ,
      List.filter_append, h.subtypes_eq]
    congr 1
    · refine List.filter_congr fun sub hsub => ?_
      rw [supertype_add (List.mem_range.1 hsub)]
    · rw [List.filter_singleton, supertype_add_new]
      by_cases he : sup = some id <;> simp [he]

/-! ## Below a node -/

theorem Forest.mem_subtypes_iff (h : g.Forest) :
    sub ∈ g.subtypes id ↔ g.supertype sub = some id := by
  rw [h.subtypes_eq, List.mem_filter, List.mem_range, decide_eq_true_eq]
  exact ⟨And.right, fun e => ⟨lt_size_of_supertype e, e⟩⟩

/-- The nodes below a node are listed in the order in which they were added. -/
theorem Forest.subtypes_pairwise (h : g.Forest) (id : TypeId) :
    (g.subtypes id).Pairwise (· < ·) := by
  rw [h.subtypes_eq]
  exact List.pairwise_lt_range.filter _

/-- A concrete node has nothing below it. -/
theorem Forest.subtypes_of_isConcrete (h : g.Forest) (hc : g.isConcrete id = true) :
    g.subtypes id = [] := by
  rw [List.eq_nil_iff_forall_not_mem]
  intro sub hsub
  have habs := (h.above (h.mem_subtypes_iff.1 hsub)).2
  exact not_isConcrete habs hc

/-! ## The way up -/

/-- The node that so many steps up lead to. -/
def up (g : Graph) : Nat → TypeId → Option TypeId
  | 0, id => some id
  | k + 1, id => (g.supertype id).bind (g.up k)

@[simp] theorem up_zero (id : TypeId) : g.up 0 id = some id := rfl

theorem up_succ (k : Nat) (id : TypeId) : g.up (k + 1) id = (g.supertype id).bind (g.up k) := rfl

theorem up_succ_of_supertype (h : g.supertype id = some s) (k : Nat) :
    g.up (k + 1) id = g.up k s := by
  rw [up_succ, h, Option.bind_some]

/-- The last step apart from those before it. -/
theorem up_succ' (k : Nat) (id : TypeId) : g.up (k + 1) id = (g.up k id).bind g.supertype := by
  induction k generalizing id with
  | zero => cases h : g.supertype id <;> simp [up_succ, h]
  | succ k ih =>
    rw [up_succ, up_succ]
    cases h : g.supertype id with
    | none => rfl
    | some s => exact ih s

theorem up_add (j k : Nat) (id : TypeId) : g.up (j + k) id = (g.up j id).bind (g.up k) := by
  induction j generalizing id with
  | zero => simp
  | succ j ih =>
    rw [Nat.add_right_comm, up_succ, up_succ]
    cases h : g.supertype id with
    | none => rfl
    | some s => exact ih s

/-- What is met later on the way up stands above what is met before. -/
theorem up_sub {j k : Nat} (hjk : j ≤ k) (hj : g.up j id = some s) :
    g.up (k - j) s = g.up k id := by
  have hadd : g.up (j + (k - j)) id = _ := up_add j (k - j) id
  rw [Nat.add_sub_of_le hjk, hj, Option.bind_some] at hadd
  exact hadd.symm

/-- A way of some steps starts at a node. -/
theorem lt_size_of_up_succ {k : Nat} (hk : g.up (k + 1) id = some s) : id < g.size := by
  obtain ⟨t, ht, -⟩ := Option.bind_eq_some_iff.1 hk
  exact lt_size_of_supertype ht

/-- The walk up is cut off after `fuel` nodes. -/
theorem reaches_iff {target : TypeId} {fuel : Nat} :
    g.reaches target fuel (some id) = true ↔ ∃ k < fuel, g.up k id = some target := by
  induction fuel generalizing id with
  | zero => simp
  | succ fuel ih =>
    rw [reaches_succ, Bool.or_eq_true, decide_eq_true_eq]
    constructor
    · rintro (rfl | h)
      · exact ⟨0, Nat.succ_pos _, rfl⟩
      · cases hs : g.supertype id with
        | none =>
          rw [hs, reaches_none] at h
          cases h
        | some s =>
          obtain ⟨k, hk, hup⟩ := ih.1 (hs ▸ h)
          exact ⟨k + 1, Nat.succ_lt_succ hk, by rw [up_succ_of_supertype hs, hup]⟩
    · rintro ⟨k, hk, hup⟩
      cases k with
      | zero => exact .inl (Option.some.inj hup)
      | succ k =>
        right
        obtain ⟨s, hs, hup⟩ := Option.bind_eq_some_iff.1 hup
        rw [hs]
        exact ih.2 ⟨k, Nat.lt_of_succ_lt_succ hk, hup⟩

/-- Every step up leads to a node that was there before. -/
theorem Forest.up_le (h : g.Forest) {k : Nat} (hk : g.up k id = some s) : s + k ≤ id := by
  induction k generalizing id with
  | zero => exact Nat.le_of_eq (Option.some.inj hk).symm
  | succ k ih =>
    obtain ⟨t, ht, hup⟩ := Option.bind_eq_some_iff.1 hk
    exact Nat.lt_of_le_of_lt (ih hup) (h.above ht).1

/-- A node is met once on the way up. -/
theorem Forest.up_inj (h : g.Forest) {j k : Nat} (hj : g.up j id = some s)
    (hk : g.up k id = some s) : j = k := by
  -- to meet it a second time would be a way from the node to itself
  have hcycle : ∀ {a b : Nat}, a ≤ b → g.up a id = some s → g.up b id = some s → a = b := by
    intro a b hab ha hb
    have hle : b - a ≤ 0 := Nat.le_of_add_le_add_left (h.up_le ((up_sub hab ha).trans hb))
    omega
  rcases Nat.le_total j k with hle | hle
  · exact hcycle hle hj hk
  · exact (hcycle hle hk hj).symm

/-- A way of some steps has fewer of them than there are nodes: every step goes down in number. -/
theorem Forest.steps_lt_size (h : g.Forest) {k : Nat} (hk : g.up (k + 1) id = some s) :
    k + 1 < g.size := by
  have hle : k + 1 ≤ id := Nat.le_trans (Nat.le_add_left _ _) (h.up_le hk)
  exact Nat.lt_of_le_of_lt hle (lt_size_of_up_succ hk)

/-- A way of some steps ends at an abstract node. -/
theorem Forest.isAbstract_of_up_succ (h : g.Forest) {k : Nat} (hk : g.up (k + 1) id = some s) :
    g.isAbstract s = true := by
  rw [up_succ'] at hk
  obtain ⟨t, -, ht⟩ := Option.bind_eq_some_iff.1 hk
  exact (h.above ht).2

/-- **The walk leaves out nothing**: below a node are the numbers that lead up to it. -/
theorem Forest.isSubtype_iff (h : g.Forest) :
    g.isSubtype sub s = true ↔ ∃ k, g.up k sub = some s := by
  rw [isSubtype, reaches_iff]
  constructor
  · rintro ⟨k, -, hk⟩
    exact ⟨k, hk⟩
  · rintro ⟨k, hk⟩
    refine ⟨k, ?_, hk⟩
    cases k with
    | zero => exact Nat.succ_pos _
    | succ k => exact Nat.lt_succ_of_lt (h.steps_lt_size hk)

theorem Forest.isSubtype_trans (h : g.Forest) {a b c : TypeId} (hab : g.isSubtype a b = true)
    (hbc : g.isSubtype b c = true) : g.isSubtype a c = true := by
  obtain ⟨j, hj⟩ := h.isSubtype_iff.1 hab
  obtain ⟨k, hk⟩ := h.isSubtype_iff.1 hbc
  exact h.isSubtype_iff.2 ⟨j + k, by rw [up_add, hj, Option.bind_some, hk]⟩

theorem Forest.le_of_isSubtype (h : g.Forest) {a b : TypeId} (hab : g.isSubtype a b = true) :
    b ≤ a := by
  obtain ⟨k, hk⟩ := h.isSubtype_iff.1 hab
  exact Nat.le_trans (Nat.le_add_right _ _) (h.up_le hk)

theorem Forest.isSubtype_antisymm (h : g.Forest) {a b : TypeId} (hab : g.isSubtype a b = true)
    (hba : g.isSubtype b a = true) : a = b :=
  Nat.le_antisymm (h.le_of_isSubtype hba) (h.le_of_isSubtype hab)

/-- One step of the walk. -/
theorem Forest.isSubtype_of_supertype (h : g.Forest) (hs : g.supertype sub = some s)
    {t : TypeId} : g.isSubtype sub t = true ↔ sub = t ∨ g.isSubtype s t = true := by
  rw [h.isSubtype_iff, h.isSubtype_iff]
  constructor
  · rintro ⟨k, hk⟩
    cases k with
    | zero => exact .inl (Option.some.inj hk)
    | succ k => exact .inr ⟨k, by rw [← up_succ_of_supertype hs, hk]⟩
  · rintro (rfl | ⟨k, hk⟩)
    · exact ⟨0, rfl⟩
    · exact ⟨k + 1, by rw [up_succ_of_supertype hs, hk]⟩

/-- **Nothing but itself is below a concrete node.** -/
theorem Forest.isSubtype_of_isConcrete (h : g.Forest) (hc : g.isConcrete s = true) :
    g.isSubtype sub s = true ↔ sub = s := by
  refine ⟨fun hsub => ?_, fun e => e ▸ isSubtype_self⟩
  obtain ⟨k, hk⟩ := h.isSubtype_iff.1 hsub
  cases k with
  | zero => exact Option.some.inj hk
  | succ k => exact absurd hc (not_isConcrete (h.isAbstract_of_up_succ hk))

end Graph

end ClassGraph
