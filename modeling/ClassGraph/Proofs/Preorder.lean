import ClassGraph.Proofs.Forest

/-!
# The abstract nodes below a node

A walk down the forest that visits each abstract node before those below it, and siblings in the
order in which they were added.

* `Graph.Precedes`: the order of the visits, said by the ways up alone.
* `Graph.abstractBelow`: the nodes that are visited within so many levels.
* `Forest.mem_abstractBelow_iff`: **these are all abstract nodes** that so many steps, and at least
  one, lead up from to the node.
* `Forest.abstractBelow_pairwise`, `Forest.abstractBelow_nodup`: **they are visited in order**, none
  of them twice.
-/

namespace ClassGraph

namespace Graph

variable {g : Graph} {a m n : TypeId} {k fuel : Nat}

/-- **In pre-order `a` precedes `b`**: either `b` is somewhere below `a`, or they are below two
siblings of which the one above `a` was added first. -/
def Precedes (g : Graph) (a b : TypeId) : Prop :=
  (a ≠ b ∧ g.isSubtype b a = true) ∨
    ∃ x y p, g.supertype x = some p ∧ g.supertype y = some p ∧ x < y ∧
      g.isSubtype a x = true ∧ g.isSubtype b y = true

/-- The abstract nodes within `fuel` levels below a node, as they are visited. -/
def abstractBelow (g : Graph) : Nat → TypeId → List TypeId
  | 0, _ => []
  | fuel + 1, m => ((g.subtypes m).filter g.isAbstract).flatMap fun c => c :: g.abstractBelow fuel c

/-- The abstract nodes directly below a node. -/
theorem Forest.mem_children_iff (h : g.Forest) {c : TypeId} :
    c ∈ (g.subtypes m).filter g.isAbstract ↔ g.supertype c = some m ∧ g.isAbstract c = true := by
  rw [List.mem_filter, h.mem_subtypes_iff]

/-- All nodes on the way up from an abstract node are abstract. -/
theorem Forest.isAbstract_up (h : g.Forest) (hn : g.isAbstract n = true) (hk : g.up k n = some m) :
    g.isAbstract m = true := by
  cases k with
  | zero => rwa [← Option.some.inj hk]
  | succ k => exact h.isAbstract_of_up_succ hk

/-- A way up ends at a child of the node, and then at the node. -/
theorem Forest.up_succ_iff (h : g.Forest) (hn : g.isAbstract n = true) :
    g.up (k + 1) n = some m ↔
      ∃ c ∈ (g.subtypes m).filter g.isAbstract, g.up k n = some c := by
  rw [up_succ', Option.bind_eq_some_iff]
  constructor
  · rintro ⟨c, hc, hs⟩
    exact ⟨c, h.mem_children_iff.2 ⟨hs, h.isAbstract_up hn hc⟩, hc⟩
  · rintro ⟨c, hc, hup⟩
    exact ⟨c, hup, (h.mem_children_iff.1 hc).1⟩

/-- **All abstract nodes below the node** are visited, as far as the levels go. -/
theorem Forest.mem_abstractBelow_iff (h : g.Forest) : n ∈ g.abstractBelow fuel m ↔
    g.isAbstract n = true ∧ ∃ k, 0 < k ∧ k ≤ fuel ∧ g.up k n = some m := by
  induction fuel generalizing m with
  | zero =>
    simp only [abstractBelow, List.not_mem_nil, false_iff, not_and, not_exists]
    intro _ k hpos hle
    omega
  | succ fuel ih =>
    rw [abstractBelow, List.mem_flatMap]
    constructor
    · rintro ⟨c, hc, hn⟩
      rcases List.mem_cons.1 hn with rfl | hn
      · obtain ⟨hs, ha⟩ := h.mem_children_iff.1 hc
        exact ⟨ha, 1, Nat.one_pos, by omega, by rw [up_succ_of_supertype hs, up_zero]⟩
      · obtain ⟨ha, k, -, hle, hup⟩ := ih.1 hn
        exact ⟨ha, k + 1, Nat.succ_pos k, by omega, (h.up_succ_iff ha).2 ⟨c, hc, hup⟩⟩
    · rintro ⟨ha, k, hpos, hle, hup⟩
      obtain ⟨k, rfl⟩ : ∃ j, k = j + 1 := ⟨k - 1, by omega⟩
      obtain ⟨c, hc, hup⟩ := (h.up_succ_iff ha).1 hup
      refine ⟨c, hc, ?_⟩
      cases k with
      | zero =>
        rw [Option.some.inj hup]
        exact List.mem_cons_self
      | succ k =>
        exact List.mem_cons_of_mem _ (ih.2 ⟨ha, k + 1, Nat.succ_pos k, by omega, hup⟩)

/-- To be below a node and not the node itself takes one step at least. -/
theorem Forest.properly_below_iff (h : g.Forest) :
    (n ≠ m ∧ g.isSubtype n m = true) ↔ ∃ k, 0 < k ∧ g.up k n = some m := by
  rw [h.isSubtype_iff]
  constructor
  · rintro ⟨hne, k, hk⟩
    refine ⟨k, Nat.pos_of_ne_zero fun e => hne ?_, hk⟩
    subst e
    exact Option.some.inj hk
  · rintro ⟨k, hpos, hk⟩
    refine ⟨?_, k, hk⟩
    rintro rfl
    exact absurd (h.up_inj (up_zero n) hk) (Nat.ne_of_lt hpos)

/-- What is visited is below the node, and not the node itself. -/
theorem Forest.isSubtype_of_mem_abstractBelow (h : g.Forest) (hn : n ∈ g.abstractBelow fuel m) :
    n ≠ m ∧ g.isSubtype n m = true := by
  obtain ⟨-, k, hpos, -, hup⟩ := h.mem_abstractBelow_iff.1 hn
  exact h.properly_below_iff.2 ⟨k, hpos, hup⟩

/-- **The visits are made in order.** -/
theorem Forest.abstractBelow_pairwise (h : g.Forest) (fuel : Nat) (m : TypeId) :
    (g.abstractBelow fuel m).Pairwise g.Precedes := by
  induction fuel generalizing m with
  | zero => exact List.Pairwise.nil
  | succ fuel ih =>
    rw [abstractBelow, List.pairwise_flatMap]
    constructor
    · -- a child comes before what is below it
      intro c _
      refine List.pairwise_cons.2 ⟨fun n hn => .inl ?_, ih c⟩
      obtain ⟨hne, hsub⟩ := h.isSubtype_of_mem_abstractBelow hn
      exact ⟨hne.symm, hsub⟩
    · -- and two children come in the order in which they were added
      have hbelow : ∀ {c x : TypeId}, x ∈ c :: g.abstractBelow fuel c →
          g.isSubtype x c = true := by
        intro c x hx
        rcases List.mem_cons.1 hx with rfl | hx
        · exact isSubtype_self
        · exact (h.isSubtype_of_mem_abstractBelow hx).2
      refine ((h.subtypes_pairwise m).filter _).imp_of_mem fun {c c'} hc hc' hlt x hx y hy => ?_
      exact .inr ⟨c, c', m, (h.mem_children_iff.1 hc).1, (h.mem_children_iff.1 hc').1, hlt,
        hbelow hx, hbelow hy⟩

/-- No node precedes itself: the ways up to two siblings would be equally long. -/
theorem Forest.not_precedes_self (h : g.Forest) : ¬ g.Precedes a a := by
  rintro (⟨hne, -⟩ | ⟨x, y, p, hx, hy, hlt, hax, hay⟩)
  · exact hne rfl
  obtain ⟨i, hi⟩ := h.isSubtype_iff.1 hax
  obtain ⟨j, hj⟩ := h.isSubtype_iff.1 hay
  have hi' : g.up (i + 1) a = some p := by rw [up_succ', hi, Option.bind_some, hx]
  have hj' : g.up (j + 1) a = some p := by rw [up_succ', hj, Option.bind_some, hy]
  obtain rfl : i = j := Nat.succ.inj (h.up_inj hi' hj')
  cases hi.symm.trans hj
  exact Nat.lt_irrefl _ hlt

/-- **No node is visited twice.** -/
theorem Forest.abstractBelow_nodup (h : g.Forest) (fuel : Nat) (m : TypeId) :
    (g.abstractBelow fuel m).Nodup := by
  refine List.nodup_iff_pairwise_ne.2 ((h.abstractBelow_pairwise fuel m).imp fun hab e => ?_)
  subst e
  exact h.not_precedes_self hab

end Graph

end ClassGraph
