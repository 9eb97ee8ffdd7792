import ClassGraph.Construct.Selection

/-!
# Which constructor is selected

A selection read as a statement about the list of constructors, cut at the one that is selected.

* `Graph.Prefers`: the constructor is applicable, says more than the applicable ones before it and
  no less than those after it.
* `Registry.select_eq_ok_iff`: **a constructor is selected exactly when it is preferred.**
-/

namespace ClassGraph

variable {β : Type}

namespace Graph

variable {g : Graph} {params : List TypeParam} {explicit : Option Substitution}
  {args : List Value} {before after cs : List (Constructor β)} {b c : Constructor β} {n : Nat}

/-- **The constructor `c` is preferred** among `before ++ c :: after`. -/
structure Prefers (g : Graph) (params : List TypeParam) (explicit : Option Substitution)
    (args : List Value) (before : List (Constructor β)) (c : Constructor β)
    (after : List (Constructor β)) : Prop where
  applicable : g.isApplicable params explicit args c = true
  before : ∀ x ∈ before, g.isApplicable params explicit args x = true → g.score x < g.score c
  after : ∀ x ∈ after, g.isApplicable params explicit args x = true → g.score x ≤ g.score c

/-- Nothing that is applicable says more than what is preferred. -/
theorem Prefers.score_le (h : g.Prefers params explicit args before c after) :
    ∀ x ∈ before ++ c :: after, g.isApplicable params explicit args x = true →
      g.score x ≤ g.score c := by
  intro x hx hx'
  rcases List.mem_append.1 hx with hx | hx
  · exact Nat.le_of_lt (h.before x hx hx')
  · rcases List.mem_cons.1 hx with rfl | hx
    · exact Nat.le_refl _
    · exact h.after x hx hx'

/-- The first constructor is preferred if it is applicable and those after it say no more. -/
theorem Prefers.first (hc : g.isApplicable params explicit args c = true)
    (h : ∀ x ∈ after, g.isApplicable params explicit args x = true → g.score x ≤ g.score c) :
    g.Prefers params explicit args [] c after :=
  ⟨hc, fun _ hx => absurd hx List.not_mem_nil, h⟩

/-- What is preferred stays so behind one more constructor, unless that one says as much. -/
theorem Prefers.cons (h : g.Prefers params explicit args before c after)
    (hb : g.isApplicable params explicit args b = true → g.score b < g.score c) :
    g.Prefers params explicit args (b :: before) c after where
  applicable := h.applicable
  before x hx hx' := by
    rcases List.mem_cons.1 hx with rfl | hx
    · exact hb hx'
    · exact h.before x hx hx'
  after := h.after

/-- The applicable constructors with their scores, if places are counted from `n` on. -/
def candidatesFrom (g : Graph) (params : List TypeParam) (explicit : Option Substitution)
    (args : List Value) (n : Nat) (cs : List (Constructor β)) : List (Nat × Nat) :=
  (cs.zipIdx n).filterMap fun (c, index) =>
    if g.isApplicable params explicit args c then some (index, g.score c) else none

theorem candidatesFrom_cons_of_applicable (h : g.isApplicable params explicit args c = true) :
    g.candidatesFrom params explicit args n (c :: cs) =
      (n, g.score c) :: g.candidatesFrom params explicit args (n + 1) cs := by
  simp [candidatesFrom, h]

theorem candidatesFrom_cons_of_not_applicable
    (h : ¬ g.isApplicable params explicit args c = true) :
    g.candidatesFrom params explicit args n (c :: cs) =
      g.candidatesFrom params explicit args (n + 1) cs := by
  simp [candidatesFrom, h]

theorem not_applicable_of_candidatesFrom_eq_nil
    (h : g.candidatesFrom params explicit args n cs = []) :
    ∀ x ∈ cs, ¬ g.isApplicable params explicit args x = true := by
  induction cs generalizing n with
  | nil => simp
  | cons c cs ih =>
    by_cases hc : g.isApplicable params explicit args c = true
    · rw [candidatesFrom_cons_of_applicable hc] at h
      cases h
    · rw [candidatesFrom_cons_of_not_applicable hc] at h
      intro x hx
      rcases List.mem_cons.1 hx with rfl | hx
      · exact hc
      · exact ih h x hx

end Graph

theorem eq_nil_of_best?_eq_none {cs : List (Nat × Nat)} (h : best? cs = none) : cs = [] := by
  cases cs with
  | nil => rfl
  | cons c cs =>
    unfold best? at h
    split at h
    · cases h
    · split at h <;> cases h

namespace Graph

variable {g : Graph} {params : List TypeParam} {explicit : Option Substitution}
  {args : List Value} {before after cs : List (Constructor β)} {c : Constructor β} {n : Nat}

/-- What has the best score is preferred. -/
theorem prefers_of_best? {k score : Nat}
    (h : best? (g.candidatesFrom params explicit args n cs) = some (k, score)) :
    ∃ before c after, cs = before ++ c :: after ∧ k = n + before.length ∧ score = g.score c ∧
      g.Prefers params explicit args before c after := by
  induction cs generalizing n k score with
  | nil => cases h
  | cons c cs ih =>
    -- places after `c` are counted from the next number on
    have hplace : ∀ before : List (Constructor β),
        n + 1 + before.length = n + (c :: before).length := by
      intro before
      rw [List.length_cons]
      omega
    by_cases hc : g.isApplicable params explicit args c = true
    · rw [candidatesFrom_cons_of_applicable hc, best?] at h
      cases hb : best? (g.candidatesFrom params explicit args (n + 1) cs) with
      | none =>
        -- nothing after `c` is applicable
        simp only [hb, Option.some.injEq, Prod.mk.injEq] at h
        obtain ⟨rfl, rfl⟩ := h
        have hnone := not_applicable_of_candidatesFrom_eq_nil (eq_nil_of_best?_eq_none hb)
        exact ⟨[], c, cs, rfl, rfl, rfl, .first hc fun x hx hx' => absurd hx' (hnone x hx)⟩
      | some d =>
        obtain ⟨k', best⟩ := d
        obtain ⟨before, c', after, rfl, rfl, rfl, hp⟩ := ih hb
        simp only [hb] at h
        split at h
        · next hgt =>
          cases h
          exact ⟨c :: before, c', after, rfl, hplace before, rfl, hp.cons fun _ => hgt⟩
        · next hle =>
          cases h
          -- all that is applicable after `c` says no more than the best of it
          exact ⟨[], c, _, rfl, rfl, rfl, .first hc fun x hx hx' =>
            Nat.le_trans (hp.score_le x hx hx') (Nat.not_lt.1 hle)⟩
    · rw [candidatesFrom_cons_of_not_applicable hc] at h
      obtain ⟨before, c', after, rfl, rfl, rfl, hp⟩ := ih h
      exact ⟨c :: before, c', after, rfl, hplace before, rfl, hp.cons fun hc' => absurd hc' hc⟩

/-- What is preferred has the best score. -/
theorem Prefers.best? (h : g.Prefers params explicit args before c after) :
    best? (g.candidatesFrom params explicit args n (before ++ c :: after)) =
      some (n + before.length, g.score c) := by
  induction before generalizing n with
  | nil =>
    rw [List.nil_append, candidatesFrom_cons_of_applicable h.applicable, ClassGraph.best?]
    cases hb : ClassGraph.best? (g.candidatesFrom params explicit args (n + 1) after) with
    | none => rfl
    | some d =>
      obtain ⟨l₁, c', l₂, hl, -, hs, hp⟩ := prefers_of_best? hb
      have hc' : c' ∈ after := hl ▸ List.mem_append_right _ List.mem_cons_self
      have := h.after c' hc' hp.applicable
      have hle : ¬ d.2 > g.score c := by
        rw [hs]
        omega
      simp only [if_neg hle]
      rfl
  | cons b before ih =>
    have hrest := ih (n := n + 1) ⟨h.applicable, fun x hx => h.before x (List.mem_cons_of_mem _ hx),
      h.after⟩
    have hk : n + 1 + before.length = n + (b :: before).length := by
      rw [List.length_cons]
      omega
    rw [hk] at hrest
    rw [List.cons_append]
    by_cases hb : g.isApplicable params explicit args b = true
    · rw [candidatesFrom_cons_of_applicable hb, ClassGraph.best?, hrest]
      have hlt := h.before b List.mem_cons_self hb
      simp only [if_pos hlt]
    · rw [candidatesFrom_cons_of_not_applicable hb, hrest]

end Graph

namespace Registry

variable {r : Registry β} {cls : TypeId} {typeArgs : Option (List Ty)} {args : List Value}
  {d : ClassDef β} {k : Nat}

theorem select_of_instantiable (hd : r.instantiable cls = .ok d) :
    r.select cls typeArgs args = (r.selectIn d typeArgs args).map fun k => (d, k) := by
  rw [select, hd]

theorem select_eq_ok_iff_of_instantiable (hd : r.instantiable cls = .ok d) :
    r.select cls typeArgs args = .ok (d, k) ↔ r.selectIn d typeArgs args = .ok k := by
  rw [select_of_instantiable hd, map_eq_ok_iff]
  simp

/-- In a class, a constructor is selected exactly when the explicit type arguments are in order and
the constructor is preferred. -/
theorem selectIn_eq_ok_iff_prefers : r.selectIn d typeArgs args = .ok k ↔
    ∃ explicit, d.explicitBindings typeArgs = .ok explicit ∧
      explicit.bind (r.graph.violated? · d.typeParams) = none ∧
      ∃ before c after, d.constructors = before ++ c :: after ∧ before.length = k ∧
        r.graph.Prefers d.typeParams explicit args before c after := by
  constructor
  · intro h
    unfold selectIn at h
    cases he : d.explicitBindings typeArgs with
    | error e => simp [he] at h
    | ok explicit =>
    cases hv : explicit.bind (r.graph.violated? · d.typeParams) with
    | some p => simp [he, hv] at h
    | none =>
    cases hb : best? (r.graph.candidates d.typeParams explicit args d.constructors) with
    | none => simp [he, hv, hb] at h
    | some best =>
    simp only [he, hv, hb, Except.ok.injEq] at h
    obtain ⟨before, c, after, hcs, hbest, -, hp⟩ := Graph.prefers_of_best? (n := 0) hb
    exact ⟨explicit, rfl, hv, before, c, after, hcs, by omega, hp⟩
  · rintro ⟨explicit, he, hv, before, c, after, hcs, rfl, hp⟩
    have hb : best? (r.graph.candidates d.typeParams explicit args d.constructors) =
        some (0 + before.length, r.graph.score c) := by
      rw [hcs]
      exact hp.best?
    simp [selectIn, he, hv, hb]

/-- What is selected is a constructor of a class that can have instances. -/
theorem instantiable_of_select (h : r.select cls typeArgs args = .ok (d, k)) :
    r.instantiable cls = .ok d := by
  unfold select at h
  cases hd : r.instantiable cls with
  | error e => simp [hd] at h
  | ok d' =>
    simp only [hd] at h
    obtain ⟨k', -, he⟩ := map_eq_ok_iff.1 h
    rw [(Prod.mk.inj he).1]

/-- **A constructor is selected** exactly when the explicit type arguments are in order and the
constructor is preferred. -/
theorem select_eq_ok_iff : r.select cls typeArgs args = .ok (d, k) ↔
    r.instantiable cls = .ok d ∧ ∃ explicit, d.explicitBindings typeArgs = .ok explicit ∧
      explicit.bind (r.graph.violated? · d.typeParams) = none ∧
      ∃ before c after, d.constructors = before ++ c :: after ∧ before.length = k ∧
        r.graph.Prefers d.typeParams explicit args before c after := by
  constructor
  · intro h
    have hd := instantiable_of_select h
    exact ⟨hd, selectIn_eq_ok_iff_prefers.1 ((select_eq_ok_iff_of_instantiable hd).1 h)⟩
  · rintro ⟨hd, h⟩
    exact (select_eq_ok_iff_of_instantiable hd).2 (selectIn_eq_ok_iff_prefers.2 h)

end Registry

end ClassGraph
