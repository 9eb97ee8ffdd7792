import ClassGraph.Heritage
import Mathlib.Data.List.Nodup

/-!
# The heritage as a renaming

A layout mentions type parameters in its bounds and in its field types. If it mentions none but
its own, what it passes on is the layout itself under the one renaming `freshName g`, where `g` is
the number of the scope.

* `freshName_inj_iff`: two names fall together exactly when they have the same base name.
* `Layout.passOn_params`, `Layout.passOn_fields`: **the heritage is the renamed layout.**
* `Layout.get?_passOn_substitution`: its substitution knows exactly the parameters of the layout.
-/

namespace ClassGraph

/-! ## Parameters mentioned in a type -/

namespace Ty

/-- The type parameters that occur in a type. -/
def params : Ty → List Name
  | param n => [n]
  | list t => t.params
  | _ => []

/-- Renames every parameter of a type. -/
def rename (f : Name → Name) : Ty → Ty
  | param n => param (f n)
  | list t => list (t.rename f)
  | any => any
  | prim p => prim p
  | named n => named n

@[simp] theorem params_any : params any = [] := rfl
@[simp] theorem params_prim (p : Prim) : params (prim p) = [] := rfl
@[simp] theorem params_named (n : Name) : params (named n) = [] := rfl
@[simp] theorem params_param (n : Name) : params (param n) = [n] := rfl
@[simp] theorem params_list (t : Ty) : params (list t) = t.params := rfl

/-- A type is closed when no parameter occurs in it. -/
theorem isClosed_iff_params {t : Ty} : t.isClosed = true ↔ t.params = [] := by
  induction t with
  | param n => simp [isClosed]
  | list t ih => simpa [isClosed] using ih
  | any | prim _ | named _ => simp [isClosed]

theorem params_rename (f : Name → Name) (t : Ty) : (t.rename f).params = t.params.map f := by
  induction t with
  | list t ih => simpa [rename] using ih
  | any | prim _ | named _ | param _ => rfl

/-- There is nothing to rename in a type without parameters. -/
theorem rename_of_params_eq_nil {f : Name → Name} {t : Ty} (h : t.params = []) :
    t.rename f = t := by
  induction t with
  | param n => simp at h
  | list t ih => rw [rename, ih h]
  | any | prim _ | named _ => rfl

/-- Two substitutions that agree on the parameters of a type do the same to it. -/
theorem subst_congr {s s' : Substitution} {t : Ty} (h : ∀ n ∈ t.params, s.get? n = s'.get? n) :
    t.subst s = t.subst s' := by
  induction t with
  | param n => simp [h n (by simp)]
  | list t ih => rw [subst_list, subst_list, ih h]
  | any | prim _ | named _ => rfl

/-- A substitution that sends each parameter of a type to another parameter renames it. -/
theorem subst_eq_rename {s : Substitution} {f : Name → Name} {t : Ty}
    (h : ∀ n ∈ t.params, s.get? n = some (param (f n))) : t.subst s = t.rename f := by
  induction t with
  | param n => simp [h n (by simp), rename]
  | list t ih => rw [subst_list, ih h, rename]
  | any | prim _ | named _ => rfl

/-- To substitute in a renamed type is to substitute in the type, if each parameter stands for the
same type under both names. -/
theorem subst_rename {s s' : Substitution} {f : Name → Name} {t : Ty}
    (h : ∀ n ∈ t.params, ∃ u, s.get? n = some u ∧ s'.get? (f n) = some u) :
    (t.rename f).subst s' = t.subst s := by
  induction t with
  | param n =>
    obtain ⟨u, hu, hu'⟩ := h n (by simp)
    simp [rename, hu, hu']
  | list t ih => rw [rename, subst_list, subst_list, ih h]
  | any | prim _ | named _ => rfl

end Ty

/-- Renames a type parameter, in its bound too. -/
def TypeParam.rename (f : Name → Name) (p : TypeParam) : TypeParam := ⟨f p.name, p.bound.rename f⟩

/-- Renames the type parameters in the type of a field. -/
def Field.rename (f : Name → Name) (x : Field) : Field := ⟨x.name, x.ty.rename f⟩

@[simp] theorem TypeParam.name_rename (f : Name → Name) (p : TypeParam) :
    (p.rename f).name = f p.name := rfl

@[simp] theorem TypeParam.bound_rename (f : Name → Name) (p : TypeParam) :
    (p.rename f).bound = p.bound.rename f := rfl

@[simp] theorem Field.ty_rename (f : Name → Name) (x : Field) : (x.rename f).ty = x.ty.rename f := rfl

namespace Layout

/-- The types that a layout writes down: bounds and field types. -/
def types (l : Layout) : List Ty := l.typeParams.map (·.bound) ++ l.fields.map (·.ty)

/-- A layout is **closed** if it mentions no type parameters but its own. -/
def Closed (l : Layout) : Prop := ∀ t ∈ l.types, ∀ n ∈ t.params, n ∈ l.paramNames

theorem Closed.bound {l : Layout} (h : l.Closed) {p : TypeParam} (hp : p ∈ l.typeParams) :
    ∀ n ∈ p.bound.params, n ∈ l.paramNames :=
  h _ (List.mem_append_left _ (List.mem_map_of_mem hp))

theorem Closed.field {l : Layout} (h : l.Closed) {f : Field} (hf : f ∈ l.fields) :
    ∀ n ∈ f.ty.params, n ∈ l.paramNames :=
  h _ (List.mem_append_right _ (List.mem_map_of_mem hf))

end Layout

/-! ## Fresh names -/

/-- **Fresh names of one scope** coincide exactly when the base names do. -/
theorem freshName_inj_iff {g : Nat} {m n : Name} :
    freshName g m = freshName g n ↔ baseName m = baseName n := by
  constructor
  · intro h
    rw [← baseName_freshName g m, h, baseName_freshName]
  · intro h
    rw [← String.toList_inj, toList_freshName, toList_freshName, h]

/-- An identifier is its own base name. -/
theorem baseName_of_isIdentifier {n : Name} (h : isIdentifier n = true) : baseName n = n := by
  have hn := separator_not_mem_of_isIdentifier h
  have hc : ∀ c ∈ n.toList, decide (c ≠ separator) = true := fun c hc =>
    decide_eq_true fun e => hn (e ▸ hc)
  rw [← String.toList_inj, toList_baseName, ← List.append_nil n.toList,
    List.takeWhile_append_of_pos hc]
  simp

/-- Renaming a list of names keeps it free of repetitions exactly when the base names are. -/
theorem nodup_map_freshName {g : Nat} {ns : List Name} :
    (ns.map (freshName g)).Nodup ↔ (ns.map baseName).Nodup := by
  simp only [List.Nodup, List.pairwise_map, ne_eq, freshName_inj_iff]

/-! ## Scopes -/

namespace Scope

/-- All that a scope has renamed, it has renamed to fresh names under its own number. -/
def Uniform (s : Scope) : Prop :=
  ∀ n m, s.renames.get? n = some m → m = freshName s.generation n

theorem rename_fst {s : Scope} (hs : s.Uniform) (n : Name) :
    (s.rename n).1 = freshName s.generation n := by
  unfold rename
  cases h : s.renames.get? n with
  | none => rfl
  | some m => exact hs n m h

theorem rename_generation (s : Scope) (n : Name) : (s.rename n).2.generation = s.generation := by
  unfold rename
  cases s.renames.get? n <;> rfl

theorem get?_rename {s : Scope} (hs : s.Uniform) (n k : Name) :
    (s.rename n).2.renames.get? k =
      if n = k then some (freshName s.generation k) else s.renames.get? k := by
  unfold rename
  cases h : s.renames.get? n with
  | none =>
    simp only [Table.get?_insert]
    by_cases e : n = k <;> simp [e]
  | some m =>
    by_cases e : n = k
    · simp only [if_pos e]
      rw [← e, h, hs n m h]
    · simp only [if_neg e]

theorem rename_uniform {s : Scope} (hs : s.Uniform) (n : Name) : (s.rename n).2.Uniform := by
  intro k m h
  rw [get?_rename hs] at h
  rw [rename_generation]
  split at h
  · exact (Option.some.inj h).symm
  · exact hs k m h

/-- Renaming a list of names gives the fresh ones, and adds exactly these names to the scope. -/
theorem renameAll_spec {s : Scope} (hs : s.Uniform) (ns : List Name) :
    (s.renameAll ns).1 = ns.map (freshName s.generation) ∧
      ∀ k, (s.renameAll ns).2.renames.get? k =
        if k ∈ ns then some (freshName s.generation k) else s.renames.get? k := by
  induction ns generalizing s with
  | nil => simp [renameAll]
  | cons n ns ih =>
    obtain ⟨h1, h2⟩ := ih (rename_uniform hs n)
    rw [rename_generation] at h1 h2
    refine ⟨by simp [renameAll, rename_fst hs, h1], fun k => ?_⟩
    simp only [renameAll, h2, get?_rename hs, List.mem_cons]
    by_cases hk : k ∈ ns
    · simp [hk]
    · by_cases hn : n = k
      · simp [hn]
      · have hn' : ¬ k = n := fun e => hn e.symm
        simp [hk, hn, hn']

theorem uniform_open (g : Nat) : Uniform ⟨g, ∅⟩ := by
  intro n m h
  rw [Table.get?_empty] at h
  cases h

end Scope

/-! ## What a layout passes on -/

namespace Layout

variable {l : Layout} {sup : Option TypeId} {g : Nat}

/-- **The substitution of a heritage** sends each parameter of the layout to its fresh name and
knows no other name. -/
theorem get?_passOn_substitution (n : Name) :
    (l.passOn sup ⟨g, ∅⟩).substitution.get? n =
      if n ∈ l.paramNames then some (.param (freshName g n)) else none := by
  have h := (Scope.renameAll_spec (Scope.uniform_open g) l.paramNames).2 n
  rw [Table.get?_empty] at h
  have hs : (l.passOn sup ⟨g, ∅⟩).substitution =
      (Scope.renameAll ⟨g, ∅⟩ l.paramNames).2.substitution := rfl
  rw [hs, Scope.get?_substitution, h]
  split <;> rfl

/-- A type that mentions only parameters of the layout is renamed by the heritage. -/
theorem subst_passOn {t : Ty} (ht : ∀ n ∈ t.params, n ∈ l.paramNames) :
    t.subst (l.passOn sup ⟨g, ∅⟩).substitution = t.rename (freshName g) := by
  refine Ty.subst_eq_rename fun n hn => ?_
  rw [get?_passOn_substitution, if_pos (ht n hn)]

/-- **The parameters passed on** are those of the layout, renamed. -/
theorem passOn_params (hl : l.Closed) :
    (l.passOn sup ⟨g, ∅⟩).params = l.typeParams.map (·.rename (freshName g)) := by
  have h := (Scope.renameAll_spec (Scope.uniform_open g) l.paramNames).1
  have hp : (l.passOn sup ⟨g, ∅⟩).params =
      l.typeParams.zipWith
        (fun p n => ⟨n, p.bound.subst (l.passOn sup ⟨g, ∅⟩).substitution⟩)
        (Scope.renameAll ⟨g, ∅⟩ l.paramNames).1 := rfl
  rw [hp, h, paramNames, List.map_map, List.zipWith_map_right, List.zipWith_self]
  refine List.map_congr_left fun p hp => ?_
  rw [subst_passOn (hl.bound hp)]
  rfl

/-- **The fields passed on** are those of the layout, their types renamed. -/
theorem passOn_fields (hl : l.Closed) :
    (l.passOn sup ⟨g, ∅⟩).fields = l.fields.map (·.rename (freshName g)) := by
  have hf : (l.passOn sup ⟨g, ∅⟩).fields =
      l.fields.map fun f => ⟨f.name, f.ty.subst (l.passOn sup ⟨g, ∅⟩).substitution⟩ := rfl
  rw [hf]
  refine List.map_congr_left fun f hf => ?_
  rw [subst_passOn (hl.field hf)]
  rfl

end Layout

end ClassGraph
