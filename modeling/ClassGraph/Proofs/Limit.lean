import ClassGraph.Construct.Run

/-!
# Constructions that stay within the limit

A construction that never gets to the limit on nested constructor calls comes to the same with a
higher limit. To never get there means to have an outcome although `giveUp` stands at the limit,
which has none.

* `World.constructStrictly`: a construction without an outcome if it gets to the limit.
* `invokeOr_mono`: **what stays within the limit** does not depend on how much is left of it.
-/

namespace ClassGraph

/-- The one outcome is the other, if there is one at all. -/
def Outcome.Within (o o' : Outcome) : Prop := ∀ x, o = some x → o' = some x

/-- Each construction that has an outcome the first way has it the second way. -/
def Construction.Within (c c' : Construction) : Prop :=
  ∀ cls typeArgs args w, (c cls typeArgs args w).Within (c' cls typeArgs args w)

/-- Each invocation that has an outcome the first way has it the second way. -/
def Invocation.Within (i i' : Invocation) : Prop :=
  ∀ d index typeArgs args w, (i d index typeArgs args w).Within (i' d index typeArgs args w)

/-- At the limit there is no outcome. -/
def giveUp : Invocation := fun _ _ _ _ _ => none

/-- Constructs an instance, with no outcome if constructor calls nest to the limit. -/
def World.constructStrictly (w : World) (budget : Nat) (cls : TypeId)
    (typeArgs : Option (List Ty)) (args : List Value) : Outcome :=
  match budget with
  | 0 => none
  | budget + 1 =>
    dispatch (invokeOr giveUp (constructWithin budget) w.registry.settings.maxConstructorDepth)
      cls typeArgs args w

theorem Outcome.Within.refl (o : Outcome) : o.Within o := fun _ h => h

theorem Outcome.Within.andThen {o o' : Outcome} (h : o.Within o')
    (f : Registry Body → Instance → Except Error Instance) :
    (o.andThen f).Within (o'.andThen f) := by
  intro x hx
  cases ho : o with
  | none =>
    rw [ho] at hx
    cases hx
  | some y =>
    rw [h y ho, ← hx, ho]

theorem dispatch_mono {i i' : Invocation} (h : i.Within i') :
    (dispatch i).Within (dispatch i') := by
  intro cls typeArgs args w
  unfold dispatch
  split
  · exact .refl _
  · exact h _ _ _ _ _

/-- A program that has an outcome has it whatever more of its calls have one. -/
theorem Program.run_mono {call call' : Construction} (h : call.Within call')
    (construct : Construction) (site : CallSite) : ∀ (p : Program) (w : World),
      (p.run call construct site w).Within (p.run call' construct site w)
  | .done _, _ => .refl _
  | .log _ next, _ => run_mono h construct site next _
  | .newInstance _ next, _ => run_mono h construct site (next _) _
  | .call typeArgs args next, w => by
    intro x hx
    rw [run] at hx ⊢
    cases hc : call site.cls typeArgs args w with
    | none =>
      rw [hc] at hx
      cases hx
    | some y =>
      obtain ⟨result, w'⟩ := y
      rw [hc] at hx
      rw [h _ _ _ _ _ hc]
      exact run_mono h construct site (next result) w' x hx
  | .construct cls typeArgs args next, w => by
    rw [run, run]
    cases construct cls typeArgs args w with
    | none => exact .refl _
    | some y => exact run_mono h construct site (next y.1) y.2
  | .define _ next, _ => run_mono h construct site (next _) _
  | .declare _ _ _ next, _ => run_mono h construct site (next _) _
  | .heritage _ next, _ => run_mono h construct site (next _) _
  | .look next, _ => run_mono h construct site (next _) _

/-- What a body comes to depends on the limit through the constructors that it calls alone. -/
theorem runBody_mono {i i' : Invocation} (h : i.Within i') (construct : Construction)
    (depth depth' : Nat) (d : ClassDef Body) (body : Body) (site : CallSite) (args : List Value)
    (w : World) :
    (runBody (dispatch i) construct d body ⟨site, depth⟩ args w).Within
      (runBody (dispatch i') construct d body ⟨site, depth'⟩ args w) :=
  (Program.run_mono (dispatch_mono h) construct site (body site args) w).andThen _

/-- So does what a constructor does. -/
theorem runConstructor_mono {i i' : Invocation} (h : i.Within i') (construct : Construction)
    (depth depth' : Nat) (d : ClassDef Body) (c : Constructor Body) (typeArgs : Option (List Ty))
    (args : List Value) (w : World) :
    (runConstructor construct i depth d c typeArgs args w).Within
      (runConstructor construct i' depth' d c typeArgs args w) := by
  unfold runConstructor
  cases c.kind with
  | default => exact .refl _
  | copyExtend => exact .refl _
  | user body => exact runBody_mono h construct _ _ d body _ args w
  | guide target =>
    unfold runGuide
    cases d.guideTarget w.registry with
    | error e => exact .refl _
    | ok parent => exact (h _ _ _ _ _).andThen _

/-- **What stays within the limit** comes to the same if more is left of it, whatever stands at the
limit then. -/
theorem invokeOr_mono (atLimit : Invocation) (construct : Construction) {n m : Nat} (hnm : n ≤ m) :
    (invokeOr giveUp construct n).Within (invokeOr atLimit construct m) := by
  -- on what the stricter of the two has left: `giveUp` is where it ends
  induction n generalizing m with
  | zero =>
    intro d index typeArgs args w x hx
    cases hx
  | succ n ih =>
    obtain ⟨m, rfl⟩ : ∃ k, m = k + 1 := ⟨m - 1, by omega⟩
    intro d index typeArgs args w
    unfold invokeOr
    cases d.constructors[index]? with
    | none => exact .refl _
    | some c =>
      exact runConstructor_mono (ih (by omega)) construct _ _ d c typeArgs args w

/-- A construction that stays within the limit is a construction. -/
theorem World.constructStrictly_within (w : World) (budget : Nat) (cls : TypeId)
    (typeArgs : Option (List Ty)) (args : List Value) :
    (w.constructStrictly budget cls typeArgs args).Within
      (w.construct budget cls typeArgs args) := by
  cases budget with
  | zero => exact .refl _
  | succ budget =>
    exact dispatch_mono (invokeOr_mono refuse (constructWithin budget) (Nat.le_refl _)) _ _ _ _

end ClassGraph
