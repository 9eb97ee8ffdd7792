import ClassGraph.Naming.Identifier

/-!
# Fresh names for inherited type parameters

A class inherits the type parameters of its ancestors and may declare parameters of the same
names. The inherited ones are therefore renamed first: within one *scope* the parameter `T`
becomes `T#g`, where `g` is the number of the scope, and a name that was made fresh before loses
its old number, so `T#2` becomes `T#g` as well.

* `Fresh.next`: every scope has a number of its own, counted from 1;
* `Scope.rename`: one name has one fresh name within a scope;
* `Scope.renameParams`: parameters are renamed first and their bounds follow.
-/

namespace ClassGraph

/-- The part of a name before the first separator: the name that was declared. -/
def baseName (n : Name) : Name := .ofList (n.toList.takeWhile (· ≠ separator))

/-- The fresh form of a name in the scope with the given number. -/
def freshName (generation : Nat) (n : Name) : Name :=
  .ofList ((baseName n).toList ++ separator :: (Nat.repr generation).toList)

theorem toList_baseName (n : Name) : (baseName n).toList = n.toList.takeWhile (· ≠ separator) := by
  simp [baseName]

theorem toList_freshName (generation : Nat) (n : Name) :
    (freshName generation n).toList =
      (baseName n).toList ++ separator :: (Nat.repr generation).toList := by
  simp [freshName]

/-- A base name does not hold the separator. -/
theorem separator_not_mem_baseName (n : Name) : separator ∉ (baseName n).toList := by
  rw [toList_baseName]
  intro h
  simpa using List.all_eq_true.1 List.all_takeWhile _ h

/-- What follows the first separator does not matter for the base name. -/
theorem takeWhile_append_separator {cs : List Char} (h : separator ∉ cs) (rest : List Char) :
    (cs ++ separator :: rest).takeWhile (· ≠ separator) = cs := by
  have hcs : ∀ c ∈ cs, decide (c ≠ separator) = true := fun c hc =>
    decide_eq_true fun e => h (e ▸ hc)
  rw [List.takeWhile_append_of_pos hcs]
  simp

/-- Making a name fresh keeps its base name. -/
theorem baseName_freshName (generation : Nat) (n : Name) :
    baseName (freshName generation n) = baseName n := by
  rw [← String.toList_inj, toList_baseName, toList_freshName,
    takeWhile_append_separator (separator_not_mem_baseName n)]

/-- A fresh name holds the separator, so it is no identifier. -/
theorem isIdentifier_freshName (generation : Nat) (n : Name) :
    isIdentifier (freshName generation n) = false := by
  rw [← Bool.not_eq_true]
  intro h
  refine separator_not_mem_of_isIdentifier h ?_
  rw [toList_freshName]
  simp

/-- Where scopes take their numbers from. -/
structure Fresh where
  next : Nat
deriving DecidableEq, Repr

/-- No scope has been opened; numbers start at 1. -/
def Fresh.start : Fresh := ⟨1⟩

instance : Inhabited Fresh := ⟨.start⟩

/-- A scope of renaming: its number and the names renamed so far. -/
structure Scope where
  generation : Nat
  renames : Table Name Name
deriving DecidableEq

/-- Opens a scope under the next number. -/
def Fresh.openScope (f : Fresh) : Scope × Fresh := (⟨f.next, ∅⟩, ⟨f.next + 1⟩)

namespace Scope

/-- The fresh name of `n`, which stays the same for as long as the scope lives. -/
def rename (s : Scope) (n : Name) : Name × Scope :=
  match s.renames.get? n with
  | some m => (m, s)
  | none =>
    let m := freshName s.generation n
    (m, { s with renames := s.renames.insert n m })

/-- A name is renamed the same way again. -/
theorem rename_again (s : Scope) (n : Name) : (s.rename n).2.rename n = s.rename n := by
  unfold rename
  cases h : s.renames.get? n with
  | some m => simp [h]
  | none => simp

/-- Renames several names in order. -/
def renameAll (s : Scope) : List Name → List Name × Scope
  | [] => ([], s)
  | n :: ns =>
    let (m, s) := s.rename n
    let (ms, s) := s.renameAll ns
    (m :: ms, s)

/-- The renamed parameters as a substitution: each stands for its fresh name. -/
def substitution (s : Scope) : Substitution := s.renames.mapValues .param

/-- Renames the parameters in a type that the scope has renamed, and no others. -/
def renameTy (s : Scope) (t : Ty) : Ty := t.subst s.substitution

/-- Renames the parameters and after that what their bounds mention, so that a bound on a sibling
follows it. -/
def renameParams (s : Scope) (ps : List TypeParam) : List TypeParam × Scope :=
  let (ns, s) := s.renameAll (ps.map (·.name))
  (ps.zipWith (fun p n => ⟨n, s.renameTy p.bound⟩) ns, s)

theorem get?_substitution (s : Scope) (n : Name) :
    s.substitution.get? n = (s.renames.get? n).map .param :=
  Table.get?_mapValues _

end Scope

end ClassGraph
