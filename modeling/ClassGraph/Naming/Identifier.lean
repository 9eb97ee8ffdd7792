import ClassGraph.Ty
import ClassGraph.Naming.Alphabetic
import ClassGraph.Naming.Numeric

/-!
# Identifiers

Classes, declared types and declared type parameters are named by identifiers: a letter or an
underscore, then letters, digits and underscores. Letters and digits are those of Unicode. The
sign `separator` marks names that were made fresh, and no identifier holds it.
-/

namespace ClassGraph

/-- Stands between a type parameter's own name and the number that makes it fresh. -/
def separator : Char := '#'

/-- Does one of the runs hold the character? -/
def inRuns (runs : Array (Nat × Nat)) (c : Char) : Bool :=
  runs.any fun r => r.1 ≤ c.toNat && c.toNat ≤ r.2

/-- Is the character alphabetic? -/
def isAlphabetic (c : Char) : Bool := c.isAlpha || inRuns alphabeticRuns c

/-- Is the character a digit or another number sign? -/
def isNumeric (c : Char) : Bool := c.isDigit || inRuns numericRuns c

/-- May the character open an identifier? -/
def opensIdentifier (c : Char) : Bool := isAlphabetic c || c = '_'

/-- May the character stand after the first one of an identifier? -/
def continuesIdentifier (c : Char) : Bool := isAlphabetic c || isNumeric c || c = '_'

/-- Do the characters spell an identifier? -/
def spellsIdentifier : List Char → Bool
  | [] => false
  | c :: cs => opensIdentifier c && cs.all continuesIdentifier && !(c :: cs).contains separator

/-- Is the name an identifier? -/
def isIdentifier (n : Name) : Bool := spellsIdentifier n.toList

/-- An identifier never holds the separator. -/
theorem separator_not_mem_of_isIdentifier {n : Name} (h : isIdentifier n = true) :
    separator ∉ n.toList := by
  unfold isIdentifier at h
  cases hn : n.toList with
  | nil => simp
  | cons c cs =>
    rw [hn] at h
    simp only [spellsIdentifier, Bool.and_eq_true, Bool.not_eq_true', List.contains_eq_mem,
      decide_eq_false_iff_not] at h
    exact h.2

/-- An identifier is not empty. -/
theorem ne_empty_of_isIdentifier {n : Name} (h : isIdentifier n = true) : n ≠ "" := by
  rintro rfl
  simp [isIdentifier, spellsIdentifier] at h

end ClassGraph
