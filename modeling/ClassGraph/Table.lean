/-!
# Finite tables

A `Table κ α` is a finite map from keys to values, listed in the order in which the keys were
first written. Writing a key again replaces its value and keeps its place.

* `get?_insert`: after a write, the written key has the new value and every other key its old one;
* `contains_iff_mem_keys`: the keys listed are exactly the keys that have a value;
* `size_insert`: a write adds one entry exactly when the key is new.
-/

namespace ClassGraph

universe u v

/-- A finite map with its keys in order of first insertion; no key occurs twice. -/
@[ext] structure Table (κ : Type u) (α : Type v) where
  entries : List (κ × α)
  nodup_keys : (entries.map Prod.fst).Nodup

namespace Table

variable {κ : Type u} {α : Type v} [DecidableEq κ]

instance [DecidableEq α] : DecidableEq (Table κ α) := fun s t =>
  decidable_of_iff (s.entries = t.entries) Table.ext_iff.symm

/-- The table without entries. -/
def empty : Table κ α := ⟨[], List.nodup_nil⟩

instance : EmptyCollection (Table κ α) := ⟨empty⟩

instance : Inhabited (Table κ α) := ⟨empty⟩

/-- The value at `k` in a list of entries: the first one, if there are several. -/
def find (k : κ) : List (κ × α) → Option α
  | [] => none
  | (k', a) :: rest => if k' = k then some a else find k rest

/-- Replaces the value at `k` in place, or appends the pair if `k` is new. -/
def write (k : κ) (a : α) : List (κ × α) → List (κ × α)
  | [] => [(k, a)]
  | (k', a') :: rest => if k' = k then (k, a) :: rest else (k', a') :: write k a rest

theorem keys_write (k : κ) (a : α) (es : List (κ × α)) :
    (write k a es).map Prod.fst =
      if k ∈ es.map Prod.fst then es.map Prod.fst else es.map Prod.fst ++ [k] := by
  induction es with
  | nil => simp [write]
  | cons e es ih =>
    obtain ⟨k', a'⟩ := e
    by_cases h : k' = k
    · simp [write, h]
    · have h' : ¬ k = k' := fun e => h e.symm
      simp only [write, h, if_false, List.map_cons, ih, List.mem_cons, h', false_or]
      split <;> simp

theorem nodup_write (k : κ) (a : α) {es : List (κ × α)} (h : (es.map Prod.fst).Nodup) :
    ((write k a es).map Prod.fst).Nodup := by
  rw [keys_write]
  split
  · exact h
  · next hk =>
    refine List.nodup_append.2 ⟨h, by simp, ?_⟩
    intro x hx y hy hxy
    rw [List.mem_singleton] at hy
    exact hk (hy ▸ hxy ▸ hx)

theorem find_write (k k' : κ) (a : α) (es : List (κ × α)) :
    find k' (write k a es) = if k = k' then some a else find k' es := by
  induction es with
  | nil => simp [write, find]
  | cons e es ih =>
    obtain ⟨l, b⟩ := e
    by_cases h : l = k
    · subst h
      by_cases h' : l = k' <;> simp [write, find, h']
    · by_cases h' : l = k'
      · subst h'
        have : ¬ k = l := fun e => h e.symm
        simp [write, find, h, this]
      · simp [write, find, h, h', ih]

theorem find_isSome_iff (k : κ) (es : List (κ × α)) :
    (find k es).isSome ↔ k ∈ es.map Prod.fst := by
  induction es with
  | nil => simp [find]
  | cons e es ih =>
    obtain ⟨l, b⟩ := e
    by_cases h : l = k
    · simp [find, h]
    · have : ¬ k = l := fun e => h e.symm
      simp [find, h, this, ih]

/-- The value at `k`. -/
def get? (t : Table κ α) (k : κ) : Option α := find k t.entries

/-- Is there a value at `k`? -/
def contains (t : Table κ α) (k : κ) : Bool := (t.get? k).isSome

/-- Writes `a` at `k`. -/
def insert (t : Table κ α) (k : κ) (a : α) : Table κ α :=
  ⟨write k a t.entries, nodup_write k a t.nodup_keys⟩

/-- The keys in order of first insertion. -/
def keys (t : Table κ α) : List κ := t.entries.map Prod.fst

/-- The number of keys. -/
def size (t : Table κ α) : Nat := t.keys.length

/-- Is the table without entries? -/
def isEmpty (t : Table κ α) : Bool := t.entries.isEmpty

/-- Applies `f` to every value. -/
def mapValues {β : Type v} (f : α → β) (t : Table κ α) : Table κ β :=
  ⟨t.entries.map fun e => (e.1, f e.2), by
    rw [List.map_map]; exact t.nodup_keys⟩

variable {t : Table κ α} {k k' : κ} {a : α}

@[simp] theorem get?_empty : (∅ : Table κ α).get? k = none := rfl

theorem get?_insert : (t.insert k a).get? k' = if k = k' then some a else t.get? k' :=
  find_write k k' a t.entries

@[simp] theorem get?_insert_self : (t.insert k a).get? k = some a := by simp [get?_insert]

theorem get?_insert_of_ne (h : k ≠ k') : (t.insert k a).get? k' = t.get? k' := by
  simp [get?_insert, h]

theorem contains_insert : (t.insert k a).contains k' = (decide (k = k') || t.contains k') := by
  by_cases h : k = k' <;> simp [contains, get?_insert, h]

theorem contains_iff_mem_keys : t.contains k = true ↔ k ∈ t.keys :=
  find_isSome_iff k t.entries

theorem keys_insert :
    (t.insert k a).keys = if k ∈ t.keys then t.keys else t.keys ++ [k] :=
  keys_write k a t.entries

theorem find_map {β : Type v} (f : α → β) (k : κ) (es : List (κ × α)) :
    find k (es.map fun e => (e.1, f e.2)) = (find k es).map f := by
  induction es with
  | nil => rfl
  | cons e es ih => by_cases h : e.1 = k <;> simp [find, h, ih]

theorem get?_mapValues {β : Type v} (f : α → β) : (t.mapValues f).get? k = (t.get? k).map f :=
  find_map f k t.entries

theorem size_insert : (t.insert k a).size = if t.contains k then t.size else t.size + 1 := by
  rw [size, keys_insert]
  by_cases h : k ∈ t.keys
  · simp [h, contains_iff_mem_keys.2 h, size]
  · have : t.contains k = false := by
      rw [← Bool.not_eq_true, contains_iff_mem_keys]; exact h
    simp [h, this, size]

end Table

end ClassGraph
