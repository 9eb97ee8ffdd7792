import ClassGraph.Naming.Pool
import Mathlib.Algebra.BigOperators.Fin
import Mathlib.Algebra.Order.BigOperators.Group.Finset

/-!
# Atoms stand for names

A pool keeps the names of a shard in the order in which they have come, and an atom holds a shard
and a place in it. Names are never taken out and never moved. So as long as every shard has room for
its names, an atom once given out stands for its name for ever, whatever the shards of the names
are; different names have different atoms, and only the empty name has the atom of the empty name.

* `Atom.pack?_spec`: an atom gives back the shard and the place that it was made of.
* `Pool.Holds`: the pool holds just these names, which came in this order; `Pool.Holds.intern`:
  **one name more is put behind the others.**
* `Pool.Holds.resolve?`, `Pool.Holds.get?_mono`: an atom resolves to its name, and names keep their
  atoms.
* `Pool.interns`: **interning is an injection that only grows**, over every series of calls.
-/

namespace ClassGraph

/-! ## Atoms -/

namespace Atom

variable {place : Nat} {k : Fin shardCount} {a : Atom}

/-- **An atom gives back** the shard and the place that it was made of. -/
theorem pack?_spec (h : pack? place k = some a) : a.shard = k ∧ a.place = place := by
  unfold pack? at h
  split at h
  next hplace =>
    cases h
    have hk : (k : Nat) < 16 := k.isLt
    have hplace' : place < 2 ^ 28 := hplace
    -- four bits for the shard and 28 for the place
    have hval : (UInt32.ofNat (place * 16 + k)).toNat = place * 16 + k := by
      rw [UInt32.toNat_ofNat']
      omega
    refine ⟨Fin.ext ?_, ?_⟩
    · change (UInt32.ofNat (place * 16 + k)).toNat % 16 = k
      rw [hval]
      omega
    · change (UInt32.ofNat (place * 16 + k)).toNat / 16 = place
      rw [hval]
      omega
  · cases h

/-- There is an atom for every place that a shard has. -/
theorem exists_pack? (h : place < capacity) (k : Fin shardCount) : ∃ a, pack? place k = some a :=
  ⟨_, if_pos h⟩

end Atom

/-! ## What a pool holds -/

namespace Pool

variable {shardOf : Name → Fin shardCount} {p p' : Pool} {ns ms : List Name} {n : Name} {a : Atom}
  {k : Fin shardCount}

/-- What stands in a shard when these names have come in this order: the empty name, which has been
there from the start, and the names that belong to the shard. -/
def inShard (shardOf : Name → Fin shardCount) (ns : List Name) (k : Fin shardCount) : List Name :=
  (if k.val = 0 then [""] else []) ++ ns.filter (shardOf · = k)

/-- **The pool holds these names**, and the empty one. -/
structure Holds (p : Pool) (ns : List Name) : Prop where
  nodup : ns.Nodup
  nonempty : "" ∉ ns
  shards : ∀ k : Fin shardCount, p.shards[k].toList = inShard p.shardOf ns k

/-- Every shard has room for those of the names that belong to it. -/
def Room (shardOf : Name → Fin shardCount) (ns : List Name) : Prop :=
  ∀ k, (inShard shardOf ns k).length ≤ Atom.capacity

theorem inShard_append : inShard shardOf (ns ++ ms) k =
    inShard shardOf ns k ++ ms.filter (shardOf · = k) := by
  rw [inShard, List.filter_append, ← List.append_assoc, inShard]

/-- Names that come later do not move the others. -/
theorem idxOf?_inShard_append : (inShard shardOf (ns ++ ms) k).idxOf? n =
    ((inShard shardOf ns k).idxOf? n).or
      (((ms.filter (shardOf · = k)).idxOf? n).map (· + (inShard shardOf ns k).length)) := by
  rw [inShard_append, List.idxOf?, List.findIdx?_append]

theorem mem_inShard (hn : n ≠ "") : n ∈ inShard shardOf ns (shardOf n) ↔ n ∈ ns := by
  have hne : n ∉ if (shardOf n).val = 0 then [""] else [] := by
    split <;> simp [hn]
  simp [inShard, hne]

theorem Room.of_append (h : Room shardOf (ns ++ ms)) : Room shardOf ns := by
  intro k
  have hk := h k
  rw [inShard_append, List.length_append] at hk
  omega

/-- The pool of the empty name alone holds no other. -/
theorem holds_new (shardOf : Name → Fin shardCount) : (new shardOf).Holds [] where
  nodup := List.nodup_nil
  nonempty := List.not_mem_nil
  shards k := by
    simp only [new, inShard, Fin.getElem_fin, Vector.getElem_set, Vector.getElem_replicate,
      List.filter_nil, List.append_nil, eq_comm (a := 0)]
    split <;> rfl

/-- A name is looked up in the names of its shard. -/
theorem Holds.get?_eq (h : p.Holds ns) (hn : n ≠ "") :
    p.get? n =
      ((inShard p.shardOf ns (p.shardOf n)).idxOf? n).bind (Atom.pack? · (p.shardOf n)) := by
  rw [get?, if_neg hn, ← h.shards, ← List.idxOf?_toArray, Array.toArray_toList]

/-- An atom is looked up in its shard. -/
theorem Holds.resolve?_eq (h : p.Holds ns) (a : Atom) :
    p.resolve? a = (inShard p.shardOf ns a.shard)[a.place]? := by
  rw [Pool.resolve?, ← Array.getElem?_toList, h.shards]

/-- **An atom that is given for a name resolves to it.** -/
theorem Holds.resolve? (h : p.Holds ns) (ha : p.get? n = some a) : p.resolve? a = some n := by
  rw [h.resolve?_eq]
  by_cases hn : n = ""
  · obtain rfl : Atom.none = a := by simpa [get?, hn] using ha
    rw [hn]
    rfl
  · rw [h.get?_eq hn] at ha
    obtain ⟨i, hi, ha⟩ := Option.bind_eq_some_iff.1 ha
    obtain ⟨hshard, hplace⟩ := Atom.pack?_spec ha
    obtain ⟨hlt, hget, -⟩ := List.idxOf?_eq_some_iff.1 hi
    rw [hshard, hplace, List.getElem?_eq_getElem hlt, hget]

/-- A name that has not come yet is not found. -/
theorem Holds.get?_eq_none (h : p.Holds ns) (hn : n ≠ "") (hnew : n ∉ ns) : p.get? n = none := by
  rw [h.get?_eq hn, List.idxOf?_eq_none_iff.2 (mt (mem_inShard hn).1 hnew)]
  rfl

/-- A name that has come is found, if there is room. -/
theorem Holds.exists_get? (h : p.Holds ns) (hroom : Room p.shardOf ns) (hn : n ∈ ns) :
    ∃ a, p.get? n = some a := by
  have hne : n ≠ "" := fun e => h.nonempty (e ▸ hn)
  have hmem : n ∈ inShard p.shardOf ns (p.shardOf n) := (mem_inShard hne).2 hn
  obtain ⟨i, hi⟩ : ∃ i, (inShard p.shardOf ns (p.shardOf n)).idxOf? n = some i := by
    rw [← Option.isSome_iff_exists, Option.isSome_iff_ne_none, ne_eq, List.idxOf?_eq_none_iff]
    exact not_not_intro hmem
  obtain ⟨hlt, -⟩ := List.idxOf?_eq_some_iff.1 hi
  rw [h.get?_eq hne, hi]
  exact Atom.exists_pack? (Nat.lt_of_lt_of_le hlt (hroom _)) _

/-- **Names keep their atoms** when more names come. -/
theorem Holds.get?_mono (h : p.Holds ns) (h' : p'.Holds (ns ++ ms)) (hs : p'.shardOf = p.shardOf)
    (ha : p.get? n = some a) : p'.get? n = some a := by
  by_cases hn : n = ""
  · simpa [get?, hn] using ha
  · rw [h.get?_eq hn] at ha
    obtain ⟨i, hi, ha⟩ := Option.bind_eq_some_iff.1 ha
    rw [h'.get?_eq hn, hs, idxOf?_inShard_append, hi]
    exact ha

/-! ## How many names there are -/

theorem foldl_size (l : List (Array Name)) (m : Nat) :
    l.foldl (· + ·.size) m = m + (l.map Array.size).sum := by
  induction l generalizing m with
  | nil => rfl
  | cons xs l ih => rw [List.foldl_cons, ih, List.map_cons, List.sum_cons, Nat.add_assoc]

/-- The names are those of all shards. -/
theorem size_eq_sum (p : Pool) : p.size = ∑ k : Fin shardCount, p.shards[k].size := by
  have hlist : p.shards.toList = List.ofFn fun k : Fin shardCount => p.shards[k] :=
    List.ext_getElem (by simp) fun i h h' => by simp
  rw [size, ← Vector.foldl_toList, foldl_size, Nat.zero_add, hlist, List.map_ofFn, List.sum_ofFn]
  rfl

theorem length_inShard (hns : ns.Nodup) (k : Fin shardCount) : (inShard shardOf ns k).length =
    (if k.val = 0 then 1 else 0) + (ns.toFinset.filter (shardOf · = k)).card := by
  have hfilter : (ns.filter (shardOf · = k)).length =
      (ns.toFinset.filter (shardOf · = k)).card := by
    rw [← List.toFinset_card_of_nodup (hns.filter _), List.toFinset_filter]
    simp only [decide_eq_true_eq]
  rw [inShard, List.length_append, hfilter]
  split <;> rfl

/-- **The empty name counts for one**, and every other name stands in one shard. -/
theorem Holds.size (h : p.Holds ns) : p.size = 1 + ns.toFinset.card := by
  have hshard : ∀ k : Fin shardCount, p.shards[k].size =
      (if k.val = 0 then 1 else 0) + (ns.toFinset.filter (p.shardOf · = k)).card := fun k => by
    rw [← Array.length_toList, h.shards, length_inShard h.nodup]
  have hempty : ∑ k : Fin shardCount, (if k.val = 0 then 1 else 0) = 1 := by decide
  have hrest : ns.toFinset.card =
      ∑ k : Fin shardCount, (ns.toFinset.filter (p.shardOf · = k)).card :=
    Finset.card_eq_sum_card_fiberwise fun _ _ => Finset.mem_coe.2 (Finset.mem_univ _)
  rw [size_eq_sum, Finset.sum_congr rfl fun k _ => hshard k, Finset.sum_add_distrib, hempty, hrest]

end Pool

/-! ## Series of calls -/

/-- What can be asked of a pool. -/
inductive PoolCall
  | intern (n : Name)
  | get (n : Name)

/-- The name that the call interns, if it does. -/
def PoolCall.interned? : PoolCall → Option Name
  | intern n => some n
  | get _ => none

namespace Pool

/-- The pool after a call; to look up a name does nothing to it. -/
def after (p : Pool) : PoolCall → Pool
  | .intern n => (p.intern n).2
  | .get _ => p

/-- The pool before the call at place `i` of a series. -/
def before (shardOf : Name → Fin shardCount) (calls : List PoolCall) (i : Nat) : Pool :=
  (calls.take i).foldl after (new shardOf)

/-- The names that a series of calls interns, the empty one apart. -/
def interned (calls : List PoolCall) : Finset Name :=
  (calls.filterMap PoolCall.interned?).toFinset.erase ""

/-- **No shard exceeds its capacity** in a series of calls; the first one holds the empty name
too. -/
def Fits (shardOf : Name → Fin shardCount) (calls : List PoolCall) : Prop :=
  ∀ k : Fin shardCount, (if k.val = 0 then 1 else 0) +
    ((interned calls).filter (shardOf · = k)).card ≤ Atom.capacity

/-- Names in the order in which they come, with one call more. -/
def learn (ns : List Name) : PoolCall → List Name
  | .intern n => if n = "" ∨ n ∈ ns then ns else ns ++ [n]
  | .get _ => ns

/-- The names that a series of calls interns, in the order in which they come. -/
def known (calls : List PoolCall) : List Name := calls.foldl learn []

variable {shardOf : Name → Fin shardCount} {p p' : Pool} {ns : List Name} {n : Name}
  {c : PoolCall} {calls : List PoolCall}

theorem exists_learn (ns : List Name) (c : PoolCall) : ∃ ms, learn ns c = ns ++ ms := by
  cases c with
  | intern n =>
    rw [learn]
    split
    · exact ⟨[], (List.append_nil ns).symm⟩
    · exact ⟨[n], rfl⟩
  | get n => exact ⟨[], (List.append_nil ns).symm⟩

/-- What has been learnt stays where it is. -/
theorem exists_foldl_learn (ns : List Name) (calls : List PoolCall) :
    ∃ ms, calls.foldl learn ns = ns ++ ms := by
  induction calls generalizing ns with
  | nil => exact ⟨[], (List.append_nil ns).symm⟩
  | cons c calls ih =>
    obtain ⟨ms, hms⟩ := exists_learn ns c
    obtain ⟨ms', hms'⟩ := ih (learn ns c)
    exact ⟨ms ++ ms', by rw [List.foldl_cons, hms', hms, List.append_assoc]⟩

theorem mem_learn : n ∈ learn ns c ↔ n ∈ ns ∨ (n ≠ "" ∧ c = .intern n) := by
  cases c with
  | intern m =>
    rw [learn]
    split
    next hm =>
      refine ⟨.inl, ?_⟩
      rintro (hn | ⟨hn, he⟩)
      · exact hn
      · cases he
        exact hm.resolve_left hn
    next hm =>
      rw [not_or] at hm
      rw [List.mem_append, List.mem_singleton, PoolCall.intern.injEq]
      refine or_congr_right ⟨?_, fun h => h.2.symm⟩
      rintro rfl
      exact ⟨hm.1, rfl⟩
  | get m => simp [learn]

theorem mem_foldl_learn :
    n ∈ calls.foldl learn ns ↔ n ∈ ns ∨ (n ≠ "" ∧ .intern n ∈ calls) := by
  induction calls generalizing ns with
  | nil => simp
  | cons c calls ih =>
    rw [List.foldl_cons, ih, mem_learn, List.mem_cons, or_assoc, ← and_or_left, eq_comm]

theorem mem_known : n ∈ known calls ↔ n ≠ "" ∧ .intern n ∈ calls := by
  rw [known, mem_foldl_learn]
  simp

theorem toFinset_known (calls : List PoolCall) : (known calls).toFinset = interned calls := by
  ext n
  rw [List.mem_toFinset, mem_known, interned, Finset.mem_erase, List.mem_toFinset,
    List.mem_filterMap]
  refine and_congr_right fun _ => ⟨fun h => ⟨_, h, rfl⟩, ?_⟩
  rintro ⟨c, hc, hcn⟩
  cases c with
  | intern m => exact Option.some.inj hcn ▸ hc
  | get m => cases hcn

/-- With a new name put behind the others of its shard, a pool holds it as the last one. -/
theorem Holds.push (h : p.Holds ns) (hn : n ≠ "") (hnew : n ∉ ns) (hs : p'.shardOf = p.shardOf)
    (hshards : ∀ k : Fin shardCount,
      p'.shards[k].toList = p.shards[k].toList ++ if p.shardOf n = k then [n] else []) :
    p'.Holds (ns ++ [n]) where
  nodup := List.nodup_append.2 ⟨h.nodup, List.nodup_singleton n, fun m hm k hk he =>
    hnew (List.mem_singleton.1 hk ▸ he ▸ hm)⟩
  nonempty := by simp [h.nonempty, Ne.symm hn]
  shards k := by
    rw [hshards, h.shards, hs, inShard_append]
    by_cases hk : p.shardOf n = k <;> simp [hk]

/-- A name that comes last is found behind the others of its shard. -/
theorem idxOf?_inShard_last (hn : n ≠ "") (hnew : n ∉ ns) :
    (inShard shardOf (ns ++ [n]) (shardOf n)).idxOf? n =
      some (inShard shardOf ns (shardOf n)).length := by
  have hfirst : (inShard shardOf ns (shardOf n)).idxOf? n = none :=
    List.idxOf?_eq_none_iff.2 (mt (mem_inShard hn).1 hnew)
  rw [idxOf?_inShard_append, hfirst]
  simp [List.idxOf?]

/-- A name that has not come yet is put behind the others, if there is room, and its atom is what it
is found under from then on. -/
theorem Holds.intern_new (h : p.Holds ns) (hn : n ≠ "") (hnew : n ∉ ns)
    (hroom : Room p.shardOf (ns ++ [n])) :
    (p.intern n).2.Holds (ns ++ [n]) ∧ (p.intern n).2.shardOf = p.shardOf ∧
      (p.intern n).2.get? n = some (p.intern n).1 := by
  have hlast : p.shards[p.shardOf n].size = (inShard p.shardOf ns (p.shardOf n)).length := by
    rw [← Array.length_toList, h.shards]
  have hlt : p.shards[p.shardOf n].size < Atom.capacity := by
    have hself : [n].filter (p.shardOf · = p.shardOf n) = [n] := by simp
    have hk := hroom (p.shardOf n)
    rwa [inShard_append, List.length_append, ← hlast, hself, List.length_singleton] at hk
  obtain ⟨a, ha⟩ := Atom.exists_pack? hlt (p.shardOf n)
  have hintern : p.intern n = (a,
      { p with shards := p.shards.set (p.shardOf n) (p.shards[p.shardOf n].push n) }) := by
    rw [Pool.intern, h.get?_eq_none hn hnew]
    simp only [ha]
  have hpush : (p.intern n).2.Holds (ns ++ [n]) := by
    rw [hintern]
    refine h.push hn hnew rfl fun k => ?_
    rw [Fin.getElem_fin, Vector.getElem_set]
    by_cases hk : p.shardOf n = k
    · subst hk
      simp
    · rw [if_neg fun e => hk (Fin.ext e), if_neg hk, List.append_nil]
      rfl
  have hs : (p.intern n).2.shardOf = p.shardOf := by rw [hintern]
  refine ⟨hpush, hs, ?_⟩
  rw [hpush.get?_eq hn, hs, idxOf?_inShard_last hn hnew, ← hlast, hintern]
  exact ha

/-- **One name more is put behind the others**, or it is there already; either way its atom is what
it is found under from then on. -/
theorem Holds.intern (h : p.Holds ns) (hroom : Room p.shardOf (learn ns (.intern n))) :
    (p.intern n).2.Holds (learn ns (.intern n)) ∧ (p.intern n).2.shardOf = p.shardOf ∧
      (p.intern n).2.get? n = some (p.intern n).1 := by
  rw [learn] at hroom ⊢
  split at hroom
  next hold =>
    obtain ⟨a, ha⟩ : ∃ a, p.get? n = some a := by
      rcases hold with rfl | hmem
      · exact ⟨.none, rfl⟩
      · exact h.exists_get? hroom hmem
    rw [if_pos hold, Pool.intern, ha]
    exact ⟨h, rfl, ha⟩
  next hnew =>
    obtain ⟨hn, hmem⟩ := not_or.1 hnew
    rw [if_neg hnew]
    exact h.intern_new hn hmem hroom

/-- After any call the pool holds what has been learnt. -/
theorem Holds.after (h : p.Holds ns) (hroom : Room p.shardOf (learn ns c)) :
    (p.after c).Holds (learn ns c) ∧ (p.after c).shardOf = p.shardOf := by
  cases c with
  | intern n =>
    obtain ⟨hholds, hshard, -⟩ := h.intern hroom
    exact ⟨hholds, hshard⟩
  | get n => exact ⟨h, rfl⟩

/-- So it does after a series of calls. -/
theorem Holds.foldl (h : p.Holds ns) (hroom : Room p.shardOf (calls.foldl learn ns)) :
    (calls.foldl Pool.after p).Holds (calls.foldl learn ns) ∧
      (calls.foldl Pool.after p).shardOf = p.shardOf := by
  induction calls generalizing p ns with
  | nil => exact ⟨h, rfl⟩
  | cons c calls ih =>
    obtain ⟨ms, hms⟩ := exists_foldl_learn (learn ns c) calls
    have hfirst : Room p.shardOf (learn ns c) := by
      rw [List.foldl_cons, hms] at hroom
      exact hroom.of_append
    obtain ⟨hholds, hshard⟩ := h.after hfirst
    obtain ⟨hrest, hshard'⟩ := ih hholds (by rw [hshard]; exact hroom)
    exact ⟨hrest, hshard'.trans hshard⟩

/-! ## What is held at a time -/

theorem nodup_learn (h : ns.Nodup) (c : PoolCall) : (learn ns c).Nodup := by
  cases c with
  | intern n =>
    rw [learn]
    split
    · exact h
    next hnew =>
      exact List.nodup_append.2 ⟨h, List.nodup_singleton n, fun m hm k hk he =>
        hnew (.inr (List.mem_singleton.1 hk ▸ he ▸ hm))⟩
  | get n => exact h

theorem nodup_known (calls : List PoolCall) : (known calls).Nodup := by
  suffices hfold : ∀ {ns : List Name}, ns.Nodup → (calls.foldl learn ns).Nodup from
    hfold List.nodup_nil
  induction calls with
  | nil => exact id
  | cons c calls ih => exact fun h => ih (nodup_learn h c)

theorem known_append (calls more : List PoolCall) :
    ∃ ms, known (calls ++ more) = known calls ++ ms := by
  rw [known, List.foldl_append]
  exact exists_foldl_learn (known calls) more

/-- What is known later begins with what is known before. -/
theorem known_take {i j : Nat} (h : i ≤ j) (calls : List PoolCall) :
    ∃ ms, known (calls.take j) = known (calls.take i) ++ ms := by
  obtain ⟨k, rfl⟩ := Nat.exists_eq_add_of_le h
  rw [List.take_add]
  exact known_append _ _

/-- As long as no shard exceeds its capacity there is room at any time. -/
theorem Fits.room (h : Fits shardOf calls) (i : Nat) : Room shardOf (known (calls.take i)) := by
  have hall : Room shardOf (known calls) := by
    intro k
    rw [length_inShard (nodup_known calls), toFinset_known]
    exact h k
  obtain ⟨ms, hms⟩ := known_append (calls.take i) (calls.drop i)
  rw [List.take_append_drop] at hms
  rw [hms] at hall
  exact hall.of_append

/-- **At any time the pool holds** what has been interned before. -/
theorem Fits.holds_before (h : Fits shardOf calls) (i : Nat) :
    (before shardOf calls i).Holds (known (calls.take i)) ∧
      (before shardOf calls i).shardOf = shardOf :=
  (holds_new shardOf).foldl (h.room i)

theorem before_succ {i : Nat} (hi : calls[i]? = some c) :
    before shardOf calls (i + 1) = (before shardOf calls i).after c := by
  rw [before, List.take_add_one, hi, List.foldl_append]
  rfl

theorem known_succ {i : Nat} (hi : calls[i]? = some c) :
    known (calls.take (i + 1)) = learn (known (calls.take i)) c := by
  rw [known, List.take_add_one, hi, List.foldl_append]
  rfl

/-- The atom that the call at place `i` gives for the name. -/
def atomAt (shardOf : Name → Fin shardCount) (calls : List PoolCall) (i : Nat) (n : Name) : Atom :=
  ((before shardOf calls i).intern n).1

/-- **From the call on, the name is found** under the atom that the call has given. -/
theorem Fits.get?_before (h : Fits shardOf calls) {i j : Nat}
    (hi : calls[i]? = some (.intern n)) (hij : i < j) :
    (before shardOf calls j).get? n = some (atomAt shardOf calls i n) := by
  obtain ⟨hholds, hshard⟩ := h.holds_before i
  have hroom : Room (before shardOf calls i).shardOf
      (learn (known (calls.take i)) (.intern n)) := by
    rw [hshard, ← known_succ hi]
    exact h.room (i + 1)
  obtain ⟨-, -, hget⟩ := hholds.intern hroom
  obtain ⟨hnext, hshard'⟩ := h.holds_before (i + 1)
  obtain ⟨hlater, hshard''⟩ := h.holds_before j
  obtain ⟨ms, hms⟩ := known_take (Nat.succ_le_of_lt hij) calls
  rw [hms] at hlater
  refine hnext.get?_mono hlater (hshard''.trans hshard'.symm) ?_
  rw [before_succ hi]
  exact hget

/-! ## Interning -/

/-- **What interning comes to** in a series of calls. -/
structure Interns (shardOf : Name → Fin shardCount) (calls : List PoolCall) : Prop where
  /-- The atom of a name resolves to it at once and ever after. -/
  resolves : ∀ i j n, calls[i]? = some (.intern n) → i < j →
    (before shardOf calls j).resolve? (atomAt shardOf calls i n) = some n ∧
      (before shardOf calls j).resolve (atomAt shardOf calls i n) = n
  injective : ∀ i j m n, calls[i]? = some (.intern m) → calls[j]? = some (.intern n) →
    (atomAt shardOf calls i m = atomAt shardOf calls j n ↔ m = n)
  isNone : ∀ i n, calls[i]? = some (.intern n) →
    ((atomAt shardOf calls i n).isNone = true ↔ n = "")
  /-- A name is found if it is empty or has been interned before, and then under its atom. -/
  get? : ∀ i n a, (before shardOf calls i).get? n = some a ↔
    (n = "" ∧ a = .none) ∨
      ∃ j, j < i ∧ calls[j]? = some (.intern n) ∧ a = atomAt shardOf calls j n
  unchanged : ∀ i n, calls[i]? = some (.get n) →
    before shardOf calls (i + 1) = before shardOf calls i
  size : ∀ i, (before shardOf calls i).size = 1 + (interned (calls.take i)).card

/-- **Interning is an injection that only grows**, as long as no shard exceeds its capacity, and
whatever the shards of the names are. -/
theorem interns (h : Fits shardOf calls) : Interns shardOf calls := by
  have hresolve : ∀ i j n, calls[i]? = some (.intern n) → i < j →
      (before shardOf calls j).resolve? (atomAt shardOf calls i n) = some n :=
    fun i j n hi hij => (h.holds_before j).1.resolve? (h.get?_before hi hij)
  -- the empty name is found at any time
  have hempty : ∀ j, (before shardOf calls j).resolve? .none = some "" :=
    fun j => (h.holds_before j).1.resolve? rfl
  refine ⟨fun i j n hi hij => ?_, fun i j m n hi hj => ⟨fun he => ?_, ?_⟩,
    fun i n hi => ⟨fun he => ?_, ?_⟩, fun i n a => ⟨fun hget => ?_, ?_⟩,
    fun i n hi => before_succ hi, fun i => ?_⟩
  · have hj := hresolve i j n hi hij
    exact ⟨hj, by rw [resolve, hj]; rfl⟩
  · -- both atoms resolve once both calls have been made
    have hm := hresolve i (i + j + 1) m hi (by omega)
    rw [he, hresolve j (i + j + 1) n hj (by omega)] at hm
    exact (Option.some.inj hm).symm
  · rintro rfl
    have hm := h.get?_before hi (show i < i + j + 1 by omega)
    rw [h.get?_before hj (show j < i + j + 1 by omega)] at hm
    exact (Option.some.inj hm).symm
  · have hn := hresolve i (i + 1) n hi (Nat.lt_succ_self i)
    rw [Atom.isNone, decide_eq_true_eq] at he
    rw [he, hempty] at hn
    exact (Option.some.inj hn).symm
  · rintro rfl
    rfl
  · by_cases hn : n = ""
    · left
      rw [hn] at hget
      exact ⟨hn, (Option.some.inj hget).symm⟩
    · right
      have hknown : n ∈ known (calls.take i) := by
        by_contra hnew
        rw [(h.holds_before i).1.get?_eq_none hn hnew] at hget
        cases hget
      obtain ⟨j, hj⟩ := List.mem_iff_getElem?.1 (mem_known.1 hknown).2
      have hji : j < i := by
        have hlt := (List.getElem?_eq_some_iff.1 hj).1
        rw [List.length_take] at hlt
        omega
      rw [List.getElem?_take_of_lt hji] at hj
      rw [h.get?_before hj hji] at hget
      exact ⟨j, hji, hj, (Option.some.inj hget).symm⟩
  · rintro (⟨rfl, rfl⟩ | ⟨j, hji, hj, rfl⟩)
    · rfl
    · exact h.get?_before hj hji
  · rw [(h.holds_before i).1.size, toFinset_known]

/-! ## Three names -/

/-- Two names share a shard with the empty one, the others are in another shard. -/
def byInitial (n : Name) : Fin shardCount :=
  if n = "Tree" ∨ n = "Twig" then Atom.none.shard else Atom.shard ⟨15⟩

/-- Three names are interned, one of them twice, and a fourth is only looked up. -/
def someCalls : List PoolCall :=
  [.intern "Tree", .intern "Leaf", .get "Root", .intern "Twig", .intern "Tree", .intern ""]

/-- The first shard holds the empty name first. What is interned twice has one atom, what is only
looked up has none, and there are four names in the end. -/
theorem interns_someCalls :
    (atomAt byInitial someCalls 0 "Tree").val = 16 ∧
    (atomAt byInitial someCalls 1 "Leaf").val = 15 ∧
    atomAt byInitial someCalls 0 "Tree" = atomAt byInitial someCalls 4 "Tree" ∧
    atomAt byInitial someCalls 3 "Twig" ≠ atomAt byInitial someCalls 1 "Leaf" ∧
    (before byInitial someCalls 6).resolve (atomAt byInitial someCalls 1 "Leaf") = "Leaf" ∧
    (before byInitial someCalls 6).get? "Root" = none ∧
    (before byInitial someCalls 6).size = 4 := by
  have hfits : Fits byInitial someCalls := by
    unfold Fits
    decide +kernel
  have h := interns hfits
  refine ⟨by decide +kernel, by decide +kernel, (h.injective 0 4 _ _ rfl rfl).2 rfl,
    mt (h.injective 3 1 _ _ rfl rfl).1 (by decide), (h.resolves 1 6 _ rfl (by decide)).2, ?_, ?_⟩
  · -- nothing but a call that interns it could have put it there
    rw [Option.eq_none_iff_forall_ne_some]
    intro a ha
    rcases (h.get? 6 "Root" a).1 ha with ⟨hn, -⟩ | ⟨j, hj, hcall, -⟩
    · exact absurd hn (by decide)
    · have hmem : PoolCall.intern "Root" ∈ someCalls := List.mem_of_getElem? hcall
      simp [someCalls] at hmem
  · rw [h.size]
    decide +kernel

end Pool

end ClassGraph
