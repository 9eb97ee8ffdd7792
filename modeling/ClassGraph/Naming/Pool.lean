import ClassGraph.Ty

/-!
# A pool of names

A pool gives every name a number, an `Atom`, once and for all: comparing atoms is comparing
names. It is cut into sixteen shards. Which shard a name belongs to is a function of the name,
and any function will do; the atom holds the shard in its last four bits and the place within the
shard in the others. The empty name is always in the pool, as atom 0.

* `Atom.pack?` and `Atom.shard`, `Atom.place`: what an atom holds;
* `Pool.intern`: the atom of a name, new or old. A name for which its shard has no room is given
  the atom of the empty name and not kept.
-/

namespace ClassGraph

/-- The number of shards. -/
def shardCount : Nat := 16

/-- The number of a name within a pool. -/
structure Atom where
  val : UInt32
deriving DecidableEq, Repr

namespace Atom

/-- The atom of the empty name. -/
def none : Atom := ⟨0⟩

/-- Is this the atom of the empty name? -/
def isNone (a : Atom) : Bool := a = none

/-- How many places a shard has. -/
def capacity : Nat := 1 <<< 28

/-- The atom of a place within a shard, if the shard goes so far. -/
def pack? (place : Nat) (shard : Fin shardCount) : Option Atom :=
  if place < capacity then some ⟨.ofNat (place * shardCount + shard)⟩ else Option.none

/-- The shard of an atom. -/
def shard (a : Atom) : Fin shardCount := ⟨a.val.toNat % shardCount, Nat.mod_lt _ (by decide)⟩

/-- The place of an atom within its shard. -/
def place (a : Atom) : Nat := a.val.toNat / shardCount

end Atom

/-- The names of each shard in the order in which they came. -/
structure Pool where
  shardOf : Name → Fin shardCount
  shards : Vector (Array Name) shardCount

namespace Pool

/-- The pool of the empty name alone, which is kept in the first shard. -/
def new (shardOf : Name → Fin shardCount) : Pool :=
  ⟨shardOf, (Vector.replicate shardCount #[]).set 0 #[""] (by decide)⟩

/-- The atom of a name that is in the pool. -/
def get? (p : Pool) (n : Name) : Option Atom :=
  if n = "" then some .none
  else (p.shards[p.shardOf n].idxOf? n).bind (Atom.pack? · (p.shardOf n))

/-- The atom of a name, which is put into the pool if it is not there. -/
def intern (p : Pool) (n : Name) : Atom × Pool :=
  match p.get? n with
  | some a => (a, p)
  | none =>
    let shard := p.shardOf n
    let names := p.shards[shard]
    match Atom.pack? names.size shard with
    | some a => (a, { p with shards := p.shards.set shard (names.push n) })
    | none => (.none, p)

/-- The name of an atom of the pool. -/
def resolve? (p : Pool) (a : Atom) : Option Name := p.shards[a.shard][a.place]?

/-- The name of an atom, the empty one for an atom that the pool never gave out. -/
def resolve (p : Pool) (a : Atom) : Name := (p.resolve? a).getD ""

/-- How many names there are, the empty one counted. -/
def size (p : Pool) : Nat := p.shards.foldl (· + ·.size) 0

/-- Is the empty name the only one? -/
def isEmpty (p : Pool) : Bool := p.size ≤ 1

end Pool

end ClassGraph
