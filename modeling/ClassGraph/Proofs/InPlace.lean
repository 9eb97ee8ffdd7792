import ClassGraph.Proofs.Ancestry
import ClassGraph.Proofs.CopyExtend
import ClassGraph.Proofs.Soundness

/-!
# Writing in place

A write changes an instance in place, slot after slot, and may go wrong on the way. It is all or
nothing, as the values are checked before the first of them is stored. Which slots are stored to is
told by the layout of a class that the instance descends from, while it is the layout of the instance
that the values are checked against; the two agree as far as the former goes.

* `InPlace`: programs that change an instance and may fail; `InPlace.write`: the three ways to write
  as such programs; `InPlace.write_run`: they come to what `Registry.write` comes to.
* `Registry.Addresses`: the slots that a write is about; `Registry.OK.fillRange`: **they are slots of
  the instance, under the names of the fields of the class.**
* `InPlace.Framed`: what becomes of an instance in a write;
  `Registry.Reachable.writes_framed`: **a write that fails changes nothing, and one that succeeds
  nothing but the slots that it is about.**
-/

namespace ClassGraph

variable {β : Type}

/-! ## Programs that write in place -/

/-- A program that changes an instance. If it fails, the instance is left as it is at that point. -/
abbrev InPlace : Type → Type := EStateM Error Instance

/-- Stores a value in the slot at that place, if there is one. -/
def Instance.setSlot (i : Instance) (index : Nat) (v : Value) : Instance :=
  { i with fields := i.fields.set index v }

namespace InPlace

/-- Checks the values against the fields from that place on, one after the other. -/
def checkSlots (g : Graph) : Nat → List Value → InPlace Unit
  | _, [] => pure ()
  | index, v :: vs => do
    let i ← get
    MonadExcept.ofExcept (g.checkSlot i index v)
    checkSlots g (index + 1) vs

/-- Stores the values in the slots from that place on, one after the other. -/
def storeSlots : Nat → List Value → InPlace Unit
  | _, [] => pure ()
  | index, v :: vs => do
    modify (·.setSlot index v)
    storeSlots (index + 1) vs

/-- Writes one field. -/
def setField (g : Graph) (field : Name) (v : Value) : InPlace Unit := do
  let i ← get
  if !i.layout.isMutable then throw (.immutable i.className)
  let index ← MonadExcept.ofExcept (i.fieldIndex field)
  MonadExcept.ofExcept (g.checkSlot i index v)
  modify (·.setSlot index v)

/-- Writes the fields of the class `d` from that place on: checks all values, then stores them. -/
def assign (r : Registry β) (d : ClassDef β) (start : Nat) (values : List Value) :
    InPlace Unit := do
  if values.length ≠ d.layout.fields.length - start then
    throw (.noMatchingConstructor d.name (values.length + 1) false)
  checkSlots r.graph start values
  storeSlots start values

/-- Writes to an instance. -/
def write (r : Registry β) : Write → InPlace Unit
  | .setField field v => setField r.graph field v
  | .fill cls values => do
    let i ← get
    let d ← MonadExcept.ofExcept (r.fillTarget i cls)
    assign r d 0 values
  | .fillLocal cls values => do
    let i ← get
    let d ← MonadExcept.ofExcept (r.fillTarget i cls)
    assign r d (if d.hasLocalFill then d.layout.inherited else 0) values

end InPlace

/-- What a change that comes to `result` leaves in the place of the instance. -/
def Instance.settle (i : Instance) : Except Error Instance → EStateM.Result Error Instance Unit
  | .ok i' => .ok () i'
  | .error e => .error e i

/-! ## What they come to -/

namespace Instance

variable {i : Instance} {start k : Nat} {v : Value} {values : List Value}

theorem overwrite_nil : i.overwrite start [] = i := by
  obtain ⟨layout, typeArgs, fields⟩ := i
  simp [overwrite]

/-- To overwrite slots is to overwrite the first of them, and then the others. -/
theorem overwrite_cons (h : start < i.fields.length) :
    i.overwrite start (v :: values) = (i.setSlot start v).overwrite (start + 1) values := by
  have hlen : (i.fields.take start).length = start := by
    rw [List.length_take]
    omega
  have hset : i.fields.set start v = i.fields.take start ++ [v] ++ i.fields.drop (start + 1) := by
    rw [List.set_eq_take_append_cons_drop, if_pos h, List.append_assoc]
    rfl
  have hfront : (i.fields.set start v).take (start + 1) = i.fields.take start ++ [v] := by
    rw [hset]
    exact List.take_left' (by simp [hlen])
  have hback : (i.fields.set start v).drop (start + 1 + values.length) =
      i.fields.drop (start + (values.length + 1)) := by
    rw [hset, ← List.drop_drop, List.drop_left' (by simp [hlen]), List.drop_drop]
    congr 1
    omega
  simp only [overwrite, setSlot, hfront, hback, List.append_assoc, List.cons_append,
    List.nil_append, List.length_cons]

end Instance

namespace InPlace

variable {r : Registry β} {g : Graph} {i : Instance} {start : Nat} {values : List Value}

/-- What is worked out without a change fails without a change. -/
theorem ofExcept_run {α : Type} (x : Except Error α) (i : Instance) :
    (MonadExcept.ofExcept x : InPlace α).run i =
      match x with
      | .ok a => .ok a i
      | .error e => .error e i := by
  cases x with
  | ok a => rfl
  | error e => rfl

/-- Checks change nothing. -/
theorem checkSlots_run : (checkSlots g start values).run i =
    i.settle ((g.checkSlots i start values).map fun _ => i) := by
  induction values generalizing start with
  | nil => rfl
  | cons v vs ih =>
    rw [checkSlots, Graph.checkSlots]
    simp only [EStateM.run_bind, EStateM.run_get, ofExcept_run]
    cases hv : g.checkSlot i start v with
    | error e => rfl
    | ok _ => exact ih

/-- Values that fit in are stored by overwriting. -/
theorem storeSlots_run (h : start + values.length ≤ i.fields.length) :
    (storeSlots start values).run i = .ok () (i.overwrite start values) := by
  induction values generalizing i start with
  | nil =>
    rw [Instance.overwrite_nil]
    rfl
  | cons v vs ih =>
    rw [List.length_cons] at h
    rw [storeSlots, EStateM.run_bind, EStateM.run_modify, Instance.overwrite_cons (by omega)]
    refine ih ?_
    rw [Instance.setSlot, List.length_set]
    omega

/-- Values that have passed their checks are stored by overwriting. -/
theorem storeSlots_run_of_checked (hs : i.Shaped) (h : g.checkSlots i start values = .ok ()) :
    (storeSlots start values).run i = .ok () (i.overwrite start values) := by
  cases values with
  | nil =>
    rw [Instance.overwrite_nil]
    rfl
  | cons v vs => exact storeSlots_run (hs.overwrite_le h (List.cons_ne_nil v vs))

/-- Writing a field comes to the same in place. -/
theorem setField_run (hs : i.Shaped) {field : Name} {v : Value} :
    (setField g field v).run i = i.settle (g.setField i field v) := by
  unfold setField Graph.setField
  cases hmut : i.layout.isMutable with
  | false =>
    simp only [EStateM.run_bind, EStateM.run_get, hmut]
    rfl
  | true =>
    simp only [EStateM.run_bind, EStateM.run_get, ofExcept_run, hmut, Bool.not_true,
      Bool.false_eq_true, if_false]
    cases hindex : i.fieldIndex field with
    | error e => rfl
    | ok index =>
      simp only
      cases hcheck : g.checkSlot i index v with
      | error e => rfl
      | ok _ =>
        have hchecked : g.checkSlots i index [v] = .ok () := by simp [Graph.checkSlots, hcheck]
        exact storeSlots_run_of_checked hs hchecked

/-- Assigning comes to the same in place. -/
theorem assign_run (hs : i.Shaped) {d : ClassDef β} :
    (assign r d start values).run i = i.settle (r.fillFrom i d start values) := by
  unfold assign Registry.fillFrom
  by_cases hlen : values.length ≠ d.layout.fields.length - start
  · rw [if_pos hlen, if_pos hlen]
    rfl
  rw [if_neg hlen, if_neg hlen]
  simp only [EStateM.run_bind, checkSlots_run]
  cases hcheck : r.graph.checkSlots i start values with
  | error e => rfl
  | ok _ => exact storeSlots_run_of_checked hs hcheck

/-- **Writing in place comes to what writing comes to.** If it fails, the instance is as before. -/
theorem write_run (hs : i.Shaped) (r : Registry β) (q : Write) :
    (write r q).run i = i.settle (r.write i q) := by
  cases q with
  | setField field v => exact setField_run hs
  | fill cls values =>
    simp only [write, Registry.write, Registry.fill, EStateM.run_bind, EStateM.run_get,
      ofExcept_run]
    cases ht : r.fillTarget i cls with
    | error e => rfl
    | ok d => exact assign_run hs
  | fillLocal cls values =>
    simp only [write, Registry.write, Registry.fillLocal, EStateM.run_bind, EStateM.run_get,
      ofExcept_run]
    cases ht : r.fillTarget i cls with
    | error e => rfl
    | ok d => exact assign_run hs

end InPlace

/-! ## The slots that a write is about -/

/-- The field at the place where a name is found goes by that name. -/
theorem Instance.fieldIndex_ok {i : Instance} {field : Name} {k : Nat}
    (h : i.fieldIndex field = .ok k) : ∃ f, i.layout.fields[k]? = some f ∧ f.name = field := by
  unfold fieldIndex at h
  split at h
  next index hindex =>
    cases h
    obtain ⟨hlt, hname, -⟩ := List.findIdx?_eq_some_iff_getElem.1 hindex
    exact ⟨_, List.getElem?_eq_getElem hlt, by simpa using hname⟩
  · cases h

namespace Registry

variable {r : Registry β} {i i' : Instance} {cls : TypeId} {d : ClassDef β} {q : Write}

/-- **The fields of the class `d` are the first ones of the instance.** The class is at the node
`cls`, and it is that of the instance or an ancestor of it. -/
structure FillRange (r : Registry β) (i : Instance) (cls : TypeId) (d : ClassDef β) : Prop where
  classDef? : r.classDef? cls = some d
  ancestor : cls = i.cls ∨ ∃ ids, r.Chain i.cls ids ∧ cls ∈ ids
  names : d.layout.fieldNames <+: i.layout.fieldNames
  inside : d.layout.fields.length ≤ i.fields.length
  inherited_le : d.layout.inherited ≤ d.layout.fields.length
  declared : ∀ decl, r.DefinedBy cls decl → d.layout.localFields = decl.fields

/-- **The slots that a write is about**, from one place up to another: that of the field with the
name, those of all fields of a class, or those of the fields that the class itself declares, which
are all of them if it inherits none. -/
inductive Addresses (r : Registry β) (i : Instance) : Write → Nat → Nat → Prop
  | setField {field : Name} {v : Value} {k : Nat} {f : Field} (h : i.layout.fields[k]? = some f)
      (hn : f.name = field) : Addresses r i (.setField field v) k (k + 1)
  | fill {cls : TypeId} {values : List Value} {d : ClassDef β} (h : r.FillRange i cls d) :
      Addresses r i (.fill cls values) 0 d.layout.fields.length
  | fillLocal {cls : TypeId} {values : List Value} {d : ClassDef β} (h : r.FillRange i cls d) :
      Addresses r i (.fillLocal cls values) d.layout.inherited d.layout.fields.length

/-- **The fields of what can be filled are the first ones of the instance.** -/
theorem OK.fillRange (hr : r.OK) (hi : i.Sound r) (h : r.fillTarget i cls = .ok d) :
    r.FillRange i cls d := by
  obtain ⟨hd, hdesc, -⟩ := fillTarget_ok h
  have hclass := (instantiable_ok hd).1
  obtain ⟨c, hc, hlayout⟩ := Instance.classDef?_of_layout hi.layout
  obtain ⟨decl, o, hpassed, hm⟩ := hr.made_of_instantiable hd
  have hcases := hr.descendsFrom_cases hdesc
  have hnames : d.layout.fieldNames <+: i.layout.fieldNames := by
    rcases hcases with heq | ⟨ids, hchain, -, hmem⟩
    · rw [heq, hc, Option.some.injEq] at hclass
      exact ⟨[], by rw [← hclass, hlayout, List.append_nil]⟩
    · obtain ⟨d', hd', hprefix⟩ := hchain.fieldNames_prefix hr hc cls hmem
      rw [hclass, Option.some.injEq] at hd'
      rw [hd', ← hlayout]
      exact hprefix
  refine ⟨hclass, ?_, hnames, ?_, ?_, ?_⟩
  · exact hcases.imp_right fun ⟨ids, hchain, _, hmem⟩ => ⟨ids, hchain, hmem⟩
  · have hle := hnames.length_le
    simp only [Layout.fieldNames, List.length_map] at hle
    rw [hi.fields]
    exact hle
  · rw [hm.fields, hm.inherited, List.length_append]
    omega
  · intro decl' hdef
    obtain ⟨o', h', hm'⟩ := hdef.made_classDef hclass
    obtain ⟨n, he⟩ := hm'.extends hr
    exact he.localFields

/-- No two fields of a sound instance have one name. -/
theorem OK.fieldNames_nodup (hr : r.OK) (hi : i.Sound r) : i.layout.fieldNames.Nodup := by
  obtain ⟨c, hc, hlayout⟩ := Instance.classDef?_of_layout hi.layout
  obtain ⟨ids, hchain, -⟩ := hr.chain hc
  rw [← hlayout]
  exact hchain.fieldNames_nodup hr hc

/-- **A write that is granted** overwrites the slots that it is about, of a mutable instance. -/
theorem OK.addresses (hr : r.OK) (hi : i.Sound r) (h : r.write i q = .ok i') :
    i.layout.isMutable = true ∧ ∃ start stop, r.Addresses i q start stop ∧
      stop = start + q.values.length ∧ stop ≤ i.fields.length ∧
      i' = i.overwrite start q.values := by
  cases q with
  | setField field v =>
    obtain ⟨hmut, k, hindex, -, rfl⟩ := Graph.setField_ok h
    obtain ⟨f, hf, hname⟩ := Instance.fieldIndex_ok hindex
    have hlt := (List.getElem?_eq_some_iff.1 hf).1
    refine ⟨hmut, k, k + 1, .setField hf hname, rfl, ?_, rfl⟩
    rw [hi.fields]
    exact hlt
  | fill cls values =>
    obtain ⟨d, ht, hd⟩ := fill_ok h
    obtain ⟨rfl, hlen, -⟩ := fillFrom_ok hd
    obtain ⟨-, -, hmut⟩ := fillTarget_ok ht
    have hrange := hr.fillRange hi ht
    refine ⟨hmut, 0, _, .fill hrange, ?_, hrange.inside, rfl⟩
    rw [Write.values]
    omega
  | fillLocal cls values =>
    obtain ⟨d, ht, hd⟩ := fillLocal_ok h
    obtain ⟨rfl, hlen, -⟩ := fillFrom_ok hd
    obtain ⟨-, -, hmut⟩ := fillTarget_ok ht
    have hrange := hr.fillRange hi ht
    have hle := hrange.inherited_le
    refine ⟨hmut, _, _, .fillLocal hrange, ?_, hrange.inside, rfl⟩
    rw [Write.values]
    omega

end Registry

/-! ## All or nothing -/

/-- **The instance `i'` is `i` with the values in the slots from `start` up to `stop`**, in their
order, and nothing else changed. -/
structure Instance.Overwritten (i i' : Instance) (start stop : Nat) (values : List Value) :
    Prop where
  layout : i'.layout = i.layout
  typeArgs : i'.typeArgs = i.typeArgs
  count : stop = start + values.length
  inside : stop ≤ i.fields.length
  written : ∀ k, start ≤ k → k < stop → i'.fields[k]? = values[k - start]?
  kept : ∀ k, k < start ∨ stop ≤ k → i'.fields[k]? = i.fields[k]?

theorem Instance.overwritten {i : Instance} {start : Nat} {values : List Value}
    (h : start + values.length ≤ i.fields.length) :
    i.Overwritten (i.overwrite start values) start (start + values.length) values where
  layout := rfl
  typeArgs := rfl
  count := rfl
  inside := h
  written := by
    intro k hk hk'
    rw [Instance.getElem?_overwrite h, if_pos ⟨hk, hk'⟩]
  kept := by
    intro k hk
    rw [Instance.getElem?_overwrite h, if_neg (by omega)]

/-- **Writes to the instance are framed.** Those that fail leave it as it was. Those that succeed
find it mutable, and change nothing but the slots that they are about. Classes whose fields are
filled have these among those of the instance. -/
structure InPlace.Framed (r : Registry β) (i : Instance) : Prop where
  names_nodup : i.layout.fieldNames.Nodup
  range : ∀ cls d, r.fillTarget i cls = .ok d → r.FillRange i cls d
  error : ∀ q e i', (InPlace.write r q).run i = .error e i' → i' = i
  ok : ∀ q i', (InPlace.write r q).run i = .ok () i' → i.layout.isMutable = true ∧
    ∃ start stop, r.Addresses i q start stop ∧ i.Overwritten i' start stop q.values
  immutable : i.layout.isMutable = false → ∀ q, ∃ e, (InPlace.write r q).run i = .error e i

theorem Registry.OK.framed {r : Registry β} {i : Instance} (hr : r.OK) (hi : i.Sound r) :
    InPlace.Framed r i where
  names_nodup := hr.fieldNames_nodup hi
  range := fun _ _ => hr.fillRange hi
  error := by
    intro q e i' h
    rw [InPlace.write_run hi.toShaped] at h
    cases hw : r.write i q with
    | error _ =>
      rw [hw] at h
      cases h
      rfl
    | ok _ =>
      rw [hw] at h
      cases h
  ok := by
    intro q i' h
    rw [InPlace.write_run hi.toShaped] at h
    cases hw : r.write i q with
    | error _ =>
      rw [hw] at h
      cases h
    | ok _ =>
      rw [hw] at h
      cases h
      obtain ⟨hmut, start, stop, haddr, rfl, hinside, rfl⟩ := hr.addresses hi hw
      exact ⟨hmut, start, _, haddr, Instance.overwritten hinside⟩
  immutable := by
    intro hmut q
    rw [InPlace.write_run hi.toShaped]
    cases hw : r.write i q with
    | error e => exact ⟨e, rfl⟩
    | ok i' =>
      obtain ⟨hmut', -⟩ := hr.addresses hi hw
      rw [hmut] at hmut'
      cases hmut'

/-- **Writes are all or nothing, and framed**, whatever is written to whatever sound instance. At
every stage of a run all instances that have come up are sound. -/
theorem Registry.Reachable.writes_framed {r : Registry Body} (hr : r.Reachable) :
    (∀ i : Instance, i.Sound r → InPlace.Framed r i) ∧
    ∀ σ : Stage, Live σ → σ.registry = r → ∀ i ∈ σ.known, InPlace.Framed r i := by
  refine ⟨fun i hi => hr.ok.framed hi, ?_⟩
  rintro σ hσ rfl i hi
  exact hr.ok.framed (hσ.ok.sound hi)

/-! ## Dials -/

/-- A class below the box with a second field. -/
def dial : ClassDecl Body := ⟨"Dial", some "Box", [], true, [.field ⟨"y", .prim .int⟩]⟩

/-- The world of the box and the dial. -/
def dials : World := .ofRegistry (boxes.registry.after (.define dial))

theorem live_dials : Live ⟨dials, ∅, ∅⟩ :=
  live_boxes.request (q := .define dial) fun d hd => by
    cases hd
    intro c hc
    cases hc

/-- Did the program come to an end without an error? -/
def InPlace.succeeds (p : InPlace Unit) (i : Instance) : Bool :=
  match p.run i with
  | .ok _ _ => true
  | .error _ _ => false

/-- Filling the fields that a new dial has from the box leaves the second field alone. Writing a text
to that field fails and leaves everything alone. -/
theorem writes_framed_dials : ∃ i i', dials.registry.allocate 4 = .ok i ∧
    (InPlace.write dials.registry (.fill 2 [.int 7])).run i = .ok () i' ∧
    i'.fields[0]? = some (.int 7) ∧ i'.fields[1]? = i.fields[1]? ∧
    ∃ e, (InPlace.write dials.registry (.setField "y" (.str "seven"))).run i = .error e i := by
  have hr : dials.registry.Reachable := live_dials.ok.reachable
  obtain ⟨-, hframed⟩ := Registry.Reachable.writes_framed hr
  have hsome : (dials.registry.allocate 4).toOption.any (fun i =>
      InPlace.succeeds (InPlace.write dials.registry (.fill 2 [.int 7])) i &&
      !InPlace.succeeds (InPlace.write dials.registry (.setField "y" (.str "seven"))) i) =
        true := by decide +kernel
  cases ha : dials.registry.allocate 4 with
  | error e =>
    rw [ha] at hsome
    cases hsome
  | ok i =>
    rw [ha] at hsome
    simp only [Except.toOption, Option.any_some, Bool.and_eq_true, Bool.not_eq_true'] at hsome
    obtain ⟨hfill, hset⟩ := hsome
    have hi : InPlace.Framed dials.registry i :=
      hframed _ live_dials.write rfl i (Derives.allocate ha)
    cases hrun : (InPlace.write dials.registry (.fill 2 [.int 7])).run i with
    | error e i' => simp [InPlace.succeeds, hrun] at hfill
    | ok _ i' =>
      cases hrun' : (InPlace.write dials.registry (.setField "y" (.str "seven"))).run i with
      | ok _ j => simp [InPlace.succeeds, hrun'] at hset
      | error e j =>
        obtain ⟨-, start, stop, haddr, hover⟩ := hi.ok _ i' hrun
        obtain rfl : start = 0 := by
          cases haddr
          rfl
        have hstop : stop = 1 := by simpa [Write.values] using hover.count
        have hsame := hi.error _ e j hrun'
        rw [hsame] at hrun'
        exact ⟨i, i', rfl, hrun, hover.written 0 (Nat.le_refl 0) (by omega),
          hover.kept 1 (by omega), e, hrun'⟩

end ClassGraph
