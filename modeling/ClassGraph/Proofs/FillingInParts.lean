import ClassGraph.Proofs.InPlace
import ClassGraph.Proofs.Subclasses

/-!
# Filling an instance part by part

To fill all fields that a class has is to fill those that it inherits, as fields of the superclass,
and those that it declares itself. The three ranges of slots are told by two layouts, and the
instance has a third one, that of a class further down. The two parts lie side by side in it, and
the check of a value does not look at what is in the slots; so neither part can tell whether the
other one has been filled.

* `Graph.fillSlots`: checks and stores values in a mutable instance; `Registry.fill_eq_fillSlots`,
  `Registry.fillLocal_eq_fillSlots`: both ways to fill come to this.
* `Graph.fillSlots_append`: values are filled in by filling in the front of them, and then the rest;
  `Graph.fillSlots_comm`: **ranges side by side may be filled in either order.**
* `Registry.Reachable.fills_in_parts`: **all fields of a class are filled by filling those of the
  superclass and its own, in either order.**
-/

namespace ClassGraph

variable {β : Type}

/-! ## Ranges of slots -/

namespace Instance

variable {i : Instance} {start : Nat} {vs ws : List Value}

/-- To overwrite slots is to overwrite the front of them, and then those behind. -/
theorem overwrite_append (h : start ≤ i.fields.length) :
    i.overwrite start (vs ++ ws) = (i.overwrite start vs).overwrite (start + vs.length) ws := by
  have hlen : (i.fields.take start ++ vs).length = start + vs.length := by
    rw [List.length_append, List.length_take]
    omega
  have hfront : (i.overwrite start vs).fields.take (start + vs.length) =
      i.fields.take start ++ vs := List.take_left' hlen
  have hback : (i.overwrite start vs).fields.drop (start + vs.length + ws.length) =
      i.fields.drop (start + (vs ++ ws).length) := by
    rw [← List.drop_drop, overwrite, List.drop_left' hlen, List.drop_drop, List.length_append,
      Nat.add_assoc]
  rw [overwrite, overwrite, hfront, hback, ← List.append_assoc]
  rfl

/-- **Slots side by side may be overwritten in either order.** -/
theorem overwrite_comm (h : start + vs.length + ws.length ≤ i.fields.length) :
    (i.overwrite (start + vs.length) ws).overwrite start vs =
      (i.overwrite start vs).overwrite (start + vs.length) ws := by
  have hws : (i.overwrite (start + vs.length) ws).fields.length = i.fields.length :=
    length_overwrite h
  have hvs : (i.overwrite start vs).fields.length = i.fields.length :=
    length_overwrite (by omega)
  have hfields : ((i.overwrite (start + vs.length) ws).overwrite start vs).fields =
      ((i.overwrite start vs).overwrite (start + vs.length) ws).fields := by
    -- the slots are compared one by one: no slot is in both ranges
    apply List.ext_getElem?
    intro k
    rw [getElem?_overwrite (by omega), getElem?_overwrite (by omega), getElem?_overwrite (by omega),
      getElem?_overwrite (by omega)]
    split
    · rw [if_neg (by omega)]
    · rfl
  simp only [overwrite, mk.injEq, true_and] at hfields ⊢
  exact hfields

end Instance

namespace Graph

variable {g : Graph} {i j : Instance} {start : Nat} {vs ws : List Value} {e : Error}

/-- What is in the slots does not matter to the check of a value. -/
theorem checkSlots_overwrite (k n : Nat) :
    g.checkSlots (i.overwrite k vs) n ws = g.checkSlots i n ws := by
  induction ws generalizing n with
  | nil => rfl
  | cons w ws ih =>
    have hslot : g.checkSlot (i.overwrite k vs) n w = g.checkSlot i n w := rfl
    rw [checkSlots, checkSlots, hslot, ih]

theorem checkSlots_append : g.checkSlots i start (vs ++ ws) =
    g.checkSlots i start vs >>= fun _ => g.checkSlots i (start + vs.length) ws := by
  induction vs generalizing start with
  | nil => rfl
  | cons v vs ih =>
    rw [List.cons_append, checkSlots, checkSlots, List.length_cons]
    cases hv : g.checkSlot i start v with
    | error e => rfl
    | ok _ =>
      simp only
      rw [ih, show start + (vs.length + 1) = start + 1 + vs.length by omega]

/-- Fills the slots from that place on, if the instance is mutable and the values fit. -/
def fillSlots (g : Graph) (i : Instance) (start : Nat) (values : List Value) :
    Except Error Instance :=
  if !i.layout.isMutable then .error (.immutable i.className)
  else (g.checkSlots i start values).map fun _ => i.overwrite start values

theorem fillSlots_eq_ok_iff : g.fillSlots i start vs = .ok j ↔
    i.layout.isMutable = true ∧ g.checkSlots i start vs = .ok () ∧ i.overwrite start vs = j := by
  unfold fillSlots
  cases hmut : i.layout.isMutable with
  | false => simp
  | true =>
    cases hcheck : g.checkSlots i start vs with
    | error e => simp [Except.map]
    | ok _ => simp [Except.map]

theorem cls_of_fillSlots (h : g.fillSlots i start vs = .ok j) : j.cls = i.cls := by
  obtain ⟨-, -, rfl⟩ := fillSlots_eq_ok_iff.1 h
  rfl

/-- **Slots that have been filled do not matter to whether others can be**, and to what is wrong
with the values for these. -/
theorem fillSlots_error_iff {k : Nat} (h : g.fillSlots i k ws = .ok j) :
    g.fillSlots j start vs = .error e ↔ g.fillSlots i start vs = .error e := by
  obtain ⟨hmut, -, rfl⟩ := fillSlots_eq_ok_iff.1 h
  have hmut' : (i.overwrite k ws).layout.isMutable = true := hmut
  have hcheck : g.checkSlots (i.overwrite k ws) start vs = g.checkSlots i start vs :=
    checkSlots_overwrite k start
  unfold fillSlots
  rw [hmut, hmut', hcheck]
  cases g.checkSlots i start vs with
  | error e => rfl
  | ok _ => simp [Except.map]

/-- **To fill slots is to fill the front of them, and then those behind.** If there is something
wrong, it is the same on both sides. -/
theorem fillSlots_append (hstart : start ≤ i.fields.length) : g.fillSlots i start (vs ++ ws) =
    g.fillSlots i start vs >>= fun j => g.fillSlots j (start + vs.length) ws := by
  unfold fillSlots
  cases hmut : i.layout.isMutable with
  | false => rfl
  | true =>
    rw [checkSlots_append]
    cases hvs : g.checkSlots i start vs with
    | error e => rfl
    | ok _ =>
      have hmut' : (i.overwrite start vs).layout.isMutable = true := hmut
      simp only [bind, Except.bind, Bool.not_true, Bool.false_eq_true, if_false, Except.map, hmut',
        checkSlots_overwrite, Instance.overwrite_append hstart]

/-- **Slots side by side may be filled in either order.** -/
theorem fillSlots_comm (hi : i.Shaped) :
    (g.fillSlots i (start + vs.length) ws >>= fun j => g.fillSlots j start vs) = .ok j ↔
      (g.fillSlots i start vs >>= fun j => g.fillSlots j (start + vs.length) ws) = .ok j := by
  -- both sides come to the same checks, and to overwriting in the one order or in the other
  have hswap : g.checkSlots i (start + vs.length) ws = .ok () →
      (i.overwrite (start + vs.length) ws).overwrite start vs =
        (i.overwrite start vs).overwrite (start + vs.length) ws := by
    intro hws
    rcases List.eq_nil_or_concat ws with rfl | ⟨_, _, rfl⟩
    · rw [Instance.overwrite_nil, Instance.overwrite_nil]
    · exact Instance.overwrite_comm (hi.overwrite_le hws (by simp))
  rw [bind_eq_ok_iff, bind_eq_ok_iff]
  constructor
  · rintro ⟨k, hk, hj⟩
    obtain ⟨hmut, hws, rfl⟩ := fillSlots_eq_ok_iff.1 hk
    obtain ⟨-, hvs, rfl⟩ := fillSlots_eq_ok_iff.1 hj
    rw [checkSlots_overwrite] at hvs
    refine ⟨_, fillSlots_eq_ok_iff.2 ⟨hmut, hvs, rfl⟩, fillSlots_eq_ok_iff.2 ⟨hmut, ?_, ?_⟩⟩
    · rw [checkSlots_overwrite]
      exact hws
    · exact (hswap hws).symm
  · rintro ⟨k, hk, hj⟩
    obtain ⟨hmut, hvs, rfl⟩ := fillSlots_eq_ok_iff.1 hk
    obtain ⟨-, hws, rfl⟩ := fillSlots_eq_ok_iff.1 hj
    rw [checkSlots_overwrite] at hws
    refine ⟨_, fillSlots_eq_ok_iff.2 ⟨hmut, hws, rfl⟩, fillSlots_eq_ok_iff.2 ⟨hmut, ?_, ?_⟩⟩
    · rw [checkSlots_overwrite]
      exact hvs
    · exact hswap hws

end Graph

/-! ## The parts of a class -/

namespace Registry

variable {r : Registry β} {i j : Instance} {id sup : TypeId} {c d s : ClassDef β}
  {values vs ws : List Value}

/-- To fill the fields of a class is to fill the slots from the first on, where the instance is one
of the class or of a class below it. -/
theorem fill_eq_fillSlots (hd : r.instantiable id = .ok d)
    (hdesc : r.descendsFrom i.cls id = true) (hlen : values.length = d.layout.fields.length) :
    r.fill i id values = r.graph.fillSlots i 0 values := by
  unfold fill fillTarget Graph.fillSlots
  rw [hd]
  cases hmut : i.layout.isMutable with
  | false => simp [hdesc]
  | true => simp [hdesc, fillFrom, hlen]

/-- To fill the fields that a class itself declares is to fill the slots behind those that it
inherits, if any. -/
theorem fillLocal_eq_fillSlots (hd : r.instantiable id = .ok d)
    (hdesc : r.descendsFrom i.cls id = true)
    (hlen : values.length = d.layout.localFields.length) :
    r.fillLocal i id values = r.graph.fillSlots i d.layout.inherited values := by
  have hcount : values.length = d.layout.fields.length - d.layout.inherited := by
    rw [hlen, Layout.localFields, List.length_drop]
  unfold fillLocal fillTarget Graph.fillSlots
  rw [hd]
  cases hmut : i.layout.isMutable with
  | false => simp [hdesc]
  | true => simp [hdesc, fillFrom, d.localStart, hcount]

/-- A class descends from its superclass. -/
theorem OK.descendsFrom_superclass (hr : r.OK) (hc : r.classDef? id = some c)
    (hsup : c.superclass = some sup) : r.descendsFrom id sup = true := by
  obtain ⟨ids, hchain, hl⟩ := hr.chain hc
  apply (hchain.descendsFrom_iff hl).2
  cases hchain with
  | root => exact absurd rfl (hr.ne_root_of_superclass hc hsup)
  | step _ hd hs _ =>
    rw [hc, Option.some.injEq] at hd
    rw [← hd, hsup, Option.some.injEq] at hs
    simp [hs]

/-- **All fields of the class `id` are filled by filling those of the superclass `sup` with `vs` and
its own ones with `ws`**, in either order. -/
structure FillsInParts (r : Registry β) (i : Instance) (sup id : TypeId) (vs ws : List Value) :
    Prop where
  /-- Each value has to fit its field, and then the values are in the first slots. -/
  whole : ∀ j, r.fill i id (vs ++ ws) = .ok j ↔ i.layout.isMutable = true ∧
    (∀ k v, (vs ++ ws)[k]? = some v → r.graph.checkSlot i k v = .ok ()) ∧
    j = i.overwrite 0 (vs ++ ws)
  /-- In this order, errors are the same as well. -/
  inherited_first : (do r.fillLocal (← r.fill i sup vs) id ws) = r.fill i id (vs ++ ws)
  local_first : ∀ j, (do r.fill (← r.fillLocal i id ws) sup vs) = .ok j ↔
    r.fill i id (vs ++ ws) = .ok j
  succeeds : (∃ j, r.fill i id (vs ++ ws) = .ok j) ↔
    (∃ j, r.fill i sup vs = .ok j) ∧ ∃ j, r.fillLocal i id ws = .ok j
  /-- What is wrong with the own part is wrong whether or not the other part has been filled. -/
  local_error : ∀ j e, r.fill i sup vs = .ok j →
    (r.fillLocal j id ws = .error e ↔ r.fillLocal i id ws = .error e)
  inherited_error : ∀ j e, r.fillLocal i id ws = .ok j →
    (r.fill j sup vs = .error e ↔ r.fill i sup vs = .error e)

/-- Fields are filled in parts if all three ways to fill come to filling slots, in whatever instance
of the class. -/
theorem FillsInParts.of_fillSlots (hi : i.Shaped)
    (hwhole : r.fill i id (vs ++ ws) = r.graph.fillSlots i 0 (vs ++ ws))
    (hfront : ∀ i' : Instance, i'.cls = i.cls →
      r.fill i' sup vs = r.graph.fillSlots i' 0 vs)
    (hback : ∀ i' : Instance, i'.cls = i.cls →
      r.fillLocal i' id ws = r.graph.fillSlots i' (0 + vs.length) ws) :
    r.FillsInParts i sup id vs ws := by
  have hsteps : (do r.fillLocal (← r.fill i sup vs) id ws) = r.fill i id (vs ++ ws) := by
    rw [hwhole, Graph.fillSlots_append (Nat.zero_le _), hfront i rfl]
    cases hj : r.graph.fillSlots i 0 vs with
    | error e => rfl
    | ok j => exact hback j (Graph.cls_of_fillSlots hj)
  have hswapped : (do r.fill (← r.fillLocal i id ws) sup vs) =
      r.graph.fillSlots i (0 + vs.length) ws >>= fun j => r.graph.fillSlots j 0 vs := by
    rw [hback i rfl]
    cases hj : r.graph.fillSlots i (0 + vs.length) ws with
    | error e => rfl
    | ok j => exact hfront j (Graph.cls_of_fillSlots hj)
  have hlocal : ∀ j, (do r.fill (← r.fillLocal i id ws) sup vs) = .ok j ↔
      r.fill i id (vs ++ ws) = .ok j := by
    intro j
    rw [hswapped, hwhole, Graph.fillSlots_append (Nat.zero_le _)]
    exact Graph.fillSlots_comm hi
  have herror : ∀ j e, r.fill i sup vs = .ok j →
      (r.fillLocal j id ws = .error e ↔ r.fillLocal i id ws = .error e) := by
    intro j e hj
    rw [hfront i rfl] at hj
    rw [hback j (Graph.cls_of_fillSlots hj), hback i rfl]
    exact Graph.fillSlots_error_iff hj
  have herror' : ∀ j e, r.fillLocal i id ws = .ok j →
      (r.fill j sup vs = .error e ↔ r.fill i sup vs = .error e) := by
    intro j e hj
    rw [hback i rfl] at hj
    rw [hfront j (Graph.cls_of_fillSlots hj), hfront i rfl]
    exact Graph.fillSlots_error_iff hj
  refine ⟨fun j => ?_, hsteps, hlocal, ⟨?_, ?_⟩, herror, herror'⟩
  · rw [hwhole, Graph.fillSlots_eq_ok_iff, Graph.checkSlots_eq_ok_iff]
    simp only [Nat.zero_add, eq_comm]
  · rintro ⟨j, hj⟩
    obtain ⟨k, hk, -⟩ := bind_eq_ok_iff.1 (hsteps.trans hj)
    obtain ⟨l, hl, -⟩ := bind_eq_ok_iff.1 ((hlocal j).2 hj)
    exact ⟨⟨k, hk⟩, l, hl⟩
  · rintro ⟨⟨k, hk⟩, l, hl⟩
    cases hj : r.fillLocal k id ws with
    | error e =>
      rw [(herror k e hk).1 hj] at hl
      cases hl
    | ok j => exact ⟨j, hsteps.symm.trans (bind_eq_ok_iff.2 ⟨k, hk, hj⟩)⟩

/-- **Fields are filled in parts**, in every instance of a class or of one below it. The superclass
has to be one that has instances. -/
theorem Reachable.fills_in_parts (hr : r.Reachable) (hc : r.classDef? id = some c)
    (hsup : c.superclass = some sup) (hroot : sup ≠ rootId) (hs : r.classDef? sup = some s)
    (hi : i.Shaped) (hdesc : r.descendsFrom i.cls id = true)
    (hvs : vs.length = s.layout.fields.length) (hws : ws.length = c.layout.localFields.length) :
    r.FillsInParts i sup id vs ws := by
  obtain ⟨decl, o, h, hm, hs'⟩ := hr.ok.made_on hc hsup
  obtain ⟨n, he⟩ := hm.extends hr.ok
  rw [hs, Option.some.injEq] at hs'
  rw [← hs'] at he
  -- the own fields of the class are right behind those of the superclass
  have hinherited : c.layout.inherited = vs.length := by rw [he.inherited, hvs]
  have hlen : (vs ++ ws).length = c.layout.fields.length := by
    rw [List.length_append, hvs, hws, he.localFields, he.fields, List.length_append, he.renamed,
      List.length_map]
  have hclass : r.instantiable id = .ok c :=
    hr.ok.instantiable hc (hr.ok.ne_root_of_superclass hc hsup)
  have hsuper : r.instantiable sup = .ok s := hr.ok.instantiable hs hroot
  have hdesc' : r.descendsFrom i.cls sup = true :=
    hr.ok.descendsFrom_trans hdesc (hr.ok.descendsFrom_superclass hc hsup)
  -- whatever has been filled, the three of them come to filling slots
  have hwhole : r.fill i id (vs ++ ws) = r.graph.fillSlots i 0 (vs ++ ws) :=
    fill_eq_fillSlots hclass hdesc hlen
  have hfront : ∀ i' : Instance, i'.cls = i.cls → r.fill i' sup vs = r.graph.fillSlots i' 0 vs := by
    intro i' hcls
    exact fill_eq_fillSlots hsuper (hcls ▸ hdesc') hvs
  have hback : ∀ i' : Instance, i'.cls = i.cls →
      r.fillLocal i' id ws = r.graph.fillSlots i' (0 + vs.length) ws := by
    intro i' hcls
    rw [Nat.zero_add, ← hinherited]
    exact fillLocal_eq_fillSlots hclass (hcls ▸ hdesc) hws
  exact .of_fillSlots hi hwhole hfront hback

/-! ## Knobs -/

/-- A class below the dial with a third field. -/
def knob : ClassDecl Body := ⟨"Knob", some "Dial", [], true, [.field ⟨"z", .prim .str⟩]⟩

/-- The registry of the box, the dial and the knob. -/
def knobs : Registry Body := dials.registry.after (.define knob)

/-- The fields that a new knob has as a dial are filled by filling that which it has as a box, and
that which the dial adds. -/
theorem fills_in_parts_knobs : ∃ i, knobs.allocate 6 = .ok i ∧
    knobs.FillsInParts i 2 4 [.int 7] [.int 1] ∧ ∃ j, knobs.fill i 4 [.int 7, .int 1] = .ok j := by
  have hdials : dials.registry.Reachable := live_dials.ok.reachable
  have hr : knobs.Reachable := hdials.after (.define knob)
  have hdial : (knobs.classDef? 4).map (fun c => (c.superclass, c.layout.localFields.length)) =
      some (some 2, 1) := by decide +kernel
  have hbox : (knobs.classDef? 2).map (·.layout.fields.length) = some 1 := by decide +kernel
  have hfill : (knobs.allocate 6).toOption.any
      (fun i => (knobs.fill i 4 [.int 7, .int 1]).toOption.isSome) = true := by decide +kernel
  obtain ⟨c, hc, hdial⟩ := Option.map_eq_some_iff.1 hdial
  obtain ⟨s, hs, hbox⟩ := Option.map_eq_some_iff.1 hbox
  rw [Prod.mk.injEq] at hdial
  cases ha : knobs.allocate 6 with
  | error e =>
    rw [ha] at hfill
    cases hfill
  | ok i =>
    obtain ⟨hi, hcls, -⟩ := allocate_sound hr.ok ha
    have hdesc : knobs.descendsFrom i.cls 4 = true := by
      rw [hcls]
      decide +kernel
    refine ⟨i, rfl, hr.fills_in_parts hc hdial.1 (by decide) hs hi.toShaped hdesc hbox.symm
      hdial.2.symm, ?_⟩
    cases hj : knobs.fill i 4 [.int 7, .int 1] with
    | error e => simp [ha, hj, Except.toOption] at hfill
    | ok j => exact ⟨j, rfl⟩

end Registry

end ClassGraph
