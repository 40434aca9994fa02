import ConfGraph.Proofs.Graph.Schema
import ConfGraph.Proofs.Value.Fields

/-!
# Ops are read back

The writing of an op as a value and the reading of ops are inverse to each other: a valid op, written
as a value, is read as that very op.  Only one alternative fits a written value, so those of a value
and of a reference never get in each other's way.

* `attrValueShape_toValue`, `entityRefShape_toValue`, `opValueShape_toValue`: the parts of an op.
* `opShape_toValue`: an op.
* `ofValue_toValue`: a batch.
-/

namespace ConfGraph

open Shape

/-! ## 1. Stored values -/

theorem positive_of_isWritable {n : EntityId} (h : IsWritable n) : positive (.nat n) = .ok n :=
  positive_nat h.1 h.2

theorem storedRefShape_toValue {n : EntityId} (h : IsWritable n) :
    storedRefShape (AttrValue.ref n).toValue = .ok (.ref n) := by
  refine object_eq_ok_iff.mpr ⟨rfl, map_eq_ok_iff.mpr ⟨n, ?_, rfl⟩⟩
  exact field_eq_ok_iff.mpr (positive_of_isWritable h)

mutual

/-- **A stored value is read back.** -/
theorem attrValueShape_toValue : ∀ {a : AttrValue}, a.Sound IsWritable →
    attrValueShape a.toValue = .ok a
  | .str s, _ => rfl
  | .num x, .num finite => oneOf_num finite
  | .bool b, _ => rfl
  | .null, _ => rfl
  | .list items, .list items_sound => by
    have hitems : gather (attrValueOutcomes 0 (AttrValue.toValues items)) = .ok items :=
      gather_eq_ok_iff.mpr (attrValueOutcomes_toValues items_sound)
    unfold AttrValue.toValue attrValueShape
    rw [hitems]
    exact oneOf_of_read [] nofun
  | .ref n, .ref is_known => by
    have hread := storedRefShape_toValue is_known
    unfold AttrValue.toValue at hread ⊢
    unfold attrValueShape
    rw [hread]
    exact oneOf_record

theorem attrValueOutcomes_toValues : ∀ {i : Nat} {items : List AttrValue},
    (∀ a ∈ items, a.Sound IsWritable) →
      attrValueOutcomes i (AttrValue.toValues items) = items.map .ok
  | _, [], _ => rfl
  | i, a :: rest, h => by
    have hfirst : under (toString i) (attrValueShape a.toValue) = .ok a :=
      under_eq_ok_iff.mpr (attrValueShape_toValue (h a List.mem_cons_self))
    have hrest := attrValueOutcomes_toValues (i := i + 1)
      fun b hb => h b (List.mem_cons_of_mem a hb)
    rw [AttrValue.toValues, attrValueOutcomes, hfirst, hrest, List.map_cons]

end

/-! ## 2. References and values in ops -/

/-- **A reference is read back**, by the alternative for its way of naming the entity. -/
theorem entityRefShape_toValue {r : EntityRef} (h : r.Valid) :
    entityRefShape r.toValue = .ok r := by
  cases r with
  | id n =>
    have hread : positive (EntityRef.id n).toValue = .ok n := positive_of_isWritable h
    unfold entityRefShape
    rw [hread]
    exact oneOf_of_read [] nofun
  | tempId name =>
    have hread : nonEmptyText (EntityRef.tempId name).toValue = .ok name := nonEmptyText_str h
    unfold entityRefShape
    rw [hread]
    refine oneOf_of_read [_] (List.forall_mem_singleton.mpr ?_)
    exact settles_map.trans rfl
  | lookup attr value =>
    have hattr := nonEmptyText_str h.1
    have hvalue := attrValueShape_toValue h.2
    have hread : lookupShape (EntityRef.lookup attr value).toValue = .ok (.lookup attr value) := by
      refine object_eq_ok_iff.mpr ⟨rfl, map_eq_ok_iff.mpr ⟨(attr, value), ?_, rfl⟩⟩
      exact both_eq_ok_iff.mpr ⟨field_eq_ok_iff.mpr hattr, field_eq_ok_iff.mpr hvalue⟩
    unfold entityRefShape
    rw [hread]
    refine oneOf_of_read [_, _]
      (List.forall_mem_cons.mpr ⟨?_, List.forall_mem_singleton.mpr ?_⟩)
    · exact settles_map.trans rfl
    · exact settles_map.trans rfl

theorem opRefShape_toValue {r : EntityRef} (h : r.Valid) :
    opRefShape (OpValue.ref r).toValue = .ok (.ref r) := by
  refine object_eq_ok_iff.mpr ⟨rfl, map_eq_ok_iff.mpr ⟨r, ?_, rfl⟩⟩
  exact field_eq_ok_iff.mpr (entityRefShape_toValue h)

mutual

/-- **A value in an op is read back.** -/
theorem opValueShape_toValue : ∀ {a : OpValue}, a.Valid → opValueShape a.toValue = .ok a
  | .str s, _ => rfl
  | .num x, .num finite => oneOf_num finite
  | .bool b, _ => rfl
  | .null, _ => rfl
  | .list items, .list items_valid => by
    have hitems : gather (opValueOutcomes 0 (OpValue.toValues items)) = .ok items :=
      gather_eq_ok_iff.mpr (opValueOutcomes_toValues items_valid)
    unfold OpValue.toValue opValueShape
    rw [hitems]
    exact oneOf_of_read [] nofun
  | .ref r, .ref target_valid => by
    have hread := opRefShape_toValue target_valid
    unfold OpValue.toValue at hread ⊢
    unfold opValueShape
    rw [hread]
    exact oneOf_record

theorem opValueOutcomes_toValues : ∀ {i : Nat} {items : List OpValue},
    (∀ a ∈ items, a.Valid) → opValueOutcomes i (OpValue.toValues items) = items.map .ok
  | _, [], _ => rfl
  | i, a :: rest, h => by
    have hfirst : under (toString i) (opValueShape a.toValue) = .ok a :=
      under_eq_ok_iff.mpr (opValueShape_toValue (h a List.mem_cons_self))
    have hrest := opValueOutcomes_toValues (i := i + 1)
      fun b hb => h b (List.mem_cons_of_mem a hb)
    rw [OpValue.toValues, opValueOutcomes, hfirst, hrest, List.map_cons]

end

/-! ## 3. Ops -/

theorem entryOutcomes_map {fields : Fields OpValue} {s : Shape OpValue}
    (h : ∀ f ∈ fields, f.1 ≠ "__proto__" ∧ f.1 ≠ "" ∧ s f.2.toValue = .ok f.2) :
    entryOutcomes s (fields.map fun f => (f.1, f.2.toValue)) = fields.map .ok := by
  induction fields with
  | nil => rfl
  | cons f rest ih =>
    obtain ⟨hproto, hempty, hread⟩ := h f List.mem_cons_self
    have hrest := ih fun g hg => h g (List.mem_cons_of_mem f hg)
    have hunder : under f.1 (s f.2.toValue) = .ok f.2 := under_eq_ok_iff.mpr hread
    rw [List.map_cons, entryOutcomes, if_neg hproto, if_neg hempty, hrest, hunder]
    rfl

/-- No written value is a function, so none makes its record look less than plain. -/
theorem makesPlain_toValue {a : OpValue} (h : a.Valid) : makesPlain a.toValue = true := by
  cases h <;> rfl

/-- **The attributes of a create are read back.** -/
theorem attrsShape_toValue {attrs : Fields OpValue}
    (h : ∀ f ∈ attrs, f.1 ≠ "__proto__" ∧ f.1 ≠ "" ∧ f.2.Valid) :
    attrsShape (.record .host (attrs.map fun f => (f.1, f.2.toValue))) = .ok attrs := by
  have hplain : isPlain (.record .host (attrs.map fun f => (f.1, f.2.toValue))) = true := by
    unfold isPlain
    rw [Value.member?, Fields.get?_map]
    cases hmaker : Fields.get? attrs "constructor" with
    | none => rfl
    | some a => exact makesPlain_toValue (h _ (Fields.mem_of_get? hmaker)).2.2
  have hentries := entryOutcomes_map (s := opValueShape) fun f hf =>
    ⟨(h f hf).1, (h f hf).2.1, opValueShape_toValue (h f hf).2.2⟩
  unfold attrsShape entries
  rw [if_pos hplain]
  exact gather_eq_ok_iff.mpr hentries

/-- **An op is read back.** -/
theorem opShape_toValue {op : TxOp} (h : op.Valid) : opShape op.toValue = .ok op := by
  cases op with
  | create tempId attrs =>
    refine object_eq_ok_iff.mpr ⟨rfl, map_eq_ok_iff.mpr ⟨(tempId, attrs), ?_, rfl⟩⟩
    have hattrs := attrsShape_toValue h.2
    cases tempId with
    | none => exact both_eq_ok_iff.mpr ⟨rfl, field_eq_ok_iff.mpr hattrs⟩
    | some t =>
      have htemp := nonEmptyText_str (h.1 t rfl)
      refine both_eq_ok_iff.mpr ⟨field_eq_ok_iff.mpr ?_, field_eq_ok_iff.mpr hattrs⟩
      exact map_eq_ok_iff.mpr ⟨t, htemp, rfl⟩
  | assert entity attr value =>
    refine object_eq_ok_iff.mpr ⟨rfl, map_eq_ok_iff.mpr ⟨(entity, attr, value), ?_, rfl⟩⟩
    have hentity := entityRefShape_toValue h.1
    have hattr := nonEmptyText_str h.2.1
    have hvalue := opValueShape_toValue h.2.2
    refine both_eq_ok_iff.mpr ⟨field_eq_ok_iff.mpr hentity, ?_⟩
    exact both_eq_ok_iff.mpr ⟨field_eq_ok_iff.mpr hattr, field_eq_ok_iff.mpr hvalue⟩
  | retract entity attr =>
    refine object_eq_ok_iff.mpr ⟨rfl, map_eq_ok_iff.mpr ⟨(entity, attr), ?_, rfl⟩⟩
    have hentity := entityRefShape_toValue h.1
    have hattr := nonEmptyText_str h.2
    exact both_eq_ok_iff.mpr ⟨field_eq_ok_iff.mpr hentity, field_eq_ok_iff.mpr hattr⟩

/-! ## 4. Batches -/

theorem itemOutcomes_toValue {ops : List TxOp} (h : ∀ op ∈ ops, op.Valid) (i : Nat) :
    itemOutcomes opShape i (ops.map TxOp.toValue) = ops.map .ok := by
  induction ops generalizing i with
  | nil => rfl
  | cons op rest ih =>
    have hfirst : under (toString i) (opShape op.toValue) = .ok op :=
      under_eq_ok_iff.mpr (opShape_toValue (h op List.mem_cons_self))
    have hrest := ih (fun o ho => h o (List.mem_cons_of_mem op ho)) (i + 1)
    rw [List.map_cons, itemOutcomes, hfirst, hrest, List.map_cons]

/-- What has a length that doubles count is not taken for the empty batch. -/
theorem isEmptyBatch_list {items : List Value} (hne : items ≠ [])
    (hcount : items.length < Number.smallBound) : isEmptyBatch (.list items) = false := by
  have hzero : ¬ Number.isZero (Number.ofNat items.length) = true := fun h =>
    hne (List.length_eq_zero_iff.mp (Number.isZero_ofNat hcount h))
  simpa [isEmptyBatch, Value.field, Value.member?, Value.nat] using hzero

/-- A list of ops is read as a batch of these ops. -/
theorem ofValue_of_opsShape {items : List Value} {ops : List TxOp}
    (hread : opsShape (.list items) = .ok ops) (hcount : items.length < Number.smallBound) :
    Batch.ofValue (.list items) = .ok ops := by
  cases items with
  | nil =>
    obtain rfl := Except.ok.inj hread
    rfl
  | cons v rest =>
    have hnonempty := isEmptyBatch_list (List.cons_ne_nil v rest) hcount
    simp only [Batch.ofValue, hnonempty, hread, Bool.false_eq_true, if_false]

/-- **A batch is read back.** -/
theorem ofValue_toValue {ops : List TxOp} (h : ∀ op ∈ ops, op.Valid)
    (hcount : ops.length < Number.smallBound) :
    Batch.ofValue (.list (ops.map TxOp.toValue)) = .ok ops :=
  ofValue_of_opsShape (gather_eq_ok_iff.mpr (itemOutcomes_toValue h 0))
    ((List.length_map TxOp.toValue).symm ▸ hcount)

end ConfGraph
