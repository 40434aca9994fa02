import ConfGraph.Graph.Batch
import ConfGraph.Proofs.Shape.Reading

/-!
# What reading a batch guarantees

Ops come from outside, and the store trusts them only because they have been read.  This module
says what can be trusted: numbers are finite, names are not empty, ids are whole numbers above zero
that doubles tell apart, and no value has been altered.

* `AttrValue.Sound`: a stored value whose references are all known.
* `OpValue.Valid`, `TxOp.Valid`: what reading guarantees of a value in an op, and of an op.
* `valid_of_ofValue`: every batch that is read holds valid ops only.
* `ofValue_of_opsShape_eq`: values that are read as the same ops are the same batch.
-/

namespace ConfGraph

open Shape

/-! ## 1. What can be trusted -/

/-- A stored value in order: its numbers are finite, its references are known, and nothing in it has
been altered behind the back of every transaction. -/
inductive AttrValue.Sound (known : EntityId → Prop) : AttrValue → Prop
  | str (s : String) : Sound known (.str s)
  | num {x : Float} (finite : Number.isFinite x = true) : Sound known (.num x)
  | bool (b : Bool) : Sound known (.bool b)
  | null : Sound known .null
  | list {items : List AttrValue} (items_sound : ∀ a ∈ items, Sound known a) :
    Sound known (.list items)
  | ref {n : EntityId} (is_known : known n) : Sound known (.ref n)

/-- The ids that can be written in an op. -/
def IsWritable (n : EntityId) : Prop := 0 < n ∧ n ≤ Cause.exactBound

/-- What reading guarantees of a reference. -/
def EntityRef.Valid : EntityRef → Prop
  | .id n => IsWritable n
  | .tempId name => name ≠ ""
  | .lookup attr value => attr ≠ "" ∧ value.Sound IsWritable

/-- What reading guarantees of a value in an op. -/
inductive OpValue.Valid : OpValue → Prop
  | str (s : String) : Valid (.str s)
  | num {x : Float} (finite : Number.isFinite x = true) : Valid (.num x)
  | bool (b : Bool) : Valid (.bool b)
  | null : Valid .null
  | list {items : List OpValue} (items_valid : ∀ a ∈ items, Valid a) : Valid (.list items)
  | ref {target : EntityRef} (target_valid : target.Valid) : Valid (.ref target)

/-- What reading guarantees of an op. -/
def TxOp.Valid : TxOp → Prop
  | .create tempId attrs =>
    (∀ t ∈ tempId, t ≠ "") ∧ ∀ f ∈ attrs, f.1 ≠ "__proto__" ∧ f.1 ≠ "" ∧ f.2.Valid
  | .assert entity attr value => entity.Valid ∧ attr ≠ "" ∧ value.Valid
  | .retract entity attr => entity.Valid ∧ attr ≠ ""

theorem AttrValue.Sound.mono {p q : EntityId → Prop} (hpq : ∀ n, p n → q n) {a : AttrValue}
    (h : a.Sound p) : a.Sound q := by
  induction h with
  | str s => exact .str s
  | num hx => exact .num hx
  | bool b => exact .bool b
  | null => exact .null
  | list _ ih => exact .list ih
  | ref hn => exact .ref (hpq _ hn)

/-! ## 2. Values and references that were read -/

mutual

theorem attrValueShape_sound : ∀ {v : Value} {a : AttrValue},
    attrValueShape v = .ok a → a.Sound IsWritable
  | v, a, h => by
    unfold attrValueShape at h
    split at h
    · next items =>
      obtain ⟨as, has, rfl⟩ := map_eq_ok_iff.mp (List.mem_singleton.mp (oneOf_mem h)).symm
      refine .list fun b hb => ?_
      have hmem : .ok b ∈ attrValueOutcomes 0 items := by
        rw [gather_eq_ok_iff.mp has]
        exact List.mem_map_of_mem hb
      exact attrValueOutcomes_sound hmem
    · have hmem := oneOf_mem h
      simp only [List.mem_cons, List.not_mem_nil, or_false] at hmem
      rcases hmem with h | h | h | h | h
      · obtain ⟨s, -, rfl⟩ := map_eq_ok_iff.mp h.symm
        exact .str s
      · obtain ⟨x, hx, rfl⟩ := map_eq_ok_iff.mp h.symm
        exact .num (number_eq_ok_iff.mp hx).2
      · obtain ⟨b, -, rfl⟩ := map_eq_ok_iff.mp h.symm
        exact .bool b
      · obtain ⟨-, -, rfl⟩ := map_eq_ok_iff.mp h.symm
        exact .null
      · obtain ⟨-, href⟩ := object_eq_ok_iff.mp h.symm
        obtain ⟨n, hn, rfl⟩ := map_eq_ok_iff.mp href
        exact .ref (positive_eq_ok (field_eq_ok_iff.mp hn))

theorem attrValueOutcomes_sound : ∀ {i : Nat} {items : List Value} {a : AttrValue},
    .ok a ∈ attrValueOutcomes i items → a.Sound IsWritable
  | _, [], _, h => by simp [attrValueOutcomes] at h
  | _, v :: rest, _, h => by
    unfold attrValueOutcomes at h
    rcases List.mem_cons.mp h with h | h
    · exact attrValueShape_sound (v := v) (under_eq_ok_iff.mp h.symm)
    · exact attrValueOutcomes_sound h

end

theorem entityRefShape_valid {v : Value} {r : EntityRef} (h : entityRefShape v = .ok r) :
    r.Valid := by
  have hmem := oneOf_mem h
  simp only [List.mem_cons, List.not_mem_nil, or_false] at hmem
  rcases hmem with h | h | h
  · obtain ⟨n, hn, rfl⟩ := map_eq_ok_iff.mp h.symm
    exact positive_eq_ok hn
  · obtain ⟨name, hname, rfl⟩ := map_eq_ok_iff.mp h.symm
    exact (nonEmptyText_eq_ok hname).2
  · obtain ⟨-, hlookup⟩ := object_eq_ok_iff.mp h.symm
    obtain ⟨p, hp, rfl⟩ := map_eq_ok_iff.mp hlookup
    obtain ⟨hattr, hvalue⟩ := both_eq_ok_iff.mp hp
    exact ⟨(nonEmptyText_eq_ok (field_eq_ok_iff.mp hattr)).2,
      attrValueShape_sound (field_eq_ok_iff.mp hvalue)⟩

mutual

theorem opValueShape_valid : ∀ {v : Value} {a : OpValue}, opValueShape v = .ok a → a.Valid
  | v, a, h => by
    unfold opValueShape at h
    split at h
    · next items =>
      obtain ⟨as, has, rfl⟩ := map_eq_ok_iff.mp (List.mem_singleton.mp (oneOf_mem h)).symm
      refine .list fun b hb => ?_
      have hmem : .ok b ∈ opValueOutcomes 0 items := by
        rw [gather_eq_ok_iff.mp has]
        exact List.mem_map_of_mem hb
      exact opValueOutcomes_valid hmem
    · have hmem := oneOf_mem h
      simp only [List.mem_cons, List.not_mem_nil, or_false] at hmem
      rcases hmem with h | h | h | h | h
      · obtain ⟨s, -, rfl⟩ := map_eq_ok_iff.mp h.symm
        exact .str s
      · obtain ⟨x, hx, rfl⟩ := map_eq_ok_iff.mp h.symm
        exact .num (number_eq_ok_iff.mp hx).2
      · obtain ⟨b, -, rfl⟩ := map_eq_ok_iff.mp h.symm
        exact .bool b
      · obtain ⟨-, -, rfl⟩ := map_eq_ok_iff.mp h.symm
        exact .null
      · obtain ⟨-, href⟩ := object_eq_ok_iff.mp h.symm
        obtain ⟨target, ht, rfl⟩ := map_eq_ok_iff.mp href
        exact .ref (entityRefShape_valid (field_eq_ok_iff.mp ht))

theorem opValueOutcomes_valid : ∀ {i : Nat} {items : List Value} {a : OpValue},
    .ok a ∈ opValueOutcomes i items → a.Valid
  | _, [], _, h => by simp [opValueOutcomes] at h
  | _, v :: rest, _, h => by
    unfold opValueOutcomes at h
    rcases List.mem_cons.mp h with h | h
    · exact opValueShape_valid (v := v) (under_eq_ok_iff.mp h.symm)
    · exact opValueOutcomes_valid h

end

/-! ## 3. Ops that were read -/

theorem createShape_valid {v : Value} {op : TxOp} (h : createShape v = .ok op) : op.Valid := by
  obtain ⟨⟨tempId, attrs⟩, hp, rfl⟩ := map_eq_ok_iff.mp h
  obtain ⟨htemp, hattrs⟩ := both_eq_ok_iff.mp hp
  refine ⟨?_, fun f hf => ?_⟩
  · rintro t rfl
    obtain hnone | ⟨s, hs, hread⟩ := optional_eq_ok (field_eq_ok_iff.mp htemp)
    · exact nomatch hnone
    · obtain rfl := Option.some.inj hs
      exact (nonEmptyText_eq_ok hread).2
  · obtain ⟨hproto, hempty, w, hw⟩ := entries_mem (field_eq_ok_iff.mp hattrs) hf
    exact ⟨hproto, hempty, opValueShape_valid hw⟩

theorem assertShape_valid {v : Value} {op : TxOp} (h : assertShape v = .ok op) : op.Valid := by
  obtain ⟨⟨entity, attr, value⟩, hp, rfl⟩ := map_eq_ok_iff.mp h
  obtain ⟨hentity, hrest⟩ := both_eq_ok_iff.mp hp
  obtain ⟨hattr, hvalue⟩ := both_eq_ok_iff.mp hrest
  exact ⟨entityRefShape_valid (field_eq_ok_iff.mp hentity),
    (nonEmptyText_eq_ok (field_eq_ok_iff.mp hattr)).2,
    opValueShape_valid (field_eq_ok_iff.mp hvalue)⟩

theorem retractShape_valid {v : Value} {op : TxOp} (h : retractShape v = .ok op) : op.Valid := by
  obtain ⟨⟨entity, attr⟩, hp, rfl⟩ := map_eq_ok_iff.mp h
  obtain ⟨hentity, hattr⟩ := both_eq_ok_iff.mp hp
  exact ⟨entityRefShape_valid (field_eq_ok_iff.mp hentity),
    (nonEmptyText_eq_ok (field_eq_ok_iff.mp hattr)).2⟩

theorem opShape_valid {v : Value} {op : TxOp} (h : opShape v = .ok op) : op.Valid := by
  obtain ⟨-, h⟩ := object_eq_ok_iff.mp h
  split at h
  · exact createShape_valid h
  · exact assertShape_valid h
  · exact retractShape_valid h
  · exact absurd (under_eq_ok_iff.mp h) fail_ne_ok

theorem valid_of_opsShape {v : Value} {ops : List TxOp} (h : opsShape v = .ok ops) :
    ∀ op ∈ ops, op.Valid := by
  intro op hop
  obtain ⟨w, hw⟩ := list_mem h hop
  exact opShape_valid hw

/-- **Every batch that is read holds valid ops only.** -/
theorem valid_of_ofValue {v : Value} {ops : List TxOp} (h : Batch.ofValue v = .ok ops) :
    ∀ op ∈ ops, op.Valid := by
  intro op hop
  have empty_or_read : ops = [] ∨ opsShape v = .ok ops := by
    unfold Batch.ofValue at h
    split at h
    · exact nomatch h
    · exact nomatch h
    · exact nomatch h
    · split at h
      · exact .inl (Except.ok.inj h).symm
      · split at h
        · next hread =>
          obtain rfl := Except.ok.inj h
          exact .inr hread
        · exact nomatch h
  rcases empty_or_read with rfl | hread
  · exact nomatch hop
  · exact valid_of_opsShape hread op hop

/-! ## 4. Batches that are read alike -/

section Alike

variable {v w : Value} {ops : List TxOp}

/-- Two values that are read as the same ops have the same length. -/
theorem field_length_of_opsShape_eq (hv : opsShape v = .ok ops) (hw : opsShape w = .ok ops) :
    v.field "length" = w.field "length" := by
  obtain ⟨items, rfl, hitems⟩ := exists_items_of_list hv
  obtain ⟨items', rfl, hitems'⟩ := exists_items_of_list hw
  simp [Value.field, Value.member?, hitems.length_eq, hitems'.length_eq]

/-- **Two values that are read as the same ops are the same batch.** -/
theorem ofValue_of_opsShape_eq (hv : opsShape v = .ok ops) (hw : opsShape w = .ok ops) :
    Batch.ofValue v = Batch.ofValue w := by
  have hlength := field_length_of_opsShape_eq hv hw
  obtain ⟨items, rfl, -⟩ := exists_items_of_list hv
  obtain ⟨items', rfl, -⟩ := exists_items_of_list hw
  simp only [Batch.ofValue, isEmptyBatch, hlength, hv, hw]

theorem applyOps_of_opsShape_eq (hv : opsShape v = .ok ops) (hw : opsShape w = .ok ops) (g : Graph)
    (provenance : Value) : g.applyOps v provenance = g.applyOps w provenance := by
  rw [Graph.applyOps, Graph.applyOps, ofValue_of_opsShape_eq hv hw]

end Alike

end ConfGraph
