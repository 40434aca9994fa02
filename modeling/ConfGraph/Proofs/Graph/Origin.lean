import ConfGraph.Proofs.Graph.Schema
import ConfGraph.Proofs.Value.Origin

/-!
# Batches whose records a script has made

A batch is read alike whoever has made its records: what is made of it does not depend on whether a
host or a script has written it down.  Only the words for what is wrong with a batch do, so this is
said of batches that are read.

* `Shape.Blind`: shapes that read a value alike whoever has made its records.
* `Shape.Blind.map`, `Blind.both`, `Blind.field`, `Blind.object`, …: the ways of building shapes.
* `blind_entityRefShape`, `blind_opValueShape`, `blind_opShape`: the parts of a batch.
* `Batch.ofValue_madeBy`, `Graph.applyOps_madeBy`: whole batches.
-/

namespace ConfGraph

/-! ## 1. Shapes that are blind -/

namespace Shape

variable {α β : Type} {s : Shape α} {t : Shape β} {v : Value} {o : Origin}

/-- **A shape reads a value alike whoever has made its records**, if it reads it. -/
def Blind (s : Shape α) : Prop :=
  ∀ (v : Value) (o : Origin) (a : α), v.Writable → s v = .ok a → s (v.madeBy o) = .ok a

theorem Blind.map (hs : s.Blind) (f : α → β) : Blind fun v => (s v).map f := by
  intro v o b hv h
  obtain ⟨a, ha, rfl⟩ := map_eq_ok_iff.mp h
  exact map_eq_ok_iff.mpr ⟨a, hs v o a hv ha, rfl⟩

theorem Blind.both (hs : s.Blind) (ht : t.Blind) : Blind fun v => Shape.both (s v) (t v) := by
  intro v o p hv h
  obtain ⟨hfirst, hsecond⟩ := both_eq_ok_iff.mp h
  exact both_eq_ok_iff.mpr ⟨hs v o _ hv hfirst, ht v o _ hv hsecond⟩

theorem Blind.field (hs : s.Blind) (name : String) : Blind (Shape.field name s) := by
  intro v o a hv h
  rw [field_eq_ok_iff] at h ⊢
  rw [Value.field_madeBy hv]
  exact hs _ o a (hv.field name) h

theorem Blind.object (hs : s.Blind) : Blind (Shape.object s) := by
  intro v o a hv h
  rw [object_eq_ok_iff] at h ⊢
  rw [Value.isObject_madeBy]
  exact ⟨h.1, hs v o a hv h.2⟩

theorem Blind.optional (hs : s.Blind) : Blind (Shape.optional s) := by
  intro v o a hv h
  have hmap := hs.map some
  cases hv with
  | undefined => exact h
  | list items_writable =>
    have hread := hmap _ o a (.list items_writable) h
    rw [Value.madeBy_list] at hread ⊢
    exact hread
  | record origin ordered not_proto fields_writable =>
    have hread := hmap _ o a (.record origin ordered not_proto fields_writable) h
    rw [Value.madeBy_record] at hread ⊢
    exact hread
  | _ => exact h

/-- Lists are read item by item. -/
theorem outcomes_madeBy (outcomes : Nat → List Value → List (Checked α))
    (hnil : ∀ i, outcomes i [] = [])
    (hcons : ∀ i v rest, outcomes i (v :: rest) = under (toString i) (s v) :: outcomes (i + 1) rest) :
    ∀ {items : List Value}, (∀ v ∈ items, ∀ a, s v = .ok a → s (v.madeBy o) = .ok a) →
      ∀ {as : List α} {i : Nat}, outcomes i items = as.map .ok →
        outcomes i (items.map (Value.madeBy o)) = as.map .ok
  | [], _, as, i, h => h
  | v :: rest, hitems, as, i, h => by
    rw [hcons] at h
    cases as with
    | nil => exact nomatch h
    | cons a as =>
      obtain ⟨hfirst, hrest⟩ := List.cons.inj h
      have hlater :=
        outcomes_madeBy outcomes hnil hcons (fun w hw => hitems w (List.mem_cons_of_mem _ hw)) hrest
      have hread := hitems v List.mem_cons_self a (under_eq_ok_iff.mp hfirst)
      rw [List.map_cons, hcons, hlater, hread]
      rfl

theorem Blind.list (hs : s.Blind) : Blind (Shape.list s) := by
  intro v o as hv h
  cases hv with
  | list items_writable =>
    rw [Value.madeBy_list]
    unfold Shape.list at h ⊢
    rw [gather_eq_ok_iff] at h ⊢
    exact outcomes_madeBy (itemOutcomes s) (fun _ => rfl) (fun _ _ _ => rfl)
      (fun v hv a => hs v o a (items_writable v hv)) h
  | _ => exact nomatch h

/-- Whoever has made a record, it is a plain one. -/
theorem isPlain_of_writable {origin : Origin} {fields : List (String × Value)}
    (hv : (Value.record origin fields).Writable) : isPlain (.record origin fields) = true := by
  unfold isPlain
  dsimp only
  cases hmaker : (Value.record origin fields).member? "constructor" with
  | none => rfl
  | some maker =>
    have hmaker := hv.member hmaker
    cases hmaker <;> rfl

/-- Records with free names are read field by field. -/
theorem entryOutcomes_madeBy : ∀ {fields : List (String × Value)},
    (∀ f ∈ fields, ∀ a, s f.2 = .ok a → s (f.2.madeBy o) = .ok a) → ∀ {as : Fields α},
      entryOutcomes s fields = as.map .ok →
      entryOutcomes s (fields.map fun f => (f.1, f.2.madeBy o)) = as.map .ok
  | [], _, as, h => h
  | (name, v) :: rest, hfields, as, h => by
    have hlater : ∀ {as : Fields α}, entryOutcomes s rest = as.map .ok →
        entryOutcomes s (rest.map fun f => (f.1, f.2.madeBy o)) = as.map .ok :=
      entryOutcomes_madeBy fun f hf => hfields f (List.mem_cons_of_mem _ hf)
    rw [List.map_cons]
    unfold entryOutcomes at h ⊢
    by_cases hproto : name = "__proto__"
    · rw [if_pos hproto] at h ⊢
      exact hlater h
    · rw [if_neg hproto] at h ⊢
      by_cases hempty : name = ""
      · rw [if_pos hempty] at h
        cases as with
        | nil => cases h
        | cons a as => cases (List.cons.inj h).1
      · rw [if_neg hempty] at h ⊢
        cases as with
        | nil => cases h
        | cons a as =>
          obtain ⟨hfirst, hrest⟩ := List.cons.inj h
          obtain ⟨b, hb, rfl⟩ := map_eq_ok_iff.mp hfirst
          have hread : s (v.madeBy o) = .ok b :=
            hfields (name, v) List.mem_cons_self b (under_eq_ok_iff.mp hb)
          rw [hlater hrest, hread]
          rfl

theorem Blind.entries (hs : s.Blind) : Blind (Shape.entries s) := by
  intro v o as hv h
  cases hv with
  | @record origin fields ordered not_proto fields_writable =>
    have hv : (Value.record origin fields).Writable := .record origin ordered not_proto fields_writable
    have hmade := hv.madeBy o
    unfold Shape.entries at h ⊢
    rw [if_pos (isPlain_of_writable hv), gather_eq_ok_iff] at h
    rw [Value.madeBy_record] at hmade ⊢
    rw [if_pos (isPlain_of_writable hmade), gather_eq_ok_iff]
    exact entryOutcomes_madeBy (fun f hf a => hs f.2 o a (fields_writable f hf)) h
  | _ => exact nomatch h

/-- A record that is read by a choice whose last alternative alone reads records. -/
theorem oneOf_record_madeBy {str : String → α} {num : Float → α} {bool : Bool → α}
    {nothing : Unit → α} {origin : Origin} {fields : List (String × Value)}
    (hlast : ∀ a, s (.record origin fields) = .ok a →
      s ((Value.record origin fields).madeBy o) = .ok a) {a : α}
    (h : oneOf [(text (.record origin fields)).map str, (number (.record origin fields)).map num,
      (boolean (.record origin fields)).map bool, (null (.record origin fields)).map nothing,
      s (.record origin fields)] = .ok a) :
    oneOf [(text ((Value.record origin fields).madeBy o)).map str,
      (number ((Value.record origin fields).madeBy o)).map num,
      (boolean ((Value.record origin fields).madeBy o)).map bool,
      (null ((Value.record origin fields).madeBy o)).map nothing,
      s ((Value.record origin fields).madeBy o)] = .ok a := by
  have hmem := oneOf_mem h
  simp only [List.mem_cons, List.not_mem_nil, or_false] at hmem
  have hread : s (.record origin fields) = .ok a := by
    rcases hmem with h | h | h | h | h
    · cases h
    · cases h
    · cases h
    · cases h
    · exact h.symm
  rw [hlast a hread, Value.madeBy_record]
  exact oneOf_record

end Shape

open Shape

variable {v : Value} {o : Origin}

/-! ## 2. References -/

theorem blind_positive : Blind positive := by
  intro v o n _ h
  cases v with
  | num x => exact h
  | _ => exact nomatch h

theorem blind_nonEmptyText : Blind nonEmptyText := by
  intro v o s _ h
  obtain ⟨rfl, -⟩ := nonEmptyText_eq_ok h
  exact h

theorem blind_storedRefShape : Blind storedRefShape := ((blind_positive.field "ref").map _).object

theorem blind_attrValueShape : Blind attrValueShape := by
  intro v o a hv
  induction hv generalizing a with
  | @list items _ ih =>
    intro h
    unfold attrValueShape at h
    rw [Value.madeBy_list]
    unfold attrValueShape
    obtain ⟨as, has, rfl⟩ := map_eq_ok_iff.mp (List.mem_singleton.mp (oneOf_mem h)).symm
    have houtcomes := outcomes_madeBy attrValueOutcomes (fun i => by rw [attrValueOutcomes])
      (fun i v rest => by rw [attrValueOutcomes]) ih (gather_eq_ok_iff.mp has)
    rw [gather_eq_ok_iff.mpr houtcomes]
    rfl
  | @record origin fields ordered not_proto fields_writable _ =>
    intro h
    have hv : (Value.record origin fields).Writable := .record origin ordered not_proto fields_writable
    unfold attrValueShape at h
    have hread := oneOf_record_madeBy (fun a => blind_storedRefShape _ o a hv) h
    rw [Value.madeBy_record] at hread ⊢
    unfold attrValueShape
    exact hread
  | _ => exact fun h => h

theorem blind_lookupShape : Blind lookupShape :=
  (((blind_nonEmptyText.field "attr").both (blind_attrValueShape.field "value")).map _).object

/-- The length of a record is judged alike whoever has made it. -/
theorem lengthIssues_madeBy {origin : Origin} {fields : List (String × Value)}
    (hv : (Value.record origin fields).Writable) :
    lengthIssues ((Value.record origin fields).madeBy o) = lengthIssues (.record origin fields) := by
  have hfield := Value.field_madeBy hv o "length"
  have hlength := hv.field "length"
  rw [Value.madeBy_record] at hfield ⊢
  unfold lengthIssues Value.field?
  dsimp only
  rw [hfield]
  generalize (Value.record origin fields).field "length" = length at hlength ⊢
  have hnumber := Value.number?_madeBy hlength o
  cases length with
  | list items =>
    rw [Value.madeBy_list] at hnumber ⊢
    dsimp only
    rw [hnumber]
  | record origin fields =>
    rw [Value.madeBy_record] at hnumber ⊢
    dsimp only
    rw [hnumber]
  | _ => rfl

/-- A record is no text, so that it settles a choice only by its length. -/
theorem settles_nonEmptyText_record (origin : Origin) (fields : List (String × Value)) :
    settles (nonEmptyText (.record origin fields))
      = Issue.anyEnds (lengthIssues (.record origin fields)) := by
  simp [nonEmptyText, text, wrongKind, fail, settles, Issue.anyEnds]

theorem blind_entityRefShape : Blind entityRefShape := by
  intro v o a hv h
  cases hv with
  | list =>
    have hmem := oneOf_mem h
    simp [positive, whole, number, nonEmptyText, text, wrongKind, fail, lookupShape, object,
      Value.isObject, Except.map] at hmem
  | @record origin fields ordered not_proto fields_writable =>
    have hv : (Value.record origin fields).Writable := .record origin ordered not_proto fields_writable
    have hlookup : lookupShape (.record origin fields) = .ok a := by
      have hmem := oneOf_mem h
      simp only [List.mem_cons, List.not_mem_nil, or_false] at hmem
      rcases hmem with hmem | hmem | hmem
      · cases hmem
      · obtain ⟨s, hs, -⟩ := map_eq_ok_iff.mp hmem.symm
        cases (nonEmptyText_eq_ok hs).1
      · exact hmem.symm
    -- A length that cannot be compared would have ended the reading.
    have hlength : settles (nonEmptyText (.record origin fields)) = false := by
      refine Bool.eq_false_iff.mpr fun hsettles => ?_
      have hdecided : oneOf [(positive (.record origin fields)).map EntityRef.id,
          (nonEmptyText (.record origin fields)).map .tempId, lookupShape (.record origin fields)]
          = (nonEmptyText (.record origin fields)).map .tempId :=
        oneOf_of_settles [_] (fun r hr => by rw [List.mem_singleton.mp hr]; rfl)
          (by rw [settles_map, hsettles])
      obtain ⟨s, hs, -⟩ := map_eq_ok_iff.mp (hdecided.symm.trans h)
      cases (nonEmptyText_eq_ok hs).1
    have hlookup' := blind_lookupShape _ o a hv hlookup
    have hissues := lengthIssues_madeBy (o := o) hv
    rw [Value.madeBy_record] at hlookup' hissues ⊢
    unfold entityRefShape
    rw [hlookup']
    refine oneOf_of_read [_, _] fun r hr => ?_
    simp only [List.mem_cons, List.not_mem_nil, or_false] at hr
    rcases hr with rfl | rfl
    · rfl
    · rw [settles_map, settles_nonEmptyText_record, hissues, ← settles_nonEmptyText_record, hlength]
  | _ => exact h

theorem blind_opRefShape : Blind opRefShape := ((blind_entityRefShape.field "ref").map _).object

/-! ## 3. Values and ops -/

theorem blind_opValueShape : Blind opValueShape := by
  intro v o a hv
  induction hv generalizing a with
  | @list items _ ih =>
    intro h
    unfold opValueShape at h
    rw [Value.madeBy_list]
    unfold opValueShape
    obtain ⟨as, has, rfl⟩ := map_eq_ok_iff.mp (List.mem_singleton.mp (oneOf_mem h)).symm
    have houtcomes := outcomes_madeBy opValueOutcomes (fun i => by rw [opValueOutcomes])
      (fun i v rest => by rw [opValueOutcomes]) ih (gather_eq_ok_iff.mp has)
    rw [gather_eq_ok_iff.mpr houtcomes]
    rfl
  | @record origin fields ordered not_proto fields_writable _ =>
    intro h
    have hv : (Value.record origin fields).Writable := .record origin ordered not_proto fields_writable
    unfold opValueShape at h
    have hread := oneOf_record_madeBy (fun a => blind_opRefShape _ o a hv) h
    rw [Value.madeBy_record] at hread ⊢
    unfold opValueShape
    exact hread
  | _ => exact fun h => h

theorem blind_createShape : Blind createShape :=
  ((blind_nonEmptyText.optional.field "tempId").both (blind_opValueShape.entries.field "attrs")).map _

theorem blind_assertShape : Blind assertShape :=
  ((blind_entityRefShape.field "entity").both
    ((blind_nonEmptyText.field "attr").both (blind_opValueShape.field "value"))).map _

theorem blind_retractShape : Blind retractShape :=
  ((blind_entityRefShape.field "entity").both (blind_nonEmptyText.field "attr")).map _

/-- **An op is read alike** whoever has made its records: it has the same tag. -/
theorem blind_opShape : Blind opShape := by
  refine Blind.object fun v o op hv h => ?_
  have htag : ∀ s, v.field "op" = .str s → (v.madeBy o).field "op" = .str s := by
    intro s hs
    rw [Value.field_madeBy hv, hs]
    rfl
  split at h
  · next hop =>
    rw [htag _ hop]
    exact blind_createShape v o op hv h
  · next hop =>
    rw [htag _ hop]
    exact blind_assertShape v o op hv h
  · next hop =>
    rw [htag _ hop]
    exact blind_retractShape v o op hv h
  · exact nomatch h

/-! ## 4. Batches -/

theorem blind_opsShape : Blind opsShape := blind_opShape.list

/-- **A batch is read alike whoever has made its records.** -/
theorem Batch.ofValue_madeBy (hv : v.Writable) {ops : List TxOp} (h : opsShape v = .ok ops)
    (o : Origin) : Batch.ofValue (v.madeBy o) = Batch.ofValue v :=
  ofValue_of_opsShape_eq (blind_opsShape v o ops hv h) h

/-- **What a batch makes of a graph** does not depend on who has made the records in it. -/
theorem Graph.applyOps_madeBy (g : Graph) (hv : v.Writable) {ops : List TxOp} (h : opsShape v = .ok ops)
    (o : Origin) (provenance : Value) :
    g.applyOps (v.madeBy o) provenance = g.applyOps v provenance := by
  unfold Graph.applyOps
  rw [Batch.ofValue_madeBy hv h]

end ConfGraph
