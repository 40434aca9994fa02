import ConfGraph.Proofs.Value.Fields
import ConfGraph.Value.Basic

/-!
# Who has made the records of a value

A value that goes into a script and out again is the same but for its records, which the script has made.
That shows in messages only: under every name such a record holds what it held, and it has the same text
and stands for the same number.

* `Value.Writable`: values that a script can write down.
* `Value.madeBy`: a value whose records one side has made.
* `Value.member?_madeBy`, `Value.text?_madeBy`, `Value.number?_madeBy`: what does not depend on it.
-/

namespace ConfGraph.Value

/-! ## 1. Values that scripts write -/

/-- **Values that a script can write down.**  Records have their fields in property order, each name
once; under `__proto__` a script writes no field but the parent of a record. -/
inductive Writable : Value → Prop
  | undefined : Writable .undefined
  | null : Writable .null
  | bool (b : Bool) : Writable (.bool b)
  | num (x : Float) : Writable (.num x)
  | str (s : String) : Writable (.str s)
  | list {items : List Value} (items_writable : ∀ v ∈ items, Writable v) : Writable (.list items)
  | record (origin : Origin) {fields : List (String × Value)} (ordered : Fields.ofList fields = fields)
    (not_proto : "__proto__" ∉ Fields.names fields) (fields_writable : ∀ f ∈ fields, Writable f.2) :
    Writable (.record origin fields)

mutual

/-- A value whose records, at any depth, are made by one side. -/
def madeBy (o : Origin) : Value → Value
  | .list items => .list (allMadeBy o items)
  | .record _ fields => .record o (fieldsMadeBy o fields)
  | v => v

/-- Several such values. -/
def allMadeBy (o : Origin) : List Value → List Value
  | [] => []
  | v :: rest => v.madeBy o :: allMadeBy o rest

/-- Fields that hold such values. -/
def fieldsMadeBy (o : Origin) : List (String × Value) → List (String × Value)
  | [] => []
  | (name, v) :: rest => (name, v.madeBy o) :: fieldsMadeBy o rest

end

theorem allMadeBy_eq_map (o : Origin) (items : List Value) :
    allMadeBy o items = items.map (madeBy o) := by
  induction items with
  | nil => rfl
  | cons v rest ih => rw [allMadeBy, ih, List.map_cons]

theorem fieldsMadeBy_eq_map (o : Origin) (fields : List (String × Value)) :
    fieldsMadeBy o fields = fields.map fun f => (f.1, f.2.madeBy o) := by
  induction fields with
  | nil => rfl
  | cons f rest ih => rw [fieldsMadeBy, ih, List.map_cons]

@[simp] theorem madeBy_list (o : Origin) (items : List Value) :
    (list items).madeBy o = .list (items.map (madeBy o)) := by
  rw [madeBy, allMadeBy_eq_map]

@[simp] theorem madeBy_record (o origin : Origin) (fields : List (String × Value)) :
    (record origin fields).madeBy o = .record o (fields.map fun f => (f.1, f.2.madeBy o)) := by
  rw [madeBy, fieldsMadeBy_eq_map]

/-! ## 2. What does not depend on it -/

variable {v w : Value}

theorem isObject_madeBy (o : Origin) (v : Value) : (v.madeBy o).isObject = v.isObject := by
  cases v with
  | list items => rw [madeBy_list]; rfl
  | record origin fields => rw [madeBy_record]; rfl
  | _ => rfl

/-- **A value answers with the same**, made by the same side. -/
theorem member?_madeBy (hv : v.Writable) (o : Origin) (name : String) :
    (v.madeBy o).member? name = (v.member? name).map (madeBy o) := by
  cases hv with
  | list =>
    rw [madeBy_list]
    simp only [member?, List.length_map]
    split <;> rfl
  | record origin =>
    rw [madeBy_record]
    exact Fields.get?_map (madeBy o) _ name
  | _ => rfl

theorem field_madeBy (hv : v.Writable) (o : Origin) (name : String) :
    (v.madeBy o).field name = (v.field name).madeBy o := by
  unfold field
  rw [member?_madeBy hv]
  cases v.member? name <;> rfl

/-- What a value answers with can be written down as well. -/
theorem Writable.member (hv : v.Writable) {name : String} (h : v.member? name = some w) :
    w.Writable := by
  cases hv with
  | list =>
    simp only [member?] at h
    split at h
    · obtain rfl := Option.some.inj h
      exact .num _
    · exact nomatch h
  | record origin _ _ fields_writable => exact fields_writable _ (Fields.mem_of_get? h)
  | _ => exact nomatch h

theorem Writable.field (hv : v.Writable) (name : String) : (v.field name).Writable := by
  unfold Value.field
  cases h : v.member? name with
  | none => exact .undefined
  | some w => exact hv.member h

/-- No such value can be called. -/
theorem Writable.reply? (hv : v.Writable) : v.reply? = none := by
  cases hv <;> rfl

theorem Writable.madeBy (hv : v.Writable) (o : Origin) : (v.madeBy o).Writable := by
  induction hv with
  | list _ ih =>
    rw [madeBy_list]
    refine .list fun w hw => ?_
    obtain ⟨v, hv, rfl⟩ := List.mem_map.mp hw
    exact ih v hv
  | @record origin fields ordered not_proto _ ih =>
    rw [madeBy_record]
    refine .record o ?_ ?_ fun f hf => ?_
    · rw [Fields.ofList_map, ordered]
    · rwa [Fields.names_map]
    · obtain ⟨g, hg, rfl⟩ := List.mem_map.mp hf
      exact ih g hg
  | undefined => exact .undefined
  | null => exact .null
  | bool b => exact .bool b
  | num x => exact .num x
  | str s => exact .str s

/-- A value that can be written down says nothing of itself but whether it has a field for that. -/
theorem spoken?_of_writable (hv : v.Writable) (first second : String) :
    v.spoken? first second = (v.member? first).map fun _ => none := by
  unfold spoken?
  cases hfirst : v.member? first with
  | none => rfl
  | some f =>
    have hsecond : (v.member? second).bind reply? = none := by
      cases hsecond : v.member? second with
      | none => rfl
      | some g => exact (hv.member hsecond).reply?
    simp [(hv.member hfirst).reply?, hsecond]

theorem itemTexts?_madeBy (o : Origin) : ∀ items : List Value,
    (∀ v ∈ items, (v.madeBy o).text? = v.text?) → itemTexts? (items.map (Value.madeBy o)) = itemTexts? items
  | [], _ => rfl
  | v :: rest, hitems => by
    have hfirst := hitems v List.mem_cons_self
    have hrest := itemTexts?_madeBy o rest fun w hw => hitems w (List.mem_cons_of_mem _ hw)
    cases v with
    | list items =>
      rw [madeBy_list] at hfirst
      simp only [List.map_cons, madeBy_list, itemTexts?, hfirst, hrest]
    | record origin fields =>
      rw [madeBy_record] at hfirst
      simp only [List.map_cons, madeBy_record, itemTexts?, hfirst, hrest]
    | _ => simp only [List.map_cons, madeBy, itemTexts?, hrest]

/-- **A value has the same text.** -/
theorem text?_madeBy (hv : v.Writable) (o : Origin) : (v.madeBy o).text? = v.text? := by
  induction hv with
  | list _ ih =>
    rw [madeBy_list, text?, text?, itemTexts?_madeBy o _ ih]
  | @record origin fields ordered not_proto fields_writable _ =>
    have hv : (Value.record origin fields).Writable := .record origin ordered not_proto fields_writable
    have hsaid := spoken?_of_writable (hv.madeBy o) "toString" "valueOf"
    rw [member?_madeBy hv, madeBy_record] at hsaid
    rw [madeBy_record, text?, text?, hsaid, spoken?_of_writable hv, Option.map_map]
    rfl
  | _ => rfl

/-- **A value stands for the same number.** -/
theorem number?_madeBy (hv : v.Writable) (o : Origin) : (v.madeBy o).number? = v.number? := by
  have hparts : ∀ w : Value, w.Writable → w.isPrimitive = false → w.primitive? = w.text?.map .str := by
    intro w hw hprimitive
    have hsaid : (w.member? "valueOf").bind reply? = none := by
      cases hsaid : w.member? "valueOf" with
      | none => rfl
      | some f => exact (hw.member hsaid).reply?
    rw [primitive?, if_neg (by rw [hprimitive]; exact Bool.false_ne_true), hsaid]
  have hmade : ∀ w : Value, w.Writable → w.isPrimitive = false → (w.madeBy o).isPrimitive = false →
      (w.madeBy o).number? = w.number? := by
    intro w hw hprimitive hprimitive'
    rw [number?, number?, hparts w hw hprimitive, hparts _ (hw.madeBy o) hprimitive', text?_madeBy hw]
  cases hv with
  | list items_writable =>
    exact hmade _ (.list items_writable) rfl (by rw [madeBy_list]; rfl)
  | record origin ordered not_proto fields_writable =>
    exact hmade _ (.record origin ordered not_proto fields_writable) rfl (by rw [madeBy_record]; rfl)
  | _ => rfl

end ConfGraph.Value
