import ConfGraph.Proofs.Shape.Reading
import ConfGraph.Proofs.Value.Fields

/-!
# Readings that go on to their report

A reading lists what is wrong with a value.  One cause is unlike the others: a length that cannot be
compared with a number ends the whole reading, and none of its issues is reported.  It comes up at one
place only, where the length of something is judged that should be a text; so a reading goes on to its
report if every length in the value, at any depth, has a number.

* `Shape.GoesOn`: the thing is read, or refused with issues none of which ends the reading.
* `GoesOn.under`, `GoesOn.both`, `goesOn_gather`, `goesOn_oneOf`: kept by every way of making shapes.
* `Value.Measurable`: every length in a value has a number.
* `goesOn_nonEmptyText`: the one place at which it matters.
-/

namespace ConfGraph

/-! ## 1. Issues -/

namespace Issue

@[simp] theorem anyEnds_append (is js : List Issue) :
    anyEnds (is ++ js) = (anyEnds is || anyEnds js) := by
  simp [anyEnds]

@[simp] theorem anyEnds_under (name : String) (is : List Issue) :
    anyEnds (is.map (under name)) = anyEnds is := by
  simp [anyEnds, under, Function.comp_def]

end Issue

/-! ## 2. Lengths -/

mutual

/-- Every length that a value gives, itself or at any depth, has a number. -/
def Value.Measurable : Value → Prop
  | .list items => AllMeasurable items
  | .record _ fields => FieldsMeasurable fields
  | .heir .. => False
  | .undefined | .null | .bool _ | .num _ | .str _ | .hole => True
  | .function _ | .constant .. | .opaqueObject .. | .endless => True

/-- Every item does so. -/
def AllMeasurable : List Value → Prop
  | [] => True
  | v :: rest => v.Measurable ∧ AllMeasurable rest

/-- Every field does so, and has a number itself if it is a length. -/
def FieldsMeasurable : List (String × Value) → Prop
  | [] => True
  | (name, v) :: rest =>
    (name = "length" → v.number?.isSome = true) ∧ v.Measurable ∧ FieldsMeasurable rest

end

theorem AllMeasurable.of_mem {items : List Value} (h : AllMeasurable items) {v : Value}
    (hv : v ∈ items) : v.Measurable := by
  induction items with
  | nil => cases hv
  | cons w rest ih =>
    rcases List.mem_cons.mp hv with rfl | hv
    · exact h.1
    · exact ih h.2 hv

theorem FieldsMeasurable.of_mem {fields : List (String × Value)} (h : FieldsMeasurable fields)
    {f : String × Value} (hf : f ∈ fields) :
    (f.1 = "length" → f.2.number?.isSome = true) ∧ f.2.Measurable := by
  induction fields with
  | nil => cases hf
  | cons g rest ih =>
    obtain ⟨hlength, hfirst, hrest⟩ := h
    rcases List.mem_cons.mp hf with rfl | hf
    · exact ⟨hlength, hfirst⟩
    · exact ih hrest hf

/-- What a function answers is a text or a number. -/
theorem measurable_of_face {face : Face} {name : String} {w : Value}
    (hw : (if name = "name" then some (.str face.name)
      else if name = "length" then some (.nat face.arity) else none) = some w) :
    (name = "length" → w.number?.isSome = true) ∧ w.Measurable := by
  split at hw
  · obtain rfl := Option.some.inj hw
    exact ⟨fun _ => rfl, trivial⟩
  · split at hw
    · obtain rfl := Option.some.inj hw
      exact ⟨fun _ => rfl, trivial⟩
    · cases hw

/-- What a value answers is measurable with it, and has a number if it is a length. -/
theorem Value.Measurable.member {v w : Value} (h : v.Measurable) {name : String}
    (hw : v.member? name = some w) : (name = "length" → w.number?.isSome = true) ∧ w.Measurable := by
  cases v with
  | record origin fields => exact h.of_mem (Fields.mem_of_get? hw)
  | heir fields parent => exact absurd h id
  | list items =>
    simp only [member?] at hw
    split at hw
    · obtain rfl := Option.some.inj hw
      exact ⟨fun _ => rfl, trivial⟩
    · cases hw
  | function face => exact measurable_of_face hw
  | constant face result => exact measurable_of_face hw
  | _ => cases hw

theorem Value.Measurable.field {v : Value} (h : v.Measurable) (name : String) :
    (v.field name).Measurable := by
  unfold Value.field
  cases hw : v.member? name with
  | none => trivial
  | some w => exact (h.member hw).2

theorem Value.Measurable.of_mem_fields {v : Value} (h : v.Measurable) {f : String × Value}
    (hf : f ∈ v.fields?.getD []) : f.2.Measurable := by
  cases v with
  | record origin fields => exact (h.of_mem hf).2
  | heir fields parent => exact absurd h id
  | _ => exact absurd hf List.not_mem_nil

namespace Shape

variable {α β : Type}

/-! ## 3. Readings that go on -/

/-- The thing is read, or refused with issues none of which ends the whole reading. -/
def GoesOn (r : Checked α) : Prop := ∀ issues, r = .error issues → Issue.anyEnds issues = false

theorem goesOn_ok (a : α) : GoesOn (.ok a : Checked α) := fun _ h => nomatch h

theorem goesOn_error {issues : List Issue} (h : Issue.anyEnds issues = false) :
    GoesOn (.error issues : Checked α) := by
  intro _ hissues
  obtain rfl := Except.error.inj hissues
  exact h

theorem goesOn_wrongKind (expected : String) (v : Value) :
    GoesOn (wrongKind expected v : Checked α) := goesOn_error rfl

theorem GoesOn.map {r : Checked α} (h : GoesOn r) (f : α → β) : GoesOn (r.map f) := by
  cases r with
  | ok a => exact goesOn_ok (f a)
  | error is => exact goesOn_error (h is rfl)

theorem GoesOn.under {r : Checked α} (h : GoesOn r) (name : String) : GoesOn (under name r) := by
  cases r with
  | ok a => exact goesOn_ok a
  | error is => exact goesOn_error (by rw [Issue.anyEnds_under, h is rfl])

theorem GoesOn.both {r : Checked α} {s : Checked β} (hr : GoesOn r) (hs : GoesOn s) :
    GoesOn (both r s) := by
  cases r with
  | ok a =>
    cases s with
    | ok b => exact goesOn_ok (a, b)
    | error js => exact goesOn_error (hs js rfl)
  | error is =>
    cases s with
    | ok b => exact goesOn_error (hr is rfl)
    | error js => exact goesOn_error (by rw [Issue.anyEnds_append, hr is rfl, hs js rfl]; rfl)

/-- **Parts side by side go on** if each of them does. -/
theorem goesOn_gather {rs : List (Checked α)} (h : ∀ r ∈ rs, GoesOn r) : GoesOn (gather rs) := by
  induction rs with
  | nil => exact goesOn_ok []
  | cons r rest ih =>
    obtain ⟨hr, hrest⟩ := List.forall_mem_cons.mp h
    have hboth := hr.both (ih hrest)
    rw [gather]
    generalize Shape.both r (gather rest) = both at hboth
    cases both with
    | ok p => exact goesOn_ok (p.1 :: p.2)
    | error is => exact goesOn_error (hboth is rfl)

/-- **A choice goes on** if each alternative does. -/
theorem goesOn_oneOf {rs : List (Checked α)} (h : ∀ r ∈ rs, GoesOn r) : GoesOn (oneOf rs) := by
  unfold oneOf
  split
  · next r hr => exact h r (List.mem_of_find?_eq_some hr)
  · split
    · next r hr =>
      have hmem : r ∈ rs.filter survives := by
        rw [hr]
        exact List.mem_singleton_self r
      exact h r (List.mem_filter.mp hmem).1
    · exact goesOn_error rfl

theorem goesOn_object {s : Shape α} {v : Value} (h : GoesOn (s v)) : GoesOn (object s v) := by
  unfold object
  split
  · exact h
  · exact goesOn_wrongKind _ v

theorem goesOn_optional {s : Shape α} {v : Value} (h : GoesOn (s v)) : GoesOn (optional s v) := by
  unfold optional
  split
  · exact goesOn_ok none
  · exact h.map some

theorem goesOn_entries {s : Shape α} {v : Value}
    (h : ∀ f ∈ v.fields?.getD [], GoesOn (s f.2)) : GoesOn (entries s v) := by
  unfold entries
  split
  · refine goesOn_gather ?_
    generalize v.fields?.getD [] = fields at h
    induction fields with
    | nil => exact fun _ hr => absurd hr List.not_mem_nil
    | cons f rest ih =>
      obtain ⟨name, w⟩ := f
      obtain ⟨hfirst, hrest⟩ := List.forall_mem_cons.mp h
      unfold entryOutcomes
      split
      · exact ih hrest
      · split
        · exact List.forall_mem_cons.mpr ⟨goesOn_error rfl, ih hrest⟩
        · exact List.forall_mem_cons.mpr ⟨(hfirst.under name).map _, ih hrest⟩
  · exact goesOn_wrongKind _ v

theorem goesOn_list {s : Shape α} {v : Value}
    (h : ∀ items, v = .list items → ∀ w ∈ items, GoesOn (s w)) : GoesOn (list s v) := by
  unfold list
  split
  · next items =>
    refine goesOn_gather ?_
    have hitems := h items rfl
    clear h
    generalize 0 = i
    induction items generalizing i with
    | nil => exact fun _ hr => absurd hr List.not_mem_nil
    | cons w rest ih =>
      obtain ⟨hfirst, hrest⟩ := List.forall_mem_cons.mp hitems
      exact List.forall_mem_cons.mpr ⟨hfirst.under _, ih hrest (i + 1)⟩
  · exact goesOn_wrongKind _ v

/-! ## 4. Scalars -/

theorem goesOn_text (v : Value) : GoesOn (text v) := by
  unfold text
  split
  · exact goesOn_ok _
  · exact goesOn_wrongKind _ _

theorem goesOn_boolean (v : Value) : GoesOn (boolean v) := by
  unfold boolean
  split
  · exact goesOn_ok _
  · exact goesOn_wrongKind _ _

theorem goesOn_null (v : Value) : GoesOn (null v) := by
  unfold null
  split
  · exact goesOn_ok _
  · exact goesOn_wrongKind _ _

theorem goesOn_number (v : Value) : GoesOn (number v) := by
  unfold number
  split
  · split
    · exact goesOn_ok _
    · exact goesOn_error rfl
  · exact goesOn_wrongKind _ _

theorem goesOn_whole (v : Value) : GoesOn (whole v) := by
  have hnumber := goesOn_number v
  unfold whole
  split
  · next is h => exact goesOn_error (hnumber is h)
  · split
    · exact goesOn_error rfl
    · exact goesOn_ok _

theorem goesOn_positive (v : Value) : GoesOn (positive v) := by
  have hwhole := goesOn_whole v
  unfold positive
  split
  · next is h => exact goesOn_error (hwhole is h)
  · next i _ =>
    have hissues : Issue.anyEnds (exactIssues i ++ positiveIssues i) = false := by
      unfold exactIssues positiveIssues
      split
      · split
        · rfl
        · rfl
      · split
        · split
          · rfl
          · rfl
        · split
          · rfl
          · rfl
    split
    · exact goesOn_ok _
    · exact goesOn_error hissues

/-- **The length of what should be a text is judged**, and can be. -/
theorem anyEnds_lengthIssues {v : Value} (h : v.Measurable) :
    Issue.anyEnds (lengthIssues v) = false := by
  unfold lengthIssues
  split
  · split
    · rfl
    · rfl
  · split
    · rfl
    · rfl
  · split
    · rfl
    · next length hlength =>
      obtain ⟨w, hw, rfl⟩ : ∃ w, v.member? "length" = some w ∧ w = length := by
        unfold Value.field? Value.field at hlength
        cases hw : v.member? "length" with
        | none =>
          rw [hw] at hlength
          cases hlength
        | some w =>
          rw [hw, Option.getD_some] at hlength
          split at hlength
          · cases hlength
          · exact ⟨w, rfl, Option.some.inj hlength⟩
      obtain ⟨x, hx⟩ := Option.isSome_iff_exists.mp ((h.member hw).1 rfl)
      rw [hx]
      simp only
      split
      · rfl
      · rfl

theorem goesOn_nonEmptyText {v : Value} (h : v.Measurable) : GoesOn (nonEmptyText v) := by
  have hlength := anyEnds_lengthIssues h
  have htext := goesOn_text v
  unfold nonEmptyText
  split
  · exact goesOn_ok _
  · exact goesOn_error hlength
  · next is hissues =>
    exact goesOn_error (by rw [Issue.anyEnds_append, htext is hissues, hlength]; rfl)

end Shape

end ConfGraph
