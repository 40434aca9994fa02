import ConfGraph.Proofs.Decimal.Text
import ConfGraph.Proofs.Value.Fields
import ConfGraph.Value.Canonical
import Mathlib.Data.List.Forall2

/-!
# Values alike

Two values are alike when they differ in nothing but the order of fields, at any depth, and in the sign
of zeros.  Canonical text leaves out just these differences: fields are written in the order of their
names, whatever their order is in the value.

* `Value.Proper`: JSON values in which no record has a name twice.
* `Value.Alike`: equality up to the order of fields and the sign of zeros.
* `Value.sortByName_eq_of_perm`: sorted entries do not tell the order that they had.
* `Value.canonical_eq_of_alike`: values that are alike have the same canonical text.
-/

namespace ConfGraph.Value

/-! ## 1. Likeness -/

/-- A JSON value in which no record has a name twice. -/
inductive Proper : Value → Prop
  | null : Proper .null
  | bool (b : Bool) : Proper (.bool b)
  | num {x : Float} (finite : Number.isFinite x = true) : Proper (.num x)
  | str (s : String) : Proper (.str s)
  | list {items : List Value} (items_proper : ∀ v ∈ items, Proper v) : Proper (.list items)
  | record (origin : Origin) {fields : List (String × Value)}
    (nodup : (Fields.names fields).Nodup) (fields_proper : ∀ f ∈ fields, Proper f.2) :
    Proper (.record origin fields)

/-- Two values are equal up to the order of fields and the sign of zeros. -/
inductive Alike : Value → Value → Prop
  | null : Alike .null .null
  | bool (b : Bool) : Alike (.bool b) (.bool b)
  | num {x y : Float} (same : x = y ∨ Number.isZero x = true ∧ Number.isZero y = true) :
    Alike (.num x) (.num y)
  | str (s : String) : Alike (.str s) (.str s)
  | list {vs ws : List Value} (items_alike : List.Forall₂ Alike vs ws) :
    Alike (.list vs) (.list ws)
  | record {o o' : Origin} {fs gs : List (String × Value)}
    (fields_alike : ∀ name, Option.Rel Alike (Fields.get? fs name) (Fields.get? gs name)) :
    Alike (.record o fs) (.record o' gs)

theorem Alike.get? {o o' : Origin} {fs gs : List (String × Value)}
    (h : Alike (.record o fs) (.record o' gs)) (name : String) :
    Option.Rel Alike (Fields.get? fs name) (Fields.get? gs name) := by
  cases h with
  | record fields_alike => exact fields_alike name

/-! ## 2. Sorted entries -/

section

variable {α β : Type}

theorem sortByName_perm (entries : List (String × α)) : (sortByName entries).Perm entries :=
  List.mergeSort_perm _ _

theorem nameLe_trans (e f g : String × α) (h : nameLe e f = true) (h' : nameLe f g = true) :
    nameLe e g = true := Text.unitsLe_trans h h'

theorem nameLe_total (e f : String × α) : (nameLe e f || nameLe f e) = true :=
  Text.unitsLe_total e.1 f.1

theorem sortByName_pairwise (entries : List (String × α)) :
    (sortByName entries).Pairwise fun e f => nameLe e f = true :=
  List.pairwise_mergeSort nameLe_trans nameLe_total entries

/-- Sorting looks at names only. -/
theorem sortByName_map (k : α → β) (entries : List (String × α)) :
    sortByName (entries.map fun e => (e.1, k e.2))
      = (sortByName entries).map fun e => (e.1, k e.2) := by
  refine Eq.symm (List.map_mergeSort ?_)
  exact fun _ _ _ _ => rfl

/-- **Sorted entries do not tell the order that they had**, if no name stands twice. -/
theorem sortByName_eq_of_perm {xs ys : List (String × α)} (hnodup : (Fields.names xs).Nodup)
    (h : xs.Perm ys) : sortByName xs = sortByName ys := by
  have hperm : (sortByName xs).Perm (sortByName ys) :=
    (sortByName_perm xs).trans (h.trans (sortByName_perm ys).symm)
  refine hperm.eq_of_pairwise ?_ (sortByName_pairwise xs) (sortByName_pairwise ys)
  intro e f he hf hle hle'
  have hex := (sortByName_perm xs).subset he
  have hfx := h.symm.subset ((sortByName_perm ys).subset hf)
  exact List.inj_on_of_nodup_map hnodup hex hfx (Text.unitsLe_antisymm hle hle')

end

/-! ## 3. What is alike has the same text -/

theorem numberJson_eq_iff {x y : Float} (hx : Number.isFinite x = true)
    (hy : Number.isFinite y = true) :
    numberJson x = numberJson y ↔ x = y ∨ Number.isZero x = true ∧ Number.isZero y = true := by
  rw [numberJson, if_pos hx, numberJson, if_pos hy, Number.text_eq_iff hx hy]

theorem forall₂_imp_of_mem {α β : Type} {R S : α → β → Prop} {as : List α} {bs : List β}
    (h : List.Forall₂ R as bs) (himp : ∀ a ∈ as, ∀ b ∈ bs, R a b → S a b) :
    List.Forall₂ S as bs := by
  induction h with
  | nil => exact .nil
  | cons hfirst _ ih =>
    refine .cons (himp _ List.mem_cons_self _ List.mem_cons_self hfirst) (ih fun a ha b hb => ?_)
    exact himp a (List.mem_cons_of_mem _ ha) b (List.mem_cons_of_mem _ hb)

theorem map_eq_map_iff {α β γ : Type} {f : α → γ} {g : β → γ} {as : List α} {bs : List β} :
    as.map f = bs.map g ↔ List.Forall₂ (fun a b => f a = g b) as bs := by
  rw [← List.forall₂_eq_eq_eq, List.forall₂_map_left_iff, List.forall₂_map_right_iff]

theorem map_eq_of_rel {α β γ : Type} {R : α → β → Prop} {f : α → γ} {g : β → γ} {a : Option α}
    {b : Option β} (h : Option.Rel R a b)
    (heq : ∀ x, a = some x → ∀ y, b = some y → R x y → f x = g y) : a.map f = b.map g := by
  cases h with
  | none => rfl
  | some hxy => exact congrArg some (heq _ rfl _ rfl hxy)

/-- Fields that answer alike under every name have the same entries in canonical text. -/
theorem canonicalFields_perm {fs gs : List (String × Value)} (hfs : (Fields.names fs).Nodup)
    (hgs : (Fields.names gs).Nodup)
    (h : ∀ name, (Fields.get? fs name).map canonical = (Fields.get? gs name).map canonical) :
    (fs.map fun f => (f.1, f.2.canonical)).Perm (gs.map fun f => (f.1, f.2.canonical)) := by
  refine Fields.perm_of_get?_eq ?_ ?_ fun name => ?_
  · rwa [Fields.names_map]
  · rwa [Fields.names_map]
  · rw [Fields.get?_map, Fields.get?_map, h]

theorem canonical_list_eq {vs ws : List Value} (h : vs.map canonical = ws.map canonical) :
    (list vs).canonical = (list ws).canonical := by
  rw [canonical, canonical, canonicalItems_eq_map, canonicalItems_eq_map, h]

/-- **Fields that answer alike give the same canonical record.** -/
theorem canonical_record_eq {o o' : Origin} {fs gs : List (String × Value)}
    (hfs : (Fields.names fs).Nodup) (hgs : (Fields.names gs).Nodup)
    (h : ∀ name, (Fields.get? fs name).map canonical = (Fields.get? gs name).map canonical) :
    (record o fs).canonical = (record o' gs).canonical := by
  have hperm := canonicalFields_perm hfs hgs h
  rw [canonical, canonical, canonicalFields_eq_map, canonicalFields_eq_map,
    sortByName_eq_of_perm (by rwa [Fields.names_map]) hperm]

/-- **Values that are alike have the same canonical text.** -/
theorem canonical_eq_of_alike {v w : Value} (hv : v.Proper) (hw : w.Proper) (h : Alike v w) :
    v.canonical = w.canonical := by
  induction hv generalizing w with
  | null => cases h; rfl
  | bool b => cases h; rfl
  | num finite =>
    cases h with
    | num same =>
      cases hw with
      | num finite' => exact (numberJson_eq_iff finite finite').mpr same
  | str s => cases h; rfl
  | list items_proper ih =>
    cases h with
    | list items_alike =>
      cases hw with
      | list items_proper' =>
        have hitems := forall₂_imp_of_mem items_alike fun v hv w hw halike =>
          ih v hv (items_proper' w hw) halike
        exact canonical_list_eq (map_eq_map_iff.mpr hitems)
  | record origin nodup fields_proper ih =>
    cases h with
    | record fields_alike =>
      cases hw with
      | record _ nodup' fields_proper' =>
        have hget := fun name => map_eq_of_rel (fields_alike name) fun v hv w hw halike =>
          ih (name, v) (Fields.mem_of_get? hv) (fields_proper' (name, w) (Fields.mem_of_get? hw))
            halike
        exact canonical_record_eq nodup nodup' hget

end ConfGraph.Value
