import ConfGraph.Proofs.Decimal.Whole
import ConfGraph.Shape.Basic
import Mathlib.Data.List.Forall2

/-!
# What a successful reading says

A shape that reads a value has found the value to be of its kind.  Each lemma turns one way of
building shapes around: from the fact that the whole was read to the facts that its parts were.

* `oneOf_mem`: a choice reads what one of its alternatives reads.
* `both_eq_ok_iff`, `gather_eq_ok_iff`: parts side by side are all read.
* `list_mem`, `entries_mem`: every item of a list and every entry of a record is read.
* `oneOf_of_settles`: the first alternative that reads a value, or ends the reading, decides the choice.
-/

namespace ConfGraph.Shape

variable {α β : Type}

/-! ## 1. Outcomes -/

theorem map_eq_ok_iff {ε : Type} {r : Except ε α} {f : α → β} {b : β} :
    r.map f = .ok b ↔ ∃ a, r = .ok a ∧ f a = b := by
  cases r with
  | error e => simp [Except.map]
  | ok a => simp [Except.map]

theorem map_eq_error_iff {ε : Type} {r : Except ε α} {f : α → β} {e : ε} :
    r.map f = .error e ↔ r = .error e := by
  cases r with
  | error e' => simp [Except.map]
  | ok a => simp [Except.map]

@[simp] theorem fail_ne_ok {cause : Cause} {a : α} : (fail cause : Checked α) ≠ .ok a := nofun

@[simp] theorem wrongKind_ne_ok {expected : String} {v : Value} {a : α} :
    (wrongKind expected v : Checked α) ≠ .ok a := nofun

@[simp] theorem under_eq_ok_iff {name : String} {r : Checked α} {a : α} :
    under name r = .ok a ↔ r = .ok a := by
  cases r with
  | error is => simp [under]
  | ok b => simp [under]

theorem both_eq_ok_iff {r : Checked α} {s : Checked β} {p : α × β} :
    both r s = .ok p ↔ r = .ok p.1 ∧ s = .ok p.2 := by
  obtain ⟨a, b⟩ := p
  cases r <;> cases s <;> simp [both]

/-- **Parts side by side are read together or not at all.** -/
theorem gather_eq_ok_iff {rs : List (Checked α)} {as : List α} :
    gather rs = .ok as ↔ rs = as.map .ok := by
  induction rs generalizing as with
  | nil => cases as <;> simp [gather]
  | cons r rest ih =>
    unfold gather
    constructor
    · intro h
      split at h
      · next a as' hb =>
        obtain ⟨hr, hrest⟩ := both_eq_ok_iff.mp hb
        obtain rfl := Except.ok.inj h
        rw [List.map_cons, ← ih.mp hrest]
        exact congrArg (· :: rest) hr
      · exact nomatch h
    · intro h
      cases as with
      | nil => simp at h
      | cons a as =>
        obtain ⟨rfl, hrest⟩ := List.cons.inj h
        simp [both, ih.mpr hrest]

/-- **A choice reads what one of its alternatives reads.** -/
theorem oneOf_mem {rs : List (Checked α)} {a : α} (h : oneOf rs = .ok a) : .ok a ∈ rs := by
  unfold oneOf at h
  split at h
  · next r hr => exact h ▸ List.mem_of_find?_eq_some hr
  · split at h
    · next r hr =>
      have hmem : r ∈ rs.filter survives := by
        rw [hr]
        exact List.mem_singleton_self r
      exact h ▸ (List.mem_filter.mp hmem).1
    · exact absurd h fail_ne_ok

/-! ## 2. Scalars -/

theorem text_eq_ok_iff {v : Value} {s : String} : text v = .ok s ↔ v = .str s := by
  unfold text
  split
  · simp
  · next hv => exact ⟨fun h => absurd h wrongKind_ne_ok, fun h => absurd h (hv s)⟩

theorem nonEmptyText_eq_ok {v : Value} {s : String} (h : nonEmptyText v = .ok s) :
    v = .str s ∧ s ≠ "" := by
  unfold nonEmptyText at h
  split at h
  · next t ht hi =>
    obtain rfl := Except.ok.inj h
    obtain rfl := text_eq_ok_iff.mp ht
    refine ⟨rfl, ?_⟩
    rintro rfl
    simp [lengthIssues] at hi
  · exact nomatch h
  · exact nomatch h

theorem nonEmptyText_str {s : String} (h : s ≠ "") : nonEmptyText (.str s) = .ok s := by
  simp [nonEmptyText, text, lengthIssues, h]

theorem number_eq_ok_iff {v : Value} {x : Float} :
    number v = .ok x ↔ v = .num x ∧ Number.isFinite x = true := by
  unfold number
  split
  · next y =>
    split
    · next hy =>
      constructor
      · intro h
        obtain rfl := Except.ok.inj h
        exact ⟨rfl, hy⟩
      · rintro ⟨h, -⟩
        rw [Value.num.inj h]
    · next hy =>
      refine ⟨fun h => absurd h fail_ne_ok, ?_⟩
      rintro ⟨h, hx⟩
      exact absurd (Value.num.inj h ▸ hx) hy
  · next hv => exact ⟨fun h => absurd h wrongKind_ne_ok, fun h => absurd h.1 (hv x)⟩

/-- The whole numbers that ids are read from: above zero, and told apart by doubles. -/
theorem positive_eq_ok {v : Value} {n : Nat} (h : positive v = .ok n) :
    0 < n ∧ n ≤ Cause.exactBound := by
  unfold positive at h
  split at h
  · exact nomatch h
  · next i _ =>
    split at h
    · next hnone =>
      obtain rfl := Except.ok.inj h
      obtain ⟨hexact, hpos⟩ := List.append_eq_nil_iff.mp hnone
      have hlow : 0 < i := by
        by_cases hi : 0 < i
        · exact hi
        · simp [positiveIssues, hi] at hpos
      have hhigh : ¬ (Cause.exactBound : Int) < i := by
        intro hi
        simp [exactIssues, hi] at hexact
      omega
    · exact nomatch h

theorem lt_smallBound {n : Nat} (h : n ≤ Cause.exactBound) : n < Number.smallBound :=
  Nat.lt_of_le_of_lt h (by decide)

theorem positive_nat {n : Nat} (hpos : 0 < n) (hn : n ≤ Cause.exactBound) :
    positive (.nat n) = .ok n := by
  have hsmall := lt_smallBound hn
  have hint := Number.toInt?_ofNat hsmall
  have hfinite := Number.isFinite_ofNat hsmall
  have hwhole : whole (.nat n) = .ok (n : Int) := by
    simp [whole, Value.nat, number, hfinite, hint]
  have hexact : exactIssues (n : Int) = [] := by
    rw [exactIssues, if_neg (by omega), if_neg (by omega)]
  have hpositive : positiveIssues (n : Int) = [] := if_pos (by omega)
  simp [positive, hwhole, hexact, hpositive]

theorem optional_eq_ok {s : Shape α} {v : Value} {a : Option α} (h : optional s v = .ok a) :
    a = none ∨ ∃ b, a = some b ∧ s v = .ok b := by
  unfold optional at h
  split at h
  · exact .inl (Except.ok.inj h).symm
  · obtain ⟨b, hb, rfl⟩ := map_eq_ok_iff.mp h
    exact .inr ⟨b, rfl, hb⟩

/-! ## 3. Lists and records -/

theorem field_eq_ok_iff {name : String} {s : Shape α} {v : Value} {a : α} :
    field name s v = .ok a ↔ s (v.field name) = .ok a := under_eq_ok_iff

theorem object_eq_ok_iff {s : Shape α} {v : Value} {a : α} :
    object s v = .ok a ↔ v.isObject = true ∧ s v = .ok a := by
  unfold object
  split
  · next h => simp [h]
  · next h => simp [h]

theorem itemOutcomes_mem {s : Shape α} {i : Nat} {items : List Value} {a : α}
    (h : .ok a ∈ itemOutcomes s i items) : ∃ v ∈ items, s v = .ok a := by
  induction items generalizing i with
  | nil => simp [itemOutcomes] at h
  | cons v rest ih =>
    rcases List.mem_cons.mp h with h | h
    · exact ⟨v, List.mem_cons_self, under_eq_ok_iff.mp h.symm⟩
    · obtain ⟨w, hw, hs⟩ := ih h
      exact ⟨w, List.mem_cons_of_mem v hw, hs⟩

/-- **Every item of a list that is read is read.** -/
theorem list_mem {s : Shape α} {v : Value} {as : List α} (h : list s v = .ok as) {a : α}
    (ha : a ∈ as) : ∃ w, s w = .ok a := by
  unfold list at h
  split at h
  · next items =>
    have hmem : .ok a ∈ itemOutcomes s 0 items := by
      rw [gather_eq_ok_iff.mp h]
      exact List.mem_map_of_mem ha
    obtain ⟨w, -, hw⟩ := itemOutcomes_mem hmem
    exact ⟨w, hw⟩
  · exact absurd h wrongKind_ne_ok

theorem itemOutcomes_eq_map_ok_iff {s : Shape α} {i : Nat} {items : List Value} {as : List α} :
    itemOutcomes s i items = as.map .ok ↔ List.Forall₂ (fun v a => s v = .ok a) items as := by
  induction items generalizing i as with
  | nil => cases as <;> simp [itemOutcomes]
  | cons v rest ih =>
    cases as with
    | nil => simp [itemOutcomes]
    | cons a as =>
      rw [itemOutcomes, List.map_cons, List.cons.injEq, ih, under_eq_ok_iff, List.forall₂_cons]

/-- **A list is read item by item.** -/
theorem list_eq_ok_iff {s : Shape α} {items : List Value} {as : List α} :
    list s (.list items) = .ok as ↔ List.Forall₂ (fun v a => s v = .ok a) items as :=
  gather_eq_ok_iff.trans itemOutcomes_eq_map_ok_iff

/-- What is read as a list is one. -/
theorem exists_items_of_list {s : Shape α} {v : Value} {as : List α} (h : list s v = .ok as) :
    ∃ items, v = .list items ∧ List.Forall₂ (fun w a => s w = .ok a) items as := by
  cases v with
  | list items => exact ⟨items, rfl, list_eq_ok_iff.mp h⟩
  | _ => exact absurd h wrongKind_ne_ok

theorem entryOutcomes_mem {s : Shape α} {fields : List (String × Value)} {f : String × α}
    (h : .ok f ∈ entryOutcomes s fields) :
    f.1 ≠ "__proto__" ∧ f.1 ≠ "" ∧ ∃ v, (f.1, v) ∈ fields ∧ s v = .ok f.2 := by
  induction fields with
  | nil => simp [entryOutcomes] at h
  | cons g rest ih =>
    obtain ⟨name, v⟩ := g
    have later : .ok f ∈ entryOutcomes s rest → f.1 ≠ "__proto__" ∧ f.1 ≠ "" ∧
        ∃ w, (f.1, w) ∈ (name, v) :: rest ∧ s w = .ok f.2 := by
      intro hrest
      obtain ⟨hp, he, w, hw, hs⟩ := ih hrest
      exact ⟨hp, he, w, List.mem_cons_of_mem _ hw, hs⟩
    unfold entryOutcomes at h
    split at h
    · exact later h
    · next hproto =>
      split at h
      · exact later ((List.mem_cons.mp h).resolve_left nofun)
      · next hempty =>
        rcases List.mem_cons.mp h with h | h
        · obtain ⟨a, ha, rfl⟩ := map_eq_ok_iff.mp h.symm
          exact ⟨hproto, hempty, v, List.mem_cons_self, under_eq_ok_iff.mp ha⟩
        · exact later h

/-- A record with free names is read field by field, all but `__proto__`. -/
theorem entryOutcomes_eq_map_ok {s : Shape α} {fields : List (String × Value)} {as : Fields α}
    (h : entryOutcomes s fields = as.map .ok) :
    List.Forall₂ (fun f a => a.1 = f.1 ∧ s f.2 = .ok a.2) (Fields.erase fields "__proto__") as := by
  induction fields generalizing as with
  | nil =>
    obtain rfl : as = [] := by simpa [entryOutcomes, eq_comm] using h
    exact .nil
  | cons f rest ih =>
    unfold entryOutcomes at h
    split at h
    · next hproto =>
      have hdropped : Fields.erase (f :: rest) "__proto__" = Fields.erase rest "__proto__" :=
        List.filter_cons_of_neg (by simpa using hproto)
      rw [hdropped]
      exact ih h
    · next hproto =>
      have hkept : Fields.erase (f :: rest) "__proto__" = f :: Fields.erase rest "__proto__" :=
        List.filter_cons_of_pos (bne_iff_ne.mpr hproto)
      rw [hkept]
      split at h
      · cases as with
        | nil => cases h
        | cons a as => cases (List.cons.inj h).1
      · cases as with
        | nil => cases h
        | cons a as =>
          obtain ⟨hfirst, hrest⟩ := List.cons.inj h
          obtain ⟨b, hb, rfl⟩ := map_eq_ok_iff.mp hfirst
          exact .cons ⟨rfl, under_eq_ok_iff.mp hb⟩ (ih hrest)

theorem entries_eq_ok {s : Shape α} {v : Value} {as : Fields α} (h : entries s v = .ok as) :
    List.Forall₂ (fun f a => a.1 = f.1 ∧ s f.2 = .ok a.2)
      (Fields.erase (v.fields?.getD []) "__proto__") as := by
  unfold entries at h
  split at h
  · exact entryOutcomes_eq_map_ok (gather_eq_ok_iff.mp h)
  · exact absurd h wrongKind_ne_ok

/-- **Every entry of a record that is read is read**, under a name that is allowed. -/
theorem entries_mem {s : Shape α} {v : Value} {fs : Fields α} (h : entries s v = .ok fs)
    {f : String × α} (hf : f ∈ fs) :
    f.1 ≠ "__proto__" ∧ f.1 ≠ "" ∧ ∃ w, s w = .ok f.2 := by
  unfold entries at h
  split at h
  · have hmem : .ok f ∈ entryOutcomes s (v.fields?.getD []) := by
      rw [gather_eq_ok_iff.mp h]
      exact List.mem_map_of_mem hf
    obtain ⟨hp, he, w, -, hw⟩ := entryOutcomes_mem hmem
    exact ⟨hp, he, w, hw⟩
  · exact absurd h wrongKind_ne_ok

/-! ## 4. Choices that are settled -/

@[simp] theorem settles_ok {a : α} : settles (.ok a : Checked α) = true := rfl

@[simp] theorem settles_map {r : Checked α} {f : α → β} : settles (r.map f) = settles r := by
  cases r <;> rfl

theorem settles_wrongKind {expected : String} {v : Value} :
    settles (wrongKind expected v : Checked α) = false := rfl

/-- **A choice is decided by the first alternative that settles the matter.** -/
theorem oneOf_of_settles (before : List (Checked α)) {after : List (Checked α)} {r : Checked α}
    (hbefore : ∀ r ∈ before, settles r = false) (hr : settles r = true) :
    oneOf (before ++ r :: after) = r := by
  have hskip : before.find? settles = none :=
    List.find?_eq_none.mpr fun r hr => by simp [hbefore r hr]
  have hfind : (before ++ r :: after).find? settles = some r := by
    rw [List.find?_append, hskip, List.find?_cons_of_pos hr]
    rfl
  rw [oneOf, hfind]

/-- A choice is decided by the first alternative that reads the value, if none before it settles the
matter. -/
theorem oneOf_of_read (before : List (Checked α)) {after : List (Checked α)} {a : α}
    (hbefore : ∀ r ∈ before, settles r = false) : oneOf (before ++ .ok a :: after) = .ok a :=
  oneOf_of_settles before hbefore rfl

section Scalars

variable {str : String → α} {num : Float → α} {bool : Bool → α} {nothing : Unit → α}

/-- A finite number is read as one, whatever the alternatives make of what they read. -/
theorem oneOf_num {x : Float} (finite : Number.isFinite x = true) {last : Checked α} :
    oneOf [(text (.num x)).map str, (number (.num x)).map num, (boolean (.num x)).map bool,
      (null (.num x)).map nothing, last] = .ok (num x) := by
  have hread : number (.num x) = .ok x := number_eq_ok_iff.mpr ⟨rfl, finite⟩
  rw [hread]
  refine oneOf_of_read [_] ?_
  simp [text, settles_wrongKind]

/-- A record is no scalar, so what is made of it is left to the last alternative. -/
theorem oneOf_record {origin : Origin} {fields : List (String × Value)} {a : α} :
    oneOf [(text (.record origin fields)).map str, (number (.record origin fields)).map num,
      (boolean (.record origin fields)).map bool, (null (.record origin fields)).map nothing,
      .ok a] = .ok a := by
  refine oneOf_of_read [_, _, _, _] ?_
  simp [text, number, boolean, null, settles_wrongKind]

end Scalars

end ConfGraph.Shape
