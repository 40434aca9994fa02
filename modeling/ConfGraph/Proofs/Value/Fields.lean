import ConfGraph.Value.Fields
import Mathlib.Data.List.Nodup
import Mathlib.Data.List.Perm.Basic

/-!
# Fields as finite maps

Fields are a list, but what counts is which name holds what.  As long as no name stands twice, the
list is a finite map: a name holds a value exactly when the pair is in the list, and two lists that
answer alike under every name are permutations of each other.

* `get?_eq_some_iff`: reading is membership.
* `mem_put`, `mem_erase`: what is in the list after a write and after a removal.
* `nodup_put`, `nodup_erase`, `nodup_ofList`: no operation makes a name stand twice.
* `perm_of_get?_eq`: fields that answer alike are permutations of each other.
* `ofList_map`, `erase_map`: what is done to names does not look at values.
-/

namespace ConfGraph.Fields

variable {α β : Type}

/-! ## 1. Reading is membership -/

theorem mem_of_get? {fs : Fields α} {name : String} {a : α} (h : get? fs name = some a) :
    (name, a) ∈ fs := by
  induction fs with
  | nil => simp at h
  | cons f rest ih =>
    rw [get?_cons] at h
    split at h
    · next hn =>
      obtain rfl := Option.some.inj h
      exact hn ▸ List.mem_cons_self
    · exact List.mem_cons_of_mem _ (ih h)

theorem get?_of_mem {fs : Fields α} (hnodup : (names fs).Nodup) {name : String} {a : α}
    (h : (name, a) ∈ fs) : get? fs name = some a := by
  induction fs with
  | nil => simp at h
  | cons f rest ih =>
    obtain ⟨hf, hrest⟩ := List.nodup_cons.mp hnodup
    rw [get?_cons]
    rcases List.mem_cons.mp h with rfl | h
    · simp
    · have hne : name ≠ f.1 := by
        rintro rfl
        exact hf (List.mem_map.mpr ⟨_, h, rfl⟩)
      rw [if_neg hne]
      exact ih hrest h

/-- **Reading is membership** where no name stands twice. -/
theorem get?_eq_some_iff {fs : Fields α} (hnodup : (names fs).Nodup) {name : String} {a : α} :
    get? fs name = some a ↔ (name, a) ∈ fs :=
  ⟨mem_of_get?, get?_of_mem hnodup⟩

theorem get?_eq_none_iff {fs : Fields α} {name : String} :
    get? fs name = none ↔ name ∉ names fs := by
  induction fs with
  | nil => simp [names]
  | cons f rest ih =>
    rw [get?_cons, names, List.map_cons, List.mem_cons, not_or]
    by_cases hn : name = f.1
    · simp [hn]
    · simp [hn, ih, names]

theorem has_iff_mem_names {fs : Fields α} {name : String} :
    has fs name = true ↔ name ∈ names fs := by
  rw [has, ← not_iff_not, ← get?_eq_none_iff]
  simp

theorem get?_map (f : α → β) (fs : Fields α) (name : String) :
    get? (fs.map fun p => (p.1, f p.2)) name = (get? fs name).map f := by
  induction fs with
  | nil => rfl
  | cons p rest ih =>
    rw [List.map_cons, get?_cons, get?_cons, ih]
    split <;> rfl

theorem names_map (f : α → β) (fs : Fields α) :
    names (fs.map fun p => (p.1, f p.2)) = names fs := by
  simp [names, Function.comp_def]

theorem has_map (f : α → β) (fs : Fields α) (name : String) :
    has (fs.map fun p => (p.1, f p.2)) name = has fs name := by
  simp [has, get?_map]

/-! ## 2. What stands in the list after a write -/

theorem insert_perm (fs : Fields α) (name : String) (a : α) :
    (insert fs name a).Perm ((name, a) :: fs) := by
  induction fs with
  | nil => exact List.Perm.refl _
  | cons f rest ih =>
    unfold insert
    split
    · exact List.Perm.refl _
    · exact (ih.cons f).trans (List.Perm.swap _ _ _)

/-- A name that is not there yet is added. -/
theorem put_perm {fs : Fields α} {name : String} (a : α) (h : name ∉ names fs) :
    (put fs name a).Perm ((name, a) :: fs) := by
  have hno : ¬ has fs name = true := fun hh => h (has_iff_mem_names.mp hh)
  rw [put, if_neg hno]
  exact insert_perm fs name a

theorem names_replace (fs : Fields α) (name : String) (a : α) :
    names (replace fs name a) = names fs := by
  simp only [names, replace, List.map_map]
  refine List.map_congr_left fun f _ => ?_
  by_cases h : f.1 = name
  · simp [h]
  · simp [h]

/-- A write to a name that is there leaves the order alone. -/
theorem names_put_of_has {fs : Fields α} {name : String} (h : has fs name = true) (a : α) :
    names (put fs name a) = names fs := by
  rw [put, if_pos h, names_replace]

theorem nodup_put {fs : Fields α} (h : (names fs).Nodup) (name : String) (a : α) :
    (names (put fs name a)).Nodup := by
  by_cases hn : name ∈ names fs
  · rw [put, if_pos (has_iff_mem_names.mpr hn), names_replace]
    exact h
  · exact ((put_perm a hn).map _).nodup_iff.mpr (List.nodup_cons.mpr ⟨hn, h⟩)

/-- **After a write** the list holds the new pair, and of the old ones those of other names. -/
theorem mem_put {fs : Fields α} {name : String} {a : α} {f : String × α}
    (h : f ∈ put fs name a) : f = (name, a) ∨ (f ∈ fs ∧ f.1 ≠ name) := by
  by_cases hn : name ∈ names fs
  · rw [put, if_pos (has_iff_mem_names.mpr hn), replace] at h
    obtain ⟨g, hg, rfl⟩ := List.mem_map.mp h
    by_cases hgn : g.1 = name
    · exact .inl (by simp [hgn])
    · exact .inr (by simp [hgn, hg])
  · rcases List.mem_cons.mp ((put_perm a hn).subset h) with rfl | hf
    · exact .inl rfl
    · refine .inr ⟨hf, ?_⟩
      rintro rfl
      exact hn (List.mem_map_of_mem hf)

theorem mem_erase {fs : Fields α} {name : String} {f : String × α} :
    f ∈ erase fs name ↔ f ∈ fs ∧ f.1 ≠ name := by
  simp [erase]

theorem nodup_erase {fs : Fields α} (h : (names fs).Nodup) (name : String) :
    (names (erase fs name)).Nodup :=
  h.sublist (List.filter_sublist.map _)

theorem nodup_putAll (gs : Fields α) {fs : Fields α} (h : (names fs).Nodup) :
    (names (putAll fs gs)).Nodup := by
  induction gs generalizing fs with
  | nil => exact h
  | cons g gs ih => exact ih (nodup_put h g.1 g.2)

theorem nodup_ofList (entries : List (String × α)) : (names (ofList entries)).Nodup :=
  nodup_putAll entries List.nodup_nil

theorem nodup_of_length_le_one {fs : Fields α} (h : fs.length ≤ 1) : (names fs).Nodup := by
  cases fs with
  | nil => exact List.nodup_nil
  | cons f rest =>
    obtain rfl : rest = [] := List.length_eq_zero_iff.mp (Nat.le_zero.mp (Nat.le_of_succ_le_succ h))
    exact List.nodup_singleton f.1

/-! ## 3. Fields that answer alike -/

/-- **Fields that answer alike are permutations of each other** where no name stands twice. -/
theorem perm_of_get?_eq {fs gs : Fields α} (hfs : (names fs).Nodup) (hgs : (names gs).Nodup)
    (h : ∀ name, get? fs name = get? gs name) : fs.Perm gs := by
  refine (List.perm_ext_iff_of_nodup hfs.of_map hgs.of_map).mpr fun f => ?_
  obtain ⟨name, a⟩ := f
  rw [← get?_eq_some_iff hfs, ← get?_eq_some_iff hgs, h]

/-- Fields with the same names in the same order are the same if they read the same. -/
theorem eq_of_names_eq {fs gs : Fields α} (hnames : names fs = names gs) (hnodup : (names fs).Nodup)
    (hget : ∀ name, get? fs name = get? gs name) : fs = gs := by
  induction fs generalizing gs with
  | nil => exact (List.map_eq_nil_iff.mp hnames.symm).symm
  | cons f rest ih =>
    obtain ⟨first, a⟩ := f
    rcases gs with _ | ⟨⟨first', b⟩, others⟩
    · cases hnames
    obtain ⟨rfl, hrest⟩ : first = first' ∧ names rest = names others := List.cons.inj hnames
    obtain ⟨hnot, hnodup'⟩ := List.nodup_cons.mp hnodup
    have hfirst : a = b := by
      simpa [get?_cons] using hget first
    have htail : rest = others := by
      refine ih hrest hnodup' fun name => ?_
      by_cases hname : name = first
      · subst hname
        rw [get?_eq_none_iff.mpr hnot, get?_eq_none_iff.mpr (hrest ▸ hnot)]
      · simpa [get?_cons, hname] using hget name
    rw [hfirst, htail]

theorem get?_eq_of_perm {fs gs : Fields α} (hfs : (names fs).Nodup) (h : fs.Perm gs)
    (name : String) : get? fs name = get? gs name := by
  have hgs : (names gs).Nodup := (h.map _).nodup_iff.mp hfs
  refine Option.ext fun a => ?_
  rw [get?_eq_some_iff hfs, get?_eq_some_iff hgs, h.mem_iff]

/-- Where no name stands twice, writing entry by entry only puts them in property order. -/
theorem ofList_perm {entries : List (String × α)} (h : (names entries).Nodup) :
    (ofList entries).Perm entries := by
  refine perm_of_get?_eq (nodup_ofList entries) h fun name => ?_
  rw [get?_ofList]
  exact get?_eq_of_perm ((entries.reverse_perm.map _).nodup_iff.mpr h) entries.reverse_perm name

/-! ## 4. Other values under the same names -/

theorem insert_map (f : α → β) (fs : Fields α) (name : String) (a : α) :
    insert (fs.map fun p => (p.1, f p.2)) name (f a)
      = (insert fs name a).map fun p => (p.1, f p.2) := by
  induction fs with
  | nil => rfl
  | cons p rest ih =>
    simp only [List.map_cons, insert]
    split
    · rfl
    · rw [ih, List.map_cons]

theorem put_map (f : α → β) (fs : Fields α) (name : String) (a : α) :
    put (fs.map fun p => (p.1, f p.2)) name (f a)
      = (put fs name a).map fun p => (p.1, f p.2) := by
  unfold put
  rw [has_map]
  split
  · simp only [replace, List.map_map]
    refine List.map_congr_left fun p _ => ?_
    by_cases hp : p.1 = name
    · simp [hp]
    · simp [hp]
  · exact insert_map f fs name a

/-- **Property order is a matter of names.** -/
theorem ofList_map (f : α → β) (entries : List (String × α)) :
    ofList (entries.map fun p => (p.1, f p.2)) = (ofList entries).map fun p => (p.1, f p.2) := by
  have along : ∀ fs : Fields α,
      putAll (fs.map fun p => (p.1, f p.2)) (entries.map fun p => (p.1, f p.2))
        = (putAll fs entries).map fun p => (p.1, f p.2) := by
    induction entries with
    | nil => exact fun _ => rfl
    | cons p rest ih =>
      intro fs
      have hrest := ih (put fs p.1 p.2)
      rw [← put_map] at hrest
      exact hrest
  exact along []

/-- Entries are in property order if others are under the same names. -/
theorem ofList_of_map (f : α → β) {entries : List (String × α)}
    (h : ofList (entries.map fun p => (p.1, f p.2)) = entries.map fun p => (p.1, f p.2)) :
    ofList entries = entries := by
  rw [ofList_map] at h
  have hnames : names (ofList entries) = names entries := by
    rw [← names_map f (ofList entries), h, names_map]
  have hnodup : (names entries).Nodup := hnames ▸ nodup_ofList entries
  exact eq_of_names_eq hnames (nodup_ofList entries)
    (get?_eq_of_perm (nodup_ofList entries) (ofList_perm hnodup))

theorem erase_map (f : α → β) (fs : Fields α) (name : String) :
    erase (fs.map fun p => (p.1, f p.2)) name = (erase fs name).map fun p => (p.1, f p.2) := by
  simp only [erase, List.filter_map]
  rfl

theorem erase_perm {fs gs : Fields α} (h : fs.Perm gs) (name : String) :
    (erase fs name).Perm (erase gs name) := h.filter _

theorem erase_of_not_mem {fs : Fields α} {name : String} (h : name ∉ names fs) :
    erase fs name = fs := by
  refine List.filter_eq_self.mpr fun f hf => ?_
  have hne : f.1 ≠ name := by
    rintro rfl
    exact h (List.mem_map_of_mem hf)
  exact bne_iff_ne.mpr hne

theorem erase_insert (fs : Fields α) (name : String) (a : α) :
    erase (insert fs name a) name = erase fs name := by
  induction fs with
  | nil => simp [insert, erase]
  | cons f rest ih =>
    unfold insert
    split
    · simp [erase]
    · unfold erase at ih ⊢
      rw [List.filter_cons, List.filter_cons, ih]

theorem erase_replace (fs : Fields α) (name : String) (a : α) :
    erase (replace fs name a) name = erase fs name := by
  unfold erase replace
  induction fs with
  | nil => rfl
  | cons f rest ih =>
    rw [List.map_cons, List.filter_cons, List.filter_cons, ih]
    by_cases hname : f.1 = name
    · simp [hname]
    · simp [hname]

/-- Nothing is left of a write once its name is removed. -/
theorem erase_put (fs : Fields α) (name : String) (a : α) :
    erase (put fs name a) name = erase fs name := by
  unfold put
  split
  · exact erase_replace fs name a
  · exact erase_insert fs name a

end ConfGraph.Fields
