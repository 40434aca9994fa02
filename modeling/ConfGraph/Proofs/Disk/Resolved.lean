import Mathlib.Data.List.Induction
import ConfGraph.Proofs.Module.Ident

/-!
# Resolved paths

A resolved path is a slash and names, with a slash between any two.  Its names can be read off it, and
going down or adding an extension does to the path what it does to the names.

* `IsName`: what can stand between the slashes of a resolved path; `isName_of_resolved`: nothing else does.
* `resolvedComponents_ofComponents`: the names of a resolved path; `ofComponents_injective`: they tell it.
* `resolve_eq_self_iff`: the paths that are resolved.
* `child_ofComponents`, `ofComponents_append`: down into a directory, and on to an extension.
-/

namespace ConfGraph.Path

variable {base p c ext : String} {cs cs' : List String}

/-! ## 1. Names -/

/-- A name of a file or a directory. -/
structure IsName (c : String) : Prop where
  ne_empty : c ≠ ""
  ne_dot : c ≠ "."
  ne_dots : c ≠ ".."
  not_mem : '/' ∉ c.toList

instance (c : String) : Decidable (IsName c) :=
  decidable_of_iff (c ≠ "" ∧ c ≠ "." ∧ c ≠ ".." ∧ '/' ∉ c.toList)
    ⟨fun ⟨h, h', h'', h'''⟩ => ⟨h, h', h'', h'''⟩, fun ⟨h, h', h'', h'''⟩ => ⟨h, h', h'', h'''⟩⟩

theorem IsName.isKept (h : IsName c) : isKept c = true :=
  Bool.and_eq_true_iff.mpr ⟨bne_iff_ne.mpr h.ne_empty, bne_iff_ne.mpr h.ne_dot⟩

/-- A name stays a name with something after it that holds no slash and more than dots. -/
theorem IsName.append (h : IsName c) (hext : '/' ∉ ext.toList) (hother : ∃ x ∈ ext.toList, x ≠ '.') :
    IsName (c ++ ext) := by
  obtain ⟨x, hx, hdot⟩ := hother
  have hmem : x ∈ (c ++ ext).toList := by
    rw [String.toList_append]
    exact List.mem_append_right _ hx
  refine ⟨fun heq => ?_, fun heq => ?_, fun heq => ?_, fun hslash => ?_⟩
  · rw [heq] at hmem
    exact nomatch hmem
  · rw [heq] at hmem
    exact hdot (by simpa using hmem)
  · rw [heq] at hmem
    exact hdot (by simpa using hmem)
  · rw [String.toList_append] at hslash
    exact (List.mem_append.mp hslash).elim h.not_mem hext

/-- An extension by itself is the name of a file. -/
theorem IsName.of_extension (hext : '/' ∉ ext.toList) (hother : ∃ x ∈ ext.toList, x ≠ '.') :
    IsName ext := by
  obtain ⟨x, hx, hdot⟩ := hother
  refine ⟨?_, ?_, ?_, hext⟩
  · rintro rfl
    exact nomatch hx
  · rintro rfl
    exact hdot (by simpa using hx)
  · rintro rfl
    exact hdot (by simpa using hx)

/-! ## 2. The names of a resolved path -/

theorem collapse_of_names (h : ∀ c ∈ cs, IsName c) : collapse cs = cs := by
  induction cs using List.reverseRecOn with
  | nil => rfl
  | append_singleton cs c ih =>
    rw [collapse_append (h c (by simp)).ne_dots, ih fun c' hc' => h c' (by simp [hc'])]

theorem mem_collapse (h : c ∈ collapse cs) : c ∈ cs ∧ c ≠ ".." := by
  have hfold : ∀ (cs done : List String), c ∈ cs.foldl climb done → c ∈ done ∨ (c ∈ cs ∧ c ≠ "..") := by
    intro cs
    induction cs with
    | nil => exact fun done h => .inl h
    | cons first rest ih =>
      intro done h
      rcases ih _ h with h | ⟨h, hdots⟩
      · unfold climb at h
        split at h
        · exact .inl (List.mem_of_mem_tail h)
        · next hfirst =>
          rcases List.mem_cons.mp h with rfl | h
          · exact .inr ⟨List.mem_cons_self, hfirst⟩
          · exact .inl h
      · exact .inr ⟨List.mem_cons_of_mem _ h, hdots⟩
  exact (hfold cs [] (List.mem_reverse.mp h)).resolve_left List.not_mem_nil

/-- Parts hold no separator. -/
theorem not_mem_of_mem_splitAt {sep : Char} : ∀ {text part : List Char}, part ∈ Text.splitAt sep text →
    sep ∉ part
  | [], part, h => by
    obtain rfl := List.mem_singleton.mp h
    exact List.not_mem_nil
  | c :: rest, part, h => by
    unfold Text.splitAt at h
    split at h
    · rcases List.mem_cons.mp h with rfl | h
      · exact List.not_mem_nil
      · exact not_mem_of_mem_splitAt h
    · next hc =>
      split at h
      · obtain rfl := List.mem_singleton.mp h
        exact fun hmem => hc (List.mem_singleton.mp hmem).symm
      · next first others hrest =>
        have hparts : ∀ part ∈ first :: others, sep ∉ part := fun part hpart =>
          not_mem_of_mem_splitAt (hrest ▸ hpart)
        rcases List.mem_cons.mp h with rfl | h
        · intro hmem
          rcases List.mem_cons.mp hmem with rfl | hmem
          · exact hc rfl
          · exact hparts first List.mem_cons_self hmem
        · exact hparts part (List.mem_cons_of_mem _ h)

/-- **What stands in a resolved path** are names. -/
theorem isName_of_resolved (h : c ∈ resolvedComponents base p) : IsName c := by
  have hcomponent : ∀ {p : String}, c ∈ components p → c ≠ ".." → IsName c := by
    intro p hc hdots
    rw [components_eq] at hc
    obtain ⟨hc, hkept⟩ := List.mem_filter.mp hc
    obtain ⟨part, hpart, rfl⟩ := List.mem_map.mp hc
    obtain ⟨hempty, hdot⟩ := Bool.and_eq_true_iff.mp hkept
    refine ⟨bne_iff_ne.mp hempty, bne_iff_ne.mp hdot, hdots, ?_⟩
    rw [String.toList_ofList]
    exact not_mem_of_mem_splitAt hpart
  unfold resolvedComponents at h
  split at h
  · obtain ⟨hc, hdots⟩ := mem_collapse h
    exact hcomponent hc hdots
  · obtain ⟨hc, hdots⟩ := mem_collapse h
    exact (List.mem_append.mp hc).elim (hcomponent · hdots) (hcomponent · hdots)

theorem components_ofComponents (h : ∀ c ∈ cs, IsName c) : components (ofComponents cs) = cs := by
  have htext : (ofComponents cs).toList = '/' :: List.intercalate ['/'] (cs.map String.toList) := by
    rw [ofComponents, String.toList_append, String.toList_intercalate]
    rfl
  have hkept : ∀ c ∈ cs, isKept c = true := fun c hc => (h c hc).isKept
  rw [components_eq, htext]
  show (([] :: Text.splitAt '/' _).map String.ofList).filter isKept = cs
  rw [List.map_cons, List.filter_cons_of_neg (by decide)]
  by_cases hnil : cs = []
  · subst hnil
    rfl
  · rw [Text.splitAt_joined (by simpa using hnil), List.map_map]
    · rw [show String.ofList ∘ String.toList = id from funext fun _ => String.ofList_toList, List.map_id]
      exact List.filter_eq_self.mpr hkept
    · intro part hpart
      obtain ⟨c, hc, rfl⟩ := List.mem_map.mp hpart
      exact (h c hc).not_mem

/-- **The names of a resolved path** can be read off it, whatever the base. -/
theorem resolvedComponents_ofComponents (base : String) (h : ∀ c ∈ cs, IsName c) :
    resolvedComponents base (ofComponents cs) = cs := by
  have habsolute : isAbsolute (ofComponents cs) = true := by
    rw [isAbsolute, ofComponents, String.toList_append]
    rfl
  rw [resolvedComponents, if_pos habsolute, components_ofComponents h, collapse_of_names h]

theorem ofComponents_injective (h : ∀ c ∈ cs, IsName c) (h' : ∀ c ∈ cs', IsName c)
    (heq : ofComponents cs = ofComponents cs') : cs = cs' := by
  rw [← resolvedComponents_ofComponents "/" h, heq, resolvedComponents_ofComponents "/" h']

theorem resolve_ofComponents (base : String) (h : ∀ c ∈ cs, IsName c) :
    resolve base (ofComponents cs) = ofComponents cs := by
  rw [resolve, resolvedComponents_ofComponents base h]

/-- **A path is resolved** if and only if it is made of names. -/
theorem resolve_eq_self_iff : resolve base p = p ↔ ∃ cs, (∀ c ∈ cs, IsName c) ∧ p = ofComponents cs := by
  constructor
  · intro h
    exact ⟨resolvedComponents base p, fun c hc => isName_of_resolved hc, h.symm⟩
  · rintro ⟨cs, h, rfl⟩
    exact resolve_ofComponents base h

/-! ## 3. Going on -/

theorem ofComponents_append_singleton (hne : cs ≠ []) (c : String) :
    ofComponents (cs ++ [c]) = ofComponents cs ++ "/" ++ c := by
  rw [ofComponents, ofComponents, String.intercalate_append_of_ne_nil hne (by simp),
    String.intercalate_singleton, String.append_assoc, String.append_assoc, String.append_assoc]

/-- **Down into a directory.** -/
theorem child_ofComponents (h : ∀ c ∈ cs, IsName c) (name : String) :
    child (ofComponents cs) name = ofComponents (cs ++ [name]) := by
  rcases List.eq_nil_or_concat' cs with rfl | ⟨above, last, rfl⟩
  · rw [List.nil_append, ofComponents, ofComponents, String.intercalate_singleton]
    rfl
  · have hlast := h last (by simp)
    have hne : last.toList ≠ [] := fun hnil => hlast.ne_empty (String.toList_inj.mp hnil)
    have hend : (ofComponents (above ++ [last])).toList.getLast? = last.toList.getLast? := by
      cases above with
      | nil =>
        rw [List.nil_append, ofComponents, String.intercalate_singleton, String.toList_append,
          List.getLast?_append_of_ne_nil _ hne]
      | cons first rest =>
        rw [ofComponents_append_singleton (List.cons_ne_nil _ _), String.toList_append,
          List.getLast?_append_of_ne_nil _ hne]
    have hslash : (last.toList.getLast? == some '/') = false := by
      refine beq_eq_false_iff_ne.mpr fun heq => hlast.not_mem ?_
      exact List.mem_of_getLast? heq
    have hbelow := ofComponents_append_singleton (List.append_ne_nil_of_right_ne_nil above
      (List.cons_ne_nil last [])) name
    rw [child, hend, hslash, if_neg (by decide), hbelow]
    rfl

/-- **On to an extension**, of the last name. -/
theorem ofComponents_append (cs : List String) (c ext : String) :
    ofComponents (cs ++ [c]) ++ ext = ofComponents (cs ++ [c ++ ext]) := by
  cases cs with
  | nil =>
    simp only [List.nil_append, ofComponents, String.intercalate_singleton, String.append_assoc]
  | cons first rest =>
    rw [ofComponents_append_singleton (List.cons_ne_nil _ _),
      ofComponents_append_singleton (List.cons_ne_nil _ _), String.append_assoc]

/-- A resolved path stays one with an extension. -/
theorem resolve_append (hext : '/' ∉ ext.toList) (hother : ∃ x ∈ ext.toList, x ≠ '.')
    (h : ∀ c ∈ cs, IsName c) : resolve base (ofComponents cs ++ ext) = ofComponents cs ++ ext := by
  rcases List.eq_nil_or_concat' cs with rfl | ⟨above, last, rfl⟩
  · refine resolve_eq_self_iff.mpr ⟨[ext], ?_, ?_⟩
    · simpa using IsName.of_extension hext hother
    · simp [ofComponents]
  · refine resolve_eq_self_iff.mpr ⟨above ++ [last ++ ext], fun c hc => ?_, ofComponents_append _ _ _⟩
    rcases List.mem_append.mp hc with hc | hc
    · exact h c (List.mem_append_left _ hc)
    · obtain rfl := List.mem_singleton.mp hc
      exact (h last (by simp)).append hext hother

end ConfGraph.Path
