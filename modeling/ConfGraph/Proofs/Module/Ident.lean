import ConfGraph.Module.Ident
import ConfGraph.Proofs.Text.Splitting
import Mathlib.Data.List.TakeWhile

/-!
# Identifiers name files

The identifier of a file is read off in two ways that must meet: its extension comes from the path as it
is spelled, its segments from the path as it is resolved.  They meet at the last component, which is the
same in both, if it is a name.

* `Path.IsNamed`: paths that end in a name.
* `Path.exists_resolvedComponents`: resolving such a path keeps the name.
* `Path.extension_eq_iff`: the extension, as the end of the name.
* `IsModuleFile`: files that resolve to segments below a root, with an extension of modules.
* `module_ids_name_files`: these are the files that have identifiers, and the identifiers tell them.
-/

namespace ConfGraph

/-! ## 1. The last component -/

namespace Path

variable {base dir p : String}

/-- A path that ends in a name: its last component, slashes at the end not counted, is there and is
neither `.` nor `..`. -/
structure IsNamed (p : String) : Prop where
  ne_nil : lastComponent p ≠ []
  ne_dot : lastComponent p ≠ ['.']
  ne_dots : lastComponent p ≠ ['.', '.']

instance (p : String) : Decidable (IsNamed p) :=
  decidable_of_iff (lastComponent p ≠ [] ∧ lastComponent p ≠ ['.'] ∧ lastComponent p ≠ ['.', '.'])
    ⟨fun ⟨h, h', h''⟩ => ⟨h, h', h''⟩, fun ⟨h, h', h''⟩ => ⟨h, h', h''⟩⟩

/-- What a text is made of. -/
theorem eq_toList_of_ofList {cs : List Char} {s : String} (h : String.ofList cs = s) :
    cs = s.toList := by
  rw [← h, String.toList_ofList]

theorem not_mem_lastComponent (p : String) : '/' ∉ lastComponent p := by
  intro hmem
  have := List.mem_takeWhile_imp (List.mem_reverse.mp hmem)
  exact absurd this (by decide)

/-- What is left from the first separator on starts with it. -/
theorem eq_of_dropWhile_ne {sep c : Char} {cs rest : List Char}
    (h : cs.dropWhile (· != sep) = c :: rest) : c = sep := by
  have hhead := List.head?_dropWhile_not (· != sep) cs
  rw [h] at hhead
  simpa using hhead

/-- **A path is spelled** with its last component after nothing or a slash, and before slashes. -/
theorem exists_spelling (p : String) : ∃ (front : List Char) (slashes : Nat),
    p.toList = front ++ lastComponent p ++ List.replicate slashes '/' ∧
      (front = [] ∨ ∃ above, front = above ++ ['/']) := by
  let back : List Char := p.toList.reverse.dropWhile (· == '/')
  let above : List Char := back.dropWhile (· != '/')
  have hslashes : p.toList.reverse.takeWhile (· == '/')
      = List.replicate (p.toList.reverse.takeWhile (· == '/')).length '/' := by
    refine List.eq_replicate_iff.mpr ⟨rfl, fun c hc => ?_⟩
    exact beq_iff_eq.mp (List.mem_takeWhile_imp (p := (· == '/')) hc)
  have hback : back.reverse = above.reverse ++ lastComponent p := by
    rw [← List.takeWhile_append_dropWhile (p := (· != '/')) (l := back), List.reverse_append]
    rfl
  refine ⟨above.reverse, (p.toList.reverse.takeWhile (· == '/')).length, ?_, ?_⟩
  · have hsplit := List.takeWhile_append_dropWhile (p := (· == '/')) (l := p.toList.reverse)
    rw [hslashes] at hsplit
    have hspelled := congrArg List.reverse hsplit
    rw [List.reverse_append, List.reverse_reverse, List.reverse_replicate] at hspelled
    rw [← hback]
    exact hspelled.symm
  · cases habove : above with
    | nil => exact .inl rfl
    | cons c rest =>
      have hc : c = '/' := eq_of_dropWhile_ne habove
      exact .inr ⟨rest.reverse, by rw [List.reverse_cons, hc]⟩

/-! ## 2. Resolved paths -/

/-- What stays of the parts of a path. -/
def isKept (c : String) : Bool := c != "" && c != "."

theorem components_eq (p : String) :
    components p = ((Text.splitAt '/' p.toList).map String.ofList).filter isKept := rfl

/-- **The components of a path that ends in a name** are the name and those before it. -/
theorem exists_components (h : IsNamed p) :
    ∃ before, components p = before ++ [String.ofList (lastComponent p)] := by
  obtain ⟨front, slashes, hspelled, hfront⟩ := exists_spelling p
  have hname : Text.splitAt '/' (lastComponent p ++ List.replicate slashes '/')
      = lastComponent p :: List.replicate slashes [] := by
    have hfirst := Text.splitAt_of_not_mem (not_mem_lastComponent p)
    cases slashes with
    | zero => rw [List.replicate_zero, List.append_nil, hfirst]; rfl
    | succ n =>
      rw [List.replicate_succ, Text.splitAt_append, hfirst, Text.splitAt_replicate]
      rfl
  have hkept : isKept (String.ofList (lastComponent p)) = true := by
    refine Bool.and_eq_true_iff.mpr ⟨bne_iff_ne.mpr fun hempty => ?_, bne_iff_ne.mpr fun hdot => ?_⟩
    · exact h.ne_nil (eq_toList_of_ofList hempty)
    · exact h.ne_dot (eq_toList_of_ofList hdot)
  have hlast : ((lastComponent p :: List.replicate slashes []).map String.ofList).filter isKept
      = [String.ofList (lastComponent p)] := by
    rw [List.map_cons, List.filter_cons_of_pos hkept, List.map_replicate]
    rw [List.filter_eq_nil_iff.mpr fun c hc => by
      rw [List.eq_of_mem_replicate hc]
      decide]
  rw [components_eq, hspelled, List.append_assoc]
  rcases hfront with rfl | ⟨above, rfl⟩
  · exact ⟨[], by rw [List.nil_append, hname, hlast]; rfl⟩
  · refine ⟨((Text.splitAt '/' above).map String.ofList).filter isKept, ?_⟩
    rw [List.append_assoc, List.singleton_append, Text.splitAt_append, List.map_append,
      List.filter_append, hname, hlast]

theorem collapse_append {cs : List String} {c : String} (h : c ≠ "..") :
    collapse (cs ++ [c]) = collapse cs ++ [c] := by
  simp [collapse, climb, h]

/-- **Resolving keeps the name** at the end of a path. -/
theorem exists_resolvedComponents (base : String) (h : IsNamed p) :
    ∃ before, resolvedComponents base p = before ++ [String.ofList (lastComponent p)] := by
  obtain ⟨before, hcomponents⟩ := exists_components h
  have hup : String.ofList (lastComponent p) ≠ ".." := fun hup =>
    h.ne_dots (eq_toList_of_ofList hup)
  unfold resolvedComponents
  rw [hcomponents]
  split
  · exact ⟨collapse before, collapse_append hup⟩
  · exact ⟨collapse (components base ++ before), by rw [← List.append_assoc, collapse_append hup]⟩

theorem after?_eq_some_iff {ds cs rest : List String} : after? ds cs = some rest ↔ cs = ds ++ rest := by
  induction ds generalizing cs with
  | nil => simp [after?]
  | cons d ds ih =>
    cases cs with
    | nil => simp [after?]
    | cons c cs =>
      unfold after?
      by_cases hd : d = c
      · simp [hd, ih]
      · simp [hd, Ne.symm hd]

theorem within?_eq_some_iff {rest : List String} : within? base dir p = some rest ↔
    resolvedComponents base p = resolvedComponents base dir ++ rest := after?_eq_some_iff

/-! ## 3. Extensions -/

theorem ne_dot_of_not_mem {suffix : List Char} (hdot : '.' ∉ suffix) :
    ∀ c ∈ suffix.reverse, (c != '.') = true := by
  intro c hc
  refine bne_iff_ne.mpr ?_
  rintro rfl
  exact hdot (List.mem_reverse.mp hc)

/-- **The extension of a path** is the end of its last component from the last dot on, if something is
before that dot. -/
theorem extension_eq_iff {suffix : List Char} (hdot : '.' ∉ suffix) (hne : suffix ≠ []) :
    extension p = String.ofList ('.' :: suffix) ↔
      ∃ stem, stem ≠ [] ∧ lastComponent p = stem ++ '.' :: suffix := by
  let name : List Char := lastComponent p
  let after : List Char := (name.reverse.takeWhile (· != '.')).reverse
  let before : List Char := (name.reverse.dropWhile (· != '.')).tail.reverse
  have hextension : extension p = if before.isEmpty || (before == ['.'] && after.isEmpty) then ""
      else String.ofList ('.' :: after) := rfl
  rw [hextension]
  constructor
  · intro h
    split at h
    · exact absurd (eq_toList_of_ofList h.symm) (List.cons_ne_nil _ _)
    · next hcondition =>
      have hafter : after = suffix := (List.cons.inj (String.ofList_inj.mp h)).2
      have hbefore : before ≠ [] := by
        intro hnil
        simp [hnil] at hcondition
      refine ⟨before, hbefore, ?_⟩
      cases hrest : name.reverse.dropWhile (· != '.') with
      | nil => simp [before, hrest] at hbefore
      | cons c rest =>
        have hc : c = '.' := eq_of_dropWhile_ne hrest
        have hsplit := List.takeWhile_append_dropWhile (p := (· != '.')) (l := name.reverse)
        have hname := congrArg List.reverse hsplit
        rw [List.reverse_append, List.reverse_reverse, hrest, hc, List.reverse_cons,
          List.append_assoc, List.singleton_append] at hname
        have hbefore : before = rest.reverse := by simp [before, hrest]
        rw [hbefore, ← hafter]
        exact hname.symm
  · rintro ⟨stem, hstem, hname⟩
    have hreverse : name.reverse = suffix.reverse ++ '.' :: stem.reverse := by
      simp [name, hname]
    have hsuffix := ne_dot_of_not_mem hdot
    have hafter : after = suffix := by
      simp [after, hreverse, List.takeWhile_append_of_pos hsuffix]
    have hbefore : before = stem := by
      simp [before, hreverse, List.dropWhile_append_of_pos hsuffix]
    rw [hbefore, hafter, if_neg (by simp [hstem, hne])]

end Path

/-! ## 4. Identifiers -/

namespace Module

open ConfGraph.Path

variable {base root file file' : String} {dirs dirs' : List String} {stem stem' ext ext' : String}

/-- **The file of a module below a root**: it resolves to the resolved root followed by segments, of
which the last has an extension of modules after it. -/
structure IsModuleFile (base root file : String) (dirs : List String) (stem ext : String) : Prop where
  is_extension : ext ∈ extensions
  resolved : resolvedComponents base file = resolvedComponents base root ++ (dirs ++ [stem ++ ext])
  segments : ∀ s ∈ dirs ++ [stem], Text.isSegment s.toList = true

/-- The identifier of such a file. -/
def joined (dirs : List String) (stem : String) : String := String.intercalate "." (dirs ++ [stem])

/-- Extensions of modules have one dot, in front. -/
theorem exists_suffix (h : ext ∈ extensions) : ∃ suffix : List Char,
    ext = String.ofList ('.' :: suffix) ∧ '.' ∉ suffix ∧ suffix ≠ [] := by
  rcases List.mem_cons.mp h with rfl | h
  · exact ⟨['j', 's'], rfl, by decide, by decide⟩
  · obtain rfl := List.mem_singleton.mp h
    exact ⟨['c', 'j', 's'], rfl, by decide, by decide⟩

/-- **An extension of modules is read off the name**, of which something is left. -/
theorem extension_eq_of_mem (h : ext ∈ extensions) : extension file = ext ↔
    ∃ stem : String, stem ≠ "" ∧ String.ofList (lastComponent file) = stem ++ ext := by
  obtain ⟨suffix, rfl, hdot, hne⟩ := exists_suffix h
  rw [extension_eq_iff hdot hne]
  constructor
  · rintro ⟨stem, hstem, hname⟩
    refine ⟨String.ofList stem, fun hempty => hstem (eq_toList_of_ofList hempty), ?_⟩
    rw [hname, String.ofList_append]
  · rintro ⟨stem, hstem, hname⟩
    refine ⟨stem.toList, fun hempty => hstem (String.toList_inj.mp hempty), ?_⟩
    have := eq_toList_of_ofList hname
    rwa [String.toList_append, String.toList_ofList] at this

theorem withoutExtension_append :
    withoutExtension ext (dirs ++ [stem ++ ext]) = (dirs ++ [stem]).map String.toList := by
  simp [withoutExtension, String.toList_append]

theorem isNamed_of_extension (h : extension file ∈ extensions) : IsNamed file := by
  obtain ⟨suffix, hext, hdot, hne⟩ := exists_suffix h
  obtain ⟨stem, hstem, hname⟩ := (extension_eq_iff hdot hne).mp hext
  have hlength : 3 ≤ (lastComponent file).length := by
    have hstem := List.length_pos_iff.mpr hstem
    have hne := List.length_pos_iff.mpr hne
    rw [hname, List.length_append, List.length_cons]
    omega
  constructor
  · intro hnil
    simp [hnil] at hlength
  · intro hdot
    simp [hdot] at hlength
  · intro hdots
    simp [hdots] at hlength

/-- What is left of a path below a root ends in the name of the path. -/
theorem exists_dirs (hnamed : IsNamed file) {rest : List String} (hne : rest ≠ [])
    (hrest : resolvedComponents base file = resolvedComponents base root ++ rest) :
    ∃ dirs, rest = dirs ++ [String.ofList (lastComponent file)] := by
  obtain ⟨before, hresolved⟩ := exists_resolvedComponents base hnamed
  obtain ⟨dirs, last, rfl⟩ := (List.eq_nil_or_concat' rest).resolve_left hne
  rw [hresolved, ← List.append_assoc] at hrest
  have hlast := (List.append_singleton_inj.mp hrest).2
  exact ⟨dirs, by rw [hlast]⟩

/-- **Files that have an identifier are files of modules**, however they are spelled. -/
theorem isModuleFile_of_idOfPath? {id : String} (h : idOfPath? base root file = some id) :
    ∃ dirs stem ext, IsModuleFile base root file dirs stem ext ∧ id = joined dirs stem := by
  unfold idOfPath? at h
  dsimp only at h
  split at h
  · cases h
  · next hext =>
    have hmem : extension file ∈ extensions := by simpa using hext
    obtain ⟨stem, -, hname⟩ := (extension_eq_of_mem hmem).mp rfl
    split at h
    · cases h
    · cases h
    · next rest hne hwithin =>
      have hresolved := within?_eq_some_iff.mp hwithin
      obtain ⟨dirs, rfl⟩ := exists_dirs (isNamed_of_extension hmem) (fun hnil => hne hnil) hresolved
      rw [hname, withoutExtension_append] at h
      rw [hname] at hresolved
      split at h
      · next hsegments =>
        refine ⟨dirs, stem, extension file, ⟨hmem, hresolved, fun s hs => ?_⟩, ?_⟩
        · exact List.all_eq_true.mp hsegments s.toList (List.mem_map_of_mem hs)
        · rw [List.map_map] at h
          exact (Option.some.inj h).symm.trans (by simp [joined, Function.comp_def])
      · cases h

/-- **A file of a module that is spelled with its name at the end has the identifier** that joins its
segments. -/
theorem idOfPath?_of_isModuleFile (hnamed : IsNamed file) (h : IsModuleFile base root file dirs stem ext) :
    idOfPath? base root file = some (joined dirs stem) := by
  obtain ⟨before, hresolved⟩ := exists_resolvedComponents base hnamed
  have hname : String.ofList (lastComponent file) = stem ++ ext := by
    have hend := hresolved.symm.trans h.resolved
    rw [← List.append_assoc] at hend
    exact (List.append_singleton_inj.mp hend).2
  have hstem : stem ≠ "" := by
    rintro rfl
    exact Text.ne_nil_of_isSegment (h.segments "" (by simp)) String.toList_empty
  have hextension : extension file = ext :=
    (extension_eq_of_mem h.is_extension).mpr ⟨stem, hstem, hname⟩
  have hwithin : within? base root file = some (dirs ++ [stem ++ ext]) :=
    within?_eq_some_iff.mpr h.resolved
  have hsegments : ((dirs ++ [stem]).map String.toList).all Text.isSegment = true := by
    refine List.all_eq_true.mpr fun cs hcs => ?_
    obtain ⟨s, hs, rfl⟩ := List.mem_map.mp hcs
    exact h.segments s hs
  have hlisted : extensions.contains ext = true := by simpa using h.is_extension
  unfold idOfPath?
  rw [hextension]
  dsimp only
  rw [hlisted, if_neg (by decide), hwithin]
  split
  · next hnone => cases hnone
  · next hnil => simp at hnil
  · next rest _ hrest =>
    obtain rfl := Option.some.inj hrest
    rw [withoutExtension_append, if_pos hsegments, List.map_map]
    simp [joined, Function.comp_def]

/-- **An identifier tells its segments.** -/
theorem joined_inj (h : ∀ s ∈ dirs ++ [stem], Text.isSegment s.toList = true)
    (h' : ∀ s ∈ dirs' ++ [stem'], Text.isSegment s.toList = true)
    (heq : joined dirs stem = joined dirs' stem') : dirs = dirs' ∧ stem = stem' := by
  have hparts := Text.joined_injective '.' (by simp) (by simp)
    (fun s hs => Text.not_mem_of_isSegment (h s hs)) (fun s hs => Text.not_mem_of_isSegment (h' s hs)) heq
  exact List.append_singleton_inj.mp hparts

/-- **A name tells its stem**: the last dot is that of the extension. -/
theorem stem_inj (h : ext ∈ extensions) (h' : ext' ∈ extensions) (heq : stem ++ ext = stem' ++ ext') :
    stem = stem' ∧ ext = ext' := by
  have last : ∀ {front suffix : List Char}, '.' ∉ suffix →
      (front ++ '.' :: suffix).reverse.takeWhile (· != '.') = suffix.reverse := by
    intro front suffix hdot
    simp [List.takeWhile_append_of_pos (ne_dot_of_not_mem hdot)]
  obtain ⟨suffix, rfl, hdot, -⟩ := exists_suffix h
  obtain ⟨suffix', rfl, hdot', -⟩ := exists_suffix h'
  have htexts := congrArg String.toList heq
  simp only [String.toList_append, String.toList_ofList] at htexts
  have hreverse := congrArg (fun cs : List Char => cs.reverse.takeWhile (· != '.')) htexts
  simp only [last hdot, last hdot'] at hreverse
  obtain rfl := List.reverse_injective hreverse
  exact ⟨String.toList_inj.mp (List.append_cancel_right htexts), rfl⟩

/-- Two paths resolve to the same, the extension of modules apart. -/
def AgreeUpToExtension (base file file' : String) : Prop :=
  ∃ (before : List String) (stem : String), ∃ ext ∈ extensions, ∃ ext' ∈ extensions,
    resolvedComponents base file = before ++ [stem ++ ext] ∧
      resolvedComponents base file' = before ++ [stem ++ ext']

/-- **Identifiers name files.**  Whatever the spelling of a root and of a path that ends in a name:

* the path has an identifier if and only if it resolves to the resolved root followed by segments, the
  last of them with an extension of modules, and the identifier joins these segments by dots;
* of two paths, one of which has an identifier, the other has the same if and only if they resolve to the
  same but for the extension;
* no path that does not resolve to something below the root has one. -/
theorem module_ids_name_files (base root : String) :
    (∀ file id, IsNamed file → (idOfPath? base root file = some id ↔
      ∃ dirs stem ext, IsModuleFile base root file dirs stem ext ∧ id = joined dirs stem)) ∧
    (∀ file file' id, IsNamed file → IsNamed file' → idOfPath? base root file = some id →
      (idOfPath? base root file' = some id ↔ AgreeUpToExtension base file file')) ∧
    ∀ file, (∀ rest ≠ [], resolvedComponents base file ≠ resolvedComponents base root ++ rest) →
      idOfPath? base root file = none := by
  refine ⟨fun file id hnamed => ⟨isModuleFile_of_idOfPath?, ?_⟩, ?_, fun file houtside => ?_⟩
  · rintro ⟨dirs, stem, ext, hfile, rfl⟩
    exact idOfPath?_of_isModuleFile hnamed hfile
  · intro file file' id hnamed hnamed' hid
    obtain ⟨dirs, stem, ext, hfile, rfl⟩ := isModuleFile_of_idOfPath? hid
    constructor
    · intro hid'
      obtain ⟨dirs', stem', ext', hfile', hjoined⟩ := isModuleFile_of_idOfPath? hid'
      obtain ⟨rfl, rfl⟩ := joined_inj hfile.segments hfile'.segments hjoined
      refine ⟨resolvedComponents base root ++ dirs, stem, ext, hfile.is_extension, ext',
        hfile'.is_extension, ?_, ?_⟩
      · rw [hfile.resolved, List.append_assoc]
      · rw [hfile'.resolved, List.append_assoc]
    · rintro ⟨before, stem', ext', hext', ext'', hext'', hresolved, hresolved'⟩
      have hend := hfile.resolved.symm.trans hresolved
      rw [← List.append_assoc] at hend
      obtain ⟨rfl, hname⟩ := List.append_singleton_inj.mp hend
      obtain ⟨rfl, -⟩ := stem_inj hfile.is_extension hext' hname
      rw [List.append_assoc] at hresolved'
      exact idOfPath?_of_isModuleFile hnamed' ⟨hext'', hresolved', hfile.segments⟩
  · refine Option.eq_none_iff_forall_ne_some.mpr fun id hid => ?_
    obtain ⟨dirs, stem, ext, hfile, -⟩ := isModuleFile_of_idOfPath? hid
    exact houtside _ (by simp) hfile.resolved

/-- Two spellings below a root that is spelled with a detour: one module, in either extension; and a file
that lies beside the root. -/
theorem detours_name_one_module :
    IsNamed "/cfg//app/./x/../config.js" ∧ IsNamed "/cfg/app/config.cjs/" ∧
      idOfPath? "/" "/cfg/app/.." "/cfg//app/./x/../config.js" = some "app.config" ∧
      AgreeUpToExtension "/" "/cfg//app/./x/../config.js" "/cfg/app/config.cjs/" ∧
      idOfPath? "/" "/cfg/app/.." "/cfg/../etc/config.js" = none := by
  have hnamed : IsNamed "/cfg//app/./x/../config.js" := by decide +kernel
  have hnamed' : IsNamed "/cfg/app/config.cjs/" := by decide +kernel
  have hfile : IsModuleFile "/" "/cfg/app/.." "/cfg//app/./x/../config.js" ["app"] "config" ".js" :=
    ⟨by decide, by decide +kernel, by decide +kernel⟩
  obtain ⟨hid, hsame, hother⟩ := module_ids_name_files "/" "/cfg/app/.."
  have happ : idOfPath? "/" "/cfg/app/.." "/cfg//app/./x/../config.js" = some "app.config" :=
    (hid _ _ hnamed).mpr ⟨["app"], "config", ".js", hfile, by decide +kernel⟩
  refine ⟨hnamed, hnamed', happ, (hsame _ _ _ hnamed hnamed' happ).mp (by decide +kernel), ?_⟩
  refine hother _ fun rest _ hbelow => ?_
  have hbeside : resolvedComponents "/" "/cfg/../etc/config.js" = ["etc", "config.js"] := by
    decide +kernel
  have hroot : resolvedComponents "/" "/cfg/app/.." = ["cfg"] := by decide +kernel
  rw [hbeside, hroot] at hbelow
  exact absurd (List.cons.inj hbelow).1 (by decide)

end Module

end ConfGraph
