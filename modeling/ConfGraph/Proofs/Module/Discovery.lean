import ConfGraph.Proofs.Disk.Tree
import ConfGraph.Proofs.Module.Sharing

/-!
# Discovery is complete and orderly

Which modules are found is a matter of which files there are: a walk down from each root meets every
file that is not passed over, and sorting by paths leaves nothing of the order of the walk.

* `mem_filesOf`: the files that a walk meets; `mergeSort_filesOf`: in which order it meets them is lost.
* `IsBelow`, `Provides`: the files below a root, and the identifiers that they give.
* `filesBelow_reordered`: directories may have their entries in any order.
* `find?_foldl_addNew`: of several modules with one identifier the first is listed; `modulesOf`: so those of
  several roots.
* `discovery_is_complete_and_orderly`: what is listed; `list_fails_iff`: when there is no listing.
-/

namespace ConfGraph.Module

open ConfGraph.Path

variable {d d' : Disk} {n n' : Node} {rs : List String} {root file text id : String}

/-! ## 1. The walk -/

theorem filesOfEntries_eq (path : String) (entries : List (String × Node)) :
    filesOfEntries path entries
      = entries.flatMap fun e => if isPassedOver e.1 then [] else filesOf (child path e.1) e.2 := by
  induction entries with
  | nil => rfl
  | cons e rest ih => rw [filesOfEntries, List.flatMap_cons, ih]

theorem isName_append {cs : List String} (hrs : ∀ c ∈ rs, IsName c) (hcs : ∀ c ∈ cs, IsName c) :
    ∀ c ∈ rs ++ cs, IsName c := fun c hc => (List.mem_append.mp hc).elim (hrs c) (hcs c)

/-- **The walk meets the files** to which paths lead that go through no links and are not passed over. -/
theorem mem_filesOf (hn : n.Proper) (hrs : ∀ c ∈ rs, IsName c) :
    (file, text) ∈ filesOf (ofComponents rs) n ↔
      ∃ cs, (∀ c ∈ cs, isPassedOver c = false) ∧ n.own? cs = some (.file text) ∧
        file = ofComponents (rs ++ cs) := by
  induction hn generalizing rs with
  | file own =>
    rw [filesOf, List.mem_singleton]
    constructor
    · rintro ⟨⟩
      exact ⟨[], List.forall_mem_nil _, rfl, by rw [List.append_nil]⟩
    · rintro ⟨_ | ⟨c, rest⟩, -, hown, rfl⟩
      · obtain rfl : own = text := by simpa [Node.own?] using hown
        rw [List.append_nil]
      · cases hown
  | @dir entries hnodup hnames hnodes ih =>
    have hdown : ∀ {name n}, (name, n) ∈ entries → ∀ c ∈ rs ++ [name], IsName c := fun he =>
      isName_append hrs (by simpa using hnames _ he)
    rw [filesOf, filesOfEntries_eq, List.mem_flatMap]
    constructor
    · rintro ⟨⟨name, n⟩, he, hmem⟩
      split at hmem
      · exact absurd hmem List.not_mem_nil
      · next hpassed =>
        rw [child_ofComponents hrs] at hmem
        obtain ⟨cs, hvisible, hown, rfl⟩ := (ih _ he (hdown he)).mp hmem
        have hlookup : entries.lookup name = some n := Fields.get?_of_mem hnodup he
        refine ⟨name :: cs, ?_, by rw [Node.own?, hlookup]; exact hown, by rw [List.append_assoc]; rfl⟩
        exact List.forall_mem_cons.mpr ⟨by simpa using hpassed, hvisible⟩
    · rintro ⟨_ | ⟨name, cs⟩, hvisible, hown, rfl⟩
      · cases hown
      · obtain ⟨n, hlookup, hown⟩ := Option.bind_eq_some_iff.mp hown
        have he : (name, n) ∈ entries := Fields.mem_of_get? hlookup
        refine ⟨(name, n), he, ?_⟩
        rw [if_neg (by simp [hvisible name List.mem_cons_self]), child_ofComponents hrs]
        refine (ih _ he (hdown he)).mpr ⟨cs, fun c hc => hvisible c (List.mem_cons_of_mem _ hc), hown, ?_⟩
        rw [List.append_assoc]
        rfl
  | link h =>
    rw [filesOf]
    refine ⟨fun hmem => absurd hmem List.not_mem_nil, ?_⟩
    rintro ⟨_ | ⟨c, rest⟩, -, hown, -⟩ <;> cases hown
  | lost =>
    rw [filesOf]
    refine ⟨fun hmem => absurd hmem List.not_mem_nil, ?_⟩
    rintro ⟨_ | ⟨c, rest⟩, -, hown, -⟩ <;> cases hown

/-- A path is met with one text. -/
theorem eq_of_mem_filesOf {text' : String} (hn : n.Proper) (hrs : ∀ c ∈ rs, IsName c)
    (h : (file, text) ∈ filesOf (ofComponents rs) n) (h' : (file, text') ∈ filesOf (ofComponents rs) n) :
    text = text' := by
  obtain ⟨cs, -, hown, rfl⟩ := (mem_filesOf hn hrs).mp h
  obtain ⟨cs', -, hown', hfile⟩ := (mem_filesOf hn hrs).mp h'
  obtain rfl := List.append_cancel_left (ofComponents_injective
    (isName_append hrs (hn.found (Node.at?_of_own? hown)).2)
    (isName_append hrs (hn.found (Node.at?_of_own? hown')).2) hfile)
  rw [hown] at hown'
  cases hown'
  rfl

/-- In another order of entries the same files are met. -/
theorem perm_filesOf (h : n.Reordered n') (path : String) : (filesOf path n).Perm (filesOf path n') := by
  induction h generalizing path with
  | refl n => exact .refl _
  | entries h =>
    rw [filesOf, filesOf, filesOfEntries_eq, filesOfEntries_eq]
    exact h.flatMap_right _
  | @inside before after name n n' h ih =>
    simp only [filesOf, filesOfEntries_eq, List.flatMap_append, List.flatMap_cons]
    refine List.Perm.append_left _ (List.Perm.append_right _ ?_)
    split
    · exact .refl _
    · exact ih _
  | link => exact .refl _
  | trans _ _ ih ih' => exact (ih path).trans (ih' path)

theorem pathLe_trans (f g h : String × String) (hle : pathLe f g = true) (hle' : pathLe g h = true) :
    pathLe f h = true := Text.unitsLe_trans hle hle'

theorem pathLe_total (f g : String × String) : (pathLe f g || pathLe g f) = true :=
  Text.unitsLe_total f.1 g.1

theorem sorted_mergeSort (files : List (String × String)) :
    (files.mergeSort pathLe).Pairwise fun f g => pathLe f g = true :=
  List.pairwise_mergeSort pathLe_trans pathLe_total files

/-- **Sorting leaves nothing of the order of entries.** -/
theorem mergeSort_filesOf (hn : n.Proper) (h : n.Reordered n') (hrs : ∀ c ∈ rs, IsName c) :
    (filesOf (ofComponents rs) n').mergeSort pathLe = (filesOf (ofComponents rs) n).mergeSort pathLe := by
  have hperm := perm_filesOf h (ofComponents rs)
  refine List.Perm.eq_of_pairwise ?_ (sorted_mergeSort _) (sorted_mergeSort _)
    ((List.mergeSort_perm _ _).trans (hperm.symm.trans (List.mergeSort_perm _ _).symm))
  rintro ⟨file, text⟩ ⟨file', text'⟩ hf hg hle hle'
  obtain rfl : file = file' := Text.unitsLe_antisymm hle hle'
  have hf := hperm.mem_iff.mpr (List.mem_mergeSort.mp hf)
  rw [eq_of_mem_filesOf hn hrs hf (List.mem_mergeSort.mp hg)]

/-! ## 2. The files below a root -/

/-- A root that can be read: a directory, or nothing at all. -/
def Readable (d : Disk) (root : String) : Prop :=
  (∃ entries, d.at? root = .ok (.dir entries)) ∨ d.at? root = .error .absent

/-- A regular file below a root, by its resolved path, with nothing on the way down from the root that is
passed over, and no link.  The way to the root may go through links. -/
structure IsBelow (d : Disk) (root file text : String) : Prop where
  resolved : resolve "/" file = file
  regular : d.at? file = .ok (.file text)
  visible : ∃ top below, d.at? root = .ok top ∧ within? "/" root file = some below ∧
    top.own? below = some (.file text) ∧ ∀ c ∈ below, isPassedOver c = false

/-- Below a resolved root, such a file is told by the way down. -/
theorem isBelow_iff (hd : d.Proper) (hrs : ∀ c ∈ rs, IsName c) :
    IsBelow d (ofComponents rs) file text ↔
      ∃ top, d.root.at? rs = .ok top ∧ ∃ cs, (∀ c ∈ cs, isPassedOver c = false) ∧
        top.own? cs = some (.file text) ∧ file = ofComponents (rs ++ cs) := by
  have hat := d.at?_ofComponents hrs
  constructor
  · rintro ⟨hresolved, -, top, cs, htop, hwithin, hown, hvisible⟩
    have hfile : resolvedComponents "/" file = rs ++ cs := by
      rw [within?_eq_some_iff.mp hwithin, resolvedComponents_ofComponents "/" hrs]
    refine ⟨top, hat.symm.trans htop, cs, hvisible, hown, ?_⟩
    rw [← hfile]
    exact hresolved.symm
  · rintro ⟨top, htop, cs, hvisible, hown, rfl⟩
    have hfound := Node.at?_of_own? hown
    have hnames := isName_append hrs ((hd.found htop).1.found hfound).2
    refine ⟨resolve_ofComponents "/" hnames, ?_, top, cs, hat.trans htop, ?_, hown, hvisible⟩
    · rw [d.at?_ofComponents hnames, Node.at?_append, htop]
      exact hfound
    · rw [within?_eq_some_iff, resolvedComponents_ofComponents "/" hnames,
        resolvedComponents_ofComponents "/" hrs]

/-- The files below a root, in order of paths. -/
def rootFiles (d : Disk) (root : String) : List (String × String) := (filesBelow d root).toOption.getD []

theorem filesBelow_of_readable (h : Readable d root) : filesBelow d root = .ok (rootFiles d root) := by
  unfold rootFiles filesBelow
  rcases h with ⟨entries, h⟩ | h
  · rw [h]
    rfl
  · rw [h]
    rfl

theorem filesBelow_of_not_readable (h : ¬ Readable d root) : ∃ f, filesBelow d root = .error f := by
  unfold filesBelow
  split
  · next entries hat => exact absurd (.inl ⟨entries, hat⟩) h
  · next hat => exact absurd (.inr hat) h
  · exact ⟨_, rfl⟩
  · exact ⟨_, rfl⟩

theorem sorted_rootFiles (d : Disk) (root : String) :
    (rootFiles d root).Pairwise fun f g => pathLe f g = true := by
  unfold rootFiles filesBelow
  split
  · exact sorted_mergeSort _
  all_goals exact List.Pairwise.nil

/-- **The files below a root** are met, and no others. -/
theorem mem_rootFiles (hd : d.Proper) (hroot : resolve "/" root = root) (h : Readable d root) :
    (file, text) ∈ rootFiles d root ↔ IsBelow d root file text := by
  obtain ⟨rs, hrs, rfl⟩ := resolve_eq_self_iff.mp hroot
  unfold Readable at h
  rw [isBelow_iff hd hrs, rootFiles, filesBelow]
  rw [d.at?_ofComponents hrs] at h ⊢
  rcases h with ⟨entries, h⟩ | h
  · have hmet : (file, text) ∈ filesOf (ofComponents rs) (.dir entries) ↔ _ :=
      mem_filesOf (hd.found h).1 hrs
    rw [filesOf] at hmet
    rw [h]
    refine (List.mem_mergeSort.trans hmet).trans ⟨fun hbelow => ⟨_, rfl, hbelow⟩, ?_⟩
    rintro ⟨top, htop, hbelow⟩
    obtain rfl := Except.ok.inj htop
    exact hbelow
  · rw [h]
    constructor
    · exact fun hmem => absurd hmem List.not_mem_nil
    · rintro ⟨top, htop, -⟩
      cases htop

theorem filesBelow_of_no_dir {top : Node} (hat : d.at? root = .ok top)
    (h : ∀ entries, top ≠ .dir entries) :
    filesBelow d root = .error (Disk.missFault .blocked "scandir" root) := by
  unfold filesBelow
  rw [hat]
  cases top with
  | dir entries => exact absurd rfl (h entries)
  | _ => rfl

/-- **Directories may have their entries in any order.** -/
theorem filesBelow_reordered (hd : d.Proper) (h : d.root.Reordered d'.root)
    (hroot : resolve "/" root = root) : filesBelow d' root = filesBelow d root := by
  obtain ⟨rs, hrs, rfl⟩ := resolve_eq_self_iff.mp hroot
  have hfound := h.found hd rs
  rw [← d.at?_ofComponents hrs, ← d'.at?_ofComponents hrs] at hfound
  generalize hat : d.at? (ofComponents rs) = found at hfound
  generalize hat' : d'.at? (ofComponents rs) = found' at hfound
  cases hfound with
  | error miss => rw [filesBelow, filesBelow, hat, hat']
  | @ok n n' hsame =>
    by_cases hdir : ∃ entries, n = .dir entries
    · obtain ⟨entries, rfl⟩ := hdir
      obtain ⟨entries', rfl⟩ := hsame.exists_dir rfl
      have hproper := (hd.found ((d.at?_ofComponents hrs).symm.trans hat)).1
      have hsorted := mergeSort_filesOf hproper hsame hrs
      rw [filesOf, filesOf] at hsorted
      rw [filesBelow, filesBelow, hat, hat']
      exact congrArg Except.ok hsorted
    · have hnone : ∀ entries, n ≠ .dir entries := fun entries hn => hdir ⟨entries, hn⟩
      have hnone' : ∀ entries, n' ≠ .dir entries := fun entries hn' => hdir (hsame.symm.exists_dir hn')
      rw [filesBelow_of_no_dir hat hnone, filesBelow_of_no_dir hat' hnone']

/-! ## 3. The modules of a root -/

/-- A file below a root that gives an identifier. -/
structure Provides (d : Disk) (root id file text : String) : Prop extends IsBelow d root file text where
  named : idOfPath? "/" root file = some id

/-- The modules of a root, in order of paths. -/
def rootModules (d : Disk) (root : String) : List Listed := (rootFiles d root).filterMap (ofFile? root)

/-- A module as it is found in a root: of the files that give its identifier the one with the least path
counts. -/
structure IsFoundIn (d : Disk) (root : String) (m : Listed) : Prop where
  provided : ∃ text, Provides d root m.id m.path text ∧ m.isConfig = isConfig text
  least : ∀ file text, Provides d root m.id file text → Text.unitsLe m.path file = true

theorem ofFile?_eq_some_iff {f : String × String} {m : Listed} :
    ofFile? root f = some m ↔ idOfPath? "/" root f.1 = some m.id ∧ m = ⟨m.id, f.1, isConfig f.2, none⟩ := by
  unfold ofFile?
  rw [Option.map_eq_some_iff]
  constructor
  · rintro ⟨id, hid, rfl⟩
    exact ⟨hid, rfl⟩
  · rintro ⟨hid, hm⟩
    exact ⟨m.id, hid, hm.symm⟩

/-- **The modules of a root** are the files below it that give identifiers. -/
theorem mem_rootModules (hd : d.Proper) (hroot : resolve "/" root = root) (h : Readable d root)
    {m : Listed} : m ∈ rootModules d root ↔
      ∃ text, Provides d root m.id m.path text ∧ m = ⟨m.id, m.path, isConfig text, none⟩ := by
  rw [rootModules, List.mem_filterMap]
  constructor
  · rintro ⟨⟨file, text⟩, hfile, hm⟩
    obtain ⟨hid, hm⟩ := ofFile?_eq_some_iff.mp hm
    obtain rfl : m.path = file := by rw [hm]
    exact ⟨text, ⟨(mem_rootFiles hd hroot h).mp hfile, hid⟩, hm⟩
  · rintro ⟨text, hprovides, hm⟩
    exact ⟨(m.path, text), (mem_rootFiles hd hroot h).mpr hprovides.toIsBelow,
      ofFile?_eq_some_iff.mpr ⟨hprovides.named, hm⟩⟩

/-- A file that gives an identifier is a module of the root. -/
theorem Provides.mem_rootModules (h : Provides d root id file text) (hd : d.Proper)
    (hroot : resolve "/" root = root) (hreadable : Readable d root) :
    ⟨id, file, isConfig text, none⟩ ∈ rootModules d root :=
  (Module.mem_rootModules hd hroot hreadable).mpr ⟨text, h, rfl⟩

theorem sorted_rootModules (d : Disk) (root : String) :
    (rootModules d root).Pairwise fun m n => Text.unitsLe m.path n.path = true := by
  refine (sorted_rootFiles d root).filterMap _ fun f g hle m hm n hn => ?_
  rw [(ofFile?_eq_some_iff.mp hm).2, (ofFile?_eq_some_iff.mp hn).2]
  exact hle

/-- No module of a root has an identifier that no file below it gives. -/
theorem find?_rootModules_eq_none_iff (hd : d.Proper) (hroot : resolve "/" root = root)
    (h : Readable d root) : (rootModules d root).find? (fun m => m.id == id) = none ↔
      ∀ file text, ¬ Provides d root id file text := by
  rw [List.find?_eq_none]
  constructor
  · intro hnone file text hprovides
    exact hnone _ (hprovides.mem_rootModules hd hroot h) (by simp)
  · intro hnone m hm hid
    obtain ⟨text, hprovides, -⟩ := (mem_rootModules hd hroot h).mp hm
    rw [beq_iff_eq.mp hid] at hprovides
    exact hnone _ _ hprovides

/-- **The first module of a root with an identifier** has the least path. -/
theorem isFoundIn_of_find? (hd : d.Proper) (hroot : resolve "/" root = root) (h : Readable d root)
    {m : Listed} (hfind : (rootModules d root).find? (fun n => n.id == m.id) = some m) :
    IsFoundIn d root m := by
  obtain ⟨-, before, after, hsplit, hbefore⟩ := List.find?_eq_some_iff_append.mp hfind
  obtain ⟨text, hprovides, hm⟩ := (mem_rootModules hd hroot h).mp (List.mem_of_find?_eq_some hfind)
  refine ⟨⟨text, hprovides, by rw [hm]⟩, fun file text' hprovides' => ?_⟩
  have hmem := hprovides'.mem_rootModules hd hroot h
  have hsorted := sorted_rootModules d root
  rw [hsplit] at hmem hsorted
  rcases List.mem_append.mp hmem with hmem | hmem
  · exact absurd (hbefore _ hmem) (by simp)
  · rcases List.mem_cons.mp hmem with heq | hmem
    · rw [← heq]
      simpa using Text.unitsLe_total file file
    · exact List.rel_of_pairwise_cons (List.pairwise_append.mp hsorted).2.1 hmem

/-! ## 4. All modules -/

/-- **Of several modules with one identifier the first is listed.** -/
theorem find?_foldl_addNew (id : String) (ms found : List Listed) :
    (ms.foldl addNew found).find? (fun m => m.id == id) = (found ++ ms).find? fun m => m.id == id := by
  induction ms generalizing found with
  | nil => rw [List.append_nil]; rfl
  | cons m rest ih =>
    rw [List.foldl_cons, ih]
    unfold addNew
    split
    · next hany =>
      obtain ⟨n, hn, hid⟩ := List.any_eq_true.mp hany
      rw [List.find?_append, List.find?_append, List.find?_cons]
      split
      · next hm =>
        -- the module passed over has the identifier, so one of those found so far has it
        have hsome : (found.find? fun m => m.id == id).isSome :=
          List.find?_isSome.mpr ⟨n, hn, by rw [beq_iff_eq.mp hid]; exact hm⟩
        obtain ⟨first, hfirst⟩ := Option.isSome_iff_exists.mp hsome
        rw [hfirst]
        rfl
      · rfl
    · rw [List.append_assoc]
      rfl

/-- The modules of several roots, the first of each identifier. -/
def modulesOf (d : Disk) (roots : List String) : List Listed :=
  (roots.flatMap (rootModules d)).foldl addNew []

/-- **The listed module with an identifier** is the first one of the first root that has one. -/
theorem find?_modulesOf (d : Disk) (roots : List String) (id : String) :
    (modulesOf d roots).find? (fun m => m.id == id)
      = roots.findSome? fun root => (rootModules d root).find? fun m => m.id == id := by
  rw [modulesOf, find?_foldl_addNew, List.nil_append, List.find?_flatMap]

theorem listBelow_of_readable {roots : List String} (h : ∀ root ∈ roots, Readable d root)
    (found : List Listed) :
    listBelow d found roots = .ok ((roots.flatMap (rootModules d)).foldl addNew found) := by
  induction roots generalizing found with
  | nil => rfl
  | cons root rest ih =>
    rw [listBelow, filesBelow_of_readable (h root List.mem_cons_self)]
    dsimp only
    rw [ih fun root hroot => h root (List.mem_cons_of_mem _ hroot), List.flatMap_cons, List.foldl_append]
    rfl

theorem list_of_readable {roots : List String} (h : ∀ root ∈ roots, Readable d root) :
    (Source.directories roots).list d = .ok (modulesOf d roots) := listBelow_of_readable h []

section Roots

variable {roots : List String} (hd : d.Proper) (hresolved : ∀ root ∈ roots, resolve "/" root = root)
  (h : ∀ root ∈ roots, Readable d root)
include hd hresolved h

/-- **The identifiers that are listed** are those that files below roots give. -/
theorem mem_ids_modulesOf :
    id ∈ (modulesOf d roots).map (·.id) ↔ ∃ root ∈ roots, ∃ file text, Provides d root id file text := by
  constructor
  · intro hid
    obtain ⟨m, hm, rfl⟩ := List.mem_map.mp hid
    have hfirst := find?_of_mem (nodup_list (list_of_readable h)) hm
    rw [find?_modulesOf] at hfirst
    obtain ⟨root, hroot, hmodule⟩ := List.exists_of_findSome?_eq_some hfirst
    obtain ⟨text, hprovides, -⟩ := (mem_rootModules hd (hresolved root hroot) (h root hroot)).mp
      (List.mem_of_find?_eq_some hmodule)
    exact ⟨root, hroot, m.path, text, hprovides⟩
  · rintro ⟨root, hroot, file, text, hprovides⟩
    cases hsome : (modulesOf d roots).find? (fun m => m.id == id) with
    | some m =>
      obtain rfl : m.id = id := by simpa using List.find?_some hsome
      exact List.mem_map_of_mem (List.mem_of_find?_eq_some hsome)
    | none =>
      rw [find?_modulesOf, List.findSome?_eq_none_iff] at hsome
      have hnone := (find?_rootModules_eq_none_iff hd (hresolved root hroot) (h root hroot)).mp
        (hsome root hroot)
      exact absurd hprovides (hnone file text)

/-- **Every listed module** is found in the first root that has a file for its identifier. -/
theorem isFoundIn_of_mem_modulesOf {m : Listed} (hm : m ∈ modulesOf d roots) :
    ∃ before root after, roots = before ++ root :: after ∧
      (∀ root' ∈ before, ∀ file text, ¬ Provides d root' m.id file text) ∧ IsFoundIn d root m := by
  have hfirst := find?_of_mem (nodup_list (list_of_readable h)) hm
  rw [find?_modulesOf] at hfirst
  obtain ⟨before, root, after, hsplit, hmodule, hbefore⟩ := List.findSome?_eq_some_iff.mp hfirst
  have hroot : root ∈ roots := by
    rw [hsplit]
    exact List.mem_append_right _ List.mem_cons_self
  refine ⟨before, root, after, hsplit, fun root' hroot' => ?_,
    isFoundIn_of_find? hd (hresolved root hroot) (h root hroot) hmodule⟩
  have hroot'' : root' ∈ roots := by
    rw [hsplit]
    exact List.mem_append_left _ hroot'
  exact (find?_rootModules_eq_none_iff hd (hresolved root' hroot'') (h root' hroot'')).mp
    (hbefore root' hroot')

end Roots

/-- **There is no listing** if and only if some root is, or lies below, a file. -/
theorem list_fails_iff {roots : List String} :
    (∃ f, (Source.directories roots).list d = .error f) ↔ ∃ root ∈ roots, ¬ Readable d root := by
  constructor
  · rintro ⟨f, hf⟩
    by_contra hall
    have hreadable : ∀ root ∈ roots, Readable d root := by simpa using hall
    rw [list_of_readable hreadable] at hf
    cases hf
  · have hbelow : ∀ (roots : List String) (found : List Listed), (∃ root ∈ roots, ¬ Readable d root) →
        ∃ f, listBelow d found roots = .error f := by
      intro roots
      induction roots with
      | nil => simp
      | cons first rest ih =>
        intro found hexists
        rw [listBelow]
        split
        · exact ⟨_, rfl⟩
        · next files hfiles =>
          refine ih _ ?_
          obtain ⟨root, hmem, hroot⟩ := hexists
          rcases List.mem_cons.mp hmem with rfl | hmem
          · obtain ⟨f, hf⟩ := filesBelow_of_not_readable hroot
            cases hfiles.symm.trans hf
          · exact ⟨root, hmem, hroot⟩
    exact hbelow roots []

theorem list_reordered (hd : d.Proper) (h : d.root.Reordered d'.root) {roots : List String}
    (hroots : ∀ root ∈ roots, resolve "/" root = root) :
    (Source.directories roots).list d' = (Source.directories roots).list d := by
  have hbelow : ∀ found : List Listed, listBelow d' found roots = listBelow d found roots := by
    induction roots with
    | nil => exact fun _ => rfl
    | cons root rest ih =>
      intro found
      rw [listBelow, listBelow, filesBelow_reordered hd h (hroots root List.mem_cons_self)]
      split
      · rfl
      · exact ih (fun root hroot => hroots root (List.mem_cons_of_mem _ hroot)) _
  exact hbelow []

/-- **Discovery is complete and orderly.**  Below directories, of which some may be missing, however they
are spelled:

* no identifier is listed twice;
* an identifier is listed if and only if some root has a file that gives it;
* the listed file is, in the first root that has one, the one with the least path by 16-bit units, and
  whether it is a config module is told from its text;
* the listing does not depend on the order in which directories have their entries. -/
theorem discovery_is_complete_and_orderly {d : Disk} (hd : d.Proper) (base : String) (dirs : List String) :
    let roots := dirs.map (resolve base)
    (∀ root ∈ roots, Readable d root) →
    ∃ all, (Source.directories roots).list d = .ok all ∧
      (all.map (·.id)).Nodup ∧
      (∀ id, id ∈ all.map (·.id) ↔ ∃ root ∈ roots, ∃ file text, Provides d root id file text) ∧
      (∀ m ∈ all, ∃ before root after, roots = before ++ root :: after ∧
        (∀ root' ∈ before, ∀ file text, ¬ Provides d root' m.id file text) ∧ IsFoundIn d root m) ∧
      ∀ d' : Disk, d.root.Reordered d'.root → (Source.directories roots).list d' = .ok all := by
  intro roots hreadable
  have hresolved : ∀ root ∈ roots, resolve "/" root = root := by
    intro root hroot
    obtain ⟨dir, -, rfl⟩ := List.mem_map.mp hroot
    exact resolve_ofComponents "/" fun c hc => isName_of_resolved hc
  have hlist := list_of_readable hreadable
  exact ⟨modulesOf d roots, hlist, nodup_list hlist,
    fun id => mem_ids_modulesOf hd hresolved hreadable,
    fun m hm => isFoundIn_of_mem_modulesOf hd hresolved hreadable hm,
    fun d' hd' => (list_reordered hd hd' hresolved).trans hlist⟩

/-- Two roots with twins: `a` in both extensions in the first and again in the second, `b.c` in the second
only, and a file and a link that are passed over. -/
def twinDisk : Disk :=
  (((((Disk.empty.write "/one/a.js" "'use config';\n").write "/one/a.cjs" "").write "/two/a.cjs" "").write
    "/two/b/c.js" "").write "/two/node_modules/d.js" "").makeLink "/two/e.js" (.link (.file ""))

/-- The same tree with the entries of the first root the other way round. -/
def turnedDisk : Disk := ⟨.dir [("one", .dir [("a.cjs", .file ""), ("a.js", .file "'use config';\n")]),
  ("two", .dir [("a.cjs", .file ""), ("b", .dir [("c.js", .file "")]),
    ("node_modules", .dir [("d.js", .file "")]), ("e.js", .link (.file ""))])]⟩

theorem reordered_turnedDisk : twinDisk.root.Reordered turnedDisk.root := by
  have hfirst : Disk.steps "/one/a.js" = ["one", "a.js"] := by decide +kernel
  have htwin : Disk.steps "/one/a.cjs" = ["one", "a.cjs"] := by decide +kernel
  have hagain : Disk.steps "/two/a.cjs" = ["two", "a.cjs"] := by decide +kernel
  have hother : Disk.steps "/two/b/c.js" = ["two", "b", "c.js"] := by decide +kernel
  have hpassed : Disk.steps "/two/node_modules/d.js" = ["two", "node_modules", "d.js"] := by decide +kernel
  have hlink : Disk.steps "/two/e.js" = ["two", "e.js"] := by decide +kernel
  rw [twinDisk, Disk.makeLink, Disk.write, Disk.write, Disk.write, Disk.write, Disk.write, hfirst, htwin,
    hagain, hother, hpassed, hlink]
  exact @Node.Reordered.inside [] _ _ _ _ (.entries (.swap _ _ _))

/-- Files that are met in order need no sorting. -/
theorem filesBelow_of_sorted {entries : List (String × Node)} (hat : d.at? root = .ok (.dir entries))
    (hsorted : (filesOfEntries root entries).Pairwise fun f g => pathLe f g = true) :
    filesBelow d root = .ok (filesOfEntries root entries) := by
  rw [filesBelow, hat]
  exact congrArg Except.ok (List.mergeSort_of_pairwise hsorted)

/-- Two modules are listed, with a missing root between the two roots, and in both orders of entries. -/
theorem twins_are_listed_once :
    twinDisk.Proper ∧ twinDisk.root.Reordered turnedDisk.root ∧
      ∃ all, (Source.directories (["one", "none", "/two/."].map (resolve "/"))).list twinDisk = .ok all ∧
        (Source.directories (["one", "none", "/two/."].map (resolve "/"))).list turnedDisk = .ok all ∧
        all.map (fun m => (m.id, m.path)) = [("a", "/one/a.cjs"), ("b.c", "/two/b/c.js")] := by
  have hproper : twinDisk.Proper :=
    (((((Disk.proper_empty.write _ _).write _ _).write _ _).write _ _).write _ _).makeLink _
      (.link (.file ""))
  have hturned : turnedDisk.Proper := reordered_turnedDisk.proper hproper
  have hone : turnedDisk.at? "/one"
      = .ok (.dir [("a.cjs", .file ""), ("a.js", .file "'use config';\n")]) := by
    rw [Disk.at?, show Disk.steps "/one" = ["one"] by decide +kernel]
    rfl
  have hnone : turnedDisk.at? "/none" = .error .absent := by
    rw [Disk.at?, show Disk.steps "/none" = ["none"] by decide +kernel]
    rfl
  have htwo : turnedDisk.at? "/two" = .ok (.dir [("a.cjs", .file ""), ("b", .dir [("c.js", .file "")]),
      ("node_modules", .dir [("d.js", .file "")]), ("e.js", .link (.file ""))]) := by
    rw [Disk.at?, show Disk.steps "/two" = ["two"] by decide +kernel]
    rfl
  have hroots : ["one", "none", "/two/."].map (resolve "/") = ["/one", "/none", "/two"] := by decide +kernel
  have hreadable : ∀ root ∈ ["one", "none", "/two/."].map (resolve "/"), Readable turnedDisk root := by
    rw [hroots]
    intro root hroot
    rcases List.mem_cons.mp hroot with rfl | hroot
    · exact .inl ⟨_, hone⟩
    rcases List.mem_cons.mp hroot with rfl | hroot
    · exact .inr hnone
    obtain rfl := List.mem_singleton.mp hroot
    exact .inl ⟨_, htwo⟩
  obtain ⟨all, hlist, -, -, -, hsame⟩ :=
    discovery_is_complete_and_orderly hturned "/" ["one", "none", "/two/."] hreadable
  refine ⟨hproper, reordered_turnedDisk, all, hsame _ reordered_turnedDisk.symm, hlist, ?_⟩
  -- in the turned tree the files are met in order, so there the listing can be computed
  have hbelow : filesBelow turnedDisk "/none" = .ok [] := by rw [filesBelow, hnone]
  rw [hroots, Source.list, listBelow, filesBelow_of_sorted hone (by decide +kernel)] at hlist
  dsimp only at hlist
  rw [listBelow, hbelow] at hlist
  dsimp only at hlist
  rw [listBelow, filesBelow_of_sorted htwo (by decide +kernel)] at hlist
  obtain rfl := Except.ok.inj hlist
  decide +kernel

end ConfGraph.Module
