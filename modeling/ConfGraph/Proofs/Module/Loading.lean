import Mathlib.Data.List.Nodup
import ConfGraph.Proofs.Module.Ledger

/-!
# Loads

A load forgets all config modules, and the libraries that have become config modules; then it evaluates
its module by the listing as it is.  A load that is refused changes nothing.

* `exec_unload`, `exec_unloadAll`: what forgetting modules comes to.
* `load_of_refused`, `exec_load_of_passed`, `load_records`: a load that is refused, and one that is not.
* `nodup_list`: no listing below directories has a module twice.
* `list_flatDisk`: the listing of modules in one directory.
-/

namespace ConfGraph.Module

open Script

/-! ## 1. Forgetting -/

theorem Cache.has_iff {c : Cache} {id : String} : c.has id = true ↔ id ∈ c.ids := by
  unfold Cache.has Cache.ids
  rw [List.lookup_isSome_iff, List.mem_map]
  constructor
  · rintro ⟨p, hp, hid⟩
    exact ⟨p, hp, (beq_iff_eq.mp hid).symm⟩
  · rintro ⟨p, hp, hid⟩
    exact ⟨p, hp, beq_iff_eq.mpr hid.symm⟩

theorem Cache.mem_forget {c : Cache} {id : String} {p : String × CellId} :
    p ∈ c.forget id ↔ p ∈ c ∧ p.1 ≠ id := by
  simp [Cache.forget]

theorem Cache.forget_of_not_has {c : Cache} {id : String} (h : id ∉ c.ids) : c.forget id = c :=
  List.filter_eq_self.mpr fun _ hp => bne_iff_ne.mpr fun hid => h (hid ▸ List.mem_map_of_mem hp)

/-- No module is remembered as a config module and as a library. -/
def State.Apart (s : State) : Prop := ∀ id ∈ s.loaded.ids, id ∉ s.libraries.ids

/-- A state in which other modules are remembered, and other events have been noted. -/
def State.remembering (s : State) (loaded libraries : Cache) (events : List Log.Event) : State :=
  { s with session := { s.session with events }, loaded, libraries }

/-- **What forgetting a module comes to**: it goes from the config modules, and from the libraries only
if it is no config module. -/
theorem exec_unload (id : String) (c : Context) (s : State) :
    ∃ b events, (unload id).exec c s = (.ok b, s.remembering (s.loaded.forget id)
      (if s.loaded.has id then s.libraries else s.libraries.forget id) events) := by
  have hstate : (Act.state : Act State State).exec c s = (.ok s, s) := rfl
  unfold unload
  rw [Act.exec_bind_of_ok hstate]
  by_cases hloaded : s.loaded.has id = true
  · rw [if_pos hloaded, if_pos hloaded]
    exact ⟨true, _, rfl⟩
  · have hforget : s.loaded.forget id = s.loaded :=
      Cache.forget_of_not_has fun h => hloaded (Cache.has_iff.mpr h)
    rw [if_neg hloaded, if_neg hloaded, hforget]
    by_cases hlibraries : s.libraries.has id = true
    · rw [if_pos hlibraries]
      exact ⟨true, _, rfl⟩
    · rw [if_neg hlibraries,
        Cache.forget_of_not_has fun h => hlibraries (Cache.has_iff.mpr h)]
      exact ⟨false, _, rfl⟩

/-- Where no module is remembered twice, it is then not remembered at all. -/
theorem exec_unload_of_apart {s : State} (hs : s.Apart) (id : String) (c : Context) :
    ∃ b events, (unload id).exec c s
      = (.ok b, s.remembering (s.loaded.forget id) (s.libraries.forget id) events) := by
  obtain ⟨b, events, hexec⟩ := exec_unload id c s
  refine ⟨b, events, ?_⟩
  rw [hexec]
  split
  · next hloaded => rw [Cache.forget_of_not_has (hs id (Cache.has_iff.mp hloaded))]
  · rfl

/-- What is remembered of other modules than some. -/
def Cache.without (c : Cache) (ids : List String) : Cache := c.filter fun p => !ids.contains p.1

theorem Cache.mem_without {c : Cache} {ids : List String} {p : String × CellId} :
    p ∈ c.without ids ↔ p ∈ c ∧ p.1 ∉ ids := by
  simp [Cache.without]

theorem Cache.forget_without (c : Cache) (id : String) (ids : List String) :
    (c.forget id).without ids = c.without (id :: ids) := by
  unfold Cache.without Cache.forget
  rw [List.filter_filter]
  refine List.filter_congr fun p _ => ?_
  rw [List.contains_cons, Bool.not_or, Bool.and_comm]
  rfl

theorem State.Apart.forget {s : State} (hs : s.Apart) (id : String) (events : List Log.Event) :
    (s.remembering (s.loaded.forget id) (s.libraries.forget id) events).Apart := by
  intro id' hid' hmem
  obtain ⟨p, hp, rfl⟩ := List.mem_map.mp hid'
  obtain ⟨q, hq, hid⟩ := List.mem_map.mp hmem
  refine hs p.1 (List.mem_map_of_mem (Cache.mem_forget.mp hp).1) ?_
  rw [← hid]
  exact List.mem_map_of_mem (Cache.mem_forget.mp hq).1

/-- **What forgetting several modules comes to.** -/
theorem exec_unloadAll (c : Context) : ∀ (ids : List String) (s : State),
    ∃ libraries events,
      (unloadAll ids).exec c s = (.ok (), s.remembering (s.loaded.without ids) libraries events) ∧
        (s.Apart → libraries = s.libraries.without ids)
  | [], s => by
    have hall : ∀ c : Cache, c.without [] = c := fun c => List.filter_eq_self.mpr fun _ _ => rfl
    refine ⟨s.libraries, s.session.events, ?_, fun _ => (hall _).symm⟩
    rw [hall]
    rfl
  | id :: rest, s => by
    obtain ⟨b, events, hfirst⟩ := exec_unload id c s
    obtain ⟨libraries, events', hrest, hlibraries⟩ := exec_unloadAll c rest
      (s.remembering (s.loaded.forget id)
        (if s.loaded.has id then s.libraries else s.libraries.forget id) events)
    refine ⟨libraries, events', ?_, fun hs => ?_⟩
    · show (unload id >>= fun _ => unloadAll rest).exec c s = _
      rw [Act.exec_bind_of_ok hfirst, hrest, ← Cache.forget_without]
      rfl
    · obtain ⟨b', events'', hforget⟩ := exec_unload_of_apart hs id c
      have hsame := (Prod.mk.inj (hfirst.symm.trans hforget)).2
      have hapart := hs.forget id events''
      rw [← hsame] at hapart
      rw [hlibraries hapart, ← Cache.forget_without]
      exact congrArg (Cache.without · rest) (congrArg State.libraries hsame)

/-! ## 2. One load -/

/-- The first check of a load that is not passed, or the listing itself, refuses it. -/
def Refused (listing : Except Fault (List Listed)) (id : String) : Prop :=
  ∀ all m, listing = .ok all → all.find? (fun m => m.id == id) = some m → m.isConfig = false

/-- **A load that is refused** changes nothing. -/
theorem load_of_refused {d : Disk} {globals : Fields Global} {listing : Except Fault (List Listed)}
    {id : String} (h : Refused listing id) (c : Context) (s : State) :
    ((load d globals listing id).exec c s).2 = s := by
  unfold load loadOver
  cases listing with
  | error f => rfl
  | ok all =>
    have hlisting : (Act.ofExcept (.ok all) : Act State (List Listed)).exec c s = (.ok all, s) := rfl
    rw [Act.exec_bind_of_ok hlisting]
    cases hfind : all.find? (fun m => m.id == id) with
    | none => rfl
    | some m =>
      dsimp only
      rw [if_neg (by simp [h all m rfl hfind])]
      rfl

theorem passed_of_not_refused {listing : Except Fault (List Listed)} {id : String}
    (h : ¬ Refused listing id) :
    ∃ all m, listing = .ok all ∧ all.find? (fun m => m.id == id) = some m ∧ m.isConfig = true := by
  simp only [Refused, not_forall] at h
  obtain ⟨all, m, hlist, hfind, hm⟩ := h
  exact ⟨all, m, hlist, hfind, by simpa using hm⟩

theorem mem_distinct {ids : List String} {id : String} : id ∈ distinct ids ↔ id ∈ ids := by
  have hfold : ∀ (ids done : List String),
      id ∈ ids.foldl (fun done id => if done.contains id then done else done ++ [id]) done ↔
        id ∈ done ∨ id ∈ ids := by
    intro ids
    induction ids with
    | nil => simp
    | cons first rest ih =>
      intro done
      rw [List.foldl_cons, ih]
      by_cases hmem : done.contains first
      · rw [if_pos hmem]
        have hfirst : first ∈ done := List.contains_iff_mem.mp hmem
        constructor
        · rintro (h | h)
          · exact .inl h
          · exact .inr (List.mem_cons_of_mem _ h)
        · rintro (h | h)
          · exact .inl h
          · rcases List.mem_cons.mp h with rfl | h
            · exact .inl hfirst
            · exact .inr h
      · rw [if_neg hmem]
        simp [or_assoc]
  simpa [distinct] using hfold ids []

theorem mem_configIds {s : State} {all : List Listed} {id : String} :
    id ∈ configIds s all ↔ id ∈ s.loaded.ids ∨ ∃ m ∈ all, m.isConfig = true ∧ m.id = id := by
  unfold configIds
  rw [mem_distinct, List.mem_append]
  simp [and_assoc]

/-- **A load that is not refused** evaluates its module where no config modules are remembered, nor
libraries that have become config modules. -/
theorem exec_load_of_passed (d : Disk) (globals : Fields Global) {all : List Listed} {id : String}
    {m : Listed} (hfind : all.find? (fun m => m.id == id) = some m) (hm : m.isConfig = true)
    (c : Context) (s : State) :
    ∃ libraries events s₀,
      s₀ = { s.remembering [] libraries events with listings := s.listings ++ [all] } ∧
      (s.Apart → libraries = s.libraries.without (configIds s all)) ∧
      (load d globals (.ok all) id).exec c s
        = (evaluateModule (requireWithin d globals (s₀.depth d)) d globals s.listings.length m).exec
            c s₀ := by
  obtain ⟨libraries, events, hunloaded, hlibraries⟩ := exec_unloadAll c (configIds s all) s
  have hnone : s.loaded.without (configIds s all) = [] := by
    refine List.filter_eq_nil_iff.mpr fun p hp => ?_
    have hmem : p.1 ∈ configIds s all := mem_configIds.mpr (.inl (List.mem_map_of_mem hp))
    simp [hmem]
  rw [hnone] at hunloaded
  refine ⟨libraries, events ++ [.modulesReset id (configIds s all).length], _, rfl, hlibraries, ?_⟩
  have hlisting : (Act.ofExcept (.ok all) : Act State (List Listed)).exec c s = (.ok all, s) := rfl
  have hstate : (Act.state : Act State State).exec c s = (.ok s, s) := rfl
  unfold load loadOver
  rw [Act.exec_bind_of_ok hlisting]
  dsimp only
  rw [hfind]
  dsimp only
  rw [if_pos hm, Act.exec_bind_of_ok hstate, Act.exec_bind_of_ok hunloaded]
  rfl

/-- **What the journal says of a load** that is not refused. -/
theorem load_records (d : Disk) (globals : Fields Global) {all : List Listed} {id : String} {m : Listed}
    (hfind : all.find? (fun m => m.id == id) = some m) (hm : m.isConfig = true) (c : Context)
    (s : State) :
    ∃ s₀ new, s₀.loaded = [] ∧ s₀.journal = s.journal ∧
      (s.Apart → s₀.libraries = s.libraries.without (configIds s all)) ∧
      Records s₀ new ((load d globals (.ok all) id).exec c s).2 := by
  obtain ⟨libraries, events, s₀, hs₀, hlibraries, hexec⟩ :=
    exec_load_of_passed d globals hfind hm c s
  obtain ⟨-, new, hrecords⟩ := keepsLedger_evaluateModule
    (keepsLedger_requireWithin d globals (s₀.depth d)) d globals s.listings.length m c s₀
    (Heap.only_of_forall (fun _ => trivial) _)
  rw [← hexec] at hrecords
  exact ⟨s₀, new, by rw [hs₀]; rfl, by rw [hs₀]; rfl, by rw [hs₀]; exact hlibraries, hrecords⟩

/-! ## 3. Listings -/

theorem nodup_addNew {found : List Listed} (h : (found.map (·.id)).Nodup) (m : Listed) :
    ((addNew found m).map (·.id)).Nodup := by
  unfold addNew
  split
  · exact h
  · next hnew =>
    rw [List.map_append, List.nodup_append]
    refine ⟨h, by simp, fun id hid id' hid' => ?_⟩
    obtain ⟨n, hn, rfl⟩ := List.mem_map.mp hid
    obtain rfl := List.mem_singleton.mp hid'
    rintro heq
    exact hnew (List.any_eq_true.mpr ⟨n, hn, by simp [heq]⟩)

/-- **No listing below directories has a module twice.** -/
theorem nodup_list {d : Disk} {roots : List String} {all : List Listed}
    (h : (Source.directories roots).list d = .ok all) : (all.map (·.id)).Nodup := by
  have hfold : ∀ (files found : List Listed), (found.map (·.id)).Nodup →
      ((files.foldl addNew found).map (·.id)).Nodup := by
    intro files
    induction files with
    | nil => exact fun _ h => h
    | cons m rest ih => exact fun found h => ih _ (nodup_addNew h m)
  have hbelow : ∀ (roots : List String) (found all : List Listed), (found.map (·.id)).Nodup →
      listBelow d found roots = .ok all → (all.map (·.id)).Nodup := by
    intro roots
    induction roots with
    | nil =>
      intro found all hfound hall
      obtain rfl := Except.ok.inj hall
      exact hfound
    | cons root rest ih =>
      intro found all hfound hall
      unfold listBelow at hall
      split at hall
      · exact nomatch hall
      · exact ih _ _ (hfold _ _ hfound) hall
  exact hbelow roots [] all List.nodup_nil h

/-! ## 4. Modules in one directory -/

/-- The path of a module in the root. -/
def rootPath (name : String) : String := Path.child "/" (name ++ ".js")

/-- A file tree with modules in its root, by names and texts. -/
def flatDisk (files : List (String × String)) : Disk :=
  ⟨.dir (files.map fun f => (f.1 ++ ".js", .file f.2))⟩

/-- The listing of such modules. -/
def flatListing (files : List (String × String)) : List Listed :=
  files.map fun f => ⟨f.1, rootPath f.1, isConfig f.2, none⟩

/-- A module in the root is found under its name. -/
def FoundAs (name : String) : Prop :=
  idOfPath? "/" "/" (rootPath name) = some name ∧ isPassedOver (name ++ ".js") = false

instance (name : String) : Decidable (FoundAs name) := inferInstanceAs (Decidable (_ ∧ _))

/-- Names of modules, in order, under which they are found. -/
def InOrder (names : List String) : Prop :=
  (∀ n ∈ names, FoundAs n) ∧
    names.Pairwise (fun m n => Text.unitsLe (rootPath m) (rootPath n) = true) ∧ names.Nodup

instance (names : List String) : Decidable (InOrder names) := inferInstanceAs (Decidable (_ ∧ _ ∧ _))

theorem foldl_addNew : ∀ (ms found : List Listed), ((found ++ ms).map (·.id)).Nodup →
    ms.foldl addNew found = found ++ ms
  | [], found, _ => by simp
  | m :: rest, found, h => by
    have hnew : ¬ found.any (fun n => n.id == m.id) = true := by
      intro hany
      obtain ⟨n, hn, hid⟩ := List.any_eq_true.mp hany
      rw [List.map_append, List.nodup_append] at h
      exact h.2.2 n.id (List.mem_map_of_mem hn) m.id (by simp) (beq_iff_eq.mp hid)
    have hadd : addNew found m = found ++ [m] := by
      unfold addNew
      rw [if_neg hnew]
    rw [List.foldl_cons, hadd, foldl_addNew rest (found ++ [m]) (by simpa using h)]
    simp

/-- The files in the root, and the modules that they are. -/
theorem filesOfEntries_flat : ∀ files : List (String × String), (∀ f ∈ files, FoundAs f.1) →
    filesOfEntries "/" (files.map fun f => (f.1 ++ ".js", Node.file f.2))
        = files.map (fun f => (rootPath f.1, f.2)) ∧
      (files.map fun f => (rootPath f.1, f.2)).filterMap (ofFile? "/") = flatListing files
  | [], _ => ⟨by simp [filesOfEntries], rfl⟩
  | f :: rest, h => by
    obtain ⟨hid, hpassed⟩ := h f List.mem_cons_self
    obtain ⟨hfiles, hlisted⟩ := filesOfEntries_flat rest fun g hg => h g (List.mem_cons_of_mem _ hg)
    refine ⟨by simp [filesOfEntries, filesOf, hpassed, hfiles, rootPath], ?_⟩
    have hself : ofFile? "/" (rootPath f.1, f.2)
        = some ⟨f.1, rootPath f.1, isConfig f.2, none⟩ := by simp [ofFile?, hid]
    rw [List.map_cons, List.filterMap_cons_some hself, hlisted]
    rfl

/-- **Modules in the root are listed in order.** -/
theorem list_flatDisk {files : List (String × String)} (h : InOrder (files.map (·.1))) :
    (Source.directories ["/"]).list (flatDisk files) = .ok (flatListing files) := by
  obtain ⟨hnames, hsorted, hnodup⟩ := h
  obtain ⟨hentries, hlisted⟩ :=
    filesOfEntries_flat files fun f hf => hnames f.1 (List.mem_map_of_mem hf)
  have hsort : (files.map fun f => (rootPath f.1, f.2)).mergeSort pathLe
      = files.map fun f => (rootPath f.1, f.2) := by
    refine List.mergeSort_of_pairwise ?_
    rw [List.pairwise_map] at hsorted ⊢
    exact hsorted
  have hids : (flatListing files).map (·.id) = files.map (·.1) := by simp [flatListing]
  have hroot : (flatDisk files).at? "/" = .ok (flatDisk files).root := rfl
  have hbelow : filesBelow (flatDisk files) "/" = .ok (files.map fun f => (rootPath f.1, f.2)) := by
    rw [filesBelow, hroot]
    simp only [flatDisk, hentries, hsort]
  unfold Source.list listBelow
  dsimp only
  rw [hbelow]
  dsimp only
  rw [hlisted, foldl_addNew _ [] (by rw [List.nil_append, hids]; exact hnodup)]
  rfl

/-- The text of a config module that requires another module. -/
def requiringText : String := "'use config';\n@\x7b\"call\":\"require\",\"args\":[\"l\"]\x7d\n"

/-- The text of a config module that does nothing. -/
def configText : String := "'use config';\n"

/-- A config module `m` and the module `l` that it requires, with a text of its own. -/
def pairFiles (text : String) : List (String × String) := [("l", text), ("m", requiringText)]

/-- The two modules as files. -/
def pairDisk (text : String) : Disk := flatDisk (pairFiles text)

/-- The two modules as they are listed. -/
def pairListing (text : String) : List Listed := flatListing (pairFiles text)

theorem inOrder_pairFiles (text : String) : InOrder ((pairFiles text).map (·.1)) := by
  have hnames : InOrder ["l", "m"] := by decide +kernel
  exact hnames

theorem list_pairDisk (text : String) :
    (Source.directories ["/"]).list (pairDisk text) = .ok (pairListing text) :=
  list_flatDisk (inOrder_pairFiles text)

end ConfGraph.Module
