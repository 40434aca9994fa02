import ConfGraph.Disk
import ConfGraph.Proofs.Disk.Resolved
import ConfGraph.Proofs.Value.Fields

/-!
# Trees as file systems have them

In a file tree the entries of a directory have names, and no two the same.  Every tree that is made by
writing, making directories and links and removing is of this kind.  In which order a directory has its
entries is not seen by anybody who goes by paths.

* `Node.own?`: what a path leads to without links on the way.
* `Node.Proper`, `Disk.Proper`: such trees; `Disk.Proper.write`, `Disk.Proper.makeDir`,
  `Disk.Proper.makeLink`, `Disk.Proper.remove`: they stay such trees.
* `Node.Reordered`: the same tree with its entries in another order; `Node.Reordered.found`: the same is
  found in it under every path.
-/

namespace ConfGraph

namespace Node

variable {n n' m : Node} {entries entries' : List (String × Node)} {cs : List String}

/-! ## 1. Links -/

@[simp] theorem target_target : ∀ n : Node, n.target.target = n.target
  | .link n => target_target n
  | .file _ | .dir _ | .lost => rfl

/-- A path goes through links. -/
theorem at?_target (n : Node) (cs : List String) : n.target.at? cs = n.at? cs := by
  cases cs with
  | nil => rw [at?, at?, target_target]
  | cons c rest => rw [at?, at?, target_target]

@[simp] theorem at?_link (n : Node) (cs : List String) : (link n).at? cs = n.at? cs := by
  rw [← at?_target n, ← at?_target (link n), target]

@[simp] theorem at?_lost (cs : List String) : lost.at? cs = .error .absent := by
  cases cs <;> rfl

theorem at?_dir_cons (entries : List (String × Node)) (c : String) (rest : List String) :
    (dir entries).at? (c :: rest) = match entries.lookup c with
      | none => .error .absent
      | some n => n.at? rest := rfl

/-- Going down a path in two stretches. -/
theorem at?_append (n : Node) (rs cs : List String) :
    n.at? (rs ++ cs) = (n.at? rs).bind fun m => m.at? cs := by
  induction rs generalizing n with
  | nil =>
    rw [List.nil_append, ← at?_target n cs, at?]
    split
    · next hlost =>
      rw [hlost, at?_lost]
      rfl
    · rfl
  | cons c rest ih =>
    rw [List.cons_append, at?, at?]
    split
    · split
      · rfl
      · exact ih _
    · rfl
    · rfl

/-- What a path leads to that goes through no link. -/
def own? : Node → List String → Option Node
  | n, [] => some n
  | .dir entries, c :: rest => (entries.lookup c).bind fun n => n.own? rest
  | _, _ :: _ => none

/-- A path that goes through no link leads to the same. -/
theorem at?_of_own? {text : String} (h : n.own? cs = some (.file text)) : n.at? cs = .ok (.file text) := by
  induction cs generalizing n with
  | nil =>
    obtain rfl := Option.some.inj h
    rfl
  | cons c rest ih =>
    cases n with
    | dir entries =>
      obtain ⟨m, hm, hrest⟩ := Option.bind_eq_some_iff.mp h
      rw [at?_dir_cons, hm]
      exact ih hrest
    | file own => cases h
    | link n => cases h
    | lost => cases h

/-! ## 2. Proper trees -/

/-- The entries of every directory have names, and different ones. -/
inductive Proper : Node → Prop where
  | file (text : String) : Proper (.file text)
  | dir {entries : List (String × Node)} (hnodup : (Fields.names entries).Nodup)
      (hnames : ∀ e ∈ entries, Path.IsName e.1) (hnodes : ∀ e ∈ entries, Proper e.2) :
      Proper (.dir entries)
  | link {n : Node} (h : Proper n) : Proper (.link n)
  | lost : Proper .lost

theorem Proper.target (hn : n.Proper) : n.target.Proper := by
  induction hn with
  | file text => exact .file text
  | dir hnodup hnames hnodes => exact .dir hnodup hnames hnodes
  | link _ ih => exact ih
  | lost => exact .lost

theorem Proper.retarget (hn : n.Proper) (hm : m.Proper) : (n.retarget m).Proper := by
  induction hn with
  | link _ ih => exact .link ih
  | _ => exact hm

/-- What is in a proper directory is proper, and has a name. -/
theorem Proper.entry (h : Proper (.dir entries)) {name : String} (hn : entries.lookup name = some n) :
    n.Proper ∧ Path.IsName name := by
  obtain _ | ⟨-, hnames, hnodes⟩ := h
  have hmem : (name, n) ∈ entries := Fields.mem_of_get? hn
  exact ⟨hnodes _ hmem, hnames _ hmem⟩

/-- **What a path leads to** is proper, and the path is made of names. -/
theorem Proper.found (hn : n.Proper) (h : n.at? cs = .ok m) : m.Proper ∧ ∀ c ∈ cs, Path.IsName c := by
  induction cs generalizing n with
  | nil =>
    rw [at?] at h
    split at h
    · cases h
    · obtain rfl := Except.ok.inj h
      exact ⟨hn.target, List.forall_mem_nil _⟩
  | cons c rest ih =>
    rw [at?] at h
    split at h
    · next entries hdir =>
      split at h
      · cases h
      · next n' hn' =>
        obtain ⟨hproper, hname⟩ := (hdir ▸ hn.target).entry hn'
        obtain ⟨hm, hrest⟩ := ih hproper h
        exact ⟨hm, List.forall_mem_cons.mpr ⟨hname, hrest⟩⟩
    · cases h
    · cases h

/-- A proper directory with an entry put into it. -/
theorem Proper.putEntry (h : Proper (.dir entries)) {name : String} (hname : Path.IsName name)
    (hn : n.Proper) : Proper (.dir (Fields.put entries name n)) := by
  obtain _ | ⟨hnodup, hnames, hnodes⟩ := h
  refine .dir (Fields.nodup_put hnodup name n) (fun e he => ?_) fun e he => ?_
  · rcases Fields.mem_put he with rfl | ⟨he, -⟩
    · exact hname
    · exact hnames e he
  · rcases Fields.mem_put he with rfl | ⟨he, -⟩
    · exact hn
    · exact hnodes e he

theorem Proper.single {name : String} (hname : Path.IsName name) (hn : n.Proper) :
    Proper (.dir [(name, n)]) :=
  .dir (List.nodup_singleton name) (by simpa using hname) (by simpa using hn)

theorem Proper.put {new : Node} (hnew : new.Proper) {at' : Option Node} (hat : ∀ n ∈ at', n.Proper)
    (h : ∀ c ∈ cs, Path.IsName c) : (Node.put new cs at').Proper := by
  induction cs generalizing at' with
  | nil =>
    cases at' with
    | none => exact hnew
    | some n =>
      have hn := hat n rfl
      refine hn.retarget ?_
      split
      · next hdir => exact hdir ▸ hn.target
      · exact hnew
  | cons c rest ih =>
    obtain ⟨hc, hrest⟩ := List.forall_mem_cons.mp h
    have hsingle : Proper (.dir [(c, Node.put new rest none)]) :=
      .single hc (ih (fun _ hn => nomatch hn) hrest)
    cases at' with
    | none => exact hsingle
    | some n =>
      have hn := hat n rfl
      refine hn.retarget ?_
      split
      · next entries hdir =>
        have hproper : Proper (.dir entries) := hdir ▸ hn.target
        exact hproper.putEntry hc (ih (fun m hm => (hproper.entry hm).1) hrest)
      · exact hsingle

theorem Proper.erase (hn : n.Proper) (h : ∀ c ∈ cs, Path.IsName c) : (Node.erase cs n).Proper := by
  induction cs generalizing n with
  | nil => exact hn
  | cons c rest ih =>
    obtain ⟨hc, hrest⟩ := List.forall_mem_cons.mp h
    rw [Node.erase]
    split
    · next entries hdir =>
      have hproper : Proper (.dir entries) := hdir ▸ hn.target
      split
      · exact hn
      · refine hn.retarget ?_
        obtain _ | ⟨hnodup, hnames, hnodes⟩ := hproper
        exact .dir (Fields.nodup_erase hnodup c) (fun e he => hnames e (Fields.mem_erase.mp he).1)
          fun e he => hnodes e (Fields.mem_erase.mp he).1
      · next m _ hm => exact hn.retarget (hproper.putEntry hc (ih (hproper.entry hm).1 hrest))
    · exact hn

/-! ## 3. The order of entries -/

/-- The same tree with the entries of its directories in another order. -/
inductive Reordered : Node → Node → Prop where
  | refl (n : Node) : Reordered n n
  | entries {entries entries' : List (String × Node)} (h : entries.Perm entries') :
      Reordered (.dir entries) (.dir entries')
  | inside {before after : List (String × Node)} {name : String} {n n' : Node} (h : Reordered n n') :
      Reordered (.dir (before ++ (name, n) :: after)) (.dir (before ++ (name, n') :: after))
  | link {n n' : Node} (h : Reordered n n') : Reordered (.link n) (.link n')
  | trans {n n' n'' : Node} (h : Reordered n n') (h' : Reordered n' n'') : Reordered n n''

theorem Reordered.symm (h : n.Reordered n') : n'.Reordered n := by
  induction h with
  | refl n => exact .refl n
  | entries h => exact .entries h.symm
  | inside _ ih => exact .inside ih
  | link _ ih => exact .link ih
  | trans _ _ ih ih' => exact ih'.trans ih

/-- A directory stays a directory. -/
theorem Reordered.exists_dir (h : n.Reordered n') (hn : n = .dir entries) :
    ∃ entries', n' = .dir entries' := by
  induction h generalizing entries with
  | refl n => exact ⟨entries, hn⟩
  | entries h => exact ⟨_, rfl⟩
  | inside h => exact ⟨_, rfl⟩
  | link h => cases hn
  | trans _ _ ih ih' =>
    obtain ⟨entries', hn'⟩ := ih hn
    exact ih' hn'

/-- What is found in two such trees: the same miss, or two such trees. -/
inductive FoundAlike : Except Miss Node → Except Miss Node → Prop where
  | ok {n n' : Node} (h : n.Reordered n') : FoundAlike (.ok n) (.ok n')
  | error (miss : Miss) : FoundAlike (.error miss) (.error miss)

theorem FoundAlike.refl : ∀ found : Except Miss Node, FoundAlike found found
  | .ok n => .ok (.refl n)
  | .error miss => .error miss

theorem FoundAlike.trans {a b c : Except Miss Node} (h : FoundAlike a b) (h' : FoundAlike b c) :
    FoundAlike a c := by
  cases h with
  | ok h =>
    cases h' with
    | ok h' => exact .ok (h.trans h')
  | error miss => exact h'

theorem Reordered.proper (h : n.Reordered n') (hn : n.Proper) : n'.Proper := by
  induction h with
  | refl n => exact hn
  | entries h =>
    obtain _ | ⟨hnodup, hnames, hnodes⟩ := hn
    exact .dir ((h.map _).nodup_iff.mp hnodup) (fun e he => hnames e (h.mem_iff.mpr he))
      fun e he => hnodes e (h.mem_iff.mpr he)
  | @inside before after name n n' _ ih =>
    obtain _ | ⟨hnodup, hnames, hnodes⟩ := hn
    -- entry by entry, the other tree has the same name over a node that is proper as well
    have hentry : ∀ e ∈ before ++ (name, n') :: after, ∃ e' ∈ before ++ (name, n) :: after,
        e.1 = e'.1 ∧ (e'.2.Proper → e.2.Proper) := by
      intro e he
      rcases List.mem_append.mp he with he | he
      · exact ⟨e, List.mem_append_left _ he, rfl, id⟩
      · rcases List.mem_cons.mp he with rfl | he
        · exact ⟨(name, n), by simp, rfl, ih⟩
        · exact ⟨e, List.mem_append_right _ (List.mem_cons_of_mem _ he), rfl, id⟩
    refine .dir (by simpa [Fields.names] using hnodup) (fun e he => ?_) fun e he => ?_
    · obtain ⟨e', he', hname, -⟩ := hentry e he
      exact hname ▸ hnames e' he'
    · obtain ⟨e', he', -, hproper⟩ := hentry e he
      exact hproper (hnodes e' he')
  | link _ ih =>
    obtain _ | _ | hn := hn
    exact .link (ih hn)
  | trans _ _ ih ih' => exact ih' (ih hn)

/-- **The same is found under every path.** -/
theorem Reordered.found (h : n.Reordered n') (hn : n.Proper) (cs : List String) :
    FoundAlike (n.at? cs) (n'.at? cs) := by
  induction h generalizing cs with
  | refl n => exact .refl _
  | @entries entries entries' h =>
    cases cs with
    | nil => exact .ok (.entries h)
    | cons c rest =>
      obtain _ | ⟨hnodup, -, -⟩ := hn
      have hlookup : entries.lookup c = entries'.lookup c := Fields.get?_eq_of_perm hnodup h c
      rw [at?_dir_cons, at?_dir_cons, hlookup]
      exact .refl _
  | @inside before after name n n' h ih =>
    cases cs with
    | nil => exact .ok (.inside h)
    | cons c rest =>
      obtain _ | ⟨-, -, hnodes⟩ := hn
      have hrest := ih (hnodes (name, n) (by simp)) rest
      rw [at?_dir_cons, at?_dir_cons, List.lookup_append, List.lookup_append, List.lookup_cons,
        List.lookup_cons]
      cases before.lookup c with
      | some m => exact .refl _
      | none =>
        cases c == name with
        | true => exact hrest
        | false => exact .refl _
  | link _ ih =>
    obtain _ | _ | hn := hn
    rw [at?_link, at?_link]
    exact ih hn cs
  | trans h _ ih ih' => exact (ih hn cs).trans (ih' (h.proper hn) cs)

/-! ## 4. All files -/

mutual

/-- The ways down to the files of a tree. -/
def filePaths : Node → List (List String)
  | .file _ => [[]]
  | .dir entries => filePathsEntries entries
  | .link n => n.filePaths
  | .lost => []

/-- The ways down to the files below the entries of a directory. -/
def filePathsEntries : List (String × Node) → List (List String)
  | [] => []
  | (name, n) :: rest => n.filePaths.map (name :: ·) ++ filePathsEntries rest

end

mutual

theorem length_filePaths : ∀ n : Node, n.filePaths.length = n.fileCount
  | .file _ => rfl
  | .dir entries => length_filePathsEntries entries
  | .link n => length_filePaths n
  | .lost => rfl

theorem length_filePathsEntries : ∀ entries : List (String × Node),
    (filePathsEntries entries).length = fileCountEntries entries
  | [] => rfl
  | (name, n) :: rest => by
    rw [filePathsEntries, fileCountEntries, List.length_append, List.length_map, length_filePaths n,
      length_filePathsEntries rest]

end

theorem mem_filePathsEntries {name : String} (h : (name, n) ∈ entries) (hcs : cs ∈ n.filePaths) :
    name :: cs ∈ filePathsEntries entries := by
  induction entries with
  | nil => cases h
  | cons e rest ih =>
    rw [filePathsEntries, List.mem_append]
    rcases List.mem_cons.mp h with rfl | h
    · exact .inl (List.mem_map_of_mem hcs)
    · exact .inr (ih h)

theorem filePaths_target : ∀ n : Node, n.target.filePaths = n.filePaths
  | .link n => filePaths_target n
  | .file _ | .dir _ | .lost => rfl

/-- **A path that leads to a file** is one of them. -/
theorem mem_filePaths {text : String} (h : n.at? cs = .ok (.file text)) : cs ∈ n.filePaths := by
  induction cs generalizing n with
  | nil =>
    rw [at?] at h
    split at h
    · cases h
    · rw [← filePaths_target, Except.ok.inj h]
      exact List.mem_singleton.mpr rfl
  | cons c rest ih =>
    rw [at?] at h
    rw [← filePaths_target]
    split at h
    · next entries hdir =>
      rw [hdir]
      split at h
      · cases h
      · next n hn => exact mem_filePathsEntries (Fields.mem_of_get? hn) (ih h)
    · cases h
    · cases h

end Node

/-! ## 5. File trees -/

namespace Disk

variable {d : Disk}

/-- A file tree as file systems have them. -/
def Proper (d : Disk) : Prop := d.root.Proper

theorem isName_of_steps {path c : String} (h : c ∈ steps path) : Path.IsName c :=
  Path.isName_of_resolved h

theorem at?_ofComponents (d : Disk) {cs : List String} (h : ∀ c ∈ cs, Path.IsName c) :
    d.at? (Path.ofComponents cs) = d.root.at? cs := by
  rw [at?, steps, Path.resolvedComponents_ofComponents "/" h]

theorem proper_emptyDir : (Node.dir []).Proper := .dir List.nodup_nil nofun nofun

theorem proper_empty : empty.Proper := proper_emptyDir

theorem Proper.put (hd : d.Proper) {new : Node} (hnew : new.Proper) (path : String) :
    Proper ⟨Node.put new (steps path) (some d.root)⟩ :=
  Node.Proper.put hnew (fun _ hn => Option.some.inj hn ▸ hd) fun _ hc => isName_of_steps hc

theorem Proper.write (hd : d.Proper) (path text : String) : (d.write path text).Proper :=
  hd.put (.file text) path

theorem Proper.makeDir (hd : d.Proper) (path : String) : (d.makeDir path).Proper :=
  hd.put proper_emptyDir path

theorem Proper.makeLink (hd : d.Proper) (path : String) {link : Node} (hlink : link.Proper) :
    (d.makeLink path link).Proper := hd.put hlink path

theorem Proper.remove (hd : d.Proper) (path : String) : (d.remove path).Proper :=
  Node.Proper.erase hd fun _ hc => isName_of_steps hc

end Disk

end ConfGraph
