import ConfGraph.Proofs.Module.Counting

/-!
# Requiring a file in two ways

A listed file can be required by its identifier and by relative paths.  Module objects are remembered
by identifiers, so whether two ways lead to the same one hangs on the identifiers alone: a file that is
listed once has one, and a file below roots that overlap may have several.  And what was given to those
who asked while a module was evaluated is no longer given to others once that evaluation has failed.

* `listedAt`: the modules as which a file is listed; `listedAt_of_root`: below one root there is one.
* `Serving.Means`: what a specifier means by the present listing.
* `requires_of_a_file_agree`: within a load, all who mean the same module are given the same module
  object, as long as no evaluation of it fails, and a file completes no more often than it is listed.
* `requires_of_a_file_disagree`: files for which more than this is not so.
-/

namespace ConfGraph.Module

open Script

/-! ## 1. Files and identifiers -/

/-- The modules as which a file is listed. -/
def listedAt (all : List Listed) (file : String) : List Listed := all.filter fun m => m.path == file

theorem mem_listedAt {all : List Listed} {file : String} {m : Listed} :
    m ∈ listedAt all file ↔ m ∈ all ∧ m.path = file := by
  rw [listedAt, List.mem_filter, beq_iff_eq]

theorem eq_of_listedAt {all : List Listed} {file : String} (honce : (listedAt all file).length ≤ 1)
    {m m' : Listed} (hm : m ∈ listedAt all file) (hm' : m' ∈ listedAt all file) : m = m' := by
  obtain ⟨n, hn⟩ := List.length_eq_one_iff.mp
    (Nat.le_antisymm honce (List.length_pos_of_mem hm))
  rw [hn, List.mem_singleton] at hm hm'
  rw [hm, hm']

theorem mem_foldl_addNew {m : Listed} : ∀ {files found : List Listed},
    m ∈ files.foldl addNew found → m ∈ found ∨ m ∈ files
  | [], _, h => .inl h
  | first :: rest, found, h => by
    have hrest : m ∈ addNew found first ∨ m ∈ rest := mem_foldl_addNew h
    rcases hrest with h | h
    · unfold addNew at h
      split at h
      · exact .inl h
      · rcases List.mem_append.mp h with h | h
        · exact .inl h
        · exact .inr (List.mem_singleton.mp h ▸ List.mem_cons_self)
    · exact .inr (List.mem_cons_of_mem first h)

/-- Below one root the path of a module tells its identifier. -/
theorem idOfPath_of_root {d : Disk} {root : String} {all : List Listed}
    (hlist : (Source.directories [root]).list d = .ok all) {m : Listed} (hm : m ∈ all) :
    idOfPath? "/" root m.path = some m.id := by
  unfold Source.list listBelow at hlist
  dsimp only at hlist
  split at hlist
  · cases hlist
  · next files hfiles =>
    obtain rfl := Except.ok.inj hlist
    rcases mem_foldl_addNew hm with hm | hm
    · cases hm
    · obtain ⟨f, -, hf⟩ := List.mem_filterMap.mp hm
      obtain ⟨id, hid, rfl⟩ := Option.map_eq_some_iff.mp hf
      exact hid

/-- **Below one root every file is listed once** at most. -/
theorem listedAt_of_root {d : Disk} {root : String} {all : List Listed}
    (hlist : (Source.directories [root]).list d = .ok all) (file : String) :
    (listedAt all file).length ≤ 1 := by
  have hnodup : (listedAt all file).Nodup := (nodup_list hlist).of_map.filter _
  have hsame : ∀ m ∈ listedAt all file, ∀ m' ∈ listedAt all file, m = m' := by
    intro m hm m' hm'
    obtain ⟨hm, hpath⟩ := mem_listedAt.mp hm
    obtain ⟨hm', hpath'⟩ := mem_listedAt.mp hm'
    have hid : some m.id = some m'.id := by
      rw [← idOfPath_of_root hlist hm, ← idOfPath_of_root hlist hm', hpath, hpath']
    exact List.inj_on_of_nodup_map (nodup_list hlist) hm hm' (Option.some.inj hid)
  match listedAt all file, hnodup, hsame with
  | [], _, _ => exact Nat.zero_le 1
  | [_], _, _ => exact Nat.le_refl 1
  | m :: m' :: _, hnodup, hsame =>
    have heq := hsame m (by simp) m' (by simp)
    simp [heq] at hnodup

/-! ## 2. What specifiers mean -/

/-- **A specifier means a module** of the present listing, by which it is asked for. -/
def Serving.Means (x : Serving) (listings : List (List Listed)) (all : List Listed) (m : Listed) : Prop :=
  listings[x.listing]? = some all ∧ target? all x.requirer x.specifier = some m

/-- What is given to somebody who asks by the present listing is of the module that is meant. -/
theorem Serving.Means.key {x : Serving} {listings : List (List Listed)} {all : List Listed} {m : Listed}
    (h : x.Means listings all m) (hgenuine : (Moment.served x).Genuine listings) : x.key = m.key := by
  obtain ⟨hlisting, htarget⟩ := h
  obtain ⟨all', m', hlisting', htarget', hkey⟩ := hgenuine
  obtain rfl := Option.some.inj (hlisting.symm.trans hlisting')
  obtain rfl := Option.some.inj (htarget.symm.trans htarget')
  exact hkey.symm

/-! ## 3. Within a load -/

section Follows

variable {s₀ s' : State} {new : List Moment} {all : List Listed}

/-- **Two who mean the same module** are given the same module object, or its evaluation has failed
between them. -/
theorem Follows.same_cell (h : Follows s₀ new s') {before middle after : List Moment} {x y : Serving}
    (hsplit : new = before ++ .served x :: (middle ++ .served y :: after)) {m : Listed}
    (hx : x.Means s'.listings all m) (hy : y.Means s'.listings all m) :
    x.cell = y.cell ∨ ∃ e, .failed e ∈ middle ∧ e.cell = x.cell := by
  subst hsplit
  rw [h.listings] at hx hy
  have hxkey := hx.key (h.genuine _ (by simp))
  have hykey := hy.key (h.genuine _ (by simp))
  obtain ⟨g₁, hbefore, hxmemory, hrest⟩ := (h.moves []).memory_of_served
  obtain ⟨g₂, hmiddle, hymemory, -⟩ := hrest.memory_of_served
  have hsound : g₁.Sound := hbefore.sound ⟨nofun, List.nodup_nil⟩
  rw [hykey, ← hxkey] at hymemory
  rcases hmiddle.kept_or_failed hsound hxmemory with hkept | ⟨e, he, -, hcell⟩
  · rw [hymemory] at hkept
    exact .inl (Option.some.inj hkept).symm
  · exact .inr ⟨e, he, hcell⟩

/-- **A file completes as often as it is listed**, at most, if it is evaluated as the listing tells. -/
theorem Follows.completions_of_file (h : Follows s₀ new s') {file : String}
    (hof : ∀ e, .completed e ∈ new → e.path = file → ∃ m ∈ all, e.IsOf m) :
    completions (fun e => e.path == file) new ≤ (listedAt all file).length := by
  rw [← List.length_map (f := Listed.key)]
  refine (h.moves []).completions_le_length ⟨nofun, List.nodup_nil⟩ fun e he hfile => ?_
  rw [beq_iff_eq] at hfile
  obtain ⟨m, hm, hkey, hpath⟩ := hof e he hfile
  rw [hkey]
  exact List.mem_map_of_mem (mem_listedAt.mpr ⟨hm, hpath.symm.trans hfile⟩)

end Follows

/-- **What a load tells can be replayed**, also one that is refused. -/
theorem follows_of_load {d : Disk} {globals : Fields Global} {all : List Listed} {id : String}
    {c : Context} {s s' : State} (hs' : s' = ((load d globals (.ok all) id).exec c s).2) :
    ∃ s₀, Follows s₀ (since s s') s' ∧ ∀ l ∈ s₀.listings, l ∈ s.listings ∨ l = all := by
  by_cases hrefused : Refused (.ok all) id
  · rw [load_of_refused hrefused] at hs'
    rw [hs', since_self]
    exact ⟨s, follows_nil rfl rfl rfl rfl, fun l hl => .inl hl⟩
  · obtain ⟨all', m, hlist, hfind, hm⟩ := passed_of_not_refused hrefused
    obtain rfl := Except.ok.inj hlist
    obtain ⟨s₀, new, hjournal, hlistings, -, -, hfollows, -⟩ := load_follows d globals hfind hm c s
    rw [← hs'] at hfollows
    rw [hfollows.since_eq hjournal]
    refine ⟨s₀, hfollows, fun l hl => ?_⟩
    rw [hlistings] at hl
    exact (List.mem_append.mp hl).imp_right List.mem_singleton.mp

/-- **Requiring a file by identifier and by relative path agree.**  Within a load, whatever has gone
before it:

* Of any two who mean a file by the present listing, in whatever way, both are given the same module
  object if the file is listed once, or if they mean it under the same identifier, unless the evaluation
  of the module object that the first was given has failed between them.
* The file completes at most as often as it is listed, if all evaluations of it that complete are of a
  module of the present listing; so it is in the first load, and as long as listings stay the same.
* Below one root every file is listed once. -/
theorem requires_of_a_file_agree (d : Disk) (globals : Fields Global) (roots : List String)
    (id : String) (c : Context) (s : State) {all : List Listed}
    (hlist : (Source.directories roots).list d = .ok all) {s' : State}
    (hs' : s' = ((load d globals ((Source.directories roots).list d) id).exec c s).2) (file : String) :
    (∀ before x middle y after m m',
      since s s' = before ++ .served x :: (middle ++ .served y :: after) →
      x.Means s'.listings all m → m.path = file → y.Means s'.listings all m' → m'.path = file →
      (listedAt all file).length ≤ 1 ∨ m.id = m'.id →
      x.cell = y.cell ∨ ∃ e, .failed e ∈ middle ∧ e.cell = x.cell) ∧
    ((∀ e, .completed e ∈ since s s' → e.path = file → ∃ m ∈ all, e.IsOf m) →
      completions (fun e => e.path == file) (since s s') ≤ (listedAt all file).length) ∧
    ((∀ l ∈ s.listings, l = all) →
      completions (fun e => e.path == file) (since s s') ≤ (listedAt all file).length) ∧
    (∀ root, roots = [root] → (listedAt all file).length ≤ 1) := by
  rw [hlist] at hs'
  obtain ⟨s₀, hfollows, hlistings⟩ := follows_of_load hs'
  refine ⟨?_, hfollows.completions_of_file, fun hkept => ?_, ?_⟩
  · intro before x middle y after m m' hsplit hx hpath hy hpath' hone
    have hm : m ∈ all := mem_of_target? hx.2
    have hm' : m' ∈ all := mem_of_target? hy.2
    have hsame : m = m' := by
      rcases hone with honce | hid
      · exact eq_of_listedAt honce (mem_listedAt.mpr ⟨hm, hpath⟩) (mem_listedAt.mpr ⟨hm', hpath'⟩)
      · exact List.inj_on_of_nodup_map (nodup_list hlist) hm hm' hid
    rw [← hsame] at hy
    exact hfollows.same_cell hsplit hx hy
  · refine hfollows.completions_of_file fun e he _ => ?_
    exact (hfollows.genuine _ he).of fun l hl => (hlistings l hl).elim (hkept l) fun h => h
  · rintro root rfl
    exact listedAt_of_root hlist file

/-- A load that is not refused adds its listing to those that it finds. -/
theorem listings_of_load {d : Disk} {globals : Fields Global} {all : List Listed} {id : String}
    (hpassed : (all.find? fun m => m.id == id).map (·.isConfig) = some true) (c : Context) (s : State) :
    ((load d globals (.ok all) id).exec c s).2.listings = s.listings ++ [all] := by
  obtain ⟨m, hfind, hm⟩ := Option.map_eq_some_iff.mp hpassed
  obtain ⟨s₀, new, -, hlistings, -, -, hfollows, -⟩ := load_follows d globals hfind hm c s
  rw [hfollows.listings, hlistings]

theorem Serving.means_path {x : Serving} {listings : List (List Listed)} {all : List Listed}
    {file : String} (hlisting : listings[x.listing]? = some all)
    (hpath : (target? all x.requirer x.specifier).map (·.path) = some file) :
    ∃ m, x.Means listings all m ∧ m.path = file := by
  obtain ⟨m, htarget, hm⟩ := Option.map_eq_some_iff.mp hpath
  exact ⟨m, ⟨hlisting, htarget⟩, hm⟩

/-- The text that requires a module. -/
def requireLine (specifier : String) : String :=
  "@\x7b\"call\":\"require\",\"args\":[\"" ++ specifier ++ "\"]\x7d\n"

/-- A config module that requires a library by its identifier and by a relative path. -/
def twoWays : List (String × String) :=
  [("l", ""), ("m", configText ++ requireLine "l" ++ requireLine "./l")]

theorem inOrder_twoWays : InOrder (twoWays.map (·.1)) := by decide +kernel

theorem requires_agree_in_twoWays :
    (∃ x y, .served x ∈ since .start (afterLoad twoWays .start) ∧ x.specifier = "l" ∧
      .served y ∈ since .start (afterLoad twoWays .start) ∧ y.specifier = "./l" ∧ x.cell = y.cell) ∧
    completions (fun e => e.path == "/l.js") (since .start (afterLoad twoWays .start)) = 1 := by
  let x : Serving := ⟨0, "/m.js", "l", "l", false, 35⟩
  let y : Serving := ⟨0, "/m.js", "./l", "l", false, 35⟩
  let m : Evaluation := ⟨0, "m", true, 16, "/m.js"⟩
  let l : Evaluation := ⟨1, "l", false, 35, "/l.js"⟩
  have hlist := list_flatDisk inOrder_twoWays
  have hsplit : since .start (afterLoad twoWays .start)
      = [.began m, .began l, .completed l] ++ .served x :: ([] ++ .served y :: [.completed m]) := by
    rw [afterLoad_eq inOrder_twoWays]
    decide +kernel
  have hlistings : (afterLoad twoWays .start).listings = [flatListing twoWays] := by
    rw [afterLoad_eq inOrder_twoWays]
    exact listings_of_load (by decide +kernel) .outside .start
  obtain ⟨hagree, -, hcount, hroot⟩ := requires_of_a_file_agree (flatDisk twoWays) [] ["/"] "m" .outside
    .start hlist (show afterLoad twoWays .start = _ from rfl) "/l.js"
  have honce := hroot "/" rfl
  have hcell : x.cell = y.cell := by
    have hlisting : (afterLoad twoWays .start).listings[0]? = some (flatListing twoWays) := by
      rw [hlistings]
      rfl
    obtain ⟨m₁, hx, hpath⟩ := x.means_path hlisting (show _ = some "/l.js" by decide +kernel)
    obtain ⟨m₂, hy, hpath'⟩ := y.means_path hlisting (show _ = some "/l.js" by decide +kernel)
    exact (hagree _ x [] y _ m₁ m₂ hsplit hx hpath hy hpath' (.inl honce)).resolve_right (by simp)
  have hcounts : 1 ≤ completions (fun e => e.path == "/l.js")
      (since .start (afterLoad twoWays .start)) := by
    rw [hsplit]
    decide +kernel
  refine ⟨⟨x, y, ?_, rfl, ?_, rfl, hcell⟩, Nat.le_antisymm (Nat.le_trans (hcount nofun) honce) hcounts⟩
  · simp [hsplit]
  · simp [hsplit]

/-! ## 4. Where more does not hold -/

/-- Two who mean the same file by the present listing are given different module objects. -/
def Disagreement (s s' : State) (all : List Listed) (file : String) : Prop :=
  ∃ x y m m', .served x ∈ since s s' ∧ .served y ∈ since s s' ∧
    x.Means s'.listings all m ∧ m.path = file ∧ y.Means s'.listings all m' ∧ m'.path = file ∧
    x.cell ≠ y.cell

theorem disagreement_of_first {s' : State} {all : List Listed} {file : String}
    (hlistings : s'.listings = [all]) {x y : Serving}
    (hserved : .served x ∈ since .start s' ∧ .served y ∈ since .start s')
    (hnumbers : x.listing = 0 ∧ y.listing = 0)
    (hx : (target? all x.requirer x.specifier).map (·.path) = some file)
    (hy : (target? all y.requirer y.specifier).map (·.path) = some file)
    (hcells : x.cell ≠ y.cell) : Disagreement .start s' all file := by
  have hlisting : s'.listings[x.listing]? = some all ∧ s'.listings[y.listing]? = some all := by
    simp [hlistings, hnumbers]
  obtain ⟨m, hx, hpath⟩ := Serving.means_path hlisting.1 hx
  obtain ⟨m', hy, hpath'⟩ := Serving.means_path hlisting.2 hy
  exact ⟨x, y, m, m', hserved.1, hserved.2, hx, hpath, hy, hpath', hcells⟩

/-- A config module that requires `x` beside it by its identifier and by a relative path. -/
def twiceText : String := configText ++ requireLine "a.x" ++ requireLine "./x"

/-- Two modules in a directory. -/
def nestedDisk : Disk := ⟨.dir [("a", .dir [("m.js", .file twiceText), ("x.js", .file "")])]⟩

/-- The two files. -/
def nestedFiles : List (String × String) := [("/a/m.js", twiceText), ("/a/x.js", "")]

/-- The modules that they are below the root, and those that they are below the directory. -/
def nestedListing : List Listed :=
  [⟨"a.m", "/a/m.js", true, none⟩, ⟨"a.x", "/a/x.js", false, none⟩]
    ++ [⟨"m", "/a/m.js", true, none⟩, ⟨"x", "/a/x.js", false, none⟩]

theorem filesBelow_nestedDisk :
    filesBelow nestedDisk "/" = .ok nestedFiles ∧ filesBelow nestedDisk "/a" = .ok nestedFiles := by
  have hsort : nestedFiles.mergeSort pathLe = nestedFiles :=
    List.mergeSort_of_pairwise (by decide +kernel)
  have hentries : filesOfEntries "/" [("a", .dir [("m.js", .file twiceText), ("x.js", .file "")])]
        = nestedFiles ∧
      filesOfEntries "/a" [("m.js", .file twiceText), ("x.js", .file "")] = nestedFiles := by
    decide +kernel
  have hroot : nestedDisk.at? "/" = .ok nestedDisk.root := rfl
  have hdirectory : nestedDisk.at? "/a"
    = .ok (.dir [("m.js", .file twiceText), ("x.js", .file "")]) := rfl
  constructor
  · rw [filesBelow, hroot]
    simp only [nestedDisk, hentries, hsort]
  · rw [filesBelow, hdirectory]
    simp only [hentries, hsort]

theorem list_nestedDisk : (Source.directories ["/", "/a"]).list nestedDisk = .ok nestedListing := by
  have hids : idOfPath? "/" "/" "/a/m.js" = some "a.m" ∧ idOfPath? "/" "/" "/a/x.js" = some "a.x" ∧
      idOfPath? "/" "/a" "/a/m.js" = some "m" ∧ idOfPath? "/" "/a" "/a/x.js" = some "x" := by
    decide +kernel
  have hkinds : isConfig twiceText = true ∧ isConfig "" = false := by decide +kernel
  have hmodules : nestedFiles.filterMap (ofFile? "/") = nestedListing.take 2 ∧
      nestedFiles.filterMap (ofFile? "/a") = nestedListing.drop 2 := by
    simp [nestedFiles, nestedListing, ofFile?, hids, hkinds]
  unfold Source.list
  simp only [listBelow, filesBelow_nestedDisk, hmodules]
  rw [foldl_addNew _ [] (by decide +kernel), foldl_addNew _ _ (by decide +kernel)]
  rfl

/-- The state after a load of the config module by its identifier below the root. -/
def afterNested : State :=
  ((load nestedDisk [] ((Source.directories ["/", "/a"]).list nestedDisk) "a.m").exec .outside .start).2

/-- What it is given when it requires the library by its identifier, and by the relative path. -/
def nestedById : Serving := ⟨0, "/a/m.js", "a.x", "a.x", false, 35⟩

@[inherit_doc nestedById]
def nestedByPath : Serving := ⟨0, "/a/m.js", "./x", "x", false, 54⟩

/-- The text that requires `a`, and goes on if that fails. -/
def tryLine : String :=
  "@\x7b\"try\":[\x7b\"call\":\"require\",\"args\":[\"a\"]\x7d],\"as\":\"e\"\x7d\n"

/-- A config module that requires `a` twice; each time `a` requires `b`, which requires `a` and fails. -/
def tryingTwice : List (String × String) :=
  [("a", requireLine "b"),
    ("b", requireLine "./a" ++ requireLine "a" ++ "@\x7b\"throw\":\"no\"\x7d\n"),
    ("m", configText ++ tryLine ++ tryLine)]

/-- What `b` is given the first time by the relative path, and the second time by the identifier. -/
def triedByPath : Serving := ⟨0, "/b.js", "./a", "a", false, 35⟩

@[inherit_doc triedByPath]
def triedById : Serving := ⟨0, "/b.js", "a", "a", false, 73⟩

theorem inOrder_tryingTwice : InOrder (tryingTwice.map (·.1)) := by decide +kernel

/-- **Where more does not hold.**  Below roots that overlap a file is two modules, and is evaluated as
each of them.  After an evaluation has failed, a file is evaluated anew.  And a library that is kept asks
by the listing of its own load; where the file was of the other kind then, it is evaluated twice. -/
theorem requires_of_a_file_disagree :
    ((∃ all, (Source.directories ["/", "/a"]).list nestedDisk = .ok all ∧
        Disagreement .start afterNested all "/a/x.js") ∧
      completions (fun e => e.path == "/a/x.js") (since .start afterNested) = 2) ∧
    (∃ all, (Source.directories ["/"]).list (flatDisk tryingTwice) = .ok all ∧
      Disagreement .start (afterLoad tryingTwice .start) all "/a.js") ∧
    completions (fun e => e.path == "/x.js")
      (since (afterLoad (trioFiles firstText "") .start)
        (afterLoad (trioFiles laterText configText) (afterLoad (trioFiles firstText "") .start))) = 2 := by
  have hnested : (.served nestedById ∈ since .start afterNested ∧
        .served nestedByPath ∈ since .start afterNested) ∧
      completions (fun e => e.path == "/a/x.js") (since .start afterNested) = 2 := by
    unfold afterNested
    rw [list_nestedDisk]
    decide +kernel
  have htried : .served triedByPath ∈ since .start (afterLoad tryingTwice .start) ∧
      .served triedById ∈ since .start (afterLoad tryingTwice .start) := by
    rw [afterLoad_eq inOrder_tryingTwice]
    decide +kernel
  refine ⟨⟨⟨nestedListing, list_nestedDisk, ?_⟩, hnested.2⟩,
    ⟨flatListing tryingTwice, list_flatDisk inOrder_tryingTwice, ?_⟩, ?_⟩
  · refine disagreement_of_first ?_ hnested.1 ⟨rfl, rfl⟩ (by decide +kernel) (by decide +kernel) nofun
    unfold afterNested
    rw [list_nestedDisk]
    exact listings_of_load (by decide +kernel) .outside .start
  · refine disagreement_of_first ?_ htried ⟨rfl, rfl⟩ (by decide +kernel) (by decide +kernel) nofun
    rw [afterLoad_eq inOrder_tryingTwice]
    exact listings_of_load (by decide +kernel) .outside .start
  · rw [afterLoad_eq (inOrder_trioFiles _ _), afterLoad_eq (inOrder_trioFiles _ _)]
    decide +kernel

end ConfGraph.Module
