import ConfGraph.Proofs.Module.History
import ConfGraph.Proofs.Module.Replay

/-!
# How often modules are evaluated

Over files that stay as they are, loads may follow each other in any order, and what they have left
behind may require modules in between.  All listings are then the same, so each module keeps its kind;
a load forgets the config modules and no library; and the rest is replayed on the machine of
evaluations.

* `Loads`: the states that loads over the same files lead to.
* `Accounted`: after a module has completed, it is remembered, and all else leaves it alone.
* `Accountable`: what holds of all these states.
* `modules_complete_once`: libraries complete once for all, config modules once for each load.
-/

namespace ConfGraph.Module

open Script

/-! ## 1. Accounts of one module -/

/-- **Whatever evaluation of a module has completed**, its module object is remembered, and everything
told after it leaves the module alone. -/
def Accounted (k : ModuleKey) (moments : List Moment) (remembered : Option CellId) : Prop :=
  ∀ before e after, moments = before ++ .completed e :: after → e.key = k →
    remembered = some e.cell ∧ ∀ x ∈ after, x.Leaves k e.cell

theorem accounted_nil (k : ModuleKey) (remembered : Option CellId) : Accounted k [] remembered := by
  intro before e after h
  simp at h

/-- **What is replayed on top** of what is remembered is accounted for as well. -/
theorem Accounted.append {k : ModuleKey} {xs ys : List Moment}
    {memory memory' : ModuleKey → Option CellId} (h : Accounted k xs (memory k))
    (hmoves : Moves ⟨memory, []⟩ ys ⟨memory', []⟩) : Accounted k (xs ++ ys) (memory' k) := by
  have hsound : Stage.Sound ⟨memory, []⟩ := ⟨nofun, List.nodup_nil⟩
  intro before e after hsplit hkey
  subst hkey
  rcases List.append_eq_append_iff.mp hsplit with ⟨middle, rfl, rfl⟩ | ⟨middle, rfl, hmiddle⟩
  · obtain ⟨hsettled, hleaves⟩ := hmoves.after_completed hsound
    exact ⟨hsettled.memory, hleaves⟩
  · rcases List.cons_eq_append_iff.mp hmiddle with ⟨rfl, rfl⟩ | ⟨rest, rfl, rfl⟩
    · rw [← List.nil_append (Moment.completed e :: after)] at hmoves
      obtain ⟨hsettled, hleaves⟩ := hmoves.after_completed hsound
      exact ⟨hsettled.memory, hleaves⟩
    · obtain ⟨hmemory, hleaves⟩ := h before e rest rfl rfl
      obtain ⟨hsettled, hleaves'⟩ := hmoves.settled ⟨hmemory, List.not_mem_nil⟩
      exact ⟨hsettled.memory, List.forall_mem_append.mpr ⟨hleaves, hleaves'⟩⟩

/-! ## 2. One listing -/

/-- A moment tells of a module of a listing, and of a module object only what its specifier means. -/
def Moment.Of (all : List Listed) : Moment → Prop
  | .began e | .completed e | .failed e => ∃ m ∈ all, e.IsOf m
  | .served x => ∃ m, target? all x.requirer x.specifier = some m ∧ m.key = x.key

theorem Moment.Genuine.of {all : List Listed} {listings : List (List Listed)}
    (hlistings : ∀ l ∈ listings, l = all) {x : Moment} (h : x.Genuine listings) : x.Of all := by
  have hevaluation : ∀ {e : Evaluation}, (∃ l ∈ listings, ∃ m ∈ l, e.IsOf m) →
      ∃ m ∈ all, e.IsOf m := by
    rintro e ⟨l, hl, hm⟩
    obtain rfl := hlistings l hl
    exact hm
  cases x with
  | began e => exact hevaluation h
  | completed e => exact hevaluation h
  | failed e => exact hevaluation h
  | served x =>
    obtain ⟨l, m, hl, htarget, hkey⟩ := h
    obtain rfl := hlistings l (List.mem_of_getElem? hl)
    exact ⟨m, htarget, hkey⟩

/-- Where a listing has no module twice, the identifier tells the kind. -/
theorem key_eq_of_id {all : List Listed} (hall : (all.map (·.id)).Nodup) {m : Listed} (hm : m ∈ all)
    {k : ModuleKey} (hk : ∃ m ∈ all, m.key = k) : k.2 = m.id ↔ k = m.key := by
  obtain ⟨m', hm', rfl⟩ := hk
  constructor
  · intro hid
    rw [List.inj_on_of_nodup_map hall hm' hm hid]
  · intro hkey
    exact congrArg Prod.snd hkey

theorem Moment.Of.serving_key {all : List Listed} (hall : (all.map (·.id)).Nodup) {m : Listed}
    (hm : m ∈ all) {x : Serving} (h : (Moment.served x).Of all) (hid : x.id = m.id) :
    x.key = m.key := by
  obtain ⟨m', htarget, hkey⟩ := h
  exact (key_eq_of_id hall hm ⟨m', mem_of_target? htarget, hkey⟩).mp hid

/-! ## 3. One load -/

theorem State.memory_isSome_iff {s : State} {k : ModuleKey} :
    (s.memory k).isSome = true ↔ k.2 ∈ (s.cache k.1).ids := Cache.has_iff

/-- **What a load tells can be replayed** from the state in which it evaluates its module, which it
evaluates indeed. -/
theorem load_follows (d : Disk) (globals : Fields Global) {all : List Listed} {id : String} {m : Listed}
    (hfind : all.find? (fun m => m.id == id) = some m) (hm : m.isConfig = true) (c : Context)
    (s : State) :
    ∃ s₀ new, s₀.journal = s.journal ∧ s₀.listings = s.listings ++ [all] ∧ s₀.loaded = [] ∧
      (s.Apart → s₀.libraries = s.libraries.without (configIds s all)) ∧
      Follows s₀ new ((load d globals (.ok all) id).exec c s).2 ∧
      ∃ e, .began e ∈ new ∧ e.key = m.key := by
  obtain ⟨libraries, events, s₀, hs₀, hlibraries, hexec⟩ :=
    exec_load_of_passed d globals hfind hm c s
  have hlistings : s₀.listings = s.listings ++ [all] := by rw [hs₀]
  have hloaded : s₀.loaded = [] := by
    rw [hs₀]
    rfl
  have hlisted : ∃ l ∈ s₀.listings, m ∈ l :=
    ⟨all, by rw [hlistings]; simp, List.mem_of_find?_eq_some hfind⟩
  obtain ⟨new, hfollows, hbegan⟩ := follows_evaluateModule
    (keepsFollowed_requireWithin d globals (s₀.depth d)) d globals s.listings.length hlisted c
  have hnone : s₀.memory m.key = none := by
    simp [State.memory, State.cache, Listed.key, hm, hloaded]
  rw [← hexec] at hfollows
  exact ⟨s₀, new, by rw [hs₀]; rfl, hlistings, hloaded, by rw [hs₀]; exact hlibraries, hfollows,
    hbegan hnone⟩

theorem Follows.since_eq {s s₀ s' : State} {new : List Moment} (h : Follows s₀ new s')
    (hjournal : s₀.journal = s.journal) : since s s' = new :=
  since_of_append (by rw [h.journal, hjournal])

/-! ## 4. Any number of loads -/

/-- **The states that loads over the same files lead to**, in any order and with any outcomes.  Between
loads, code may do anything to the session, to the heap and to plain files, and require modules in the
name of any module. -/
inductive Loads (d : Disk) (roots : List String) : State → Prop where
  | start : Loads d roots State.start
  | elsewhere {s : State} (h : Loads d roots s) (session : Session) (heap : Heap) (plain : Cache) :
    Loads d roots { s with session, heap, plain }
  | required {s : State} (h : Loads d roots s) (c : Context) (globals : Fields Global)
      (who : Requirer) (specifier : Datum) :
    Loads d roots ((requireNow d globals >>= fun require => require who specifier).exec c s).2
  | load {s : State} (h : Loads d roots s) (c : Context) (globals : Fields Global) (id : String) :
    Loads d roots ((load d globals ((Source.directories roots).list d) id).exec c s).2

/-- **What holds while all listings are the same**: what is remembered and told is of their modules,
and every library is accounted for. -/
structure Accountable (all : List Listed) (s : State) : Prop where
  listings : ∀ l ∈ s.listings, l = all
  known : ∀ k cell, s.memory k = some cell → ∃ m ∈ all, m.key = k
  told : ∀ x ∈ s.journal, x.Of all
  libraries : ∀ id, Accounted (false, id) s.journal (s.memory (false, id))

section Accountable

variable {all : List Listed} {s s₀ s' : State} {new : List Moment}

theorem Accountable.follows (h : Accountable all s) (hfollows : Follows s new s') :
    Accountable all s' where
  listings := by
    rw [hfollows.listings]
    exact h.listings
  known k cell hmemory := by
    rcases (hfollows.moves []).began_or_remembered hmemory with hmemory | ⟨e, he, rfl, -⟩
    · exact h.known k cell hmemory
    · obtain ⟨m, hm, hkey, -⟩ := (hfollows.genuine _ he).of h.listings
      exact ⟨m, hm, hkey.symm⟩
  told := by
    rw [hfollows.journal]
    exact List.forall_mem_append.mpr
      ⟨h.told, fun x hx => (hfollows.genuine x hx).of h.listings⟩
  libraries id := by
    rw [hfollows.journal]
    exact (h.libraries id).append (hfollows.moves [])

/-- Where each module keeps its kind, a load forgets no library. -/
theorem Accountable.without_configIds (h : Accountable all s) (hall : (all.map (·.id)).Nodup) :
    s.Apart ∧ s.libraries.without (configIds s all) = s.libraries := by
  have hknown : ∀ {kind : Bool} {id : String}, id ∈ (s.cache kind).ids →
      ∃ m ∈ all, m.key = (kind, id) := by
    intro kind id hid
    have hsome : (s.memory (kind, id)).isSome = true := State.memory_isSome_iff.mpr hid
    obtain ⟨cell, hcell⟩ := Option.isSome_iff_exists.mp hsome
    exact h.known _ _ hcell
  have hkind : ∀ {m m' : Listed}, m ∈ all → m' ∈ all → m.id = m'.id → m.isConfig = m'.isConfig := by
    intro m m' hm hm' hid
    rw [List.inj_on_of_nodup_map hall hm hm' hid]
  have hlibrary : ∀ id ∈ s.libraries.ids, ∃ m ∈ all, m.isConfig = false ∧ m.id = id := by
    intro id hid
    obtain ⟨m, hm, hkey⟩ := @hknown false id hid
    exact ⟨m, hm, congrArg Prod.fst hkey, congrArg Prod.snd hkey⟩
  have hconfig : ∀ id ∈ configIds s all, ∃ m ∈ all, m.isConfig = true ∧ m.id = id := by
    intro id hid
    rcases mem_configIds.mp hid with hid | hid
    · obtain ⟨m, hm, hkey⟩ := @hknown true id hid
      exact ⟨m, hm, congrArg Prod.fst hkey, congrArg Prod.snd hkey⟩
    · exact hid
  have hdisjoint : ∀ id ∈ configIds s all, id ∉ s.libraries.ids := by
    intro id hid hlib
    obtain ⟨m, hm, htrue, rfl⟩ := hconfig id hid
    obtain ⟨m', hm', hfalse, hsame⟩ := hlibrary m.id hlib
    have hboth := hkind hm hm' hsame.symm
    rw [htrue, hfalse] at hboth
    cases hboth
  constructor
  · intro id hid
    exact hdisjoint id (mem_configIds.mpr (.inl hid))
  · refine List.filter_eq_self.mpr fun p hp => ?_
    have hnot : p.1 ∉ configIds s all := fun hmem => hdisjoint p.1 hmem (List.mem_map_of_mem hp)
    simpa using hnot

/-- What a load starts from. -/
theorem Accountable.forgotten (h : Accountable all s) (hall : (all.map (·.id)).Nodup)
    (hjournal : s₀.journal = s.journal) (hlistings : s₀.listings = s.listings ++ [all])
    (hloaded : s₀.loaded = [])
    (hlibraries : s.Apart → s₀.libraries = s.libraries.without (configIds s all)) :
    Accountable all s₀ := by
  obtain ⟨hapart, hwithout⟩ := h.without_configIds hall
  have hkept : ∀ id, s₀.memory (false, id) = s.memory (false, id) := by
    intro id
    simp only [State.memory, State.cache, Bool.false_eq_true, if_false]
    rw [hlibraries hapart, hwithout]
  refine ⟨?_, ?_, ?_, ?_⟩
  · rw [hlistings]
    exact List.forall_mem_append.mpr ⟨h.listings, List.forall_mem_singleton.mpr rfl⟩
  · rintro ⟨_ | _, id⟩ cell hmemory
    · rw [hkept] at hmemory
      exact h.known _ cell hmemory
    · simp [State.memory, State.cache, hloaded] at hmemory
  · rw [hjournal]
    exact h.told
  · intro id
    rw [hjournal, hkept]
    exact h.libraries id

/-- **Loads over the same files are accountable.** -/
theorem Loads.accountable {d : Disk} {roots : List String} (h : Loads d roots s)
    (hlist : (Source.directories roots).list d = .ok all) : Accountable all s := by
  induction h with
  | start =>
    refine ⟨nofun, ?_, nofun, fun id => accounted_nil _ _⟩
    rintro ⟨_ | _, id⟩ cell hmemory <;> cases hmemory
  | elsewhere h session heap plain ih => exact ⟨ih.listings, ih.known, ih.told, ih.libraries⟩
  | @required s h c globals who specifier ih =>
    obtain ⟨new, hfollows⟩ :=
      (keepsFollowed_requireWithin d globals (s.depth d) who specifier).followed c s
    exact ih.follows hfollows
  | @load s h c globals id ih =>
    by_cases hrefused : Refused ((Source.directories roots).list d) id
    · rw [load_of_refused hrefused]
      exact ih
    · obtain ⟨all', m, hlist', hfind, hm⟩ := passed_of_not_refused hrefused
      obtain rfl := Except.ok.inj (hlist.symm.trans hlist')
      rw [hlist]
      obtain ⟨s₀, new, hjournal, hlistings, hloaded, hlibraries, hfollows, -⟩ :=
        load_follows d globals hfind hm c s
      exact (ih.forgotten (nodup_list hlist) hjournal hlistings hloaded hlibraries).follows hfollows

end Accountable

/-! ## 5. How often -/

/-- Whether an evaluation is of the module with an identifier. -/
def Evaluation.hasId (id : String) (e : Evaluation) : Bool := e.id == id

section Once

variable {all : List Listed} (hall : (all.map (·.id)).Nodup) {m : Listed} (hm : m ∈ all)
include hall hm

theorem find?_of_mem : all.find? (fun n => n.id == m.id) = some m := by
  obtain ⟨n, hn⟩ : ∃ n, all.find? (fun n => n.id == m.id) = some n :=
    Option.isSome_iff_exists.mp (List.find?_isSome.mpr ⟨m, hm, by simp⟩)
  have hid : n.id = m.id := by simpa using List.find?_some hn
  rw [hn, List.inj_on_of_nodup_map hall (List.mem_of_find?_eq_some hn) hm hid]

theorem Moment.Of.id_eq_iff {e : Evaluation} (h : ∃ n ∈ all, e.IsOf n) :
    e.id = m.id ↔ e.key = m.key := by
  obtain ⟨n, hn, hkey, -⟩ := h
  exact key_eq_of_id hall hm (k := e.key) ⟨n, hn, hkey.symm⟩

theorem Moment.Of.hasId_iff {e : Evaluation} (h : ∃ n ∈ all, e.IsOf n) :
    Evaluation.hasId m.id e = true ↔ e.key = m.key := by
  rw [Evaluation.hasId, beq_iff_eq]
  exact Moment.Of.id_eq_iff hall hm h

/-- **A library completes once for all.** -/
theorem Accountable.library {s : State} (hs : Accountable all s) (hlibrary : m.isConfig = false) :
    completions (Evaluation.hasId m.id) s.journal ≤ 1 ∧
      ∀ before e after, s.journal = before ++ .completed e :: after → e.id = m.id →
        (∀ e', .began e' ∈ after → e'.id ≠ m.id) ∧
        ∀ x, .served x ∈ after → x.id = m.id → x.cell = e.cell := by
  have hkey : m.key = (false, m.id) := by rw [Listed.key, hlibrary]
  have hafter : ∀ before e after, s.journal = before ++ .completed e :: after →
      Evaluation.hasId m.id e = true → ∀ x ∈ after, x.Leaves m.key e.cell ∧ x.Of all := by
    intro before e after hsplit hid x hx
    have htold : ∀ y ∈ .completed e :: after, y.Of all := fun y hy =>
      hs.told y (by rw [hsplit]; exact List.mem_append_right _ hy)
    have he := (Moment.Of.hasId_iff hall hm (htold _ List.mem_cons_self)).mp hid
    rw [hkey] at he ⊢
    exact ⟨(hs.libraries m.id before e after hsplit he).2 x hx, htold x (List.mem_cons_of_mem _ hx)⟩
  constructor
  · refine completions_le_one fun before e after hsplit hid e' he' => ?_
    obtain ⟨hleaves, hof⟩ := hafter before e after hsplit hid _ he'
    rw [← Bool.not_eq_true, Moment.Of.hasId_iff hall hm hof]
    exact hleaves
  · intro before e after hsplit hid
    have hleaves := hafter before e after hsplit (by simp [Evaluation.hasId, hid])
    constructor
    · intro e' he' hid'
      obtain ⟨hleaves, hof⟩ := hleaves _ he'
      exact hleaves ((Moment.Of.id_eq_iff hall hm hof).mp hid')
    · intro x hx hid'
      obtain ⟨hleaves, hof⟩ := hleaves _ hx
      exact hleaves (Moment.Of.serving_key hall hm hof hid')

/-- **A config module completes once in a load**, and is given to nobody before it is evaluated. -/
theorem Follows.config {s₀ s' : State} {new : List Moment} (h : Follows s₀ new s')
    (hloaded : s₀.loaded = []) (hof : ∀ x ∈ new, x.Of all) (hconfig : m.isConfig = true) :
    completions (Evaluation.hasId m.id) new ≤ 1 ∧
      ∀ before x after, new = before ++ .served x :: after → x.id = m.id →
        ∃ e, .began e ∈ before ∧ e.id = m.id ∧ e.cell = x.cell := by
  have hmoves := h.moves []
  constructor
  · have hkey : ∀ e, .completed e ∈ new → Evaluation.hasId m.id e = true → e.key = m.key :=
      fun e he => (Moment.Of.hasId_iff hall hm (hof _ he)).mp
    exact hmoves.completions_le_one ⟨nofun, List.nodup_nil⟩ fun e e' he he' hid hid' =>
      (hkey e he hid).trans (hkey e' he' hid').symm
  · rintro before x after rfl hid
    obtain ⟨g, hbefore, hmemory, -⟩ := hmoves.memory_of_served
    have hx := Moment.Of.serving_key hall hm (hof (.served x) (by simp)) hid
    rcases hbefore.began_or_remembered hmemory with hold | ⟨e, he, hkey, hcell⟩
    · rw [hx] at hold
      simp [State.memory, State.cache, Listed.key, hconfig, hloaded] at hold
    · exact ⟨e, he, congrArg Prod.snd (hkey.trans hx), hcell⟩

end Once

/-- **How often modules are evaluated.**  Let loads follow each other over files that stay as they are,
with no module forgotten by hand.

* A library completes once at most.  Once it has completed, it is not evaluated again, and whoever
  requires it is given the module object of that evaluation.
* A config module completes once at most in each further load.  The load evaluates it anew before it
  gives its module object to anybody, and in any case if it is the module that is loaded.

This holds whether the loads succeed or fail, whatever the modules require, and whichever of their
evaluations fail. -/
theorem modules_complete_once {d : Disk} {roots : List String} {s : State} (h : Loads d roots s)
    {all : List Listed} (hlist : (Source.directories roots).list d = .ok all) {m : Listed}
    (hm : m ∈ all) :
    (m.isConfig = false →
      completions (Evaluation.hasId m.id) s.journal ≤ 1 ∧
      ∀ before e after, s.journal = before ++ .completed e :: after → e.id = m.id →
        (∀ e', .began e' ∈ after → e'.id ≠ m.id) ∧
        ∀ x, .served x ∈ after → x.id = m.id → x.cell = e.cell) ∧
    (m.isConfig = true → ∀ (c : Context) (globals : Fields Global) (id : String) (s' : State),
      s' = ((load d globals ((Source.directories roots).list d) id).exec c s).2 →
      completions (Evaluation.hasId m.id) (since s s') ≤ 1 ∧
      (∀ before x after, since s s' = before ++ .served x :: after → x.id = m.id →
        ∃ e, .began e ∈ before ∧ e.id = m.id ∧ e.cell = x.cell) ∧
      (m.id = id → ∃ e, .began e ∈ since s s' ∧ e.id = m.id)) := by
  have hall := nodup_list hlist
  have hs := h.accountable hlist
  refine ⟨hs.library hall hm, fun hconfig c globals id s' hs' => ?_⟩
  by_cases hrefused : Refused ((Source.directories roots).list d) id
  · rw [load_of_refused hrefused] at hs'
    have hnone : since s s' = [] := by rw [hs', since_self]
    rw [hnone]
    refine ⟨Nat.zero_le 1, fun before x after hsplit => by simp at hsplit, ?_⟩
    rintro rfl
    have hlibrary := hrefused all m hlist (find?_of_mem hall hm)
    rw [hconfig] at hlibrary
    cases hlibrary
  · obtain ⟨all', n, hlist', hfind, hn⟩ := passed_of_not_refused hrefused
    obtain rfl := Except.ok.inj (hlist.symm.trans hlist')
    rw [hlist] at hs'
    obtain ⟨s₀, new, hjournal, hlistings, hloaded, hlibraries, hfollows, e, he, hkey⟩ :=
      load_follows d globals hfind hn c s
    rw [← hs'] at hfollows
    rw [hfollows.since_eq hjournal]
    have hs₀ := hs.forgotten hall hjournal hlistings hloaded hlibraries
    have hof : ∀ x ∈ new, x.Of all := fun x hx => (hfollows.genuine x hx).of hs₀.listings
    obtain ⟨honce, hserved⟩ := hfollows.config hall hm hloaded hof hconfig
    refine ⟨honce, hserved, ?_⟩
    rintro rfl
    rw [find?_of_mem hall hm] at hfind
    obtain rfl := Option.some.inj hfind
    exact ⟨e, he, congrArg Prod.snd hkey⟩

/-- Two loads of a config module that requires a library. -/
def afterTwoLoads : State := afterLoad (pairFiles "") (afterLoad (pairFiles "") .start)

theorem pair_completes_once :
    completions (Evaluation.hasId "l") afterTwoLoads.journal = 1 ∧
      completions (Evaluation.hasId "m") afterTwoLoads.journal = 2 ∧
      completions (Evaluation.hasId "m") (since (afterLoad (pairFiles "") .start) afterTwoLoads) = 1 := by
  have hlist := list_pairDisk ""
  have hfirst : Loads (pairDisk "") ["/"] (afterLoad (pairFiles "") .start) :=
    .load .start .outside [] "m"
  have hsecond : Loads (pairDisk "") ["/"] afterTwoLoads := .load hfirst .outside [] "m"
  have hlibrary := (modules_complete_once hsecond hlist (m := ⟨"l", rootPath "l", isConfig "", none⟩)
    (by simp [pairListing, flatListing, pairFiles])).1 (by decide +kernel)
  have hconfig := (modules_complete_once hfirst hlist
    (m := ⟨"m", rootPath "m", isConfig requiringText, none⟩)
    (by simp [pairListing, flatListing, pairFiles])).2 (by decide +kernel) .outside [] "m"
    afterTwoLoads rfl
  have hcounts : 1 ≤ completions (Evaluation.hasId "l") afterTwoLoads.journal ∧
      completions (Evaluation.hasId "m") afterTwoLoads.journal = 2 ∧
      1 ≤ completions (Evaluation.hasId "m")
        (since (afterLoad (pairFiles "") .start) afterTwoLoads) := by
    unfold afterTwoLoads
    rw [afterLoad_eq (inOrder_pairFiles ""), afterLoad_eq (inOrder_pairFiles "")]
    decide +kernel
  exact ⟨Nat.le_antisymm hlibrary.1 hcounts.1, hcounts.2.1, Nat.le_antisymm hconfig.1 hcounts.2.2⟩

end ConfGraph.Module
