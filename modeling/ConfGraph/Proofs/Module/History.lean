import ConfGraph.Proofs.Module.Loading

/-!
# What is remembered after loads

What a load leaves remembered is what its own evaluations have completed, in the order in which they
began.  Between loads, no module is remembered both as a config module and as a library, and of each
module that is remembered the last evaluation has completed.

The latter rests on the listing of the load.  A library that an earlier load has left behind asks for
modules by the listing of that load, in which a module may have been of the other kind; a load in which
this happens is not faithful to its own listing, and may leave a module remembered twice.

* `State.Tidy`: how modules are remembered between calls.
* `History`: sequences of calls, whose loads are faithful to their listings.
* `caches_after_calls`: what is remembered after any sequence of calls.
* `remembered_twice_after_two_loads`: a load that is not faithful to its listing.
-/

namespace ConfGraph.Module

open Script

/-! ## 1. Sequences of calls -/

/-- The last evaluation of a module has completed, with a module object. -/
def State.Completed (s : State) (id : String) (cell : CellId) : Prop :=
  ∃ e : Evaluation, e.id = id ∧ e.cell = cell ∧ .completed e ∈ s.journal ∧
    ∀ e' ∈ begun s.journal, e'.id = id → e'.number ≤ e.number

/-- **How modules are remembered between calls**: none twice, and none whose last evaluation has not
completed. -/
structure State.Tidy (s : State) : Prop where
  apart : s.Apart
  completed : ∀ isConfig, ∀ p ∈ s.cache isConfig, s.Completed p.1 p.2

/-- All evaluations that are told of have been numbered in order. -/
def State.Numbered (s : State) : Prop := ∀ e ∈ begun s.journal, e.number < s.journal.length

/-- **Evaluations are faithful to a listing** if the kind of each is the one that the listing tells. -/
def Faithful (all : List Listed) (new : List Moment) : Prop :=
  ∀ e ∈ begun new, ∃ m ∈ all, m.id = e.id ∧ m.isConfig = e.isConfig

/-- Loads and other calls in any order, with any files at each.  What other code does to the session, to
the heap and to plain files may come between them. -/
inductive History : State → Prop where
  | start : History State.start
  | elsewhere {s : State} (h : History s) (session : Session) (heap : Heap) (plain : Cache) :
    History { s with session, heap, plain }
  | unload {s : State} (h : History s) (c : Context) (id : String) : History ((unload id).exec c s).2
  | load {s : State} (h : History s) (c : Context) (d : Disk) (globals : Fields Global)
      (roots : List String) (id : String)
      (hfaithful : ∀ all, (Source.directories roots).list d = .ok all →
        Faithful all (since s ((load d globals ((Source.directories roots).list d) id).exec c s).2)) :
    History ((load d globals ((Source.directories roots).list d) id).exec c s).2

theorem Faithful.kind_eq {all : List Listed} (hall : (all.map (·.id)).Nodup) {new : List Moment}
    (h : Faithful all new) {e : Evaluation} (he : e ∈ begun new) {m : Listed} (hm : m ∈ all)
    (hid : m.id = e.id) : m.isConfig = e.isConfig := by
  obtain ⟨m', hm', hid', hkind⟩ := h e he
  have hsame : m = m' := List.inj_on_of_nodup_map hall hm hm' (hid.trans hid'.symm)
  rw [hsame, hkind]

section Load

variable {s s₀ s' : State} {all : List Listed} {new : List Moment}

/-- What has happened since the start of a load is what its records say. -/
theorem Records.since_eq (h : Records s₀ new s') (hjournal : s₀.journal = s.journal) :
    since s s' = new := since_of_append (by rw [h.journal, hjournal])

/-- **A faithful load leaves no config module among the libraries.** -/
theorem Records.not_mem_libraries (h : Records s₀ new s')
    (hlibraries : s₀.libraries = s.libraries.without (configIds s all))
    (hall : (all.map (·.id)).Nodup) (hfaithful : Faithful all new) {m : Listed} (hm : m ∈ all)
    (hconfig : m.isConfig = true) : m.id ∉ s'.libraries.ids := by
  intro hmem
  have hcache := h.cache false
  simp only [State.cache, Bool.false_eq_true, if_false] at hcache
  rw [hcache, hlibraries, Cache.ids, List.map_append] at hmem
  rcases List.mem_append.mp hmem with hmem | hmem
  · obtain ⟨p, hp, hid⟩ := List.mem_map.mp hmem
    exact (Cache.mem_without.mp hp).2 (mem_configIds.mpr (.inr ⟨m, hm, hconfig, hid.symm⟩))
  · rw [List.map_map] at hmem
    obtain ⟨e, he, hid⟩ := List.mem_map.mp hmem
    obtain ⟨hbegun, hkind, -⟩ := mem_survivors.mp he
    have hsame := hfaithful.kind_eq hall hbegun hm hid.symm
    rw [hconfig, hkind] at hsame
    cases hsame

/-- What a load has completed stays completed: its module is not evaluated again. -/
theorem Records.completed_of_survives (h : Records s₀ new s') (hjournal : s₀.journal = s.journal)
    (hs : s.Numbered) (hall : (all.map (·.id)).Nodup) (hfaithful : Faithful all new)
    {isConfig : Bool} {e : Evaluation} (he : e ∈ survivors isConfig new) :
    s'.Completed e.id e.cell := by
  obtain ⟨hbegun, -, hdone⟩ := mem_survivors.mp he
  refine ⟨e, rfl, rfl, ?_, fun e' he' hid => ?_⟩
  · rw [h.journal]
    exact List.mem_append_right _ hdone
  · rw [h.journal, begun_append] at he'
    rcases List.mem_append.mp he' with he' | he'
    · rw [hjournal] at he'
      have hearly := hs e' he'
      have hlate := (h.numbered e hbegun).1
      rw [hjournal] at hlate
      omega
    · obtain ⟨m, hm, hm', hkind⟩ := hfaithful e' he'
      refine h.last e e' hdone he' hid ?_
      rw [← hkind, hfaithful.kind_eq hall hbegun hm (hm'.trans hid)]

/-- A library that a load keeps is not evaluated in it. -/
theorem Records.completed_of_kept (h : Records s₀ new s') (hjournal : s₀.journal = s.journal)
    (hlibraries : s₀.libraries = s.libraries.without (configIds s all))
    (hfaithful : Faithful all new) {p : String × CellId} (hp : p ∈ s₀.libraries)
    (hcompleted : s.Completed p.1 p.2) : s'.Completed p.1 p.2 := by
  obtain ⟨e, hid, hcell, hdone, hlast⟩ := hcompleted
  refine ⟨e, hid, hcell, ?_, fun e' he' hid' => ?_⟩
  · rw [h.journal, hjournal]
    exact List.mem_append_left _ hdone
  · rw [h.journal, hjournal, begun_append] at he'
    rcases List.mem_append.mp he' with he' | he'
    · exact hlast e' he' hid'
    · obtain ⟨m, hm, hm', hkind⟩ := hfaithful e' he'
      cases hconfig : e'.isConfig with
      | true =>
        rw [hlibraries] at hp
        refine absurd (mem_configIds.mpr (.inr ⟨m, hm, ?_, ?_⟩)) (Cache.mem_without.mp hp).2
        · rw [hkind, hconfig]
        · rw [hm', hid']
      | false =>
        have hfresh := h.fresh e' he'
        rw [hconfig, hid'] at hfresh
        exact absurd (List.mem_map_of_mem hp) hfresh

theorem Records.numbered_after (h : Records s₀ new s') (hjournal : s₀.journal = s.journal)
    (hs : s.Numbered) : s'.Numbered := by
  intro e he
  rw [h.journal, hjournal, begun_append] at he
  rcases List.mem_append.mp he with he | he
  · have hold := hs e he
    rw [h.journal, hjournal, List.length_append]
    omega
  · exact (h.numbered e he).2

/-- **A faithful load keeps modules in order.** -/
theorem Records.tidy (h : Records s₀ new s') (hjournal : s₀.journal = s.journal)
    (hloaded : s₀.loaded = []) (hlibraries : s₀.libraries = s.libraries.without (configIds s all))
    (hs : s.Tidy) (hnumbered : s.Numbered) (hall : (all.map (·.id)).Nodup)
    (hfaithful : Faithful all new) : s'.Tidy where
  apart := by
    intro id hid
    have hcache := h.cache true
    simp only [State.cache, if_true] at hcache
    rw [hcache, hloaded, List.nil_append, Cache.ids, List.map_map] at hid
    obtain ⟨e, he, rfl⟩ := List.mem_map.mp hid
    obtain ⟨hbegun, hkind, -⟩ := mem_survivors.mp he
    obtain ⟨m, hm, hm', hconfig⟩ := hfaithful e hbegun
    have hnot := h.not_mem_libraries hlibraries hall hfaithful hm (hconfig.trans hkind)
    rw [hm'] at hnot
    exact hnot
  completed := by
    intro isConfig p hp
    rw [h.cache] at hp
    rcases List.mem_append.mp hp with hp | hp
    · cases isConfig with
      | true =>
        have hnone : p ∈ s₀.loaded := hp
        rw [hloaded] at hnone
        cases hnone
      | false =>
        have hkept : p ∈ s₀.libraries := hp
        refine h.completed_of_kept hjournal hlibraries hfaithful hkept ?_
        rw [hlibraries] at hkept
        exact hs.completed false p (Cache.mem_without.mp hkept).1
    · obtain ⟨e, he, rfl⟩ := List.mem_map.mp hp
      exact h.completed_of_survives hjournal hnumbered hall hfaithful he

end Load

/-- Forgetting a module keeps the others in order. -/
theorem State.Tidy.unload {s : State} (hs : s.Tidy) (c : Context) (id : String) :
    ((unload id).exec c s).2.Tidy := by
  obtain ⟨b, events, hexec⟩ := exec_unload_of_apart hs.apart id c
  rw [hexec]
  refine ⟨hs.apart.forget id events, fun isConfig p hp => ?_⟩
  cases isConfig with
  | true => exact hs.completed true p (Cache.mem_forget.mp hp).1
  | false => exact hs.completed false p (Cache.mem_forget.mp hp).1

/-- **After any sequence of calls** modules are remembered in order. -/
theorem History.tidy {s : State} (h : History s) : s.Tidy ∧ s.Numbered := by
  induction h with
  | start =>
    refine ⟨⟨fun id hid => (nomatch hid), fun isConfig p hp => ?_⟩, fun e he => nomatch he⟩
    cases isConfig <;> exact nomatch hp
  | elsewhere h session heap plain ih =>
    obtain ⟨hs, hnumbered⟩ := ih
    refine ⟨{ apart := hs.apart, completed := fun isConfig => ?_ }, hnumbered⟩
    cases isConfig with
    | false => exact hs.completed false
    | true => exact hs.completed true
  | unload h c id ih =>
    obtain ⟨hs, hnumbered⟩ := ih
    refine ⟨hs.unload c id, ?_⟩
    obtain ⟨b, events, hexec⟩ := exec_unload id c _
    rw [hexec]
    exact hnumbered
  | @load s h c d globals roots id hfaithful ih =>
    obtain ⟨hs, hnumbered⟩ := ih
    by_cases hrefused : Refused ((Source.directories roots).list d) id
    · rw [load_of_refused hrefused]
      exact ⟨hs, hnumbered⟩
    · obtain ⟨all, m, hlist, hfind, hm⟩ := passed_of_not_refused hrefused
      have hall := nodup_list hlist
      have hnew := hfaithful all hlist
      rw [hlist] at hnew ⊢
      obtain ⟨s₀, new, hloaded, hjournal, hlibraries, hrecords⟩ :=
        load_records d globals hfind hm c s
      rw [hrecords.since_eq hjournal] at hnew
      exact ⟨hrecords.tidy hjournal hloaded (hlibraries hs.apart) hs hnumbered hall hnew,
        hrecords.numbered_after hjournal hnumbered⟩

/-! ## 2. What is remembered -/

/-- **What is remembered after any sequence of calls.**  No module is remembered twice, and of each
that is remembered the last evaluation has completed.  A further load that is refused changes nothing.
One that is not refused, whether it then succeeds or fails, leaves remembered just the config modules
whose evaluations it has completed, in the order in which they began; and if it is faithful to its
listing, no config module of the listing among the libraries. -/
theorem caches_after_calls {s : State} (h : History s) :
    s.Tidy ∧ ∀ (c : Context) (d : Disk) (globals : Fields Global) (roots : List String) (id : String)
      (s' : State), s' = ((load d globals ((Source.directories roots).list d) id).exec c s).2 →
      (Refused ((Source.directories roots).list d) id → s' = s) ∧
      (¬ Refused ((Source.directories roots).list d) id →
        s'.loaded = (survivors true (since s s')).map Evaluation.entry ∧
        ∀ all, (Source.directories roots).list d = .ok all → Faithful all (since s s') →
          ∀ m ∈ all, m.isConfig = true → m.id ∉ s'.libraries.ids) := by
  obtain ⟨hs, -⟩ := h.tidy
  refine ⟨hs, fun c d globals roots id s' hs' => ⟨fun hrefused => ?_, fun hrefused => ?_⟩⟩
  · rw [hs', load_of_refused hrefused]
  · obtain ⟨all, m, hlist, hfind, hm⟩ := passed_of_not_refused hrefused
    rw [hlist] at hs' ⊢
    obtain ⟨s₀, new, hloaded, hjournal, hlibraries, hrecords⟩ :=
      load_records d globals hfind hm c s
    rw [← hs'] at hrecords
    rw [hrecords.since_eq hjournal]
    refine ⟨?_, fun all' hall' hfaithful m' hm' hconfig => ?_⟩
    · have hcache := hrecords.cache true
      simp only [State.cache, if_true] at hcache
      rw [hcache, hloaded, List.nil_append]
    · obtain rfl := Except.ok.inj hall'
      exact hrecords.not_mem_libraries (hlibraries hs.apart) (nodup_list hlist) hfaithful hm' hconfig

/-- The state after a load of `m` from modules in the root. -/
def afterLoad (files : List (String × String)) (s : State) : State :=
  ((load (flatDisk files) [] ((Source.directories ["/"]).list (flatDisk files)) "m").exec .outside s).2

theorem afterLoad_eq {files : List (String × String)} (h : InOrder (files.map (·.1))) (s : State) :
    afterLoad files s
      = ((load (flatDisk files) [] (.ok (flatListing files)) "m").exec .outside s).2 := by
  rw [afterLoad, list_flatDisk h]

/-- First `l` is a library; then it becomes a config module, and the library is forgotten. -/
theorem caches_after_two_loads :
    (afterLoad (pairFiles "") .start).libraries.ids = ["l"] ∧
      (afterLoad (pairFiles configText) (afterLoad (pairFiles "") .start)).loaded.ids = ["m", "l"] ∧
      "l" ∉ (afterLoad (pairFiles configText) (afterLoad (pairFiles "") .start)).libraries.ids := by
  have hruns : (Faithful (pairListing "") (since .start (afterLoad (pairFiles "") .start)) ∧
        (afterLoad (pairFiles "") .start).libraries.ids = ["l"]) ∧
      Faithful (pairListing configText) (since (afterLoad (pairFiles "") .start)
          (afterLoad (pairFiles configText) (afterLoad (pairFiles "") .start))) ∧
        ((survivors true (since (afterLoad (pairFiles "") .start)
          (afterLoad (pairFiles configText) (afterLoad (pairFiles "") .start)))).map
            Evaluation.entry).map (·.1) = ["m", "l"] := by
    unfold Faithful
    rw [afterLoad_eq (inOrder_pairFiles ""), afterLoad_eq (inOrder_pairFiles configText)]
    decide +kernel
  obtain ⟨⟨hfirst, hlibraries⟩, hsecond, hsurvivors⟩ := hruns
  have hhistory : History (afterLoad (pairFiles "") .start) :=
    .load .start .outside (pairDisk "") [] ["/"] "m" fun all hall => by
      rw [list_pairDisk ""] at hall
      obtain rfl := Except.ok.inj hall
      exact hfirst
  have hpassed : ¬ Refused ((Source.directories ["/"]).list (pairDisk configText)) "m" := by
    intro hrefused
    exact nomatch hrefused _ ⟨"m", rootPath "m", true, none⟩ (list_pairDisk configText) rfl
  obtain ⟨hloaded, hconfig⟩ := ((caches_after_calls hhistory).2 .outside (pairDisk configText) [] ["/"]
    "m" (afterLoad (pairFiles configText) (afterLoad (pairFiles "") .start)) rfl).2 hpassed
  refine ⟨hlibraries, ?_, ?_⟩
  · rw [hloaded]
    exact hsurvivors
  · exact hconfig _ (list_pairDisk configText) hsecond
      ⟨"l", rootPath "l", isConfig configText, none⟩ List.mem_cons_self (by decide +kernel)

/-- A config module `m`, a library whose function requires `x` when it is called, and `x`. -/
def trioFiles (m x : String) : List (String × String) := [
  ("lib", "@\x7b\"export\":\"get\",\"be\":"
    ++ "\x7b\"$const\":\x7b\"$call\":\"require\",\"args\":[\"x\"]\x7d\x7d\x7d\n"),
  ("m", "'use config';\n" ++ m), ("x", x)]

theorem inOrder_trioFiles (m x : String) : InOrder ((trioFiles m x).map (·.1)) := by
  have hnames : InOrder ["lib", "m", "x"] := by decide +kernel
  exact hnames

/-- At first `m` only requires the library. -/
def firstText : String := "@\x7b\"call\":\"require\",\"args\":[\"lib\"]\x7d\n"

/-- Later `m` requires `x`, and calls the function of the library. -/
def laterText : String :=
  "@\x7b\"let\":\"l\",\"be\":\x7b\"$call\":\"require\",\"args\":[\"lib\"]\x7d\x7d\n"
    ++ "@\x7b\"let\":\"f\",\"be\":\x7b\"$get\":[\x7b\"$var\":\"l\"\x7d,\"get\"]\x7d\x7d\n"
    ++ "@\x7b\"call\":\"require\",\"args\":[\"x\"]\x7d\n"
    ++ "@\x7b\"call\":\"f\",\"args\":[]\x7d\n"

/-- **A library that is kept asks by the listing of its own load.**  There `x` was a library.  Now `x` is
a config module; it is evaluated twice, and remembered twice. -/
theorem remembered_twice_after_two_loads :
    (afterLoad (trioFiles laterText configText) (afterLoad (trioFiles firstText "") .start)).loaded.ids
        = ["m", "x"] ∧
      (afterLoad (trioFiles laterText configText)
        (afterLoad (trioFiles firstText "") .start)).libraries.ids = ["lib", "x"] := by
  rw [afterLoad_eq (inOrder_trioFiles _ _), afterLoad_eq (inOrder_trioFiles _ _)]
  decide +kernel

end ConfGraph.Module
