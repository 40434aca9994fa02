import ConfGraph.Proofs.Module.Stage

/-!
# The journal replayed

What the journal tells of a run of requiring, to any depth and whatever the modules do, can be replayed
on the machine of evaluations, from what is remembered before to what is remembered after, and on top
of whatever evaluations are in progress.  And it is told of listed modules only: each evaluation is of
a module of some listing, and each module object was asked for by a specifier that means its module.

* `State.memory`: what is remembered, as a memory of the machine.
* `Moment.Genuine`: moments that tell of modules of the listings.
* `Follows`: a part of the journal that can be replayed between two states.
* `follows_moduleObject`: one evaluation, which hands out what is then remembered.
* `keepsFollowed_requireWithin`: requiring, to any depth.
-/

namespace ConfGraph.Module

open Script

/-! ## 1. Memory -/

/-- The module objects that are remembered. -/
def State.memory (s : State) (k : ModuleKey) : Option CellId := (s.cache k.1).lookup k.2

theorem Cache.lookup_append_singleton {c : Cache} {id : String} (hnew : id ∉ c.ids) (cell : CellId)
    (id' : String) :
    (c ++ [(id, cell)]).lookup id' = if id' = id then some cell else c.lookup id' := by
  rw [List.lookup_append]
  by_cases hid : id' = id
  · subst hid
    have hnone : c.lookup id' = none := by
      refine List.lookup_eq_none_iff.mpr fun p hp => ?_
      simp only [bne_iff_ne, ne_eq]
      rintro rfl
      exact hnew (List.mem_map_of_mem hp)
    simp [hnone]
  · have hne : (id' == id) = false := beq_eq_false_iff_ne.mpr hid
    simp [List.lookup_cons, hid, hne]

theorem Cache.lookup_forget (c : Cache) (id id' : String) :
    (c.forget id).lookup id' = if id' = id then none else c.lookup id' :=
  Fields.get?_erase c id id'

theorem ModuleKey.eq_iff {k : ModuleKey} {isConfig : Bool} {id : String} :
    k = (isConfig, id) ↔ k.1 = isConfig ∧ k.2 = id := by
  rw [Prod.ext_iff]

/-- An evaluation that begins is remembered. -/
theorem Begins.memory {s s' : State} {e : Evaluation} (h : Begins s e s') :
    s'.memory = Function.update s.memory e.key (some e.cell) := by
  funext k
  rw [Function.update_apply]
  unfold State.memory
  rw [h.cache]
  by_cases hkind : k.1 = e.isConfig
  · rw [if_pos hkind, hkind, Evaluation.entry, Cache.lookup_append_singleton h.fresh]
    simp [Evaluation.key, ModuleKey.eq_iff, hkind]
  · rw [if_neg hkind, if_neg]
    simp [Evaluation.key, ModuleKey.eq_iff, hkind]

/-- An evaluation that fails is forgotten. -/
theorem memory_failed (s : State) (e : Evaluation) :
    ((s.withCache e.isConfig fun c => c.forget e.id).noting (.failed e)).memory
      = Function.update s.memory e.key none := by
  funext k
  rw [Function.update_apply]
  have hcache : ((s.withCache e.isConfig fun c => c.forget e.id).noting (.failed e)).cache k.1
      = (s.withCache e.isConfig fun c => c.forget e.id).cache k.1 := rfl
  unfold State.memory
  rw [hcache, State.cache_withCache]
  by_cases hkind : k.1 = e.isConfig
  · rw [if_pos hkind, Cache.lookup_forget]
    simp [Evaluation.key, ModuleKey.eq_iff, hkind]
  · rw [if_neg hkind, if_neg]
    simp [Evaluation.key, ModuleKey.eq_iff, hkind]

/-! ## 2. Moments that can be replayed -/

/-- An evaluation is of a listed module. -/
def Evaluation.IsOf (e : Evaluation) (m : Listed) : Prop := e.key = m.key ∧ e.path = m.path

/-- A moment tells of a module of some listing, and of a module object only what its specifier
means. -/
def Moment.Genuine (listings : List (List Listed)) : Moment → Prop
  | .began e | .completed e | .failed e => ∃ all ∈ listings, ∃ m ∈ all, e.IsOf m
  | .served x => ∃ all m, listings[x.listing]? = some all ∧
      target? all x.requirer x.specifier = some m ∧ m.key = x.key

theorem mem_of_byId? {all : List Listed} {id : String} {m : Listed} (h : byId? all id = some m) :
    m ∈ all := List.mem_reverse.mp (List.mem_of_find?_eq_some h)

theorem mem_of_byPath? {all : List Listed} {path : String} {m : Listed}
    (h : byPath? all path = some m) : m ∈ all := List.mem_reverse.mp (List.mem_of_find?_eq_some h)

/-- A specifier means a module of the listing. -/
theorem mem_of_target? {all : List Listed} {path specifier : String} {m : Listed}
    (h : target? all path specifier = some m) : m ∈ all := by
  unfold target? at h
  split at h
  · next found hfound =>
    obtain rfl := Option.some.inj h
    exact mem_of_byId? hfound
  · split at h
    · obtain ⟨candidate, -, hcandidate⟩ := List.exists_of_findSome?_eq_some h
      exact mem_of_byPath? hcandidate
    · cases h

/-- **A part of the journal that can be replayed** between two states, on top of whatever evaluations
are in progress. -/
structure Follows (s : State) (new : List Moment) (s' : State) : Prop where
  journal : s'.journal = s.journal ++ new
  listings : s'.listings = s.listings
  moves : ∀ going, Moves ⟨s.memory, going⟩ new ⟨s'.memory, going⟩
  genuine : ∀ x ∈ new, x.Genuine s.listings

/-- Two states between which the journal can be replayed. -/
def Followed (s s' : State) : Prop := ∃ new, Follows s new s'

variable {s s' s'' : State} {new new' : List Moment}

theorem follows_nil (hjournal : s'.journal = s.journal) (hlistings : s'.listings = s.listings)
    (hloaded : s'.loaded = s.loaded) (hlibraries : s'.libraries = s.libraries) : Follows s [] s' where
  journal := by rw [hjournal, List.append_nil]
  listings := hlistings
  moves going := by
    have hmemory : s'.memory = s.memory := by
      funext k
      simp only [State.memory, State.cache, hloaded, hlibraries]
    rw [hmemory]
    exact .nil _
  genuine _ h := nomatch h

theorem Follows.trans (h : Follows s new s') (h' : Follows s' new' s'') :
    Follows s (new ++ new') s'' where
  journal := by rw [h'.journal, h.journal, List.append_assoc]
  listings := h'.listings.trans h.listings
  moves going := moves_append_iff.mpr ⟨_, h.moves going, h'.moves going⟩
  genuine x hx := by
    rcases List.mem_append.mp hx with hx | hx
    · exact h.genuine x hx
    · have hgenuine := h'.genuine x hx
      rw [h.listings] at hgenuine
      exact hgenuine

/-- A module object that is remembered may be given to whoever asks for its module. -/
theorem follows_served {x : Serving} (hmemory : s.memory x.key = some x.cell)
    (hgenuine : (Moment.served x).Genuine s.listings) :
    Follows s [.served x] (s.noting (.served x)) where
  journal := rfl
  listings := rfl
  moves _ := (Move.served x hmemory).moves
  genuine y hy := by
    obtain rfl := List.mem_singleton.mp hy
    exact hgenuine

/-- Scripts cannot keep the journal from being replayed: they see nothing of it. -/
theorem tolerant_followed : Tolerant AnyFunction Followed where
  refl _ := ⟨[], follows_nil rfl rfl rfl rfl⟩
  trans h h' := by
    obtain ⟨_, hfollows⟩ := h
    obtain ⟨_, hfollows'⟩ := h'
    exact ⟨_, hfollows.trans hfollows'⟩
  heap _ _ := ⟨[], follows_nil rfl rfl rfl rfl⟩
  session _ _ _ := ⟨[], follows_nil rfl rfl rfl rfl⟩
  invoke _ _ _ _ := ⟨[], follows_nil rfl rfl rfl rfl⟩

/-- What an act tells can be replayed. -/
abbrev KeepsFollowed {α : Type} (a : Act State α) : Prop := Keeps AnyFunction Followed a

theorem keepsFollowed_of_same {α : Type} {a : Act State α}
    (ha : ∀ c s, (a.exec c s).2.journal = s.journal ∧ (a.exec c s).2.listings = s.listings ∧
      (a.exec c s).2.loaded = s.loaded ∧ (a.exec c s).2.libraries = s.libraries) :
    KeepsFollowed a := by
  intro c s _
  obtain ⟨hjournal, hlistings, hloaded, hlibraries⟩ := ha c s
  exact ⟨Heap.only_of_forall (fun _ => trivial) _, [],
    follows_nil hjournal hlistings hloaded hlibraries⟩

theorem keepsFollowed_of_forall {α : Type} {a : Act State α}
    (ha : ∀ c s, Followed s (a.exec c s).2) : KeepsFollowed a :=
  fun c s _ => ⟨Heap.only_of_forall (fun _ => trivial) _, ha c s⟩

theorem KeepsFollowed.followed {α : Type} {a : Act State α} (ha : KeepsFollowed a) (c : Context)
    (s : State) : Followed s (a.exec c s).2 := (ha c s (Heap.only_of_forall (fun _ => trivial) _)).2

theorem KeepsFollowed.of_composed {α : Type} {a : Act State α}
    (ha : Composed AnyFunction (fun _ a => KeepsFollowed a) a) : KeepsFollowed a :=
  ha.keeps tolerant_followed fun _ _ h => h

theorem surroundings_followed : Surroundings fun _ a => KeepsFollowed a where
  rememberedPlain? _ := keepsFollowed_of_same fun _ _ => ⟨rfl, rfl, rfl, rfl⟩
  changePlain _ := keepsFollowed_of_same fun _ _ => ⟨rfl, rfl, rfl, rfl⟩
  listed _ := keepsFollowed_of_same fun _ _ => ⟨rfl, rfl, rfl, rfl⟩

/-! ## 3. One evaluation -/

section Evaluation

variable {e : Evaluation} (hbegins : Begins s e s') (h : Follows s' new s'')
  (hlisted : ∃ all ∈ s.listings, ∃ m ∈ all, e.IsOf m)
include hbegins

theorem Begins.is_new : s.memory e.key = none := by
  refine List.lookup_eq_none_iff.mpr fun p hp => ?_
  simp only [bne_iff_ne, ne_eq]
  intro hid
  have hmem : p.1 ∈ (s.cache e.isConfig).ids := List.mem_map_of_mem hp
  rw [← hid] at hmem
  exact hbegins.fresh hmem

include h

/-- At its end an evaluation is still remembered. -/
theorem Begins.memory_at_end : s''.memory e.key = some e.cell := by
  have hsound : Stage.Sound ⟨s'.memory, [e]⟩ := by
    refine ⟨fun e' he' => ?_, by simp⟩
    obtain rfl := List.mem_singleton.mp he'
    simp [hbegins.memory]
  exact ((h.moves [e]).sound hsound).held e (List.mem_singleton.mpr rfl)

/-- The moments of an evaluation, up to its end. -/
theorem Begins.moves_to_end (going : List Evaluation) :
    Moves ⟨s.memory, going⟩ ([.began e] ++ new) ⟨s''.memory, e :: going⟩ := by
  have hfirst := Move.began (g := ⟨s.memory, going⟩) e hbegins.is_new
  rw [← hbegins.memory] at hfirst
  exact .cons hfirst (h.moves (e :: going))

include hlisted

/-- **An evaluation that completes** stays remembered. -/
theorem follows_completed :
    Follows s ([.began e] ++ new ++ [.completed e]) (s''.noting (.completed e)) where
  journal := by simp [State.noting, h.journal, hbegins.journal]
  listings := h.listings.trans hbegins.listings
  moves going := moves_append_iff.mpr
    ⟨_, hbegins.moves_to_end h going, (Move.completed e going rfl).moves⟩
  genuine x hx := by
    simp only [List.mem_append, List.mem_singleton] at hx
    rcases hx with (rfl | hx) | rfl
    · exact hlisted
    · have hgenuine := h.genuine x hx
      rw [hbegins.listings] at hgenuine
      exact hgenuine
    · exact hlisted

/-- **An evaluation that fails** is forgotten. -/
theorem follows_failed :
    Follows s ([.began e] ++ new ++ [.failed e])
      ((s''.withCache e.isConfig fun c => c.forget e.id).noting (.failed e)) where
  journal := by
    have hjournal : (s''.withCache e.isConfig fun c => c.forget e.id).journal = s''.journal := by
      cases e.isConfig <;> rfl
    simp [State.noting, hjournal, h.journal, hbegins.journal]
  listings := by
    have hlistings : (s''.withCache e.isConfig fun c => c.forget e.id).listings = s''.listings := by
      cases e.isConfig <;> rfl
    simp [State.noting, hlistings, h.listings, hbegins.listings]
  moves going := by
    rw [memory_failed]
    exact moves_append_iff.mpr ⟨_, hbegins.moves_to_end h going, (Move.failed e going rfl).moves⟩
  genuine x hx := by
    simp only [List.mem_append, List.mem_singleton] at hx
    rcases hx with (rfl | hx) | rfl
    · exact hlisted
    · have hgenuine := h.genuine x hx
      rw [hbegins.listings] at hgenuine
      exact hgenuine
    · exact hlisted

end Evaluation

section Require

variable {require : Require} (hrequire : ∀ who d, KeepsFollowed (require who d))
include hrequire

/-- **What an evaluation tells can be replayed**, and the module object that it hands out is then
remembered.  A module that was not remembered is evaluated. -/
theorem follows_moduleObject (d : Disk) (globals : Fields Global) (listing : Nat) {m : Listed}
    {s : State} (hlisted : ∃ all ∈ s.listings, m ∈ all) (c : Context) :
    ∃ new, Follows s new ((moduleObject require d globals listing m).exec c s).2 ∧
      (∀ cell, ((moduleObject require d globals listing m).exec c s).1 = .ok cell →
        ((moduleObject require d globals listing m).exec c s).2.memory m.key = some cell) ∧
      (s.memory m.key = none → ∃ e, .began e ∈ new ∧ e.key = m.key) := by
  cases hknown : (s.cache m.isConfig).lookup m.id with
  | some cell =>
    rw [exec_moduleObject_of_some require d globals listing m c hknown]
    refine ⟨[], follows_nil rfl rfl rfl rfl, ?_, fun hnone => ?_⟩
    · rintro cell' ⟨⟩
      exact hknown
    · cases hnone.symm.trans hknown
  | none =>
    obtain ⟨exports, e, s', hid, hkind, hpath, hbegins, hexec⟩ :=
      exec_moduleObject_of_none require d globals listing m c hknown
    have hkey : e.key = m.key := by rw [Listed.key, Evaluation.key, hid, hkind]
    have hlisted' : ∃ all ∈ s.listings, ∃ m ∈ all, e.IsOf m := by
      obtain ⟨all, hall, hm⟩ := hlisted
      exact ⟨all, hall, m, hm, hkey, hpath⟩
    have htext : KeepsFollowed (runText require d globals listing m exports e.cell) :=
      KeepsFollowed.of_composed
        (composed_runText (fun who d => .given (hrequire who d)) d (onlyGlobals_any globals) _ _ _ _)
    obtain ⟨new, hfollows⟩ := htext.followed c s'
    rw [hexec]
    rcases ((runText require d globals listing m exports e.cell).exec c s').1 with f | _
    · exact ⟨_, follows_failed hbegins hfollows hlisted', nofun, fun _ => ⟨e, by simp, hkey⟩⟩
    · have hend := hbegins.memory_at_end hfollows
      refine ⟨_, follows_completed hbegins hfollows hlisted', ?_, fun _ => ⟨e, by simp, hkey⟩⟩
      rintro cell ⟨⟩
      rw [← hkey]
      exact hend

theorem follows_evaluateModule (d : Disk) (globals : Fields Global) (listing : Nat) {m : Listed}
    {s : State} (hlisted : ∃ all ∈ s.listings, m ∈ all) (c : Context) :
    ∃ new, Follows s new ((evaluateModule require d globals listing m).exec c s).2 ∧
      (s.memory m.key = none → ∃ e, .began e ∈ new ∧ e.key = m.key) := by
  obtain ⟨new, hfollows, -, hbegan⟩ := follows_moduleObject hrequire d globals listing hlisted c
  unfold evaluateModule
  rw [Act.exec_bind]
  rcases hmodule : (moduleObject require d globals listing m).exec c s with ⟨f | cell, s'⟩
  · rw [hmodule] at hfollows
    exact ⟨new, hfollows, hbegan⟩
  · rw [hmodule] at hfollows
    obtain ⟨new', hexports⟩ := (KeepsFollowed.of_composed (composed_exportsOf cell)).followed c s'
    refine ⟨new ++ new', hfollows.trans hexports, fun hnone => ?_⟩
    obtain ⟨e, he, hkey⟩ := hbegan hnone
    exact ⟨e, List.mem_append_left _ he, hkey⟩

/-! ## 4. Requiring -/

/-- **What requiring a listed module tells can be replayed**, if its specifier means it. -/
theorem followed_requireListed (d : Disk) (globals : Fields Global) {listing : Nat}
    {path specifier : String} {m : Listed} {s : State} {all : List Listed}
    (hlisting : s.listings[listing]? = some all) (htarget : target? all path specifier = some m)
    (c : Context) :
    Followed s ((requireListed require d globals listing path specifier m).exec c s).2 := by
  obtain ⟨new, hfollows, hmemory, -⟩ := follows_moduleObject hrequire d globals listing
    ⟨all, List.mem_of_getElem? hlisting, mem_of_target? htarget⟩ c
  unfold requireListed
  rw [Act.exec_bind]
  rcases hmodule : (moduleObject require d globals listing m).exec c s with ⟨f | cell, s'⟩
  · rw [hmodule] at hfollows
    exact ⟨new, hfollows⟩
  · rw [hmodule] at hfollows hmemory
    have hserved := follows_served (s := s')
      (x := ⟨listing, path, specifier, m.id, m.isConfig, cell⟩) (hmemory cell rfl)
      ⟨all, m, hfollows.listings ▸ hlisting, htarget, rfl⟩
    have hserve : (serve ⟨listing, path, specifier, m.id, m.isConfig, cell⟩).exec c s'
        = (.ok (), s'.noting (.served ⟨listing, path, specifier, m.id, m.isConfig, cell⟩)) := rfl
    dsimp only
    rw [Act.exec_bind_of_ok hserve]
    exact tolerant_followed.trans ⟨_, hfollows.trans hserved⟩
      ((KeepsFollowed.of_composed (composed_exportsOf cell)).followed c _)

end Require

theorem listing_of_target? {listings : List (List Listed)} {number : Nat} {path specifier : String}
    {m : Listed} (h : target? (listings[number]?.getD []) path specifier = some m) :
    ∃ all, listings[number]? = some all ∧ target? all path specifier = some m := by
  cases hlisting : listings[number]? with
  | none =>
    rw [hlisting] at h
    cases mem_of_target? h
  | some all =>
    rw [hlisting] at h
    exact ⟨all, rfl, h⟩

/-- **What requiring tells can be replayed**, to any depth. -/
theorem keepsFollowed_requireWithin (d : Disk) (globals : Fields Global) :
    ∀ (depth : Nat) (who : Requirer) (specifier : Datum),
      KeepsFollowed (requireWithin d globals depth who specifier)
  | 0, _, _ => KeepsFollowed.of_composed (.fail _)
  | depth + 1, who, specifier => by
    have hrequire := keepsFollowed_requireWithin d globals depth
    have hplain : ∀ path spec, KeepsFollowed
        (requirePlain (requireWithin d globals depth) d path spec) := fun path spec =>
      KeepsFollowed.of_composed (composed_requirePlain (fun who spec => .given (hrequire who spec))
        surroundings_followed d path spec)
    show KeepsFollowed (requireStep (requireWithin d globals depth) d globals who specifier)
    unfold requireStep
    split
    · exact hplain _ _
    · next number spec _ =>
      refine keepsFollowed_of_forall fun c s => ?_
      have hlisted : (listed number).exec c s = (.ok (s.listings[number]?.getD []), s) := rfl
      rw [Act.exec_bind_of_ok hlisted]
      split
      · next m htarget =>
        obtain ⟨all, hlisting, htarget⟩ := listing_of_target? htarget
        exact followed_requireListed hrequire d globals hlisting htarget _
      · exact (hplain _ _).followed c s
    · exact KeepsFollowed.of_composed (.fail _)
    · exact KeepsFollowed.of_composed (.fail _)
    · exact KeepsFollowed.of_composed (.fail _)

end ConfGraph.Module
