import ConfGraph.Proofs.Module.Composed

/-!
# The ledger of evaluations

What is remembered of modules is what the journal tells: while modules are evaluated, to what was
remembered before come just those evaluations that have completed since, in the order in which they
began.  An evaluation that fails takes away its own entry and no other, since nothing that is remembered
is evaluated again.

* `survivors`: the evaluations of a part of the journal that have completed in it.
* `Records`: what a part of the journal says of the states before and after it.
* `Records.trans`, `records_completed`, `records_failed`: two parts, and one evaluation.
* `keepsLedger_requireWithin`: requiring keeps the ledger, to any depth.
-/

namespace ConfGraph.Module

open Script

/-! ## 1. Evaluations in the journal -/

/-- The evaluation that begins, if one does. -/
def Moment.begun? : Moment → Option Evaluation
  | .began e => some e
  | _ => none

/-- What has happened to evaluations between two states. -/
def since (s s' : State) : List Moment := s'.journal.drop s.journal.length

theorem since_of_append {s s' : State} {new : List Moment} (h : s'.journal = s.journal ++ new) :
    since s s' = new := by rw [since, h, List.drop_left]

theorem since_self (s : State) : since s s = [] := List.drop_length

/-- The evaluations that begin in a part of the journal. -/
def begun (moments : List Moment) : List Evaluation := moments.filterMap Moment.begun?

/-- **The evaluations of a kind that have completed** in the part of the journal in which they began,
in the order in which they began. -/
def survivors (isConfig : Bool) (moments : List Moment) : List Evaluation :=
  (begun moments).filter fun e => e.isConfig == isConfig && moments.contains (.completed e)

/-- What is remembered of an evaluation. -/
def Evaluation.entry (e : Evaluation) : String × CellId := (e.id, e.cell)

theorem begun_append (xs ys : List Moment) : begun (xs ++ ys) = begun xs ++ begun ys :=
  List.filterMap_append

theorem mem_survivors {isConfig : Bool} {moments : List Moment} {e : Evaluation} :
    e ∈ survivors isConfig moments ↔
      e ∈ begun moments ∧ e.isConfig = isConfig ∧ .completed e ∈ moments := by
  simp [survivors]

/-- Where completions stay in the part in which the evaluations began, parts can be told apart. -/
theorem survivors_append {xs ys : List Moment} (isConfig : Bool)
    (hxs : ∀ e ∈ begun xs, .completed e ∉ ys) (hys : ∀ e ∈ begun ys, .completed e ∉ xs) :
    survivors isConfig (xs ++ ys) = survivors isConfig xs ++ survivors isConfig ys := by
  unfold survivors
  rw [begun_append, List.filter_append]
  congr 1
  · refine List.filter_congr fun e he => ?_
    simp [hxs e he]
  · refine List.filter_congr fun e he => ?_
    simp [hys e he]

/-! ## 2. What the journal says -/

theorem Cache.forget_append (c c' : Cache) (id : String) :
    Cache.forget (c ++ c') id = c.forget id ++ c'.forget id := List.filter_append _ _

theorem State.cache_withCache (s : State) (isConfig kind : Bool) (f : Cache → Cache) :
    (s.withCache isConfig f).cache kind = if kind = isConfig then f (s.cache kind) else s.cache kind := by
  cases isConfig <;> cases kind <;> rfl

/-- **What a part of the journal says** of the states before and after it. -/
structure Records (s : State) (new : List Moment) (s' : State) : Prop where
  journal : s'.journal = s.journal ++ new
  cache : ∀ isConfig,
    s'.cache isConfig = s.cache isConfig ++ (survivors isConfig new).map Evaluation.entry
  numbered : ∀ e ∈ begun new, s.journal.length ≤ e.number ∧ e.number < s'.journal.length
  /-- What is remembered is not evaluated. -/
  fresh : ∀ e ∈ begun new, e.id ∉ (s.cache e.isConfig).ids
  begins : ∀ e, .completed e ∈ new → e ∈ begun new
  /-- After an evaluation has completed there is no other one of the same module. -/
  last : ∀ e e', .completed e ∈ new → e' ∈ begun new → e'.id = e.id → e'.isConfig = e.isConfig →
    e'.number ≤ e.number

/-- Two states between which the journal accounts for what is remembered. -/
def Ledger (s s' : State) : Prop := ∃ new, Records s new s'

variable {s s' s'' : State} {new new' : List Moment}

/-- Nothing is said of states that remember the same. -/
theorem records_nil (hjournal : s'.journal = s.journal) (hloaded : s'.loaded = s.loaded)
    (hlibraries : s'.libraries = s.libraries) : Records s [] s' where
  journal := by rw [hjournal, List.append_nil]
  cache isConfig := by cases isConfig <;> simp [State.cache, hloaded, hlibraries, survivors, begun]
  numbered _ h := nomatch h
  fresh _ h := nomatch h
  begins _ h := nomatch h
  last _ _ h := nomatch h

/-- Nor is anything said of a module object that is given to somebody. -/
theorem records_served (s : State) (x : Serving) : Records s [.served x] (s.noting (.served x)) where
  journal := rfl
  cache isConfig := by cases isConfig <;> simp [State.cache, State.noting, survivors, begun, Moment.begun?]
  numbered _ h := nomatch h
  fresh _ h := nomatch h
  begins _ h := nomatch List.mem_singleton.mp h
  last _ _ h := nomatch List.mem_singleton.mp h

theorem Records.length_le (h : Records s new s') : s.journal.length ≤ s'.journal.length := by
  rw [h.journal, List.length_append]
  omega

/-- Completions stay in the part in which the evaluations began: numbers tell the parts apart. -/
theorem Records.apart (h : Records s new s') (h' : Records s' new' s'') :
    (∀ e ∈ begun new, .completed e ∉ new') ∧ ∀ e ∈ begun new', .completed e ∉ new := by
  constructor
  · intro e he hcompleted
    have hearly := (h.numbered e he).2
    have hlate := (h'.numbered e (h'.begins e hcompleted)).1
    omega
  · intro e he hcompleted
    have hlate := (h'.numbered e he).1
    have hearly := (h.numbered e (h.begins e hcompleted)).2
    omega

/-- What is remembered after an evaluation that has completed. -/
theorem Records.mem_cache (h : Records s new s') {e : Evaluation} (he : .completed e ∈ new) :
    e.id ∈ (s'.cache e.isConfig).ids := by
  have hmem : e ∈ survivors e.isConfig new := mem_survivors.mpr ⟨h.begins e he, rfl, he⟩
  rw [h.cache, Cache.ids, List.map_append, List.map_map]
  exact List.mem_append_right _ (List.mem_map_of_mem hmem)

theorem Records.mem_cache_of_mem (h : Records s new s') {isConfig : Bool} {id : String}
    (hid : id ∈ (s.cache isConfig).ids) : id ∈ (s'.cache isConfig).ids := by
  rw [h.cache, Cache.ids, List.map_append]
  exact List.mem_append_left _ hid

/-- **Two parts of the journal**, one after the other. -/
theorem Records.trans (h : Records s new s') (h' : Records s' new' s'') :
    Records s (new ++ new') s'' where
  journal := by rw [h'.journal, h.journal, List.append_assoc]
  cache isConfig := by
    obtain ⟨hxs, hys⟩ := h.apart h'
    rw [survivors_append isConfig hxs hys, List.map_append, ← List.append_assoc, ← h.cache,
      h'.cache]
  numbered e he := by
    have hlength := h.length_le
    have hlength' := h'.length_le
    rw [begun_append] at he
    rcases List.mem_append.mp he with he | he
    · have hnumber := h.numbered e he
      omega
    · have hnumber := h'.numbered e he
      omega
  fresh e he hmem := by
    rw [begun_append] at he
    rcases List.mem_append.mp he with he | he
    · exact h.fresh e he hmem
    · exact h'.fresh e he (h.mem_cache_of_mem hmem)
  begins e he := by
    rw [begun_append]
    rcases List.mem_append.mp he with he | he
    · exact List.mem_append_left _ (h.begins e he)
    · exact List.mem_append_right _ (h'.begins e he)
  last e e' he he' hid hkind := by
    rw [begun_append] at he'
    rcases List.mem_append.mp he with he | he <;> rcases List.mem_append.mp he' with he' | he'
    · exact h.last e e' he he' hid hkind
    · refine absurd ?_ (h'.fresh e' he')
      rw [hid, hkind]
      exact h.mem_cache he
    · have hearly := (h.numbered e' he').2
      have hlate := (h'.numbered e (h'.begins e he)).1
      omega
    · exact h'.last e e' he he' hid hkind

/-! ## 3. One evaluation -/

/-- An evaluation that begins where its module is not remembered. -/
structure Begins (s : State) (e : Evaluation) (s' : State) : Prop where
  number : e.number = s.journal.length
  fresh : e.id ∉ (s.cache e.isConfig).ids
  journal : s'.journal = s.journal ++ [.began e]
  cache : ∀ isConfig, s'.cache isConfig =
    if isConfig = e.isConfig then s.cache isConfig ++ [e.entry] else s.cache isConfig
  listings : s'.listings = s.listings

section Evaluation

variable {e : Evaluation} (hbegins : Begins s e s') (h : Records s' new s'')

include hbegins h

/-- Inside an evaluation, others of the same module do not begin. -/
theorem Begins.not_again {e' : Evaluation} (he' : e' ∈ begun new) :
    ¬ (e'.id = e.id ∧ e'.isConfig = e.isConfig) := by
  rintro ⟨hid, hkind⟩
  refine h.fresh e' he' ?_
  rw [hbegins.cache, if_pos hkind, Cache.ids, List.map_append, hid]
  exact List.mem_append_right _ (List.mem_singleton.mpr rfl)

/-- The evaluation is none of those inside it. -/
theorem Begins.not_completed : .completed e ∉ new :=
  fun hcompleted => hbegins.not_again h (h.begins e hcompleted) ⟨rfl, rfl⟩

/-- Neither the module of the evaluation nor any inside it was remembered. -/
theorem Begins.fresh_of_mem {e' : Evaluation} (he' : e' ∈ e :: begun new) :
    e'.id ∉ (s.cache e'.isConfig).ids := by
  rcases List.mem_cons.mp he' with rfl | hinner
  · exact hbegins.fresh
  · intro hmem
    refine h.fresh e' hinner ?_
    rw [hbegins.cache]
    split
    · rw [Cache.ids, List.map_append]
      exact List.mem_append_left _ hmem
    · exact hmem

theorem Begins.number_lt {e' : Evaluation} (he' : e' ∈ begun new) : e.number < e'.number := by
  have hnumber := (h.numbered e' he').1
  rw [hbegins.journal, List.length_append, List.length_singleton] at hnumber
  have hself := hbegins.number
  omega

theorem Begins.numbered_of_mem {e' : Evaluation} (he' : e' ∈ e :: begun new) :
    s.journal.length ≤ e'.number ∧ e'.number < s''.journal.length + 1 := by
  have hself := hbegins.number
  rcases List.mem_cons.mp he' with rfl | hinner
  · have hlength := h.length_le
    rw [hbegins.journal, List.length_append, List.length_singleton] at hlength
    omega
  · have hlater := hbegins.number_lt h hinner
    have hnumber := (h.numbered e' hinner).2
    omega

omit hbegins h in
theorem begun_evaluation {ending : Moment} (hending : ending.begun? = none) :
    begun ([.began e] ++ new ++ [ending]) = e :: begun new := by
  have hnone : begun [ending] = [] := by simp [begun, hending]
  rw [begun_append, begun_append, hnone, List.append_nil]
  rfl

/-- **An evaluation that completes** keeps its entry, which stands before those of the evaluations
inside it. -/
theorem records_completed :
    Records s ([.began e] ++ new ++ [.completed e]) (s''.noting (.completed e)) := by
  have hbegun : begun ([.began e] ++ new ++ [.completed e]) = e :: begun new := begun_evaluation rfl
  have hmoments : ∀ e', .completed e' ∈ [Moment.began e] ++ new ++ [.completed e] ↔
      e' = e ∨ .completed e' ∈ new := by
    intro e'
    simp [or_comm]
  have hsurvivors : ∀ isConfig, survivors isConfig ([.began e] ++ new ++ [.completed e])
      = if isConfig = e.isConfig then e :: survivors isConfig new else survivors isConfig new := by
    intro isConfig
    have hinner : (begun new).filter (fun e' => e'.isConfig == isConfig
        && ([Moment.began e] ++ new ++ [Moment.completed e]).contains (.completed e'))
        = survivors isConfig new := by
      refine List.filter_congr fun e' he' => ?_
      have hne : e' ≠ e := fun heq => hbegins.not_again h he' ⟨by rw [heq], by rw [heq]⟩
      simp [hne]
    have hself : ([Moment.began e] ++ new ++ [Moment.completed e]).contains (.completed e) = true := by
      simp
    unfold survivors at hinner ⊢
    rw [hbegun, List.filter_cons, hinner, hself, Bool.and_true]
    by_cases hkind : isConfig = e.isConfig
    · rw [if_pos hkind, if_pos (by simp [hkind])]
    · rw [if_neg hkind, if_neg (by simpa using fun h => hkind h.symm)]
  refine ⟨?_, fun isConfig => ?_, fun e' he' => ?_, fun e' he' => ?_, fun e' he' => ?_,
    fun e₁ e₂ he₁ he₂ hid hkind => ?_⟩
  · simp [State.noting, h.journal, hbegins.journal]
  · have hcache : (s''.noting (.completed e)).cache isConfig = s''.cache isConfig := rfl
    rw [hcache, h.cache, hbegins.cache, hsurvivors]
    split <;> simp
  · have hlength : (s''.noting (.completed e)).journal.length = s''.journal.length + 1 := by
      simp [State.noting]
    rw [hlength]
    exact hbegins.numbered_of_mem h (hbegun ▸ he')
  · exact hbegins.fresh_of_mem h (hbegun ▸ he')
  · rw [hbegun]
    rcases (hmoments e').mp he' with rfl | hdone
    · exact List.mem_cons_self
    · exact List.mem_cons_of_mem _ (h.begins e' hdone)
  · rw [hbegun] at he₂
    rcases (hmoments e₁).mp he₁ with rfl | hdone <;> rcases List.mem_cons.mp he₂ with rfl | hinner
    · exact Nat.le_refl _
    · exact absurd ⟨hid, hkind⟩ (hbegins.not_again h hinner)
    · exact Nat.le_of_lt (hbegins.number_lt h (h.begins e₁ hdone))
    · exact h.last e₁ e₂ hdone hinner hid hkind

/-- **An evaluation that fails** takes away its entry and no other. -/
theorem records_failed :
    Records s ([.began e] ++ new ++ [.failed e])
      ((s''.withCache e.isConfig fun c => c.forget e.id).noting (.failed e)) := by
  have hbegun : begun ([.began e] ++ new ++ [.failed e]) = e :: begun new := begun_evaluation rfl
  have hmoments : ∀ e', .completed e' ∈ [Moment.began e] ++ new ++ [.failed e] ↔
      .completed e' ∈ new := by
    intro e'
    simp
  have hsurvivors : ∀ isConfig, survivors isConfig ([.began e] ++ new ++ [.failed e])
      = survivors isConfig new := by
    intro isConfig
    have hinner : (begun new).filter (fun e' => e'.isConfig == isConfig
        && ([Moment.began e] ++ new ++ [Moment.failed e]).contains (.completed e'))
        = survivors isConfig new := by
      refine List.filter_congr fun e' _ => ?_
      simp
    have hself : ([Moment.began e] ++ new ++ [Moment.failed e]).contains (.completed e) = false := by
      simpa using hbegins.not_completed h
    unfold survivors at hinner ⊢
    rw [hbegun, List.filter_cons, hinner, hself, Bool.and_false]
    rfl
  have hjournal : (s''.withCache e.isConfig fun c => c.forget e.id).journal = s''.journal := by
    cases e.isConfig <;> rfl
  refine ⟨?_, fun isConfig => ?_, fun e' he' => ?_, fun e' he' => ?_, fun e' he' => ?_,
    fun e₁ e₂ he₁ he₂ hid hkind => ?_⟩
  · simp [State.noting, hjournal, h.journal, hbegins.journal]
  · have hcache : ((s''.withCache e.isConfig fun c => c.forget e.id).noting (.failed e)).cache isConfig
        = (s''.withCache e.isConfig fun c => c.forget e.id).cache isConfig := rfl
    rw [hcache, State.cache_withCache, h.cache, hbegins.cache, hsurvivors]
    by_cases hkind : isConfig = e.isConfig
    · subst hkind
      -- nothing else is remembered under this identifier
      have hold : (s.cache e.isConfig).forget e.id = s.cache e.isConfig := by
        refine List.filter_eq_self.mpr fun p hp => bne_iff_ne.mpr ?_
        rintro hid
        exact hbegins.fresh (hid ▸ List.mem_map_of_mem hp)
      have hinner : Cache.forget ((survivors e.isConfig new).map Evaluation.entry) e.id
          = (survivors e.isConfig new).map Evaluation.entry := by
        refine List.filter_eq_self.mpr fun p hp => bne_iff_ne.mpr ?_
        rintro hid
        obtain ⟨e', he', rfl⟩ := List.mem_map.mp hp
        obtain ⟨hbegun', hkind', -⟩ := mem_survivors.mp he'
        exact hbegins.not_again h hbegun' ⟨hid, hkind'⟩
      have hself : Cache.forget [e.entry] e.id = [] := by simp [Cache.forget, Evaluation.entry]
      rw [if_pos rfl, if_pos rfl, Cache.forget_append, Cache.forget_append, hold, hself, hinner,
        List.append_nil]
    · rw [if_neg hkind, if_neg hkind]
  · have hlength : ((s''.withCache e.isConfig fun c => c.forget e.id).noting
        (.failed e)).journal.length = s''.journal.length + 1 := by
      simp [State.noting, hjournal]
    rw [hlength]
    exact hbegins.numbered_of_mem h (hbegun ▸ he')
  · exact hbegins.fresh_of_mem h (hbegun ▸ he')
  · rw [hbegun]
    exact List.mem_cons_of_mem _ (h.begins e' ((hmoments e').mp he'))
  · rw [hbegun] at he₂
    have hdone := (hmoments e₁).mp he₁
    rcases List.mem_cons.mp he₂ with rfl | hinner
    · exact Nat.le_of_lt (hbegins.number_lt h (h.begins e₁ hdone))
    · exact h.last e₁ e₂ hdone hinner hid hkind

end Evaluation

/-! ## 4. Requiring -/

/-- Any DSL function. -/
def AnyFunction (_ : DslFunction) : Prop := True

theorem onlyGlobals_any (globals : Fields Global) : OnlyGlobals AnyFunction globals := by
  intro g _
  cases g.2 with
  | function c face => cases c <;> exact trivial
  | _ => exact trivial

/-- Scripts cannot break the ledger: they see nothing of it. -/
theorem tolerant_ledger : Tolerant AnyFunction Ledger where
  refl _ := ⟨[], records_nil rfl rfl rfl⟩
  trans h h' := by
    obtain ⟨_, hrecords⟩ := h
    obtain ⟨_, hrecords'⟩ := h'
    exact ⟨_, hrecords.trans hrecords'⟩
  heap _ _ := ⟨[], records_nil rfl rfl rfl⟩
  session _ _ _ := ⟨[], records_nil rfl rfl rfl⟩
  invoke _ _ _ _ := ⟨[], records_nil rfl rfl rfl⟩

/-- An act keeps the ledger. -/
abbrev KeepsLedger {α : Type} (a : Act State α) : Prop := Keeps AnyFunction Ledger a

/-- Acts that do not change what is told of modules keep the ledger. -/
theorem keepsLedger_of_same {α : Type} {a : Act State α}
    (ha : ∀ c s, (a.exec c s).2.journal = s.journal ∧ (a.exec c s).2.loaded = s.loaded ∧
      (a.exec c s).2.libraries = s.libraries) : KeepsLedger a := by
  intro c s _
  obtain ⟨hjournal, hloaded, hlibraries⟩ := ha c s
  exact ⟨Heap.only_of_forall (fun _ => trivial) _, [], records_nil hjournal hloaded hlibraries⟩

theorem surroundings_ledger : Surroundings fun _ a => KeepsLedger a where
  rememberedPlain? _ := keepsLedger_of_same fun _ _ => ⟨rfl, rfl, rfl⟩
  changePlain _ := keepsLedger_of_same fun _ _ => ⟨rfl, rfl, rfl⟩
  listed _ := keepsLedger_of_same fun _ _ => ⟨rfl, rfl, rfl⟩

theorem KeepsLedger.of_composed {α : Type} {a : Act State α}
    (ha : Composed AnyFunction (fun _ a => KeepsLedger a) a) : KeepsLedger a :=
  ha.keeps tolerant_ledger fun _ _ h => h

/-- How an evaluation goes on when its text has run. -/
def ending (e : Evaluation) : Except Fault Unit → Act State CellId
  | .ok () => do
    keep e
    return e.cell
  | .error f => do
    forget e
    Act.fail f

/-- **What evaluating a module comes to** that is not remembered: its object is made, and its text runs
in a session of which only that is told. -/
theorem exec_moduleObject_of_new (d : Disk) (globals : Fields Global)
    (listing : Nat) (m : Listed) (c : Context) {s : State}
    (h : (s.cache m.isConfig).lookup m.id = none) :
    ∃ exports e s', (e.id = m.id ∧ e.isConfig = m.isConfig ∧ e.path = m.path) ∧ Begins s e s' ∧
      makeModule.exec c s = (.ok (exports, e.cell), { s with heap := s'.heap }) ∧
      s'.session = { s.session with events := s.session.events ++ [.moduleStarted m.id] } ∧
      s'.plain = s.plain ∧ ∀ require : Require,
      (moduleObject require d globals listing m).exec c s =
        (ending e ((runText require d globals listing m exports e.cell).exec c s').1).exec c
          ((runText require d globals listing m exports e.cell).exec c s').2 := by
  rcases hmade : makeModule.exec c s with ⟨_ | ⟨exports, cell⟩, s₁⟩
  · exact nomatch hmade
  · have hs₁ : ∃ heap, s₁ = { s with heap } := ⟨_, (congrArg Prod.snd hmade).symm⟩
    obtain ⟨heap, rfl⟩ := hs₁
    let e : Evaluation := ⟨s.journal.length, m.id, m.isConfig, cell, m.path⟩
    let s₂ : State := (State.withCache { s with heap } m.isConfig
      fun c => c ++ [(m.id, cell)]).noting (.began e)
    let s₃ : State := { s₂ with
      session := { s₂.session with events := s₂.session.events ++ [.moduleStarted m.id] } }
    have hremember : (remember m cell).exec c { s with heap } = (.ok e, s₂) := rfl
    have hnote : (onSession (Session.note (.moduleStarted m.id)) : Act State Unit).exec c s₂
        = (.ok (), s₃) := rfl
    have hremembered : (remembered? m).exec c s = (.ok none, s) := by
      rw [← h]
      rfl
    have hfresh : m.id ∉ (s.cache m.isConfig).ids := by
      intro hmem
      obtain ⟨p, hp, hid⟩ := List.mem_map.mp hmem
      exact bne_iff_ne.mp (List.lookup_eq_none_iff.mp h p hp) hid.symm
    have hjournal : s₃.journal = s.journal ++ [.began e] := by
      show (State.withCache { s with heap } m.isConfig _).journal ++ [.began e] = _
      cases m.isConfig <;> rfl
    have hcache : ∀ isConfig, s₃.cache isConfig =
        if isConfig = e.isConfig then s.cache isConfig ++ [e.entry] else s.cache isConfig := by
      intro isConfig
      exact State.cache_withCache { s with heap } m.isConfig isConfig _
    have hlistings : s₃.listings = s.listings := by
      show (State.withCache { s with heap } m.isConfig _).listings = _
      cases m.isConfig <;> rfl
    have hheap : s₃.heap = heap := by
      show (State.withCache { s with heap } m.isConfig _).heap = _
      cases m.isConfig <;> rfl
    have hplain : s₃.plain = s.plain := by
      show (State.withCache { s with heap } m.isConfig _).plain = _
      cases m.isConfig <;> rfl
    have hsession : s₃.session
        = { s.session with events := s.session.events ++ [.moduleStarted m.id] } := by
      have hbefore : s₂.session = s.session := by
        show (State.withCache { s with heap } m.isConfig _).session = _
        cases m.isConfig <;> rfl
      rw [← hbefore]
    refine ⟨exports, e, s₃, ⟨rfl, rfl, rfl⟩, ⟨rfl, hfresh, hjournal, hcache, hlistings⟩,
      by rw [hheap], hsession, hplain, fun require => ?_⟩
    unfold moduleObject
    rw [Act.exec_bind_of_ok hremembered]
    dsimp only
    rw [Act.exec_bind_of_ok hmade]
    dsimp only
    rw [Act.exec_bind_of_ok hremember, Act.exec_bind_of_ok hnote]
    have houtcome : (Act.outcome (runText require d globals listing m exports cell)).exec c s₃
        = (.ok ((runText require d globals listing m exports cell).exec c s₃).1,
          ((runText require d globals listing m exports cell).exec c s₃).2) := rfl
    rw [Act.exec_bind_of_ok houtcome]
    rcases ((runText require d globals listing m exports cell).exec c s₃).1 with f | _ <;> rfl

/-- The evaluation that it is, and what it does to the rest. -/
theorem exec_moduleObject_of_none (require : Require) (d : Disk) (globals : Fields Global)
    (listing : Nat) (m : Listed) (c : Context) {s : State}
    (h : (s.cache m.isConfig).lookup m.id = none) :
    ∃ exports e s', e.id = m.id ∧ e.isConfig = m.isConfig ∧ e.path = m.path ∧ Begins s e s' ∧
      (moduleObject require d globals listing m).exec c s =
        (ending e ((runText require d globals listing m exports e.cell).exec c s').1).exec c
          ((runText require d globals listing m exports e.cell).exec c s').2 := by
  obtain ⟨exports, e, s', ⟨hid, hconfig, hpath⟩, hbegins, -, -, -, hexec⟩ :=
    exec_moduleObject_of_new d globals listing m c h
  exact ⟨exports, e, s', hid, hconfig, hpath, hbegins, hexec require⟩

/-- What is remembered is handed out. -/
theorem exec_moduleObject_of_some (require : Require) (d : Disk) (globals : Fields Global)
    (listing : Nat) (m : Listed) (c : Context) {s : State} {cell : CellId}
    (h : (s.cache m.isConfig).lookup m.id = some cell) :
    (moduleObject require d globals listing m).exec c s = (.ok cell, s) := by
  have hremembered : (remembered? m).exec c s = (.ok (some cell), s) := by
    rw [← h]
    rfl
  unfold moduleObject
  rw [Act.exec_bind_of_ok hremembered]
  rfl

/-- An evaluation keeps the ledger if its requiring does. -/
theorem keepsLedger_moduleObject {require : Require}
    (hrequire : ∀ who d, KeepsLedger (require who d)) (d : Disk) (globals : Fields Global)
    (listing : Nat) (m : Listed) : KeepsLedger (moduleObject require d globals listing m) := by
  intro c s hs
  refine ⟨Heap.only_of_forall (fun _ => trivial) _, ?_⟩
  cases hknown : (s.cache m.isConfig).lookup m.id with
  | some cell =>
    rw [exec_moduleObject_of_some require d globals listing m c hknown]
    exact tolerant_ledger.refl s
  | none =>
    obtain ⟨exports, e, s', -, -, -, hbegins, hexec⟩ :=
      exec_moduleObject_of_none require d globals listing m c hknown
    have htext : KeepsLedger (runText require d globals listing m exports e.cell) :=
      KeepsLedger.of_composed
        (composed_runText (fun who d => .given (hrequire who d)) d (onlyGlobals_any globals) _ _ _ _)
    obtain ⟨-, new, hrecords⟩ := htext c s' (Heap.only_of_forall (fun _ => trivial) _)
    rw [hexec]
    rcases ((runText require d globals listing m exports e.cell).exec c s').1 with f | _
    · exact ⟨_, records_failed hbegins hrecords⟩
    · exact ⟨_, records_completed hbegins hrecords⟩

theorem keepsLedger_evaluateModule {require : Require}
    (hrequire : ∀ who d, KeepsLedger (require who d)) (d : Disk) (globals : Fields Global)
    (listing : Nat) (m : Listed) : KeepsLedger (evaluateModule require d globals listing m) :=
  KeepsLedger.of_composed
    (composed_evaluateModule (.given (keepsLedger_moduleObject hrequire d globals listing m)))

theorem keepsLedger_serve (x : Serving) : KeepsLedger (serve x) := fun _ s _ =>
  ⟨Heap.only_of_forall (fun _ => trivial) _, _, records_served s x⟩

/-- **Requiring keeps the ledger**, to any depth. -/
theorem keepsLedger_requireWithin (d : Disk) (globals : Fields Global) :
    ∀ (depth : Nat) (who : Requirer) (specifier : Datum),
      KeepsLedger (requireWithin d globals depth who specifier)
  | 0, _, _ => KeepsLedger.of_composed (.fail _)
  | depth + 1, who, specifier => by
    have hrequire := keepsLedger_requireWithin d globals depth
    have hmodule : ∀ number m,
        KeepsLedger (moduleObject (requireWithin d globals depth) d globals number m) :=
      keepsLedger_moduleObject hrequire d globals
    exact KeepsLedger.of_composed (composed_requireStep
      (fun who spec => .given (hrequire who spec)) surroundings_ledger
      (fun number path spec m =>
        composed_requireListed (.given (hmodule number m)) keepsLedger_serve path spec)
      who specifier)

end ConfGraph.Module
