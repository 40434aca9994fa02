import ConfGraph.Proofs.Module.Loading
import ConfGraph.Proofs.Scope.Blind

/-!
# Loads start afresh

What a load comes to does not depend on the loads before, as long as it evaluates config modules only:
the config modules of earlier loads are forgotten at its start, and libraries are all else that is kept.

Two loads run side by side, the second where nothing has been loaded yet.  As long as the second
evaluates no library, the two differ in libraries and events only; and once it does, nothing more is
said.

* `Alike`: two states that differ in libraries and events only.
* `OnlyConfig`: a part of the journal in which only config modules are evaluated.
* `InStep`: acts that come to the same in such states, unless a library is evaluated.
* `inStep_requireWithin`: requiring, to any depth.
* `Afresh`, `load_agrees`: a whole load, beside one where nothing has been loaded yet.
-/

namespace ConfGraph.Module

open Script

/-! ## 1. Two states -/

/-- **Two states that differ in libraries and events only**, the second of which has no libraries. -/
structure Alike (s t : State) : Prop where
  scopes : s.session.scopes = t.session.scopes
  heap : s.heap = t.heap
  loaded : s.loaded = t.loaded
  plain : s.plain = t.plain
  listings : s.listings = t.listings
  journal : s.journal = t.journal
  libraries : t.libraries = []

/-- In a part of the journal only config modules are evaluated. -/
def OnlyConfig (moments : List Moment) : Prop := ∀ e ∈ begun moments, e.isConfig = true

/-- The journal gets longer. -/
def Longer (s s' : State) : Prop := s.journal <+: s'.journal

theorem longer_of_eq {s s' : State} (h : s'.journal = s.journal) : Longer s s' :=
  ⟨[], by rw [List.append_nil, h]⟩

/-- What happens between two states happens before or after a third one between them. -/
theorem onlyConfig_since {s s' s'' : State} (h : Longer s s') (h' : Longer s' s'') :
    OnlyConfig (since s s'') ↔ OnlyConfig (since s s') ∧ OnlyConfig (since s' s'') := by
  obtain ⟨new, hnew⟩ := h
  obtain ⟨new', hnew'⟩ := h'
  have hfirst : since s s' = new := since_of_append hnew.symm
  have hsecond : since s' s'' = new' := since_of_append hnew'.symm
  have hboth : since s s'' = new ++ new' :=
    since_of_append (by rw [← hnew', ← hnew, List.append_assoc])
  unfold OnlyConfig
  rw [hfirst, hsecond, hboth, begun_append, List.forall_mem_append]

/-! ## 2. Acts -/

theorem tolerant_longer : Tolerant AnyFunction Longer where
  refl _ := List.prefix_rfl
  trans h h' := List.IsPrefix.trans h h'
  heap _ _ := List.prefix_rfl
  session _ _ _ := List.prefix_rfl
  invoke _ _ _ _ := List.prefix_rfl

section Acts

variable {α β : Type}

/-- An act takes nothing out of the journal. -/
abbrev KeepsJournal (a : Act State α) : Prop := Keeps AnyFunction Longer a

theorem keepsJournal_of_longer {a : Act State α} (ha : ∀ c s, Longer s (a.exec c s).2) :
    KeepsJournal a := fun c s _ => ⟨Heap.only_of_forall (fun _ => trivial) _, ha c s⟩

theorem KeepsJournal.longer {a : Act State α} (ha : KeepsJournal a) (c : Context) (s : State) :
    Longer s (a.exec c s).2 := (ha c s (Heap.only_of_forall (fun _ => trivial) _)).2

/-- Two states come to the same: one outcome, and states that are alike. -/
def Agree (a : Act State α) (c : Context) (s t : State) : Prop :=
  (a.exec c s).1 = (a.exec c t).1 ∧ Alike (a.exec c s).2 (a.exec c t).2

/-- Where states are alike an act comes to the same, unless it evaluates a library. -/
def Agrees (a : Act State α) : Prop :=
  ∀ c s t, Alike s t → OnlyConfig (since t (a.exec c t).2) → Agree a c s t

/-- **An act runs in step** in states that are alike. -/
structure InStep (a : Act State α) : Prop where
  journal : KeepsJournal a
  agrees : Agrees a

/-- An act that tells nothing of evaluations. -/
theorem inStep_of_agree {a : Act State α} (hjournal : ∀ c s, (a.exec c s).2.journal = s.journal)
    (ha : ∀ c s t, Alike s t → Agree a c s t) : InStep a :=
  ⟨keepsJournal_of_longer fun c s => longer_of_eq (hjournal c s), fun c s t h _ => ha c s t h⟩

theorem agrees_bind {a : Act State α} {f : α → Act State β} (ha : InStep a)
    (hf : ∀ x, InStep (f x)) : Agrees (a >>= f) := by
  intro c s t hst honly
  have hlonger := ha.journal.longer c t
  have hagree := ha.agrees c s t hst
  unfold Agree at hagree ⊢
  rw [Act.exec_bind] at honly ⊢
  rw [Act.exec_bind]
  rcases hs : a.exec c s with ⟨r, s'⟩
  rcases ht : a.exec c t with ⟨r', t'⟩
  rw [hs, ht] at hagree
  rw [ht] at hlonger honly
  cases r' with
  | error f =>
    obtain ⟨rfl, hst'⟩ := hagree honly
    exact ⟨rfl, hst'⟩
  | ok x =>
    obtain ⟨hfirst, hsecond⟩ := (onlyConfig_since hlonger ((hf x).journal.longer c t')).mp honly
    obtain ⟨rfl, hst'⟩ := hagree hfirst
    exact (hf x).agrees c s' t' hst' hsecond

theorem agree_onSession {a : Act Session α} (ha : a.Blind) {c : Context} {s t : State}
    (h : Alike s t) : Agree (onSession a) c s t := by
  obtain ⟨houtcome, hscopes⟩ := ha c s.session t.session h.scopes
  exact ⟨houtcome, { h with scopes := hscopes }⟩

theorem KeepsJournal.of_composed {a : Act State α}
    (ha : Composed AnyFunction (fun _ a => KeepsJournal a) a) : KeepsJournal a :=
  ha.keeps tolerant_longer fun _ _ h => h

/-- **Composed acts run in step** if the given acts do. -/
theorem InStep.of_composed {a : Act State α} (ha : Composed AnyFunction (fun _ a => InStep a) a) :
    InStep a := by
  have hjournal : ∀ {α : Type} {a : Act State α}, Composed AnyFunction (fun _ a => InStep a) a →
      KeepsJournal a := fun ha => ha.keeps tolerant_longer fun _ _ h => h.journal
  refine ⟨hjournal ha, ?_⟩
  induction ha with
  | given h => exact h.agrees
  | pure x => exact fun c s t h _ => ⟨rfl, h⟩
  | fail f => exact fun c s t h _ => ⟨rfl, h⟩
  | bind ha hf iha ihf => exact agrees_bind ⟨hjournal ha, iha⟩ fun x => ⟨hjournal (hf x), ihf x⟩
  | outcome ha ih =>
    intro c s t h honly
    obtain ⟨houtcome, hst⟩ := ih c s t h honly
    exact ⟨congrArg Except.ok houtcome, hst⟩
  | inside f ha ih => exact fun c s t h honly => ih (f c) s t h honly
  | context => exact fun c s t h _ => ⟨rfl, h⟩
  | @heap _ f hf ih =>
    intro c s t h honly
    have hexec : ∀ s : State, (getHeap >>= f : Act State _).exec c s = (f s.heap).exec c s :=
      fun _ => rfl
    unfold Agree
    rw [hexec] at honly
    rw [hexec, hexec, h.heap]
    exact ih t.heap (Heap.only_of_forall (fun _ => trivial) _) c s t h honly
  | @onHeap _ f hf =>
    intro c s t h _
    have hexec : ∀ s : State, (Script.onHeap f : Act State _).exec c s
        = (.ok (f s.heap).1, { s with heap := (f s.heap).2 }) := fun _ => rfl
    unfold Agree
    rw [hexec, hexec, h.heap]
    exact ⟨rfl, { h with heap := rfl }⟩
  | session ha => exact fun c s t h _ => agree_onSession ha.blind h
  | @invoke f hf args => exact fun c s t h _ => agree_onSession (f.blind_invoke args) h

end Acts

/-! ## 3. Evaluating -/

/-- Telling of the evaluation of a module takes nothing out of the journal. -/
theorem evaluating_longer (m : Listed) : Evaluating (fun _ a => KeepsJournal a) m where
  remembered? := keepsJournal_of_longer fun _ _ => List.prefix_rfl
  remember cell := keepsJournal_of_longer fun _ s => by
    cases hm : m.isConfig <;> simp [remember, Act.exec, Longer, State.noting, State.withCache, hm]
  started := keepsJournal_of_longer fun _ _ => List.prefix_rfl
  keep e := keepsJournal_of_longer fun _ _ => List.prefix_append _ _
  forget e := keepsJournal_of_longer fun _ s => by
    cases he : e.isConfig <;> simp [forget, Act.exec, Act.change, Longer, State.noting, State.withCache, he]

/-- **Config modules are evaluated in step**: those that are remembered are the same. -/
theorem evaluating_inStep {m : Listed} (hm : m.isConfig = true) :
    Evaluating (fun _ a => InStep a) m := by
  have htold := evaluating_longer m
  refine ⟨⟨htold.remembered?, ?_⟩, fun cell => ⟨htold.remember cell, ?_⟩, ⟨htold.started, ?_⟩,
    fun e => ⟨htold.keep e, ?_⟩, fun e => ⟨htold.forget e, ?_⟩⟩
  · intro c s t h _
    refine ⟨?_, h⟩
    simp [remembered?, Act.exec, State.cache, hm, h.loaded]
  · intro c s t h _
    refine ⟨?_, ?_⟩
    · simp [remember, Act.exec, h.journal]
    · simp only [remember, Act.exec, State.noting, State.withCache, hm, if_true]
      exact { h with loaded := by simp [h.loaded], journal := by simp [h.journal] }
  · exact fun c s t h _ => agree_onSession (Session.blind_note _) h
  · intro c s t h _
    exact ⟨rfl, { h with journal := congrArg (· ++ [Moment.completed e]) h.journal }⟩
  · intro c s t h _
    refine ⟨rfl, ?_⟩
    cases he : e.isConfig with
    | true =>
      simp only [forget, Act.exec, Act.change, State.noting, State.withCache, he, if_true]
      exact { h with loaded := by simp [h.loaded], journal := by simp [h.journal] }
    | false =>
      simp only [forget, Act.exec, Act.change, State.noting, State.withCache, he]
      exact { h with journal := by simp [h.journal], libraries := by simp [h.libraries, Cache.forget] }

theorem surroundings_inStep : Surroundings fun _ a => InStep a where
  rememberedPlain? path := inStep_of_agree (fun _ _ => rfl) fun _ _ _ h =>
    ⟨by simp [rememberedPlain?, Act.exec, h.plain], h⟩
  changePlain f := inStep_of_agree (fun _ _ => rfl) fun _ _ _ h =>
    ⟨rfl, { h with plain := congrArg f h.plain }⟩
  listed number := inStep_of_agree (fun _ _ => rfl) fun _ _ _ h =>
    ⟨by simp [listed, Act.exec, h.listings], h⟩

/-- **One evaluation runs in step.**  That of a library begins where no libraries are remembered, and
nothing more is said. -/
theorem inStep_moduleObject {require : Require} (hrequire : ∀ who d, InStep (require who d))
    (d : Disk) (globals : Fields Global) (listing : Nat) (m : Listed) :
    InStep (moduleObject require d globals listing m) := by
  have hjournal : KeepsJournal (moduleObject require d globals listing m) :=
    KeepsJournal.of_composed (composed_moduleObject (fun who d => .given (hrequire who d).journal)
      (onlyGlobals_any globals) (evaluating_longer m) d listing)
  cases hm : m.isConfig with
  | true =>
    exact InStep.of_composed (composed_moduleObject (fun who d => .given (hrequire who d))
      (onlyGlobals_any globals) (evaluating_inStep hm) d listing)
  | false =>
    refine ⟨hjournal, fun c s t h honly => ?_⟩
    have hnone : (t.cache m.isConfig).lookup m.id = none := by
      simp [State.cache, hm, h.libraries]
    obtain ⟨exports, e, t', -, hkind, -, hbegins, hexec⟩ :=
      exec_moduleObject_of_none require d globals listing m c hnone
    have htext : KeepsJournal (runText require d globals listing m exports e.cell) :=
      KeepsJournal.of_composed (composed_runText (fun who d => .given (hrequire who d).journal) d
        (onlyGlobals_any globals) _ _ _ _)
    have hending : ∀ r, KeepsJournal (ending e r) := by
      intro r
      have htold := evaluating_longer m
      cases r with
      | ok _ =>
        exact Keeps.bind tolerant_longer (htold.keep e) fun _ =>
          tolerant_longer.keeps_of_state fun _ _ => rfl
      | error f =>
        exact Keeps.bind tolerant_longer (htold.forget e) fun _ =>
          tolerant_longer.keeps_of_state fun _ _ => rfl
    have hbegan : Longer t t' := ⟨[.began e], hbegins.journal.symm⟩
    have hrest : Longer t' ((moduleObject require d globals listing m).exec c t).2 := by
      rw [hexec]
      exact List.IsPrefix.trans (htext.longer c t') ((hending _).longer c _)
    have hsince : since t t' = [.began e] := since_of_append hbegins.journal
    have hfirst := ((onlyConfig_since hbegan hrest).mp honly).1 e
      (by rw [hsince]; exact List.mem_singleton.mpr rfl)
    rw [hkind, hm] at hfirst
    cases hfirst

theorem inStep_evaluateModule {require : Require} (hrequire : ∀ who d, InStep (require who d))
    (d : Disk) (globals : Fields Global) (listing : Nat) (m : Listed) :
    InStep (evaluateModule require d globals listing m) :=
  InStep.of_composed
    (composed_evaluateModule (.given (inStep_moduleObject hrequire d globals listing m)))

theorem inStep_serve (x : Serving) : InStep (serve x) :=
  ⟨keepsJournal_of_longer fun _ _ => List.prefix_append _ _, fun _ _ _ h _ =>
    ⟨rfl, { h with journal := congrArg (· ++ [Moment.served x]) h.journal }⟩⟩

/-- **Requiring runs in step**, to any depth. -/
theorem inStep_requireWithin (d : Disk) (globals : Fields Global) :
    ∀ (depth : Nat) (who : Requirer) (specifier : Datum),
      InStep (requireWithin d globals depth who specifier)
  | 0, _, _ => InStep.of_composed (.fail _)
  | depth + 1, who, specifier => by
    have hrequire := inStep_requireWithin d globals depth
    exact InStep.of_composed (composed_requireStep
      (fun who spec => .given (hrequire who spec)) surroundings_inStep
      (fun number path spec m => composed_requireListed
        (.given (inStep_moduleObject hrequire d globals number m)) inStep_serve path spec)
      who specifier)

/-! ## 4. Loading -/

/-- **A state in which nothing has been loaded yet** beside another one: heap and scopes, plain files,
and what code has kept of earlier loads are the same. -/
structure Afresh (s t : State) : Prop where
  scopes : s.session.scopes = t.session.scopes
  heap : s.heap = t.heap
  plain : s.plain = t.plain
  listings : s.listings = t.listings
  journal : s.journal = t.journal
  loaded : t.loaded = []
  libraries : t.libraries = []

/-- **A load comes to the same where nothing has been loaded yet**, if it evaluates config modules only
there. -/
theorem load_agrees (d : Disk) (globals : Fields Global) {all : List Listed} {id : String} {m : Listed}
    (hfind : all.find? (fun m => m.id == id) = some m) (hm : m.isConfig = true) (c : Context)
    {s t : State} (hst : Afresh s t)
    (honly : OnlyConfig (since t ((load d globals (.ok all) id).exec c t).2)) :
    Agree (load d globals (.ok all) id) c s t := by
  obtain ⟨libraries, events, s₀, hs₀, -, hexec⟩ := exec_load_of_passed d globals hfind hm c s
  obtain ⟨libraries', events', t₀, ht₀, hlibraries', hexec'⟩ :=
    exec_load_of_passed d globals hfind hm c t
  have hnone : libraries' = [] := by
    have hapart : t.Apart := fun id hid => by
      rw [hst.loaded] at hid
      exact nomatch hid
    rw [hlibraries' hapart, hst.libraries]
    rfl
  have halike : Alike s₀ t₀ := by
    rw [hs₀, ht₀, hnone]
    exact ⟨hst.scopes, hst.heap, rfl, hst.plain, congrArg (· ++ [all]) hst.listings, hst.journal, rfl⟩
  have hdepth : s₀.depth d = t₀.depth d := by
    unfold State.depth
    rw [halike.listings]
  have hsince : ∀ t', since t t' = since t₀ t' := by
    rw [ht₀]
    exact fun _ => rfl
  rw [hexec', hsince] at honly
  unfold Agree
  rw [hexec, hexec', hdepth, hst.listings]
  exact (inStep_evaluateModule (inStep_requireWithin d globals _) d globals _ m).agrees c s₀ t₀ halike
    honly

end ConfGraph.Module
