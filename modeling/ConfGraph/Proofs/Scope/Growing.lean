import ConfGraph.Proofs.Graph.Growth
import ConfGraph.Proofs.Scope.Effect
import ConfGraph.Proofs.Script.Composed

/-!
# Graphs in scopes grow

Code may change what a scope holds in two ways: by a batch, and by hand.  What is written by hand is
noted with the graphs before and after.  As long as these are the same, the graph of every scope grows
by batches, whoever runs and whatever fails.

* `HandsOff`: what is written by hand leaves all graphs as they are.
* `Session.Growth`: between two states, the graph of every scope grows unless it is changed by hand.
* `growing_transact`: batches.
* `Session.Elementary.growing`: what scripts do.
-/

namespace ConfGraph

/-- **What is written by hand leaves all graphs as they are.** -/
def HandsOff (events : List Log.Event) : Prop :=
  ∀ contents, .handWritten contents ∈ events → ∀ p ∈ contents, p.1 = p.2

theorem handsOff_append {xs ys : List Log.Event} : HandsOff (xs ++ ys) ↔ HandsOff xs ∧ HandsOff ys := by
  constructor
  · intro h
    exact ⟨fun contents hmem => h contents (List.mem_append_left _ hmem),
      fun contents hmem => h contents (List.mem_append_right _ hmem)⟩
  · rintro ⟨hxs, hys⟩ contents hmem
    rcases List.mem_append.mp hmem with hmem | hmem
    · exact hxs contents hmem
    · exact hys contents hmem

/-- What has changed if an event is a change by hand. -/
def Log.Event.handWritten? : Log.Event → Option (List (Option Graph × Option Graph))
  | .handWritten contents => some contents
  | _ => none

/-- Where nothing is written by hand, all graphs are left as they are. -/
theorem handsOff_of_all {events : List Log.Event} (h : events.all (·.handWritten?.isNone)) :
    HandsOff events := by
  intro contents hmem
  exact nomatch List.all_eq_true.mp h _ hmem

/-! ## 1. Growth -/

namespace Scopes

/-- The graph that a scope holds, open or not, if it holds one. -/
def graphAt? (s : Scopes) (id : ScopeId) : Option Graph := (s.get? id).bind (·.content.graph?)

/-- The graph of every scope grows. -/
def Grow (s s' : Scopes) : Prop :=
  ∀ id g, s.graphAt? id = some g → ∃ g', s'.graphAt? id = some g' ∧ g.Grows g'

theorem graphAt?_congr {s s' : Scopes} (h : s'.table = s.table) (id : ScopeId) :
    s'.graphAt? id = s.graphAt? id := by
  unfold graphAt? get?
  rw [h]

theorem grow_of_graphAt? {s s' : Scopes}
    (h : ∀ id g, s.graphAt? id = some g → s'.graphAt? id = some g) : s.Grow s' :=
  fun id g hg => ⟨g, h id g hg, g.grows_refl⟩

theorem Grow.trans {s s' s'' : Scopes} (h : s.Grow s') (h' : s'.Grow s'') : s.Grow s'' := by
  intro id g hg
  obtain ⟨g', hg', hgrows⟩ := h id g hg
  obtain ⟨g'', hg'', hgrows'⟩ := h' id g' hg'
  exact ⟨g'', hg'', hgrows.trans hgrows'⟩

/-- A scope whose content grows in the place of another one. -/
theorem grow_write {s s' : Scopes} {id : ScopeId} {c next : Content} (hread : s.read id = .ok c)
    (hwrite : s.write id next = .ok s')
    (hnext : ∀ g, c.graph? = some g → ∃ g', next.graph? = some g' ∧ g.Grows g') : s.Grow s' := by
  unfold read at hread
  unfold write at hwrite
  cases hget : s.get? id with
  | none => rw [hget] at hread; exact nomatch hread
  | some scope =>
    rw [hget] at hread hwrite
    dsimp only at hread hwrite
    have hopen : scope.isOpen = true := by
      cases hopen : scope.isOpen with
      | true => rfl
      | false => simp [ContextScope.read, hopen] at hread
    have hcontent : scope.content = c := by
      simpa [ContextScope.read, hopen] using hread
    have hs' : s' = { s with table := s.table.set id { scope with content := next } } := by
      simpa [ContextScope.write, hopen] using hwrite.symm
    intro id' g hg
    have hlt : id < s.table.length := (List.getElem?_eq_some_iff.mp hget).1
    by_cases hid : id' = id
    · subst hid
      have hold : c.graph? = some g := by
        rw [graphAt?, hget] at hg
        rw [← hcontent]
        exact hg
      obtain ⟨g', hg', hgrows⟩ := hnext g hold
      refine ⟨g', ?_, hgrows⟩
      rw [hs', graphAt?, get?, List.getElem?_set_self hlt]
      exact hg'
    · refine ⟨g, ?_, g.grows_refl⟩
      rw [hs', graphAt?, get?, List.getElem?_set_ne fun h => hid h.symm]
      exact hg

/-- A scope that is opened holds what it is given. -/
theorem graphAt?_opening (s : Scopes) (initial : Content) :
    (s.opening initial).2.graphAt? (s.opening initial).1 = initial.graph? := by
  simp [graphAt?, get?, opening, ContextScope.start]

theorem graph?_of_read {s : Scopes} {id : ScopeId} {c : Content} (h : s.read id = .ok c) :
    s.graphAt? id = c.graph? := by
  unfold read at h
  unfold graphAt?
  cases hget : s.get? id with
  | none =>
    rw [hget] at h
    exact nomatch h
  | some scope =>
    rw [hget] at h
    dsimp only [ContextScope.read] at h
    split at h
    · obtain rfl := Except.ok.inj h
      rfl
    · exact nomatch h

end Scopes

namespace Session

/-- **Between two states the graph of every scope grows**, unless it is changed by hand. -/
def Growth (s s' : Session) : Prop :=
  ∃ new, s'.events = s.events ++ new ∧ (HandsOff new → s.scopes.Grow s'.scopes)

variable {s s' s'' : Session}

theorem growth_of_scopes (hevents : s'.events = s.events) (h : s.scopes.Grow s'.scopes) :
    s.Growth s' := ⟨[], by rw [hevents, List.append_nil], fun _ => h⟩

theorem growth_of_table (hevents : s'.events = s.events) (htable : s'.scopes.table = s.scopes.table) :
    s.Growth s' :=
  growth_of_scopes hevents (Scopes.grow_of_graphAt? fun id g hg => by
    rw [Scopes.graphAt?_congr htable]
    exact hg)

theorem growth_refl (s : Session) : s.Growth s := growth_of_table rfl rfl

theorem Growth.trans (h : s.Growth s') (h' : s'.Growth s'') : s.Growth s'' := by
  obtain ⟨new, hevents, hgrow⟩ := h
  obtain ⟨new', hevents', hgrow'⟩ := h'
  refine ⟨new ++ new', by rw [hevents', hevents, List.append_assoc], fun hhands => ?_⟩
  obtain ⟨hnew, hnew'⟩ := handsOff_append.mp hhands
  exact (hgrow hnew).trans (hgrow' hnew')

end Session

/-- An act lets the graphs of all scopes grow. -/
def Act.Growing {α : Type} (a : Act Session α) : Prop := ∀ c s, Session.Growth s (a.exec c s).2

namespace Act

variable {α β : Type}

theorem growing_of_table {a : Act Session α} (h : ∀ c s, (a.exec c s).2.events = s.events ∧
    (a.exec c s).2.scopes.table = s.scopes.table) : a.Growing :=
  fun c s => Session.growth_of_table (h c s).1 (h c s).2

theorem Growing.bind {a : Act Session α} (ha : a.Growing) {f : α → Act Session β}
    (hf : ∀ x, (f x).Growing) : (a >>= f).Growing :=
  keeps_bind (R := Session.Growth) Session.Growth.trans ha hf

theorem growing_pure (x : α) : (pure x : Act Session α).Growing :=
  growing_of_table fun _ _ => ⟨rfl, rfl⟩

theorem growing_ofExcept (r : Except Fault α) : (ofExcept r : Act Session α).Growing :=
  growing_of_table fun _ _ => ⟨rfl, rfl⟩

end Act

/-! ## 2. The ways to the graph in context -/

namespace Session

open Act

variable {α : Type}

/-- An act on the scopes that only looks. -/
theorem growing_onScopes_read {f : Scopes → Except Fault α} :
    (onScopes fun s => (f s).map fun a => (a, s)).Growing := by
  refine growing_of_table fun c s => ?_
  cases h : f s.scopes with
  | error fault => simp [Act.exec, onScopes, h, Except.map]
  | ok a => simp [Act.exec, onScopes, h, Except.map]

theorem growing_newSerial : newSerial.Growing := growing_of_table fun _ _ => ⟨rfl, rfl⟩

theorem growing_activeScope : activeScope.Growing := by
  refine growing_of_table fun c s => ?_
  unfold Act.exec activeScope
  cases c.scope <;> exact ⟨rfl, rfl⟩

theorem growing_currentContent : currentContent.Growing :=
  growing_activeScope.bind fun _ => growing_onScopes_read

theorem growing_readScope (id : ScopeId) : (readScope id).Growing := growing_onScopes_read

theorem growing_note (e : Log.Event) : (note e).Growing :=
  fun _ _ => ⟨[e], rfl, fun _ => Scopes.grow_of_graphAt? fun _ _ hg => hg⟩

theorem growing_context : (Act.context : Act Session Context).Growing :=
  growing_of_table fun _ _ => ⟨rfl, rfl⟩

theorem growing_resolveId (id : Value) : (resolveId id).Growing := by
  refine growing_currentContent.bind fun content => growing_context.bind fun c => ?_
  refine (growing_ofExcept _).bind fun found => ?_
  have hnobody : (if id.text?.isSome then do
        let basisTx ← Act.ofExcept content.basisTx
        Act.fail (.unresolved basisTx id (c.dslFunction.getD "<unknown>"))
      else Act.fail .noPrimitive : Act Session FoundId).Growing := by
    split
    · exact (growing_ofExcept _).bind fun _ => growing_ofExcept (.error _)
    · exact growing_ofExcept (.error _)
  split
  · exact growing_pure _
  · exact growing_pure _
  · exact hnobody

/-- What ops make of a content leaves the scopes alone. -/
theorem exec_applyOps_state (content : Content) (ops : Value) (who : Option Annotation) (c : Context)
    (s : Session) :
    ((applyOps content ops who).exec c s).2.events = s.events ∧
      ((applyOps content ops who).exec c s).2.scopes.table = s.scopes.table := by
  unfold applyOps applyTo
  rcases Batch.ofValue ops with f | txOps
  · exact ⟨rfl, rfl⟩
  · have hread : (Act.ofExcept (.ok txOps) : Act Session (List TxOp)).exec c s = (.ok txOps, s) := rfl
    rw [exec_bind_of_ok hread]
    split
    · exact ⟨rfl, rfl⟩
    · exact ⟨rfl, rfl⟩

/-- What ops make of a content does not depend on who asks. -/
theorem exec_applyOps_context (content : Content) (ops : Value) (who : Option Annotation)
    (c c' : Context) (s : Session) :
    (applyOps content ops who).exec c s = (applyOps content ops who).exec c' s := by
  unfold applyOps applyTo
  rcases Batch.ofValue ops with f | txOps
  · rfl
  · have hread : ∀ c, (Act.ofExcept (.ok txOps) : Act Session (List TxOp)).exec c s = (.ok txOps, s) :=
      fun _ => rfl
    rw [exec_bind_of_ok (hread c), exec_bind_of_ok (hread c')]
    split <;> rfl

/-- What ops make of a graph is a graph that grows out of it. -/
theorem grows_of_applyOps {content next : Content} {ops : Value} {who : Option Annotation} {c : Context}
    {s s' : Session} (h : (applyOps content ops who).exec c s = (.ok next, s')) :
    ∀ g, content.graph? = some g → ∃ g', next.graph? = some g' ∧ g.Grows g' := by
  intro g hg
  cases content with
  | other l => exact nomatch hg
  | graph r =>
    obtain rfl := Option.some.inj hg
    obtain ⟨s₁, -, hresult⟩ := exec_applyOps r ops { c with annotation := who } s
    have hexec : (applyOps (.graph r) ops who).exec { c with annotation := who } s = (.ok next, s') :=
      (exec_applyOps_context _ _ _ _ _ _).trans h
    dsimp only at hresult
    cases happly : r.graph.applyOps ops (Context.provenance { c with annotation := who }) with
    | error f =>
      rw [happly, hexec] at hresult
      exact nomatch hresult
    | ok g' =>
      rw [happly, hexec] at hresult
      obtain ⟨r', hr', hnext⟩ := hresult
      obtain rfl := Except.ok.inj (Prod.mk.inj hnext).1
      refine ⟨r'.graph, rfl, ?_⟩
      rw [hr']
      exact Graph.grows_of_applyOps happly

/-- **Replacing the graph in context** by one that grows out of it. -/
theorem growing_updateContent {f : Content → Act Session (Content × α)}
    (hstate : ∀ content c s, ((f content).exec c s).2.events = s.events ∧
      ((f content).exec c s).2.scopes.table = s.scopes.table)
    (hgrows : ∀ content c s next a s', (f content).exec c s = (.ok (next, a), s') →
      ∀ g, content.graph? = some g → ∃ g', next.graph? = some g' ∧ g.Grows g') :
    (updateContent f).Growing := by
  intro c s
  obtain hnone | ⟨id, content, hid, hget⟩ := shows_none_or_open s c
  · rw [exec_updateContent_of_none hnone]
    exact growth_refl s
  · obtain ⟨hevents, htable⟩ := hstate content c s
    rw [exec_updateContent_of_open hid hget fun made s₁ hok => by rw [hok] at htable; exact htable]
    rcases hrun : (f content).exec c s with ⟨fault | ⟨next, a⟩, s₁⟩
    · rw [hrun] at hevents htable
      exact growth_of_table hevents htable
    · rw [hrun] at hevents htable
      have hread : s.scopes.read id = .ok content := by
        simp [Scopes.read, hget, ContextScope.read]
      have hwrite : s.scopes.write id next
          = .ok { s.scopes with table := s.scopes.table.set id ⟨next, true⟩ } := by
        simp [Scopes.write, hget, ContextScope.write]
      refine growth_of_scopes hevents ?_
      refine (Scopes.grow_write hread hwrite (hgrows content c s next a s₁ hrun)).trans ?_
      exact Scopes.grow_of_graphAt? fun _ _ hg => hg

/-- A batch that is put in the place of the graph in context. -/
theorem growing_updateByOps (ops : Value) (who : Option Annotation) :
    (updateContent fun content => do return (← applyOps content ops who, ())).Growing := by
  have hexec : ∀ content c s, (do return (← applyOps content ops who, ()) : Act Session _).exec c s
      = ((((applyOps content ops who).exec c s).1).map fun next => (next, ()),
          ((applyOps content ops who).exec c s).2) := by
    intro content c s
    rw [exec_bind]
    rcases (applyOps content ops who).exec c s with ⟨_ | next, s'⟩ <;> rfl
  refine growing_updateContent (fun content c s => ?_) fun content c s next a s' h => ?_
  · rw [hexec]
    exact exec_applyOps_state content ops who c s
  · rw [hexec] at h
    rcases hrun : (applyOps content ops who).exec c s with ⟨_ | made, s₁⟩
    · rw [hrun] at h
      exact nomatch h
    · rw [hrun] at h
      obtain rfl : made = next := (Prod.mk.inj (Except.ok.inj (Prod.mk.inj h).1)).1
      exact grows_of_applyOps hrun

/-- **Batches let graphs grow.** -/
theorem growing_transact (ops tempId : Value) : (transact ops tempId).Growing := by
  refine growing_context.bind fun c => (growing_updateByOps ops c.annotation).bind fun made => ?_
  cases tempId with
  | undefined => exact growing_pure _
  | _ => exact growing_ofExcept _

/-! ## 3. By hand -/

/-- What is put in the place of a content by hand is noted. -/
theorem growing_overwrite (id : ScopeId) (next : Content) : (overwrite id next).Growing := by
  intro c s
  unfold overwrite
  rw [exec_bind]
  cases hread : s.scopes.read id with
  | error fault =>
    have hexec : (readScope id).exec c s = (.error fault, s) := by
      simp [Act.exec, readScope, onScopes, hread, Except.map]
    rw [hexec]
    exact growth_refl s
  | ok content =>
    have hexec : (readScope id).exec c s = (.ok content, s) :=
      exec_onScopes (by rw [hread]; rfl)
    rw [hexec]
    dsimp only
    rw [exec_bind]
    cases hwrite : s.scopes.write id next with
    | error fault =>
      have hexec : (onScopes fun s => (s.write id next).map fun s => ((), s)).exec c s
          = (.error fault, s) := by
        simp [Act.exec, onScopes, hwrite, Except.map]
      rw [hexec]
      exact growth_refl s
    | ok scopes =>
      have hexec : (onScopes fun s => (s.write id next).map fun s => ((), s)).exec c s
          = (.ok (), { s with scopes }) := exec_onScopes (by rw [hwrite]; rfl)
      rw [hexec]
      refine ⟨[.handWritten [(content.graph?, next.graph?)]], rfl, fun hhands => ?_⟩
      have hsame : content.graph? = next.graph? :=
        hhands _ (List.mem_singleton.mpr rfl) _ (List.mem_singleton.mpr rfl)
      exact Scopes.grow_write hread hwrite fun g hg => ⟨g, hsame ▸ hg, g.grows_refl⟩

/-- What all contents are changed to by hand is noted. -/
theorem growing_overwriteAll (f : Content → Content) : (overwriteAll f).Growing := by
  intro c s
  refine ⟨[.handWritten (s.scopes.table.map fun scope =>
    (scope.content.graph?, (f scope.content).graph?))], rfl, fun hhands => ?_⟩
  refine Scopes.grow_of_graphAt? fun id g hg => ?_
  unfold Scopes.graphAt? at hg
  obtain ⟨scope, hget, hcontent⟩ := Option.bind_eq_some_iff.mp hg
  have hsame : scope.content.graph? = (f scope.content).graph? :=
    hhands _ (List.mem_singleton.mpr rfl) _
      (List.mem_map_of_mem (f := fun scope : ContextScope =>
        (scope.content.graph?, (f scope.content).graph?)) (List.mem_of_getElem? hget))
  have hnext : (s.scopes.mapContent f).graphAt? id = some g := by
    unfold Scopes.graphAt? Scopes.get? Scopes.mapContent
    rw [Scopes.get?] at hget
    rw [List.getElem?_map, hget]
    exact hsame.symm.trans hcontent
  exact hnext

/-- **What scripts do to a session** lets graphs grow. -/
theorem Elementary.growing {a : Act Session α} (h : Elementary a) : a.Growing := by
  cases h with
  | currentContent => exact growing_currentContent
  | activeScope => exact growing_activeScope
  | readScope id => exact growing_readScope id
  | newSerial => exact growing_newSerial
  | printed name args => exact growing_note _
  | transact ops tempId => exact growing_transact ops tempId
  | resolveId id => exact growing_resolveId id
  | overwrite id next => exact growing_overwrite id next
  | overwriteAll f => exact growing_overwriteAll f

end Session

end ConfGraph
