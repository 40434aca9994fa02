import ConfGraph.Proofs.Graph.Create
import ConfGraph.Proofs.Scope.Resolving

/-!
# Acts that fail without a trace

What an act has changed before it fails stays changed.  An act is failsafe if it nevertheless leaves
every scope alone whenever it fails, and what it comes to is told by the graph that it finds and by
who calls it.  Serial numbers that a failed act has used up are told apart from nothing else.

Failsafe acts do not compose in general: the second may fail when the first has written.  They do when
the first only reads, and when the second cannot fail after what the first has written.

* `Session.Shows`: what code in a context sees of a graph.
* `Act.Reads`, `Act.Does`: what an act comes to where something is shown.
* `Act.Reading`, `Act.Failsafe`: acts whose doing is told by the caller and what is shown.
* `failsafe_transact`, `reading_resolveId`: the ways to the graph in context.
-/

namespace ConfGraph

/-! ## 1. What is shown -/

namespace Session

/-- What code in a context sees: the graph in its open scope, or that there is no open scope. -/
def Shows (s : Session) (c : Context) : Option Graph → Prop
  | some g => s.Holds c g
  | none => ∀ id scope, c.scope = some id → s.scopes.get? id = some scope → scope.isOpen = false

variable {s s' : Session} {c c' : Context} {v : Option Graph}

/-- What is shown depends on the scopes and on which of them is in context only. -/
theorem Shows.congr (h : s.Shows c v) (htable : s'.scopes.table = s.scopes.table)
    (hscope : c'.scope = c.scope) : s'.Shows c' v := by
  cases v with
  | some g =>
    obtain ⟨id, r, hid, hget, hr⟩ := h
    exact ⟨id, r, hscope.trans hid, by rw [Scopes.get?, htable]; exact hget, hr⟩
  | none =>
    intro id scope hid hget
    rw [Scopes.get?, htable] at hget
    exact h id scope (hscope.symm.trans hid) hget

theorem read_of_none (h : s.Shows c none) {id : ScopeId} (hid : c.scope = some id) :
    s.scopes.read id = .error .noScope := by
  unfold Scopes.read
  cases hget : s.scopes.get? id with
  | none => rfl
  | some scope => simp [ContextScope.read, h id scope hid hget]

theorem exec_activeScope_of_none (h : c.scope = none) :
    activeScope.exec c s = (.error .noScope, s) := by
  simp [Act.exec, activeScope, h]

/-- Where no scope is open nothing can be read. -/
theorem exec_currentContent_of_none (h : s.Shows c none) :
    currentContent.exec c s = (.error .noScope, s) := by
  unfold currentContent
  rw [Act.exec_bind]
  cases hid : c.scope with
  | none => rw [exec_activeScope_of_none hid]
  | some id =>
    rw [exec_activeScope hid]
    simp [Act.exec, onScopes, read_of_none h hid, Except.map]

/-- Where no scope is open nothing can be replaced. -/
theorem exec_updateContent_of_none {α : Type} (h : s.Shows c none)
    (f : Content → Act Session (Content × α)) :
    (updateContent f).exec c s = (.error .noScope, s) := by
  unfold updateContent
  rw [Act.exec_bind]
  cases hid : c.scope with
  | none => rw [exec_activeScope_of_none hid]
  | some id =>
    rw [exec_activeScope hid]
    dsimp only
    rw [Act.exec_bind]
    simp [Act.exec, onScopes, read_of_none h hid, Except.map]

/-- A context shows an open scope, or none. -/
theorem shows_none_or_open (s : Session) (c : Context) : s.Shows c none ∨
    ∃ id content, c.scope = some id ∧ s.scopes.get? id = some ⟨content, true⟩ := by
  rcases hid : c.scope with _ | id
  · exact .inl fun id scope h _ => nomatch hid.symm.trans h
  · rcases hget : s.scopes.get? id with _ | ⟨content, isOpen⟩
    · refine .inl fun id' scope h hscope => ?_
      obtain rfl := Option.some.inj (hid.symm.trans h)
      exact nomatch hget.symm.trans hscope
    · cases isOpen with
      | true => exact .inr ⟨id, content, rfl, hget⟩
      | false =>
        refine .inl fun id' scope h hscope => ?_
        obtain rfl := Option.some.inj (hid.symm.trans h)
        obtain rfl := Option.some.inj (hget.symm.trans hscope)
        rfl

/-- **Replacing what the open scope in context holds** by what an act makes of it, unless that fails;
an act that leaves the scopes alone. -/
theorem exec_updateContent_of_open {α : Type} {id : ScopeId} {content : Content}
    (hid : c.scope = some id) (hget : s.scopes.get? id = some ⟨content, true⟩)
    {f : Content → Act Session (Content × α)}
    (htable : ∀ made s₁, (f content).exec c s = (.ok made, s₁) →
      s₁.scopes.table = s.scopes.table) :
    (updateContent f).exec c s =
      match (f content).exec c s with
      | (.error fault, s₁) => (.error fault, s₁)
      | (.ok (next, a), s₁) => (.ok (next, a),
          { s₁ with scopes := { s₁.scopes with table := s.scopes.table.set id ⟨next, true⟩ } }) := by
  have hread : (onScopes fun s => (s.read id).map fun c => (c, s)).exec c s = (.ok content, s) :=
    exec_onScopes (by simp [Scopes.read, hget, ContextScope.read]; rfl)
  unfold updateContent
  rw [Act.exec_bind_of_ok (exec_activeScope hid), Act.exec_bind_of_ok hread, Act.exec_bind]
  rcases hrun : (f content).exec c s with ⟨fault | ⟨next, a⟩, s₁⟩
  · rfl
  · have htable₁ := htable _ s₁ hrun
    have hget₁ : s₁.scopes.get? id = some ⟨content, true⟩ := by
      rw [Scopes.get?, htable₁]
      exact hget
    have hwrite : (onScopes fun s => (s.write id next).map fun s => ((), s)).exec c s₁
        = (.ok (), { s₁ with scopes :=
            { s₁.scopes with table := s.scopes.table.set id ⟨next, true⟩ } }) :=
      exec_onScopes (by simp [Scopes.write, hget₁, ContextScope.write, Except.map, ← htable₁])
    dsimp only
    rw [Act.exec_bind_of_ok hwrite]
    rfl

/-- **Replacing the graph in context** by what an act makes of it that leaves the scopes alone. -/
theorem exec_updateContent {α : Type} {g : Graph} (h : s.Holds c g)
    (f : Content → Act Session (Content × α)) :
    ∃ r, r.graph = g ∧
      (∀ fault s₁, (f (.graph r)).exec c s = (.error fault, s₁) →
        (updateContent f).exec c s = (.error fault, s₁)) ∧
      ∀ r' a s₁, (f (.graph r)).exec c s = (.ok (.graph r', a), s₁) →
        s₁.scopes.table = s.scopes.table →
        ∃ s', (updateContent f).exec c s = (.ok (.graph r', a), s') ∧ s'.Holds c r'.graph := by
  obtain ⟨id, r, hid, hget, hr⟩ := h
  refine ⟨r, hr, fun fault s₁ hf => ?_, fun r' a s₁ hf htable => ?_⟩
  · have hnever : ∀ made s₂, (f (.graph r)).exec c s = (.ok made, s₂) →
        s₂.scopes.table = s.scopes.table := fun _ _ hok => nomatch hf.symm.trans hok
    rw [exec_updateContent_of_open hid hget hnever, hf]
  · have hkeeps : ∀ made s₂, (f (.graph r)).exec c s = (.ok made, s₂) →
        s₂.scopes.table = s.scopes.table := by
      intro made s₂ hok
      obtain rfl := (Prod.mk.inj (hf.symm.trans hok)).2
      exact htable
    refine ⟨_, by rw [exec_updateContent_of_open hid hget hkeeps, hf], id, r', hid, ?_, rfl⟩
    have hlt : id < s.scopes.table.length := (List.getElem?_eq_some_iff.mp hget).1
    simp [Scopes.get?, List.getElem?_set_self hlt]

end Session

/-! ## 2. What acts do -/

/-- What an act comes to: a fault, or a result and what is shown afterwards. -/
abbrev Effect (α : Type) := Except Fault (α × Option Graph)

namespace Context

/-- A context without what tells one call of a function from another. -/
def plain (c : Context) : Context :=
  { c with annotation := c.annotation.map fun a => { a with serial := 0 } }

@[simp] theorem scope_plain (c : Context) : c.plain.scope = c.scope := rfl

@[simp] theorem site_plain (c : Context) : c.plain.site = c.site := rfl

/-- What a transaction in a context records of who made it. -/
def provenance (c : Context) : Value := Annotation.provenance c.annotation

@[simp] theorem provenance_plain (c : Context) : c.plain.provenance = c.provenance := by
  unfold provenance plain
  cases c.annotation <;> rfl

@[simp] theorem dslFunction_plain (c : Context) : c.plain.dslFunction = c.dslFunction := by
  unfold plain dslFunction
  cases c.annotation <;> rfl

@[simp] theorem scope_annotated (c : Context) (a : Annotation) :
    (c.annotated a).scope = c.scope := by
  unfold annotated
  cases c.annotation <;> rfl

/-- Which of several calls of a function it is does not matter to what the function is in. -/
theorem plain_annotated (c : Context) (serial : Nat) (function : String) (args frames : List Value) :
    (c.annotated ⟨serial, function, args, frames⟩).plain
      = (c.plain.annotated ⟨0, function, args, frames⟩).plain := by
  cases h : c.annotation with
  | none => simp [annotated, plain, h]
  | some a => simp [annotated, plain, h]

end Context

namespace Act

variable {α β : Type} {c : Context} {v : Option Graph}

/-- The act comes to an outcome and leaves the scopes alone. -/
def Reads (a : Act Session α) (c : Context) (v : Option Graph) (r : Except Fault α) : Prop :=
  ∀ s : Session, s.Shows c v → ∃ s', a.exec c s = (r, s') ∧ s'.scopes.table = s.scopes.table

/-- The act has an effect: it fails and leaves the scopes alone, or leaves something shown. -/
def Does (a : Act Session α) (c : Context) (v : Option Graph) : Effect α → Prop
  | .error f => a.Reads c v (.error f)
  | .ok (x, v') => ∀ s : Session, s.Shows c v → ∃ s', a.exec c s = (.ok x, s') ∧ s'.Shows c v'

theorem Reads.does_ok {a : Act Session α} {x : α} (h : a.Reads c v (.ok x)) :
    a.Does c v (.ok (x, v)) := by
  intro s hs
  obtain ⟨s', hexec, htable⟩ := h s hs
  exact ⟨s', hexec, hs.congr htable rfl⟩

theorem Reads.bind_error {a : Act Session α} {e : Fault} (h : a.Reads c v (.error e))
    (f : α → Act Session β) : (a >>= f).Reads c v (.error e) := by
  intro s hs
  obtain ⟨s', hexec, htable⟩ := h s hs
  exact ⟨s', by rw [exec_bind, hexec], htable⟩

theorem Reads.bind_reads {a : Act Session α} {x : α} (h : a.Reads c v (.ok x))
    {f : α → Act Session β} {r : Except Fault β} (hf : (f x).Reads c v r) :
    (a >>= f).Reads c v r := by
  intro s hs
  obtain ⟨s', hexec, htable⟩ := h s hs
  obtain ⟨s'', hexec', htable'⟩ := hf s' (hs.congr htable rfl)
  exact ⟨s'', by rw [exec_bind_of_ok hexec, hexec'], htable'.trans htable⟩

/-- What an act does that reads first. -/
theorem Reads.bind {a : Act Session α} {x : α} (h : a.Reads c v (.ok x)) {f : α → Act Session β}
    {e : Effect β} (hf : (f x).Does c v e) : (a >>= f).Does c v e := by
  cases e with
  | error fault => exact h.bind_reads hf
  | ok p =>
    intro s hs
    obtain ⟨s', hexec, htable⟩ := h s hs
    obtain ⟨s'', hexec', hshows⟩ := hf s' (hs.congr htable rfl)
    exact ⟨s'', by rw [exec_bind_of_ok hexec, hexec'], hshows⟩

/-- What an act does that reads last, and finds what it looks for. -/
theorem Does.bind_reads {a : Act Session α} {x : α} {v' : Option Graph}
    (h : a.Does c v (.ok (x, v'))) {f : α → Act Session β} {y : β}
    (hf : (f x).Reads c v' (.ok y)) : (a >>= f).Does c v (.ok (y, v')) := by
  intro s hs
  obtain ⟨s', hexec, hshows⟩ := h s hs
  obtain ⟨s'', hexec', htable⟩ := hf s' hshows
  exact ⟨s'', by rw [exec_bind_of_ok hexec, hexec'], hshows.congr htable rfl⟩

/-- An act that fails once it has failed goes no further. -/
theorem Does.bind_error {a : Act Session α} {e : Fault} (h : a.Does c v (.error e))
    (f : α → Act Session β) : (a >>= f).Does c v (.error e) := Reads.bind_error h f

theorem reads_pure (x : α) : (pure x : Act Session α).Reads c v (.ok x) := fun s _ => ⟨s, rfl, rfl⟩

/-- What an act does whose result is turned into another one. -/
theorem Does.map {a : Act Session α} {e : Effect α} (h : a.Does c v e) (f : α → β) :
    (do let x ← a; return f x : Act Session β).Does c v (e.map fun p => (f p.1, p.2)) := by
  cases e with
  | error fault => exact h.bind_error _
  | ok p =>
    obtain ⟨x, v'⟩ := p
    exact h.bind_reads (reads_pure (f x))

theorem reads_context : (context : Act Session Context).Reads c v (.ok c) :=
  fun s _ => ⟨s, rfl, rfl⟩

/-! ## 3. Failsafe acts -/

/-- Whatever graph is shown is reachable. -/
def AllReachable (v : Option Graph) : Prop := ∀ g ∈ v, g.Reachable

/-- The act leaves the scopes alone, and what it comes to is told by the caller and what is shown. -/
def Reading (a : Act Session α) : Prop :=
  ∃ r : Context → Option Graph → Except Fault α, ∀ c v, a.Reads c v (r c.plain v)

/-- **A failsafe act** leaves the scopes alone when it fails, and what it does is told by the caller and
what is shown, as long as that is a reachable graph; it stays one. -/
def Failsafe (a : Act Session α) : Prop :=
  ∃ effect : Context → Option Graph → Effect α, ∀ c v, AllReachable v →
    a.Does c v (effect c.plain v) ∧
      ∀ x v', effect c.plain v = .ok (x, v') → AllReachable v'

theorem Reading.failsafe {a : Act Session α} (h : a.Reading) : a.Failsafe := by
  obtain ⟨r, hr⟩ := h
  refine ⟨fun c v => (r c v).map fun x => (x, v), fun c v hv => ?_⟩
  have hreads := hr c v
  dsimp only
  cases hresult : r c.plain v with
  | error f =>
    rw [hresult] at hreads
    exact ⟨hreads, fun _ _ h => nomatch h⟩
  | ok x =>
    rw [hresult] at hreads
    refine ⟨hreads.does_ok, fun y v' heffect => ?_⟩
    obtain ⟨-, rfl⟩ := Prod.mk.inj (Except.ok.inj heffect)
    exact hv

/-- **A failsafe act after one that only reads** is failsafe with it. -/
theorem Reading.bind {a : Act Session α} (ha : a.Reading) {f : α → Act Session β}
    (hf : ∀ x, (f x).Failsafe) : (a >>= f).Failsafe := by
  obtain ⟨r, hr⟩ := ha
  choose effect heffect using hf
  refine ⟨fun c v => (r c v).bind fun x => effect x c v, fun c v hv => ?_⟩
  have hreads := hr c v
  dsimp only
  cases hresult : r c.plain v with
  | error fault =>
    rw [hresult] at hreads
    exact ⟨hreads.bind_error f, fun _ _ h => nomatch h⟩
  | ok x =>
    rw [hresult] at hreads
    obtain ⟨hdoes, hkeeps⟩ := heffect x c v hv
    exact ⟨hreads.bind hdoes, hkeeps⟩

/-- A failsafe act whose result is turned into another one is failsafe. -/
theorem Failsafe.map {a : Act Session α} (ha : a.Failsafe) (f : α → β) :
    (do let x ← a; return f x : Act Session β).Failsafe := by
  obtain ⟨effect, heffect⟩ := ha
  refine ⟨fun c v => (effect c v).map fun p => (f p.1, p.2), fun c v hv => ?_⟩
  obtain ⟨hdoes, hkeeps⟩ := heffect c v hv
  refine ⟨hdoes.map f, fun y w h => ?_⟩
  dsimp only at h
  cases hresult : effect c.plain v with
  | error fault =>
    rw [hresult] at h
    exact nomatch h
  | ok p =>
    obtain ⟨x, v'⟩ := p
    rw [hresult] at h
    obtain ⟨-, rfl⟩ := Prod.mk.inj (Except.ok.inj h)
    exact hkeeps x v' hresult

end Act

/-! ## 4. The ways to the graph in context -/

namespace Session

open Act

variable {c : Context} {s : Session} {v : Option Graph}

/-- What resolving a name comes to. -/
def resolution (id : Value) (c : Context) : Option Graph → Except Fault FoundId
  | none => .error .noScope
  | some g =>
    match (Content.graph (.first 0 g)).find id with
    | .error f => .error f
    | .ok (some (.entity e)) => .ok (.entity e)
    | .ok (some (.other (.num x))) => .ok (.other (.num x))
    | .ok _ =>
      if id.text?.isSome then
        .error (.unresolved (.nat g.basisTx) id (c.dslFunction.getD "<unknown>"))
      else .error .noPrimitive

theorem reads_resolveId (id : Value) : (resolveId id).Reads c v (resolution id c.plain v) := by
  intro s hs
  refine ⟨s, ?_, rfl⟩
  cases v with
  | none =>
    unfold resolveId
    rw [exec_bind, exec_currentContent_of_none hs]
    rfl
  | some g =>
    obtain ⟨r, rfl, hcontent⟩ := exec_currentContent hs
    have hnobody : (if id.text?.isSome then do
          let basisTx ← Act.ofExcept (Content.graph r).basisTx
          Act.fail (.unresolved basisTx id (c.dslFunction.getD "<unknown>"))
        else Act.fail .noPrimitive : Act Session FoundId).exec c s
        = (if id.text?.isSome then
            .error (.unresolved (.nat r.graph.basisTx) id (c.dslFunction.getD "<unknown>"))
          else .error .noPrimitive, s) := by
      split <;> rfl
    have hfind : (Content.graph (.first 0 r.graph)).find id = (Content.graph r).find id := rfl
    unfold resolveId resolution
    dsimp only
    rw [exec_bind_of_ok hcontent, exec_bind_of_ok (exec_context c s), Context.dslFunction_plain,
      hfind]
    rcases (Content.graph r).find id with f | _ | e | x
    · rfl
    · exact hnobody
    · rfl
    · cases x with
      | num x => rfl
      | _ => exact hnobody

theorem reading_resolveId (id : Value) : (resolveId id).Reading :=
  ⟨resolution id, fun _ _ => reads_resolveId id⟩

/-- What ops make of a graph, or why they make nothing of it; the scopes stay as they are. -/
theorem exec_applyTo (r : Revision) (ops : List TxOp) (c : Context) (s : Session) :
    ∃ s', s'.scopes.table = s.scopes.table ∧
      match r.graph.transact ops c.provenance with
      | .error e => (applyTo (.graph r) ops c.annotation).exec c s = (.error (.rejected e), s')
      | .ok g => ∃ r', r'.graph = g ∧
          (applyTo (.graph r) ops c.annotation).exec c s = (.ok (.graph r'), s') := by
  cases ops with
  | nil => exact ⟨s, rfl, r, rfl, rfl⟩
  | cons op rest =>
    let s' : Session := { s with scopes := s.scopes.issue.2 }
    have hserial : newSerial.exec c s = (.ok s.scopes.nextSerial, s') := rfl
    have hexec : (applyTo (.graph r) (op :: rest) c.annotation).exec c s
        = ((Content.graph r).transact s.scopes.nextSerial (op :: rest) c.annotation, s') := by
      unfold applyTo
      simp only [List.isEmpty_cons, Bool.false_eq_true, if_false]
      rw [exec_bind_of_ok hserial]
      rfl
    have hmakes : (Content.graph r).transact s.scopes.nextSerial (op :: rest) c.annotation
        = match r.graph.transact (op :: rest) c.provenance with
          | .error e => .error (.rejected e)
          | .ok g => .ok (.graph
              (r.next s.scopes.nextSerial (op :: rest) (c.annotation.map (·.serial)) g)) := rfl
    refine ⟨s', rfl, ?_⟩
    rw [hexec, hmakes]
    cases r.graph.transact (op :: rest) c.provenance with
    | error e => rfl
    | ok g => exact ⟨_, rfl, rfl⟩

/-- What is answered when a name is asked for that a transaction may have bound. -/
def boundId (g : Graph) : Value → Value
  | .str name => (g.tempId? name).elim .undefined .nat
  | _ => .undefined

/-- Answers when a name is asked for and a batch has been applied. -/
def answer (tempId : Value) (next : Content) : Act Session Value :=
  match tempId with
  | .undefined => return .undefined
  | name => Act.ofExcept (next.tempId name)

/-- Once a batch has been applied to a graph nothing can fail any more. -/
theorem exec_answer (r : Revision) (tempId : Value) (c : Context) (s : Session) :
    (answer tempId (.graph r)).exec c s = (.ok (boundId r.graph tempId), s) := by
  cases tempId <;> rfl

/-- What a batch comes to in a context. -/
def transaction (ops tempId : Value) (c : Context) : Option Graph → Effect Value
  | none => .error .noScope
  | some g =>
    match g.applyOps ops c.provenance with
    | .error f => .error f
    | .ok none => .ok (boundId g tempId, some g)
    | .ok (some g') => .ok (boundId g' tempId, some g')

/-- What a batch given as a value makes of a graph; the scopes stay as they are. -/
theorem exec_applyOps (r : Revision) (ops : Value) (c : Context) (s : Session) :
    ∃ s', s'.scopes.table = s.scopes.table ∧
      match r.graph.applyOps ops c.provenance with
      | .error f => (applyOps (.graph r) ops c.annotation).exec c s = (.error f, s')
      | .ok g => ∃ r', r'.graph = g.getD r.graph ∧
          (applyOps (.graph r) ops c.annotation).exec c s = (.ok (.graph r'), s') := by
  unfold Graph.applyOps
  cases hread : Batch.ofValue ops with
  | error f => exact ⟨s, rfl, by unfold applyOps; rw [hread]; rfl⟩
  | ok txOps =>
    have hexec : (applyOps (.graph r) ops c.annotation).exec c s
        = (applyTo (.graph r) txOps c.annotation).exec c s := by
      unfold applyOps
      rw [hread]
      rfl
    obtain ⟨s', htable, hresult⟩ := exec_applyTo r txOps c s
    refine ⟨s', htable, ?_⟩
    rw [hexec]
    cases txOps with
    | nil => exact hresult
    | cons op rest =>
      dsimp only
      cases htransact : r.graph.transact (op :: rest) c.provenance with
      | error e =>
        rw [htransact] at hresult
        exact hresult
      | ok g =>
        rw [htransact] at hresult
        exact hresult

theorem does_transact (ops tempId : Value) :
    (transact ops tempId).Does c v (transaction ops tempId c.plain v) := by
  have hcontext : (context : Act Session Context).Reads c v (.ok c) := reads_context
  refine hcontext.bind ?_
  cases v with
  | none =>
    intro s hs
    refine ⟨s, ?_, rfl⟩
    rw [exec_bind, exec_updateContent_of_none hs]
  | some g =>
    have hwrites : ∀ (s : Session), s.Shows c (some g) → ∀ g',
        (∀ r, r.graph = g → ∃ r' s', r'.graph = g' ∧ s'.scopes.table = s.scopes.table ∧
          (applyOps (.graph r) ops c.annotation).exec c s = (.ok (.graph r'), s')) →
        ∃ s', (do
            let made ← updateContent fun content => do
              return (← applyOps content ops c.annotation, ())
            answer tempId made.1 : Act Session Value).exec c s
              = (.ok (boundId g' tempId), s') ∧ s'.Shows c (some g') := by
      intro s hs g' hmakes
      obtain ⟨r, hr, -, hgoes⟩ := exec_updateContent hs
        (fun content => do return (← applyOps content ops c.annotation, ()))
      obtain ⟨r', s', rfl, htable, hexec⟩ := hmakes r hr
      obtain ⟨s'', hbody, hholds⟩ := hgoes r' () s' (by rw [exec_bind_of_ok hexec]; rfl) htable
      exact ⟨s'', by rw [exec_bind_of_ok hbody]; exact exec_answer r' tempId c s'', hholds⟩
    unfold transaction
    dsimp only
    rw [Context.provenance_plain]
    cases happly : g.applyOps ops c.provenance with
    | error f =>
      intro s hs
      obtain ⟨r, rfl, hfails, -⟩ := exec_updateContent hs
        (fun content => do return (← applyOps content ops c.annotation, ()))
      obtain ⟨s', htable, hexec⟩ := exec_applyOps r ops c s
      rw [happly] at hexec
      have hbody := hfails f s' (by rw [exec_bind, hexec])
      exact ⟨s', by rw [exec_bind, hbody], htable⟩
    | ok next =>
      have hmakes : ∀ s : Session, s.Shows c (some g) → ∀ r, r.graph = g → ∃ r' s',
          r'.graph = next.getD g ∧ s'.scopes.table = s.scopes.table ∧
            (applyOps (.graph r) ops c.annotation).exec c s = (.ok (.graph r'), s') := by
        intro s _ r hr
        obtain ⟨s', htable, hexec⟩ := exec_applyOps r ops c s
        rw [hr, happly] at hexec
        obtain ⟨r', hr', hexec⟩ := hexec
        exact ⟨r', s', hr', htable, hexec⟩
      cases next with
      | none => exact fun s hs => hwrites s hs g (hmakes s hs)
      | some g' => exact fun s hs => hwrites s hs g' (hmakes s hs)

/-- What ops come to in a context. -/
def performance (ops : List TxOp) (c : Context) : Option Graph → Effect Unit
  | none => .error .noScope
  | some g =>
    match g.transact ops c.provenance with
    | .error r => .error (.rejected r)
    | .ok g' => .ok ((), some g')

/-- Ops that may stand in a batch are applied as they are. -/
theorem does_perform {ops : List TxOp} (hops : ∀ op ∈ ops, op.Valid)
    (hcount : ops.length < Number.smallBound) :
    (perform ops).Does c v (performance ops c v) := by
  have hbatch := does_transact (c := c) (v := v) (.list (ops.map TxOp.toValue)) .undefined
  cases v with
  | none => exact hbatch.bind_error _
  | some g =>
    unfold transaction Graph.applyOps at hbatch
    rw [ofValue_toValue hops hcount, Context.provenance_plain] at hbatch
    unfold performance
    cases ops with
    | nil => exact hbatch.bind_reads (reads_pure ())
    | cons op rest =>
      dsimp only at hbatch ⊢
      cases htransact : g.transact (op :: rest) c.provenance with
      | error r =>
        rw [htransact] at hbatch
        exact hbatch.bind_error _
      | ok g' =>
        rw [htransact] at hbatch
        exact hbatch.bind_reads (reads_pure ())

/-- **Transactions are failsafe.** -/
theorem failsafe_transact (ops tempId : Value) : (transact ops tempId).Failsafe := by
  refine ⟨transaction ops tempId, fun c v hv => ⟨does_transact ops tempId, fun x v' heffect => ?_⟩⟩
  cases v with
  | none => exact nomatch heffect
  | some g =>
    unfold transaction at heffect
    dsimp only at heffect
    split at heffect
    · exact nomatch heffect
    · obtain ⟨-, rfl⟩ := Prod.mk.inj (Except.ok.inj heffect)
      exact hv
    · next g' happly =>
      obtain ⟨-, rfl⟩ := Prod.mk.inj (Except.ok.inj heffect)
      intro g'' hg''
      obtain rfl := Option.some.inj hg''
      exact (hv g rfl).step happly

end Session

end ConfGraph
