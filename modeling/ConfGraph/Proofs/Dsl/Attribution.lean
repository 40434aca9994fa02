import ConfGraph.Proofs.Dsl.Builtin
import ConfGraph.Proofs.Graph.Journal
import ConfGraph.Proofs.Scope.Isolation

/-!
# In whose name things are done

DSL functions call each other to any depth.  In between they read and write the graph in context and
look up names in it, they open scopes of their own, and any of them may fail and be caught further out.
Whatever is done meanwhile is done in the name of the outermost call in progress, and in nobody's name
where there is none.

* `CallTree`, `CallTree.act`: code that calls DSL functions, and what it does.
* `Deed`, `CallTree.transcript`: the same, with an account of what was done during which calls.
* `CallTree.exec_act`: keeping an account changes nothing.
* `Session.logs_transact`, `Session.blames_resolveId`: where the annotation in force shows.
* `CallTree.credited_transcript`: every deed, by induction over the tree.
* `deeds_are_credited`: every deed from outside all calls.
-/

namespace ConfGraph

/-! ## 1. Calls in calls -/

/-- **Code that calls DSL functions.**  It goes on with the answer to what it has done, which may be a
fault: then it may fail with the fault, or catch it. -/
inductive CallTree where
  /-- Ends with a result, or fails. -/
  | ends (result : Except Fault Value)
  /-- Does something to the scope in context. -/
  | does (op : Operation) (next : Except Fault Reply → CallTree)
  /-- Asks what is running. -/
  | asks (next : Option Annotation → CallTree)
  /-- Calls a DSL function from a place.  The body runs if the arguments fit. -/
  | invokes (signature : Signature) (site : List (Option Frame)) (args : List Value)
      (fit : Checked Unit) (body : CallTree) (next : Except Fault Value → CallTree)
  /-- Runs code in a scope of its own. -/
  | enters (initial : Revision) (body : CallTree)
      (next : Except Fault (Value × Content) → CallTree)

/-- A DSL function for one call, whose arguments have been read. -/
def DslFunction.ready (signature : Signature) (fit : Checked Unit) (body : Act Session Value) :
    DslFunction where
  signature
  prepare _ := fit.map fun () => body
  identity := none

/-- What code does. -/
def CallTree.act : CallTree → Act Session Value
  | ends result => Act.ofExcept result
  | does op next => do
    let reply ← Act.outcome op.act
    (next reply).act
  | asks next => do
    let c ← Act.context
    (next c.annotation).act
  | invokes signature site args fit body next => do
    let f := DslFunction.ready signature fit body.act
    let r ← Act.outcome (Act.inside (fun c => { c with site }) (f.invoke args))
    (next r).act
  | enters initial body next => do
    let r ← Act.outcome (withScope (.graph initial) (Strand.ofAct body.act)).exec
    (next r).act

/-- A call in progress: of which function, and from which frames of scripts. -/
structure Call where
  function : String
  frames : List Value

/-- One thing that code has done. -/
structure Deed where
  /-- The calls in progress, the innermost first. -/
  calls : List Call
  context : Context
  /-- The session in which it was done. -/
  session : Session
  /-- `none` where code has asked what is running. -/
  operation : Option Operation

/-- What code has come to, and an account of what it has done. -/
structure Transcript where
  outcome : Except Fault Value
  session : Session
  deeds : List Deed

/-- A transcript with what was done before. -/
def Transcript.behind (t : Transcript) (deeds : List Deed) : Transcript :=
  { t with deeds := deeds ++ t.deeds }

/-- **Runs code and keeps an account** of what it does during which calls. -/
def CallTree.transcript : CallTree → List Call → Context → Session → Transcript
  | ends result, _, _, s => ⟨result, s, []⟩
  | does op next, calls, c, s =>
    let (reply, s') := op.act.exec c s
    ((next reply).transcript calls c s').behind [⟨calls, c, s, some op⟩]
  | asks next, calls, c, s =>
    ((next c.annotation).transcript calls c s).behind [⟨calls, c, s, none⟩]
  | invokes signature site args fit body next, calls, c, s =>
    match fit with
    | .error issues =>
      (next (.error (.ofIssues issues (.badArguments signature.qualifiedName args)))).transcript
        calls c s
    | .ok () =>
      let call : Call := ⟨signature.qualifiedName, Signature.callFrames site⟩
      let note : Annotation := ⟨s.scopes.nextSerial, call.function, args, call.frames⟩
      let t := body.transcript (call :: calls) ({ c with site }.annotated note)
        ⟨s.scopes.issue.2, []⟩
      let s' := ⟨t.session.scopes, s.events ++ [.dslInvoked call.function] ++ t.session.events⟩
      ((next t.outcome).transcript calls c s').behind t.deeds
  | enters initial body next, calls, c, s =>
    let (id, scopes) := s.scopes.opening (.graph initial)
    let t := body.transcript calls (c.within id) { s with scopes }
    let (r, s') := (Session.endScope id t.outcome).exec c t.session
    ((next r).transcript calls c s').behind t.deeds

/-! ## 2. Keeping an account -/

/-- An act in a scope of its own. -/
theorem exec_withScope_ofAct {α : Type} (initial : Content) (a : Act Session α) (c : Context)
    (s : Session) {r : Except Fault α} {s' : Session}
    (hrun : a.exec (c.within s.scopes.table.length) { s with scopes := (s.scopes.opening initial).2 }
      = (r, s')) :
    (withScope initial (Strand.ofAct a)).exec.exec c s
      = (Session.endScope s.scopes.table.length r).exec c s' := by
  rw [Session.exec_endScope]
  refine (Strand.exec_withScope (Strand.sequential_ofAct a) (fun _ => rfl) c s hrun).trans ?_
  cases r with
  | error fault => rfl
  | ok x =>
    have hread : ∀ made : Except Fault Content, (do
        let content ← made
        return (x, content) : Except Fault (α × Content)) = made.map fun content => (x, content) := by
      intro made
      cases made <;> rfl
    exact Prod.ext (hread _) rfl

namespace CallTree

/-- **Keeping an account changes nothing**: what code comes to and leaves is what is told of it. -/
theorem exec_act (tree : CallTree) (calls : List Call) (c : Context) (s : Session) :
    tree.act.exec c s
      = ((tree.transcript calls c s).outcome, (tree.transcript calls c s).session) := by
  induction tree generalizing calls c s with
  | ends result => rfl
  | does op next ih =>
    unfold act
    rw [Act.exec_outcome_bind]
    exact ih _ calls c _
  | asks next ih =>
    unfold act
    rw [Act.exec_bind_of_ok (Act.exec_context c s)]
    exact ih _ calls c s
  | invokes signature site args fit body next ihBody ih =>
    unfold act
    dsimp only
    rw [Act.exec_outcome_bind]
    cases fit with
    | error issues => exact ih _ calls c s
    | ok fits =>
      have hbody := ihBody (⟨signature.qualifiedName, Signature.callFrames site⟩ :: calls)
      have hcall : (Act.inside (fun c => { c with site })
          ((DslFunction.ready signature (.ok fits) body.act).invoke args)).exec c s
          = (Session.unaware body.act).exec
              (Context.annotated { c with site } ⟨s.scopes.nextSerial, signature.qualifiedName, args,
                Signature.callFrames site⟩)
              ⟨s.scopes.issue.2, s.events ++ [.dslInvoked signature.qualifiedName]⟩ :=
        DslFunction.exec_invoke_of_ok { c with site } s rfl
      rw [hcall, Session.exec_unaware, hbody, transcript]
      dsimp only
      exact ih _ calls c _
  | enters initial body next ihBody ih =>
    unfold act
    rw [Act.exec_outcome_bind, exec_withScope_ofAct _ _ c s (ihBody calls _ _)]
    exact ih _ calls c _

end CallTree

/-! ## 3. What carries a name -/

namespace Call

/-- The name under which somebody looks something up. -/
def name (who : Option Call) : String := who.elim "<unknown>" (·.function)

/-- What a transaction records of who made it. -/
def provenance (who : Option Call) : Value := who.elim .null fun call =>
  .record .host [
    ("source", .str "user"), ("function", .str call.function), ("frames", .list call.frames)]

end Call

namespace Context

/-- The call that the annotation in force tells of. -/
def caller (c : Context) : Option Call := c.annotation.map fun a => ⟨a.function, a.frames⟩

theorem provenance_caller (c : Context) : Call.provenance c.caller = c.provenance := by
  unfold caller provenance
  cases c.annotation <;> rfl

theorem name_caller (c : Context) : Call.name c.caller = c.dslFunction.getD "<unknown>" := by
  unfold caller dslFunction
  cases c.annotation <;> rfl

/-- **The outermost call stays in charge**: a call becomes the caller only if no other one is. -/
theorem caller_annotated {c : Context} {calls : List Call} (h : c.caller = calls.getLast?)
    (serial : Nat) (args : List Value) (call : Call) :
    (c.annotated ⟨serial, call.function, args, call.frames⟩).caller = (call :: calls).getLast? := by
  unfold caller at h
  unfold annotated
  cases hnote : c.annotation with
  | none =>
    rw [hnote] at h
    obtain rfl := List.getLast?_eq_none_iff.mp h.symm
    rfl
  | some outer =>
    rw [hnote] at h
    dsimp only
    rw [caller, hnote, List.getLast?_cons, ← h]
    rfl

end Context

/-- **A batch has been logged**: in the scope in context as one record of somebody, if it was accepted
and is not empty; and nothing else has been, in any scope. -/
def LogsBatch (ops provenance : Value) (c : Context) (s : Session)
    (made : Except Fault Value × Session) : Prop :=
  ∀ id g, s.scopes.graphAt? id = some g → ∃ g', made.2.scopes.graphAt? id = some g' ∧
    g'.transactions = g.transactions ++
      if c.scope = some id ∧ made.1.isOk ∧ !isEmptyBatch ops then
        [⟨g.basisTx + 1, batchLength ops, provenance⟩]
      else []

namespace Session

open Act

variable {c : Context} {s : Session}

theorem Holds.graphAt? {id : ScopeId} {g : Graph} (h : s.Holds c g) (hid : c.scope = some id) :
    s.scopes.graphAt? id = some g := by
  obtain ⟨id', r, hid', hget, rfl⟩ := h
  obtain rfl := Option.some.inj (hid.symm.trans hid')
  rw [Scopes.graphAt?, hget]
  rfl

/-- What a transaction logs in the scope in context. -/
theorem log_of_transact (ops tempId : Value) {id : ScopeId} (hid : c.scope = some id) {g : Graph}
    (hs : s.Holds c g) :
    ∃ g', ((transact ops tempId).exec c s).2.scopes.graphAt? id = some g' ∧
      g'.transactions = g.transactions ++
        if ((transact ops tempId).exec c s).1.isOk ∧ !isEmptyBatch ops then
          [⟨g.basisTx + 1, batchLength ops, c.provenance⟩]
        else [] := by
  have hdoes := does_transact (c := c) (v := some g) ops tempId
  unfold transaction at hdoes
  dsimp only at hdoes
  rw [Context.provenance_plain] at hdoes
  cases happly : g.applyOps ops c.provenance with
  | error fault =>
    rw [happly] at hdoes
    obtain ⟨s', hexec, htable⟩ := hdoes s hs
    rw [hexec]
    refine ⟨g, (Scopes.graphAt?_congr htable id).trans (hs.graphAt? hid), ?_⟩
    simp [Except.isOk, Except.toBool]
  | ok next =>
    have hlog := Graph.log_of_applyOps happly
    rw [happly] at hdoes
    cases next with
    | none =>
      obtain ⟨s', hexec, hshows⟩ := hdoes s hs
      rw [hexec]
      refine ⟨g, Holds.graphAt? hshows hid, ?_⟩
      cases hempty : isEmptyBatch ops with
      | true => simp
      | false => simp [hempty] at hlog
    | some g' =>
      obtain ⟨s', hexec, hshows⟩ := hdoes s hs
      rw [hexec]
      refine ⟨g', Holds.graphAt? hshows hid, ?_⟩
      cases hempty : isEmptyBatch ops with
      | true => simp [hempty] at hlog
      | false =>
        obtain ⟨g₁, hg₁, -, hrecords⟩ := by simpa only [hempty, Bool.false_eq_true, if_false] using hlog
        obtain rfl := Option.some.inj hg₁
        simpa [Except.isOk, Except.toBool] using hrecords

/-- **Transactions are logged in the name of the annotation in force.** -/
theorem logs_transact (ops tempId : Value) (c : Context) (s : Session) :
    LogsBatch ops c.provenance c s ((transact ops tempId).exec c s) := by
  intro id g hgraph
  by_cases hid : c.scope = some id
  · obtain ⟨isOpen, hcell⟩ := hasCell_of_graphAt? hgraph
    have hshows := hcell.shows hid
    cases isOpen with
    | true => simpa [hid] using log_of_transact ops tempId hid hshows
    | false =>
      have hdoes := does_transact (c := c) (v := none) ops tempId
      obtain ⟨s', hexec, htable⟩ := hdoes s hshows
      rw [hexec]
      refine ⟨g, (Scopes.graphAt?_congr htable id).trans hgraph, ?_⟩
      simp [Except.isOk, Except.toBool]
  · refine ⟨g, ?_, by simp [hid]⟩
    rw [Scopes.graphAt?, confined_transact ops tempId c s id hid]
    exact hgraph

end Session

/-! ## 4. Failing lookups -/

/-- An unresolved name, if that is what something fails with, is looked for by somebody. -/
def Blames {α : Type} (seeker : String) (r : Except Fault α) : Prop :=
  ∀ basisTx id fn, r = .error (.unresolved basisTx id fn) → fn = seeker

namespace Blames

variable {α β : Type} {seeker : String}

theorem ok (a : α) : Blames seeker (.ok a) := nofun

theorem plain (name message : String) : Blames seeker (.error (.plain name message) : Except Fault α) :=
  nofun

theorem bind {r : Except Fault α} (hr : Blames seeker r) {f : α → Except Fault β}
    (hf : ∀ a, r = .ok a → Blames seeker (f a)) : Blames seeker (r >>= f) := by
  cases r with
  | error fault =>
    rintro basisTx id fn ⟨⟩
    exact hr _ _ _ rfl
  | ok a => exact hf a rfl

theorem map {r : Except Fault α} (hr : Blames seeker r) (f : α → β) : Blames seeker (r.map f) := by
  cases r with
  | error fault =>
    rintro basisTx id fn ⟨⟩
    exact hr _ _ _ rfl
  | ok a => exact ok _

/-- The same of two acts one after the other. -/
theorem exec_bind {c : Context} {a : Act Session α} (ha : ∀ s, Blames seeker (a.exec c s).1)
    {f : α → Act Session β} (hf : ∀ x s, Blames seeker ((f x).exec c s).1) (s : Session) :
    Blames seeker ((a >>= f).exec c s).1 := by
  have hfirst := ha s
  rw [Act.exec_bind]
  rcases hrun : a.exec c s with ⟨fault | x, s'⟩
  · rw [hrun] at hfirst
    rintro basisTx id fn ⟨⟩
    exact hfirst _ _ _ rfl
  · exact hf x s'

end Blames

namespace Likeness

variable {seeker : String}

theorem blames_part {α : Type} (l : Likeness) (name : String) (a : α) :
    Blames seeker (l.part name a) := by
  unfold part
  split
  · exact .plain _ _
  · exact .ok a

theorem blames_stops (e : Entry) (name : String) (value : Value) :
    Blames seeker (e.stops name value) := by
  have hreading : Blames seeker (e.reading name) := by
    unfold Entry.reading
    split
    · exact .plain _ _
    · exact .plain _ _
    · exact .ok ()
  refine hreading.bind fun _ _ => ?_
  split
  · exact .ok _
  · split
    · exact .plain _ _
    · exact .ok _
  · split
    · exact .ok _
    · split
      · exact .plain _ _
      · exact .ok _

theorem blames_search (name value : Value) {entries : List (Except Fault Entry)}
    (h : ∀ e ∈ entries, Blames seeker e) : Blames seeker (search name value entries) := by
  induction entries with
  | nil => exact .ok _
  | cons e rest ih =>
    have hfirst := h e List.mem_cons_self
    have hrest := ih fun e he => h e (List.mem_cons_of_mem _ he)
    cases e with
    | error f =>
      rintro basisTx id fn ⟨⟩
      exact hfirst _ _ _ rfl
    | ok e =>
      unfold search
      split
      · exact .plain _ _
      · next text _ =>
        have hstops : Blames seeker (e.stops text value) := blames_stops e text value
        split
        · next f hf =>
          rw [hf] at hstops
          rintro basisTx id fn ⟨⟩
          exact hstops _ _ _ rfl
        · exact .ok _
        · exact hrest

/-- A table that is gone through gives entries, or is no table. -/
theorem blames_visits (table : Table) :
    Blames seeker table.visits ∧
      ∀ entries, table.visits = .ok entries → ∀ e ∈ entries, Blames seeker e := by
  cases table with
  | entries es =>
    refine ⟨.ok _, ?_⟩
    rintro _ ⟨⟩ e he
    obtain ⟨entry, -, rfl⟩ := List.mem_map.mp he
    exact .ok _
  | list items =>
    refine ⟨.ok _, ?_⟩
    rintro _ ⟨⟩ e he
    obtain ⟨item, -, rfl⟩ := List.mem_map.mp he
    cases item.pair with
    | none => exact .plain _ _
    | some entry => exact .ok _
  | text s =>
    refine ⟨.ok _, ?_⟩
    rintro _ ⟨⟩ e he
    obtain ⟨char, -, rfl⟩ := List.mem_map.mp he
    exact .ok _
  | other v => exact ⟨.plain _ _, nofun⟩

theorem blames_find (l : Likeness) (name value : Value) : Blames seeker (l.find name value) :=
  (blames_part l _ _).bind fun table _ =>
    (blames_visits table).1.bind fun entries hentries =>
      blames_search name value ((blames_visits table).2 entries hentries)

end Likeness

namespace Content

variable {seeker : String}

theorem blames_find (content : Content) (id : Value) : Blames seeker (content.find id) := by
  cases content with
  | graph r =>
    unfold find
    dsimp only
    split
    · exact .ok _
    · split
      · exact .plain _ _
      · exact .ok _
  | other l => exact (l.blames_find _ id).map _

theorem blames_basisTx (content : Content) : Blames seeker content.basisTx := by
  cases content with
  | graph r => exact .ok _
  | other l => exact l.blames_part _ _

end Content

namespace Session

open Act

variable {c : Context} {s : Session}

theorem blames_currentContent (seeker : String) (c : Context) (s : Session) :
    Blames seeker (currentContent.exec c s).1 := by
  unfold currentContent
  refine Blames.exec_bind (fun s => ?_) (fun id s => ?_) s
  · rcases hid : c.scope with _ | id
    · rw [exec_activeScope_of_none hid]
      exact nofun
    · rw [exec_activeScope hid]
      exact .ok id
  · have hread : Blames seeker (s.scopes.read id) := by
      unfold Scopes.read ContextScope.read
      split
      · split
        · exact .ok _
        · exact nofun
      · exact nofun
    cases hcontent : s.scopes.read id with
    | error fault =>
      rw [hcontent] at hread
      simpa [Act.exec, onScopes, hcontent, Except.map] using hread
    | ok content =>
      simpa [Act.exec, onScopes, hcontent, Except.map] using Blames.ok content

/-- **Lookups fail in the name of the annotation in force.** -/
theorem blames_resolveId (id : Value) (c : Context) (s : Session) :
    Blames (c.dslFunction.getD "<unknown>") ((resolveId id).exec c s).1 := by
  unfold resolveId
  refine Blames.exec_bind (blames_currentContent _ c) (fun content s => ?_) s
  rw [exec_bind_of_ok (exec_context c s)]
  refine Blames.exec_bind (fun s => content.blames_find id) (fun found s => ?_) s
  have hnobody : Blames (c.dslFunction.getD "<unknown>") ((if id.text?.isSome then do
        let basisTx ← Act.ofExcept content.basisTx
        Act.fail (.unresolved basisTx id (c.dslFunction.getD "<unknown>"))
      else Act.fail .noPrimitive : Act Session FoundId).exec c s).1 := by
    split
    · refine Blames.exec_bind (fun s => content.blames_basisTx) (fun basisTx s => ?_) s
      rintro _ _ _ ⟨⟩
      rfl
    · exact nofun
  split
  · exact .ok _
  · exact .ok _
  · exact hnobody

end Session

/-! ## 5. Every deed -/

namespace Deed

/-- The outermost of the calls in progress, if there is any. -/
def author (d : Deed) : Option Call := d.calls.getLast?

/-- **A deed is credited to its author**: the annotation in force is that of the author, what a batch
has logged carries the author, and so does the fault of a lookup that finds nothing. -/
def Credited (d : Deed) : Prop :=
  d.context.caller = d.author ∧
    match d.operation with
    | some (.transact ops tempId) =>
      LogsBatch ops (Call.provenance d.author) d.context d.session
        ((Session.transact ops tempId).exec d.context d.session)
    | some (.resolve id) =>
      Blames (Call.name d.author) ((Session.resolveId id).exec d.context d.session).1 ∧
        ∀ g name, d.session.Holds d.context g → id = .str name → g.find configId id = none →
          ((Session.resolveId id).exec d.context d.session).1
            = .error (.unresolved (.nat g.basisTx) id (Call.name d.author))
    | some .read | some (.update _) | none => True

/-- Whatever is done is credited if the annotation in force is that of the outermost call. -/
theorem credited {d : Deed} (h : d.context.caller = d.author) : d.Credited := by
  refine ⟨h, ?_⟩
  rw [← h]
  split
  · next ops tempId _ =>
    rw [Context.provenance_caller]
    exact Session.logs_transact ops tempId _ _
  · next id _ =>
    rw [Context.name_caller]
    refine ⟨Session.blames_resolveId id _ _, ?_⟩
    rintro g name hs rfl hfind
    rw [Session.exec_resolveId hs, hfind]
    rfl
  · trivial
  · trivial
  · trivial

end Deed

namespace CallTree

/-- **Every deed is credited to its author**, wherever in the tree it is done. -/
theorem credited_transcript (tree : CallTree) {calls : List Call} {c : Context}
    (h : c.caller = calls.getLast?) (s : Session) :
    ∀ d ∈ (tree.transcript calls c s).deeds, d.Credited := by
  induction tree generalizing calls c s with
  | ends result => exact fun d hd => nomatch hd
  | does op next ih =>
    intro d hd
    obtain rfl | hd := List.mem_cons.mp hd
    · exact Deed.credited h
    · exact ih _ h _ d hd
  | asks next ih =>
    intro d hd
    obtain rfl | hd := List.mem_cons.mp hd
    · exact Deed.credited h
    · exact ih _ h _ d hd
  | invokes signature site args fit body next ihBody ih =>
    cases fit with
    | error issues => exact ih _ h s
    | ok fits =>
      intro d hd
      obtain hd | hd := List.mem_append.mp hd
      · have hcall : Context.caller { c with site } = calls.getLast? := h
        exact ihBody (Context.caller_annotated hcall _ args _) _ d hd
      · exact ih _ h _ d hd
  | enters initial body next ihBody ih =>
    intro d hd
    obtain hd | hd := List.mem_append.mp hd
    · exact ihBody (c := c.within _) h _ d hd
    · exact ih _ h _ d hd

end CallTree

/-- **Everything is done in the name of the outermost call.**  Let any tree of calls run from outside all
calls, in any scope or none.

* Its account is one of what really happens: result, faults and session are those of the code itself.
* Every transaction carries the qualified name and the frames of the outermost call in progress, every
  unresolved name is reported with the name of that call, and an empty batch logs nothing; this holds at
  any depth, in any scope, and whatever calls have failed before and been caught.
* What is done during no call, before, between or after calls, finds no annotation, so it is done in
  nobody's name. -/
theorem deeds_are_credited {c : Context} (hc : c.annotation = none) (tree : CallTree) (s : Session) :
    tree.act.exec c s
        = ((tree.transcript [] c s).outcome, (tree.transcript [] c s).session) ∧
      (∀ d ∈ (tree.transcript [] c s).deeds, d.Credited) ∧
      ∀ d ∈ (tree.transcript [] c s).deeds, d.calls = [] → d.context.annotation = none := by
  have hnobody : c.caller = ([] : List Call).getLast? := by rw [Context.caller, hc]; rfl
  have hcredited := tree.credited_transcript hnobody s
  refine ⟨tree.exec_act [] c s, hcredited, fun d hd hcalls => ?_⟩
  obtain ⟨hnote, -⟩ := hcredited d hd
  rw [Deed.author, hcalls] at hnote
  exact Option.map_eq_none_iff.mp hnote

/-- Looks up a name, and goes on with what is told of the fault if there is none. -/
def CallTree.seeks (name : String) (next : Value → CallTree) : CallTree :=
  .does (.resolve (.str name)) fun
    | .error fault => next fault.data
    | .ok _ => next .undefined

/-- Makes an entity. -/
def creation : Value :=
  .list [.record .host [("op", .str "create"), ("attrs", .record .host [("port", .nat 80)])]]

/-- A place in a script. -/
def scriptSite : List (Option Frame) := [some ⟨none, "cfgscript:inline", 3, 1⟩]

/-- A call whose own call writes and then fails; the fault is caught, and a name is looked up.  After the
call an empty batch and another one are applied, and the name is looked up once more. -/
def rescueTree : CallTree :=
  .invokes ⟨"outer", "user", none⟩ scriptSite [] (.ok ())
    (.invokes ⟨"inner", "user", none⟩ [] [] (.ok ())
      (.does (.transact creation .undefined) fun _ => .ends (.error (.error "boom")))
      fun _ => .seeks "nobody" fun told => .ends (.ok told))
    fun inside => .does (.transact (.list []) .undefined) fun _ =>
      .does (.transact creation .undefined) fun _ =>
        .seeks "nobody" fun told => .ends (inside.map fun v => .list [v, told])

theorem callFrames_scriptSite : Signature.callFrames scriptSite = [.record .host [
    ("fn", .null), ("file", .str "cfgscript:inline"), ("line", .nat 3), ("column", .nat 1)]] := by
  have hseen : Frame.seen (none :: none :: scriptSite) = [⟨none, "cfgscript:inline", 3, 1⟩] := by
    decide +kernel
  rw [Signature.callFrames, hseen]
  rfl

theorem credited_rescueTree :
    Context.annotation ⟨some 0, none, []⟩ = none ∧
      (rescueTree.act.exec ⟨some 0, none, []⟩ (.sole (.first 0 Graph.empty) true)).1 = .ok (.list [
        .record .host [("basisTx", .nat 1), ("id", .str "nobody"), ("dslFunction", .str "user/outer")],
        .record .host [("basisTx", .nat 2), ("id", .str "nobody"), ("dslFunction", .str "<unknown>")]]) ∧
      ((rescueTree.act.exec ⟨some 0, none, []⟩ (.sole (.first 0 Graph.empty) true)).2.scopes.graphAt?
          0).map (·.transactions) = some [
        ⟨1, 1, .record .host [("source", .str "user"), ("function", .str "user/outer"),
          ("frames", .list [.record .host [("fn", .null), ("file", .str "cfgscript:inline"),
            ("line", .nat 3), ("column", .nat 1)]])]⟩,
        ⟨2, 1, .null⟩] ∧
      ∀ d ∈ (rescueTree.transcript [] ⟨some 0, none, []⟩ (.sole (.first 0 Graph.empty) true)).deeds,
        d.Credited := by
  obtain ⟨hact, hcredited, -⟩ := deeds_are_credited (c := ⟨some 0, none, []⟩) rfl rescueTree
    (.sole (.first 0 Graph.empty) true)
  rw [hact, ← callFrames_scriptSite]
  exact ⟨rfl, rfl, rfl, hcredited⟩

end ConfGraph
