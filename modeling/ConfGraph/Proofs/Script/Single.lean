import ConfGraph.Proofs.Graph.Origin
import ConfGraph.Proofs.Scope.Growing
import ConfGraph.Proofs.Script.Literal
import ConfGraph.Script.Reader
import Mathlib.Data.List.TakeDrop

/-!
# Scripts that only apply a batch

A script may do nothing but apply a batch that is written in it.  Its only statement is found in its
text, so that its text is not blank; its batch is evaluated and read back, and the session goes on as
if the batch had come from outside.

* `Program.IsTransact`: programs whose only statement applies a batch.
* `Program.body_of_blank`: a text of blanks has no statement.
* `Session.Follows`: what a session has come to when a batch has been applied to the graph in context.
* `exec_evaluate_transact`: what running such a program comes to.
-/

namespace ConfGraph

/-! ## 1. Applying a batch in a session -/

/-- What a batch makes of a graph, recorded as made by somebody. -/
def Graph.after (g : Graph) (batch provenance : Value) : Except Fault Graph :=
  (g.applyOps batch provenance).map (·.getD g)

/-- **A session goes on from another one** in which the graph in context was to be replaced: it has the
new graph there, or its scopes are unchanged. -/
def Session.Follows (s s' : Session) (c : Context) : Except Fault Graph → Prop
  | .error _ => s'.scopes.table = s.scopes.table
  | .ok g => s'.Holds c g

/-- Only the scopes matter of what was there before. -/
theorem Session.Follows.of_scopes {s s₁ s' : Session} {c : Context} {made : Except Fault Graph}
    (h : s₁.Follows s' c made) (hscopes : s₁.scopes.table = s.scopes.table) : s.Follows s' c made := by
  cases made with
  | error f => exact h.trans hscopes
  | ok g => exact h

/-- What applying a batch in the name of somebody comes to, whoever asks. -/
theorem Session.exec_updateByOps {c : Context} {s : Session} {g : Graph} (hs : s.Holds c g)
    (batch : Value) (who : Option Annotation) :
    ∃ made s', (updateContent fun content => do
          return (← applyOps content batch who, ()) : Act Session (Content × Unit)).exec c s
        = (made, s') ∧
      (made.map fun _ => ()) = (g.after batch ( Annotation.provenance who)).map (fun _ => ()) ∧
      s.Follows s' c (g.after batch ( Annotation.provenance who)) := by
  obtain ⟨r, rfl, hfails, hgoes⟩ :=
    exec_updateContent hs fun content => do return (← applyOps content batch who, ())
  let named : Context := { c with annotation := who }
  have hnamed : named.provenance = Annotation.provenance who := rfl
  obtain ⟨s', htable, hexec⟩ := exec_applyOps r batch named s
  rw [exec_applyOps_context (.graph r) batch _ named c, hnamed] at hexec
  unfold Graph.after
  cases happly : r.graph.applyOps batch ( Annotation.provenance who) with
  | error f =>
    rw [happly] at hexec
    exact ⟨_, s', hfails f s' (by rw [Act.exec_bind, hexec]), rfl, htable⟩
  | ok next =>
    rw [happly] at hexec
    obtain ⟨r', hr', hexec⟩ := hexec
    obtain ⟨s'', hbody, hholds⟩ := hgoes r' () s' (by rw [Act.exec_bind_of_ok hexec]; rfl) htable
    rw [hr'] at hholds
    exact ⟨_, s'', hbody, rfl, hholds⟩

/-- What applying a batch without asking for a name comes to. -/
theorem Session.exec_transact {c : Context} {s : Session} {g : Graph} (hs : s.Holds c g) (batch : Value) :
    ∃ s', (transact batch .undefined).exec c s
        = ((g.after batch c.provenance).map fun _ => .undefined, s') ∧
      s.Follows s' c (g.after batch c.provenance) := by
  obtain ⟨made, s', hexec, hmade, hfollows⟩ := exec_updateByOps hs batch c.annotation
  have hmade : (made.map fun _ => ()) = (g.after batch c.provenance).map fun _ => () := hmade
  refine ⟨s', ?_, hfollows⟩
  unfold transact
  rw [Act.exec_bind_of_ok (Act.exec_context c s), Act.exec_bind, hexec]
  revert hmade
  rcases made with f | next <;> rcases g.after batch c.provenance with f' | g' <;> intro hmade
  · obtain rfl := Except.error.inj hmade
    rfl
  · exact nomatch hmade
  · exact nomatch hmade
  · rfl

namespace Script

/-! ## 2. Texts of blanks -/

/-- A blank is a word of its own. -/
theorem token?_of_blank {c : Char} (hc : Text.isBlank c = true) (divides atLineStart : Bool)
    (rest : List Char) : ∃ t, token? divides atLineStart (c :: rest) = some (t, rest) ∧
      (t = .blank ∨ t = .lineEnd) := by
  unfold token?
  split
  case h_14 heq =>
    obtain ⟨rfl, rfl⟩ := List.cons.inj heq
    split
    · exact ⟨_, rfl, .inr rfl⟩
    · exact ⟨_, rfl, .inl rfl⟩
  all_goals
    next heq =>
      cases heq <;> exact absurd hc (by decide)

theorem word?_of_blank {c : Char} (hc : Text.isBlank c = true) (o : Outlook) (rest : List Char) :
    ∃ o', word? o (c :: rest) = some (o', rest) := by
  obtain ⟨t, htoken, ht⟩ := token?_of_blank hc o.before.isValue o.atLineStart rest
  have hpast : ∃ o', o.past? t = some o' ∧ o.acts t = false := by
    rcases ht with rfl | rfl
    · exact ⟨_, rfl, rfl⟩
    · exact ⟨_, rfl, rfl⟩
  obtain ⟨o', ho', hacts⟩ := hpast
  refine ⟨o', ?_⟩
  unfold word?
  split
  · next heq =>
    cases heq
    exact absurd hc (by decide)
  · rw [htoken]
    simp only [ho', hacts, Bool.false_and, Bool.false_eq_true, if_false, Option.map_some]

/-- A blank is no part of a name. -/
theorem continuesName_of_blank {c : Char} (hc : Text.isBlank c = true) :
    Text.continuesName c = false := by
  have hle : ∀ a b : Char, a ≤ b ↔ a.toNat ≤ b.toNat := fun a b => UInt32.le_iff_toNat_le
  rw [Bool.eq_false_iff]
  intro hname
  simp only [Text.continuesName, Text.startsName, Bool.or_eq_true, Bool.and_eq_true,
    decide_eq_true_eq, beq_iff_eq, hle] at hname
  simp only [Text.isBlank, Bool.or_eq_true, Bool.and_eq_true, decide_eq_true_eq, beq_iff_eq] at hc
  rcases hname with (((hname | hname) | rfl) | rfl) | hname
  · exact absurd hname (by simp; omega)
  · exact absurd hname (by simp; omega)
  · exact absurd hc (by decide)
  · exact absurd hc (by decide)
  · exact absurd hname (by simp; omega)

/-- No call starts with a blank. -/
theorem call?_of_blank {c : Char} (hc : Text.isBlank c = true) (rest : List Char) :
    call? (c :: rest) = none := by
  have hname : ¬ Text.continuesName c = true := by
    rw [continuesName_of_blank hc]
    exact Bool.false_ne_true
  unfold call?
  rw [List.span_eq_takeWhile_dropWhile, List.takeWhile_cons_of_neg hname]
  rfl

/-- A text of blanks is passed over as a whole. -/
theorem skip?_of_blank {o' : Outlook} {rest : List Char} : ∀ (cs : List Char) (size : Nat) (o : Outlook),
    cs.all Text.isBlank = true → skip? size o cs = some (o', rest) → rest = []
  | [], size, o, _, h => by
    unfold skip? at h
    split at h
    · exact (Prod.mk.inj (Option.some.inj h)).2.symm
    · exact nomatch h
  | c :: cs, 0, o, _, h => by simp [skip?] at h
  | c :: cs, size + 1, o, hblank, h => by
    obtain ⟨hc, hcs⟩ := Bool.and_eq_true_iff.mp (List.all_cons.symm.trans hblank)
    have hmark : ((c :: cs).head? == some '@') = false := by
      refine beq_eq_false_iff_ne.mpr fun hat => ?_
      obtain rfl := Option.some.inj hat
      exact absurd hc (by decide)
    obtain ⟨o'', hword⟩ := word?_of_blank hc o cs
    simp only [skip?, hmark, call?_of_blank hc, Option.isSome_none, Bool.and_false, Bool.or_self,
      Bool.false_eq_true, if_false, hword] at h
    exact skip?_of_blank cs size o'' hcs h

theorem statements?_nil (size : Nat) (spot : Spot) : statements? size spot [] = some ([], spot) := by
  cases size <;> rfl

/-- **A text of blanks is a program without statements.** -/
theorem Program.body_of_blank {text : String} {p : Program} (hblank : Text.trim text = "")
    (h : Program.ofText true text = .ok p) : p.body = [] := by
  have hall := (Text.trim_eq_empty_iff text).mp hblank
  have hcode : afterHashbang true text.toList = text.toList := by
    unfold afterHashbang
    split
    · next rest heq =>
      rw [heq, List.all_cons] at hall
      exact absurd (Bool.and_eq_true_iff.mp hall).1 (by decide)
    · rfl
  have hsync : asyncMark.isPrefixOf [] = false := by decide
  unfold Program.ofText at h
  split at h
  · next p' hp =>
    obtain rfl := Except.ok.inj h
    unfold Program.ofText? at hp
    cases hskip : skip? (text.toList.length + 1) (.start true) text.toList with
    | none =>
      simp only [hcode, hskip] at hp
      exact nomatch hp
    | some r =>
      obtain ⟨o, rest⟩ := r
      obtain rfl := skip?_of_blank _ _ _ hall hskip
      simp only [hcode, hskip, hsync, statements?_nil, Option.bind_eq_bind, Option.bind_some,
        Bool.false_and, Bool.false_eq_true, if_false, List.isEmpty_nil, if_true] at hp
      split at hp
      · obtain rfl := Option.some.inj hp
        rfl
      · exact nomatch hp
  · exact nomatch h

/-! ## 3. Running -/

/-- **A program whose only statement applies a batch.** -/
def Program.IsTransact (p : Program) (batch : Value) : Prop :=
  p.isAsync = false ∧ ∃ spot, p.body = [(spot, .call "transact" [.literal batch])]

theorem Program.IsTransact.assigned {p : Program} {batch : Value} (hp : p.IsTransact batch) :
    p.assigned = [] := by
  obtain ⟨-, spot, hbody⟩ := hp
  rw [Program.assigned, hbody]
  rfl

/-- A program that assigns nothing has the globals as its variables, beside its parameters. -/
theorem Code.get?_bindings {code : Code} (hassigned : code.program.assigned = []) {name : String}
    (hself : name ≠ selfWord) (hname : name ∉ Fields.names (code.parameters.getD [])) :
    Fields.get? code.bindings name = Fields.get? code.globals name := by
  have hparameters : Fields.get? (code.parameters.getD []).reverse name = none := by
    rw [Fields.get?_eq_none_iff]
    simpa [Fields.names] using hname
  have hglobals : Fields.get? (Fields.erase code.globals selfWord) name = Fields.get? code.globals name :=
    Fields.get?_erase_of_ne _ hself
  unfold Code.bindings
  rw [hassigned]
  dsimp only [List.filter_nil, List.map_nil]
  rw [Fields.get?_putAll, hparameters, Option.none_or]
  exact hglobals

section Running

open ConfGraph.Module (State)

variable {c : Context} {s : State} {p : Place} {g : Graph} {batch : Value}

/-- A variable that a script has made, or been given. -/
theorem exec_getVariable {name : String} (hname : literal? name = none) {cell : Cell} {d : Datum}
    (hcell : s.heap.get? p.bindings = some cell) (hd : Fields.get? cell.fields name = some d) :
    (getVariable p name).exec c s = (.ok d, s) := by
  have hfields : (fieldsOf p.bindings).exec c s = (.ok cell.fields, s) := by
    show (Except.ok ((s.heap.get? p.bindings).map (·.fields) |>.getD []), s) = _
    rw [hcell]
    rfl
  have hfind : (findVariable p name).exec c s = (.ok (some d), s) := by
    unfold findVariable
    rw [Act.exec_bind_of_ok hfields, hname, hd]
    rfl
  unfold getVariable
  rw [Act.exec_bind_of_ok hfind]
  rfl

/-- Calling the function that applies a batch. -/
theorem Runtime.exec_callNamed_transact (rt : Runtime State) {id : CellId}
    (hid : s.heap.Calls id .transact) {d : Datum} (hd : s.heap.value d = batch)
    (hs : s.session.Holds c g) (name : String) :
    ∃ session, (rt.callNamed name (.cell id) [d]).exec c s
        = ((g.after batch c.provenance).map fun _ => .undefined, { s with session }) ∧
      s.session.Follows session c (g.after batch c.provenance) := by
  obtain ⟨session, hexec, hfollows⟩ := Session.exec_transact hs batch
  refine ⟨session, ?_, hfollows⟩
  obtain ⟨⟨body, fields, parent, home⟩, face, hget, rfl⟩ := hid
  have hcallable : callable? s.heap (.cell id) = some .transact := by
    simp only [callable?, hget]
  have hheap : (getHeap : Act State Heap).exec c s = (.ok s.heap, s) := rfl
  have hbatch : (valueOf (argument [d] 0) : Act State Value).exec c s = (.ok batch, s) := by
    rw [← hd]
    rfl
  have hnone : (valueOf (argument [d] 1) : Act State Value).exec c s = (.ok .undefined, s) := rfl
  have hsession : (onSession (Session.transact batch .undefined) : Act State Value).exec c s
      = ((g.after batch c.provenance).map fun _ => .undefined, { s with session }) := by
    have hexec' : (Session.transact batch .undefined).exec c (HasSession.session s)
        = ((g.after batch c.provenance).map fun _ => .undefined, session) := hexec
    rw [Act.exec_onSession, hexec']
    rfl
  unfold callNamed
  rw [Act.exec_bind_of_ok hheap, hcallable]
  show (rt.apply .transact [d]).exec c s = _
  unfold apply
  rw [Act.exec_bind_of_ok hbatch, Act.exec_bind_of_ok hnone, Act.exec_bind, hsession]
  cases g.after batch c.provenance <;> rfl

/-- **Calling it with a literal.** -/
theorem Runtime.exec_callTransact (rt : Runtime State) {cell : Cell} {id : CellId}
    (hroot : s.heap.get? (p.header.realm.root .object) = some (Heap.ancestor p.header.realm .object))
    (hcell : s.heap.get? p.bindings = some cell)
    (hvariable : Fields.get? cell.fields "transact" = some (.cell id)) (hid : s.heap.Calls id .transact)
    (hbatch : batch.Writable) {ops : List TxOp} (hops : opsShape batch = .ok ops)
    (hs : s.session.Holds c g) :
    ∃ session heap, (rt.eval p (.call "transact" [.literal batch])).exec c s
        = ((g.after batch c.provenance).map fun _ => .undefined, { s with session, heap }) ∧
      s.session.Follows session c (g.after batch c.provenance) ∧ s.heap.Extends heap ∧
      heap.known = s.heap.known := by
  have hfound : (getVariable p "transact").exec c s = (.ok (.cell id), s) :=
    exec_getVariable rfl hcell hvariable
  let here : Place := p.past (Expr.callLead "transact")
  obtain ⟨parts, heap, heval, hparts, hvalues⟩ := rt.exec_literals (r := p.header.realm) [batch]
    (fun v hv => by
      rw [List.mem_singleton.mp hv]
      exact rt.writesDown_literal hbatch) here c s rfl hroot
  obtain ⟨⟨d, v⟩, rfl⟩ : ∃ part, parts = [part] := by
    refine List.length_eq_one_iff.mp ?_
    have hlength := congrArg List.length hvalues
    simpa using hlength
  obtain rfl : v = batch.madeBy (originIn p.header.realm) := by simpa using hvalues
  have hvalue : heap.value d = batch.madeBy (originIn p.header.realm) :=
    (hparts.stand _ List.mem_cons_self).value
  let caller : Context := { c with site := some p.frame :: c.site }
  obtain ⟨session, hexec, hfollows⟩ := rt.exec_callNamed_transact (c := caller)
    (s := { s with heap }) (hparts.cells.calls hid) hvalue hs "transact"
  have hafter : g.after (batch.madeBy (originIn p.header.realm)) caller.provenance
      = g.after batch c.provenance :=
    congrArg (Except.map _) (Graph.applyOps_madeBy g hbatch hops _ _)
  rw [hafter] at hexec hfollows
  refine ⟨session, heap, ?_, hfollows, hparts.cells, hparts.known⟩
  have hcall : rt.eval p (.call "transact" [.literal batch]) = (do
      let f ← getVariable p "transact"
      let ds ← rt.evalAll here (Expr.literals [batch])
      calledFrom p.frame (rt.callNamed "transact" f ds)) := by
    have hword : Operator.ofWord? "transact" = none := rfl
    rw [eval.eq_def]
    simp only [hword]
    rfl
  rw [hcall, Act.exec_bind_of_ok hfound, Act.exec_bind_of_ok heval]
  exact hexec

/-- The statement alone. -/
theorem Runtime.exec_runBody_transact (rt : Runtime State) (spot : Spot) {made : Except Fault Unit}
    {s' : State} (hcall : (rt.eval { p with spot } (.call "transact" [.literal batch])).exec c s
      = (made.map fun _ => .undefined, s')) :
    (rt.runBody p [(spot, .call "transact" [.literal batch])]).exec c s = (made, s') := by
  have hstatement : rt.runStmt { p with spot } (.call "transact" [.literal batch])
      = (do let _ ← rt.eval { p with spot } (.call "transact" [.literal batch])) := by
    rw [Runtime.runStmt, if_neg (by decide)]
  unfold Runtime.runBody
  rw [hstatement, Act.exec_bind, Act.exec_bind, hcall]
  cases made <;> rfl

/-- **Entering a program** adds a realm and the cell of its variables. -/
theorem exec_enter {code : Code} (hrealm : code.ownRealm = true) (c : Context) (s : State) :
    ∃ (p : Place) (heap : Heap), code.enter.exec c s = (.ok p, { s with heap }) ∧
      s.heap.Extends heap ∧ heap.known = s.heap.known ∧
      heap.get? (p.header.realm.root .object) = some (Heap.ancestor p.header.realm .object) ∧
      heap.get? p.bindings = some (Heap.recordCell hostRealm code.bindings) := by
  have hmake : (onHeap fun h => h.makeRealm : Act State Realm).exec c s
      = (.ok s.heap.makeRealm.1, { s with heap := s.heap.makeRealm.2 }) := rfl
  have hroot := Heap.get?_makeRealm_object s.heap
  have hcells := Heap.extends_makeRealm s.heap
  have hknown : s.heap.makeRealm.2.known = s.heap.known := rfl
  generalize s.heap.makeRealm = made at hmake hroot hcells hknown
  obtain ⟨realm, h⟩ := made
  let cell : Cell := Heap.recordCell hostRealm code.bindings
  refine ⟨⟨h.cells.size, ⟨code.fn, code.file, realm, code.program.isStrict⟩, .start⟩, (h.make cell).2, ?_,
    hcells.trans (Heap.extends_make h cell), hknown, Heap.extends_make h cell _ _ hroot,
    Heap.get?_make_self h cell⟩
  unfold Code.enter
  rw [hrealm, if_pos rfl, Act.exec_bind_of_ok hmake]
  rfl

/-- **Running a program whose only statement applies a batch**: the batch is applied, and nothing else is
done but to add cells. -/
theorem exec_evaluate_transact (require : Module.Require) (code : Code) {id : CellId}
    (hprogram : code.program.IsTransact batch) (hrealm : code.ownRealm = true)
    (hvariable : Fields.get? code.bindings "transact" = some (.cell id)) (hid : s.heap.Calls id .transact)
    (hbatch : batch.Writable) {ops : List TxOp} (hops : opsShape batch = .ok ops)
    (hs : s.session.Holds c g) :
    ∃ session heap, (evaluate require code).exec c s
        = ((g.after batch c.provenance).map fun _ => (), { s with session, heap }) ∧
      s.session.Follows session c (g.after batch c.provenance) ∧ s.heap.Extends heap ∧
      heap.known = s.heap.known := by
  obtain ⟨-, spot, hbody⟩ := hprogram
  obtain ⟨p, entered, henter, hcells, hknown, hroot, hbindings⟩ := exec_enter hrealm c s
  obtain ⟨session, heap, hexec, hfollows, hcells', hknown'⟩ :=
    (runtimeWithin require callDepth).exec_callTransact (c := c) (s := { s with heap := entered })
      (p := { p with spot }) hroot hbindings hvariable (hcells.calls hid) hbatch hops hs
  refine ⟨session, heap, ?_, hfollows, hcells.trans hcells', hknown'.trans hknown⟩
  unfold evaluate
  rw [Act.exec_bind_of_ok henter, hbody]
  refine Runtime.exec_runBody_transact _ spot (hexec.trans ?_)
  cases g.after batch c.provenance <;> rfl

end Running

end Script

end ConfGraph
