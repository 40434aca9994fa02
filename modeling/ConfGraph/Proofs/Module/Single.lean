import ConfGraph.Proofs.Module.Loading
import ConfGraph.Proofs.Script.Single

/-!
# Modules that only apply a batch

The text of a config module may do nothing but apply a batch to the graph in context.  Loading such a
module applies the batch, once, and hands on its refusal; all that comes of it beside are cells and what
is told of the evaluation.

* `Offering`: globals among which the function that applies batches is, and no other of its name.
* `exec_makeGlobals_offering`: that function among the data of globals.
* `exec_evaluateModule_transact`, `exec_load_transact`: evaluating such a module, and loading it.
-/

namespace ConfGraph.Module

open Script

/-! ## 1. The function among the globals -/

/-- **Globals under whose `transact` scripts find the function that applies batches**; no other function
of the host has its name. -/
structure Offering (globals : Fields Global) : Prop where
  face : ∃ face : Face, face.name = "transact" ∧
    Fields.get? globals "transact" = some (.function .transact face)
  one : Heap.OneUnder "transact" .transact globals

/-- What is kept of the function that applies batches is that function. -/
abbrev OffersTransact (h : Heap) : Prop := h.Offers "transact" .transact

/-- A heap goes on from another one, in which what is kept of that function is that function. -/
abbrev Onward (h h' : Heap) : Prop := Heap.Onward "transact" .transact h h'

variable {globals : Fields Global} {c : Context} {s : State} {g : Graph} {batch : Value}

theorem exec_makeGlobals_offering (hglobals : Offering globals) (hs : OffersTransact s.heap)
    (c : Context) : ∃ data heap id,
      (makeGlobals globals).exec c s = (.ok data, { s with heap }) ∧
      Fields.get? data "transact" = some (.cell id) ∧ heap.Calls id .transact ∧ Onward s.heap heap := by
  obtain ⟨face, hname, hget⟩ := hglobals.face
  obtain ⟨id, hdata, hid⟩ := Heap.offered hname globals hglobals.one hget s.heap hs
  exact ⟨_, _, id, rfl, hdata, hid, Heap.onward_globalData globals hglobals.one s.heap⟩

/-- Making a `require` adds a cell. -/
theorem exec_makeRequire (name : String) (who : Requirer) (c : Context) (s : State) :
    ∃ id heap, (makeRequire name who).exec c s = (.ok id, { s with heap }) ∧ Onward s.heap heap :=
  ⟨_, _, rfl, Heap.onward_make _ _⟩

/-! ## 2. The text of a module -/

/-- **The text of a listed module** that only applies a batch. -/
theorem exec_runText_transact (require : Require) {d : Disk} (hglobals : Offering globals)
    (listing : Nat) {m : Listed} {text : String} (htext : m.text d = .ok text) {p : Program}
    (hp : Program.ofText false text = .ok p) (hprogram : p.IsTransact batch) (hbatch : batch.Writable)
    {ops : List TxOp} (hops : opsShape batch = .ok ops) (hoffers : OffersTransact s.heap)
    (hs : s.session.Holds c g) (exports : Datum) (cell : CellId) :
    ∃ session heap, (runText require d globals listing m exports cell).exec c s
        = ((g.after batch c.provenance).map fun _ => (), { s with session, heap }) ∧
      s.session.Follows session c (g.after batch c.provenance) ∧ Onward s.heap heap := by
  obtain ⟨data, heap₁, id, hdata, hvariable, hid, honward₁⟩ :=
    exec_makeGlobals_offering hglobals hoffers c
  obtain ⟨own, heap₂, hown, honward₂⟩ :=
    exec_makeRequire "" ⟨m.path, some listing⟩ c { s with heap := heap₁ }
  let code : Code := {
    fn := some frameName, file := frameFile m.id, ownRealm := true, globals := data, program := p
    parameters := some (moduleVariables m.path exports cell own) }
  have hbindings : Fields.get? code.bindings "transact" = some (.cell id) :=
    (Code.get?_bindings hprogram.assigned (by decide) (by simp [code, moduleVariables, Fields.names,
      selfWord, exportsName])).trans hvariable
  obtain ⟨session, heap, hexec, hfollows, hcells, hknown⟩ :=
    exec_evaluate_transact (c := c) (s := { s with heap := heap₂ }) require code hprogram rfl
      hbindings (honward₂.cells.calls hid) hbatch hops hs
  have htext' : (Act.ofExcept (m.text d) : Act State String).exec c s = (.ok text, s) := by
    rw [htext]
    rfl
  have hprogram' : (Act.ofExcept (Program.ofText false text) : Act State Program).exec c s
      = (.ok p, s) := by
    rw [hp]
    rfl
  refine ⟨session, heap, ?_, hfollows,
    honward₁.trans (honward₂.trans (hcells.onward hknown))⟩
  unfold runText
  rw [Act.exec_bind_of_ok htext', Act.exec_bind_of_ok hprogram', Act.exec_bind_of_ok hdata,
    Act.exec_bind_of_ok hown]
  exact hexec

/-! ## 3. Loading -/

/-- The exports and the object of a module are made together. -/
theorem exec_makeModule (c : Context) (s : State) : ∃ exports cell heap,
    makeModule.exec c s = (.ok (exports, cell), { s with heap }) ∧
      heap.get? cell = some (Heap.recordCell hostRealm [(exportsName, exports)]) ∧
      Onward s.heap heap := by
  refine ⟨_, _, _, rfl, Heap.get?_make_self _ _, ?_⟩
  exact (Heap.onward_make s.heap _).trans (Heap.onward_make _ _)

/-- Handing out the exports of a module to which nothing has been written. -/
theorem exec_exportsOf {cell : CellId} {exports : Datum}
    (hcell : s.heap.get? cell = some (Heap.recordCell hostRealm [(exportsName, exports)]))
    (c : Context) : (exportsOf cell).exec c s = (.ok exports, s) := by
  have hheap : (getHeap : Act State Heap).exec c s = (.ok s.heap, s) := rfl
  have hfind : s.heap.find hostRealm (.cell cell) exportsName = .datum exports := by
    simp [Heap.find, Heap.findFrom, hcell, Heap.own?, Heap.recordCell, Fields.get?_cons]
  unfold exportsOf readField
  rw [Act.exec_bind_of_ok hheap, hfind]
  rfl

/-- Forgetting an evaluation leaves session and heap alone. -/
theorem exec_forget_same (e : Evaluation) (c : Context) (s : State) :
    ((forget e).exec c s).2.session = s.session ∧ ((forget e).exec c s).2.heap = s.heap := by
  show ((s.withCache e.isConfig _).noting _).session = _ ∧ ((s.withCache e.isConfig _).noting _).heap = _
  cases e.isConfig <;> exact ⟨rfl, rfl⟩

/-- **Evaluating a module that only applies a batch**, one that is not remembered. -/
theorem exec_evaluateModule_transact (require : Require) {d : Disk} (hglobals : Offering globals)
    (listing : Nat) {m : Listed} (hnone : (s.cache m.isConfig).lookup m.id = none) {text : String}
    (htext : m.text d = .ok text) {p : Program} (hp : Program.ofText false text = .ok p)
    (hprogram : p.IsTransact batch) (hbatch : batch.Writable) {ops : List TxOp}
    (hops : opsShape batch = .ok ops) (hoffers : OffersTransact s.heap) (hs : s.session.Holds c g) :
    ∃ loaded s', (evaluateModule require d globals listing m).exec c s = (loaded, s') ∧
      (loaded.map fun _ => ()) = (g.after batch c.provenance).map (fun _ => ()) ∧
      s.session.Follows s'.session c (g.after batch c.provenance) ∧ Onward s.heap s'.heap := by
  obtain ⟨exports, e, s₁, -, -, hmade, hsession, -, hobject⟩ :=
    exec_moduleObject_of_new d globals listing m c hnone
  obtain ⟨exports', cell', heap', hmade', hcell, honward⟩ := exec_makeModule c s
  obtain ⟨hresult, hstate⟩ := Prod.mk.inj (hmade.symm.trans hmade')
  obtain ⟨rfl, rfl⟩ := Prod.mk.inj (Except.ok.inj hresult)
  obtain rfl : s₁.heap = heap' := congrArg State.heap hstate
  have hholds : s₁.session.Holds c g := by
    rw [hsession]
    exact hs
  obtain ⟨session, heap, hrun, hfollows, honward'⟩ :=
    exec_runText_transact require hglobals listing htext hp hprogram hbatch hops
      (honward.offers hoffers) hholds exports e.cell
  have hfollows : s.session.Follows session c (g.after batch c.provenance) :=
    hfollows.of_scopes (by rw [hsession])
  unfold evaluateModule
  rw [Act.exec_bind, hobject, hrun]
  let t : State := { s₁ with session, heap }
  cases hmade : g.after batch c.provenance with
  | error f =>
    obtain ⟨hsame, hheap⟩ := exec_forget_same e c t
    refine ⟨.error f, ((forget e).exec c t).2, rfl, rfl, ?_, ?_⟩
    · rw [hsame, ← hmade]
      exact hfollows
    · rw [hheap]
      exact honward.trans honward'
  | ok made =>
    refine ⟨.ok exports, t.noting (.completed e), ?_, rfl, ?_, honward.trans honward'⟩
    · show (exportsOf e.cell).exec c (t.noting (.completed e)) = _
      exact exec_exportsOf (honward'.cells _ _ hcell) c
    · rw [← hmade]
      exact hfollows

/-- **Loading a config module that only applies a batch** applies the batch. -/
theorem exec_load_transact {d : Disk} (hglobals : Offering globals) {all : List Listed} {id : String}
    {m : Listed} (hfind : all.find? (fun m => m.id == id) = some m) (hm : m.isConfig = true)
    {text : String} (htext : m.text d = .ok text) {p : Program}
    (hp : Program.ofText false text = .ok p) (hprogram : p.IsTransact batch) (hbatch : batch.Writable)
    {ops : List TxOp} (hops : opsShape batch = .ok ops) (hoffers : OffersTransact s.heap)
    (hs : s.session.Holds c g) :
    ∃ loaded s', (load d globals (.ok all) id).exec c s = (loaded, s') ∧
      (loaded.map fun _ => ()) = (g.after batch c.provenance).map (fun _ => ()) ∧
      s.session.Follows s'.session c (g.after batch c.provenance) ∧ Onward s.heap s'.heap := by
  -- What was loaded before is forgotten first, so that the module is evaluated.
  obtain ⟨libraries, events, s₀, rfl, -, hload⟩ := exec_load_of_passed d globals hfind hm c s
  rw [hload]
  exact exec_evaluateModule_transact _ hglobals _ (by rw [hm]; rfl) htext hp hprogram hbatch hops hoffers hs

end ConfGraph.Module
