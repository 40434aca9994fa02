import ConfGraph.Proofs.Engine.Fresh
import ConfGraph.Proofs.Engine.Refinement
import ConfGraph.Proofs.Module.Single
import ConfGraph.Proofs.Script.Readback

/-!
# Four routes to a graph

A batch comes to a graph as an initializer of its own, or in code that applies it: in a script in place,
in a script file, or in a config module.  The routes agree: whichever is taken, the batch is applied once,
in nobody's name, and its refusal is handed on as it is.  No batch that can be written down is kept from
one of them, whatever the names and the numbers in it are.

* `State.OffersTransact`: engines whose scripts find the function that applies batches.
* `offersTransact_construct`: every new engine is one.
* `Route`, `HasRoutes`: initializers by which a batch comes to a graph, and that there is one of each.
* `applies_dispatch`: what each of them does in its scope.
* `routes_agree`: what they come to.
-/

namespace ConfGraph.Engine

open Script

/-! ## 1. The function that applies batches -/

/-- **An engine whose scripts find the function that applies batches**: no DSL function has taken its
name, and the function that scripts share under it is that one. -/
structure State.OffersTransact (s : State) : Prop where
  free : "transact" ∉ Fields.names s.dsl
  kept : Module.OffersTransact s.modules.heap

/-- Scripts find it among their globals. -/
theorem offering_scriptGlobals {dsl : Fields DslFunction} (hdsl : "transact" ∉ Fields.names dsl) :
    Module.Offering (scriptGlobals dsl) where
  face := by
    refine ⟨⟨"transact", 2, .ordinary⟩, rfl, ?_⟩
    have hnone : Fields.get? ((dsl.filter fun f => f.1 != "__proto__").map fun f =>
        (f.1, Global.dsl f.2)).reverse "transact" = none := by
      refine Fields.get?_eq_none_iff.mpr fun hmem => hdsl ?_
      simp only [Fields.names, List.map_reverse, List.mem_reverse, List.map_map] at hmem
      obtain ⟨f, hf, hname⟩ := List.mem_map.mp hmem
      exact List.mem_map.mpr ⟨f, (List.mem_filter.mp hf).1, hname⟩
    rw [scriptGlobals, Fields.get?_putAll, hnone]
    rfl
  one := by
    intro g hg c' face hglobal hname
    rcases mem_putAll _ _ hg with hg | hg
    · simp only [coreGlobals, List.mem_cons, List.not_mem_nil, or_false] at hg
      rcases hg with rfl | rfl | rfl | rfl | rfl | rfl | rfl | rfl <;> cases hglobal <;>
        first | rfl | exact absurd hname (by decide)
    · obtain ⟨f, hf, rfl⟩ := List.mem_map.mp hg
      exact nomatch hglobal

/-- An act leaves scripts the function. -/
def KeepsOffering {α : Type} (a : Act State α) : Prop :=
  ∀ c s, s.OffersTransact → (a.exec c s).2.OffersTransact

theorem KeepsOffering.bind {α β : Type} {a : Act State α} (ha : KeepsOffering a) {f : α → Act State β}
    (hf : ∀ x, KeepsOffering (f x)) : KeepsOffering (a >>= f) :=
  Act.keeps_bind (R := fun s s' : State => s.OffersTransact → s'.OffersTransact)
    (fun h h' hs => h' (h hs)) ha hf

theorem keepsOffering_of_same {α : Type} {a : Act State α}
    (ha : ∀ c s, (a.exec c s).2.dsl = s.dsl ∧ (a.exec c s).2.modules.heap = s.modules.heap) :
    KeepsOffering a := by
  intro c s hs
  obtain ⟨hdsl, hheap⟩ := ha c s
  exact ⟨hdsl ▸ hs.free, hheap ▸ hs.kept⟩

/-- **No DSL function can take its name.** -/
theorem keepsOffering_registerDsl (f : DslFunction) : KeepsOffering (registerDsl f) := by
  have hreplaced : KeepsOffering (noteReplaced f) := by
    refine KeepsOffering.bind (keepsOffering_of_same fun _ _ => ⟨rfl, rfl⟩) fun s => ?_
    split
    · split
      · exact keepsOffering_of_same fun _ _ => ⟨rfl, rfl⟩
      · exact keepsOffering_of_same fun _ _ => ⟨rfl, rfl⟩
    · exact keepsOffering_of_same fun _ _ => ⟨rfl, rfl⟩
  unfold registerDsl
  split
  · exact keepsOffering_of_same fun _ _ => ⟨rfl, rfl⟩
  · next hname =>
    refine hreplaced.bind fun _ c s hs => ⟨fun hmem => ?_, hs.kept⟩
    obtain ⟨g, hg, htransact⟩ := List.mem_map.mp hmem
    rcases Fields.mem_put hg with rfl | hg
    · refine hname ?_
      have hname : f.name = "transact" := htransact
      rw [hname]
      decide
    · exact hs.free (List.mem_map.mpr ⟨g, hg.1, htransact⟩)

theorem keepsOffering_registerAllDsl : ∀ fs : List DslFunction, KeepsOffering (registerAllDsl fs)
  | [] => keepsOffering_of_same fun _ _ => ⟨rfl, rfl⟩
  | f :: rest => (keepsOffering_registerDsl f).bind fun _ => keepsOffering_registerAllDsl rest

theorem keepsOffering_registerAllFunctions : ∀ fs : List (String × Procedure),
    KeepsOffering (registerAllFunctions fs)
  | [] => keepsOffering_of_same fun _ _ => ⟨rfl, rfl⟩
  | (name, p) :: rest => by
    refine KeepsOffering.bind ?_ fun _ => keepsOffering_registerAllFunctions rest
    exact KeepsOffering.bind (keepsOffering_of_same fun _ _ => ⟨rfl, rfl⟩) fun _ =>
      keepsOffering_of_same fun _ _ => ⟨rfl, rfl⟩

/-- **Scripts of a new engine find the function**, whatever its host adds. -/
theorem offersTransact_construct (dsl : List DslFunction) (functions : List (String × Procedure))
    (disk : Disk) (libraries : Fields (Fields Export)) (c : Context) :
    ((construct dsl functions).exec c (State.start disk libraries)).2.OffersTransact := by
  have hconstruct : KeepsOffering (construct dsl functions) :=
    (keepsOffering_registerAllDsl _).bind fun _ => (keepsOffering_registerAllDsl dsl).bind fun _ =>
      keepsOffering_registerAllFunctions functions
  exact hconstruct c _ ⟨List.not_mem_nil, fun id hid => nomatch hid⟩

/-! ## 2. The routes -/

/-- **A text that only applies a batch**, as it is run by itself or as that of a module. -/
def AppliesOnly (mayRun : Bool) (text : String) (batch : Value) : Prop :=
  ∃ p, Program.ofText mayRun text = .ok p ∧ p.IsTransact batch

/-- **The initializers by which a batch comes to a graph.** -/
inductive Route (e : Setup) (d : Disk) (batch : Value) : Initializer → Prop
  /-- The batch itself. -/
  | ops : Route e d batch (.ops batch)
  /-- A script in place. -/
  | script {text : String} (applies : AppliesOnly true text batch) : Route e d batch (.script text)
  /-- A script file. -/
  | file {path text : String} (read : d.read (Path.resolve e.baseDir path) = .ok text)
    (applies : AppliesOnly true text batch) : Route e d batch (.file path)
  /-- A config module. -/
  | module {id : String} {all : List Module.Listed} {m : Module.Listed} {text : String}
    (listed : e.source.list d = .ok all) (found : all.find? (fun m => m.id == id) = some m)
    (isConfig : m.isConfig = true) (read : m.text d = .ok text)
    (applies : AppliesOnly false text batch) : Route e d batch (.module id)

/-- The script that only applies a batch. -/
def transactText (batch : Value) : String := callText "transact" [batch]

/-- The config module that only applies a batch. -/
def transactModuleText (batch : Value) : String := callModuleText "transact" [batch]

theorem appliesOnly_transactText {batch : Value} (hbatch : batch.Writable) :
    AppliesOnly true (transactText batch) batch := by
  obtain ⟨spot, ending, h⟩ := ofText_callText (f := "transact") (by decide) (by decide)
    (List.forall_mem_singleton.mpr hbatch)
  exact ⟨_, h, rfl, spot, rfl⟩

theorem appliesOnly_transactModuleText {batch : Value} (hbatch : batch.Writable) :
    AppliesOnly false (transactModuleText batch) batch := by
  obtain ⟨spot, ending, h⟩ := ofText_callModuleText (f := "transact") (by decide) (by decide)
    (List.forall_mem_singleton.mpr hbatch)
  exact ⟨_, h, rfl, spot, rfl⟩

/-- **A batch comes to a graph by each of the four routes**: as it is, by the script that applies it, by a
file that holds this script, and by a config module that holds the text for it. -/
structure HasRoutes (e : Setup) (d : Disk) (batch : Value) : Prop where
  ops : Route e d batch (.ops batch)
  script : Route e d batch (.script (transactText batch))
  file {path : String} (read : d.read (Path.resolve e.baseDir path) = .ok (transactText batch)) :
    Route e d batch (.file path)
  isConfig : Module.isConfig (transactModuleText batch) = true
  module {id : String} {all : List Module.Listed} {m : Module.Listed}
    (listed : e.source.list d = .ok all) (found : all.find? (fun m => m.id == id) = some m)
    (isConfig : m.isConfig = true) (read : m.text d = .ok (transactModuleText batch)) :
    Route e d batch (.module id)

theorem hasRoutes_of_writable (e : Setup) (d : Disk) {batch : Value} (hbatch : batch.Writable) :
    HasRoutes e d batch where
  ops := .ops
  script := .script (appliesOnly_transactText hbatch)
  file read := .file read (appliesOnly_transactText hbatch)
  isConfig := isConfig_callModuleText "transact" [batch]
  module listed found isConfig read :=
    .module listed found isConfig read (appliesOnly_transactModuleText hbatch)

/-- **What a route comes to in a scope**: the batch is applied to the graph there and recorded as made by
somebody, and scripts still find the function. -/
def Applies (batch provenance : Value) (g : Graph) (c : Context) (s : State) (a : Strand State Unit) :
    Prop :=
  ∃ s', a.exec c s = ((g.after batch provenance).map fun _ => (), s') ∧
    s.modules.session.Follows s'.modules.session c (g.after batch provenance) ∧ s'.OffersTransact

section Routes

variable {e : Setup} {batch : Value} {g : Graph} {c : Context} {s : State}

/-- The batch itself, which is applied in nobody's name. -/
theorem applies_ops (nest : Nest) (hs : s.OffersTransact) (hg : s.modules.session.Holds c g) :
    Applies batch .null g c s (dispatch e nest (.ops batch)) := by
  obtain ⟨made, session, hexec, hmade, hfollows⟩ := Session.exec_updateByOps hg batch none
  refine ⟨{ s with modules := { s.modules with session } }, ?_, hfollows, hs.free, hs.kept⟩
  let update : Act Session (Content × Unit) := Session.updateContent fun content => do
    return (← Session.applyOps content batch none, ())
  have hsession : (Strand.onSession update : Strand State _).exec c s
      = ((update.exec c s.modules.session).1,
          { s with modules := { s.modules with session := (update.exec c s.modules.session).2 } }) := rfl
  have hupdate : update.exec c s.modules.session = (made, session) := hexec
  have hmade : (made.map fun _ => ()) = (g.after batch .null).map fun _ => () := hmade
  unfold dispatch
  rw [Strand.exec_bind (Strand.sequential_onSession _), hsession, hupdate, ← hmade]
  cases made <;> rfl

/-- An act of the engine before a strand. -/
theorem exec_once_bind {α β : Type} {a : Act State α} {x : α} {s' : State}
    (h : a.exec c s = (.ok x, s')) (f : α → Strand State β) :
    (once a >>= f).exec c s = (f x).exec c s' := by
  have hsequential : (once a).Sequential := Strand.sequential_ofAct a
  have honce : (once a).exec c s = (.ok x, s') := h
  rw [Strand.exec_bind hsequential, honce]

/-- An act on what modules work on, taken as a strand. -/
theorem exec_takeModules_ofAct (a : Act Module.State Unit) (c : Context) (s : State) :
    (takeModules (Strand.ofAct a)).exec c s
      = ((a.exec c s.modules).1, { s with modules := (a.exec c s.modules).2 }) :=
  exec_takeModules _ c s

/-- A program that does not give way runs in one turn. -/
theorem evaluateTurns_of_sync (require : Module.Require) {code : Code}
    (hsync : code.program.isAsync = false) :
    evaluateTurns require code = Strand.ofAct (evaluate require code) := by
  unfold evaluateTurns evaluate
  rw [hsync]
  exact Strand.ofAct_bind _ _

/-- **The code of a script** that assigns nothing sees the function. -/
theorem exec_scriptCode_offering (hs : s.OffersTransact) {text : String} {p : Program}
    (hp : Program.ofText true text = .ok p) (hassigned : p.assigned = []) (origin requirePath : String)
    (c : Context) : ∃ code s' id, (scriptCode text origin requirePath).exec c s = (.ok code, s') ∧
      code.program = p ∧ code.ownRealm = true ∧
      Fields.get? code.bindings "transact" = some (.cell id) ∧ s'.modules.heap.Calls id .transact ∧
      s'.dsl = s.dsl ∧ s'.modules.session.scopes = s.modules.session.scopes ∧
      Module.Onward s.modules.heap s'.modules.heap := by
  let s₁ : State := s.going s.scopes [.scriptStarted origin]
  obtain ⟨data, heap₁, id, hdata, hvariable, hid, honward₁⟩ :=
    Module.exec_makeGlobals_offering (s := s₁.modules) (offering_scriptGlobals hs.free) hs.kept c
  obtain ⟨own, heap₂, hown, honward₂⟩ :=
    Module.exec_makeRequire "require" ⟨requirePath, none⟩ c { s₁.modules with heap := heap₁ }
  let code : Code := {
    fn := none, file := Frame.scriptMark ++ origin, ownRealm := true, program := p
    globals := Fields.put data "require" (.cell own), parameters := none }
  have hbindings : Fields.get? code.bindings "transact" = some (.cell id) := by
    rw [Code.get?_bindings hassigned (by decide) List.not_mem_nil]
    exact (Fields.get?_put_of_ne _ _ (by decide)).trans hvariable
  refine ⟨code, { s₁ with modules := { s₁.modules with heap := heap₂ } }, id, ?_, rfl, rfl, hbindings,
    honward₂.cells.calls hid, rfl, rfl, honward₁.trans honward₂⟩
  have hstate : (Act.state : Act State State).exec c s = (.ok s, s) := rfl
  have hnote : (note (.scriptStarted origin)).exec c s = (.ok (), s₁) := rfl
  have hread : (Act.ofExcept (Program.ofText true text) : Act State Program).exec c s₁ = (.ok p, s₁) := by
    rw [hp]
    rfl
  have hmodules : ∀ a : Act Module.State Code, (onModules a).exec c s₁
      = ((a.exec c s₁.modules).1, { s₁ with modules := (a.exec c s₁.modules).2 }) := fun _ => rfl
  unfold scriptCode
  rw [Act.exec_bind_of_ok hstate, Act.exec_bind_of_ok hnote, Act.exec_bind_of_ok hread, hmodules,
    Act.exec_bind_of_ok hdata, Act.exec_bind_of_ok hown]
  rfl

/-- A script, by its text. -/
theorem applies_runScript (hs : s.OffersTransact) (hg : s.modules.session.Holds c g)
    {text : String} (htext : AppliesOnly true text batch) (hbatch : batch.Writable) {ops : List TxOp}
    (hops : opsShape batch = .ok ops) (origin requirePath : String) :
    Applies batch c.provenance g c s (runScript text origin requirePath) := by
  obtain ⟨p, hp, hprogram⟩ := htext
  obtain ⟨code, s₁, id, hcode, rfl, hrealm, hbindings, hid, hdsl, hscopes, honward⟩ :=
    exec_scriptCode_offering hs hp hprogram.assigned origin requirePath c
  have hholds : s₁.modules.session.Holds c g := by
    unfold Session.Holds
    rw [hscopes]
    exact hg
  let require : Module.Require :=
    Module.requireWithin s₁.disk (scriptGlobals s₁.dsl) (s₁.modules.depth s₁.disk)
  obtain ⟨session, heap, hexec, hfollows, hcells, hknown⟩ :=
    exec_evaluate_transact require code hprogram hrealm hbindings hid hbatch hops hholds
  let s₂ : State := { s₁ with modules := { s₁.modules with session, heap } }
  have hrun : (takeModules (evaluateTurns require code)).exec c s₁
      = ((g.after batch c.provenance).map fun _ => (), s₂) := by
    rw [evaluateTurns_of_sync require hprogram.1, exec_takeModules_ofAct, hexec]
  refine ⟨s₂, ?_, hfollows.of_scopes (congrArg Scopes.table hscopes), ?_,
    (honward.trans (hcells.onward hknown)).offers hs.kept⟩
  · have hrequire : requireNow.exec c s₁ = (.ok require, s₁) := rfl
    have hsync : ¬ code.program.isAsync = true := Bool.eq_false_iff.mp hprogram.1
    have hsequential := sequential_takeModules (sequential_evaluateTurns require code)
    unfold runScript
    rw [exec_once_bind hcode, exec_once_bind hrequire]
    dsimp only
    rw [if_neg hsync, Strand.exec_bind hsequential, hrun]
    cases g.after batch c.provenance with
    | error f => rfl
    | ok made => exact Strand.exec_pause 1 c s₂
  · have hfree : "transact" ∉ Fields.names s₁.dsl := by
      rw [hdsl]
      exact hs.free
    exact hfree

/-- A script file, whose text is read first. -/
theorem applies_runFile (hs : s.OffersTransact) (hg : s.modules.session.Holds c g)
    {path text : String} (hread : s.disk.read (Path.resolve e.baseDir path) = .ok text)
    (htext : AppliesOnly true text batch) (hbatch : batch.Writable) {ops : List TxOp}
    (hops : opsShape batch = .ok ops) : Applies batch c.provenance g c s (runFile e path) := by
  let file : String := Path.resolve e.baseDir path
  obtain ⟨s', hexec, hfollows, hs'⟩ := applies_runScript hs hg htext hbatch hops file file
  refine ⟨s', ?_, hfollows, hs'⟩
  have hstate : (Act.state : Act State State).exec c s = (.ok s, s) := rfl
  have hsequential : (runScript text file file).Sequential := (refining_runScript text file file).sequential
  unfold runFile
  dsimp only
  rw [Strand.exec_bind (Strand.sequential_wait 1), Strand.exec_wait]
  dsimp only
  rw [exec_once_bind hstate, hread, Strand.exec_bind (Strand.sequential_ofExcept _), Strand.exec_ofExcept]
  dsimp only
  rw [Strand.exec_after hsequential]
  exact hexec

/-- A config module, which is loaded. -/
theorem applies_runModule (hs : s.OffersTransact) (hg : s.modules.session.Holds c g)
    {id : String} {all : List Module.Listed} {m : Module.Listed} {text : String}
    (hlist : e.source.list s.disk = .ok all) (hfind : all.find? (fun m => m.id == id) = some m)
    (hm : m.isConfig = true) (hread : m.text s.disk = .ok text) (htext : AppliesOnly false text batch)
    (hbatch : batch.Writable) {ops : List TxOp} (hops : opsShape batch = .ok ops) :
    Applies batch c.provenance g c s (runModule e id) := by
  obtain ⟨p, hp, hprogram⟩ := htext
  obtain ⟨loaded, modules, hload, hresult, hfollows, honward⟩ :=
    Module.exec_load_transact (offering_scriptGlobals hs.free) hfind hm hread hp hprogram hbatch hops
      hs.kept hg
  refine ⟨{ s with modules }, ?_, hfollows, hs.free, honward.offers hs.kept⟩
  rw [exec_runModule, exec_loadModule e id c s hlist hload, hresult]

/-- **What a route comes to in a scope**, one case for each of the four: the batch is recorded as made by
nobody, or by whoever is running. -/
theorem applies_dispatch (nest : Nest) {init : Initializer} (hinit : Route e s.disk batch init)
    (hs : s.OffersTransact) (hg : s.modules.session.Holds c g) (hbatch : batch.Writable)
    {ops : List TxOp} (hops : opsShape batch = .ok ops) : ∃ provenance,
      (c.annotation = none → provenance = .null) ∧
        Applies batch provenance g c s (dispatch e nest init) := by
  have hrunning : c.annotation = none → c.provenance = .null := by
    intro hc
    rw [Context.provenance, hc]
    rfl
  cases hinit with
  | ops => exact ⟨.null, fun _ => rfl, applies_ops nest hs hg⟩
  | @script text applies =>
    obtain ⟨p, hp, -, spot, hbody⟩ := id applies
    have hblank : ¬ Text.trim text = "" := by
      intro hblank
      rw [Program.body_of_blank hblank hp] at hbody
      exact nomatch hbody
    let place : String := Path.child e.baseDir "inline.js"
    obtain ⟨s', hexec, hfollows, hs'⟩ := applies_runScript hs hg applies hbatch hops "inline" place
    refine ⟨c.provenance, hrunning, s', ?_, hfollows, hs'⟩
    rw [dispatch, if_neg hblank, Strand.exec_after (refining_runScript text "inline" place).sequential]
    exact hexec
  | file read applies =>
    exact ⟨c.provenance, hrunning, applies_runFile hs hg read applies hbatch hops⟩
  | module listed found isConfig read applies =>
    exact ⟨c.provenance, hrunning, applies_runModule hs hg listed found isConfig read applies hbatch hops⟩

/-! ## 3. What the routes come to -/

/-- A batch that is read is refused by the store only. -/
theorem rejected_of_after {provenance : Value} {ops : List TxOp} (hops : opsShape batch = .ok ops)
    {f : Fault} (hf : g.after batch provenance = .error f) : ∃ j, f = .rejected j := by
  have hread : ∃ ops, Batch.ofValue batch = .ok ops := by
    obtain ⟨items, rfl, -⟩ := Shape.exists_items_of_list hops
    simp only [Batch.ofValue, hops]
    split
    · exact ⟨_, rfl⟩
    · exact ⟨_, rfl⟩
  obtain ⟨ops, hread⟩ := hread
  unfold Graph.after Graph.applyOps at hf
  rw [hread] at hf
  cases ops with
  | nil => cases hf
  | cons op rest =>
    dsimp only at hf
    split at hf
    · next j _ => exact ⟨j, (Except.error.inj hf).symm⟩
    · cases hf

/-- A batch that is read can be told by its length. -/
theorem checkDescribable_of_route {init : Initializer} (hinit : Route e s.disk batch init)
    {ops : List TxOp} (hops : opsShape batch = .ok ops) : init.checkDescribable = .ok () := by
  cases hinit with
  | ops =>
    obtain ⟨items, rfl, -⟩ := Shape.exists_items_of_list hops
    rfl
  | _ => rfl

theorem sequential_of_route (nest : Nest) {init : Initializer} (hinit : Route e s.disk batch init) :
    (dispatch e nest init).Sequential := by
  refine (refining_dispatch e nest ?_).sequential
  cases hinit <;> rfl

/-- Who has made a change shows in the log only. -/
theorem after_of_provenance (g : Graph) (batch provenance provenance' : Value) :
    (∃ f, g.after batch provenance = .error f ∧ g.after batch provenance' = .error f) ∨
      ∃ made log, g.after batch provenance = .ok made ∧
        g.after batch provenance' = .ok { made with transactions := log } := by
  unfold Graph.after Graph.applyOps
  cases Batch.ofValue batch with
  | error f => exact .inl ⟨f, rfl, rfl⟩
  | ok ops =>
    cases ops with
    | nil => exact .inr ⟨g, g.transactions, rfl, rfl⟩
    | cons op rest =>
      unfold Graph.transact
      dsimp only
      rw [if_neg (by simp), if_neg (by simp)]
      cases g.draft.run (op :: rest) with
      | error j => exact .inl ⟨_, rfl, rfl⟩
      | ok d => exact .inr ⟨_, _, rfl, rfl⟩

/-- **What a route comes to**: what the batch makes of the graph, up to who has made it. -/
theorem exec_applyInitializer_of_route (r : Revision) {init : Initializer}
    (hinit : Route e s.disk batch init) (hs : s.OffersTransact) (hbatch : batch.Writable)
    {ops : List TxOp} (hops : opsShape batch = .ok ops) : ∃ provenance,
      (c.annotation = none → provenance = .null) ∧
      (((applyInitializer e (.graph r) init).exec c s).1.map Content.graph?)
        = (r.graph.after batch provenance).map some ∧
      ((applyInitializer e (.graph r) init).exec c s).2.OffersTransact := by
  let inner : Context := c.within s.scopes.table.length
  let s₀ : State := s.startingWith r init
  have hg : s₀.modules.session.Holds inner r.graph := by
    refine ⟨s.scopes.table.length, r, rfl, ?_, rfl⟩
    show (s.scopes.table ++ [ContextScope.start (.graph r)])[s.scopes.table.length]? = _
    simp [ContextScope.start]
  have hs₀ : s₀.OffersTransact := ⟨hs.free, hs.kept⟩
  have hinit₀ : Route e s₀.disk batch init := hinit
  obtain ⟨provenance, hnobody, s', hexec, hfollows, hs'⟩ :=
    applies_dispatch (nestWithin e nestDepth) hinit₀ hs₀ hg hbatch hops
  obtain ⟨new, happlied⟩ := exec_applyInitializer e r (checkDescribable_of_route hinit hops)
    (sequential_of_route _ hinit) c s hexec
  rw [happlied]
  refine ⟨provenance, hnobody, ?_, hs'.free, hs'.kept⟩
  cases hafter : r.graph.after batch provenance with
  | error f =>
    obtain ⟨j, rfl⟩ := rejected_of_after hops hafter
    rfl
  | ok made =>
    rw [hafter] at hfollows
    obtain ⟨id, r', hid, hget, hgraph⟩ := hfollows
    obtain rfl : s.scopes.table.length = id := Option.some.inj hid
    have hread : s'.scopes.read s.scopes.table.length = .ok (.graph r') := by
      unfold Scopes.read
      rw [show s'.scopes.get? s.scopes.table.length = _ from hget]
      rfl
    show (reported (s'.scopes.read s.scopes.table.length)).map Content.graph? = _
    rw [hread]
    exact congrArg (fun g => Except.ok (some g)) hgraph

/-- **The routes to a graph agree.**  A batch that is read and that a script can write down is refused on
all of them for the same reason, at the same op and for the same entity; or all of them give the graph that
the batch makes in nobody's name, but for the log if they are taken inside a DSL function.  Each of them is
open to every such batch, and scripts go on to find the function that applies batches. -/
theorem routes_agree (e : Setup) (r : Revision) {batch : Value} (hbatch : batch.Writable)
    {ops : List TxOp} (hops : opsShape batch = .ok ops) {s : State} (hs : s.OffersTransact) (c : Context) :
    ((∃ j, r.graph.after batch .null = .error (.rejected j) ∧
        ∀ init, Route e s.disk batch init →
          ((applyInitializer e (.graph r) init).exec c s).1 = .error (.rejected j)) ∨
      (∃ next, r.graph.after batch .null = .ok next ∧
        ∀ init, Route e s.disk batch init → ∃ made log,
          ((applyInitializer e (.graph r) init).exec c s).1 = .ok made ∧
            made.graph? = some { next with transactions := log } ∧
            (c.annotation = none → log = next.transactions))) ∧
      HasRoutes e s.disk batch ∧
      ∀ init, Route e s.disk batch init →
        ((applyInitializer e (.graph r) init).exec c s).2.OffersTransact := by
  refine ⟨?_, hasRoutes_of_writable e s.disk hbatch, fun init hinit => ?_⟩
  · cases hnobody : r.graph.after batch .null with
    | error f =>
      obtain ⟨j, rfl⟩ := rejected_of_after hops hnobody
      refine .inl ⟨j, rfl, fun init hinit => ?_⟩
      obtain ⟨provenance, -, hresult, -⟩ := exec_applyInitializer_of_route r hinit hs hbatch hops (c := c)
      obtain ⟨f, hf, hf'⟩ | ⟨made, log, hmade, -⟩ := after_of_provenance r.graph batch .null provenance
      · obtain rfl := Except.error.inj (hnobody.symm.trans hf)
        rw [hf'] at hresult
        exact Shape.map_eq_error_iff.mp hresult
      · exact nomatch hnobody.symm.trans hmade
    | ok next =>
      refine .inr ⟨next, rfl, fun init hinit => ?_⟩
      obtain ⟨provenance, hnull, hresult, -⟩ :=
        exec_applyInitializer_of_route r hinit hs hbatch hops (c := c)
      obtain ⟨f, hf, -⟩ | ⟨made, log, hmade, hmade'⟩ :=
        after_of_provenance r.graph batch .null provenance
      · exact nomatch hnobody.symm.trans hf
      · obtain rfl := Except.ok.inj (hnobody.symm.trans hmade)
        rw [hmade'] at hresult
        obtain ⟨content, hcontent, hgraph⟩ := Shape.map_eq_ok_iff.mp hresult
        refine ⟨content, log, hcontent, hgraph, fun hc => ?_⟩
        rw [hnull hc] at hmade'
        exact congrArg Graph.transactions (Except.ok.inj (hmade'.symm.trans hnobody))
  · obtain ⟨-, -, -, hoffers⟩ := exec_applyInitializer_of_route r hinit hs hbatch hops (c := c)
    exact hoffers

end Routes

/-! ## 4. Creating an entity -/

/-- A batch of one op, which creates an entity; the names of its attributes mean something elsewhere. -/
def createBatch : Value :=
  .list [.record .host [("op", .str "create"), ("attrs", .record .host
    [(configId, .str "db"), ("$call", .str "entity"), ("$var", .bool true)])]]

/-- A config module and a script that apply it. -/
def createFiles : List (String × String) :=
  [("m", transactModuleText createBatch), ("s", transactText createBatch)]

/-- Modules are looked for where these files are. -/
def createSetup : Setup := ⟨"/", .directories ["/"]⟩

/-- An engine over these files. -/
@[irreducible]
def createStart : State :=
  ((construct [] []).exec .outside (State.start (Module.flatDisk createFiles) [])).2

theorem disk_createStart : createStart.disk = Module.flatDisk createFiles := by
  unfold createStart
  exact (registers_construct [] [] .outside _).disk

/-- The files are read back. -/
theorem read_createFiles :
    (Module.flatDisk createFiles).read (Path.resolve createSetup.baseDir "s.js")
        = .ok (transactText createBatch) ∧
      (Module.flatDisk createFiles).read (Module.rootPath "m")
        = .ok (transactModuleText createBatch) := by
  have hsteps : Disk.steps (Module.rootPath "m") = ["m.js"] ∧
      Disk.steps (Path.resolve createSetup.baseDir "s.js") = ["s.js"] := by decide +kernel
  constructor
  · rw [Disk.read, Disk.at?, hsteps.2]
    rfl
  · rw [Disk.read, Disk.at?, hsteps.1]
    rfl

/-- What the batch makes of the empty graph. -/
def createdGraph : Graph where
  basisTx := 1
  nextId := 2
  entities := [(1, [(configId, .str "db"), ("$call", .str "entity"), ("$var", .bool true)])]
  tempIds := []
  transactions := [⟨1, 1, .null⟩]

/-- An initializer makes this graph of the empty graph. -/
def Creates (init : Initializer) : Prop :=
  ∃ made, ((applyInitializer createSetup (.graph (.first 0 Graph.empty)) init).exec .outside
      createStart).1 = .ok made ∧ made.graph? = some createdGraph

theorem routes_agree_create : Creates (.ops createBatch) ∧ Creates (.script (transactText createBatch)) ∧
    Creates (.file "s.js") ∧ Creates (.module "m") := by
  have hstart : createStart.OffersTransact := by
    unfold createStart
    exact offersTransact_construct [] [] _ [] .outside
  have hbatch : createBatch.Writable := by
    refine .list (List.forall_mem_singleton.mpr ?_)
    refine .record _ rfl (by decide) ?_
    simp only [List.forall_mem_cons, List.not_mem_nil, IsEmpty.forall_iff, implies_true, and_true]
    refine ⟨.str _, .record _ rfl (by decide) ?_⟩
    simp only [List.forall_mem_cons, List.not_mem_nil, IsEmpty.forall_iff, implies_true, and_true]
    exact ⟨.str _, .str _, .bool _⟩
  have hops : opsShape createBatch = .ok [.create none
      [(configId, .str "db"), ("$call", .str "entity"), ("$var", .bool true)]] := rfl
  have happly : Graph.empty.after createBatch .null = .ok createdGraph := rfl
  obtain ⟨⟨j, hrefused, -⟩ | ⟨next, hnext, hagree⟩, hroutes, -⟩ :=
    routes_agree createSetup (.first 0 Graph.empty) hbatch hops hstart .outside
  · cases happly.symm.trans hrefused
  · obtain rfl := Except.ok.inj (happly.symm.trans hnext)
    have hcreates : ∀ init, Route createSetup createStart.disk createBatch init → Creates init := by
      intro init hroute
      obtain ⟨made, log, hmade, hgraph, hlog⟩ := hagree init hroute
      rw [hlog rfl] at hgraph
      exact ⟨made, hmade, hgraph⟩
    rw [disk_createStart] at hroutes hcreates
    have horder : Module.InOrder (createFiles.map (·.1)) := by
      have hnames : Module.InOrder ["m", "s"] := by decide +kernel
      exact hnames
    let found : Module.Listed :=
      ⟨"m", Module.rootPath "m", Module.isConfig (transactModuleText createBatch), none⟩
    have htext : found.text (Module.flatDisk createFiles) = .ok (transactModuleText createBatch) := by
      simp only [found, Module.Listed.text, Option.getD_none, read_createFiles.2]
    have hmodule : Route createSetup (Module.flatDisk createFiles) createBatch (.module "m") :=
      hroutes.module (m := found) (Module.list_flatDisk horder) rfl hroutes.isConfig htext
    exact ⟨hcreates _ hroutes.ops, hcreates _ hroutes.script, hcreates _ (hroutes.file read_createFiles.1),
      hcreates _ hmodule⟩

end ConfGraph.Engine
