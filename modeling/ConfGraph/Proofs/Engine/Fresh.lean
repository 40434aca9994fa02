import ConfGraph.Proofs.Engine.Applying
import ConfGraph.Proofs.Module.Fresh

/-!
# Config modules do not depend on history

What a config module makes of a graph does not depend on what an engine has loaded and unloaded before,
nor on what the files were then: an engine that is made afresh, with the same DSL functions and over the
same files, comes to the same, as long as it evaluates config modules only.

Libraries are kept across loads, and so is what they were when they were evaluated.  An engine that has
such a library may therefore come to something else than one made afresh.

* `Afresh`: an engine made afresh beside another one.
* `afresh_construct`: making an engine.
* `applyModule_agrees`: a config module as an initializer, on both.
* `library_kept_across_loads`: where an engine has a library from an earlier load.
-/

namespace ConfGraph.Engine

open Script
open ConfGraph.Module (pairDisk pairListing list_pairDisk configText)

/-! ## 1. Engines made afresh -/

/-- **An engine made afresh beside another one**, with the same DSL functions and over the same files:
it has loaded nothing yet.  Heap, scopes and plain files are those of the program in which both are. -/
structure Afresh (s t : State) : Prop where
  disk : s.disk = t.disk
  dsl : s.dsl = t.dsl
  modules : Module.Afresh s.modules t.modules

/-- An engine that is about to be made beside another one. -/
def State.unmade (s : State) : State :=
  { State.start s.disk s.libraries with
    modules := { s.modules with loaded := [], libraries := [] } }

/-- Two states between which functions are registered. -/
structure Registered (s s' : State) : Prop where
  disk : s'.disk = s.disk
  modules : ∃ events, s'.modules
    = { s.modules with session := { s.modules.session with events } }

/-- An act only registers functions. -/
def Registers {α : Type} (a : Act State α) : Prop := ∀ c s, Registered s (a.exec c s).2

theorem registered_refl (s : State) : Registered s s := ⟨rfl, s.modules.session.events, rfl⟩

theorem Registered.trans {s s' s'' : State} (h : Registered s s') (h' : Registered s' s'') :
    Registered s s'' := by
  obtain ⟨events, hmodules⟩ := h.modules
  obtain ⟨events', hmodules'⟩ := h'.modules
  exact ⟨h'.disk.trans h.disk, events', by rw [hmodules', hmodules]⟩

theorem Registers.bind {α β : Type} {a : Act State α} (ha : Registers a) {f : α → Act State β}
    (hf : ∀ x, Registers (f x)) : Registers (a >>= f) :=
  Act.keeps_bind (R := Registered) Registered.trans ha hf

theorem registers_of_state {α : Type} {a : Act State α} (ha : ∀ c s, (a.exec c s).2 = s) :
    Registers a := by
  intro c s
  rw [ha]
  exact registered_refl s

theorem registers_registerDsl (f : DslFunction) : Registers (registerDsl f) := by
  have hnote : ∀ e, Registers (note e) := fun e c s => ⟨rfl, _, rfl⟩
  have hput : Registers (Act.change fun s => { s with dsl := Fields.put s.dsl f.name f }) :=
    fun c s => ⟨rfl, s.modules.session.events, rfl⟩
  have hreplaced : Registers (noteReplaced f) := by
    refine Registers.bind (registers_of_state fun _ _ => rfl) fun s => ?_
    split
    · split
      · exact registers_of_state fun _ _ => rfl
      · exact hnote _
    · exact registers_of_state fun _ _ => rfl
  unfold registerDsl
  split
  · exact registers_of_state fun _ _ => rfl
  · exact hreplaced.bind fun _ => hput

theorem registers_registerAllDsl : ∀ fs : List DslFunction, Registers (registerAllDsl fs)
  | [] => registers_of_state fun _ _ => rfl
  | f :: rest => (registers_registerDsl f).bind fun _ => registers_registerAllDsl rest

theorem registers_registerAllFunctions : ∀ fs : List (String × Procedure),
    Registers (registerAllFunctions fs)
  | [] => registers_of_state fun _ _ => rfl
  | (name, p) :: rest => by
    have hput : Registers (Act.change fun s => { s with functions := Fields.put s.functions name p }) :=
      fun c s => ⟨rfl, s.modules.session.events, rfl⟩
    exact (Registers.bind (registers_of_state fun _ _ => rfl) fun _ => hput).bind fun _ =>
      registers_registerAllFunctions rest

theorem registers_construct (dsl : List DslFunction) (functions : List (String × Procedure)) :
    Registers (construct dsl functions) :=
  (registers_registerAllDsl _).bind fun _ => (registers_registerAllDsl _).bind fun _ =>
    registers_registerAllFunctions _

/-- **Making an engine** with the DSL functions of another one makes it afresh. -/
theorem afresh_construct {s t : State} {dsl : List DslFunction}
    {functions : List (String × Procedure)} {c : Context}
    (ht : t = ((construct dsl functions).exec c s.unmade).2) (hdsl : s.dsl = t.dsl) : Afresh s t := by
  have hmade := registers_construct dsl functions c s.unmade
  rw [← ht] at hmade
  obtain ⟨events, hmodules⟩ := hmade.modules
  refine ⟨hmade.disk.symm, hdsl, ?_⟩
  rw [hmodules]
  exact ⟨rfl, rfl, rfl, rfl, rfl, rfl, rfl⟩

/-! ## 2. Config modules -/

/-- A module is a config module in the files as they are now. -/
def IsConfigModule (e : Setup) (d : Disk) (id : String) : Prop :=
  ∃ all m, e.source.list d = .ok all ∧ all.find? (fun m => m.id == id) = some m ∧ m.isConfig = true

/-- **Only config modules are evaluated** between two states. -/
def OnlyConfig (s s' : State) : Prop := Module.OnlyConfig (Module.since s.modules s'.modules)

/-- **Config modules do not depend on history.**  Whatever an engine has loaded and unloaded before, and
whatever the files were then, a config module as an initializer comes to the same on it as on an engine
made afresh: to the same graph or the same failure, and to the same loaded modules.  This is so if the
engine made afresh evaluates config modules only. -/
theorem applyModule_agrees (e : Setup) (r : Revision) {id : String} (c : Context) {s t : State}
    (hst : Afresh s t) (hid : IsConfigModule e t.disk id)
    (honly : OnlyConfig t ((applyInitializer e (.graph r) (.module id)).exec c t).2) :
    ((applyInitializer e (.graph r) (.module id)).exec c s).1
        = ((applyInitializer e (.graph r) (.module id)).exec c t).1 ∧
      ((applyInitializer e (.graph r) (.module id)).exec c s).2.modules.loaded.ids
        = ((applyInitializer e (.graph r) (.module id)).exec c t).2.modules.loaded.ids := by
  obtain ⟨all, m, hlist, hfind, hm⟩ := hid
  have hscopes : s.scopes = t.scopes := hst.modules.scopes
  have hstarting : Module.Afresh (s.starting r id).modules (t.starting r id).modules :=
    { hst.modules with scopes := congrArg (fun s => (s.opening (.graph r)).2) hscopes }
  let within : Context := c.within t.scopes.table.length
  let load : Act Module.State Datum := Module.load t.disk (scriptGlobals t.dsl) (.ok all) id
  rcases hs : load.exec within (s.starting r id).modules with ⟨loaded, modules⟩
  rcases ht : load.exec within (t.starting r id).modules with ⟨loaded', modules'⟩
  have hsload : (Module.load s.disk (scriptGlobals s.dsl) (.ok all) id).exec
      (c.within s.scopes.table.length) (s.starting r id).modules = (loaded, modules) := by
    rw [← hs, hscopes, hst.disk, hst.dsl]
  obtain ⟨s', hsexec, hsloaded, -⟩ := exec_applyModule e r id c s (by rw [hst.disk, hlist]) hsload
  obtain ⟨t', htexec, htloaded, htjournal⟩ := exec_applyModule e r id c t hlist ht
  have honly' : Module.OnlyConfig (Module.since (t.starting r id).modules
      (load.exec within (t.starting r id).modules).2) := by
    rw [htexec] at honly
    rw [ht]
    unfold OnlyConfig Module.since at honly
    rw [htjournal] at honly
    exact honly
  obtain ⟨houtcome, halike⟩ :=
    Module.load_agrees t.disk (scriptGlobals t.dsl) hfind hm within hstarting honly'
  rw [show (Module.load t.disk _ _ id).exec within _ = _ from hs,
    show (Module.load t.disk _ _ id).exec within _ = _ from ht] at houtcome halike
  obtain rfl : loaded = loaded' := houtcome
  rw [hsexec, htexec, hsloaded, htloaded, hscopes, halike.scopes, halike.loaded]
  exact ⟨rfl, rfl⟩

/-! ## 3. Libraries that are kept -/

/-- The text of a module that fails. -/
def failingText : String := "@\x7b\"throw\":\"changed\"\x7d\n"

/-- Modules are looked for everywhere. -/
def pairSetup : Setup := ⟨"/", .directories ["/"]⟩

/-- An engine over the two modules, of which `l` does nothing. -/
@[irreducible]
def pairStart : State := ((construct [] []).exec .outside (State.start (pairDisk "") [])).2

/-- **An engine with a history**: it has loaded `m`, and then the text of `l` has changed. -/
def pairLater (text : String) : State :=
  { ((loadModule pairSetup "m").exec .outside pairStart).2 with disk := pairDisk text }

/-- An engine made afresh beside it. -/
def pairRemade (text : String) : State := ((construct [] []).exec .outside (pairLater text).unmade).2

theorem disk_pairStart : pairStart.disk = pairDisk "" := by
  unfold pairStart
  exact (registers_construct [] [] .outside _).disk

/-- The DSL functions of an engine to which its host adds none. -/
theorem dsl_construct_nil {s : State} (hs : s.dsl = []) (c : Context) :
    ((construct [] []).exec c s).2.dsl
      = [("entity", Dsl.entity), ("ref", Dsl.ref), ("setAttr", Dsl.setAttr)] := by
  cases s
  obtain rfl := hs
  rfl

theorem dsl_pairStart : pairStart.dsl
    = [("entity", Dsl.entity), ("ref", Dsl.ref), ("setAttr", Dsl.setAttr)] := by
  unfold pairStart
  exact dsl_construct_nil rfl _

/-- The first load. -/
@[irreducible]
def pairLoaded : Except Fault Datum × Module.State :=
  (Module.load (pairDisk "") (scriptGlobals pairStart.dsl) (.ok (pairListing "")) "m").exec .outside
    pairStart.modules

theorem pairLater_eq (text : String) :
    pairLater text = { pairStart with modules := pairLoaded.2, disk := pairDisk text } := by
  unfold pairLater
  have hlisting : pairSetup.source.list pairStart.disk = .ok (pairListing "") := by
    rw [disk_pairStart]
    exact list_pairDisk ""
  have hload : (Module.load pairStart.disk (scriptGlobals pairStart.dsl) (.ok (pairListing "")) "m").exec
      .outside pairStart.modules = pairLoaded := by
    unfold pairLoaded
    rw [disk_pairStart]
  have hexec : (loadModule pairSetup "m").exec .outside pairStart
      = (pairLoaded.1, { pairStart with modules := pairLoaded.2 }) :=
    exec_loadModule pairSetup "m" .outside pairStart hlisting hload
  rw [hexec]

theorem afresh_pair (text : String) : Afresh (pairLater text) (pairRemade text) := by
  have hunmade : (pairLater text).unmade.dsl = [] := rfl
  refine afresh_construct rfl ?_
  rw [pairLater_eq, pairRemade, dsl_construct_nil hunmade]
  exact dsl_pairStart

/-- Applies `m` to the empty graph. -/
def applyPair (s : State) : Except Fault Content × State :=
  (applyInitializer pairSetup (.graph (.first 0 Graph.empty)) (.module "m")).exec .outside s

/-- What the load of `m` comes to when it is applied. -/
@[irreducible]
def pairLoad (text : String) (s : State) : Except Fault Datum × Module.State :=
  (Module.load (pairDisk text) (scriptGlobals s.dsl) (.ok (pairListing text)) "m").exec
    (Context.outside.within s.scopes.table.length) (s.starting (.first 0 Graph.empty) "m").modules

/-- The outcome of applying `m`, told by what its load comes to. -/
def pairOutcome (text : String) (s : State) : Except Fault Content :=
  reported ((pairLoad text s).1.bind fun _ =>
    (pairLoad text s).2.session.scopes.read s.scopes.table.length)

theorem exec_applyPair (text : String) {s : State} (hs : s.disk = pairDisk text) :
    ∃ s', applyPair s = (pairOutcome text s, s') ∧
      s'.modules.loaded = (pairLoad text s).2.loaded ∧
      s'.modules.journal = (pairLoad text s).2.journal := by
  have hlisting : pairSetup.source.list s.disk = .ok (pairListing text) := by
    rw [hs]
    exact list_pairDisk text
  have hload : (Module.load s.disk (scriptGlobals s.dsl) (.ok (pairListing text)) "m").exec
      (Context.outside.within s.scopes.table.length) (s.starting (.first 0 Graph.empty) "m").modules
      = pairLoad text s := by
    unfold pairLoad
    rw [hs]
  exact exec_applyModule pairSetup (.first 0 Graph.empty) "m" .outside s hlisting hload

/-- Whether only config modules are evaluated when `m` is applied. -/
def pairOnlyConfig (text : String) (s : State) : Bool :=
  (Module.begun ((pairLoad text s).2.journal.drop s.modules.journal.length)).all (·.isConfig)

theorem onlyConfig_applyPair {text : String} {s : State} (hs : s.disk = pairDisk text)
    (honly : pairOnlyConfig text s = true) : OnlyConfig s (applyPair s).2 := by
  obtain ⟨s', hexec, -, hjournal⟩ := exec_applyPair text hs
  unfold OnlyConfig Module.since
  rw [hexec, hjournal]
  exact List.all_eq_true.mp honly

/-- The engine with a history uses the library that it has kept, and the other one does not have it. -/
theorem pair_failingText :
    pairOnlyConfig failingText (pairLater failingText) = true ∧
      (pairOutcome failingText (pairLater failingText)).isOk = true ∧
      (pairOutcome failingText (pairRemade failingText)).isOk = false := by
  rw [pairRemade, pairLater_eq]
  decide +kernel

/-- **An engine that has kept a library may come to something else.**  Having loaded `m` with the library
`l`, it applies `m` without evaluating anything but config modules, though `l` has come to fail; an
engine made afresh evaluates `l`, and fails. -/
theorem library_kept_across_loads :
    Afresh (pairLater failingText) (pairRemade failingText) ∧
      IsConfigModule pairSetup (pairLater failingText).disk "m" ∧
      OnlyConfig (pairLater failingText) (applyPair (pairLater failingText)).2 ∧
      (applyPair (pairLater failingText)).1 ≠ (applyPair (pairRemade failingText)).1 := by
  have hafresh := afresh_pair failingText
  have hlater : (pairLater failingText).disk = pairDisk failingText := rfl
  have hremade : (pairRemade failingText).disk = pairDisk failingText := hafresh.disk.symm.trans hlater
  obtain ⟨honly, hok, hfails⟩ := pair_failingText
  refine ⟨hafresh, ⟨_, _, list_pairDisk failingText, rfl, rfl⟩, onlyConfig_applyPair hlater honly, ?_⟩
  obtain ⟨s', hs, -⟩ := exec_applyPair failingText hlater
  obtain ⟨t', ht, -⟩ := exec_applyPair failingText hremade
  rw [hs, ht]
  intro hsame
  have hsame : pairOutcome failingText (pairLater failingText)
      = pairOutcome failingText (pairRemade failingText) := hsame
  rw [hsame, hfails] at hok
  exact nomatch hok

/-- What is loaded is the config module, and the library that has become one. -/
theorem pair_configText :
    pairOnlyConfig configText (pairRemade configText) = true ∧
      (pairLoad configText (pairRemade configText)).2.loaded.ids = ["m", "l"] := by
  rw [pairRemade, pairLater_eq]
  decide +kernel

/-- If the library has become a config module, the engine does not use what it has kept of it. -/
theorem applyModule_agrees_after_change :
    (applyPair (pairLater configText)).1 = (applyPair (pairRemade configText)).1 ∧
      (applyPair (pairLater configText)).2.modules.loaded.ids = ["m", "l"] := by
  have hafresh := afresh_pair configText
  have hlater : (pairLater configText).disk = pairDisk configText := rfl
  have hremade : (pairRemade configText).disk = pairDisk configText := hafresh.disk.symm.trans hlater
  have hid : IsConfigModule pairSetup (pairRemade configText).disk "m" := by
    rw [hremade]
    exact ⟨_, _, list_pairDisk configText, rfl, rfl⟩
  obtain ⟨honly, hids⟩ := pair_configText
  have honly : OnlyConfig (pairRemade configText) (applyPair (pairRemade configText)).2 :=
    onlyConfig_applyPair hremade honly
  obtain ⟨t', ht, hloaded, -⟩ := exec_applyPair configText hremade
  have hleft : (applyPair (pairRemade configText)).2.modules.loaded.ids = ["m", "l"] := by
    rw [ht, hloaded, hids]
  unfold applyPair at honly hleft ⊢
  obtain ⟨houtcome, hloaded⟩ :=
    applyModule_agrees pairSetup (.first 0 Graph.empty) .outside hafresh hid honly
  exact ⟨houtcome, hloaded.trans hleft⟩

end ConfGraph.Engine
