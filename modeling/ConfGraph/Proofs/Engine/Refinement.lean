import ConfGraph.Proofs.Engine.Applying
import ConfGraph.Proofs.Module.Growing
import ConfGraph.Proofs.Module.Loading
import ConfGraph.Proofs.Value.Fields

/-!
# Builds refine batches

A build runs initializers one after the other, each in a scope of its own: batches, scripts, files and
config modules.  Whatever these do, and whatever they catch, the graph that a build ends with is what
some batches make of the graph with which it starts, if the DSL functions are orderly and nothing is
changed by hand.

* `Orderly`: the DSL functions that an engine knows are orderly.
* `Refining`: strands that leave nothing running and let graphs grow.
* `refining_dispatch`: what an initializer does in its scope.
* `yields_withScope`, `yields_applyWith`, `yields_buildWith`: the graph that comes out.
* `orderly_construct`: an engine whose host adds orderly DSL functions.
* `build_refines_batches`: whole builds.
-/

namespace ConfGraph.Engine

open Script

/-- **The DSL functions that an engine knows are orderly**: those that it shows to scripts, and those
that scripts have seen. -/
structure Orderly (s : State) : Prop where
  shown : ∀ f ∈ s.dsl, f.2.Orderly
  seen : s.modules.heap.Only DslFunction.Orderly

/-- The graphs of the session grow, and DSL functions stay orderly. -/
structure Grown (s s' : State) : Prop where
  orderly : Orderly s'
  growth : s.modules.session.Growth s'.modules.session

theorem Grown.trans {s s' s'' : State} (h : Grown s s') (h' : Grown s' s'') : Grown s s'' :=
  ⟨h'.orderly, h.growth.trans h'.growth⟩

theorem grown_refl {s : State} (hs : Orderly s) : Grown s s := ⟨hs, Session.growth_refl _⟩

/-! ## 1. Acts and strands -/

/-- An act of an engine lets graphs grow. -/
def KeepsGrown {α : Type} (a : Act State α) : Prop := ∀ c s, Orderly s → Grown s (a.exec c s).2

/-- **A strand that leaves nothing running** when it ends and lets graphs grow. -/
structure Refining {α : Type} (a : Strand State α) : Prop where
  sequential : a.Sequential
  grown : KeepsGrown a.exec

section Building

variable {α β : Type}

theorem keepsGrown_of_state {a : Act State α} (ha : ∀ c s, (a.exec c s).2 = s) : KeepsGrown a := by
  intro c s hs
  rw [ha]
  exact grown_refl hs

theorem keepsGrown_onSession {a : Act Session α} (ha : a.Growing) :
    KeepsGrown (onSession a : Act State α) :=
  fun c s hs => ⟨⟨hs.shown, hs.seen⟩, ha c s.modules.session⟩

theorem keepsGrown_onModules {a : Act Module.State α} (ha : Module.KeepsGrowth a) :
    KeepsGrown (onModules a) := by
  intro c s hs
  obtain ⟨honly, hgrown⟩ := ha c s.modules hs.seen
  exact ⟨⟨hs.shown, honly⟩, hgrown⟩

/-- The second of two acts need let graphs grow only for what the first can give where the DSL functions
are orderly. -/
theorem KeepsGrown.bind_of_ok {a : Act State α} (ha : KeepsGrown a) {f : α → Act State β}
    (hf : ∀ c s x s', Orderly s → a.exec c s = (.ok x, s') → KeepsGrown (f x)) :
    KeepsGrown (a >>= f) := by
  have hkeeps : ∀ {γ : Type} {a : Act State γ}, KeepsGrown a → ∀ c s, Orderly s →
      Orderly (a.exec c s).2 ∧ Grown s (a.exec c s).2 :=
    fun ha c s hs => ⟨(ha c s hs).orderly, ha c s hs⟩
  exact fun c s hs => (Act.keeps_bind_of_ok (R := Grown) Grown.trans (hkeeps ha)
    (fun c s x s' hs hend => hkeeps (hf c s x s' hs hend)) c s hs).2

theorem KeepsGrown.bind {a : Act State α} (ha : KeepsGrown a) {f : α → Act State β}
    (hf : ∀ x, KeepsGrown (f x)) : KeepsGrown (a >>= f) :=
  ha.bind_of_ok fun _ _ x _ _ _ => hf x

theorem refining_ofAct {a : Act State α} (ha : KeepsGrown a) : Refining (Strand.ofAct a) :=
  ⟨Strand.sequential_ofAct a, ha⟩

theorem refining_of_state {a : Strand State α} (hsequential : a.Sequential)
    (ha : ∀ c s, (a.exec c s).2 = s) : Refining a := ⟨hsequential, keepsGrown_of_state ha⟩

theorem refining_pause (turns : Nat) : Refining (Strand.pause turns : Strand State Unit) :=
  refining_of_state (Strand.sequential_pause turns) fun c s => by rw [Strand.exec_pause]

theorem refining_wait (time : Nat) : Refining (Strand.wait time : Strand State Unit) :=
  refining_of_state (Strand.sequential_wait time) fun _ _ => rfl

theorem refining_ofExcept (r : Except Fault α) : Refining (Strand.ofExcept r : Strand State α) :=
  refining_of_state (Strand.sequential_ofExcept r) fun _ _ => rfl

theorem refining_pure (x : α) : Refining (pure x : Strand State α) :=
  refining_of_state (Strand.sequential_pure x) fun _ _ => rfl

/-- One strand after another, which need refine only for what the first can give where the DSL functions
are orderly. -/
theorem Refining.bind_of_ok {a : Strand State α} (ha : Refining a) {f : α → Strand State β}
    (hsequential : ∀ x, (f x).Sequential)
    (hf : ∀ c s x s', Orderly s → a.exec c s = (.ok x, s') → KeepsGrown (f x).exec) :
    Refining (a >>= f) := by
  refine ⟨ha.sequential.bind hsequential, fun c s hs => ?_⟩
  have hfirst := ha.grown c s hs
  have hexec : Act.exec (a >>= f).exec c s = (a >>= f).exec c s := rfl
  rw [hexec, Strand.exec_bind ha.sequential]
  have hrun : Act.exec a.exec c s = a.exec c s := rfl
  rw [hrun] at hfirst
  rcases hend : a.exec c s with ⟨r, s'⟩
  rw [hend] at hfirst
  cases r with
  | error f => exact hfirst
  | ok x => exact hfirst.trans (hf c s x s' hs hend c s' hfirst.orderly)

theorem Refining.bind {a : Strand State α} (ha : Refining a) {f : α → Strand State β}
    (hf : ∀ x, Refining (f x)) : Refining (a >>= f) :=
  ha.bind_of_ok (fun x => (hf x).sequential) fun _ _ x _ _ _ => (hf x).grown

theorem Refining.of_exec {a b : Strand State α} (ha : Refining a) (hsequential : b.Sequential)
    (h : ∀ c s, b.exec c s = a.exec c s) : Refining b := by
  refine ⟨hsequential, fun c s hs => ?_⟩
  have hgrown := ha.grown c s hs
  have hexec : Act.exec b.exec c s = b.exec c s := rfl
  rw [hexec, h]
  exact hgrown

theorem Refining.after {a : Strand State α} (ha : Refining a) : Refining a.after :=
  ha.of_exec ha.sequential.after (Strand.exec_after ha.sequential)

theorem Refining.yielding {a : Strand State α} (ha : Refining a) : Refining a.yielding :=
  ha.of_exec ha.sequential.yielding (Strand.exec_yielding a)

theorem Refining.inside {a : Strand State α} (ha : Refining a) (f : Context → Context) :
    Refining (Strand.inside f a) :=
  ⟨ha.sequential.inside f, fun c s hs => ha.grown (f c) s hs⟩

theorem getModules_setModules (s : State) (m : Module.State) : ({ s with modules := m }).modules = m :=
  rfl

theorem setModules_setModules (s : State) (m m' : Module.State) :
    ({ { s with modules := m } with modules := m' } : State) = { s with modules := m' } := rfl

theorem sequential_takeModules {a : Strand Module.State α} (ha : a.Sequential) :
    (takeModules a).Sequential :=
  Strand.Sequential.zoom getModules_setModules setModules_setModules ha

/-- A strand on what modules work on, run to its end. -/
theorem exec_takeModules (a : Strand Module.State α) (c : Context) (s : State) :
    (takeModules a).exec c s = (onModules a.exec).exec c s :=
  Strand.exec_zoom getModules_setModules setModules_setModules a c s

theorem refining_takeModules {a : Strand Module.State α}
    (ha : a.Composed DslFunction.Orderly fun _ a => Module.KeepsGrowth a) :
    Refining (takeModules a) := by
  refine ⟨sequential_takeModules ha.sequential, fun c s hs => ?_⟩
  have hgrown := keepsGrown_onModules (Module.KeepsGrowth.of_composed ha.exec) c s hs
  have hexec : Act.exec (takeModules a).exec c s = (onModules a.exec).exec c s :=
    exec_takeModules a c s
  rw [hexec]
  exact hgrown

end Building

/-! ## 2. Scripts, files and modules -/

theorem mem_putAll {α : Type} {f : String × α} : ∀ (gs fs : Fields α), f ∈ Fields.putAll fs gs →
    f ∈ fs ∨ f ∈ gs
  | [], _, h => .inl h
  | g :: rest, fs, h => by
    have hfold : Fields.putAll fs (g :: rest) = Fields.putAll (Fields.put fs g.1 g.2) rest := rfl
    rw [hfold] at h
    rcases mem_putAll rest _ h with h | h
    · rcases Fields.mem_put h with rfl | h
      · exact .inr List.mem_cons_self
      · exact .inl h.1
    · exact .inr (List.mem_cons_of_mem _ h)

/-- What scripts see holds the DSL functions of the engine and no others. -/
theorem onlyGlobals_scriptGlobals {dsl : Fields DslFunction} (hdsl : ∀ f ∈ dsl, f.2.Orderly) :
    Module.OnlyGlobals DslFunction.Orderly (scriptGlobals dsl) := by
  intro g hg
  rcases mem_putAll _ _ hg with hg | hg
  · simp only [coreGlobals, List.mem_cons, List.not_mem_nil, or_false] at hg
    rcases hg with rfl | rfl | rfl | rfl | rfl | rfl | rfl | rfl <;> exact trivial
  · obtain ⟨f, hf, rfl⟩ := List.mem_map.mp hg
    exact hdsl f (List.mem_filter.mp hf).1

theorem keepsGrown_state : KeepsGrown (Act.state : Act State State) :=
  keepsGrown_of_state fun _ _ => rfl

theorem keepsGrown_note (e : Log.Event) : KeepsGrown (note e) :=
  keepsGrown_onSession (Session.growing_note e)

theorem keepsGrown_scriptCode (text origin requirePath : String) :
    KeepsGrown (scriptCode text origin requirePath) := by
  refine keepsGrown_state.bind_of_ok fun c s x s' hs hread => ?_
  obtain rfl := Except.ok.inj (Prod.mk.inj hread).1
  refine (keepsGrown_note _).bind fun _ => ?_
  refine (keepsGrown_of_state fun _ _ => rfl).bind fun program => ?_
  refine keepsGrown_onModules (Module.KeepsGrowth.of_composed ?_)
  refine .bind (Module.composed_makeGlobals (onlyGlobals_scriptGlobals hs.shown)) fun _ => ?_
  exact .bind (Module.composed_makeRequire _ _) fun _ => .pure _

/-- What `require` does at present lets graphs grow. -/
theorem keepsGrowth_requireNow {c : Context} {s s' : State} {require : Module.Require} (hs : Orderly s)
    (h : requireNow.exec c s = (.ok require, s')) (who : Requirer) (specifier : Datum) :
    Module.KeepsGrowth (require who specifier) := by
  obtain rfl : Module.requireWithin s.disk (scriptGlobals s.dsl) (s.modules.depth s.disk) = require :=
    Except.ok.inj (Prod.mk.inj h).1
  exact Module.keepsGrowth_requireWithin (onlyGlobals_scriptGlobals hs.shown) _ _ _ _

theorem sequential_evaluateTurns (require : Module.Require) (code : Code) :
    (evaluateTurns require code).Sequential :=
  (composed_evaluateTurns (P := Module.AnyFunction) (G := fun _ _ => True)
    (fun _ _ => .given trivial) code).sequential

theorem refining_runScript (text origin requirePath : String) :
    Refining (runScript text origin requirePath) := by
  refine (refining_ofAct (keepsGrown_scriptCode text origin requirePath)).bind fun code => ?_
  have hsequential : ∀ require, (do
      let run := takeModules (evaluateTurns require code)
      if code.program.isAsync then run.yielding.after.after
      else do
        run
        Strand.pause 1 : Strand State Unit).Sequential := by
    intro require
    have hrun := sequential_takeModules (sequential_evaluateTurns require code)
    dsimp only
    split
    · exact hrun.yielding.after.after
    · exact hrun.bind fun _ => Strand.sequential_pause 1
  have hrequireNow : KeepsGrown requireNow :=
    keepsGrown_state.bind fun _ => keepsGrown_onModules
      (Module.tolerant_grown.keeps_of_state fun _ _ => rfl)
  refine (refining_ofAct hrequireNow).bind_of_ok hsequential fun c s require s' hs hend => ?_
  have hread : requireNow.exec c s = (.ok require, s') := hend
  have hrun : Refining (takeModules (evaluateTurns require code)) :=
    refining_takeModules (composed_evaluateTurns
      (fun who spec => .given (keepsGrowth_requireNow hs hread who spec)) code)
  dsimp only
  split
  · exact hrun.yielding.after.after.grown
  · exact (hrun.bind fun _ => refining_pause 1).grown

theorem refining_runFile (e : Setup) (path : String) : Refining (runFile e path) := by
  refine (refining_wait 1).bind fun _ => (refining_ofAct keepsGrown_state).bind fun s => ?_
  exact (refining_ofExcept _).bind fun text => (refining_runScript text _ _).after

theorem keepsGrown_loadModule (e : Setup) (id : String) : KeepsGrown (loadModule e id) := by
  refine keepsGrown_state.bind_of_ok fun c s x s' hs hread => ?_
  obtain rfl := Except.ok.inj (Prod.mk.inj hread).1
  exact keepsGrown_onModules
    (Module.keepsGrowth_load (onlyGlobals_scriptGlobals hs.shown) s.disk _ id)

theorem refining_findModules (e : Setup) : Refining (findModules e) := by
  unfold findModules
  split
  · exact refining_wait 1
  · exact refining_pause 1

theorem refining_runModule (e : Setup) (id : String) : Refining (runModule e id) := by
  have hload : Refining (do
      findModules e
      once (loadModule e id) : Strand State Datum) :=
    (refining_findModules e).bind fun _ => refining_ofAct (keepsGrown_loadModule e id)
  exact hload.after.bind fun _ => refining_pure ()

/-- Whether an initializer is a function of the host. -/
def isFunction : Initializer → Bool
  | .function _ => true
  | _ => false

/-- **What an initializer does in its scope** lets graphs grow, unless it is a function of the host. -/
theorem refining_dispatch (e : Setup) (nest : Nest) {init : Initializer}
    (hinit : isFunction init = false) : Refining (dispatch e nest init) := by
  cases init with
  | function ref => exact nomatch hinit
  | module id => exact refining_runModule e id
  | file path => exact refining_runFile e path
  | ops batch =>
    exact (refining_ofAct (keepsGrown_onSession (Session.growing_updateByOps batch none))).bind
      fun _ => refining_pure ()
  | script text =>
    rw [dispatch]
    split
    · exact refining_pure ()
    · exact (refining_runScript text _ _).after
  | none => exact refining_pure ()
  | unknown form => exact refining_ofExcept (.error _)

/-! ## 3. The graph that comes out -/

/-- The graph of a content grows into that of another one, if it has one. -/
def Extends (c d : Content) : Prop :=
  ∀ g, c.graph? = some g → ∃ g', d.graph? = some g' ∧ g.Grows g'

theorem extends_refl (c : Content) : Extends c c := fun g hg => ⟨g, hg, g.grows_refl⟩

theorem Extends.trans {c d d' : Content} (h : Extends c d) (h' : Extends d d') : Extends c d' := by
  intro g hg
  obtain ⟨g', hg', hgrows⟩ := h g hg
  obtain ⟨g'', hg'', hgrows'⟩ := h' g' hg'
  exact ⟨g'', hg'', hgrows.trans hgrows'⟩

/-- **What a strand gives is as it should be**, unless something is changed by hand. -/
structure Yields {α : Type} (Q : α → Prop) (a : Strand State α) : Prop where
  sequential : a.Sequential
  yields : ∀ c s, Orderly s → ∃ new,
    Orderly (a.exec c s).2 ∧ (a.exec c s).2.events = s.events ++ new ∧
      (HandsOff new → ∀ x, (a.exec c s).1 = .ok x → Q x)

section Yielding

variable {α β : Type} {Q : α → Prop} {R : β → Prop}

theorem yields_of_refining {a : Strand State α} (ha : Refining a)
    (hQ : ∀ c s x s', a.exec c s = (.ok x, s') → Q x) : Yields Q a := by
  refine ⟨ha.sequential, fun c s hs => ?_⟩
  obtain ⟨horderly, new, hnew, -⟩ := ha.grown c s hs
  exact ⟨new, horderly, hnew, fun _ x hx => hQ c s x _ (Prod.ext hx rfl)⟩

theorem Yields.mono {a : Strand State α} {Q' : α → Prop} (ha : Yields Q a) (h : ∀ x, Q x → Q' x) :
    Yields Q' a := by
  refine ⟨ha.sequential, fun c s hs => ?_⟩
  obtain ⟨new, horderly, hnew, hresult⟩ := ha.yields c s hs
  exact ⟨new, horderly, hnew, fun hhands x hx => h x (hresult hhands x hx)⟩

theorem Yields.of_exec {a b : Strand State α} (ha : Yields Q a) (hsequential : b.Sequential)
    (h : ∀ c s, b.exec c s = a.exec c s) : Yields Q b := by
  refine ⟨hsequential, fun c s hs => ?_⟩
  rw [h]
  exact ha.yields c s hs

theorem Yields.after {a : Strand State α} (ha : Yields Q a) : Yields Q a.after :=
  ha.of_exec ha.sequential.after (Strand.exec_after ha.sequential)

theorem Yields.outcome {a : Strand State α} (ha : Yields Q a) :
    Yields (fun r : Except Fault α => ∀ x, r = .ok x → Q x) a.outcome := by
  refine ⟨ha.sequential.outcome, fun c s hs => ?_⟩
  obtain ⟨new, horderly, hnew, hresult⟩ := ha.yields c s hs
  rw [Strand.exec_outcome ha.sequential]
  refine ⟨new, horderly, hnew, fun hhands r hr x hx => hresult hhands x ?_⟩
  obtain rfl := Except.ok.inj hr
  exact hx

/-- What the second of two strands gives need be right only if what the first gives is. -/
theorem Yields.bind {a : Strand State α} (ha : Yields Q a) {f : α → Strand State β}
    (hf : ∀ x, Yields (fun y => Q x → R y) (f x)) : Yields R (a >>= f) := by
  refine ⟨ha.sequential.bind fun x => (hf x).sequential, fun c s hs => ?_⟩
  obtain ⟨new, horderly, hnew, hresult⟩ := ha.yields c s hs
  rw [Strand.exec_bind ha.sequential]
  rcases hrun : a.exec c s with ⟨r, s'⟩
  rw [hrun] at horderly hnew hresult
  cases r with
  | error f => exact ⟨new, horderly, hnew, fun _ _ hx => nomatch hx⟩
  | ok x =>
    obtain ⟨new', horderly', hnew', hresult'⟩ := (hf x).yields c s' horderly
    refine ⟨new ++ new', horderly', ?_, fun hhands y hy => ?_⟩
    · dsimp only at hnew ⊢
      rw [hnew', hnew, List.append_assoc]
    · obtain ⟨hhands, hhands'⟩ := handsOff_append.mp hhands
      exact hresult' hhands' y hy (hresult hhands x rfl)

theorem Refining.yields_bind {a : Strand State α} (ha : Refining a) {f : α → Strand State β}
    (hf : ∀ x, Yields R (f x)) : Yields R (a >>= f) :=
  (yields_of_refining (Q := fun _ => True) ha fun _ _ _ _ _ => trivial).bind fun x =>
    (hf x).mono fun _ hy _ => hy

end Yielding

/-- **What the scope of a strand holds in the end** has grown out of what it held at first. -/
theorem yields_withScope {α : Type} {body : Strand State α} (hbody : Refining body)
    (initial : Content) :
    Yields (fun made : α × Content => Extends initial made.2) (withScope initial body) := by
  refine ⟨Strand.sequential_withScope hbody.sequential, fun c s hs => ?_⟩
  let opened : State := s.going (s.scopes.opening initial).2 []
  have hopened : Orderly opened := ⟨hs.shown, hs.seen⟩
  rcases hrun : body.exec (c.within s.scopes.table.length) opened with ⟨r, s'⟩
  have hgrown := hbody.grown (c.within s.scopes.table.length) opened hopened
  have hexec : Act.exec body.exec (c.within s.scopes.table.length) opened = (r, s') := hrun
  rw [hexec] at hgrown
  obtain ⟨new, hnew, hgrow⟩ := hgrown.growth
  have hevents : s'.events = s.events ++ new := by
    rw [State.events, hnew]
    exact congrArg (· ++ new) (List.append_nil _)
  rw [exec_withScope hbody.sequential initial c s hrun]
  refine ⟨new, ⟨hgrown.orderly.shown, hgrown.orderly.seen⟩, ?_, fun hhands made hresult g hg => ?_⟩
  · rw [← hevents]
    exact List.append_nil _
  · obtain ⟨g', hg', hgrows⟩ :=
      hgrow hhands s.scopes.table.length g ((Scopes.graphAt?_opening _ _).trans hg)
    have hfinal : s'.scopes.read s.scopes.table.length = .ok made.2 := by
      cases r with
      | error f => cases hresult
      | ok a =>
        cases hread : s'.scopes.read s.scopes.table.length with
        | error f =>
          rw [hread] at hresult
          cases hresult
        | ok content =>
          rw [hread] at hresult
          rw [← Except.ok.inj hresult]
    exact ⟨g', (Scopes.graph?_of_read hfinal).symm.trans hg', hgrows⟩

theorem keepsGrown_noteEnd (init : Initializer) (r : Except Fault Content) :
    KeepsGrown (noteEnd init r) := by
  intro c s hs
  obtain ⟨new, hexec⟩ := exec_noteEnd init r c
  rw [hexec]
  exact ⟨⟨hs.shown, hs.seen⟩, new, rfl, fun _ => Scopes.grow_of_graphAt? fun _ _ hg => hg⟩

/-- **One initializer**: the graph it makes grows out of the one it is given. -/
theorem yields_applyWith (e : Setup) (nest : Nest) (c : Content) {init : Initializer}
    (hinit : isFunction init = false) : Yields (Extends c) (applyWith e nest c init) := by
  refine (refining_ofExcept _).yields_bind fun _ => (refining_ofExcept _).yields_bind fun basisTx => ?_
  refine (refining_ofAct (keepsGrown_note _)).yields_bind fun _ => ?_
  refine (yields_withScope (refining_dispatch e nest hinit) c).after.outcome.bind fun r => ?_
  refine yields_of_refining (refining_ofAct (keepsGrown_noteEnd init _)) fun c' s next s' hend hr => ?_
  obtain ⟨new, hexec⟩ := exec_noteEnd init (r.map (·.2)) c'
  have hnoted : (noteEnd init (r.map (·.2))).exec c' s = (.ok next, s') := hend
  rw [hexec] at hnoted
  have hmade := eq_of_reported (Prod.mk.inj hnoted).1
  cases r with
  | error f => exact nomatch hmade
  | ok made =>
    obtain rfl := Except.ok.inj hmade
    exact hr made rfl

/-- **A list of initializers**: by induction, each grows what the ones before it have made. -/
theorem yields_buildWith (e : Setup) (nest : Nest) : ∀ (inits : List Initializer) (c : Content),
    (∀ init ∈ inits, isFunction init = false) → Yields (Extends c) (buildWith e nest c inits)
  | [], c, _ =>
    yields_of_refining (refining_pure c) fun _ _ next _ hend => by
      obtain rfl : c = next := Except.ok.inj (Prod.mk.inj hend).1
      exact extends_refl c
  | init :: rest, c, hinits => by
    refine (yields_applyWith e nest c (hinits init List.mem_cons_self)).after.bind fun next => ?_
    have hrest := yields_buildWith e nest rest next fun init hmem =>
      hinits init (List.mem_cons_of_mem _ hmem)
    exact hrest.mono fun made hmade hnext => hnext.trans hmade

/-! ## 4. Engines -/

theorem orderly_start (disk : Disk) (libraries : Fields (Fields Export)) :
    Orderly (State.start disk libraries) := ⟨fun _ hf => (nomatch hf), Heap.only_start⟩

theorem keepsGrown_registerDsl {f : DslFunction} (hf : f.Orderly) : KeepsGrown (registerDsl f) := by
  have hput : KeepsGrown (Act.change fun s => { s with dsl := Fields.put s.dsl f.name f }) := by
    refine fun c s hs => ⟨⟨fun g hg => ?_, hs.seen⟩, Session.growth_refl _⟩
    rcases Fields.mem_put hg with rfl | ⟨hg, -⟩
    · exact hf
    · exact hs.shown g hg
  have hreplaced : KeepsGrown (noteReplaced f) := by
    refine keepsGrown_state.bind fun s => ?_
    split
    · split
      · exact keepsGrown_of_state fun _ _ => rfl
      · exact keepsGrown_note _
    · exact keepsGrown_of_state fun _ _ => rfl
  unfold registerDsl
  split
  · exact keepsGrown_of_state fun _ _ => rfl
  · exact hreplaced.bind fun _ => hput

theorem keepsGrown_registerAllDsl : ∀ (fs : List DslFunction), (∀ f ∈ fs, f.Orderly) →
    KeepsGrown (registerAllDsl fs)
  | [], _ => keepsGrown_of_state fun _ _ => rfl
  | f :: rest, hfs =>
    (keepsGrown_registerDsl (hfs f List.mem_cons_self)).bind fun _ =>
      keepsGrown_registerAllDsl rest fun g hg => hfs g (List.mem_cons_of_mem _ hg)

theorem keepsGrown_registerAllFunctions : ∀ (fs : List (String × Procedure)),
    KeepsGrown (registerAllFunctions fs)
  | [] => keepsGrown_of_state fun _ _ => rfl
  | (name, p) :: rest => by
    have hput : KeepsGrown (Act.change fun s => { s with functions := Fields.put s.functions name p }) :=
      fun _ _ hs => ⟨⟨hs.shown, hs.seen⟩, Session.growth_refl _⟩
    exact ((keepsGrown_of_state fun _ _ => rfl).bind fun _ => hput).bind fun _ =>
      keepsGrown_registerAllFunctions rest

/-- **An engine whose host adds orderly DSL functions knows no others.** -/
theorem orderly_construct {dsl : List DslFunction} (hdsl : ∀ f ∈ dsl, f.Orderly)
    (functions : List (String × Procedure)) (disk : Disk) (libraries : Fields (Fields Export))
    (c : Context) : Orderly ((construct dsl functions).exec c (State.start disk libraries)).2 := by
  have hkeeps : KeepsGrown (construct dsl functions) :=
    (keepsGrown_registerAllDsl _ orderly_builtins).bind fun _ =>
      (keepsGrown_registerAllDsl _ hdsl).bind fun _ => keepsGrown_registerAllFunctions _
  exact (hkeeps c _ (orderly_start disk libraries)).orderly

/-- **Builds refine batches.**  Whatever initializers do, if none is a function of the host, the DSL
functions are orderly and nothing is changed by hand, then a build that does not fail gives what some
batches, applied one after the other, make of the graph with which it starts.  So no record of the log
and no entity is lost, and a reachable graph leads to a reachable one. -/
theorem build_refines_batches (e : Setup) {inits : List Initializer}
    (hinits : ∀ init ∈ inits, isFunction init = false) (r : Revision) (c : Context) {s s' : State}
    (hs : Orderly s) {next : Content}
    (hbuild : (build e inits (.graph r)).exec c s = (.ok next, s'))
    (hhands : HandsOff (s'.events.drop s.events.length)) :
    ∃ g', next.graph? = some g' ∧ (∃ batches, r.graph.applyAll batches = .ok g') ∧
      r.graph.transactions <+: g'.transactions ∧ (∀ id ∈ r.graph.entityIds, id ∈ g'.entityIds) ∧
      (r.graph.Reachable → g'.Reachable) := by
  obtain ⟨new, -, hnew, hresult⟩ :=
    (yields_buildWith e (nestWithin e nestDepth) inits (.graph r) hinits).yields c s hs
  have hexec : (buildWith e (nestWithin e nestDepth) (.graph r) inits).exec c s = (.ok next, s') :=
    hbuild
  rw [hexec] at hnew hresult
  rw [hnew, List.drop_left] at hhands
  obtain ⟨g', hg', hgrows⟩ := hresult hhands next rfl r.graph rfl
  exact ⟨g', hg', hgrows, hgrows.transactions_prefix, hgrows.entity_stays, hgrows.reachable⟩

/-! ## 5. A build by every kind of initializer -/

/-- A library, a config module that requires it and calls a DSL function with what it exports, and a script
file that calls a DSL function, catches the refusal of a batch and applies another one. -/
def sampleFiles : List (String × String) := [
  ("lib", "@\x7b\"export\":\"port\",\"be\":443\x7d\n"),
  ("main", "'use config';\n"
    ++ "@\x7b\"let\":\"lib\",\"be\":\x7b\"$call\":\"require\",\"args\":[\"lib\"]\x7d\x7d\n"
    ++ "@\x7b\"call\":\"server\",\"args\":[\"gate\","
    ++ "\x7b\"port\":\x7b\"$get\":[\x7b\"$var\":\"lib\"\x7d,\"port\"]\x7d\x7d]\x7d\n"),
  ("setup", "cluster(\"app\");\n"
    ++ "@\x7b\"try\":[\x7b\"call\":\"transact\",\"args\":"
    ++ "[[\x7b\"op\":\"retract\",\"entity\":99,\"attr\":\"port\"\x7d]]\x7d],\"as\":\"refusal\"\x7d\n"
    ++ "transact([\x7b\"op\": \"create\", "
    ++ "\"attrs\": \x7b\"config/id\": \"app-1\", \"zone\": \"b\"\x7d\x7d]);\n")]

/-- A script that calls a DSL function, catches the failure of another one, which has made an entity before,
and writes down what it has caught. -/
def sampleScript : String :=
  "server(\"web\", \x7b\"port\": 8080\x7d);\n"
    ++ "@\x7b\"try\":[\x7b\"call\":\"boom\",\"args\":[\"x\",\"y\"]\x7d],\"as\":\"failure\"\x7d\n"
    ++ "@\x7b\"call\":\"entity\",\"args\":[\"report\",\x7b\"caught\":\x7b\"$var\":\"failure\"\x7d\x7d]\x7d\n"

/-- DSL functions of the host; `cluster` calls another one. -/
def sampleDsl : List DslFunction := [Dsl.server, Dsl.cluster, Dsl.boom]

/-- An engine over the files, to which nothing has happened. -/
def sampleEngine : State :=
  ((construct sampleDsl []).exec .outside (State.start (Module.flatDisk sampleFiles) [])).2

/-- The modules are given beforehand, with their texts in the files. -/
def sampleSetup : Setup := ⟨"/", .fixed (Module.flatListing sampleFiles)⟩

/-- An initializer of every kind but functions of the host. -/
def sampleInits : List Initializer :=
  [.ops Session.exchangeOps, .script sampleScript, .none, .file "setup.js", .module "main"]

/-- The build starts with a graph of two entities, which exchange their names. -/
def sampleRun : Except Fault Content × State :=
  (build sampleSetup sampleInits (.graph (.first 0 Session.namedGraph))).exec .outside sampleEngine

/-- What a script has written down as caught. -/
def caught? (attrs : Attrs) : Option String :=
  match Fields.get? attrs "caught" with
  | some (.str s) => some s
  | _ => none

/-- The entities of a graph, how often it was changed, and what scripts have caught. -/
def outline (g : Graph) : List EntityId × Nat × List String :=
  (g.entityIds, g.transactions.length, g.entities.filterMap fun e => caught? e.2)

/-- The outline of the graph that the build makes, and whether nothing was changed by hand. -/
def sampleOutcome : Option (List EntityId × Nat × List String) × Bool :=
  ((sampleRun.1.toOption.bind Content.graph?).map outline,
    (sampleRun.2.events.drop sampleEngine.events.length).all (·.handWritten?.isNone))

theorem sampleOutcome_eq :
    sampleOutcome = (some ([1, 2, 3, 4, 5, 6, 7], 8, ["Error: x+y"]), true) := by
  decide +kernel

theorem sampleDsl_orderly : ∀ f ∈ sampleDsl, f.Orderly := by
  intro f hf
  simp only [sampleDsl, List.mem_cons, List.not_mem_nil, or_false] at hf
  rcases hf with rfl | rfl | rfl
  · exact orderly_catalogue ("server", Dsl.server) (by simp [Dsl.catalogue])
  · exact orderly_catalogue ("cluster", Dsl.cluster) (by simp [Dsl.catalogue])
  · exact orderly_catalogue ("boom", Dsl.boom) (by simp [Dsl.catalogue])

theorem build_of_sampleInits : ∃ next g', sampleRun.1 = .ok next ∧ next.graph? = some g' ∧
    outline g' = ([1, 2, 3, 4, 5, 6, 7], 8, ["Error: x+y"]) ∧
    (∃ batches, Session.namedGraph.applyAll batches = .ok g') ∧
    Session.namedGraph.transactions <+: g'.transactions ∧ g'.Reachable := by
  obtain ⟨houtline, hevents⟩ := Prod.mk.inj sampleOutcome_eq
  rcases hrun : sampleRun with ⟨r, s'⟩
  rw [hrun] at houtline hevents
  cases r with
  | error f => cases houtline
  | ok next =>
    obtain ⟨g', hg', hbatches, hprefix, -, hreach⟩ := build_refines_batches sampleSetup
      (by simp [sampleInits, isFunction]) (.first 0 Session.namedGraph) .outside
      (orderly_construct sampleDsl_orderly [] (Module.flatDisk sampleFiles) [] .outside) hrun
      (handsOff_of_all hevents)
    have houtline : next.graph?.map outline = some ([1, 2, 3, 4, 5, 6, 7], 8, ["Error: x+y"]) := houtline
    rw [hg'] at houtline
    have hreachable : Session.namedGraph.Reachable :=
      @Graph.Reachable.step Graph.empty Session.namedGraph Session.namingOps .null .empty rfl
    exact ⟨next, g', rfl, hg', Option.some.inj houtline, hbatches, hprefix, hreach hreachable⟩

end ConfGraph.Engine
