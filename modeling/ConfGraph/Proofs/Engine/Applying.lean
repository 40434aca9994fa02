import ConfGraph.Engine.Build
import ConfGraph.Proofs.Scope.Strand

/-!
# Applying initializers

An initializer is applied in a scope of its own, which is opened before and closed after; what happens
is noted at either end.  What it comes to is then told by what it does in its scope.

* `exec_withScope`: a strand in a scope of its own.
* `exec_noteEnd`: the note at the end.
* `exec_applyInitializer`: one initializer.
* `exec_applyModule`: a config module as an initializer.
-/

namespace ConfGraph.Engine

/-! ## 1. Either end -/

/-- The events of an engine so far. -/
def State.events (s : State) : List Log.Event := s.modules.session.events

/-- The scopes of an engine. -/
def State.scopes (s : State) : Scopes := s.modules.session.scopes

/-- A state with other scopes, and with further events. -/
def State.going (s : State) (scopes : Scopes) (new : List Log.Event) : State :=
  { s with modules := { s.modules with session := ⟨scopes, s.events ++ new⟩ } }

theorem State.going_nil (s : State) (scopes : Scopes) :
    s.going scopes [] = HasSession.withSession s { s.modules.session with scopes } := by
  unfold State.going State.events
  rw [List.append_nil]
  rfl

theorem State.going_going (s : State) (scopes scopes' : Scopes) (new new' : List Log.Event) :
    (s.going scopes new).going scopes' new' = s.going scopes' (new ++ new') := by
  simp [State.going, State.events]

/-- What running a strand of an engine in a scope of its own comes to. -/
theorem exec_withScope {α : Type} {body : Strand State α} (hbody : body.Sequential) (initial : Content)
    (c : Context) (s : State) {r : Except Fault α} {s' : State}
    (hrun : body.exec (c.within s.scopes.table.length) (s.going (s.scopes.opening initial).2 [])
      = (r, s')) :
    (withScope initial body).exec c s
      = (do
          let a ← r
          let content ← s'.scopes.read s.scopes.table.length
          return (a, content), s'.going (s'.scopes.closing s.scopes.table.length) []) := by
  rw [State.going_nil] at hrun ⊢
  exact Strand.exec_withScope hbody (fun _ => rfl) c s hrun

/-- A failure as it is handed on, if it can be told. -/
def reportedFault (f : Fault) : Fault :=
  if f.isUntold then .typeError "Converting circular structure to JSON" else f

/-- **The end of an initializer as it is handed on**: a graph must have a number that can be told. -/
def reported (r : Except Fault Content) : Except Fault Content :=
  match r.bind fun c => c.basisTx.map fun _ => c with
  | .ok c => .ok c
  | .error f => .error (reportedFault f)

theorem eq_of_reported {r : Except Fault Content} {c : Content} (h : reported r = .ok c) :
    r = .ok c := by
  unfold reported at h
  cases r with
  | error f => exact nomatch h
  | ok made =>
    cases hbasis : made.basisTx with
    | error f => simp [Except.bind, hbasis, Except.map] at h
    | ok basisTx =>
      simp only [Except.bind, hbasis, Except.map] at h
      exact h

/-- **What the note at the end comes to.** -/
theorem exec_noteEnd (init : Initializer) (r : Except Fault Content) (c : Context) :
    ∃ new, ∀ s, (noteEnd init r).exec c s = (reported r, s.going s.scopes new) := by
  have hfails : ∀ f : Fault, ∃ new, ∀ s : State, (if f.isUntold
      then Act.fail (.typeError "Converting circular structure to JSON")
      else do
        note (.failed init.description f)
        Act.fail f : Act State Content).exec c s
        = (.error (reportedFault f), s.going s.scopes new) := by
    intro f
    unfold reportedFault
    split
    · refine ⟨[], fun s => ?_⟩
      rw [State.going_nil]
      rfl
    · exact ⟨[.failed init.description f], fun s => rfl⟩
  cases r with
  | error f => exact hfails f
  | ok made =>
    have hnoted : ∀ s : State, (do
        let c ← Act.ofExcept (.ok made)
        note (.applied init.description (← Act.ofExcept c.basisTx))
        return c : Act State Content).exec c s = (do
          note (.applied init.description (← Act.ofExcept made.basisTx))
          return made : Act State Content).exec c s := fun s => rfl
    cases hbasis : made.basisTx with
    | error f =>
      have hreported : reported (.ok made) = .error (reportedFault f) := by
        simp [reported, Except.bind, hbasis, Except.map]
      obtain ⟨new, hexec⟩ := hfails f
      refine ⟨new, fun s => ?_⟩
      unfold noteEnd
      rw [Act.exec_outcome_bind, hnoted, hbasis, hreported]
      exact hexec s
    | ok basisTx =>
      have hreported : reported (.ok made) = .ok made := by
        simp [reported, Except.bind, hbasis, Except.map]
      refine ⟨[.applied init.description basisTx], fun s => ?_⟩
      unfold noteEnd
      rw [Act.exec_outcome_bind, hnoted, hbasis, hreported]
      rfl

/-! ## 2. One initializer -/

/-- An engine that starts to apply an initializer to a graph, in a scope of its own. -/
def State.startingWith (s : State) (r : Revision) (init : Initializer) : State :=
  s.going (s.scopes.opening (.graph r)).2 [.applying init.description (.nat r.graph.basisTx)]

/-- **What an initializer comes to**: what its scope holds after what it does there. -/
theorem exec_applyInitializer (e : Setup) (r : Revision) {init : Initializer}
    (hinit : init.checkDescribable = .ok ())
    (hdispatch : (dispatch e (nestWithin e nestDepth) init).Sequential) (c : Context) (s : State)
    {done : Except Fault Unit} {s' : State}
    (hrun : (dispatch e (nestWithin e nestDepth) init).exec (c.within s.scopes.table.length)
      (s.startingWith r init) = (done, s')) :
    ∃ new, (applyInitializer e (.graph r) init).exec c s
      = (reported (done.bind fun _ => s'.scopes.read s.scopes.table.length),
          s'.going (s'.scopes.closing s.scopes.table.length) new) := by
  let nest : Nest := nestWithin e nestDepth
  let start : Log.Event := .applying init.description (.nat r.graph.basisTx)
  have hrun : (dispatch e nest init).exec (c.within s.scopes.table.length)
      ((s.going s.scopes [start]).going (s.scopes.opening (.graph r)).2 []) = (done, s') := by
    rw [State.going_going, List.append_nil]
    exact hrun
  have hscope := exec_withScope hdispatch (.graph r) c (s.going s.scopes [start]) hrun
  have hsequential : (withScope (.graph r) (dispatch e nest init)).Sequential :=
    Strand.sequential_withScope hdispatch
  have hnote : (once (note start)).Sequential := Strand.sequential_ofAct _
  have hstart : (applyWith e nest (.graph r) init).exec c s
      = (do
          let r ← Strand.outcome (Strand.after (withScope (.graph r) (dispatch e nest init)))
          once (noteEnd init (r.map (·.2))) : Strand State Content).exec c
            (s.going s.scopes [start]) := by
    unfold applyWith
    rw [Strand.exec_bind (Strand.sequential_ofExcept _), Strand.exec_ofExcept, hinit]
    dsimp only
    rw [Strand.exec_bind (Strand.sequential_ofExcept _), Strand.exec_ofExcept]
    dsimp only [Content.basisTx]
    rw [Strand.exec_bind hnote]
    rfl
  obtain ⟨new, hend⟩ := exec_noteEnd init
    (done.bind fun _ => s'.scopes.read s.scopes.table.length) c
  refine ⟨new, ?_⟩
  have hended := hend (s'.going (s'.scopes.closing s.scopes.table.length) [])
  rw [State.going_going] at hended
  refine Eq.trans ?_ hended
  show (applyWith e nest (.graph r) init).exec c s = _
  rw [hstart, Strand.exec_bind hsequential.after.outcome, Strand.exec_outcome hsequential.after,
    Strand.exec_after hsequential, hscope]
  have honce : ∀ (r : Except Fault Content) (s : State),
      (once (noteEnd init r)).exec c s = (noteEnd init r).exec c s := fun _ _ => rfl
  have hscopes : (s.going s.scopes [start]).scopes = s.scopes := rfl
  dsimp only
  rw [honce, hscopes]
  cases done with
  | error f => rfl
  | ok d =>
    cases s'.scopes.read s.scopes.table.length <;> rfl

/-! ## 3. Config modules -/

/-- Loading a config module works on what an engine has of modules. -/
theorem exec_loadModule (e : Setup) (id : String) (c : Context) (s : State)
    {listing : Except Fault (List Module.Listed)} (hlisting : e.source.list s.disk = listing)
    {loaded : Except Fault Script.Datum} {modules : Module.State}
    (hload : (Module.load s.disk (scriptGlobals s.dsl) listing id).exec c s.modules
      = (loaded, modules)) :
    (loadModule e id).exec c s = (loaded, { s with modules }) := by
  have hstate : (Act.state : Act State State).exec c s = (.ok s, s) := rfl
  have hzoom : ∀ a : Act Module.State Script.Datum, (onModules a).exec c s
      = ((a.exec c s.modules).1, { s with modules := (a.exec c s.modules).2 }) := fun _ => rfl
  unfold loadModule
  rw [Act.exec_bind_of_ok hstate, hlisting, hzoom, hload]

theorem sequential_findModules (e : Setup) : (findModules e).Sequential := by
  unfold findModules
  split
  · exact Strand.sequential_wait 1
  · exact Strand.sequential_pause 1

theorem sequential_runModule (e : Setup) (id : String) : (runModule e id).Sequential :=
  ((sequential_findModules e).bind fun _ => Strand.sequential_ofAct _).after.bind fun _ =>
    Strand.sequential_pure ()

/-- What running a config module comes to. -/
theorem exec_runModule (e : Setup) (id : String) (c : Context) (s : State) :
    (runModule e id).exec c s
      = (((loadModule e id).exec c s).1.map fun _ => (), ((loadModule e id).exec c s).2) := by
  have hfind : (findModules e).exec c s = (.ok (), s) := by
    unfold findModules
    split
    · rfl
    · rw [Strand.exec_pause]
  have hload : (do
      findModules e
      once (loadModule e id) : Strand State Script.Datum).Sequential :=
    (sequential_findModules e).bind fun _ => Strand.sequential_ofAct _
  unfold runModule
  rw [Strand.exec_bind hload.after, Strand.exec_after hload,
    Strand.exec_bind (sequential_findModules e), hfind]
  dsimp only
  have honce : (once (loadModule e id)).exec c s = (loadModule e id).exec c s :=
    Strand.exec_ofAct _ _ _
  rw [honce]
  rcases (loadModule e id).exec c s with ⟨_ | _, s'⟩ <;> rfl

/-- An engine that starts to apply a config module to a graph, in a scope of its own. -/
def State.starting (s : State) (r : Revision) (id : String) : State :=
  s.going (s.scopes.opening (.graph r)).2
    [.applying (Initializer.module id).description (.nat r.graph.basisTx)]

/-- **What a config module as an initializer comes to**: what its scope holds after the load. -/
theorem exec_applyModule (e : Setup) (r : Revision) (id : String) (c : Context) (s : State)
    {listing : Except Fault (List Module.Listed)} (hlisting : e.source.list s.disk = listing)
    {loaded : Except Fault Script.Datum} {modules : Module.State}
    (hload : (Module.load s.disk (scriptGlobals s.dsl) listing id).exec
      (c.within s.scopes.table.length) (s.starting r id).modules = (loaded, modules)) :
    ∃ s', (applyInitializer e (.graph r) (.module id)).exec c s
        = (reported (loaded.bind fun _ => modules.session.scopes.read s.scopes.table.length), s') ∧
      s'.modules.loaded = modules.loaded ∧ s'.modules.journal = modules.journal := by
  let s' : State := { s.starting r id with modules }
  have hloaded : (loadModule e id).exec (c.within s.scopes.table.length) (s.starting r id)
      = (loaded, s') := exec_loadModule e id _ (s.starting r id) hlisting hload
  have hrun : (dispatch e (nestWithin e nestDepth) (.module id)).exec (c.within s.scopes.table.length)
      (s.startingWith r (.module id)) = (loaded.map fun _ => (), s') := by
    show (runModule e id).exec _ (s.starting r id) = _
    rw [exec_runModule, hloaded]
  have hdispatch : (dispatch e (nestWithin e nestDepth) (.module id)).Sequential :=
    sequential_runModule e id
  obtain ⟨new, hexec⟩ := exec_applyInitializer e r rfl hdispatch c s hrun
  refine ⟨s'.going (s'.scopes.closing s.scopes.table.length) new, hexec.trans ?_, rfl, rfl⟩
  cases loaded <;> rfl

end ConfGraph.Engine
