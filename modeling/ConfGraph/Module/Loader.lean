import ConfGraph.Module.Plain

/-!
# Loading modules

Loading a config module evaluates it afresh, with every config module that it requires: all config
modules are forgotten first.  Other modules are libraries, evaluated once and kept.  What a specifier
means to a module depends on the listing at the time when the module was evaluated, even if it is
asked for much later; a specifier that means no listed module means a plain file.

A module is remembered before its evaluation starts, so that modules which require each other see
what is there of their exports; it is forgotten again if the evaluation fails.

* `unload`: forgets a module.
* `moduleObject`, `evaluateModule`: evaluates a module unless it is remembered.
* `requireStep`, `requireOver`, `requireWithin`: what `require` does.
* `loadOver`, `load`: loads a config module.
-/

namespace ConfGraph.Module

open Script

/-! ## 1. What is remembered -/

/-- What is remembered of modules of a kind. -/
def State.cache (s : State) (isConfig : Bool) : Cache := if isConfig then s.loaded else s.libraries

/-- Changes what is remembered of modules of a kind. -/
def State.withCache (s : State) (isConfig : Bool) (f : Cache → Cache) : State :=
  if isConfig then { s with loaded := f s.loaded } else { s with libraries := f s.libraries }

/-- The module object of a module, if it is remembered. -/
def remembered? (m : Listed) : Act State (Option CellId) := fun _ s =>
  (.ok ((s.cache m.isConfig).lookup m.id), s)

/-- Tells what happens to an evaluation. -/
def State.noting (s : State) (x : Moment) : State := { s with journal := s.journal ++ [x] }

/-- Remembers a module whose evaluation begins. -/
def remember (m : Listed) (cell : CellId) : Act State Evaluation := fun _ s =>
  let e : Evaluation := ⟨s.journal.length, m.id, m.isConfig, cell, m.path⟩
  (.ok e, (s.withCache m.isConfig fun c => c ++ [(m.id, cell)]).noting (.began e))

/-- Keeps a module whose evaluation has completed. -/
def keep (e : Evaluation) : Act State Unit := Act.change fun s => s.noting (.completed e)

/-- Forgets a module whose evaluation failed. -/
def forget (e : Evaluation) : Act State Unit :=
  Act.change fun s => (s.withCache e.isConfig fun c => c.forget e.id).noting (.failed e)

/-- Tells that a module object is given to somebody. -/
def serve (x : Serving) : Act State Unit := Act.change fun s => s.noting (.served x)

/-- **Forgets a module**; tells whether it was remembered. -/
def unload (id : String) : Act State Bool := do
  let s ← Act.state
  if s.loaded.has id then
    Act.setState { s with loaded := s.loaded.forget id }
    onSession (Session.note (.moduleUnloaded id))
    return true
  else if s.libraries.has id then
    Act.setState { s with libraries := s.libraries.forget id }
    onSession (Session.note (.moduleUnloaded id))
    return true
  else return false

/-- Forgets several modules. -/
def unloadAll : List String → Act State Unit
  | [] => return ()
  | id :: rest => do
    let _ ← unload id
    unloadAll rest

/-! ## 2. Requiring -/

/-- The file name of a module in stack frames. -/
def frameFile (id : String) : String := s!"{Frame.scriptMark}module:{id}"

/-- The module with an identifier. -/
def byId? (all : List Listed) (id : String) : Option Listed :=
  all.reverse.find? fun m => m.id == id

/-- The module at a path. -/
def byPath? (all : List Listed) (path : String) : Option Listed :=
  all.reverse.find? fun m => m.path == path

/-- Whether a specifier is a relative path. -/
def isRelative (specifier : String) : Bool :=
  "./".toList.isPrefixOf specifier.toList || "../".toList.isPrefixOf specifier.toList

/-- The paths that a relative specifier in a module at a path may mean, in order. -/
def candidates (path specifier : String) : List String :=
  let base := Path.resolve (Path.parent path) specifier
  base :: (extensions.map fun ext => base ++ ext)
    ++ extensions.map fun ext => Path.child base s!"index{ext}"

/-- The module that a specifier in a module at a path means. -/
def target? (all : List Listed) (path specifier : String) : Option Listed :=
  match byId? all specifier with
  | some m => some m
  | none =>
    if isRelative specifier then (candidates path specifier).findSome? (byPath? all)
    else none

/-! ## 3. Evaluating -/

/-- How many calls of the host lie between a module and the one that requires it. -/
def hostCalls : Nat := 4

/-- Runs the text of a module of a listing. -/
def runText (require : Require) (d : Disk) (globals : Fields Global) (listing : Nat) (m : Listed)
    (exports : Datum) (cell : CellId) : Act State Unit := do
  let text ← Act.ofExcept (m.text d)
  let program ← Act.ofExcept (Program.ofText false text)
  let globals ← makeGlobals globals
  let own ← makeRequire "" ⟨m.path, some listing⟩
  evaluate require {
    fn := some frameName, file := frameFile m.id, ownRealm := true, globals, program
    parameters := some (moduleVariables m.path exports cell own) }

/-- **Evaluates a module of a listing unless it is remembered**; gives its module object. -/
def moduleObject (require : Require) (d : Disk) (globals : Fields Global) (listing : Nat)
    (m : Listed) : Act State CellId := do
  match ← remembered? m with
  | some cell => return cell
  | none => do
    let (exports, cell) ← makeModule
    let e ← remember m cell
    onSession (Session.note (.moduleStarted m.id))
    match ← Act.outcome (runText require d globals listing m exports cell) with
    | .ok () => do
      keep e
      return cell
    | .error f => do
      forget e
      Act.fail f

/-- Evaluates a module of a listing unless it is remembered; gives its exports. -/
def evaluateModule (require : Require) (d : Disk) (globals : Fields Global) (listing : Nat)
    (m : Listed) : Act State Datum := do
  exportsOf (← moduleObject require d globals listing m)

/-- Evaluates a module of a listing for somebody who requires it. -/
def requireListed (require : Require) (d : Disk) (globals : Fields Global) (listing : Nat)
    (path specifier : String) (m : Listed) : Act State Datum := do
  let cell ← moduleObject require d globals listing m
  serve ⟨listing, path, specifier, m.id, m.isConfig, cell⟩
  exportsOf cell

/-- The modules of a listing. -/
def listed (number : Nat) : Act State (List Listed) := fun _ s =>
  (.ok (s.listings[number]?.getD []), s)

/-- One level of requiring, given the next. -/
def requireStep (require : Require) (d : Disk) (globals : Fields Global) : Require :=
  fun who specifier => do
    match who.listing, specifier with
    | none, _ => requirePlain require d who.path specifier
    | some number, .str s =>
      match target? (← listed number) who.path s with
      | some m => throughHost hostCalls (requireListed require d globals number who.path s m)
      | none => requirePlain require d who.path specifier
    | some _, .undefined => Act.fail (.noFieldOf "undefined" "startsWith")
    | some _, .null => Act.fail (.noFieldOf "null" "startsWith")
    | some _, _ => Act.fail (.notCallable "specifier.startsWith")

/-- What `require` does if something is done in its place below `depth` evaluations inside one
another. -/
def requireOver (bottom : Require) (d : Disk) (globals : Fields Global) : Nat → Require
  | 0 => bottom
  | depth + 1 => requireStep (requireOver bottom d globals depth) d globals

/-- The `require` that always fails. -/
def requireNothing : Require := fun _ _ => Act.fail .tooDeep

/-- **What `require` does**, with at most `depth` evaluations inside one another.  An evaluation in
progress is remembered, so that nothing is evaluated inside its own evaluation. -/
def requireWithin (d : Disk) (globals : Fields Global) : Nat → Require :=
  requireOver requireNothing d globals

/-- How many modules and files there are to be evaluated: as many evaluations can be in progress at
most. -/
def State.depth (s : State) (d : Disk) : Nat :=
  s.listings.foldl (fun n all => n + all.length) (d.fileCount + 1)

/-- What `require` does, with modules and files as they are known now. -/
def requireNow (d : Disk) (globals : Fields Global) : Act State Require := fun _ s =>
  (.ok (requireWithin d globals (s.depth d)), s)

/-! ## 4. Loading -/

/-- Identifiers without repetition, each at its first place. -/
def distinct (ids : List String) : List String :=
  ids.foldl (fun done id => if done.contains id then done else done ++ [id]) []

/-- The identifiers of the modules that a load forgets: all config modules, of the latest load and
of the present listing. -/
def configIds (s : State) (all : List Listed) : List String :=
  distinct (s.loaded.ids ++ (all.filter (·.isConfig)).map (·.id))

/-- Keeps a listing; gives its number. -/
def keepListing (all : List Listed) : Act State Nat := fun _ s =>
  (.ok s.listings.length, { s with listings := s.listings ++ [all] })

/-- Loads a config module, with something done in place of requiring at the bound of depth. -/
def loadOver (bottom : Require) (d : Disk) (globals : Fields Global)
    (listing : Except Fault (List Listed)) (id : String) : Act State Datum := do
  let all ← Act.ofExcept listing
  match all.find? fun m => m.id == id with
  | none => Act.fail (.moduleNotFound id)
  | some m =>
    if m.isConfig then do
      let ids := configIds (← Act.state) all
      unloadAll ids
      onSession (Session.note (.modulesReset id ids.length))
      let number ← keepListing all
      let s ← Act.state
      evaluateModule (requireOver bottom d globals (s.depth d)) d globals number m
    else Act.fail (.notConfigModule id)

/-- **Loads a config module**; gives its exports. -/
def load (d : Disk) (globals : Fields Global) (listing : Except Fault (List Listed)) (id : String) :
    Act State Datum :=
  loadOver requireNothing d globals listing id

end ConfGraph.Module
