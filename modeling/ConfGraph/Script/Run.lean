import ConfGraph.Scope.Strand
import ConfGraph.Script.Layout
import ConfGraph.Script.Operation

/-!
# Running scripts

Each evaluation has variables of its own, which start as the globals it is given.  Code runs at its
place in the text of the program: DSL functions that it calls see the place as their call site.
Failures pass through unless a statement catches them.

What `require` does is a parameter, since only modules know each other.

* `Runtime.eval`: evaluates an expression.
* `Runtime.runStmt`, `Runtime.runStmts`: statements.
* `evaluate`: a whole program, in fresh variables.
* `evaluateTurns`: a whole program that may give way.
-/

namespace ConfGraph.Script

variable {σ : Type} [HasSession σ] [HasHeap σ]

/-! ## 1. Variables -/

/-- Variables that every script has, and that no script can assign. -/
def standard? (name : String) : Option Datum :=
  match name with
  | "undefined" => some .undefined
  | "NaN" => some (.num Number.nan)
  | "Infinity" => some (.num Number.infinity)
  | _ => none

/-- The fields of a cell. -/
def fieldsOf (id : CellId) : Act σ (Fields Datum) := do
  let h ← getHeap
  return ((h.get? id).map (·.fields)).getD []

/-- What the standard library has under the name of a variable, in a realm. -/
def provided (r : Realm) (name : String) : Found :=
  match Family.ofMaker? name, Shelf.collection? name with
  | some f, _ => .maker (r.root f) f
  | none, some s => .collection r s
  | none, none => Heap.shelved r .everywhere name

/-- Whether every script has a variable of a name. -/
def isProvided (name : String) : Bool :=
  (standard? name).isSome || (match provided hostRealm name with | .nothing => false | _ => true)

/-- The name of the variable that holds all variables. -/
def allName : String := "globalThis"

/-- What a word stands for that is no name. -/
def literal? (word : String) : Option Datum :=
  match word with
  | "null" => some .null
  | "true" => some (.bool true)
  | "false" => some (.bool false)
  | _ => none

/-- What there is under the name of a variable that no script has made.  Names that every record
answers to are variables, too. -/
def unmade (p : Place) (h : Heap) (name : String) : Found :=
  match standard? name, provided p.header.realm name with
  | some d, _ => .datum d
  | none, .nothing =>
    if name = allName || name = selfWord then .datum (.cell p.bindings)
    else h.find hostRealm (.cell p.bindings) name
  | none, found => found

/-- What a variable holds, if there is one. -/
def findVariable (p : Place) (name : String) : Act σ (Option Datum) := do
  match literal? name, Fields.get? (← fieldsOf p.bindings) name with
  | some d, _ => return some d
  | none, some d => return some d
  | none, none =>
    match unmade p (← getHeap) name with
    | .nothing => return none
    | found => return some (← onHeap fun h => h.obtain found)

/-- What a variable holds. -/
def getVariable (p : Place) (name : String) : Act σ Datum := do
  match ← findVariable p name with
  | some d => return d
  | none => Act.fail (.plain "ReferenceError" s!"{name} is not defined")

/-- Assigns a variable. -/
def setVariable (p : Place) (name : String) (d : Datum) : Act σ Unit := do
  let fields ← fieldsOf p.bindings
  if (standard? name).isSome && (Fields.get? fields name).isNone then
    if p.header.isStrict then Act.fail (.readOnly name "object '#<Object>'") else return ()
  else
    onHeap fun h =>
      ((), match h.get? p.bindings with
        | some c => h.set p.bindings { c with fields := Fields.put fields name d }
        | none => h)

/-! ## 2. Reading graphs -/

/-- One attribute of an entity of what stands in the place of a graph. -/
def readAttr (g ref name : Datum) : Act σ Datum := do
  let h ← getHeap
  let p ← Act.ofExcept ((h.lookedUp 0 g).attr (.of (h.value ref)) (h.value name))
  onHeap fun h => h.partDatum p

/-! ## 3. Calls -/

/-- What a program needs from its surroundings. -/
structure Runtime (σ : Type) where
  /-- What `require` does for somebody. -/
  require : Requirer → Datum → Act σ Datum
  /-- Evaluates the result of a thunk at its place. -/
  force : Place → Expr → Act σ Datum

/-- The values of arguments. -/
def argumentValues : List Datum → Act σ (List Value)
  | [] => return []
  | d :: rest => do
    let v ← valueOf d
    let vs ← argumentValues rest
    return v :: vs

/-- Runs an act as called from one more place. -/
def calledFrom {α : Type} (frame : Option Frame) (a : Act σ α) : Act σ α :=
  Act.inside (fun c => { c with site := frame :: c.site }) a

/-- Replaces what the scope in context holds by what a function makes of it. -/
def replaceContent (f : Datum → Act σ Datum) : Act σ Datum := do
  let id ← onSession Session.activeScope
  let d ← contentDatum (← onSession (Session.readScope id))
  let next ← f d
  let content ← contentOf next
  onSession (Session.overwrite id content)
  return next

/-- The functions of lists that name themselves when they are called without a list. -/
def selfNaming : List String := [
  "concat", "every", "fill", "filter", "find", "findIndex", "findLast", "findLastIndex", "forEach",
  "includes", "indexOf", "map", "pop", "push", "reduce", "reduceRight", "shift", "some", "unshift"]

/-- The fault of a function behind a common name that is called without a receiver. -/
def receiverFault (f : Family) (name : String) : Fault :=
  let full := s!"{f.maker.name}.prototype.{name}"
  match f, name with
  | .object, "toLocaleString" => .noReceiver full
  | .object, _ => .noRecord
  | .list, name => if selfNaming.contains name then .noReceiver full else .noRecord
  | .text, "toString" | .text, "valueOf" | .number, _ | .truth, _ =>
    .wrongReceiver full f.maker.name
  | .text, _ => .noReceiver full
  | .function, "bind" => .typeError "Bind must be called on a function"
  | .function, "apply" =>
    .typeError s!"{full} was called on undefined, which is undefined and not a function"
  | .function, _ => .wrongReceiver full f.maker.name
  | .table, _ | .failure _, _ =>
    .typeError s!"Method {full} called on incompatible receiver undefined"

/-- What a function behind a common name gives without a receiver. -/
def withoutReceiver (f : Family) (name : String) (args : List Datum) : Act σ Datum :=
  match f, name, argument args 0 with
  | .object, "toString", _ => return .str "[object Undefined]"
  | .object, "isPrototypeOf", .cell _ => Act.fail (receiverFault f name)
  | .object, "isPrototypeOf", _ => return .bool false
  | _, _, _ => Act.fail (receiverFault f (Family.nameOf name))

namespace Runtime

/-- Calls anything but `update`. -/
def apply (rt : Runtime σ) (c : Callable) (args : List Datum) : Act σ Datum :=
  match c with
  | .currentGraph => do
    contentDatum (← onSession Session.currentContent)
  | .update => do
    let _ ← onSession Session.currentContent
    Act.fail (.notCallable "fn")
  | .transact => do
    let ops ← valueOf (argument args 0)
    let tempId ← valueOf (argument args 1)
    adopt (← onSession (Session.transact ops tempId))
  | .resolveId => do
    let id ← valueOf (argument args 0)
    let e ← onSession (Session.resolveId id)
    adopt e.toValue
  | .attr => readAttr (argument args 0) (argument args 1) (argument args 2)
  | .require who => rt.require who (argument args 0)
  | .dsl f => do
    let v ← onSession (f.invoke (← argumentValues args))
    adopt v
  | .identity => return argument args 0
  | .thunk place result => rt.force place result
  | .method f name => withoutReceiver f name args
  | .maker f r => Standard.make f r args
  | .library s name r => Standard.call s name r args
  | .silent => return .undefined

/-- What a datum can be called as. -/
def callable? (h : Heap) : Datum → Option Callable
  | .cell id =>
    match h.get? id with
    | some ⟨.function c _, _, _, _⟩ => some c
    | _ => none
  | _ => none

/-- Calls a callable.  Only `update` calls another one, with what is in context as its first
argument. -/
def call (rt : Runtime σ) (c : Callable) (args : List Datum) : Act σ Datum :=
  match c with
  | .update =>
    replaceContent fun g => do
      match callable? (← getHeap) (argument args 0) with
      | some c => calledFrom none (rt.apply c (g :: args.drop 1))
      | none => Act.fail (.notCallable "fn")
  | c => rt.apply c args

/-- Calls what a name stands for. -/
def callNamed (rt : Runtime σ) (name : String) (f : Datum) (args : List Datum) :
    Act σ Datum := do
  match callable? (← getHeap) f with
  | some (.method .function "call") | none => Act.fail (.notCallable name)
  | some c => rt.call c args

/-! ## 4. Expressions -/

/-- The place of the code of a function without parameters; stack frames call it by a label. -/
def insideThunk (p : Place) (label : String) : Place :=
  { p.past Expr.thunkLead with
    header := { p.header with fn := if label.isEmpty then none else some label } }

/-- The function of an expression that is one, under a name; stack frames call it by a label if it
has no name. -/
def functionOf? (p : Place) (name label : String) : Expr → Option Cell
  | .identity => some (Heap.functionCell p.header.realm .identity ⟨name, 1, .echo⟩)
  | .constantly result =>
    let place := insideThunk p (if name.isEmpty then label else name)
    some (Heap.functionCell p.header.realm (.thunk place result) ⟨name, 0, .ordinary⟩)
  | _ => none

/-- A function without a name. -/
def anonymous (p : Place) (e : Expr) : Act σ Datum :=
  match functionOf? p "" "" e with
  | some c => do return .cell (← makeCell c)
  | none => return .undefined

mutual

/-- **Evaluates an expression** that stands at a place.  The name of a called function is looked up
before its arguments are evaluated. -/
def eval (rt : Runtime σ) (p : Place) : Expr → Act σ Datum
  | .undefined => return .undefined
  | .null => return .null
  | .bool b => return .bool b
  | .num x => return .num x
  | .str s => return .str s
  | .list items => do
    let ds ← evalAll rt (p.past Expr.listLead) items
    return .cell (← makeCell (Heap.listCell p.header.realm ds))
  | .record entries => do
    let ds ← evalEntries rt (p.past Expr.recordLead) entries
    return .cell (← makeCell (Heap.recordCell p.header.realm (Fields.ofList ds)))
  | .variable name => getVariable p name
  | .field holder name => do
    let d ← eval rt p holder
    readField p.header.realm d name
  | .call name args => do
    match Operator.ofWord? name, args with
    | some .remove, [.field holder key] => do
      let d ← eval rt (p.past (Expr.callLead name)) holder
      let removed ← removeField p.header.isStrict d key
      renewScopes
      return removed
    | some .remove, [.variable v] => return .bool (← findVariable p v).isNone
    | some .kind, [.variable v] => operate .kind ((← findVariable p v).getD .undefined)
    | some op, args => do
      let ds ← evalAll rt (p.past (Expr.callLead name)) args
      operate op (ds.getLast?.getD .undefined)
    | none, args => do
      let f ← getVariable p name
      let ds ← evalAll rt (p.past (Expr.callLead name)) args
      calledFrom p.frame (rt.callNamed name f ds)
  | .identity => anonymous p .identity
  | .constantly result => anonymous p (.constantly result)

/-- Evaluates expressions in order, the first of which stands at a place. -/
def evalAll (rt : Runtime σ) (p : Place) : List Expr → Act σ (List Datum)
  | [] => return []
  | e :: rest => do
    let d ← eval rt p e
    let ds ← evalAll rt (p.past (e.written ++ between)) rest
    return d :: ds

/-- Evaluates the entries of a record in order, the first of which stands at a place; a function
gets the name of its entry. -/
def evalEntries (rt : Runtime σ) (p : Place) : List (String × Expr) → Act σ (List (String × Datum))
  | [] => return []
  | (name, e) :: rest => do
    let here := p.past (Expr.entryLead name)
    let d ←
      match functionOf? here name "" e with
      | some c => do pure (.cell (← makeCell c))
      | none => eval rt here e
    let ds ← evalEntries rt (here.past (e.written ++ between)) rest
    return (name, d) :: ds

end

/-- Evaluates an expression at a place, whose value gets a name: a function is called by it. -/
def evalNamed (rt : Runtime σ) (p : Place) (name label : String) (e : Expr) : Act σ Datum :=
  match functionOf? p name label e with
  | some c => do return .cell (← makeCell c)
  | none => rt.eval p e

/-! ## 5. Statements -/

/-- The name that a caught failure has inside its handler. -/
def caughtName : String := "e"

/-- A value as a part of a longer text. -/
def partText (v : Value) : Except Fault String :=
  match v.primitive? with
  | some p => .ok p.primitiveText
  | none => .error .noPrimitive

/-- The text of a caught failure: its name and message.  A thrown value may have both as fields. -/
def caughtText : Fault → Except Fault String
  | .thrown .undefined => .error (.noFieldOf "undefined" "name")
  | .thrown .null => .error (.noFieldOf "null" "name")
  | .thrown v =>
    match partText (v.field "name"), partText (v.field "message") with
    | .ok name, .ok message => .ok (name ++ ": " ++ message)
    | .error f, _ => .error f
    | _, .error f => .error f
  | f => .ok s!"{f.name}: {f.message}"

/-- What is thrown with a datum: an error says its name and its message. -/
def faultOf (d : Datum) : Act σ Fault := do
  let h ← getHeap
  match h.body? d with
  | some (.failure _) => do
    let name ← valueOf (← readField hostRealm d "name")
    let message ← valueOf (← readField hostRealm d "message")
    return .plain name.display message.display
  | _ => return .thrown (← valueOf d)

/-- Assigns the text of a caught failure.  A variable called like the failure itself is out of
reach in the handler and keeps what it holds. -/
def assignCaught (p : Place) (result : String) (f : Fault) : Act σ Unit := do
  let text ← Act.ofExcept (caughtText f)
  if result = caughtName then return ()
  else setVariable p result (.str text)

/-- Writes a field, which may be that of a graph in a scope. -/
def assignField (p : Place) (holder : Datum) (name : String) (d : Datum) : Act σ Unit := do
  writeField p.header.isStrict holder name d
  renewScopes

/-- What an addition to a field gives; a field that counts as false counts as nought. -/
def increased (current : Value) (amount : Float) : Except Fault Value :=
  match Value.plus? (if current.isFalsy then .nat 0 else current) (.num amount) with
  | some v => .ok v
  | none => .error .noPrimitive

/-- What a word makes of a value that looks like the argument of a call: it throws it, or takes it for
what a statement that does nothing depends on. -/
def judge (word : String) (d : Datum) : Act σ Unit :=
  match word, d with
  | "throw", d => do Act.fail (← faultOf d)
  | "with", .undefined | "with", .null => Act.fail .noRecord
  | "while", d => do
    if (← valueOf d).isFalsy then return () else Act.fail .tooDeep
  | _, _ => return ()

mutual

/-- Runs a statement at a place. -/
def runStmt (rt : Runtime σ) (p : Place) : Stmt → Act σ Unit
  | .call name args => do
    if (⟨false, false, true⟩ : Manner).isStatement name then
      let ds ← rt.evalAll (p.past (Expr.callLead name)) args
      judge name (ds.getLast?.getD .undefined)
    else
      let _ ← rt.eval p (.call name args)
  | .assign name value => do
    let d ← rt.evalNamed (p.past (Stmt.assignLead name)) name name value
    setVariable p name d
  | .attempt body result => do
    setVariable p result .null
    match ← Act.outcome (runStmts rt (p.past (Stmt.attemptLead result)) body) with
    | .ok () => return ()
    | .error f => assignCaught p result f
  | .raise message => Act.fail (.error message)
  | .raiseValue value => do
    let d ← rt.eval (p.past Stmt.raiseLead) value
    Act.fail (← faultOf d)
  | .pause | .blank => return ()
  | .provide name value => do
    let holder ← getVariable p exportsName
    let d ← rt.evalNamed (p.past (Stmt.provideLead name)) "" s!"{exportsName}.{name}" value
    assignField p holder name d
  | .provideAll value => do
    let holder ← getVariable p "module"
    let d ← rt.evalNamed (p.past Stmt.provideAllLead) "" s!"module.{exportsName}" value
    assignField p holder exportsName d
  | .increase name key amount => do
    let holder ← getVariable p name
    let current ← valueOf (← readField p.header.realm holder key)
    let next ← adopt (← Act.ofExcept (increased current amount))
    assignField p holder key next

/-- Runs statements in order, the first of which stands at a place. -/
def runStmts (rt : Runtime σ) (p : Place) : List Stmt → Act σ Unit
  | [] => return ()
  | s :: rest => do
    runStmt rt p s
    runStmts rt (p.past (s.written ++ Stmt.gap)) rest

end

/-- Runs statements in order, each at its place. -/
def runBody (rt : Runtime σ) (p : Place) : List (Spot × Stmt) → Act σ Unit
  | [] => return ()
  | (spot, s) :: rest => do
    rt.runStmt { p with spot } s
    runBody rt p rest

/-! ## 6. Statements that give way -/

mutual

/-- Whether a statement may give way. -/
def givesWay : Stmt → Bool
  | .pause => true
  | .call "await" _ => true
  | .attempt body _ => anyGivesWay body
  | _ => false

/-- Whether one of several statements may give way. -/
def anyGivesWay : List Stmt → Bool
  | [] => false
  | s :: rest => givesWay s || anyGivesWay rest

end

/-- Who calls what comes after a statement: nobody that shows, if it gave way. -/
def callersAfter (s : Stmt) (callers : List (Option Frame)) : List (Option Frame) :=
  if givesWay s then [] else callers

mutual

/-- Runs a statement that may give way, as called by somebody. -/
def takeStmt (rt : Runtime σ) (callers : List (Option Frame)) (p : Place) : Stmt → Strand σ Unit
  | .pause => Strand.pause 1
  | .call "await" args => do
    let s : Stmt := .call "await" args
    Strand.inside (fun c => { c with site := callers ++ c.site }) (Strand.ofAct (rt.runStmt p s))
    Strand.pause 1
  | .attempt body result => do
    Strand.ofAct (setVariable p result .null)
    match ← Strand.outcome (takeStmts rt callers (p.past (Stmt.attemptLead result)) body) with
    | .ok () => return ()
    | .error f => Strand.ofAct (assignCaught p result f)
  | s =>
    Strand.inside (fun c => { c with site := callers ++ c.site }) (Strand.ofAct (rt.runStmt p s))

/-- Runs statements in order, the first of which stands at a place and some of which may give
way. -/
def takeStmts (rt : Runtime σ) (callers : List (Option Frame)) (p : Place) :
    List Stmt → Strand σ Unit
  | [] => return ()
  | s :: rest => do
    takeStmt rt callers p s
    takeStmts rt (callersAfter s callers) (p.past (s.written ++ Stmt.gap)) rest

end

/-- Runs statements in order, each at its place. -/
def takeBody (rt : Runtime σ) (callers : List (Option Frame)) (p : Place) :
    List (Spot × Stmt) → Strand σ Unit
  | [] => return ()
  | (spot, s) :: rest => do
    takeStmt rt callers { p with spot } s
    takeBody rt (callersAfter s callers) p rest

end Runtime

/-! ## 7. Evaluations -/

/-- How deep calls may be nested. -/
def callDepth : Nat := 1000

/-- The runtime in which thunks are nested at most to a depth. -/
def runtimeWithin (require : Requirer → Datum → Act σ Datum) : Nat → Runtime σ
  | 0 => ⟨require, fun _ _ => Act.fail .tooDeep⟩
  | depth + 1 => ⟨require, fun p e => (runtimeWithin require depth).eval p e⟩

/-- The code of a program: by what it is known, what it sees, and what it is. -/
structure Code where
  /-- The name under which it shows in stack frames. -/
  fn : Option String
  file : String
  /-- Whether its things are those of a realm of its own. -/
  ownRealm : Bool
  globals : Fields Datum
  /-- The variables of the function that it is, if it is one. -/
  parameters : Option (Fields Datum)
  program : Program

namespace Code

/-- The variables of a program at its start.  Those that it assigns are there from the start; in a
function they hide the globals. -/
def bindings (c : Code) : Fields Datum :=
  let assigned := c.program.assigned
  let isFunction := c.parameters.isSome || c.program.isAsync
  let fresh := assigned.filter fun name =>
    isFunction || ((Fields.get? c.globals name).isNone && !isProvided name)
  let globals := c.globals.filter (·.1 != selfWord)
  Fields.putAll (Fields.putAll globals (fresh.map fun name => (name, .undefined)))
    (c.parameters.getD [])

/-- The place at which a program starts, with fresh variables. -/
def enter (c : Code) : Act σ Place := do
  let realm ← if c.ownRealm then onHeap fun h => h.makeRealm else pure hostRealm
  let bindings ← makeCell (Heap.recordCell hostRealm c.bindings)
  return ⟨bindings, ⟨c.fn, c.file, realm, c.program.isStrict⟩, .start⟩

end Code

/-- **Runs a program in fresh variables.** -/
def evaluate (require : Requirer → Datum → Act σ Datum) (c : Code) : Act σ Unit := do
  let p ← c.enter
  (runtimeWithin require callDepth).runBody p c.program.body

/-- **Runs a program that may give way**, in fresh variables. -/
def evaluateTurns (require : Requirer → Datum → Act σ Datum) (c : Code) : Strand σ Unit := do
  let p ← Strand.ofAct c.enter
  if c.program.isAsync then
    let caller := { p with spot := c.program.ending }
    (runtimeWithin require callDepth).takeBody [some caller.frame] p c.program.body
  else Strand.ofAct ((runtimeWithin require callDepth).runBody p c.program.body)

end ConfGraph.Script
