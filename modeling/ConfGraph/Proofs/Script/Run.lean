import ConfGraph.Proofs.Scope.Strand
import ConfGraph.Proofs.Script.Standard
import ConfGraph.Script.Run

/-!
# What running a script is made of

A script of any text is composed of what scripts can do and of what `require` does for it, with the DSL
functions that stand in the heap.  Whatever holds of these holds of a whole run, by one induction over
the syntax and the depth of calls.

A script that gives way leaves nothing running when it ends, and run to its end it is composed in the
same way.

* `Runtime.Composed`: what a program needs from its surroundings is composed.
* `Runtime.composed_call`: calls.
* `Runtime.composed_eval`, `Runtime.composed_runStmt`: expressions and statements.
* `composed_evaluate`: whole programs.
* `Strand.Composed`, `composed_evaluateTurns`: programs that may give way.
-/

namespace ConfGraph.Script

variable {σ : Type} [HasSession σ] [HasHeap σ]
variable {P : DslFunction → Prop} {G : (α : Type) → Act σ α → Prop}

/-! ## 1. Variables -/

theorem composed_fieldsOf (id : CellId) : Composed P G (fieldsOf id : Act σ (Fields Datum)) :=
  .heap fun _ _ => .pure _

theorem composed_findVariable (p : Place) (name : String) :
    Composed P G (findVariable p name : Act σ (Option Datum)) := by
  refine .bind (composed_fieldsOf _) fun fields => ?_
  split
  · exact .pure _
  · exact .pure _
  · refine .heap fun h _ => ?_
    split
    · exact .pure _
    · exact .bind (.onHeap fun _ hh => Heap.only_obtain hh _) fun _ => .pure _

theorem composed_getVariable (p : Place) (name : String) :
    Composed P G (getVariable p name : Act σ Datum) := by
  refine .bind (composed_findVariable p name) fun d => ?_
  split
  · exact .pure _
  · exact .fail _

theorem composed_setVariable (p : Place) (name : String) (d : Datum) :
    Composed P G (setVariable p name d : Act σ Unit) := by
  refine .bind (composed_fieldsOf _) fun fields => ?_
  split
  · split
    · exact .fail _
    · exact .pure _
  · refine .onHeap fun h hh => ?_
    dsimp only
    split
    · next c hget =>
      have hc : c.body.Only P := hh _ c hget
      exact Heap.only_set hh (by exact hc) _
    · exact hh

/-! ## 2. Calls -/

theorem composed_readAttr (g ref name : Datum) : Composed P G (readAttr g ref name : Act σ Datum) :=
  .heap fun _ _ => .bind (composed_ofExcept _) fun p => .onHeap fun _ hh => Heap.only_partDatum hh p

theorem composed_argumentValues : ∀ ds : List Datum,
    Composed P G (argumentValues ds : Act σ (List Value))
  | [] => .pure _
  | d :: rest => .bind (composed_valueOf d) fun _ => .bind (composed_argumentValues rest) fun _ => .pure _

theorem composed_calledFrom {α : Type} (frame : Option Frame) {a : Act σ α} (ha : Composed P G a) :
    Composed P G (calledFrom frame a) := .inside _ ha

theorem composed_replaceContent {f : Datum → Act σ Datum} (hf : ∀ d, Composed P G (f d)) :
    Composed P G (replaceContent f) := by
  refine .bind (.session .activeScope) fun id => .bind (.session (.readScope id)) fun _ => ?_
  refine .bind (composed_contentDatum _) fun d => .bind (hf d) fun next => ?_
  exact .bind (composed_contentOf next) fun _ => .bind (.session (.overwrite _ _)) fun _ => .pure _

theorem composed_withoutReceiver (f : Family) (name : String) (args : List Datum) :
    Composed P G (withoutReceiver f name args : Act σ Datum) := by
  unfold withoutReceiver
  split
  · exact .pure _
  · exact .fail _
  · exact .pure _
  · exact .fail _

namespace Runtime

/-- What a program needs from its surroundings is composed. -/
structure Composed (P : DslFunction → Prop) (G : (α : Type) → Act σ α → Prop) (rt : Runtime σ) :
    Prop where
  require : ∀ who d, Script.Composed P G (rt.require who d)
  force : ∀ p e, Script.Composed P G (rt.force p e)

variable {rt : Runtime σ}

theorem composed_apply (hrt : rt.Composed P G) {c : Callable} (hc : c.Only P) (args : List Datum) :
    Script.Composed P G (rt.apply c args) := by
  cases c with
  | currentGraph => exact .bind (.session .currentContent) fun _ => composed_contentDatum _
  | update => exact .bind (.session .currentContent) fun _ => .fail _
  | transact =>
    refine .bind (composed_valueOf _) fun ops => .bind (composed_valueOf _) fun tempId => ?_
    exact .bind (.session (.transact ops tempId)) fun _ => composed_adopt _
  | resolveId =>
    exact .bind (composed_valueOf _) fun id => .bind (.session (.resolveId id)) fun _ =>
      composed_adopt _
  | attr => exact composed_readAttr _ _ _
  | require who => exact hrt.require who _
  | dsl f =>
    exact .bind (composed_argumentValues args) fun vs => .bind (.invoke hc vs) fun _ => composed_adopt _
  | identity => exact .pure _
  | thunk place result => exact hrt.force place result
  | method f name => exact composed_withoutReceiver f name args
  | maker f r => exact Standard.composed_make f r args
  | library s name r => exact Standard.composed_call s name r args
  | silent => exact .pure _

/-- A callable stands in the heap. -/
theorem only_of_callable? {h : Heap} (hh : h.Only P) {d : Datum} {c : Callable}
    (hc : callable? h d = some c) : c.Only P := by
  unfold callable? at hc
  split at hc
  · next id =>
    split at hc
    · next hget =>
      obtain rfl := Option.some.inj hc
      exact hh id _ hget
    · cases hc
  · cases hc

/-- **Calls** are composed. -/
theorem composed_call (hrt : rt.Composed P G) {c : Callable} (hc : c.Only P) (args : List Datum) :
    Script.Composed P G (rt.call c args) := by
  have happly := composed_apply hrt hc args
  cases c with
  | update =>
    refine composed_replaceContent fun g => .heap fun h hh => ?_
    split
    · next c hcallable =>
      exact composed_calledFrom none (composed_apply hrt (only_of_callable? hh hcallable) _)
    · exact .fail _
  | _ => exact happly

theorem composed_callNamed (hrt : rt.Composed P G) (name : String) (f : Datum) (args : List Datum) :
    Script.Composed P G (rt.callNamed name f args) := by
  refine .heap fun h hh => ?_
  split
  · exact .fail _
  · exact .fail _
  · next c _ hcallable => exact composed_call hrt (only_of_callable? hh hcallable) args

/-! ## 3. Expressions -/

theorem only_of_functionOf? {p : Place} {name label : String} {e : Expr} {c : Cell}
    (h : functionOf? p name label e = some c) : c.body.Only P := by
  cases e with
  | identity =>
    obtain rfl := Option.some.inj h
    exact trivial
  | constantly result =>
    obtain rfl := Option.some.inj h
    exact trivial
  | _ => exact nomatch h

theorem composed_anonymous (p : Place) (e : Expr) :
    Script.Composed P G (anonymous p e : Act σ Datum) := by
  unfold anonymous
  split
  · next hfunction => exact Standard.composed_newCell (only_of_functionOf? hfunction)
  · exact .pure _

mutual

/-- **Evaluating an expression** is composed. -/
theorem composed_eval (hrt : rt.Composed P G) : ∀ (e : Expr) (p : Place),
    Script.Composed P G (eval rt p e)
  | .undefined, p | .null, p | .bool _, p | .num _, p | .str _, p => by
    rw [eval]
    exact .pure _
  | .list items, p => by
    rw [eval]
    exact .bind (composed_evalAll hrt items _) fun _ => Standard.composed_newCell (by trivial)
  | .record entries, p => by
    rw [eval]
    exact .bind (composed_evalEntries hrt entries _) fun _ => Standard.composed_newCell (by trivial)
  | .variable name, p => by
    rw [eval]
    exact composed_getVariable p name
  | .field holder name, p => by
    rw [eval]
    exact .bind (composed_eval hrt holder p) fun _ => composed_readField _ _ _
  | .call name args, p => by
    have hargs : ∀ p, Script.Composed P G (evalAll rt p args) := composed_evalAll hrt args
    unfold eval
    split
    · next holder _ _ =>
      have hholder : ∀ p, Script.Composed P G (eval rt p holder) := fun p => composed_eval hrt holder p
      refine .bind (hholder _) fun _ => .bind (composed_removeField _ _ _) fun _ => ?_
      exact .bind composed_renewScopes fun _ => .pure _
    · exact .bind (composed_findVariable p _) fun _ => .pure _
    · exact .bind (composed_findVariable p _) fun _ => composed_operate _ _
    · exact .bind (hargs _) fun _ => composed_operate _ _
    · refine .bind (composed_getVariable p name) fun f => .bind (hargs _) fun ds => ?_
      exact composed_calledFrom _ (composed_callNamed hrt name f ds)
  | .identity, p => by
    rw [eval]
    exact composed_anonymous p _
  | .constantly result, p => by
    rw [eval]
    exact composed_anonymous p _

theorem composed_evalAll (hrt : rt.Composed P G) : ∀ (es : List Expr) (p : Place),
    Script.Composed P G (evalAll rt p es)
  | [], p => by
    rw [evalAll]
    exact .pure _
  | e :: rest, p => by
    rw [evalAll]
    exact .bind (composed_eval hrt e p) fun _ => .bind (composed_evalAll hrt rest _) fun _ => .pure _

theorem composed_evalEntries (hrt : rt.Composed P G) : ∀ (entries : List (String × Expr)) (p : Place),
    Script.Composed P G (evalEntries rt p entries)
  | [], p => by
    rw [evalEntries]
    exact .pure _
  | (name, e) :: rest, p => by
    have hrest : ∀ (d : Datum) (p : Place), Script.Composed P G (do
        let ds ← evalEntries rt p rest
        return (name, d) :: ds) := fun d p => .bind (composed_evalEntries hrt rest p) fun _ => .pure _
    rw [evalEntries]
    dsimp only
    split
    · next hfunction =>
      refine .bind (composed_makeCell (only_of_functionOf? hfunction)) fun _ => ?_
      exact .bind (.pure _) fun d => hrest d _
    · exact .bind (composed_eval hrt e _) fun d => hrest d _

end

theorem composed_evalNamed (hrt : rt.Composed P G) (p : Place) (name label : String) (e : Expr) :
    Script.Composed P G (rt.evalNamed p name label e) := by
  unfold evalNamed
  split
  · next hfunction => exact Standard.composed_newCell (only_of_functionOf? hfunction)
  · exact composed_eval hrt e p

/-! ## 4. Statements -/

theorem composed_faultOf (d : Datum) : Script.Composed P G (faultOf d : Act σ Fault) := by
  refine .heap fun h _ => ?_
  split
  · refine .bind (composed_readField _ _ _) fun _ => .bind (composed_valueOf _) fun _ => ?_
    exact .bind (composed_readField _ _ _) fun _ => .bind (composed_valueOf _) fun _ => .pure _
  · exact .bind (composed_valueOf _) fun _ => .pure _

theorem composed_assignCaught (p : Place) (result : String) (f : Fault) :
    Script.Composed P G (assignCaught p result f : Act σ Unit) := by
  refine .bind (composed_ofExcept _) fun text => ?_
  split
  · exact .pure _
  · exact composed_setVariable _ _ _

theorem composed_assignField (p : Place) (holder : Datum) (name : String) (d : Datum) :
    Script.Composed P G (assignField p holder name d : Act σ Unit) :=
  .bind (composed_writeField _ _ _ _) fun _ => composed_renewScopes

theorem composed_judge (word : String) (d : Datum) :
    Script.Composed P G (judge word d : Act σ Unit) := by
  unfold judge
  split
  · exact .bind (composed_faultOf _) fun _ => .fail _
  · exact .fail _
  · exact .fail _
  · refine .bind (composed_valueOf _) fun _ => ?_
    split
    · exact .pure _
    · exact .fail _
  · exact .pure _

mutual

/-- **Running a statement** is composed. -/
theorem composed_runStmt (hrt : rt.Composed P G) : ∀ (s : Stmt) (p : Place),
    Script.Composed P G (runStmt rt p s)
  | .call name args, p => by
    rw [runStmt]
    split
    · exact .bind (composed_evalAll hrt args _) fun _ => composed_judge _ _
    · exact .bind (composed_eval hrt _ p) fun _ => .pure _
  | .assign name value, p => by
    rw [runStmt]
    exact .bind (composed_evalNamed hrt _ _ _ _) fun _ => composed_setVariable _ _ _
  | .attempt body result, p => by
    rw [runStmt]
    refine .bind (composed_setVariable _ _ _) fun _ => ?_
    refine .bind (.outcome (composed_runStmts hrt body _)) fun r => ?_
    split
    · exact .pure _
    · exact composed_assignCaught _ _ _
  | .raise message, p => by
    rw [runStmt]
    exact .fail _
  | .raiseValue value, p => by
    rw [runStmt]
    exact .bind (composed_eval hrt value _) fun _ => .bind (composed_faultOf _) fun _ => .fail _
  | .pause, p | .blank, p => by
    rw [runStmt]
    exact .pure _
  | .provide name value, p => by
    rw [runStmt]
    exact .bind (composed_getVariable p _) fun _ => .bind (composed_evalNamed hrt _ _ _ _) fun _ =>
      composed_assignField _ _ _ _
  | .provideAll value, p => by
    rw [runStmt]
    exact .bind (composed_getVariable p _) fun _ => .bind (composed_evalNamed hrt _ _ _ _) fun _ =>
      composed_assignField _ _ _ _
  | .increase name key amount, p => by
    rw [runStmt]
    refine .bind (composed_getVariable p _) fun _ => .bind (composed_readField _ _ _) fun _ => ?_
    refine .bind (composed_valueOf _) fun _ => .bind (composed_ofExcept _) fun _ => ?_
    exact .bind (composed_adopt _) fun _ => composed_assignField _ _ _ _

theorem composed_runStmts (hrt : rt.Composed P G) : ∀ (body : List Stmt) (p : Place),
    Script.Composed P G (runStmts rt p body)
  | [], p => by
    rw [runStmts]
    exact .pure _
  | s :: rest, p => by
    rw [runStmts]
    exact .bind (composed_runStmt hrt s p) fun _ => composed_runStmts hrt rest _

end

theorem composed_runBody (hrt : rt.Composed P G) (p : Place) : ∀ body : List (Spot × Stmt),
    Script.Composed P G (runBody rt p body)
  | [] => .pure _
  | (_, s) :: rest => .bind (composed_runStmt hrt s _) fun _ => composed_runBody hrt p rest

end Runtime

/-! ## 5. Programs -/

/-- A runtime of any depth is composed if `require` is. -/
theorem composed_runtimeWithin {require : Requirer → Datum → Act σ Datum}
    (hrequire : ∀ who d, Composed P G (require who d)) : ∀ depth : Nat,
    (runtimeWithin require depth).Composed P G
  | 0 => ⟨hrequire, fun _ _ => .fail _⟩
  | depth + 1 =>
    ⟨hrequire, fun p e => Runtime.composed_eval (composed_runtimeWithin hrequire depth) e p⟩

theorem composed_enter (c : Code) : Composed P G (c.enter : Act σ Place) := by
  have hentered : ∀ realm : Realm, Composed P G (do
      let bindings ← makeCell (Heap.recordCell hostRealm c.bindings)
      return ⟨bindings, ⟨c.fn, c.file, realm, c.program.isStrict⟩, .start⟩ : Act σ Place) :=
    fun realm => .bind (composed_makeCell (by trivial)) fun _ => .pure _
  unfold Code.enter
  dsimp only
  split
  · exact .bind (.onHeap fun _ hh => Heap.only_makeRealm hh) fun realm => hentered realm
  · exact .bind (.pure _) fun realm => hentered realm

/-- **Running a program** is composed of what scripts can do and of what `require` does. -/
theorem composed_evaluate {require : Requirer → Datum → Act σ Datum}
    (hrequire : ∀ who d, Composed P G (require who d)) (c : Code) :
    Composed P G (evaluate require c) :=
  .bind (composed_enter c) fun p =>
    Runtime.composed_runBody (composed_runtimeWithin hrequire callDepth) p _

end ConfGraph.Script

/-! ## 6. Programs that give way -/

namespace ConfGraph.Strand

open Script

variable {σ α β : Type} [HasSession σ] [HasHeap σ]
variable {P : DslFunction → Prop} {G : (α : Type) → Act σ α → Prop}

/-- A strand that leaves nothing running when it ends, and that is composed when run to its end. -/
structure Composed (P : DslFunction → Prop) (G : (α : Type) → Act σ α → Prop) (a : Strand σ α) :
    Prop where
  sequential : a.Sequential
  exec : Script.Composed P G a.exec

theorem composed_ofAct {a : Act σ α} (ha : Script.Composed P G a) : (ofAct a).Composed P G :=
  ⟨sequential_ofAct a, ha⟩

theorem composed_pause (turns : Nat) : (pause turns : Strand σ Unit).Composed P G := by
  refine ⟨sequential_pause turns, ?_⟩
  have hexec : (pause turns : Strand σ Unit).exec = (pure () : Act σ Unit) :=
    funext fun c => funext fun s => exec_pause turns c s
  rw [hexec]
  exact .pure ()

theorem Composed.bind {a : Strand σ α} (ha : a.Composed P G) {f : α → Strand σ β}
    (hf : ∀ x, (f x).Composed P G) : (a >>= f).Composed P G := by
  refine ⟨ha.sequential.bind fun x => (hf x).sequential, ?_⟩
  have hexec : (a >>= f).exec = (a.exec >>= fun x => (f x).exec) := by
    funext c s
    have hact := Act.exec_bind c s a.exec fun x => (f x).exec
    refine (exec_bind ha.sequential f c s).trans (Eq.trans ?_ hact.symm)
    rfl
  rw [hexec]
  exact .bind ha.exec fun x => (hf x).exec

theorem Composed.outcome {a : Strand σ α} (ha : a.Composed P G) : a.outcome.Composed P G := by
  refine ⟨ha.sequential.outcome, ?_⟩
  have hexec : a.outcome.exec = Act.outcome a.exec :=
    funext fun c => funext fun s => exec_outcome ha.sequential c s
  rw [hexec]
  exact .outcome ha.exec

theorem Composed.inside {a : Strand σ α} (ha : a.Composed P G) (c : Context → Context) :
    (Strand.inside c a).Composed P G :=
  ⟨ha.sequential.inside c, .inside c ha.exec⟩

end ConfGraph.Strand

namespace ConfGraph.Script

variable {σ : Type} [HasSession σ] [HasHeap σ]
variable {P : DslFunction → Prop} {G : (α : Type) → Act σ α → Prop}

namespace Runtime

variable {rt : Runtime σ}

mutual

theorem composed_takeStmt (hrt : rt.Composed P G) (callers : List (Option Frame)) :
    ∀ (s : Stmt) (p : Place), (takeStmt rt callers p s).Composed P G := by
  intro s p
  have hplain : (Strand.inside (fun c => { c with site := callers ++ c.site })
      (Strand.ofAct (rt.runStmt p s))).Composed P G :=
    (Strand.composed_ofAct (composed_runStmt hrt s p)).inside _
  unfold takeStmt
  split
  · exact Strand.composed_pause 1
  · exact hplain.bind fun _ => Strand.composed_pause 1
  · next body result =>
    refine (Strand.composed_ofAct (composed_setVariable _ _ _)).bind fun _ => ?_
    refine (composed_takeStmts hrt callers body _).outcome.bind fun r => ?_
    split
    · exact Strand.composed_ofAct (.pure _)
    · exact Strand.composed_ofAct (composed_assignCaught _ _ _)
  · exact hplain

theorem composed_takeStmts (hrt : rt.Composed P G) (callers : List (Option Frame)) :
    ∀ (body : List Stmt) (p : Place), (takeStmts rt callers p body).Composed P G
  | [], p => by
    unfold takeStmts
    exact Strand.composed_ofAct (.pure _)
  | s :: rest, p => by
    unfold takeStmts
    exact (composed_takeStmt hrt callers s p).bind fun _ => composed_takeStmts hrt _ rest _

end

theorem composed_takeBody (hrt : rt.Composed P G) (p : Place) : ∀ (body : List (Spot × Stmt))
    (callers : List (Option Frame)), (takeBody rt callers p body).Composed P G
  | [], _ => Strand.composed_ofAct (.pure _)
  | (_, s) :: rest, callers =>
    (composed_takeStmt hrt callers s _).bind fun _ => composed_takeBody hrt p rest _

end Runtime

/-- **Running a program that may give way** is composed like running any other, and leaves nothing
running. -/
theorem composed_evaluateTurns {require : Requirer → Datum → Act σ Datum}
    (hrequire : ∀ who d, Composed P G (require who d)) (c : Code) :
    (evaluateTurns require c).Composed P G := by
  have hrt := composed_runtimeWithin hrequire callDepth
  refine (Strand.composed_ofAct (composed_enter c)).bind fun p => ?_
  dsimp only
  split
  · exact Runtime.composed_takeBody hrt p _ _
  · exact Strand.composed_ofAct (Runtime.composed_runBody hrt p _)

end ConfGraph.Script
