import ConfGraph.Module.Loader
import ConfGraph.Proofs.Script.Keeping
import ConfGraph.Proofs.Script.Run

/-!
# What requiring is made of

The text of a module, listed or plain, runs like any script.  Beside that, requiring looks up what is
remembered and what is listed, and evaluates modules.

* `composed_runText`, `composed_runPlain`: the text of a module.
* `Surroundings`, `Evaluating`: the acts with which modules are looked up and evaluated.
* `composed_moduleObject`, `composed_evaluateModule`, `composed_requireListed`: one evaluation, and
  what is made of its module object.
* `composed_requireStep`: one level of requiring, given the next.
-/

namespace ConfGraph.Module

open Script

instance : LawfulState State := ⟨fun _ _ => rfl, fun _ _ => rfl⟩

variable {P : DslFunction → Prop} {G : (α : Type) → Act State α → Prop}

/-! ## 1. Texts -/

theorem composed_exportsOf (cell : CellId) : Composed P G (exportsOf cell) :=
  composed_readField _ _ _

theorem composed_makeModule : Composed P G makeModule :=
  .bind (composed_makeCell (by trivial)) fun _ => .bind (composed_makeCell (by trivial)) fun _ => .pure _

theorem composed_makeRequire (name : String) (who : Requirer) :
    Composed P G (makeRequire name who) := composed_makeCell (by trivial)

/-- All DSL functions among globals have a property. -/
def OnlyGlobals (P : DslFunction → Prop) (globals : Fields Global) : Prop :=
  ∀ g ∈ globals, g.2.Only P

theorem onlyGlobals_console : OnlyGlobals P [("console", .console)] := by
  intro g hg
  obtain rfl := List.mem_singleton.mp hg
  exact trivial

theorem composed_makeGlobals {globals : Fields Global} (hglobals : OnlyGlobals P globals) :
    Composed P G (makeGlobals globals) :=
  .onHeap fun h hh => Heap.only_globalData globals hglobals h hh

variable {require : Require} (hrequire : ∀ who d, Composed P G (require who d))
include hrequire

/-- **The text of a listed module** runs like any script. -/
theorem composed_runText (d : Disk) {globals : Fields Global} (hglobals : OnlyGlobals P globals)
    (listing : Nat) (m : Listed) (exports : Datum) (cell : CellId) :
    Composed P G (runText require d globals listing m exports cell) := by
  refine .bind (composed_ofExcept _) fun text => .bind (composed_ofExcept _) fun program => ?_
  refine .bind (composed_makeGlobals hglobals) fun _ => .bind (composed_makeRequire _ _) fun _ => ?_
  exact composed_evaluate hrequire _

/-- **The text of a plain file** runs like any script. -/
theorem composed_runPlain (d : Disk) (path : String) (exports : Datum) (cell : CellId) :
    Composed P G (runPlain require d path exports cell) := by
  refine .bind (composed_ofExcept _) fun text => ?_
  split
  · split
    · exact .fail _
    · exact .bind (composed_adopt _) fun _ => composed_writeField _ _ _ _
  · refine .bind (composed_ofExcept _) fun program => ?_
    refine .bind (composed_makeGlobals onlyGlobals_console) fun _ => ?_
    exact .bind (composed_makeRequire _ _) fun _ => composed_evaluate hrequire _

/-! ## 2. Evaluating -/

/-- The acts with which the evaluation of a module is told are given. -/
structure Evaluating (G : (α : Type) → Act State α → Prop) (m : Listed) : Prop where
  remembered? : G _ (remembered? m)
  remember : ∀ cell, G _ (remember m cell)
  started : G _ (onSession (Session.note (.moduleStarted m.id)))
  keep : ∀ e, G _ (keep e)
  forget : ∀ e, G _ (forget e)

/-- **One evaluation** is composed of these acts and of what its text does. -/
theorem composed_moduleObject {globals : Fields Global} (hglobals : OnlyGlobals P globals)
    {m : Listed} (hG : Evaluating G m) (d : Disk) (listing : Nat) :
    Composed P G (moduleObject require d globals listing m) := by
  refine .bind (.given hG.remembered?) fun known => ?_
  cases known with
  | some cell => exact .pure cell
  | none =>
    refine .bind composed_makeModule fun made => .bind (.given (hG.remember made.2)) fun e => ?_
    refine .bind (.given hG.started) fun _ => ?_
    refine .bind (.outcome (composed_runText hrequire d hglobals listing m made.1 made.2)) fun r => ?_
    cases r with
    | ok _ => exact .bind (.given (hG.keep e)) fun _ => .pure _
    | error f => exact .bind (.given (hG.forget e)) fun _ => .fail f

omit hrequire in
theorem composed_evaluateModule {globals : Fields Global} {m : Listed} {d : Disk} {listing : Nat}
    (hmodule : Composed P G (moduleObject require d globals listing m)) :
    Composed P G (evaluateModule require d globals listing m) :=
  .bind hmodule fun _ => composed_exportsOf _

omit hrequire in
theorem composed_requireListed {globals : Fields Global} {m : Listed} {d : Disk} {listing : Nat}
    (hmodule : Composed P G (moduleObject require d globals listing m))
    (hserve : ∀ x, G _ (serve x)) (path specifier : String) :
    Composed P G (requireListed require d globals listing path specifier m) :=
  .bind hmodule fun _ => .bind (.given (hserve _)) fun _ => composed_exportsOf _

/-! ## 3. Requiring -/

/-- The acts with which modules are looked up are given. -/
structure Surroundings (G : (α : Type) → Act State α → Prop) : Prop where
  rememberedPlain? : ∀ path, G _ (rememberedPlain? path)
  changePlain : ∀ f, G _ (changePlain f)
  listed : ∀ number, G _ (listed number)

omit hrequire in
theorem composed_throughHost {α : Type} (calls : Nat) {a : Act State α} (ha : Composed P G a) :
    Composed P G (throughHost calls a) := .inside _ ha

variable (hG : Surroundings G)
include hG

theorem composed_evaluatePlain (d : Disk) (path : String) :
    Composed P G (evaluatePlain require d path) := by
  refine .bind (.given (hG.rememberedPlain? path)) fun known => ?_
  cases known with
  | some cell => exact composed_exportsOf cell
  | none =>
    refine .bind composed_makeModule fun made => .bind (.given (hG.changePlain _)) fun _ => ?_
    refine .bind (.outcome (composed_runPlain hrequire d path made.1 made.2)) fun r => ?_
    cases r with
    | ok _ => exact composed_exportsOf _
    | error f => exact .bind (.given (hG.changePlain _)) fun _ => .fail f

theorem composed_requirePlain (d : Disk) (path : String) (specifier : Datum) :
    Composed P G (requirePlain require d path specifier) := by
  unfold requirePlain
  split
  · exact .fail _
  · split
    · exact composed_throughHost _ (composed_evaluatePlain hrequire hG d _)
    · exact .fail _
  · exact .fail _

/-- **One level of requiring** is composed of the next one and of evaluations. -/
theorem composed_requireStep {d : Disk} {globals : Fields Global}
    (hlisted : ∀ number path spec m,
      Composed P G (requireListed require d globals number path spec m))
    (who : Requirer) (specifier : Datum) :
    Composed P G (requireStep require d globals who specifier) := by
  unfold requireStep
  split
  · exact composed_requirePlain hrequire hG d _ _
  · refine .bind (.given (hG.listed _)) fun all => ?_
    split
    · exact composed_throughHost _ (hlisted _ _ _ _)
    · exact composed_requirePlain hrequire hG d _ _
  · exact .fail _
  · exact .fail _
  · exact .fail _

end ConfGraph.Module
