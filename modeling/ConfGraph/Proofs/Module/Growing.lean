import ConfGraph.Proofs.Dsl.Orderly
import ConfGraph.Proofs.Module.Loading

/-!
# Loading modules lets graphs grow

Whatever modules and plain files do while they are evaluated, and however they require each other, the
graphs in scopes grow, as long as the DSL functions are orderly and nothing is changed by hand.

* `KeepsGrowth`: acts that let graphs grow.
* `keepsGrowth_requireWithin`: requiring, to any depth.
* `keepsGrowth_load`: a whole load.
-/

namespace ConfGraph.Module

open Script

/-- The graphs of the session grow. -/
def Grown (s s' : State) : Prop := s.session.Growth s'.session

/-- **Scripts let graphs grow** if DSL functions are orderly. -/
theorem tolerant_grown : Tolerant DslFunction.Orderly Grown where
  refl s := Session.growth_refl s.session
  trans h h' := Session.Growth.trans h h'
  heap s _ := Session.growth_refl s.session
  session ha c s := ha.growing c s.session
  invoke hf args c s := hf.growing args c s.session

/-- An act lets graphs grow, and the DSL functions in the heap stay orderly. -/
abbrev KeepsGrowth {α : Type} (a : Act State α) : Prop := Keeps DslFunction.Orderly Grown a

variable {α : Type}

/-- Acts that leave session and heap alone. -/
theorem keepsGrowth_of_same {a : Act State α} (ha : ∀ c s,
    (a.exec c s).2.session = s.session ∧ (a.exec c s).2.heap = s.heap) : KeepsGrowth a := by
  intro c s hs
  obtain ⟨hsession, hheap⟩ := ha c s
  have honly : (a.exec c s).2.heap.Only DslFunction.Orderly := by
    rw [hheap]
    exact hs
  refine ⟨honly, ?_⟩
  unfold Grown
  rw [hsession]
  exact Session.growth_refl _

theorem keepsGrowth_note (e : Log.Event) : KeepsGrowth (onSession (Session.note e)) :=
  fun c s hs => ⟨hs, Session.growing_note e c s.session⟩

theorem KeepsGrowth.of_composed {a : Act State α}
    (ha : Composed DslFunction.Orderly (fun _ a => KeepsGrowth a) a) : KeepsGrowth a :=
  ha.keeps tolerant_grown fun _ _ h => h

theorem surroundings_grown : Surroundings fun _ a => KeepsGrowth a where
  rememberedPlain? _ := keepsGrowth_of_same fun _ _ => ⟨rfl, rfl⟩
  changePlain _ := keepsGrowth_of_same fun _ _ => ⟨rfl, rfl⟩
  listed _ := keepsGrowth_of_same fun _ _ => ⟨rfl, rfl⟩

/-! ## 1. Requiring -/

section Globals

variable {globals : Fields Global} (hglobals : OnlyGlobals DslFunction.Orderly globals)
include hglobals

theorem keepsGrowth_moduleObject {require : Require}
    (hrequire : ∀ who d, KeepsGrowth (require who d)) (d : Disk) (listing : Nat) (m : Listed) :
    KeepsGrowth (moduleObject require d globals listing m) := by
  have hwithCache : ∀ (isConfig : Bool) (f : Cache → Cache) (x : Moment) (s : State),
      ((s.withCache isConfig f).noting x).session = s.session ∧
        ((s.withCache isConfig f).noting x).heap = s.heap := by
    intro isConfig f x s
    cases isConfig <;> exact ⟨rfl, rfl⟩
  refine KeepsGrowth.of_composed
    (composed_moduleObject (fun who d => .given (hrequire who d)) hglobals ?_ d listing)
  exact {
    remembered? := keepsGrowth_of_same fun _ _ => ⟨rfl, rfl⟩
    remember := fun _ => keepsGrowth_of_same fun _ s => hwithCache _ _ _ s
    started := keepsGrowth_note _
    keep := fun _ => keepsGrowth_of_same fun _ _ => ⟨rfl, rfl⟩
    forget := fun _ => keepsGrowth_of_same fun _ s => hwithCache _ _ _ s }

theorem keepsGrowth_evaluateModule {require : Require}
    (hrequire : ∀ who d, KeepsGrowth (require who d)) (d : Disk) (listing : Nat) (m : Listed) :
    KeepsGrowth (evaluateModule require d globals listing m) :=
  KeepsGrowth.of_composed
    (composed_evaluateModule (.given (keepsGrowth_moduleObject hglobals hrequire d listing m)))

/-- **Requiring lets graphs grow**, to any depth. -/
theorem keepsGrowth_requireWithin (d : Disk) : ∀ (depth : Nat) (who : Requirer) (specifier : Datum),
    KeepsGrowth (requireWithin d globals depth who specifier)
  | 0, _, _ => KeepsGrowth.of_composed (.fail _)
  | depth + 1, who, specifier => by
    have hrequire := keepsGrowth_requireWithin d depth
    exact KeepsGrowth.of_composed (composed_requireStep
      (fun who spec => .given (hrequire who spec)) surroundings_grown
      (fun number path spec m => composed_requireListed
        (.given (keepsGrowth_moduleObject hglobals hrequire d number m))
        (fun _ => keepsGrowth_of_same fun _ _ => ⟨rfl, rfl⟩) path spec)
      who specifier)

/-! ## 2. Loading -/

omit hglobals in
theorem keepsGrowth_unload (id : String) : KeepsGrowth (unload id) := by
  intro c s hs
  have hstate : (Act.state : Act State State).exec c s = (.ok s, s) := rfl
  unfold unload
  rw [Act.exec_bind_of_ok hstate]
  split
  · exact ⟨hs, Session.growing_note _ c s.session⟩
  · split
    · exact ⟨hs, Session.growing_note _ c s.session⟩
    · exact ⟨hs, Session.growth_refl _⟩

omit hglobals in
theorem keepsGrowth_unloadAll : ∀ ids : List String, KeepsGrowth (unloadAll ids)
  | [] => tolerant_grown.keeps_of_state fun _ _ => rfl
  | id :: rest =>
    Keeps.bind tolerant_grown (keepsGrowth_unload id) fun _ => keepsGrowth_unloadAll rest

/-- **A load lets graphs grow.** -/
theorem keepsGrowth_load (d : Disk) (listing : Except Fault (List Listed)) (id : String) :
    KeepsGrowth (load d globals listing id) := by
  refine Keeps.bind tolerant_grown (tolerant_grown.keeps_of_state fun _ _ => rfl) fun all => ?_
  split
  · exact tolerant_grown.keeps_of_state fun _ _ => rfl
  · split
    · refine Keeps.bind tolerant_grown (tolerant_grown.keeps_of_state fun _ _ => rfl) fun s => ?_
      refine Keeps.bind tolerant_grown (keepsGrowth_unloadAll _) fun _ => ?_
      refine Keeps.bind tolerant_grown (keepsGrowth_note _) fun _ => ?_
      refine Keeps.bind tolerant_grown (keepsGrowth_of_same fun _ _ => ⟨rfl, rfl⟩) fun number => ?_
      refine Keeps.bind tolerant_grown (tolerant_grown.keeps_of_state fun _ _ => rfl) fun s => ?_
      exact keepsGrowth_evaluateModule hglobals
        (fun who spec => keepsGrowth_requireWithin hglobals d _ who spec) d number _
    · exact tolerant_grown.keeps_of_state fun _ _ => rfl

end Globals

end ConfGraph.Module
