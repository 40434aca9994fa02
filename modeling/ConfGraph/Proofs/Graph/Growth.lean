import ConfGraph.Proofs.Graph.Step

/-!
# Growth by batches

A graph grows into another one if some batches, applied one after the other, make the other one of it.
Nothing is lost in between: neither records of the log nor entities.

* `Graph.applyAll`: batches one after the other.
* `Graph.Grows`: what batches make of a graph.
* `Graph.Grows.transactions_prefix`, `Graph.Grows.entity_stays`, `Graph.Grows.reachable`: what stays.
-/

namespace ConfGraph

namespace Graph

/-- **Applies batches one after the other**, each in the name of somebody. -/
def applyAll (g : Graph) : List (Value × Value) → Except Fault Graph
  | [] => .ok g
  | (ops, provenance) :: rest =>
    match g.applyOps ops provenance with
    | .error f => .error f
    | .ok next => applyAll (next.getD g) rest

/-- A graph is what some batches, all successful, make of another one. -/
def Grows (g g' : Graph) : Prop := ∃ batches, g.applyAll batches = .ok g'

variable {g g' g'' : Graph}

theorem applyAll_append : ∀ (xs ys : List (Value × Value)) (g : Graph),
    g.applyAll (xs ++ ys) =
      match g.applyAll xs with
      | .error f => .error f
      | .ok g' => g'.applyAll ys
  | [], _, _ => rfl
  | (ops, provenance) :: rest, ys, g => by
    simp only [List.cons_append, applyAll]
    cases g.applyOps ops provenance with
    | error f => rfl
    | ok next => exact applyAll_append rest ys _

theorem grows_refl (g : Graph) : g.Grows g := ⟨[], rfl⟩

theorem Grows.trans (h : g.Grows g') (h' : g'.Grows g'') : g.Grows g'' := by
  obtain ⟨xs, hxs⟩ := h
  obtain ⟨ys, hys⟩ := h'
  exact ⟨xs ++ ys, by rw [applyAll_append, hxs]; exact hys⟩

theorem grows_of_applyOps {ops provenance : Value} {next : Option Graph}
    (h : g.applyOps ops provenance = .ok next) : g.Grows (next.getD g) :=
  ⟨[(ops, provenance)], by simp only [applyAll, h]⟩

/-- What every batch that makes a new graph keeps is kept by growing. -/
theorem Grows.induction {R : Graph → Graph → Prop} (refl : ∀ g, R g g)
    (trans : ∀ g g' g'', R g g' → R g' g'' → R g g'')
    (step : ∀ g g' ops provenance, g.applyOps ops provenance = .ok (some g') → R g g')
    (h : g.Grows g') : R g g' := by
  obtain ⟨batches, hbatches⟩ := h
  induction batches generalizing g with
  | nil =>
    obtain rfl := Except.ok.inj hbatches
    exact refl g
  | cons batch rest ih =>
    obtain ⟨ops, provenance⟩ := batch
    simp only [applyAll] at hbatches
    cases happly : g.applyOps ops provenance with
    | error f =>
      rw [happly] at hbatches
      exact nomatch hbatches
    | ok next =>
      rw [happly] at hbatches
      cases next with
      | none => exact ih hbatches
      | some g₁ => exact trans g g₁ g' (step g g₁ ops provenance happly) (ih hbatches)

/-- **No record of the log is lost** or changed. -/
theorem Grows.transactions_prefix (h : g.Grows g') : g.transactions <+: g'.transactions := by
  refine h.induction (R := fun g g' => g.transactions <+: g'.transactions)
    (fun g => List.prefix_rfl) (fun _ _ _ h h' => h.trans h') fun g g' ops provenance happly => ?_
  obtain ⟨_, -, -, d, -, rfl⟩ := applyOps_eq_some happly
  exact List.prefix_append _ _

end Graph

namespace Draft

/-- No step takes an entity away. -/
theorem Step.entity_stays {d d' : Draft} (h : Draft.Step d d') {id : EntityId}
    (hid : id ∈ d.entities.map (·.1)) : id ∈ d'.entities.map (·.1) := by
  have hset : ∀ (id' : EntityId) (attrs : Attrs),
      (d.setAttrs id' attrs).entities.map (·.1) = d.entities.map (·.1) := by
    intro id' attrs
    simp only [setAttrs, List.map_map]
    refine List.map_congr_left fun e _ => ?_
    by_cases he : e.1 = id' <;> simp [he]
  have hfresh : ∀ attrs : Attrs, id ∈ (d.fresh attrs).2.entities.map (·.1) := by
    intro attrs
    simp only [fresh, List.map_append]
    exact List.mem_append_left _ hid
  cases h with
  | create => exact hfresh _
  | createNamed name is_new => exact hfresh _
  | bind name id' is_entity => exact hid
  | put id' name _ _ _ _ _ =>
    rw [hset]
    exact hid
  | erase id' name _ =>
    rw [hset]
    exact hid

end Draft

namespace Graph

variable {g g' : Graph}

/-- The ids of the entities of a graph. -/
def entityIds (g : Graph) : List EntityId := g.entities.map (·.1)

/-- **No entity is lost.** -/
theorem Grows.entity_stays (h : g.Grows g') : ∀ id ∈ g.entityIds, id ∈ g'.entityIds := by
  refine h.induction (R := fun g g' => ∀ id ∈ g.entityIds, id ∈ g'.entityIds)
    (fun _ _ hid => hid) (fun _ _ _ h h' id hid => h' id (h id hid)) fun g g' _ _ happly id hid => ?_
  exact Draft.invariant_of_steps (I := fun d => id ∈ d.entities.map Prod.fst)
    (fun _ _ hid hstep => hstep.entity_stays hid) (steps_of_applyOps happly) hid

/-- **What grows out of a reachable graph is reachable.** -/
theorem Grows.reachable (h : g.Grows g') (hg : g.Reachable) : g'.Reachable := by
  exact h.induction (R := fun g g' => g.Reachable → g'.Reachable) (fun _ hg => hg)
    (fun _ _ _ h h' hg => h' (h hg)) (fun _ _ _ _ happly hg => hg.step happly) hg

end Graph

end ConfGraph
