import ConfGraph.Proofs.Graph.Schema
import Mathlib.Logic.Relation

/-!
# Transactions step by step

Whatever ops a batch holds and in whatever order, it changes its draft in five ways only: a new
entity without attributes, a new entity with a config id that nobody has, a name bound to an entity,
one attribute written, one attribute removed.  So an invariant of the store is five short cases, and
none of them looks at the passes of a transaction again.

* `Draft.Step`: the five ways.
* `Draft.steps_of_run`: a batch that is applied takes steps only.
* `Graph.Reachable`: the graphs that batches make of the empty one.
* `Graph.Reachable.invariant`: what every step keeps holds of every reachable graph.
-/

namespace ConfGraph

namespace Draft

variable {d d' : Draft}

/-! ## 1. Steps -/

/-- One change of a draft. -/
inductive Step (d : Draft) : Draft → Prop
  /-- A create without a config id makes an entity. -/
  | create : Step d (d.fresh []).2
  /-- A create with a config id that no entity has makes an entity with it. -/
  | createNamed (name : String) (is_new : findIn d.entities configId (.str name) = none) :
    Step d (d.fresh [(configId, .str name)]).2
  /-- A create binds its name to its entity. -/
  | bind (name : String) (id : EntityId) (is_entity : d.has id = true) :
    Step d { d with tempIds := d.tempIds ++ [(name, id)] }
  /-- An attribute is written: a valid value, its references resolved. -/
  | put (id : EntityId) (name : String) {op : OpValue} {value : AttrValue}
    (ne_empty : name ≠ "") (ne_dbId : name ≠ dbId) (op_valid : op.Valid)
    (is_resolved : d.resolveValue op = .ok value)
    (is_free : name = configId → d.checkName id value = .ok ()) :
    Step d (d.setAttrs id (Fields.put (d.attrsOf id) name value))
  /-- An attribute is removed. -/
  | erase (id : EntityId) (name : String) (ne_dbId : name ≠ dbId) :
    Step d (d.setAttrs id (Fields.erase (d.attrsOf id) name))

/-- Any number of changes. -/
abbrev Steps : Draft → Draft → Prop := Relation.ReflTransGen Step

/-- What every step keeps, any number of steps keeps. -/
theorem invariant_of_steps {I : Draft → Prop} (keep : ∀ d d', I d → Step d d' → I d')
    (h : Steps d d') (hd : I d) : I d' := by
  induction h with
  | refl => exact hd
  | tail _ hstep hbefore => exact keep _ _ hbefore hstep

theorem bind_eq_ok {ε α β : Type} {r : Except ε α} {f : α → Except ε β} {b : β}
    (h : (r >>= f) = .ok b) : ∃ a, r = .ok a ∧ f a = .ok b := by
  cases r with
  | error e => exact nomatch h
  | ok a => exact ⟨a, rfl, h⟩

theorem ok_bind {ε α β : Type} (a : α) (f : α → Except ε β) : (Except.ok a >>= f) = f a := rfl

/-! ## 2. Ids that stay -/

theorem lookup_isSome_iff {entities : List (EntityId × Attrs)} {id : EntityId} :
    (entities.lookup id).isSome = true ↔ id ∈ entities.map (·.1) := by
  induction entities with
  | nil => simp
  | cons e rest ih =>
    rw [List.lookup_cons, List.map_cons, List.mem_cons]
    by_cases h : id = e.1
    · simp [h]
    · simp [h, beq_eq_false_iff_ne.mpr h, ih]

theorem has_iff_mem {id : EntityId} : d.has id = true ↔ id ∈ d.entities.map (·.1) :=
  lookup_isSome_iff

theorem findIn_mem {entities : List (EntityId × Attrs)} {name : String} {value : Value}
    {id : EntityId} (h : findIn entities name value = some id) :
    ∃ attrs, (id, attrs) ∈ entities ∧ matchesSearch name value attrs = true := by
  obtain ⟨e, he, rfl⟩ := Option.map_eq_some_iff.mp h
  exact ⟨e.2, List.mem_of_find?_eq_some he,
    List.find?_some (p := fun e : EntityId × Attrs => matchesSearch name value e.2) he⟩

theorem has_of_findIn {name : String} {value : Value} {id : EntityId}
    (h : findIn d.entities name value = some id) : d.has id = true := by
  obtain ⟨attrs, hmem, -⟩ := findIn_mem h
  exact has_iff_mem.mpr (List.mem_map.mpr ⟨_, hmem, rfl⟩)

theorem has_fresh (d : Draft) (attrs : Attrs) : (d.fresh attrs).2.has d.nextId = true :=
  has_iff_mem.mpr (by simp [fresh])

/-! ## 3. First pass -/

/-- The entity of a create is there once it is placed, and nothing else but steps has happened. -/
theorem steps_of_place (d : Draft) (name : Option String) :
    Steps d (d.place name).2 ∧ (d.place name).2.has (d.place name).1 = true := by
  cases name with
  | none => exact ⟨.single .create, has_fresh d []⟩
  | some name =>
    cases hfind : findIn d.entities configId (.str name) with
    | none =>
      have hplace : d.place (some name) = d.fresh [(configId, .str name)] := by
        simp [place, hfind]
      rw [hplace]
      exact ⟨.single (.createNamed name hfind), has_fresh d _⟩
    | some id =>
      have hplace : d.place (some name) = (id, d) := by simp [place, hfind]
      rw [hplace]
      exact ⟨.refl, has_of_findIn hfind⟩

theorem steps_of_bind {name : String} {id : EntityId} (hid : d.has id = true)
    (h : d.bind name id = .ok d') : Steps d d' := by
  unfold bind at h
  split at h
  · obtain rfl := Except.ok.inj h
    exact .single (.bind name id hid)
  · split at h
    · obtain rfl := Except.ok.inj h
      exact .refl
    · exact nomatch h

theorem steps_of_allocate {tempId : Option String} {attrs : Fields OpValue} {id : EntityId}
    (h : d.allocate tempId attrs = .ok (id, d')) : Steps d d' := by
  unfold allocate at h
  split at h
  · exact nomatch h
  · obtain ⟨name, -, h⟩ := bind_eq_ok h
    obtain ⟨hsteps, hhas⟩ := steps_of_place d name
    cases tempId with
    | none =>
      obtain ⟨-, rfl⟩ := Prod.mk.inj (Except.ok.inj h)
      exact hsteps
    | some t =>
      obtain ⟨bound, hbind, h⟩ := bind_eq_ok h
      obtain ⟨-, rfl⟩ := Prod.mk.inj (Except.ok.inj h)
      exact hsteps.trans (steps_of_bind hhas hbind)

/-- What reading guarantees of an op whose creates have their entities. -/
def Task.Valid : Task → Prop
  | .fill _ attrs => ∀ f ∈ attrs, f.1 ≠ "" ∧ f.2.Valid
  | .assert entity attr value => entity.Valid ∧ attr ≠ "" ∧ value.Valid
  | .retract entity attr => entity.Valid ∧ attr ≠ ""

theorem steps_of_prepare {op : TxOp} {task : Task} (hop : op.Valid)
    (h : d.prepare op = .ok (task, d')) : Steps d d' ∧ task.Valid := by
  cases op with
  | create tempId attrs =>
    obtain ⟨⟨id, d₁⟩, halloc, h⟩ := bind_eq_ok h
    obtain ⟨rfl, rfl⟩ := Prod.mk.inj (Except.ok.inj h)
    exact ⟨steps_of_allocate halloc, fun f hf => (hop.2 f hf).2⟩
  | assert entity attr value =>
    obtain ⟨rfl, rfl⟩ := Prod.mk.inj (Except.ok.inj h)
    exact ⟨.refl, hop⟩
  | retract entity attr =>
    obtain ⟨rfl, rfl⟩ := Prod.mk.inj (Except.ok.inj h)
    exact ⟨.refl, hop⟩

theorem steps_of_prepareAll {ops : List TxOp} {index : Nat} {d d' : Draft} {tasks : List Task}
    (hops : ∀ op ∈ ops, op.Valid) (h : prepareAll index d ops = .ok (tasks, d')) :
    Steps d d' ∧ ∀ task ∈ tasks, task.Valid := by
  induction ops generalizing index d tasks with
  | nil =>
    obtain ⟨rfl, rfl⟩ := Prod.mk.inj (Except.ok.inj h)
    exact ⟨.refl, nofun⟩
  | cons op rest ih =>
    unfold prepareAll at h
    split at h
    · exact nomatch h
    · next task d₁ hfirst =>
      split at h
      · exact nomatch h
      · next tasks' d₂ hrest =>
        obtain ⟨rfl, rfl⟩ := Prod.mk.inj (Except.ok.inj h)
        obtain ⟨hsteps, htask⟩ := steps_of_prepare (hops op List.mem_cons_self) hfirst
        obtain ⟨hsteps', htasks⟩ := ih (fun o ho => hops o (List.mem_cons_of_mem op ho)) hrest
        exact ⟨hsteps.trans hsteps', List.forall_mem_cons.mpr ⟨htask, htasks⟩⟩

/-! ## 4. Second pass -/

theorem step_of_write {id : EntityId} {name : String} {op : OpValue} {value : AttrValue}
    (hname : name ≠ "") (hop : op.Valid) (hvalue : d.resolveValue op = .ok value)
    (h : d.write id name value = .ok d') : Step d d' := by
  unfold write at h
  split at h
  · exact nomatch h
  · next hdb =>
    by_cases hconfig : name = configId
    · rw [if_pos hconfig] at h
      obtain ⟨u, hcheck, h⟩ := bind_eq_ok h
      obtain rfl := Except.ok.inj h
      exact .put id name hname hdb hop hvalue fun _ => hcheck
    · rw [if_neg hconfig] at h
      obtain rfl := Except.ok.inj h
      exact .put id name hname hdb hop hvalue fun hc => absurd hc hconfig

theorem steps_of_fill {attrs : Fields OpValue} {d : Draft} {id : EntityId}
    (hattrs : ∀ f ∈ attrs, f.1 ≠ "" ∧ f.2.Valid) (h : d.fill id attrs = .ok d') : Steps d d' := by
  induction attrs generalizing d with
  | nil =>
    obtain rfl := Except.ok.inj h
    exact .refl
  | cons f rest ih =>
    have hrest : ∀ g ∈ rest, g.1 ≠ "" ∧ g.2.Valid :=
      fun g hg => hattrs g (List.mem_cons_of_mem f hg)
    unfold fill at h
    split at h
    · exact ih hrest h
    · obtain ⟨value, hvalue, h⟩ := bind_eq_ok h
      obtain ⟨d₁, hwrite, h⟩ := bind_eq_ok h
      obtain ⟨hname, hvalid⟩ := hattrs f List.mem_cons_self
      exact .head (step_of_write hname hvalid hvalue hwrite) (ih hrest h)

theorem steps_of_perform {task : Task} (htask : task.Valid) (h : d.perform task = .ok d') :
    Steps d d' := by
  cases task with
  | fill id attrs => exact steps_of_fill htask h
  | assert entity attr value =>
    obtain ⟨id, -, h⟩ := bind_eq_ok h
    obtain ⟨a, hvalue, h⟩ := bind_eq_ok h
    exact .single (step_of_write htask.2.1 htask.2.2 hvalue h)
  | retract entity attr =>
    obtain ⟨id, -, h⟩ := bind_eq_ok h
    unfold remove at h
    split at h
    · exact nomatch h
    · next hdb =>
      obtain rfl := Except.ok.inj h
      exact .single (.erase id attr hdb)

theorem steps_of_performAll {tasks : List Task} {index : Nat} {d : Draft}
    (htasks : ∀ task ∈ tasks, task.Valid) (h : performAll index d tasks = .ok d') :
    Steps d d' := by
  induction tasks generalizing index d with
  | nil =>
    obtain rfl := Except.ok.inj h
    exact .refl
  | cons task rest ih =>
    unfold performAll at h
    split at h
    · exact nomatch h
    · next d₁ hfirst =>
      have hsteps := steps_of_perform (htasks task List.mem_cons_self) hfirst
      exact hsteps.trans (ih (fun t ht => htasks t (List.mem_cons_of_mem task ht)) h)

/-- **A batch that is applied takes steps only.** -/
theorem steps_of_run {ops : List TxOp} (hops : ∀ op ∈ ops, op.Valid) (h : d.run ops = .ok d') :
    Steps d d' := by
  unfold run at h
  split at h
  · exact nomatch h
  · next tasks d₁ hprepare =>
    obtain ⟨hsteps, htasks⟩ := steps_of_prepareAll hops hprepare
    exact hsteps.trans (steps_of_performAll htasks h)

end Draft

/-! ## 5. Reachable graphs -/

namespace Graph

/-- The graphs that successful batches make of the empty one, whatever they hold and whoever
contributes them.  A batch that leaves the graph the very same makes no new one. -/
inductive Reachable : Graph → Prop
  | empty : Reachable Graph.empty
  | step {g g' : Graph} {ops provenance : Value} (reachable : Reachable g)
    (applied : g.applyOps ops provenance = .ok (some g')) : Reachable g'

/-- A graph as the draft in which its latest transaction ended. -/
def finished (g : Graph) : Draft := ⟨g.entities, g.tempIds, g.nextId⟩

/-- What a batch does when it makes a new graph. -/
theorem applyOps_eq_some {g g' : Graph} {ops provenance : Value}
    (h : g.applyOps ops provenance = .ok (some g')) :
    ∃ txOps, Batch.ofValue ops = .ok txOps ∧ txOps ≠ [] ∧
      ∃ d, g.draft.run txOps = .ok d ∧ g' = g.commit d txOps.length provenance := by
  unfold applyOps at h
  split at h
  · exact nomatch h
  · exact nomatch h
  · next txOps hne hread =>
    split at h
    · exact nomatch h
    · next g₁ htx =>
      obtain rfl := Option.some.inj (Except.ok.inj h)
      have hops : txOps ≠ [] := by
        rintro rfl
        exact hne rfl
      refine ⟨txOps, hread, hops, ?_⟩
      rw [transact, if_neg (by simpa using hops)] at htx
      split at htx
      · exact nomatch htx
      · next d hrun => exact ⟨d, hrun, (Except.ok.inj htx).symm⟩

/-- A batch that is read, is not empty and goes through makes a new graph. -/
theorem applyOps_of_run {g : Graph} {ops provenance : Value} {txOps : List TxOp} {d : Draft}
    (hread : Batch.ofValue ops = .ok txOps) (hne : txOps ≠ []) (hrun : g.draft.run txOps = .ok d) :
    g.applyOps ops provenance = .ok (some (g.commit d txOps.length provenance)) := by
  cases txOps with
  | nil => exact absurd rfl hne
  | cons op rest =>
    have htransact : g.transact (op :: rest) provenance
        = .ok (g.commit d (op :: rest).length provenance) := by
      unfold transact
      simp only [List.isEmpty_cons, Bool.false_eq_true, if_false, hrun]
    unfold applyOps
    simp only [hread, htransact]

/-- A transaction starts from the graph it finds, without its names, and takes steps only. -/
theorem steps_of_applyOps {g g' : Graph} {ops provenance : Value}
    (h : g.applyOps ops provenance = .ok (some g')) : Draft.Steps g.draft g'.finished := by
  obtain ⟨txOps, hread, -, d, hrun, rfl⟩ := applyOps_eq_some h
  exact Draft.steps_of_run (valid_of_ofValue hread) hrun

/-- **What every step keeps holds of every reachable graph**, if it holds at the start and does not
depend on the names of earlier transactions. -/
theorem Reachable.invariant {I : Draft → Prop} (start : I Graph.empty.finished)
    (forget : ∀ g : Graph, I g.finished → I g.draft)
    (keep : ∀ d d', I d → Draft.Step d d' → I d') {g : Graph} (h : g.Reachable) :
    I g.finished := by
  induction h with
  | empty => exact start
  | @step g g' _ _ _ applied ih =>
    exact Draft.invariant_of_steps keep (steps_of_applyOps applied) (forget g ih)

end Graph

end ConfGraph
