import ConfGraph.Proofs.Graph.Naming
import ConfGraph.Proofs.Graph.Written

/-!
# A create leaves an entity with its config id

A create that gives a config id is given the entity that has it, or a new one that has it from the
start.  What the second pass then writes for the create leaves config ids alone, so once the batch is
through, the name is found.

* `Draft.name?`: the config id of an entity within a transaction.
* `Draft.name?_allocate`: the entity of a create has the config id that the create gives.
* `Draft.name?_fill`: filling in the attributes of a create keeps every config id.
* `Graph.find_of_create`: after a batch of one such create its config id is found.
-/

namespace ConfGraph

namespace Draft

variable {d d' : Draft}

/-! ## 1. Config ids within a transaction -/

/-- The config id of an entity. -/
def name? (d : Draft) (id : EntityId) : Option AttrValue := Fields.get? (d.attrsOf id) configId

theorem lookup_setAttrs (entities : List (EntityId × Attrs)) (id : EntityId) (attrs : Attrs)
    (e : EntityId) :
    (entities.map fun f => if f.1 = id then (id, attrs) else f).lookup e
      = if e = id then (entities.lookup id).map (fun _ => attrs) else entities.lookup e := by
  induction entities with
  | nil => simp
  | cons f rest ih =>
    rw [List.map_cons, List.lookup_cons, List.lookup_cons, List.lookup_cons, ih]
    by_cases hf : f.1 = id
    · by_cases he : e = id
      · simp [hf, he]
      · simp [hf, he, beq_eq_false_iff_ne.mpr he]
    · by_cases he : e = id
      · have hid : (id == f.1) = false := beq_eq_false_iff_ne.mpr (Ne.symm hf)
        simp [hf, he, hid]
      · simp [hf, he]

/-- After a write an entity has what was written if it is the one that was written. -/
theorem attrsOf_setAttrs (d : Draft) (id : EntityId) (attrs : Attrs) (e : EntityId) :
    (d.setAttrs id attrs).attrsOf e = if e = id ∧ d.has id = true then attrs else d.attrsOf e := by
  unfold attrsOf setAttrs has
  rw [lookup_setAttrs]
  by_cases he : e = id
  · cases hlookup : d.entities.lookup id with
    | none => simp [he, hlookup]
    | some old => simp [he]
  · simp [he]

/-- A write of another attribute keeps every config id. -/
theorem name?_write {id : EntityId} {name : String} {value : AttrValue}
    (h : d.write id name value = .ok d') (hname : name ≠ configId) (e : EntityId) :
    d'.name? e = d.name? e := by
  unfold write at h
  split at h
  · exact nomatch h
  · obtain rfl := Except.ok.inj h
    unfold name?
    rw [attrsOf_setAttrs]
    split
    · next hid =>
      rw [Fields.get?_put, if_neg (Ne.symm hname), hid.1]
    · rfl

/-- **Filling in the attributes of a create keeps every config id**: its own is skipped. -/
theorem name?_fill {attrs : Fields OpValue} {id : EntityId} {d : Draft}
    (h : d.fill id attrs = .ok d') (e : EntityId) : d'.name? e = d.name? e := by
  induction attrs generalizing d with
  | nil =>
    obtain rfl := Except.ok.inj h
    rfl
  | cons f rest ih =>
    unfold fill at h
    split at h
    · exact ih h
    · next hname =>
      obtain ⟨value, -, h⟩ := bind_eq_ok h
      obtain ⟨d₁, hwrite, h⟩ := bind_eq_ok h
      rw [ih h, name?_write hwrite hname]

/-! ## 2. The entity of a create -/

theorem Dense.attrsOf_of_mem (h : d.Dense) {id : EntityId} {attrs : Attrs}
    (hmem : (id, attrs) ∈ d.entities) : d.attrsOf id = attrs := by
  have hhas : (d.entities.lookup id).isSome = true :=
    lookup_isSome_iff.mpr (List.mem_map.mpr ⟨_, hmem, rfl⟩)
  obtain ⟨found, hlookup⟩ := Option.isSome_iff_exists.mp hhas
  have hsame := List.inj_on_of_nodup_map h.nodup hmem (lookup_mem hlookup) rfl
  unfold attrsOf
  rw [hlookup, ← (Prod.mk.inj hsame).2]
  rfl

/-- A create with a config id is placed at an entity that has it. -/
theorem name?_place (hdense : d.Dense) (hnamed : d.Named) (name : String) :
    (d.place (some name)).2.name? (d.place (some name)).1 = some (.str name) := by
  cases hfind : findIn d.entities configId (.str name) with
  | some id =>
    have hplace : d.place (some name) = (id, d) := by simp [place, hfind]
    obtain ⟨attrs, hmem, hget⟩ := hnamed.findIn_eq_some_iff.mp hfind
    rw [hplace, name?, hdense.attrsOf_of_mem hmem]
    exact hget
  | none =>
    have hplace : d.place (some name) = d.fresh [(configId, .str name)] := by
      simp [place, hfind]
    have hmem : (d.nextId, [(configId, AttrValue.str name)])
        ∈ (d.fresh [(configId, .str name)]).2.entities := by simp [fresh]
    have hattrs := (hdense.fresh [(configId, .str name)]).attrsOf_of_mem hmem
    have hid : (d.fresh [(configId, .str name)]).1 = d.nextId := rfl
    rw [hplace, name?, hid, hattrs]
    simp [Fields.get?_cons]

/-- Binding a name leaves the entities alone. -/
theorem entities_bind {name : String} {id : EntityId} (h : d.bind name id = .ok d') :
    d'.entities = d.entities := by
  unfold bind at h
  split at h
  · obtain rfl := Except.ok.inj h
    rfl
  · split at h
    · obtain rfl := Except.ok.inj h
      rfl
    · exact nomatch h

/-- **The entity of a create has the config id that the create gives.** -/
theorem name?_allocate (hdense : d.Dense) (hnamed : d.Named) {tempId : Option String}
    {attrs : Fields OpValue} {name : String} {id : EntityId}
    (hgiven : Fields.get? attrs configId = some (.str name))
    (h : d.allocate tempId attrs = .ok (id, d')) : d'.name? id = some (.str name) := by
  have hname : givenName attrs = .ok (some name) := by simp [givenName, hgiven]
  have hplace := name?_place hdense hnamed name
  unfold allocate at h
  split at h
  · exact nomatch h
  · rw [hname, ok_bind] at h
    cases tempId with
    | none =>
      obtain ⟨rfl, rfl⟩ := Prod.mk.inj (Except.ok.inj h)
      exact hplace
    | some t =>
      obtain ⟨bound, hbind, h⟩ := bind_eq_ok h
      obtain ⟨rfl, rfl⟩ := Prod.mk.inj (Except.ok.inj h)
      unfold name? attrsOf at hplace ⊢
      rw [entities_bind hbind]
      exact hplace

end Draft

/-! ## 3. Batches of one create -/

namespace Graph

variable {g g' : Graph}

/-- Typed ops that fit into a batch that somebody could hand over make a reachable graph. -/
theorem Reachable.of_transact (h : g.Reachable) {ops : List TxOp} {provenance : Value}
    (hops : ∀ op ∈ ops, op.Valid) (hcount : ops.length < Number.smallBound)
    (htransact : g.transact ops provenance = .ok g') : g'.Reachable := by
  cases ops with
  | nil =>
    obtain rfl := Except.ok.inj htransact
    exact h
  | cons op rest =>
    have happly : g.applyOps (.list ((op :: rest).map TxOp.toValue)) provenance = .ok (some g') := by
      unfold applyOps
      rw [ofValue_toValue hops hcount]
      simp only [htransact]
    exact .step h happly

/-- **After a create with a config id the config id is found.** -/
theorem find_of_create (h : g.Reachable) {tempId : Option String} {attrs : Fields OpValue}
    {name : String} {provenance : Value} (hop : (TxOp.create tempId attrs).Valid)
    (hgiven : Fields.get? attrs configId = some (.str name))
    (htransact : g.transact [.create tempId attrs] provenance = .ok g') :
    ∃ id, g'.find configId (.str name) = some id := by
  have one_lt : 1 < Number.smallBound := by decide
  have hreachable : g'.Reachable :=
    h.of_transact (List.forall_mem_singleton.mpr hop) one_lt htransact
  have hdense : g.draft.Dense := ⟨h.dense.ids, h.dense.nextId⟩
  have hnamed : g.draft.Named := ⟨h.named.texts, h.named.unique⟩
  unfold transact Draft.run at htransact
  rw [if_neg (by simp)] at htransact
  cases halloc : g.draft.allocate tempId attrs with
  | error c =>
    simp [Draft.prepareAll, Draft.prepare, halloc, bind, Except.bind] at htransact
  | ok placed =>
    obtain ⟨id, d⟩ := placed
    have hname := Draft.name?_allocate hdense hnamed hgiven halloc
    cases hfill : d.fill id attrs with
    | error c =>
      simp [Draft.prepareAll, Draft.prepare, Draft.performAll, Draft.perform, halloc, hfill,
        Draft.ok_bind] at htransact
    | ok filled =>
      have hg' : g.commit filled 1 provenance = g' := by
        simpa [Draft.prepareAll, Draft.prepare, Draft.performAll, Draft.perform, halloc, hfill,
          Draft.ok_bind] using htransact
      subst hg'
      have hkept : filled.name? id = some (.str name) := by rw [Draft.name?_fill hfill, hname]
      have hmem : (id, filled.attrsOf id) ∈ filled.entities := by
        obtain hmem | hnone := Draft.attrsOf_cases filled id
        · exact hmem
        · rw [Draft.name?, hnone] at hkept
          exact nomatch hkept
      exact ⟨id, hreachable.named.findIn_eq_some_iff.mpr ⟨_, hmem, hkept⟩⟩

end Graph

end ConfGraph
