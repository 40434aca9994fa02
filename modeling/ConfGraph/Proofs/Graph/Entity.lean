import ConfGraph.Proofs.Graph.Step
import ConfGraph.Proofs.Value.Fields

/-!
# What the store holds

The ids of the entities are the numbers from one on, in order, without a gap: `nextId` only ever
counts on, and no step removes an entity.  Hence an id that was resolved once stays the id of an
entity, and so do the ids in the stored references and in the bound names.

* `Draft.Dense`: the ids are the numbers below `nextId`.
* `Draft.Tidy`: no entity has an attribute twice, under an empty name or under `db/id`.
* `Draft.Grounded`: every stored reference and every bound name leads to an entity.
* `Graph.Reachable.dense`, `.tidy`, `.grounded`: reachable graphs are all three.
* `references_lead_to_entities`: no reference of a reachable graph dangles.
-/

namespace ConfGraph

namespace Draft

variable {d d' : Draft}

/-! ## 1. What a step does to the entities -/

@[simp] theorem ids_setAttrs (d : Draft) (id : EntityId) (attrs : Attrs) :
    (d.setAttrs id attrs).entities.map (·.1) = d.entities.map (·.1) := by
  simp only [setAttrs, List.map_map]
  refine List.map_congr_left fun e _ => ?_
  by_cases h : e.1 = id
  · simp [h]
  · simp [h]

@[simp] theorem has_setAttrs (d : Draft) (id : EntityId) (attrs : Attrs) (n : EntityId) :
    (d.setAttrs id attrs).has n = d.has n := by
  rw [Bool.eq_iff_iff, has_iff_mem, has_iff_mem, ids_setAttrs]

/-- An entity after a write is the one that was written, or was there before. -/
theorem mem_setAttrs {id : EntityId} {attrs : Attrs} {e : EntityId × Attrs}
    (h : e ∈ (d.setAttrs id attrs).entities) :
    (e = (id, attrs) ∧ d.has id = true) ∨ (e ∈ d.entities ∧ e.1 ≠ id) := by
  obtain ⟨e', he', rfl⟩ := List.mem_map.mp h
  by_cases hid : e'.1 = id
  · refine .inl ⟨by simp [hid], has_iff_mem.mpr ?_⟩
    exact hid ▸ List.mem_map.mpr ⟨e', he', rfl⟩
  · exact .inr (by simp [hid, he'])

theorem lookup_mem {entities : List (EntityId × Attrs)} {id : EntityId} {attrs : Attrs}
    (h : entities.lookup id = some attrs) : (id, attrs) ∈ entities := by
  induction entities with
  | nil => simp at h
  | cons e rest ih =>
    rw [List.lookup_cons] at h
    by_cases he : id = e.1
    · simp only [he, beq_self_eq_true, Option.some.injEq] at h
      simp [he, ← h]
    · rw [beq_eq_false_iff_ne.mpr he] at h
      exact List.mem_cons_of_mem e (ih h)

/-- The attributes of an entity are those of some entity, or there are none. -/
theorem attrsOf_cases (d : Draft) (id : EntityId) :
    (id, d.attrsOf id) ∈ d.entities ∨ d.attrsOf id = [] := by
  unfold attrsOf
  cases h : d.entities.lookup id with
  | none => exact .inr rfl
  | some attrs => exact .inl (lookup_mem h)

/-- No step removes an entity. -/
theorem Step.has (h : Step d d') {n : EntityId} (hn : d.has n = true) : d'.has n = true := by
  cases h with
  | create =>
    rw [has_iff_mem] at hn ⊢
    simpa [fresh] using .inl (by simpa using hn)
  | createNamed name _ =>
    rw [has_iff_mem] at hn ⊢
    simpa [fresh] using .inl (by simpa using hn)
  | bind => exact hn
  | put => rwa [has_setAttrs]
  | erase => rwa [has_setAttrs]

/-- **What holds of every attribute goes on holding** if it holds of new config ids and of what is
written. -/
theorem Step.forall_attr {P : String × AttrValue → Prop} (h : Step d d')
    (before : ∀ e ∈ d.entities, ∀ f ∈ e.2, P f) (named : ∀ s, P (configId, .str s))
    (written : ∀ {id name op value}, name ≠ "" → name ≠ dbId → op.Valid →
      d.resolveValue op = .ok value → (name = configId → d.checkName id value = .ok ()) →
      P (name, value)) :
    ∀ e ∈ d'.entities, ∀ f ∈ e.2, P f := by
  have attrsOf_before : ∀ id, ∀ f ∈ d.attrsOf id, P f := by
    intro id f hf
    obtain hmem | hnone := attrsOf_cases d id
    · exact before _ hmem f hf
    · rw [hnone] at hf
      exact nomatch hf
  intro e he f hf
  cases h with
  | create =>
    rcases List.mem_append.mp he with he | he
    · exact before e he f hf
    · rw [List.mem_singleton.mp he] at hf
      exact nomatch hf
  | createNamed name _ =>
    rcases List.mem_append.mp he with he | he
    · exact before e he f hf
    · rw [List.mem_singleton.mp he] at hf
      rw [List.mem_singleton.mp hf]
      exact named name
  | bind => exact before e he f hf
  | put id name ne_empty ne_dbId op_valid is_resolved is_free =>
    obtain ⟨rfl, -⟩ | ⟨he, -⟩ := mem_setAttrs he
    · obtain rfl | ⟨hf, -⟩ := Fields.mem_put hf
      · exact written ne_empty ne_dbId op_valid is_resolved is_free
      · exact attrsOf_before id f hf
    · exact before e he f hf
  | erase id name _ =>
    obtain ⟨rfl, -⟩ | ⟨he, -⟩ := mem_setAttrs he
    · exact attrsOf_before id f (Fields.mem_erase.mp hf).1
    · exact before e he f hf

/-! ## 2. Ids without a gap -/

/-- The ids are the numbers from one up to below `nextId`, in order. -/
structure Dense (d : Draft) : Prop where
  ids : d.entities.map (·.1) = List.range' 1 d.entities.length
  nextId : d.nextId = d.entities.length + 1

theorem Dense.has_iff (h : d.Dense) {n : Nat} : d.has n = true ↔ 0 < n ∧ n < d.nextId := by
  rw [has_iff_mem, h.ids, h.nextId, List.mem_range'_1]
  omega

theorem Dense.nodup (h : d.Dense) : (d.entities.map (·.1)).Nodup := by
  rw [h.ids]
  exact List.nodup_range'

theorem Dense.fresh (h : d.Dense) (attrs : Attrs) : (d.fresh attrs).2.Dense where
  ids := by
    simp only [Draft.fresh, List.map_append, h.ids, List.length_append, List.map_cons,
      List.map_nil, List.length_cons, List.length_nil, h.nextId]
    rw [List.range'_concat, Nat.one_mul, Nat.add_comm 1]
  nextId := by simp [Draft.fresh, h.nextId]

theorem Dense.setAttrs (h : d.Dense) (id : EntityId) (attrs : Attrs) :
    (d.setAttrs id attrs).Dense where
  ids := by
    rw [ids_setAttrs, h.ids]
    simp [Draft.setAttrs]
  nextId := by simp [Draft.setAttrs, h.nextId]

theorem Step.dense (h : Step d d') (hd : d.Dense) : d'.Dense := by
  cases h with
  | create => exact hd.fresh _
  | createNamed => exact hd.fresh _
  | bind => exact ⟨hd.ids, hd.nextId⟩
  | put => exact hd.setAttrs _ _
  | erase => exact hd.setAttrs _ _

theorem Steps.dense (h : Steps d d') (hd : d.Dense) : d'.Dense :=
  invariant_of_steps (fun _ _ hx hstep => hstep.dense hx) h hd

/-! ## 3. Names of attributes -/

/-- No entity has an attribute twice, under an empty name or under the name of its id. -/
structure Tidy (d : Draft) : Prop where
  nodup : ∀ e ∈ d.entities, (Fields.names e.2).Nodup
  named : ∀ e ∈ d.entities, ∀ f ∈ e.2, f.1 ≠ "" ∧ f.1 ≠ dbId

theorem configId_named : configId ≠ "" ∧ configId ≠ dbId := by decide

theorem Tidy.dbId_not_mem (h : d.Tidy) {e : EntityId × Attrs} (he : e ∈ d.entities) :
    dbId ∉ Fields.names e.2 := by
  intro hmem
  obtain ⟨f, hf, hname⟩ := List.mem_map.mp hmem
  exact (h.named e he f hf).2 hname

theorem Tidy.nodup_attrsOf (h : d.Tidy) (id : EntityId) : (Fields.names (d.attrsOf id)).Nodup := by
  obtain hmem | hnone := attrsOf_cases d id
  · exact h.nodup _ hmem
  · rw [hnone]
    exact List.nodup_nil

theorem Tidy.nodup_setAttrs (h : d.Tidy) {id : EntityId} {attrs : Attrs}
    (hattrs : (Fields.names attrs).Nodup) :
    ∀ e ∈ (d.setAttrs id attrs).entities, (Fields.names e.2).Nodup := by
  intro e he
  obtain ⟨rfl, -⟩ | ⟨he, -⟩ := mem_setAttrs he
  · exact hattrs
  · exact h.nodup e he

theorem Step.tidy (h : Step d d') (hd : d.Tidy) : d'.Tidy where
  nodup := by
    intro e he
    cases h with
    | create =>
      rcases List.mem_append.mp he with he | he
      · exact hd.nodup e he
      · rw [List.mem_singleton.mp he]
        exact List.nodup_nil
    | createNamed name _ =>
      rcases List.mem_append.mp he with he | he
      · exact hd.nodup e he
      · rw [List.mem_singleton.mp he]
        exact List.nodup_singleton configId
    | bind => exact hd.nodup e he
    | put id name =>
      exact hd.nodup_setAttrs (Fields.nodup_put (hd.nodup_attrsOf id) name _) e he
    | erase id name _ =>
      exact hd.nodup_setAttrs (Fields.nodup_erase (hd.nodup_attrsOf id) name) e he
  named := h.forall_attr hd.named (fun _ => configId_named) fun hempty hdb _ _ _ => ⟨hempty, hdb⟩

/-! ## 4. References -/

/-- Every stored reference leads to an entity, and so does every bound name. -/
structure Grounded (d : Draft) : Prop where
  values : ∀ e ∈ d.entities, ∀ f ∈ e.2, f.2.Sound (d.has · = true)
  tempIds : ∀ b ∈ d.tempIds, d.has b.2 = true

theorem lookup_tempIds_mem {tempIds : List (String × EntityId)} {name : String} {id : EntityId}
    (h : tempIds.lookup name = some id) : (name, id) ∈ tempIds :=
  Fields.mem_of_get? h

/-- **A reference is resolved to an entity**, whichever way it names it. -/
theorem Grounded.resolve (hd : d.Grounded) {r : EntityRef} {id : EntityId}
    (h : d.resolve r = .ok id) : d.has id = true := by
  cases r with
  | id n =>
    simp only [Draft.resolve] at h
    split at h
    · next hn => exact Except.ok.inj h ▸ hn
    · exact nomatch h
  | tempId name =>
    simp only [Draft.resolve] at h
    split at h
    · next hlookup => exact Except.ok.inj h ▸ hd.tempIds _ (lookup_tempIds_mem hlookup)
    · exact nomatch h
  | lookup attr value =>
    simp only [Draft.resolve] at h
    split at h
    · next hfind => exact Except.ok.inj h ▸ has_of_findIn hfind
    · exact nomatch h

mutual

/-- **A resolved value refers to entities only**, at every depth. -/
theorem Grounded.resolveValue (hd : d.Grounded) : ∀ {op : OpValue} {a : AttrValue}, op.Valid →
    d.resolveValue op = .ok a → a.Sound (d.has · = true)
  | .str s, _, _, h => Except.ok.inj h ▸ .str s
  | .num x, _, .num finite, h => Except.ok.inj h ▸ .num finite
  | .bool b, _, _, h => Except.ok.inj h ▸ .bool b
  | .null, _, _, h => Except.ok.inj h ▸ .null
  | .list items, _, .list items_valid, h => by
    obtain ⟨as, has, rfl⟩ := Shape.map_eq_ok_iff.mp h
    exact .list (Grounded.resolveItems hd items_valid has)
  | .ref target, _, _, h => by
    obtain ⟨id, hid, rfl⟩ := Shape.map_eq_ok_iff.mp h
    exact .ref (hd.resolve hid)

theorem Grounded.resolveItems (hd : d.Grounded) : ∀ {ops : List OpValue} {as : List AttrValue},
    (∀ op ∈ ops, op.Valid) → d.resolveItems ops = .ok as → ∀ a ∈ as, a.Sound (d.has · = true)
  | [], _, _, h => by
    obtain rfl := Except.ok.inj h
    exact nofun
  | op :: rest, _, hops, h => by
    unfold Draft.resolveItems at h
    split at h
    · exact nomatch h
    · next a ha =>
      split at h
      · exact nomatch h
      · next as has =>
        obtain rfl := Except.ok.inj h
        exact List.forall_mem_cons.mpr
          ⟨Grounded.resolveValue hd (hops op List.mem_cons_self) ha,
            Grounded.resolveItems hd (fun o ho => hops o (List.mem_cons_of_mem op ho)) has⟩

end

theorem Step.grounded (h : Step d d') (hd : d.Grounded) : d'.Grounded where
  values :=
    have kept : ∀ {a : AttrValue}, a.Sound (d.has · = true) → a.Sound (d'.has · = true) :=
      fun ha => ha.mono fun _ hn => h.has hn
    h.forall_attr (fun e he f hf => kept (hd.values e he f hf)) (fun s => .str s)
      fun _ _ hop hvalue _ => kept (hd.resolveValue hop hvalue)
  tempIds := by
    cases h with
    | create => exact fun b hb => Step.create.has (hd.tempIds b hb)
    | createNamed name is_new => exact fun b hb => (Step.createNamed name is_new).has (hd.tempIds b hb)
    | bind name id is_entity =>
      intro b hb
      rcases List.mem_append.mp hb with hb | hb
      · exact hd.tempIds b hb
      · rw [List.mem_singleton.mp hb]
        exact is_entity
    | put =>
      intro b hb
      rw [has_setAttrs]
      exact hd.tempIds b hb
    | erase =>
      intro b hb
      rw [has_setAttrs]
      exact hd.tempIds b hb

theorem Steps.grounded (h : Steps d d') (hd : d.Grounded) : d'.Grounded :=
  invariant_of_steps (fun _ _ hx hstep => hstep.grounded hx) h hd

end Draft

/-! ## 5. Reachable graphs -/

namespace Graph.Reachable

variable {g : Graph}

theorem dense (h : g.Reachable) : g.finished.Dense :=
  h.invariant ⟨rfl, rfl⟩ (fun _ hg => ⟨hg.ids, hg.nextId⟩) fun _ _ hd hstep => hstep.dense hd

theorem tidy (h : g.Reachable) : g.finished.Tidy :=
  h.invariant ⟨nofun, nofun⟩ (fun _ hg => ⟨hg.nodup, hg.named⟩) fun _ _ hd hstep => hstep.tidy hd

theorem grounded (h : g.Reachable) : g.finished.Grounded :=
  h.invariant ⟨nofun, nofun⟩ (fun _ hg => ⟨hg.values, nofun⟩) fun _ _ hd hstep => hstep.grounded hd

end Graph.Reachable

/-! ## 6. No reference dangles -/

/-- **No reference dangles.**  In every reachable graph a stored value is a text, a finite number, a
truth value, `null`, a list of such values or a reference; every reference at any depth, and every
name that the latest transaction gave, leads to an entity of that graph; and ids are above zero. -/
theorem references_lead_to_entities {g : Graph} (h : g.Reachable) :
    (∀ e ∈ g.entities, ∀ f ∈ e.2, f.2.Sound fun n => 0 < n ∧ g.has n = true) ∧
      ∀ b ∈ g.tempIds, g.has b.2 = true := by
  refine ⟨fun e he f hf => ?_, h.grounded.tempIds⟩
  refine (h.grounded.values e he f hf).mono fun n hn => ⟨?_, hn⟩
  exact (h.dense.has_iff.mp hn).1

/-- Two entities that refer to each other: the first by a name that the second is only given later,
the second by a config id that the first then loses, inside a list, and by number. -/
def mutualOps : Value := .list [
  .record .host [("op", .str "create"), ("tempId", .str "left"), ("attrs", .record .host [
    ("config/id", .str "app/left"), ("peer", .record .host [("ref", .str "right")])])],
  .record .host [("op", .str "create"), ("tempId", .str "right"), ("attrs", .record .host [
    ("peers", .list [.list [.record .host [("ref", .record .host [
      ("attr", .str "config/id"), ("value", .str "app/left")])]]])])],
  .record .host [("op", .str "assert"), ("entity", .str "right"), ("attr", .str "self"),
    ("value", .record .host [("ref", .nat 2)])],
  .record .host [("op", .str "retract"), ("entity", .nat 1), ("attr", .str "config/id")]]

/-- What `mutualOps` makes of the empty graph. -/
def mutualGraph : Graph where
  basisTx := 1
  nextId := 3
  entities := [
    (1, [("peer", .ref 2)]),
    (2, [("peers", .list [.list [.ref 1]]), ("self", .ref 2)])]
  tempIds := [("left", 1), ("right", 2)]
  transactions := [⟨1, 4, .null⟩]

theorem mutualGraph_reachable : mutualGraph.Reachable :=
  @Graph.Reachable.step Graph.empty mutualGraph mutualOps .null .empty rfl

theorem references_of_mutualGraph :
    mutualGraph.Reachable ∧
      AttrValue.Sound (fun n => 0 < n ∧ mutualGraph.has n = true) (.list [.list [.ref 1]]) :=
  ⟨mutualGraph_reachable,
    (references_lead_to_entities mutualGraph_reachable).1
      (2, [("peers", .list [.list [.ref 1]]), ("self", .ref 2)]) (by simp [mutualGraph])
      ("peers", .list [.list [.ref 1]]) (by simp)⟩

end ConfGraph
