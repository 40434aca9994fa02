import ConfGraph.Proofs.Graph.Create
import ConfGraph.Proofs.Graph.Journal

/-!
# One batch or many

A batch gives every create its entity before any op writes.  So each op finds more in a batch than it
finds when the ops are applied one at a time: the entities of later creates, still without their
attributes, and the names bound to them.  They all stand behind the entities that the op is meant to
see, and a search stops at the first hit; so whatever is found without them is found with them.

* `Draft.Ahead`: a draft that has more to show, behind what another one has.
* `Draft.Ahead.perform`: what an op does without the later entities, it does with them.
* `Draft.prepare_alike`: which entity a create is given depends on ids and config ids alone.
* `Draft.Beside`: the draft of a first pass, beside the ops applied one at a time.
* `Graph.passes_of_singles`: the induction over the ops.
* `one_batch_for_many`: one batch makes the entities that batches of one op each make.
-/

namespace ConfGraph

/-- The name that an op gives to an entity. -/
def TxOp.tempId? : TxOp → Option String
  | .create tempId _ => tempId
  | .assert .. => none
  | .retract .. => none

/-- Neither is a config id asserted nor retracted.  A create may give one. -/
def TxOp.LeavesConfigIds : TxOp → Prop
  | .create .. => True
  | .assert _ attr _ => attr ≠ configId
  | .retract _ attr => attr ≠ configId

instance : ∀ op : TxOp, Decidable op.LeavesConfigIds
  | .create .. => inferInstanceAs (Decidable True)
  | .assert _ attr _ => inferInstanceAs (Decidable (attr ≠ configId))
  | .retract _ attr => inferInstanceAs (Decidable (attr ≠ configId))

/-- What has been found is found with anything behind it. -/
theorem findIn_append {entities : List (EntityId × Attrs)} {name : String} {value : Value}
    {id : EntityId} (h : findIn entities name value = some id) (pending : List (EntityId × Attrs)) :
    findIn (entities ++ pending) name value = some id := by
  obtain ⟨e, he, rfl⟩ := Option.map_eq_some_iff.mp h
  unfold findIn
  rw [List.find?_append, he]
  rfl

namespace Draft

variable {pending : List (EntityId × Attrs)} {d d' b : Draft}

/-! ## 1. Second pass: drafts that are ahead -/

/-- Every attribute but the config id is written unseen, if it may be written at all. -/
theorem write_eq_ok_iff {id : EntityId} {name : String} {value : AttrValue}
    (hname : name ≠ configId) : d.write id name value = .ok d' ↔
      name ≠ dbId ∧ d.setAttrs id (Fields.put (d.attrsOf id) name value) = d' := by
  unfold write
  by_cases hdb : name = dbId
  · simp [hdb]
  · simp [hdb, hname]

theorem remove_eq_ok_iff {id : EntityId} {name : String} : d.remove id name = .ok d' ↔
    name ≠ dbId ∧ d.setAttrs id (Fields.erase (d.attrsOf id) name) = d' := by
  unfold remove
  by_cases hdb : name = dbId
  · simp [hdb]
  · simp [hdb]

/-- A draft has the entities of another one and others behind them, and knows the names that the
other one knows. -/
structure Ahead (pending : List (EntityId × Attrs)) (d b : Draft) : Prop where
  entities : b.entities = d.entities ++ pending
  apart : ∀ e ∈ pending, d.has e.1 = false
  tempIds : ∀ name id, d.tempIds.lookup name = some id → b.tempIds.lookup name = some id

namespace Ahead

theorem lookup (h : Ahead pending d b) {id : EntityId} (hid : d.has id = true) :
    b.entities.lookup id = d.entities.lookup id := by
  obtain ⟨attrs, hattrs⟩ := Option.isSome_iff_exists.mp hid
  rw [h.entities, List.lookup_append, hattrs]
  rfl

theorem has (h : Ahead pending d b) {id : EntityId} (hid : d.has id = true) : b.has id = true := by
  unfold Draft.has at hid ⊢
  rw [h.lookup hid]
  exact hid

theorem attrsOf (h : Ahead pending d b) {id : EntityId} (hid : d.has id = true) :
    b.attrsOf id = d.attrsOf id := by
  unfold Draft.attrsOf
  rw [h.lookup hid]

/-- A write to an entity that both have leaves the later ones alone. -/
theorem setAttrs (h : Ahead pending d b) {id : EntityId} (hid : d.has id = true) (attrs : Attrs) :
    Ahead pending (d.setAttrs id attrs) (b.setAttrs id attrs) where
  entities := by
    have hkept : pending.map (fun e => if e.1 = id then (id, attrs) else e) = pending := by
      refine (List.map_congr_left fun e he => ?_).trans (List.map_id pending)
      have hne : e.1 ≠ id := by
        rintro rfl
        rw [h.apart e he] at hid
        exact nomatch hid
      rw [if_neg hne]
      rfl
    simp only [Draft.setAttrs, h.entities, List.map_append, hkept]
  apart e he := by
    rw [has_setAttrs]
    exact h.apart e he
  tempIds := h.tempIds

/-- **What a reference names, it names ahead as well.** -/
theorem resolve (h : Ahead pending d b) {r : EntityRef} {id : EntityId}
    (hr : d.resolve r = .ok id) : b.resolve r = .ok id := by
  cases r with
  | id n =>
    simp only [Draft.resolve] at hr ⊢
    split at hr
    · next hn => rw [if_pos (h.has hn), hr]
    · cases hr
  | tempId name =>
    simp only [Draft.resolve] at hr ⊢
    split at hr
    · next hlookup =>
      rw [h.tempIds _ _ hlookup]
      exact hr
    · cases hr
  | lookup attr value =>
    simp only [Draft.resolve] at hr ⊢
    split at hr
    · next hfind =>
      rw [h.entities, findIn_append hfind]
      exact hr
    · cases hr

mutual

theorem resolveValue (h : Ahead pending d b) : ∀ {op : OpValue} {a : AttrValue},
    d.resolveValue op = .ok a → b.resolveValue op = .ok a
  | .str _, _, ha => ha
  | .num _, _, ha => ha
  | .bool _, _, ha => ha
  | .null, _, ha => ha
  | .list items, _, ha => by
    obtain ⟨as, has, rfl⟩ := Shape.map_eq_ok_iff.mp ha
    exact Shape.map_eq_ok_iff.mpr ⟨as, Ahead.resolveItems h has, rfl⟩
  | .ref target, _, ha => by
    obtain ⟨id, hid, rfl⟩ := Shape.map_eq_ok_iff.mp ha
    exact Shape.map_eq_ok_iff.mpr ⟨id, h.resolve hid, rfl⟩

theorem resolveItems (h : Ahead pending d b) : ∀ {ops : List OpValue} {as : List AttrValue},
    d.resolveItems ops = .ok as → b.resolveItems ops = .ok as
  | [], _, has => has
  | op :: rest, _, has => by
    unfold Draft.resolveItems at has
    split at has
    · exact nomatch has
    · next a ha =>
      split at has
      · exact nomatch has
      · next as' has' =>
        obtain rfl := Except.ok.inj has
        rw [Draft.resolveItems, Ahead.resolveValue h ha, Ahead.resolveItems h has']

end

theorem write (h : Ahead pending d b) {id : EntityId} {name : String} {value : AttrValue}
    (hid : d.has id = true) (hname : name ≠ configId) (hwrite : d.write id name value = .ok d') :
    ∃ b', b.write id name value = .ok b' ∧ Ahead pending d' b' := by
  obtain ⟨hdb, rfl⟩ := (write_eq_ok_iff hname).mp hwrite
  refine ⟨_, (write_eq_ok_iff hname).mpr ⟨hdb, rfl⟩, ?_⟩
  rw [h.attrsOf hid]
  exact h.setAttrs hid _

theorem fill (h : Ahead pending d b) {id : EntityId} {attrs : Fields OpValue}
    (hid : d.has id = true) (hfill : d.fill id attrs = .ok d') :
    ∃ b', b.fill id attrs = .ok b' ∧ Ahead pending d' b' := by
  induction attrs generalizing d b with
  | nil =>
    obtain rfl := Except.ok.inj hfill
    exact ⟨b, rfl, h⟩
  | cons f rest ih =>
    unfold Draft.fill at hfill ⊢
    by_cases hname : f.1 = configId
    · rw [if_pos hname] at hfill ⊢
      exact ih h hid hfill
    · rw [if_neg hname] at hfill ⊢
      obtain ⟨value, hvalue, hfill⟩ := bind_eq_ok hfill
      obtain ⟨d₁, hwrite, hfill⟩ := bind_eq_ok hfill
      obtain ⟨b₁, hwrite', h₁⟩ := h.write hid hname hwrite
      rw [h.resolveValue hvalue, ok_bind, hwrite', ok_bind]
      obtain ⟨-, rfl⟩ := (write_eq_ok_iff hname).mp hwrite
      exact ih h₁ ((has_setAttrs d id _ id).trans hid) hfill

end Ahead

/-- What is known of an op once its creates have their entities: that of a create is there, and no
config id is written or removed. -/
def Task.Tame (d : Draft) : Task → Prop
  | .fill id _ => d.has id = true
  | .assert _ attr _ => attr ≠ configId
  | .retract _ attr => attr ≠ configId

theorem Ahead.tame (h : Ahead pending d b) {task : Task} (htask : task.Tame d) : task.Tame b := by
  cases task with
  | fill id attrs => exact h.has htask
  | assert entity attr value => exact htask
  | retract entity attr => exact htask

/-- **What an op does without the later entities, it does with them.** -/
theorem Ahead.perform (h : Ahead pending d b) (hd : d.Grounded) {task : Task} (htask : task.Tame d)
    (hperform : d.perform task = .ok d') :
    ∃ b', b.perform task = .ok b' ∧ Ahead pending d' b' := by
  cases task with
  | fill id attrs => exact h.fill htask hperform
  | assert entity attr value =>
    obtain ⟨id, hid, hperform⟩ := bind_eq_ok hperform
    obtain ⟨a, ha, hwrite⟩ := bind_eq_ok hperform
    simp only [Draft.perform, h.resolve hid, h.resolveValue ha, ok_bind]
    exact h.write (hd.resolve hid) htask hwrite
  | retract entity attr =>
    obtain ⟨id, hid, hremove⟩ := bind_eq_ok hperform
    obtain ⟨hdb, rfl⟩ := remove_eq_ok_iff.mp hremove
    have hhas := hd.resolve hid
    simp only [Draft.perform, h.resolve hid, ok_bind]
    refine ⟨_, remove_eq_ok_iff.mpr ⟨hdb, rfl⟩, ?_⟩
    rw [h.attrsOf hhas]
    exact h.setAttrs hhas _

/-! ## 2. What the second pass leaves alone -/

/-- The ids of entities, each with the config id of its entity. -/
def configIds (entities : List (EntityId × Attrs)) : List (EntityId × Option AttrValue) :=
  entities.map fun e => (e.1, Fields.get? e.2 configId)

/-- What every write and every removal of another attribute keeps, an op keeps. -/
theorem perform_induction {P : Draft → Prop}
    (put : ∀ (d : Draft) id name value, name ≠ configId → P d →
      P (d.setAttrs id (Fields.put (d.attrsOf id) name value)))
    (erase : ∀ (d : Draft) id name, name ≠ configId → P d →
      P (d.setAttrs id (Fields.erase (d.attrsOf id) name)))
    {task : Task} (htask : task.Tame d) (h : d.perform task = .ok d') (hd : P d) : P d' := by
  cases task with
  | fill id attrs =>
    change d.fill id attrs = .ok d' at h
    clear htask
    induction attrs generalizing d with
    | nil =>
      obtain rfl := Except.ok.inj h
      exact hd
    | cons f rest ih =>
      unfold fill at h
      split at h
      · exact ih hd h
      · next hname =>
        obtain ⟨value, -, h⟩ := bind_eq_ok h
        obtain ⟨d₁, hwrite, h⟩ := bind_eq_ok h
        obtain ⟨-, rfl⟩ := (write_eq_ok_iff hname).mp hwrite
        exact ih (put d id f.1 value hname hd) h
  | assert entity attr value =>
    obtain ⟨id, -, h⟩ := bind_eq_ok h
    obtain ⟨a, -, hwrite⟩ := bind_eq_ok h
    obtain ⟨-, rfl⟩ := (write_eq_ok_iff htask).mp hwrite
    exact put d id attr a htask hd
  | retract entity attr =>
    obtain ⟨id, -, hremove⟩ := bind_eq_ok h
    obtain ⟨-, rfl⟩ := remove_eq_ok_iff.mp hremove
    exact erase d id attr htask hd

/-- No op of the second pass binds a name or makes an entity. -/
theorem names_of_perform {task : Task} (htask : task.Tame d) (h : d.perform task = .ok d') :
    d'.tempIds = d.tempIds ∧ d'.nextId = d.nextId :=
  perform_induction (P := fun x => x.tempIds = d.tempIds ∧ x.nextId = d.nextId)
    (fun _ _ _ _ _ hx => hx) (fun _ _ _ _ hx => hx) htask h ⟨rfl, rfl⟩

theorem configIds_setAttrs (hd : d.Dense) {id : EntityId} {attrs : Attrs}
    (h : Fields.get? attrs configId = Fields.get? (d.attrsOf id) configId) :
    configIds (d.setAttrs id attrs).entities = configIds d.entities := by
  simp only [configIds, setAttrs, List.map_map]
  refine List.map_congr_left fun e he => ?_
  by_cases hid : e.1 = id
  · subst hid
    rw [hd.attrsOf_of_mem he] at h
    simp [h]
  · simp [hid]

/-- **Config ids stay** if no op asserts or retracts one. -/
theorem configIds_of_perform {task : Task} (htask : task.Tame d) (hd : d.Dense)
    (h : d.perform task = .ok d') : configIds d'.entities = configIds d.entities := by
  refine (perform_induction (P := fun x => x.Dense ∧ configIds x.entities = configIds d.entities)
    ?_ ?_ htask h ⟨hd, rfl⟩).2
  · intro x id name value hname hx
    refine ⟨hx.1.setAttrs id _, (configIds_setAttrs hx.1 ?_).trans hx.2⟩
    exact Fields.get?_put_of_ne _ value (Ne.symm hname)
  · intro x id name hname hx
    refine ⟨hx.1.setAttrs id _, (configIds_setAttrs hx.1 ?_).trans hx.2⟩
    exact Fields.get?_erase_of_ne _ (Ne.symm hname)

/-! ## 3. First pass -/

/-- The search for a config id is decided by ids and config ids. -/
theorem findIn_configId {es es' : List (EntityId × Attrs)} (h : configIds es = configIds es')
    (value : Value) : findIn es configId value = findIn es' configId value := by
  have by_configIds : ∀ es : List (EntityId × Attrs), findIn es configId value
      = ((configIds es).find? fun s =>
          (s.2.map fun a => a.toValue.canonical) == some value.canonical).map (·.1) := by
    intro es
    unfold configIds findIn
    rw [List.find?_map, Option.map_map]
    congr 2
    funext e
    unfold matchesSearch searchText
    cases hget : Fields.get? e.2 configId with
    | none => simp [hget, inheritedText_configId]
    | some a => simp [hget]
  rw [by_configIds, by_configIds, h]

/-- **Which entity a create is given** depends on the next id, the ids and the config ids alone. -/
theorem place_alike {a d : Draft} (hids : configIds a.entities = configIds d.entities)
    (hnext : a.nextId = d.nextId) (name : Option String) :
    ∃ id added nextId,
      d.place name = (id, { d with entities := d.entities ++ added, nextId := nextId }) ∧
      a.place name = (id, { a with entities := a.entities ++ added, nextId := nextId }) := by
  have fresh_alike : ∀ attrs, ∃ id added nextId,
      d.fresh attrs = (id, { d with entities := d.entities ++ added, nextId := nextId }) ∧
      a.fresh attrs = (id, { a with entities := a.entities ++ added, nextId := nextId }) := by
    intro attrs
    refine ⟨d.nextId, [(d.nextId, attrs)], d.nextId + 1, rfl, ?_⟩
    unfold fresh
    rw [hnext]
  cases name with
  | none => exact fresh_alike []
  | some name =>
    unfold place
    simp only [findIn_configId hids]
    cases findIn d.entities configId (.str name) with
    | none => exact fresh_alike _
    | some id => exact ⟨id, [], d.nextId, by simp, by simp [← hnext]⟩

/-- A free name is bound behind all others. -/
theorem bind_of_free {name : String} (hfree : d.tempIds.lookup name = none) (id : EntityId) :
    d.bind name id = .ok { d with tempIds := d.tempIds ++ [(name, id)] } := by
  unfold Draft.bind
  rw [hfree]

theorem allocate_alike {a d : Draft} {tempId : Option String} {attrs : Fields OpValue}
    {id : EntityId} (hids : configIds a.entities = configIds d.entities)
    (hnext : a.nextId = d.nextId) (hnone : d.tempIds = [])
    (hfree : ∀ t ∈ tempId, a.tempIds.lookup t = none)
    (h : d.allocate tempId attrs = .ok (id, d')) :
    ∃ added, d'.entities = d.entities ++ added ∧
      a.allocate tempId attrs
        = .ok (id, ⟨a.entities ++ added, a.tempIds ++ d'.tempIds, d'.nextId⟩) ∧
      ∀ b ∈ d'.tempIds, b.1 ∈ tempId := by
  unfold allocate at h
  split at h
  · exact nomatch h
  · next hdb =>
    obtain ⟨name, hname, h⟩ := bind_eq_ok h
    obtain ⟨placed, added, nextId, hplace, hplace'⟩ := place_alike hids hnext name
    simp only [hplace] at h
    simp only [allocate, if_neg hdb, hname, ok_bind, hplace']
    cases tempId with
    | none =>
      obtain ⟨rfl, rfl⟩ := Prod.mk.inj (Except.ok.inj h)
      refine ⟨added, rfl, ?_, ?_⟩
      · simp [hnone]
      · simp [hnone]
    | some t =>
      obtain ⟨bound, hbind, h⟩ := bind_eq_ok h
      rw [bind_of_free (by rw [hnone]; rfl)] at hbind
      obtain rfl := Except.ok.inj hbind
      obtain ⟨rfl, rfl⟩ := Prod.mk.inj (Except.ok.inj h)
      refine ⟨added, rfl, ?_, ?_⟩
      · have hbind' := bind_of_free
          (d := { a with entities := a.entities ++ added, nextId := nextId }) (hfree t rfl) placed
        simp only [hbind', ok_bind, hnone, List.nil_append]
      · simp [hnone]

/-- **The first pass over an op adds the same** to every draft of the same config ids, if the op's
own name is still free. -/
theorem prepare_alike {a d : Draft} {op : TxOp} {task : Task}
    (hids : configIds a.entities = configIds d.entities) (hnext : a.nextId = d.nextId)
    (hnone : d.tempIds = []) (hfree : ∀ t ∈ op.tempId?, a.tempIds.lookup t = none)
    (h : d.prepare op = .ok (task, d')) :
    ∃ added, d'.entities = d.entities ++ added ∧
      a.prepare op = .ok (task, ⟨a.entities ++ added, a.tempIds ++ d'.tempIds, d'.nextId⟩) ∧
      ∀ b ∈ d'.tempIds, b.1 ∈ op.tempId? := by
  have nothing_added : d = d' → ∃ added, d'.entities = d.entities ++ added ∧
      a = ⟨a.entities ++ added, a.tempIds ++ d'.tempIds, d'.nextId⟩ ∧
      ∀ b ∈ d'.tempIds, b.1 ∈ op.tempId? := by
    rintro rfl
    refine ⟨[], (List.append_nil _).symm, ?_, ?_⟩
    · rw [hnone, List.append_nil, List.append_nil, ← hnext]
    · rw [hnone]
      exact nofun
  cases op with
  | create tempId attrs =>
    obtain ⟨⟨id, d₁⟩, halloc, h⟩ := bind_eq_ok h
    obtain ⟨rfl, rfl⟩ := Prod.mk.inj (Except.ok.inj h)
    change ∀ t ∈ tempId, a.tempIds.lookup t = none at hfree
    obtain ⟨added, hadded, halloc', hbound⟩ := allocate_alike hids hnext hnone hfree halloc
    refine ⟨added, hadded, ?_, hbound⟩
    simp only [prepare, halloc', ok_bind]
  | assert entity attr value =>
    obtain ⟨rfl, hd⟩ := Prod.mk.inj (Except.ok.inj h)
    obtain ⟨added, hadded, ha, hbound⟩ := nothing_added hd
    exact ⟨added, hadded, congrArg Except.ok (Prod.mk.injEq .. ▸ ⟨rfl, ha⟩), hbound⟩
  | retract entity attr =>
    obtain ⟨rfl, hd⟩ := Prod.mk.inj (Except.ok.inj h)
    obtain ⟨added, hadded, ha, hbound⟩ := nothing_added hd
    exact ⟨added, hadded, congrArg Except.ok (Prod.mk.injEq .. ▸ ⟨rfl, ha⟩), hbound⟩

/-- The entity of a create is there after the first pass over it. -/
theorem tame_of_prepare {op : TxOp} {task : Task} (hop : op.LeavesConfigIds)
    (h : d.prepare op = .ok (task, d')) : task.Tame d' := by
  cases op with
  | create tempId attrs =>
    obtain ⟨⟨id, d₁⟩, halloc, h⟩ := bind_eq_ok h
    obtain ⟨rfl, rfl⟩ := Prod.mk.inj (Except.ok.inj h)
    unfold allocate at halloc
    split at halloc
    · exact nomatch halloc
    · obtain ⟨name, -, halloc⟩ := bind_eq_ok halloc
      obtain ⟨-, hhas⟩ := steps_of_place d name
      cases tempId with
      | none =>
        obtain ⟨rfl, rfl⟩ := Prod.mk.inj (Except.ok.inj halloc)
        exact hhas
      | some t =>
        obtain ⟨bound, hbind, halloc⟩ := bind_eq_ok halloc
        obtain ⟨rfl, rfl⟩ := Prod.mk.inj (Except.ok.inj halloc)
        unfold Task.Tame has at *
        rw [entities_bind hbind]
        exact hhas
  | assert entity attr value =>
    obtain ⟨rfl, rfl⟩ := Prod.mk.inj (Except.ok.inj h)
    exact hop
  | retract entity attr =>
    obtain ⟨rfl, rfl⟩ := Prod.mk.inj (Except.ok.inj h)
    exact hop

/-! ## 4. Beside the ops applied one at a time -/

/-- The draft of a first pass beside the draft of the ops that were applied one at a time: the same
ids and config ids, and the same next id. -/
structure Beside (a d : Draft) : Prop where
  dense : a.Dense
  configIds : configIds a.entities = configIds d.entities
  nextId : a.nextId = d.nextId

theorem Beside.ids {a d : Draft} (h : Beside a d) : a.entities.map (·.1) = d.entities.map (·.1) := by
  have hids := congrArg (List.map Prod.fst) h.configIds
  simpa [Draft.configIds, Function.comp_def] using hids

/-- What the first pass adds after an op stands ahead of the op. -/
theorem Beside.ahead {a a' d b : Draft} (h : Beside a d) (ha' : a'.Dense)
    {added : List (EntityId × Attrs)} (hadded : a'.entities = a.entities ++ added)
    (hentities : b.entities = d.entities ++ added)
    (htempIds : ∀ name id, d.tempIds.lookup name = some id → b.tempIds.lookup name = some id) :
    Ahead added d b where
  entities := hentities
  apart e he := by
    have hnodup := ha'.nodup
    rw [hadded, List.map_append, List.nodup_append] at hnodup
    have hnot : e.1 ∉ d.entities.map (·.1) := fun hmem =>
      hnodup.2.2 _ (h.ids ▸ hmem) _ (List.mem_map_of_mem he) rfl
    rw [← has_iff_mem] at hnot
    simpa using hnot
  tempIds := htempIds

/-- **The first pass over an op leaves both beside each other.** -/
theorem Beside.prepare {a d d₀ : Draft} (h : Beside a d) {op : TxOp} (hop : op.Valid)
    (hnone : d.tempIds = []) (hfree : ∀ t ∈ op.tempId?, a.tempIds.lookup t = none) {task : Task}
    (hprepare : d.prepare op = .ok (task, d₀)) :
    ∃ added, d₀.entities = d.entities ++ added ∧
      a.prepare op = .ok (task, ⟨a.entities ++ added, a.tempIds ++ d₀.tempIds, d₀.nextId⟩) ∧
      Beside ⟨a.entities ++ added, a.tempIds ++ d₀.tempIds, d₀.nextId⟩ d₀ ∧
      ∀ b ∈ d₀.tempIds, b.1 ∈ op.tempId? := by
  obtain ⟨added, hadded, hprepare', hbound⟩ :=
    prepare_alike h.configIds h.nextId hnone hfree hprepare
  have hdense := (steps_of_prepare hop hprepare').1.dense h.dense
  have happend : ∀ es es' : List (EntityId × Attrs),
      Draft.configIds (es ++ es') = Draft.configIds es ++ Draft.configIds es' :=
    fun es es' => List.map_append
  refine ⟨added, hadded, hprepare', ⟨hdense, ?_, rfl⟩, hbound⟩
  rw [hadded, happend, happend, h.configIds]

/-- And so does the second pass, which only the one at a time has come to. -/
theorem Beside.performed {a d₀ d₁ : Draft} (h : Beside a d₀) (hd₀ : d₀.Dense) {task : Task}
    (htask : task.Tame d₀) (hperform : d₀.perform task = .ok d₁) : Beside a d₁ where
  dense := h.dense
  configIds := h.configIds.trans (configIds_of_perform htask hd₀ hperform).symm
  nextId := h.nextId.trans (names_of_perform htask hperform).2.symm

/-- **The second pass over an op within the batch**: the later entities stay behind those that the op
makes of the ones it is meant to see. -/
theorem Beside.perform {a a' d₀ d₁ b : Draft} (h : Beside a d₀) (ha' : a'.Dense)
    {added : List (EntityId × Attrs)} (hadded : a'.entities = a.entities ++ added)
    (hentities : b.entities = d₀.entities ++ added)
    (htempIds : ∀ name id, d₀.tempIds.lookup name = some id → b.tempIds.lookup name = some id)
    (hd₀ : d₀.Grounded) {task : Task} (htask : task.Tame d₀)
    (hperform : d₀.perform task = .ok d₁) :
    ∃ b₁, b.perform task = .ok b₁ ∧ b₁.entities = d₁.entities ++ added ∧
      b₁.tempIds = b.tempIds ∧ b₁.nextId = b.nextId := by
  have hahead : Ahead added d₀ b := h.ahead ha' hadded hentities htempIds
  obtain ⟨b₁, hperform', hahead₁⟩ := hahead.perform hd₀ htask hperform
  exact ⟨b₁, hperform', hahead₁.entities, names_of_perform (hahead.tame htask) hperform'⟩

end Draft

/-! ## 5. The induction over the ops -/

namespace Graph

variable {g g' : Graph}

theorem Reachable.dense_draft (h : g.Reachable) : g.draft.Dense := ⟨h.dense.ids, h.dense.nextId⟩

theorem Reachable.grounded_draft (h : g.Reachable) : g.draft.Grounded := ⟨h.grounded.values, nofun⟩

theorem valid_of_read {batch : List (Value × Value)} {ops : List TxOp}
    (hread : List.Forall₂ (fun p op => opShape p.1 = .ok op) batch ops) : ∀ op ∈ ops, op.Valid := by
  intro op hop
  induction hread with
  | nil => exact nomatch hop
  | cons hfirst _ ih =>
    rcases List.mem_cons.mp hop with rfl | hop
    · exact opShape_valid hfirst
    · exact ih hop

/-- What a batch of one op does when it goes through. -/
theorem applyOps_singleton {v provenance : Value} {op : TxOp} {next : Option Graph}
    (hread : opShape v = .ok op) (h : g.applyOps (.list [v]) provenance = .ok next) :
    ∃ task d₀ d₁, g.draft.prepare op = .ok (task, d₀) ∧ d₀.perform task = .ok d₁ ∧
      next = some (g.commit d₁ 1 provenance) := by
  have hops : Batch.ofValue (.list [v]) = .ok [op] :=
    ofValue_of_opsShape (Shape.list_eq_ok_iff.mpr (.cons hread .nil)) (by decide : 1 < _)
  cases next with
  | none =>
    unfold applyOps at h
    rw [hops] at h
    simp only at h
    split at h
    · exact nomatch h
    · exact nomatch h
  | some g₁ =>
    obtain ⟨txOps, hops', -, d, hrun, rfl⟩ := applyOps_eq_some h
    obtain rfl := Except.ok.inj (hops.symm.trans hops')
    unfold Draft.run Draft.prepareAll at hrun
    cases hprepare : g.draft.prepare op with
    | error c => simp [hprepare] at hrun
    | ok prepared =>
      obtain ⟨task, d₀⟩ := prepared
      simp only [hprepare, Draft.prepareAll, Draft.performAll] at hrun
      cases hperform : d₀.perform task with
      | error c => simp [hperform] at hrun
      | ok d₁ =>
        rw [hperform] at hrun
        obtain rfl := Except.ok.inj hrun
        exact ⟨task, d₀, d₁, rfl, hperform, rfl⟩

/-- The name of the first of some ops is no name of the others. -/
theorem not_mem_names_of_distinct {op : TxOp} {ops : List TxOp} {t : String}
    (hdistinct : ((op :: ops).filterMap TxOp.tempId?).Nodup) (ht : t ∈ op.tempId?) :
    t ∉ ops.filterMap TxOp.tempId? := by
  rw [List.filterMap_cons_some ht] at hdistinct
  exact (List.nodup_cons.mp hdistinct).1

/-- The names of the others are still free when the name of the first has been bound. -/
theorem free_of_distinct {op : TxOp} {ops : List TxOp} {tempIds bound : List (String × EntityId)}
    (hdistinct : ((op :: ops).filterMap TxOp.tempId?).Nodup)
    (hfree : ∀ t ∈ (op :: ops).filterMap TxOp.tempId?, tempIds.lookup t = none)
    (hbound : ∀ b ∈ bound, b.1 ∈ op.tempId?) :
    ∀ t ∈ ops.filterMap TxOp.tempId?, (tempIds ++ bound).lookup t = none := by
  intro t ht
  have hnot : t ∉ Fields.names bound := by
    intro hmem
    obtain ⟨b, hb, rfl⟩ := List.mem_map.mp hmem
    exact not_mem_names_of_distinct hdistinct (hbound b hb) ht
  obtain ⟨o, ho, hname⟩ := List.mem_filterMap.mp ht
  have hbefore := hfree t (List.mem_filterMap.mpr ⟨o, List.mem_cons_of_mem op ho, hname⟩)
  rw [List.lookup_append, hbefore, Option.none_or]
  exact Fields.get?_eq_none_iff.mpr hnot

/-- **The first pass and the second.**  If ops go through one at a time, then the first pass over all
of them goes through beside them, and ends at the same next id; and after it the second pass, from any
draft that has the entities so far and the later ones behind them, ends at the same entities. -/
theorem passes_of_singles {batch : List (Value × Value)} {ops : List TxOp}
    (hread : List.Forall₂ (fun p op => opShape p.1 = .ok op) batch ops)
    (hleaves : ∀ op ∈ ops, op.LeavesConfigIds) (hdistinct : (ops.filterMap TxOp.tempId?).Nodup)
    (hg : g.Reachable) (hsingles : g.applyAll (batch.map fun p => (.list [p.1], p.2)) = .ok g')
    {a : Draft} (ha : Draft.Beside a g.draft)
    (hfree : ∀ t ∈ ops.filterMap TxOp.tempId?, a.tempIds.lookup t = none) (i j : Nat) :
    ∃ tasks added bound,
      Draft.prepareAll i a ops
        = .ok (tasks, ⟨a.entities ++ added, a.tempIds ++ bound, g'.nextId⟩) ∧
      ∀ b : Draft, b.entities = g.entities ++ added → b.tempIds = a.tempIds ++ bound →
        ∃ b', Draft.performAll j b tasks = .ok b' ∧ b'.entities = g'.entities ∧
          b'.nextId = b.nextId := by
  induction hread generalizing g a i j with
  | nil =>
    obtain rfl := Except.ok.inj hsingles
    refine ⟨[], [], [], ?_, fun b hb _ => ⟨b, rfl, ?_, rfl⟩⟩
    · rw [List.append_nil, List.append_nil, ← show a.nextId = g.nextId from ha.nextId]
      rfl
    · rw [hb, List.append_nil]
  | @cons p op batch ops hop hrest ih =>
    -- The op on its own: `d₀` after its first pass, `d₁` after its second.
    rw [List.map_cons, applyAll] at hsingles
    split at hsingles
    · cases hsingles
    next next happly =>
    obtain ⟨task, d₀, d₁, hprepare, hperform, rfl⟩ := applyOps_singleton hop happly
    rw [Option.getD_some] at hsingles
    have hvalid : op.Valid := opShape_valid hop
    have htask := Draft.tame_of_prepare (hleaves op List.mem_cons_self) hprepare
    have hsteps := (Draft.steps_of_prepare hvalid hprepare).1
    have hdense₀ : d₀.Dense := hsteps.dense hg.dense_draft
    have hgrounded₀ : d₀.Grounded := hsteps.grounded hg.grounded_draft
    -- The first pass over the op within the batch, and over the others.
    have hown : ∀ t ∈ op.tempId?, a.tempIds.lookup t = none := fun t ht =>
      hfree t (List.mem_filterMap.mpr ⟨op, List.mem_cons_self, ht⟩)
    obtain ⟨added₀, hadded₀, hprepare', hbeside₀, hbound⟩ := ha.prepare hvalid rfl hown hprepare
    obtain ⟨hdense₁, hids₁, hnext₁⟩ := hbeside₀.performed hdense₀ htask hperform
    have hdistinct' : (ops.filterMap TxOp.tempId?).Nodup :=
      hdistinct.sublist ((List.sublist_cons_self op ops).filterMap _)
    obtain ⟨tasks, added, bound, hprepareAll, hperformAll⟩ :=
      ih (fun o ho => hleaves o (List.mem_cons_of_mem op ho)) hdistinct' (hg.step happly) hsingles
        (a := ⟨a.entities ++ added₀, a.tempIds ++ d₀.tempIds, d₀.nextId⟩)
        ⟨hdense₁, hids₁, hnext₁⟩ (free_of_distinct hdistinct hfree hbound) (i + 1) (j + 1)
    refine ⟨task :: tasks, added₀ ++ added, d₀.tempIds ++ bound, ?_, fun b hentities htempIds => ?_⟩
    · simp only [Draft.prepareAll, hprepare', hprepareAll, List.append_assoc]
    -- The second pass: the entities of the others stand behind those that the op is meant to see.
    · have hdense := (Draft.steps_of_prepareAll (valid_of_read hrest) hprepareAll).1.dense hdense₁
      have hentities₀ : b.entities = d₀.entities ++ added := by
        rw [hentities, hadded₀, List.append_assoc]
        rfl
      have hnames : ∀ name id, d₀.tempIds.lookup name = some id → b.tempIds.lookup name = some id := by
        intro name id hname
        have hfirst := hown name (hbound _ (Draft.lookup_tempIds_mem hname))
        rw [htempIds, List.lookup_append, List.lookup_append, hfirst, hname]
        rfl
      obtain ⟨b₁, hperform', hentities₁, htempIds₁, hnextId₁⟩ :=
        hbeside₀.perform hdense rfl hentities₀ hnames hgrounded₀ htask hperform
      obtain ⟨b', hlast, hb', hnext'⟩ := hperformAll b₁ hentities₁
        (by rw [htempIds₁, htempIds, List.append_assoc])
      refine ⟨b', ?_, hb', hnext'.trans hnextId₁⟩
      simp only [Draft.performAll, hperform', hlast]

end Graph

/-! ## 6. One batch -/

/-- **One batch does what many do.**  Let ops be read from values, none of which asserts or retracts a
config id, and no two of which give the same name; and let them go through on a reachable graph when
they are applied one at a time, each as a batch of its own and to what the ones before have made.

* Then they go through as one batch, whoever contributes it, and make the same entities, with the same
  ids and attributes, and the same next id.
* The values themselves are then accepted as a batch, if they are no more than a list can hold. -/
theorem one_batch_for_many {g g₁ : Graph} {batch : List (Value × Value)} {ops : List TxOp}
    (hg : g.Reachable) (hread : opsShape (.list (batch.map (·.1))) = .ok ops)
    (hleaves : ∀ op ∈ ops, op.LeavesConfigIds) (hdistinct : (ops.filterMap TxOp.tempId?).Nodup)
    (hsingles : g.applyAll (batch.map fun p => (.list [p.1], p.2)) = .ok g₁)
    (provenance : Value) :
    ∃ g₂, g.transact ops provenance = .ok g₂ ∧ g₂.entities = g₁.entities ∧
      g₂.nextId = g₁.nextId ∧
      (batch.length < Number.smallBound → ∃ next,
        g.applyOps (.list (batch.map (·.1))) provenance = .ok next ∧ next.getD g = g₂) := by
  have hitems := List.forall₂_map_left_iff.mp (Shape.list_eq_ok_iff.mp hread)
  obtain ⟨tasks, added, bound, hprepare, hperform⟩ :=
    Graph.passes_of_singles hitems hleaves hdistinct hg hsingles (a := g.draft)
      ⟨hg.dense_draft, rfl, rfl⟩ (fun _ _ => rfl) 0 0
  obtain ⟨d, hperformAll, hentities, hnext⟩ :=
    hperform ⟨g.draft.entities ++ added, g.draft.tempIds ++ bound, g₁.nextId⟩ rfl rfl
  have hrun : g.draft.run ops = .ok d := by
    unfold Draft.run
    rw [hprepare]
    exact hperformAll
  cases hitems with
  | nil =>
    obtain rfl := Except.ok.inj hsingles
    exact ⟨g, rfl, rfl, rfl, fun _ => ⟨none, rfl, rfl⟩⟩
  | @cons p op rest ops hop hrest =>
    have hne : op :: ops ≠ [] := List.cons_ne_nil op ops
    refine ⟨g.commit d (op :: ops).length provenance, ?_, hentities, hnext, fun hcount => ?_⟩
    · unfold Graph.transact
      simp only [List.isEmpty_cons, Bool.false_eq_true, if_false, hrun]
    · have hbatch := ofValue_of_opsShape hread (by rwa [List.length_map])
      exact ⟨_, Graph.applyOps_of_run hbatch hne hrun, rfl⟩

/-- Ops that meet earlier ones in every way: a create that refers to itself, one that refers to the
first by its config id, one that adds to the first and refers to the second by its id, and an op each
that finds its entity by a config id and by its id. -/
def linkedOps : List TxOp := [
  .create (some "left") [("config/id", .str "app/left"), ("self", .ref (.tempId "left"))],
  .create none [("config/id", .str "app/right"),
    ("peer", .ref (.lookup "config/id" (.str "app/left")))],
  .create (some "again") [("config/id", .str "app/left"), ("peers", .list [.ref (.id 2)])],
  .assert (.lookup "config/id" (.str "app/right")) "own" (.ref (.id 2)),
  .retract (.id 1) "self"]

/-- What `linkedOps` make of the empty graph when they are applied one at a time. -/
def linkedGraph : Graph where
  basisTx := 5
  nextId := 3
  entities := [
    (1, [("config/id", .str "app/left"), ("peers", .list [.ref 2])]),
    (2, [("config/id", .str "app/right"), ("peer", .ref 1), ("own", .ref 2)])]
  tempIds := []
  transactions := (List.range' 1 5).map fun k => ⟨k, 1, .null⟩

/-- `linkedOps` as values, each with who contributes it. -/
def linkedBatch : List (Value × Value) := linkedOps.map fun op => (op.toValue, .null)

theorem one_batch_for_linkedOps :
    Graph.empty.applyAll (linkedBatch.map fun p => (.list [p.1], p.2)) = .ok linkedGraph ∧
      ∃ g, Graph.empty.transact linkedOps (.str "batch") = .ok g ∧
        g.entities = linkedGraph.entities ∧ g.nextId = 3 := by
  have hread : opsShape (.list (linkedBatch.map (·.1))) = .ok linkedOps := rfl
  have hsingles : Graph.empty.applyAll (linkedBatch.map fun p => (.list [p.1], p.2))
      = .ok linkedGraph := rfl
  obtain ⟨g, htransact, hentities, hnext, -⟩ :=
    one_batch_for_many .empty hread (by decide) (by decide) hsingles (.str "batch")
  exact ⟨hsingles, g, htransact, hentities, hnext⟩

end ConfGraph
