import ConfGraph.Proofs.Graph.Naming

/-!
# The two passes, taken apart

Whoever reasons about a whole batch needs to know what its parts did.  Each lemma here turns one part
of a transaction around: from the fact that a pass went through to what it did with its first op, and
from the fact that a create was given an entity to how it came by it.

* `Draft.run_eq_ok_iff`, `Draft.prepareAll_cons_eq_ok_iff`, `Draft.performAll_cons_eq_ok_iff`: passes.
* `Draft.Placed`, `Draft.Binds`, `Draft.prepare_create`: how a create comes by its entity.
* `Draft.Found`, `Draft.found_of_prepareAll`: what the first pass leaves of the ops.
* `Draft.performAll_keeps`: what no write and no removal changes, the second pass keeps.
* `Graph.run_of_applyOps`: a batch that is accepted goes through both passes.
-/

namespace ConfGraph

namespace Draft

variable {d d' : Draft}

/-! ## 1. Passes over a list -/

theorem run_eq_ok_iff {ops : List TxOp} : d.run ops = .ok d' ↔
    ∃ tasks d₁, prepareAll 0 d ops = .ok (tasks, d₁) ∧ performAll 0 d₁ tasks = .ok d' := by
  unfold run
  cases prepareAll 0 d ops with
  | error r => simp
  | ok prepared =>
    obtain ⟨tasks, d₁⟩ := prepared
    simp

theorem prepareAll_nil_eq_ok_iff {index : Nat} {tasks : List Task} :
    prepareAll index d [] = .ok (tasks, d') ↔ tasks = [] ∧ d' = d := by
  simp [prepareAll, eq_comm]

theorem prepareAll_cons_eq_ok_iff {index : Nat} {op : TxOp} {rest : List TxOp}
    {tasks : List Task} : prepareAll index d (op :: rest) = .ok (tasks, d') ↔
      ∃ task d₁ tasks', d.prepare op = .ok (task, d₁) ∧
        prepareAll (index + 1) d₁ rest = .ok (tasks', d') ∧ tasks = task :: tasks' := by
  rw [prepareAll]
  cases d.prepare op with
  | error c => simp
  | ok prepared =>
    obtain ⟨task, d₁⟩ := prepared
    simp only [Except.ok.injEq, Prod.mk.injEq]
    cases hrest : prepareAll (index + 1) d₁ rest with
    | error r =>
      constructor
      · intro h
        cases h
      · rintro ⟨_, _, _, ⟨rfl, rfl⟩, h, -⟩
        rw [hrest] at h
        cases h
    | ok others =>
      obtain ⟨tasks', d₂⟩ := others
      constructor
      · intro h
        obtain ⟨rfl, rfl⟩ := Prod.mk.inj (Except.ok.inj h)
        exact ⟨task, d₁, tasks', ⟨rfl, rfl⟩, hrest, rfl⟩
      · rintro ⟨_, _, _, ⟨rfl, rfl⟩, h, rfl⟩
        rw [hrest] at h
        obtain ⟨rfl, rfl⟩ := Prod.mk.inj (Except.ok.inj h)
        rfl

theorem performAll_cons_eq_ok_iff {index : Nat} {task : Task} {rest : List Task} :
    performAll index d (task :: rest) = .ok d' ↔
      ∃ d₁, d.perform task = .ok d₁ ∧ performAll (index + 1) d₁ rest = .ok d' := by
  rw [performAll]
  cases d.perform task with
  | error c => simp
  | ok d₁ => simp

/-! ## 2. The first pass over a create -/

/-- The entity that has a config id. -/
def named? (d : Draft) (name : String) : Option EntityId := findIn d.entities configId (.str name)

/-- The attributes with which a create makes its entity: the config id that it gives, if it gives
one. -/
def initial (name : Option String) : Attrs :=
  (name.map fun s => (configId, AttrValue.str s)).toList

/-- How a create comes by its entity. -/
inductive Placed (d d' : Draft) : Option String → EntityId → Prop
  /-- An entity has the config id that the create gives. -/
  | held {name : String} {id : EntityId} (holder : d.named? name = some id)
    (entities : d'.entities = d.entities) (nextId : d'.nextId = d.nextId) :
    Placed d d' (some name) id
  /-- No entity has it, or none is given, and a new entity is made. -/
  | made {name : Option String} (is_new : ∀ s, name = some s → d.named? s = none)
    (entities : d'.entities = d.entities ++ [(d.nextId, initial name)])
    (nextId : d'.nextId = d.nextId + 1) :
    Placed d d' name d.nextId

/-- What a create does to the names of the transaction: its own, if it has one, is that of its entity
from then on, and no name that was bound is bound to anything else. -/
structure Binds (d d' : Draft) (tempId : Option String) (id : EntityId) : Prop where
  own : ∀ t, tempId = some t → d'.tempIds.lookup t = some id
  other : ∀ t, tempId ≠ some t → d'.tempIds.lookup t = d.tempIds.lookup t
  kept : ∀ t b, d.tempIds.lookup t = some b → d'.tempIds.lookup t = some b

theorem placed_place (d : Draft) (name : Option String) :
    Placed d (d.place name).2 name (d.place name).1 := by
  cases name with
  | none => exact .made (fun _ h => nomatch h) rfl rfl
  | some name =>
    cases hfind : findIn d.entities configId (.str name) with
    | some id =>
      have hplace : d.place (some name) = (id, d) := by simp [place, hfind]
      rw [hplace]
      exact .held hfind rfl rfl
    | none =>
      have hplace : d.place (some name) = d.fresh [(configId, .str name)] := by
        simp [place, hfind]
      rw [hplace]
      refine .made (fun s hs => ?_) rfl rfl
      obtain rfl := Option.some.inj hs
      exact hfind

theorem tempIds_place (d : Draft) (name : Option String) :
    (d.place name).2.tempIds = d.tempIds := by
  cases name with
  | none => rfl
  | some name =>
    unfold place
    simp only
    split
    · rfl
    · rfl

/-- Binding a name changes names only, and binds it. -/
theorem binds_bind {name : String} {id : EntityId} (h : d.bind name id = .ok d') :
    Binds d d' (some name) id ∧ d'.entities = d.entities ∧ d'.nextId = d.nextId := by
  unfold bind at h
  split at h
  · next hfree =>
    obtain rfl := Except.ok.inj h
    refine ⟨⟨fun t ht => ?_, fun t ht => ?_, fun t b hb => ?_⟩, rfl, rfl⟩
    · obtain rfl := Option.some.inj ht
      simp [List.lookup_append, hfree]
    · have hne : t ≠ name := fun heq => ht (heq ▸ rfl)
      simp [List.lookup_append, List.lookup_cons, beq_eq_false_iff_ne.mpr hne]
    · simp [List.lookup_append, hb]
  · next bound hbound =>
    split at h
    · next hsame =>
      obtain rfl := Except.ok.inj h
      refine ⟨⟨fun t ht => ?_, fun _ _ => rfl, fun _ _ hb => hb⟩, rfl, rfl⟩
      obtain rfl := Option.some.inj ht
      exact hsame ▸ hbound
    · cases h

theorem allocate_eq_ok {tempId : Option String} {attrs : Fields OpValue} {id : EntityId}
    (h : d.allocate tempId attrs = .ok (id, d')) :
    ∃ name, givenName attrs = .ok name ∧ Placed d d' name id ∧ Binds d d' tempId id := by
  unfold allocate at h
  split at h
  · cases h
  · obtain ⟨name, hname, h⟩ := bind_eq_ok h
    refine ⟨name, hname, ?_⟩
    have hplaced := placed_place d name
    have htempIds := tempIds_place d name
    generalize d.place name = placing at h hplaced htempIds
    obtain ⟨placed, d₀⟩ := placing
    cases tempId with
    | none =>
      obtain ⟨rfl, rfl⟩ := Prod.mk.inj (Except.ok.inj h)
      refine ⟨hplaced, fun _ ht => (nomatch ht), fun t _ => ?_, fun t b hb => ?_⟩
      · rw [htempIds]
      · rwa [htempIds]
    | some t =>
      obtain ⟨bound, hbind, h⟩ := bind_eq_ok h
      obtain ⟨rfl, rfl⟩ := Prod.mk.inj (Except.ok.inj h)
      obtain ⟨⟨own, other, kept⟩, hentities, hnextId⟩ := binds_bind hbind
      rw [htempIds] at other kept
      refine ⟨?_, own, other, kept⟩
      cases hplaced with
      | held holder entities nextId =>
        exact .held holder (hentities.trans entities) (hnextId.trans nextId)
      | made is_new entities nextId =>
        exact .made is_new (hentities.trans entities) (hnextId.trans nextId)

/-- **What the first pass does with a create**: it gives it an entity and binds its name. -/
theorem prepare_create {tempId : Option String} {attrs : Fields OpValue} {task : Task}
    (h : d.prepare (.create tempId attrs) = .ok (task, d')) :
    ∃ id name, task = .fill id attrs ∧ givenName attrs = .ok name ∧ Placed d d' name id ∧
      Binds d d' tempId id := by
  obtain ⟨⟨id, d₁⟩, halloc, h⟩ := bind_eq_ok h
  obtain ⟨rfl, rfl⟩ := Prod.mk.inj (Except.ok.inj h)
  obtain ⟨name, hname, hplaced, hbinds⟩ := allocate_eq_ok halloc
  exact ⟨id, name, rfl, hname, hplaced, hbinds⟩

/-- What the first pass does with any other op: nothing. -/
theorem prepare_assert {entity : EntityRef} {attr : String} {value : OpValue} {task : Task}
    (h : d.prepare (.assert entity attr value) = .ok (task, d')) :
    task = .assert entity attr value ∧ d' = d := by
  obtain ⟨rfl, rfl⟩ := Prod.mk.inj (Except.ok.inj h)
  exact ⟨rfl, rfl⟩

theorem prepare_retract {entity : EntityRef} {attr : String} {task : Task}
    (h : d.prepare (.retract entity attr) = .ok (task, d')) :
    task = .retract entity attr ∧ d' = d := by
  obtain ⟨rfl, rfl⟩ := Prod.mk.inj (Except.ok.inj h)
  exact ⟨rfl, rfl⟩

/-! ## 3. What the first pass has found -/

theorem matchesSearch_initial (name : Option String) (s : String) :
    matchesSearch configId (.str s) (initial name) = true ↔ name = some s := by
  have texts : ∀ f ∈ initial name, f.1 = configId → ∃ s, f.2 = .str s := by
    simp [initial]
  rw [matchesSearch_configId texts]
  cases name with
  | none => simp [initial]
  | some t => simp [initial, Fields.get?_cons]

/-- Once a create is placed, its entity has the name that it gives, and all other names are as they
were. -/
theorem Placed.named? {name : Option String} {id : EntityId} (h : Placed d d' name id) (s : String) :
    d'.named? s = if name = some s then some id else d.named? s := by
  cases h with
  | @held name id holder entities nextId =>
    by_cases hs : some name = some s
    · obtain rfl := Option.some.inj hs
      rw [if_pos rfl, Draft.named?, entities]
      exact holder
    · rw [if_neg hs, Draft.named?, entities]
      rfl
  | made is_new entities nextId =>
    have hlast : findIn [(d.nextId, initial name)] configId (.str s)
        = if name = some s then some d.nextId else none := by
      have hmatch := matchesSearch_initial name s
      by_cases hs : name = some s
      · simp [findIn, hmatch.mpr hs, ← hs]
      · simp [findIn, Bool.eq_false_iff.mpr (mt hmatch.mp hs), hs]
    have hsplit : d'.named? s
        = (d.named? s).or (findIn [(d.nextId, initial name)] configId (.str s)) := by
      simp only [Draft.named?, entities, findIn, List.find?_append, Option.map_or]
    rw [hsplit, hlast]
    by_cases hs : name = some s
    · rw [is_new s hs, Option.none_or, if_pos hs]
    · rw [if_neg hs, if_neg hs, Option.or_none]

/-- An attribute of an entity. -/
def read (d : Draft) (id : EntityId) (name : String) : Option AttrValue :=
  Fields.get? (d.attrsOf id) name

/-- What the first pass has found it finds for good: entities with their attributes, who has a config
id, and what a name stands for. -/
structure Grows (d d' : Draft) : Prop where
  has : ∀ id, d.has id = true → d'.has id = true
  read : ∀ id name a, d.read id name = some a → d'.read id name = some a
  named : ∀ s id, d.named? s = some id → d'.named? s = some id
  tempIds : ∀ t id, d.tempIds.lookup t = some id → d'.tempIds.lookup t = some id

theorem Grows.refl (d : Draft) : Grows d d where
  has _ h := h
  read _ _ _ h := h
  named _ _ h := h
  tempIds _ _ h := h

theorem Grows.trans {a b c : Draft} (h : Grows a b) (h' : Grows b c) : Grows a c where
  has id hid := h'.has id (h.has id hid)
  read id name a ha := h'.read id name a (h.read id name a ha)
  named s id hs := h'.named s id (h.named s id hs)
  tempIds t id ht := h'.tempIds t id (h.tempIds t id ht)

theorem Placed.has {name : Option String} {id : EntityId} (h : Placed d d' name id) :
    d'.has id = true ∧ ∀ e, d.has e = true → d'.has e = true := by
  cases h with
  | held holder entities nextId =>
    have hsame : d'.has = d.has := by
      funext e
      rw [Draft.has, entities, Draft.has]
    rw [hsame]
    exact ⟨has_of_findIn holder, fun _ he => he⟩
  | made is_new entities nextId =>
    refine ⟨has_iff_mem.mpr (by simp [entities]), fun e he => ?_⟩
    rw [has_iff_mem] at he ⊢
    simp only [entities, List.map_append, List.mem_append]
    exact .inl he

/-- Once a create is placed, entities have the attributes that they had, and a new one has the config
id that the create gives. -/
theorem Placed.read {name : Option String} {id : EntityId} (h : Placed d d' name id) (e : EntityId)
    (attr : String) : d'.read e attr = d.read e attr ∨
      (d.has e = false ∧ e = id ∧ (∀ s, name = some s → d.named? s = none) ∧
        d'.read e attr = Fields.get? (initial name) attr) := by
  cases h with
  | held holder entities nextId =>
    left
    rw [Draft.read, attrsOf, entities]
    rfl
  | made is_new entities nextId =>
    rw [Draft.read, attrsOf, entities, List.lookup_append, Draft.read, attrsOf, Draft.has]
    cases hlookup : d.entities.lookup e with
    | some attrs => simp
    | none =>
      by_cases hid : e = d.nextId
      · right
        exact ⟨rfl, hid, is_new, by simp [hid]⟩
      · left
        simp [List.lookup_cons, beq_eq_false_iff_ne.mpr hid]

theorem read_of_not_has {e : EntityId} (h : d.has e = false) (attr : String) :
    d.read e attr = none := by
  have hnone : d.entities.lookup e = none := by
    rwa [Draft.has, Option.isSome_eq_false_iff, Option.isNone_iff_eq_none] at h
  rw [read, attrsOf, hnone]
  rfl

/-- A name that somebody has is not given to anybody else. -/
theorem Placed.named?_kept {name : Option String} {id : EntityId} (h : Placed d d' name id)
    {s : String} {e : EntityId} (hs : d.named? s = some e) : d'.named? s = some e := by
  rw [h.named? s]
  by_cases hname : name = some s
  · subst hname
    cases h with
    | held holder entities nextId => rw [if_pos rfl, ← holder, hs]
    | made is_new entities nextId =>
      rw [is_new s rfl] at hs
      cases hs
  · rw [if_neg hname, hs]

/-- What the first pass has found for an op: for a create an entity, which has the config id that the
create gives and the name that it binds. -/
inductive Found (d : Draft) : TxOp → Task → Prop
  | create {tempId : Option String} {attrs : Fields OpValue} {id : EntityId} {name : Option String}
    (given : givenName attrs = .ok name) (is_entity : d.has id = true)
    (is_named : ∀ s, name = some s → d.named? s = some id)
    (is_bound : ∀ t, tempId = some t → d.tempIds.lookup t = some id) :
    Found d (.create tempId attrs) (.fill id attrs)
  | assert (entity : EntityRef) (attr : String) (value : OpValue) :
    Found d (.assert entity attr value) (.assert entity attr value)
  | retract (entity : EntityRef) (attr : String) :
    Found d (.retract entity attr) (.retract entity attr)

theorem Found.mono {op : TxOp} {task : Task} (h : Found d op task) (hgrows : Grows d d') :
    Found d' op task := by
  cases h with
  | create given is_entity is_named is_bound =>
    exact .create given (hgrows.has _ is_entity) (fun s hs => hgrows.named s _ (is_named s hs))
      fun t ht => hgrows.tempIds t _ (is_bound t ht)
  | assert entity attr value => exact .assert entity attr value
  | retract entity attr => exact .retract entity attr

/-- **One op**: what it is looking for is found, and all that was found before stays so. -/
theorem found_of_prepare {op : TxOp} {task : Task} (h : d.prepare op = .ok (task, d')) :
    Found d' op task ∧ Grows d d' := by
  cases op with
  | create tempId attrs =>
    obtain ⟨id, name, rfl, hname, hplaced, hbinds⟩ := prepare_create h
    obtain ⟨hentity, hhas⟩ := hplaced.has
    have hread : ∀ e attr a, d.read e attr = some a → d'.read e attr = some a := by
      intro e attr a ha
      obtain hsame | ⟨hnot, -⟩ := hplaced.read e attr
      · rw [hsame, ha]
      · rw [read_of_not_has hnot] at ha
        cases ha
    refine ⟨.create hname hentity (fun s hs => ?_) hbinds.own,
      hhas, hread, fun s e hs => hplaced.named?_kept hs, hbinds.kept⟩
    rw [hplaced.named? s, if_pos hs]
  | assert entity attr value =>
    obtain ⟨rfl, rfl⟩ := prepare_assert h
    exact ⟨.assert entity attr value, .refl d'⟩
  | retract entity attr =>
    obtain ⟨rfl, rfl⟩ := prepare_retract h
    exact ⟨.retract entity attr, .refl d'⟩

/-- **The first pass finds something for every op**, and keeps it. -/
theorem found_of_prepareAll {ops : List TxOp} {index : Nat} {d : Draft} {tasks : List Task}
    (h : prepareAll index d ops = .ok (tasks, d')) :
    List.Forall₂ (Found d') ops tasks ∧ Grows d d' := by
  induction ops generalizing index d tasks with
  | nil =>
    obtain ⟨rfl, rfl⟩ := prepareAll_nil_eq_ok_iff.mp h
    exact ⟨.nil, .refl d'⟩
  | cons op rest ih =>
    obtain ⟨task, d₁, tasks', hfirst, hrest, rfl⟩ := prepareAll_cons_eq_ok_iff.mp h
    obtain ⟨hfound, hgrows⟩ := found_of_prepare hfirst
    obtain ⟨hothers, hgrows'⟩ := ih hrest
    exact ⟨.cons (hfound.mono hgrows') hothers, hgrows.trans hgrows'⟩

theorem found_at {ops : List TxOp} {tasks : List Task} (h : List.Forall₂ (Found d) ops tasks)
    {i : Nat} {op : TxOp} (hop : ops[i]? = some op) :
    ∃ task, tasks[i]? = some task ∧ Found d op task := by
  obtain ⟨hlt, rfl⟩ := List.getElem?_eq_some_iff.mp hop
  have hlt' : i < tasks.length := h.length_eq ▸ hlt
  exact ⟨tasks[i], List.getElem?_eq_getElem hlt', h.get hlt hlt'⟩

theorem found_for {ops : List TxOp} {tasks : List Task} (h : List.Forall₂ (Found d) ops tasks)
    {i : Nat} {task : Task} (htask : tasks[i]? = some task) :
    ∃ op, ops[i]? = some op ∧ Found d op task := by
  obtain ⟨hlt', rfl⟩ := List.getElem?_eq_some_iff.mp htask
  have hlt : i < ops.length := h.length_eq ▸ hlt'
  exact ⟨ops[i], List.getElem?_eq_getElem hlt, h.get hlt hlt'⟩

/-! ## 4. What the second pass keeps -/

/-- A write that goes through sets the attributes of its entity. -/
theorem write_eq_ok {id : EntityId} {name : String} {value : AttrValue}
    (h : d.write id name value = .ok d') :
    name ≠ dbId ∧ (name = configId → d.checkName id value = .ok ()) ∧
      d' = d.setAttrs id (Fields.put (d.attrsOf id) name value) := by
  unfold write at h
  split at h
  · cases h
  · next hdb =>
    by_cases hconfig : name = configId
    · rw [if_pos hconfig] at h
      obtain ⟨_, hcheck, h⟩ := bind_eq_ok h
      exact ⟨hdb, fun _ => hcheck, (Except.ok.inj h).symm⟩
    · rw [if_neg hconfig] at h
      exact ⟨hdb, fun hc => absurd hc hconfig, (Except.ok.inj h).symm⟩

theorem remove_eq_ok {id : EntityId} {name : String} (h : d.remove id name = .ok d') :
    name ≠ dbId ∧ d' = d.setAttrs id (Fields.erase (d.attrsOf id) name) := by
  unfold remove at h
  split at h
  · cases h
  · next hdb => exact ⟨hdb, (Except.ok.inj h).symm⟩

section Keeping

variable {P : Draft → Prop} (set : ∀ (d : Draft) id attrs, P d → P (d.setAttrs id attrs))

include set

theorem fill_keeps {attrs : Fields OpValue} {id : EntityId} {d : Draft}
    (h : d.fill id attrs = .ok d') (hd : P d) : P d' := by
  induction attrs generalizing d with
  | nil =>
    obtain rfl := Except.ok.inj h
    exact hd
  | cons f rest ih =>
    unfold fill at h
    split at h
    · exact ih h hd
    · obtain ⟨value, -, h⟩ := bind_eq_ok h
      obtain ⟨d₁, hwrite, h⟩ := bind_eq_ok h
      obtain ⟨-, -, rfl⟩ := write_eq_ok hwrite
      exact ih h (set d id _ hd)

/-- What setting attributes keeps, an op keeps. -/
theorem perform_keeps {task : Task} (h : d.perform task = .ok d') (hd : P d) : P d' := by
  cases task with
  | fill id attrs => exact fill_keeps set h hd
  | assert entity attr value =>
    obtain ⟨id, -, h⟩ := bind_eq_ok h
    obtain ⟨a, -, hwrite⟩ := bind_eq_ok h
    obtain ⟨-, -, rfl⟩ := write_eq_ok hwrite
    exact set d id _ hd
  | retract entity attr =>
    obtain ⟨id, -, hremove⟩ := bind_eq_ok h
    obtain ⟨-, rfl⟩ := remove_eq_ok hremove
    exact set d id _ hd

/-- **What setting attributes keeps, the second pass keeps.** -/
theorem performAll_keeps {tasks : List Task} {index : Nat} {d : Draft}
    (h : performAll index d tasks = .ok d') (hd : P d) : P d' := by
  induction tasks generalizing index d with
  | nil =>
    obtain rfl := Except.ok.inj h
    exact hd
  | cons task rest ih =>
    obtain ⟨d₁, hfirst, hrest⟩ := performAll_cons_eq_ok_iff.mp h
    exact ih hrest (perform_keeps set hfirst hd)

end Keeping

theorem performAll_append_eq_ok_iff {xs ys : List Task} {index : Nat} {d : Draft} :
    performAll index d (xs ++ ys) = .ok d' ↔
      ∃ d₁, performAll index d xs = .ok d₁ ∧ performAll (index + xs.length) d₁ ys = .ok d' := by
  induction xs generalizing index d with
  | nil => simp [performAll]
  | cons task rest ih =>
    have hindex : index + (task :: rest).length = index + 1 + rest.length := by
      rw [List.length_cons]
      omega
    rw [List.cons_append, performAll_cons_eq_ok_iff, hindex]
    simp only [ih, performAll_cons_eq_ok_iff]
    constructor
    · rintro ⟨d₁, hfirst, d₂, hxs, hys⟩
      exact ⟨d₂, ⟨d₁, hfirst, hxs⟩, hys⟩
    · rintro ⟨d₂, ⟨d₁, hfirst, hxs⟩, hys⟩
      exact ⟨d₁, hfirst, d₂, hxs, hys⟩

/-- The second pass makes no entity and binds no name. -/
theorem names_of_performAll {tasks : List Task} {index : Nat}
    (h : performAll index d tasks = .ok d') :
    d'.tempIds = d.tempIds ∧ d'.nextId = d.nextId ∧ ∀ id, d'.has id = d.has id := by
  refine performAll_keeps
    (P := fun x => x.tempIds = d.tempIds ∧ x.nextId = d.nextId ∧ ∀ id, x.has id = d.has id)
    ?_ h ⟨rfl, rfl, fun _ => rfl⟩
  rintro x id attrs ⟨htempIds, hnextId, hhas⟩
  exact ⟨htempIds, hnextId, fun e => (has_setAttrs x id attrs e).trans (hhas e)⟩

end Draft

/-! ## 5. Accepted batches -/

namespace Graph

variable {g : Graph}

/-- The graph stays the very same just when the batch is empty. -/
theorem applyOps_eq_none_iff {batch provenance : Value} :
    g.applyOps batch provenance = .ok none ↔ Batch.ofValue batch = .ok [] := by
  unfold applyOps
  constructor
  · intro h
    split at h
    · cases h
    · next hread => exact hread
    · split at h
      · cases h
      · cases h
  · intro h
    rw [h]

/-- A batch that is read and whose passes refuse it is refused. -/
theorem applyOps_of_refused {batch provenance : Value} {ops : List TxOp} {r : Rejection}
    (hread : Batch.ofValue batch = .ok ops) (hrun : g.draft.run ops = .error r) :
    g.applyOps batch provenance = .error (.rejected r) := by
  cases ops with
  | nil => cases hrun
  | cons op rest =>
    have htransact : g.transact (op :: rest) provenance = .error r := by
      unfold transact
      simp only [List.isEmpty_cons, Bool.false_eq_true, if_false, hrun]
    unfold applyOps
    simp only [hread, htransact]

/-- A batch that is accepted goes through both passes, be it empty or not. -/
theorem run_of_applyOps {batch provenance : Value} {ops : List TxOp} {next : Option Graph}
    (hread : Batch.ofValue batch = .ok ops) (h : g.applyOps batch provenance = .ok next) :
    ∃ d, g.draft.run ops = .ok d ∧ (next.getD g).entities = d.entities := by
  cases next with
  | none =>
    obtain rfl := Except.ok.inj (hread.symm.trans (applyOps_eq_none_iff.mp h))
    exact ⟨g.draft, rfl, rfl⟩
  | some g' =>
    obtain ⟨ops', hread', -, d, hrun, rfl⟩ := applyOps_eq_some h
    obtain rfl := Except.ok.inj (hread.symm.trans hread')
    exact ⟨d, hrun, rfl⟩

end Graph

end ConfGraph
